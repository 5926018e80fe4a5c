import Mathlib.Order.Bounds.Basic
import EmbedServer.Embed.Locality

/-!
# What `sparse_maxpool` returns

The weights are collected in a map from tokens to running maxima, whose keys are then sorted.

* `Tally`               the map holds, for each token seen, the greatest of its scores;
* `MaxPooled`           what the result has to be;
* `MaxPooled.unique`    there is one such result, and it depends on the scored positions only;
* `sparseMaxpool_spec`  the result is that one, in whatever order the positions come, with or without
                        the masked ones.
-/

namespace EmbedServer

/-- scores without NaN: the comparison and the maximum are those of a total order -/
class OrderedScores (F : Type) [F32Ops F] [LinearOrder F] : Prop where
  gt_iff (a b : F) : F32Ops.gt a b = true ↔ b < a
  max_eq (a b : F) : F32Ops.max a b = max a b

/-! ## the map -/

section
variable {F : Type} [F32Ops F] {w : List (Nat × F)} {k k' : Nat} {score : F}

theorem mem_keys_bump : k' ∈ (bump w k score).map Prod.fst ↔ k' = k ∨ k' ∈ w.map Prod.fst := by
  induction w with
  | nil => rw [bump, List.map_singleton, List.mem_singleton, List.map_nil, or_iff_left List.not_mem_nil]
  | cons p w ih =>
    obtain ⟨q, v⟩ := p
    rw [bump]
    split
    · rename_i hq
      rw [List.map_cons, List.map_cons, List.mem_cons, hq, ← or_assoc, or_self]
    · rw [List.map_cons, List.mem_cons, ih, List.map_cons, List.mem_cons, or_left_comm]

theorem nodup_bump (h : (w.map Prod.fst).Nodup) : ((bump w k score).map Prod.fst).Nodup := by
  induction w with
  | nil => exact List.nodup_singleton k
  | cons p w ih =>
    obtain ⟨q, v⟩ := p
    obtain ⟨hq, hw⟩ := List.nodup_cons.mp h
    rw [bump]
    split
    · exact List.nodup_cons.mpr ⟨hq, hw⟩
    · rename_i hne
      refine List.nodup_cons.mpr ⟨?_, ih hw⟩
      intro hmem
      exact (mem_keys_bump.mp hmem).elim hne hq

theorem lookup_bump_self : (bump w k score).lookup k =
    some (match w.lookup k with
      | some v => F32Ops.max v score
      | none => score) := by
  induction w with
  | nil => rw [bump, List.lookup_cons_self, List.lookup_nil]
  | cons p w ih =>
    obtain ⟨q, v⟩ := p
    rw [bump]
    split
    · rename_i hq
      rw [hq, List.lookup_cons_self, List.lookup_cons_self]
    · rename_i hq
      have hbeq : (k == q) = false := beq_false_of_ne (Ne.symm hq)
      rw [List.lookup_cons, hbeq, ih, List.lookup_cons, hbeq]

theorem lookup_bump_of_ne (h : k' ≠ k) : (bump w k score).lookup k' = w.lookup k' := by
  induction w with
  | nil => rw [bump, List.lookup_cons, beq_false_of_ne h]
  | cons p w ih =>
    obtain ⟨q, v⟩ := p
    rw [bump]
    split
    · rename_i hq
      have hbeq : (k' == q) = false := beq_false_of_ne (hq ▸ h)
      rw [List.lookup_cons, hbeq, List.lookup_cons, hbeq]
    · rw [List.lookup_cons, List.lookup_cons, ih]

end

section
variable {F : Type} [LinearOrder F]

/-- for each token with a score of `A`, the greatest one -/
structure Tally (w : List (Nat × F)) (A : Nat → F → Prop) : Prop where
  nodup : (w.map Prod.fst).Nodup
  keys : ∀ k, k ∈ w.map Prod.fst ↔ ∃ score, A k score
  greatest : ∀ k v, w.lookup k = some v → IsGreatest {score | A k score} v

theorem tally_nil {A : Nat → F → Prop} (h : ∀ k score, ¬ A k score) : Tally [] A where
  nodup := List.nodup_nil
  keys := fun k => ⟨fun hk => absurd hk List.not_mem_nil, fun ⟨score, hs⟩ => absurd hs (h k score)⟩
  greatest := fun k v hv => by cases hv

theorem Tally.congr {w : List (Nat × F)} {A B : Nat → F → Prop} (h : Tally w A)
    (hAB : ∀ k score, A k score ↔ B k score) : Tally w B := by
  have he : A = B := funext fun k => funext fun score => propext (hAB k score)
  exact he ▸ h

/-- one more score -/
theorem Tally.add [F32Ops F] [OrderedScores F] {w : List (Nat × F)} {A : Nat → F → Prop} (h : Tally w A)
    (k : Nat) (score : F) : Tally (bump w k score) (fun k' score' => A k' score' ∨ k' = k ∧ score' = score) := by
  refine ⟨nodup_bump h.nodup, ?_, ?_⟩
  · intro k'
    rw [mem_keys_bump, h.keys]
    constructor
    · rintro (rfl | ⟨s, hs⟩)
      · exact ⟨score, .inr ⟨rfl, rfl⟩⟩
      · exact ⟨s, .inl hs⟩
    · rintro ⟨s, hs | ⟨rfl, -⟩⟩
      · exact .inr ⟨s, hs⟩
      · exact .inl rfl
  · intro k' v hv
    by_cases hk : k' = k
    · subst hk
      have hset : {s | A k' s ∨ k' = k' ∧ s = score} = insert score {s | A k' s} := by
        ext s
        simp [or_comm]
      rw [hset]
      rw [lookup_bump_self] at hv
      cases hold : w.lookup k' with
      | none =>
        rw [hold] at hv
        cases hv
        have hempty : {s | A k' s} = ∅ := by
          refine Set.eq_empty_iff_forall_notMem.mpr fun s hs => ?_
          obtain ⟨u, hu⟩ := lookup_of_mem_keys ((h.keys k').mpr ⟨s, hs⟩)
          rw [hold] at hu
          cases hu
        rw [hempty, insert_empty_eq]
        exact isGreatest_singleton
      | some u =>
        rw [hold] at hv
        cases hv
        show IsGreatest _ (F32Ops.max u score)
        rw [OrderedScores.max_eq, max_comm]
        exact (h.greatest k' u hold).insert score
    · rw [lookup_bump_of_ne hk] at hv
      obtain ⟨hmem, hle⟩ := h.greatest k' v hv
      refine ⟨.inl hmem, ?_⟩
      rintro s (hs | ⟨he, -⟩)
      · exact hle hs
      · exact absurd he hk

end

/-! ## the result -/

section
variable {F : Type} [F32Ops F] [LinearOrder F]

/-- position `j` counts for the token with this score -/
def Counts (mask : List Nat) (scores : List F) (tokenId j : Nat) (score : F) : Prop :=
  tokenId ∉ specialTokens ∧ (∃ m, mask[j]? = some m ∧ m ≠ 0) ∧ scores[j]? = some score ∧
    F32Ops.zero < score

/-- some position counts for the token with this score -/
def Scored (ids mask : List Nat) (scores : List F) (tokenId : Nat) (score : F) : Prop :=
  ∃ j, ids[j]? = some tokenId ∧ Counts mask scores tokenId j score

/-- the tokens with a score in increasing order, each with its greatest score -/
structure MaxPooled (ids mask : List Nat) (scores : List F) (r : List Nat × List F) : Prop where
  increasing : r.1.Pairwise (· < ·)
  tokens : ∀ tokenId, tokenId ∈ r.1 ↔ ∃ score, Scored ids mask scores tokenId score
  length : r.2.length = r.1.length
  values : ∀ (i tokenId : Nat) (v : F), r.1[i]? = some tokenId → r.2[i]? = some v →
    IsGreatest {score | Scored ids mask scores tokenId score} v

variable {ids mask : List Nat} {scores : List F}

/-- one round of the loop -/
theorem Tally.round [OrderedScores F] {pre : List (Nat × Nat)} {w : List (Nat × F)} {tokenId j m : Nat}
    {score : F} (hm : mask[j]? = some m) (hs : scores[j]? = some score)
    (h : Tally w fun k s => ∃ i, (k, i) ∈ pre ∧ Counts mask scores k i s) :
    Tally (if m ≠ 0 ∧ tokenId ∉ specialTokens ∧ F32Ops.gt score F32Ops.zero = true then
        bump w tokenId score else w)
      (fun k s => ∃ i, (k, i) ∈ pre ++ [(tokenId, j)] ∧ Counts mask scores k i s) := by
  have hcounts : ∀ s, Counts mask scores tokenId j s ↔
      s = score ∧ m ≠ 0 ∧ tokenId ∉ specialTokens ∧ F32Ops.gt score F32Ops.zero = true := by
    intro s
    rw [OrderedScores.gt_iff]
    constructor
    · rintro ⟨hspecial, ⟨m', hm', hzero⟩, hs', hpos⟩
      cases hm.symm.trans hm'
      cases hs.symm.trans hs'
      exact ⟨rfl, hzero, hspecial, hpos⟩
    · rintro ⟨rfl, hzero, hspecial, hpos⟩
      exact ⟨hspecial, ⟨m, hm, hzero⟩, hs, hpos⟩
  have hnew : ∀ k s, (∃ i, (k, i) ∈ pre ++ [(tokenId, j)] ∧ Counts mask scores k i s) ↔
      (∃ i, (k, i) ∈ pre ∧ Counts mask scores k i s) ∨ k = tokenId ∧ Counts mask scores tokenId j s := by
    intro k s
    constructor
    · rintro ⟨i, hi, hc⟩
      rcases List.mem_append.mp hi with hi | hi
      · exact .inl ⟨i, hi, hc⟩
      · cases List.mem_singleton.mp hi
        exact .inr ⟨rfl, hc⟩
    · rintro (⟨i, hi, hc⟩ | ⟨rfl, hc⟩)
      · exact ⟨i, List.mem_append_left _ hi, hc⟩
      · exact ⟨j, List.mem_append_right _ (List.mem_singleton.mpr rfl), hc⟩
  split
  · rename_i hif
    refine (h.add tokenId score).congr fun k s => ?_
    rw [hnew, hcounts, and_iff_left hif]
  · rename_i hif
    refine h.congr fun k s => ?_
    rw [hnew, hcounts, or_iff_left fun hc => hif hc.2.2]

theorem sparseMaxpool_maxPooled [OrderedScores F] {ε : Type} (hm : mask.length = ids.length)
    (hs : scores.length = ids.length) :
    ∃ r, (sparseMaxpool ids mask scores : Outcome ε _) = .ok r ∧ MaxPooled ids mask scores r := by
  obtain ⟨w, hw, htally⟩ := poolStep_loop (ε := ε) hm hs
    (fun pre w => Tally w fun k s => ∃ i, (k, i) ∈ pre ∧ Counts mask scores k i s)
    (tally_nil fun k s ⟨i, hi, _⟩ => absurd hi List.not_mem_nil)
    fun pre w tokenId j m score hmask hscore h => h.round hmask hscore
  have htally : Tally w (Scored ids mask scores) := by
    refine htally.congr fun k s => exists_congr fun i => ?_
    rw [List.mem_zipIdx_iff_getElem?]
  refine ⟨_, sparseMaxpool_of_weights hw, ?_, ?_, List.length_map _, ?_⟩
  · have hsorted := (List.pairwise_insertionSort (· ≤ ·) (w.map Prod.fst)).sortedLE
    have hnodup := ((List.perm_insertionSort (· ≤ ·) (w.map Prod.fst)).nodup_iff).mpr htally.nodup
    exact (hsorted.sortedLT_of_nodup hnodup).pairwise
  · intro tokenId
    rw [List.mem_insertionSort]
    exact htally.keys tokenId
  · intro i tokenId v hi hv
    have hmem : tokenId ∈ w.map Prod.fst := (List.mem_insertionSort _).mp (List.mem_of_getElem? hi)
    obtain ⟨u, hu⟩ := lookup_of_mem_keys hmem
    rw [List.getElem?_map, hi, Option.map_some, hu] at hv
    cases hv
    exact htally.greatest tokenId u hu

/-- the result is determined by which scores count for which tokens -/
theorem MaxPooled.unique {ids' mask' : List Nat} {scores' : List F} {r r' : List Nat × List F}
    (h : MaxPooled ids mask scores r) (h' : MaxPooled ids' mask' scores' r')
    (hsame : ∀ k s, Scored ids mask scores k s ↔ Scored ids' mask' scores' k s) : r = r' := by
  have hfst : r.1 = r'.1 := by
    apply List.Pairwise.eq_of_mem_iff h.increasing h'.increasing
    intro k
    rw [h.tokens, h'.tokens]
    exact exists_congr fun s => hsame k s
  refine Prod.ext hfst (List.ext_getElem? fun i => ?_)
  cases hk : r.1[i]? with
  | none =>
    have hk' := hk
    rw [hfst] at hk'
    rw [List.getElem?_eq_none_iff, ← h.length, ← List.getElem?_eq_none_iff] at hk
    rw [List.getElem?_eq_none_iff, ← h'.length, ← List.getElem?_eq_none_iff] at hk'
    rw [hk, hk']
  | some k =>
    have hk' := hk
    rw [hfst] at hk'
    obtain ⟨hi, -⟩ := List.getElem?_eq_some_iff.mp hk
    obtain ⟨hi', -⟩ := List.getElem?_eq_some_iff.mp hk'
    have hv := List.getElem?_eq_getElem (hi.trans_eq h.length.symm)
    have hv' := List.getElem?_eq_getElem (hi'.trans_eq h'.length.symm)
    have hset : {s | Scored ids mask scores k s} = {s | Scored ids' mask' scores' k s} :=
      Set.ext fun s => hsame k s
    have hgreatest := h.values i k _ hk hv
    rw [hset] at hgreatest
    rw [hv, hv', hgreatest.unique (h'.values i k _ hk' hv')]

/-! ## positions -/

/-- token, mask and score of each position -/
def positions (ids mask : List Nat) (scores : List F) : List (Nat × Nat × F) := ids.zip (mask.zip scores)

/-- the call on these positions -/
def poolPositions {ε : Type} (ps : List (Nat × Nat × F)) : Outcome ε (List Nat × List F) :=
  sparseMaxpool (ps.map fun p => p.1) (ps.map fun p => p.2.1) (ps.map fun p => p.2.2)

/-- the position is attended to -/
def attended (p : Nat × Nat × F) : Bool := p.2.1 != 0

theorem scored_positions {ps : List (Nat × Nat × F)} {k : Nat} {s : F} :
    Scored (ps.map fun p => p.1) (ps.map fun p => p.2.1) (ps.map fun p => p.2.2) k s ↔
      k ∉ specialTokens ∧ F32Ops.zero < s ∧ ∃ m, (k, m, s) ∈ ps.filter attended := by
  simp only [Scored, Counts, List.getElem?_map, Option.map_eq_some_iff, List.mem_filter, attended,
    bne_iff_ne]
  constructor
  · rintro ⟨j, ⟨p, hp, rfl⟩, hspecial, ⟨m, ⟨q, hq, rfl⟩, hzero⟩, ⟨t, ht, rfl⟩, hpos⟩
    cases hp.symm.trans hq
    cases hp.symm.trans ht
    exact ⟨hspecial, hpos, p.2.1, List.mem_of_getElem? hp, hzero⟩
  · rintro ⟨hspecial, hpos, m, hmem, hzero⟩
    obtain ⟨j, hj⟩ := List.mem_iff_getElem?.mp hmem
    exact ⟨j, ⟨_, hj, rfl⟩, hspecial, ⟨m, ⟨_, hj, rfl⟩, hzero⟩, ⟨_, hj, rfl⟩, hpos⟩

variable {ε : Type}

/-- only the attended positions matter, and not their order -/
theorem poolPositions_congr [OrderedScores F] {ps ps' : List (Nat × Nat × F)} {r : List Nat × List F}
    (hr : (poolPositions ps : Outcome ε _) = .ok r)
    (h : ∀ p, p ∈ ps'.filter attended ↔ p ∈ ps.filter attended) :
    (poolPositions ps' : Outcome ε _) = .ok r := by
  have hpooled : ∀ qs : List (Nat × Nat × F), ∃ q, (poolPositions qs : Outcome ε _) = .ok q ∧
      MaxPooled (qs.map fun p => p.1) (qs.map fun p => p.2.1) (qs.map fun p => p.2.2) q := fun qs =>
    sparseMaxpool_maxPooled (by rw [List.length_map, List.length_map])
      (by rw [List.length_map, List.length_map])
  obtain ⟨q, hq, hpool⟩ := hpooled ps
  obtain ⟨q', hq', hpool'⟩ := hpooled ps'
  cases hq.symm.trans hr
  rw [hq']
  congr 1
  apply hpool'.unique hpool
  intro k s
  rw [scored_positions, scored_positions]
  simp only [h]

omit [F32Ops F] [LinearOrder F] in
theorem positions_columns (hm : mask.length = ids.length) (hs : scores.length = ids.length) :
    (positions ids mask scores).map (fun p => p.1) = ids ∧
    (positions ids mask scores).map (fun p => p.2.1) = mask ∧
    (positions ids mask scores).map (fun p => p.2.2) = scores := by
  have hzip : (mask.zip scores).length = ids.length := by
    rw [List.length_zip, hm, hs, Nat.min_self]
  have hsnd : (positions ids mask scores).map Prod.snd = mask.zip scores :=
    List.map_snd_zip hzip.le
  refine ⟨List.map_fst_zip hzip.ge, ?_, ?_⟩
  · show (positions ids mask scores).map (Prod.fst ∘ Prod.snd) = mask
    rw [← List.map_map, hsnd]
    exact List.map_fst_zip (hm.trans hs.symm).le
  · show (positions ids mask scores).map (Prod.snd ∘ Prod.snd) = scores
    rw [← List.map_map, hsnd]
    exact List.map_snd_zip (hs.trans hm.symm).le

end

/-- **`sparse_maxpool` is max-pooling by token.**  The tokens come in strictly increasing order, a token is
there exactly when it is not special and has an attended position with a positive score, and its value is
the greatest of these scores.  The result is the same for the positions in any order, without masked
positions and with padding. -/
theorem sparseMaxpool_spec {F : Type} [F32Ops F] [LinearOrder F] [OrderedScores F] (ε : Type)
    (ids mask : List Nat) (scores : List F) (hm : mask.length = ids.length)
    (hs : scores.length = ids.length) :
    ∃ r, (sparseMaxpool ids mask scores : Outcome ε _) = .ok r ∧ MaxPooled ids mask scores r ∧
      (∀ ps, ps.Perm (positions ids mask scores) → (poolPositions ps : Outcome ε _) = .ok r) ∧
      (∀ ps, ps.Sublist (positions ids mask scores) →
        ps.filter attended = (positions ids mask scores).filter attended →
        (poolPositions ps : Outcome ε _) = .ok r) ∧
      ∀ pads, (∀ p ∈ pads, attended p = false) →
        (poolPositions (positions ids mask scores ++ pads) : Outcome ε _) = .ok r := by
  obtain ⟨r, hr, hpool⟩ := sparseMaxpool_maxPooled (ε := ε) hm hs
  have hall : (poolPositions (positions ids mask scores) : Outcome ε _) = .ok r := by
    obtain ⟨h1, h2, h3⟩ := positions_columns hm hs
    unfold poolPositions
    rw [h1, h2, h3]
    exact hr
  refine ⟨r, hr, hpool, ?_, ?_, ?_⟩
  · intro ps hperm
    exact poolPositions_congr hall fun p => (hperm.filter attended).mem_iff
  · intro ps _ hkept
    apply poolPositions_congr hall
    intro p
    rw [hkept]
  · intro pads hpads
    apply poolPositions_congr hall
    intro p
    have hnone : pads.filter attended = [] := by
      rw [List.filter_eq_nil_iff]
      intro q hq
      rw [hpads q hq]
      decide
    rw [List.filter_append, hnone, List.append_nil]

instance : OrderedScores Int where
  gt_iff := fun _ _ => decide_eq_true_iff
  max_eq := fun _ _ => rfl

/-- a token that comes twice, and a special one -/
theorem sparseMaxpool_spec_twice :
    (sparseMaxpool [10, 20, 10, 2] [1, 1, 1, 1] [3, 5, 7, 9] : Outcome Empty (List Nat × List Int)) =
      .ok ([10, 20], [7, 5]) ∧
    (poolPositions [(20, 1, 5), (2, 1, 9), (10, 1, 7), (10, 1, 3)] : Outcome Empty (List Nat × List Int)) =
      .ok ([10, 20], [7, 5]) := by
  have hrun : (sparseMaxpool [10, 20, 10, 2] [1, 1, 1, 1] [3, 5, 7, 9] :
      Outcome Empty (List Nat × List Int)) = .ok ([10, 20], [7, 5]) := by decide +kernel
  obtain ⟨r, hr, -, hperm, -⟩ :=
    sparseMaxpool_spec Empty [10, 20, 10, 2] [1, 1, 1, 1] ([3, 5, 7, 9] : List Int) rfl rfl
  cases hr.symm.trans hrun
  exact ⟨hrun, hperm _ (by decide)⟩

end EmbedServer
