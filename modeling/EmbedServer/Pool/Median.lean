import EmbedServer.Lib.Rank
import EmbedServer.Lib.Segment
import EmbedServer.Pool.Init
import EmbedServer.Startup.Budget

/-!
# The weights of one worker (`median_usize`, `model_rss_per_worker_bytes`)

The pool stores one value for what the models of a worker take: a median of what the workers measured
while they loaded one after the other.  `values[len / 2]` is the upper one of the two middle elements
when there are two, and the larger one of two elements.

* `reach_modelRss`       what is stored is `median_usize` of one delta per worker;
* `RobustLowerMedian`    what the comments promise of it;
* `median_robust_iff`    exactly when the promise is kept;
* `median_takes_outlier` two workers, where it is not.
-/

namespace EmbedServer.Pool

section
variable {values : List Nat}

theorem medianUsize_eq : medianUsize values = (atRank values (values.length / 2)).getD 0 :=
  List.getD_eq_getElem?_getD

/-- the upper one of the two middle elements -/
theorem atRank_medianUsize (hne : values ≠ []) :
    atRank values (values.length / 2) = some (medianUsize values) := by
  have hpos : 0 < values.length := List.length_pos_iff.mpr hne
  obtain ⟨m, hm⟩ := atRank_of_lt (l := values) (k := values.length / 2) (by omega)
  rw [medianUsize_eq, hm]
  rfl

theorem medianUsize_perm {values' : List Nat} (h : values'.Perm values) :
    medianUsize values' = medianUsize values := by
  rw [medianUsize_eq, medianUsize_eq, atRank_perm h, h.length_eq]

theorem medianUsize_mem (hne : values ≠ []) : medianUsize values ∈ values :=
  mem_of_atRank (atRank_medianUsize hne)

/-! ## one delta changed -/

theorem set_ne_nil {i : Nat} (hi : i < values.length) (x : Nat) : values.set i x ≠ [] := by
  rw [← List.length_pos_iff, List.length_set]
  omega

theorem eraseIdx_ne_nil {i : Nat} (hi : i < values.length) (hn : 2 ≤ values.length) :
    values.eraseIdx i ≠ [] := by
  rw [← List.length_pos_iff, List.length_eraseIdx_of_lt hi]
  omega

/-- with three deltas or more the median stays below one that was not changed -/
theorem medianUsize_set_le {i : Nat} (hi : i < values.length) (hn : 3 ≤ values.length) (x : Nat) :
    ∃ a ∈ values.eraseIdx i, medianUsize (values.set i x) ≤ a := by
  have hlen : (values.eraseIdx i).length = values.length - 1 := List.length_eraseIdx_of_lt hi
  obtain ⟨a, ha⟩ := atRank_of_lt (l := values.eraseIdx i) (k := values.length / 2) (by omega)
  have hm := atRank_medianUsize (set_ne_nil hi x)
  rw [List.length_set, atRank_perm (List.set_perm_cons_eraseIdx hi x)] at hm
  exact ⟨a, mem_of_atRank ha, atRank_cons_le x hm ha⟩

/-- with two deltas the larger one is taken -/
theorem le_medianUsize_two {b : Nat} (hn : values.length = 2) (hb : b ∈ values) :
    b ≤ medianUsize values := by
  have hm := atRank_medianUsize (List.ne_nil_of_mem hb)
  have hlast : values.length / 2 = values.length - 1 := by omega
  rw [hlast] at hm
  exact le_atRank_last hm hb

/-- what the comments of `median_usize` and `model_rss_per_worker_bytes` promise: the lower median, in
whatever order the workers reported, and no budget that one worker's delta alone brought down -/
structure RobustLowerMedian (values : List Nat) : Prop where
  lower : atRank values ((values.length + 1) / 2 - 1) = some (medianUsize values)
  perm : ∀ values', values'.Perm values → medianUsize values' = medianUsize values
  outlier : 2 ≤ values.length → ∀ i < values.length, ∀ x ≤ usizeMax,
    medianUsize (values.set i x) ≤ top (values.eraseIdx i)
  budget : 2 ≤ values.length → ∀ i < values.length, ∀ x ≤ usizeMax, ∀ avail workers (safety : Rat),
    0 ≤ safety → perWorker avail workers (top (values.eraseIdx i)) safety ≤
      perWorker avail workers (medianUsize (values.set i x)) safety

/-- there is one element in the middle, or the two there are equal; and two elements alone must leave no
room for a larger one -/
def MiddleAgrees (values : List Nat) : Prop :=
  values.length % 2 = 1 ∨ atRank values (values.length / 2 - 1) = atRank values (values.length / 2) ∧
    (values.length = 2 → ∀ v ∈ values, v = usizeMax)

theorem RobustLowerMedian.middle (hne : values ≠ []) (hval : ∀ v ∈ values, v ≤ usizeMax)
    (h : RobustLowerMedian values) : MiddleAgrees values := by
  by_cases hodd : values.length % 2 = 1
  · exact .inl hodd
  · have hlow : (values.length + 1) / 2 - 1 = values.length / 2 - 1 := by omega
    have hmid := h.lower
    rw [hlow] at hmid
    refine .inr ⟨hmid.trans (atRank_medianUsize hne).symm, ?_⟩
    intro htwo
    -- the smaller delta is as large as the largest one that can replace the other
    have hsmall : usizeMax ≤ medianUsize values := by
      have hset : usizeMax ≤ medianUsize (values.set 0 usizeMax) := by
        apply le_medianUsize_two (by rw [List.length_set]; exact htwo)
        exact List.mem_set (by omega) _
      have hrest := top_mem (eraseIdx_ne_nil (i := 0) (by omega) htwo.ge)
      have hmax := le_medianUsize_two htwo (List.mem_of_mem_eraseIdx hrest)
      exact hset.trans ((h.outlier htwo.ge 0 (by omega) usizeMax le_rfl).trans hmax)
    have hzero : values.length / 2 - 1 = 0 := by omega
    rw [hzero] at hmid
    intro v hv
    exact Nat.le_antisymm (hval v hv) (hsmall.trans (atRank_zero_le hmid hv))

theorem MiddleAgrees.lower (hne : values ≠ []) (h : MiddleAgrees values) :
    atRank values ((values.length + 1) / 2 - 1) = some (medianUsize values) := by
  by_cases hodd : values.length % 2 = 1
  · have hmid : (values.length + 1) / 2 - 1 = values.length / 2 := by omega
    rw [hmid]
    exact atRank_medianUsize hne
  · have hmid : (values.length + 1) / 2 - 1 = values.length / 2 - 1 := by omega
    rw [hmid, (h.resolve_left hodd).1]
    exact atRank_medianUsize hne

theorem MiddleAgrees.outlier (h : MiddleAgrees values) (hval : ∀ v ∈ values, v ≤ usizeMax)
    (hn : 2 ≤ values.length) {i : Nat} (hi : i < values.length) {x : Nat} (hx : x ≤ usizeMax) :
    medianUsize (values.set i x) ≤ top (values.eraseIdx i) := by
  by_cases hthree : 3 ≤ values.length
  · obtain ⟨a, ha, hle⟩ := medianUsize_set_le hi hthree x
    exact hle.trans (le_top ha)
  · have htwo : values.length = 2 := by omega
    have hall := (h.resolve_left (by omega)).2 htwo
    have hrest := List.mem_of_mem_eraseIdx (top_mem (eraseIdx_ne_nil hi hn))
    rw [hall _ hrest]
    rcases List.mem_or_eq_of_mem_set (medianUsize_mem (set_ne_nil hi x)) with hm | hm
    · exact hval _ hm
    · exact hm.trans_le hx

end

/-! ## what the pool stores -/

section
variable {F : Type} [F32Ops F] {p : Setup} {s t : System F} {a : Act F}

/-- only the init task writes it -/
theorem move_modelRss (h : Move p s a t) (ha : a ≠ .init) : t.modelRss = s.modelRss := by
  cases h with
  | spawned => exact absurd rfl ha
  | heard => exact absurd rfl ha
  | heardError => exact absurd rfl ha
  | silent => exact absurd rfl ha
  | joined => exact absurd rfl ha
  | pending => exact absurd rfl ha
  | woken => exact absurd rfl ha
  | counted => exact absurd rfl ha
  | @started w preLoadRss load out sh hp ho =>
    cases out with
    | ready wk delta => rfl
    | loadFailed e => rfl
    | refused e => exact System.closeIfLast_modelRss
  | vanished => exact System.closeIfLast_modelRss
  | left => exact System.closeIfLast_modelRss
  | closed => exact System.closeIfLast_modelRss
  | fatal => exact System.closeIfLast_modelRss
  | died => exact System.closeIfLast_modelRss
  | _ => rfl

/-- once the init task is through -/
def MedianStored (s : System F) : Prop :=
  ∀ u, s.init = .done (.ok u) → s.modelRss = medianUsize s.rssDeltas

theorem medianStored_move (h : Move p s a t) (hs : MedianStored s) : MedianStored t := by
  intro u hu
  by_cases ha : a = .init
  · subst ha
    cases h with
    | spawned | heard | silent | pending | woken => cases hu
    | heardError hi hc =>
      rw [System.finishInit, System.closeIfLast_init] at hu
      cases hu
    | joined hi hp =>
      rw [System.finishInit, System.closeIfLast_init] at hu
      cases hu
    | @counted k delta hi =>
      unfold countWorker at hu ⊢
      dsimp only at hu ⊢
      split
      · rename_i hk
        rw [if_pos hk] at hu
        cases hu
      · rw [System.finishInit, System.closeIfLast_modelRss, System.closeIfLast_rssDeltas]
  · have hrss := move_modelRss h ha
    obtain ⟨hi, hd⟩ : t.init = s.init ∧ t.rssDeltas = s.rssDeltas := by
      cases move_effect h ha with
      | ready _ hi hd => exact ⟨hi, hd⟩
      | failed _ hi hd => exact ⟨hi, hd⟩
      | other hi hd => exact ⟨hi, hd⟩
    rw [hrss, hd]
    exact hs u (hi.symm.trans hu)

/-- what the pool stores is `median_usize` of one delta per worker -/
theorem reach_modelRss {ceiling : Nat} (h : Reachable (step p) (start p ceiling) s) {u : Unit}
    (hu : s.init = .done (.ok u)) : s.rssDeltas.length = p.n ∧ s.modelRss = medianUsize s.rssDeltas := by
  have hpc := (reach_initInv h).pc
  rw [hu] at hpc
  have hstored : MedianStored s := by
    refine h.invariant ?_ fun _ _ _ hs _ hstep => medianStored_move (step_cases hstep) hs
    intro v hv
    cases hv
  refine ⟨?_, hstored u hu⟩
  cases hpc with
  | ok hn => exact hn
  | wait hk _ _ => cases hk

end

/-- **The median is robust and the lower one exactly when the middle agrees**: there is one element in the
middle, or the two there are equal (and there are more than two).  In every run of the pool it is the
median of one delta per worker that is stored. -/
theorem median_robust_iff (values : List Nat) (hne : values ≠ []) (hval : ∀ v ∈ values, v ≤ usizeMax) :
    (RobustLowerMedian values ↔ MiddleAgrees values) ∧
    ∀ (F : Type) [F32Ops F] (p : Setup) (ceiling : Nat) (s : System F),
      Reachable (step p) (start p ceiling) s → s.init = .done (.ok ()) →
        s.rssDeltas.length = p.n ∧ s.modelRss = medianUsize s.rssDeltas := by
  refine ⟨⟨RobustLowerMedian.middle hne hval, ?_⟩, fun F _ p ceiling s h hu => reach_modelRss h hu⟩
  intro h
  refine ⟨h.lower hne, fun _ => medianUsize_perm, ?_, ?_⟩
  · intro hn i hi x hx
    exact h.outlier hval hn hi hx
  · intro hn i hi x hx avail workers safety hs
    exact perWorker_mono hs le_rfl le_rfl (h.outlier hval hn hi hx)

/-- three workers -/
theorem median_robust_three : RobustLowerMedian [2 ^ 40, 2 ^ 30, 2 ^ 31] :=
  (median_robust_iff [2 ^ 40, 2 ^ 30, 2 ^ 31] (List.cons_ne_nil _ _) (by decide)).1.mpr (.inl rfl)

/-- two workers, the default: the larger delta is taken, and no workspace is left of 8 GiB -/
theorem median_takes_outlier :
    medianUsize [2 ^ 30, 2 ^ 33] = 2 ^ 33 ∧ atRank [2 ^ 30, 2 ^ 33] 0 = some (2 ^ 30) ∧
    ¬ medianUsize ([2 ^ 30, 2 ^ 30].set 1 (2 ^ 33)) ≤ top ([2 ^ 30, 2 ^ 30].eraseIdx 1) ∧
    perWorker (2 ^ 33) 2 (medianUsize [2 ^ 30, 2 ^ 33]) (7 / 10) = 0 ∧
    0 < perWorker (2 ^ 33) 2 (2 ^ 30) (7 / 10) ∧ ¬ RobustLowerMedian [2 ^ 30, 2 ^ 33] := by
  refine ⟨by decide, by decide, by decide, by decide +kernel, by decide +kernel, ?_⟩
  intro h
  have hlow := h.lower
  revert hlow
  decide

end EmbedServer.Pool
