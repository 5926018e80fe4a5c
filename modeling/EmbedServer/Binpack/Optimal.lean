import EmbedServer.Binpack
import EmbedServer.Lib.Packing

/-!
# What the packer guarantees, and that it uses the fewest chunks (`binpack.rs`)

On the lengths alone the packer is the greedy cut of the sorted lengths under `CostModel.fits`
(`binPack_lens`), and `fits` is monotone in the count and in the length (`fits_shrinks`).

* `binPack_partitions`   the chunks are a partition of the texts in the order of their length, each a
                         single text or within the budget, none of which could have taken one more;
* `binPack_optimal`      no partition of the texts into such chunks, contiguous or not, is smaller;
* `binPack_same`         a smaller budget that every chunk meets packs the same chunks.
-/

namespace EmbedServer

section
variable (S : UnstableSort) (lens : List Nat) (cm : CostModel)

/-! ## the lengths in packing order -/

/-- the lengths as the packing loop meets them -/
def sortedLens : List Nat := (S.byKey (seqAt lens) (List.range lens.length)).map (seqAt lens)

theorem map_seqAt_range : (List.range lens.length).map (seqAt lens) = lens := by
  apply List.ext_getElem
  · simp
  · intro i h1 h2
    rw [List.getElem_map, List.getElem_range, seqAt_of_lt h2]

theorem sortedLens_perm : (sortedLens S lens).Perm lens := by
  have h := (S.perm (seqAt lens) (List.range lens.length)).map (seqAt lens)
  rwa [map_seqAt_range] at h

theorem sortedLens_sorted : (sortedLens S lens).Pairwise (· ≤ ·) :=
  List.pairwise_map.mpr (S.sorted (seqAt lens) (List.range lens.length))

/-- whether a text joins a chunk is decided by the lengths -/
theorem joins_eq : joins lens cm = fun cur idx => joinsBy cm.fits (cur.map (seqAt lens)) (seqAt lens idx) := by
  funext cur idx
  rw [joinsBy, List.length_map]
  rfl

/-- the lengths of the chunks are the greedy cut of the sorted lengths -/
theorem binPack_lens :
    (binPack S lens cm).map (List.map (seqAt lens)) = segment (joinsBy cm.fits) (sortedLens S lens) := by
  rw [binPack_eq_segment, joins_eq, sortedLens, segment_map]

theorem binPack_length : (binPack S lens cm).length = (segment (joinsBy cm.fits) (sortedLens S lens)).length := by
  rw [← binPack_lens, List.length_map]

/-! ## the partition -/

/-- the lengths do not decrease along the chunks -/
theorem binPack_sorted : ((binPack S lens cm).flatten.map (seqAt lens)).Pairwise (· ≤ ·) := by
  rw [binPack_eq_segment, segment_flatten]
  exact sortedLens_sorted S lens

/-- the first text of the next chunk does not fit -/
theorem binPack_tight {pre post : List (List Nat)} {c d : List Nat}
    (h : binPack S lens cm = pre ++ c :: d :: post) :
    ∃ i, d.head? = some i ∧ cm.fits (c.length + 1) (max (chunkSeq lens c) (seqAt lens i)) = false := by
  have hchain := segment_refuses (joins lens cm) (S.byKey (seqAt lens) (List.range lens.length))
  rw [← binPack_eq_segment, h] at hchain
  exact (List.isChain_append_cons_cons.mp hchain).2.1

/-- **The packer is a partition within the budget.**  Every index is in exactly one chunk, no chunk is
empty, the lengths do not decrease along the chunks, a chunk is a single text or fits, and no chunk
could have taken the first text of the next. -/
theorem binPack_partitions :
    (binPack S lens cm).flatten.Perm (List.range lens.length) ∧
    (∀ c ∈ binPack S lens cm, c ≠ []) ∧
    ((binPack S lens cm).flatten.map (seqAt lens)).Pairwise (· ≤ ·) ∧
    (∀ c ∈ binPack S lens cm, c.length = 1 ∨ cm.fits c.length (chunkSeq lens c) = true) ∧
    ∀ pre c d post, binPack S lens cm = pre ++ c :: d :: post →
      ∃ i, d.head? = some i ∧ cm.fits (c.length + 1) (max (chunkSeq lens c) (seqAt lens i)) = false :=
  ⟨binPack_perm S lens cm, fun _ h => binPack_ne_nil h, binPack_sorted S lens cm,
    fun _ h => binPack_fits h, fun _ _ _ _ h => binPack_tight S lens cm h⟩

/-! ## no partition has fewer chunks -/

/-- a group of texts that may be one chunk: a single text, or within the budget -/
def Admissible (g : Finset Nat) : Prop := g.card = 1 ∨ cm.fits g.card (g.sup (seqAt lens)) = true

variable {cm} in
theorem fits_shrinks (ha : 0 ≤ cm.a) (hb : 0 ≤ cm.b) : Shrinks cm.fits := by
  intro n n' m m' hn hm h
  exact decide_eq_true ((CostModel.chunkCost_mono ha hb hn hm).trans (of_decide_eq_true h))

variable {lens cm} in
/-- any grouping of the texts into single texts and groups within the budget -/
theorem binPack_length_le (ha : 0 ≤ cm.a) (hb : 0 ≤ cm.b) {groups : List (List Nat)}
    (hperm : groups.flatten.Perm (List.range lens.length))
    (hg : ∀ g ∈ groups, g.length = 1 ∨ cm.fits g.length (chunkSeq lens g) = true) :
    (binPack S lens cm).length ≤ groups.length := by
  have hlens : ((groups.map (List.map (seqAt lens))).flatten).Perm (sortedLens S lens) := by
    rw [← List.map_flatten]
    refine (hperm.map (seqAt lens)).trans ?_
    rw [map_seqAt_range]
    exact (sortedLens_perm S lens).symm
  have hpacked : ∀ g ∈ groups.map (List.map (seqAt lens)), Packed cm.fits g := by
    intro l hl
    obtain ⟨g, hmem, rfl⟩ := List.mem_map.mp hl
    rw [Packed, List.length_map]
    exact hg g hmem
  have hbest := packed_optimal (fits_shrinks ha hb) (sortedLens_sorted S lens) hlens hpacked
  rwa [← binPack_length, List.length_map] at hbest

variable {lens cm} in
theorem binPack_length_le_parts (ha : 0 ≤ cm.a) (hb : 0 ≤ cm.b)
    (P : Finpartition (Finset.range lens.length)) (hP : ∀ g ∈ P.parts, Admissible lens cm g) :
    (binPack S lens cm).length ≤ P.parts.card := by
  have hperm : (P.parts.toList.map Finset.toList).flatten.Perm (List.range lens.length) := by
    refine (parts_toList_perm P).trans ?_
    refine (List.perm_ext_iff_of_nodup (Finset.nodup_toList _) List.nodup_range).mpr ?_
    simp
  have hlen : (P.parts.toList.map Finset.toList).length = P.parts.card := by simp
  rw [← hlen]
  apply binPack_length_le S ha hb hperm
  intro l hl
  obtain ⟨g, hmem, rfl⟩ := List.mem_map.mp hl
  rw [chunkSeq, top_map_eq_sup, Finset.toList_toFinset, Finset.length_toList]
  exact hP g (Finset.mem_toList.mp hmem)

/-- the chunks themselves are the parts of such a partition -/
theorem binPack_parts : ∃ P : Finpartition (Finset.range lens.length),
    (∀ g ∈ P.parts, Admissible lens cm g) ∧ P.parts.card = (binPack S lens cm).length := by
  have hnodup : (binPack S lens cm).flatten.Nodup :=
    (binPack_perm S lens cm).nodup_iff.mpr List.nodup_range
  have hrange : (binPack S lens cm).flatten.toFinset = Finset.range lens.length := by
    rw [List.toFinset_eq_of_perm _ _ (binPack_perm S lens cm)]
    ext i
    simp
  obtain ⟨P, hparts, hcard⟩ := exists_parts hnodup hrange fun c hc => binPack_ne_nil hc
  refine ⟨P, ?_, hcard⟩
  intro g hg
  rw [hparts] at hg
  obtain ⟨c', hmem, rfl⟩ := List.mem_map.mp (List.mem_toFinset.mp hg)
  have hlen : c'.toFinset.card = c'.length :=
    List.toFinset_card_of_nodup ((List.nodup_flatten.mp hnodup).1 c' hmem)
  rw [Admissible, hlen, ← top_map_eq_sup]
  exact binPack_fits hmem

/-- **The packer is optimal.**  The number of chunks is the least number of parts of any partition of
the texts into single texts and groups within the budget; a smaller budget never needs fewer chunks,
and the order of the texts does not matter. -/
theorem binPack_optimal (ha : 0 ≤ cm.a) (hb : 0 ≤ cm.b) :
    IsLeast {k | ∃ P : Finpartition (Finset.range lens.length),
      (∀ g ∈ P.parts, Admissible lens cm g) ∧ P.parts.card = k} (binPack S lens cm).length ∧
    (∀ budget ≤ cm.maxWorkspaceBytes, (binPack S lens cm).length ≤
      (binPack S lens { cm with maxWorkspaceBytes := budget }).length) ∧
    (∀ S' lens', lens'.Perm lens → (binPack S' lens' cm).length = (binPack S lens cm).length) := by
  refine ⟨⟨binPack_parts S lens cm, ?_⟩, ?_, ?_⟩
  · rintro k ⟨P, hP, rfl⟩
    exact binPack_length_le_parts S ha hb P hP
  · intro budget hle
    apply binPack_length_le S ha hb (binPack_perm S lens _)
    intro c hc
    refine (binPack_fits hc).imp_right fun h => ?_
    exact decide_eq_true ((of_decide_eq_true h).trans hle)
  · intro S' lens' hperm
    have hsame : sortedLens S' lens' = sortedLens S lens :=
      ((sortedLens_perm S' lens').trans (hperm.trans (sortedLens_perm S lens).symm)).eq_of_pairwise'
        (sortedLens_sorted S' lens') (sortedLens_sorted S lens)
    rw [binPack_length, binPack_length, hsame]

/-! ## another budget -/

variable {lens cm} in
/-- a smaller budget changes nothing if every chunk is a single text or within it -/
theorem binPack_same (ha : 0 ≤ cm.a) (hb : 0 ≤ cm.b) {budget : Nat} (hle : budget ≤ cm.maxWorkspaceBytes)
    (hall : ∀ g ∈ binPack S lens cm, g.length = 1 ∨ cm.chunkCost g.length (chunkSeq lens g) ≤ budget) :
    binPack S lens { cm with maxWorkspaceBytes := budget } = binPack S lens cm := by
  let small : CostModel := { cm with maxWorkspaceBytes := budget }
  have hflat : (binPack S lens cm).flatten = S.byKey (seqAt lens) (List.range lens.length) := by
    rw [binPack_eq_segment, segment_flatten]
  have hgrown : ∀ g ∈ binPack S lens cm, Grown (joins lens small) g := by
    intro g hg pre i post e hpre
    have hpacked : Packed small.fits (g.map (seqAt lens)) := by
      rw [Packed, List.length_map]
      exact (hall g hg).imp_right fun h => decide_eq_true h
    rw [joins_eq]
    have hshrinks : Shrinks small.fits := @fits_shrinks small ha hb
    exact hpacked.grown hshrinks (pre.map (seqAt lens)) (seqAt lens i)
      (post.map (seqAt lens)) (by rw [e]; simp) (by simpa using hpre)
  have hrefuse : (binPack S lens cm).IsChain (Refuses (joins lens small)) := by
    rw [binPack_eq_segment]
    refine (segment_refuses (joins lens cm) _).imp ?_
    rintro g next ⟨i, hi, hno⟩
    refine ⟨i, hi, ?_⟩
    -- what is over the larger budget is over the smaller one
    have hover := of_decide_eq_false hno
    exact decide_eq_false fun h => hover (h.trans hle)
  rw [binPack_eq_segment]
  exact segment_unique _ hflat (fun _ h => binPack_ne_nil h) hgrown hrefuse

end

/-- texts of 3, 1 and 2 tokens under a budget that takes the two short ones together -/
theorem binPack_optimal_three :
    IsLeast {k | ∃ P : Finpartition (Finset.range [3, 1, 2].length),
      (∀ g ∈ P.parts, Admissible [3, 1, 2] ⟨1, 1, 12⟩ g) ∧ P.parts.card = k} 2 := by
  have hrun : (binPack UnstableSort.insertion [3, 1, 2] ⟨1, 1, 12⟩).length = 2 := by decide +kernel
  have h := binPack_optimal UnstableSort.insertion [3, 1, 2] ⟨1, 1, 12⟩ (by decide) (by decide)
  rw [hrun] at h
  exact h.1

end EmbedServer
