import EmbedServer.Lib.Segment
import Mathlib.Data.List.Forall2
import Mathlib.Order.Lattice.Nat
import Mathlib.Order.MinMax
import Mathlib.Order.Partition.Finpartition

/-!
# Packing sizes into the fewest groups

A test `fit n m` says whether `n` elements of size at most `m` go into one group; it is monotone:
fewer and smaller elements fit too.  A group is `Packed` when it has one element or fits.

`packed_optimal`: cutting the sorted sizes greedily uses no more groups than ANY way to divide the
same sizes into packed groups.  Two arguments:

* exchange   raise every size to the largest of its group; sorting keeps the order of the two lists
             (`insertionSort_mono`), so the sorted sizes lie below a list that is divided
             contiguously;
* ahead      on sizes below a contiguously divided list, the greedy cut opens at most one group for
             every group of the division (`segment_length_le`).

`exists_parts` and `parts_toList_perm` pass between lists of groups and partitions of a finite set.
-/

namespace EmbedServer

/-! ## sorting is monotone -/

section
variable {l m : List Nat} {a b : Nat}

theorem orderedInsert_head (h : (a :: l).Pairwise (· ≤ ·)) : l.orderedInsert (· ≤ ·) a = a :: l := by
  cases l with
  | nil => rfl
  | cons x l => exact List.orderedInsert_cons_of_le _ _ ((List.pairwise_cons.mp h).1 x List.mem_cons_self)

theorem orderedInsert_mono (h : List.Forall₂ (· ≤ ·) l m) (hl : l.Pairwise (· ≤ ·))
    (hm : m.Pairwise (· ≤ ·)) (hab : a ≤ b) :
    List.Forall₂ (· ≤ ·) (l.orderedInsert (· ≤ ·) a) (m.orderedInsert (· ≤ ·) b) := by
  induction h generalizing a b with
  | nil => exact List.Forall₂.cons hab List.Forall₂.nil
  | @cons x y l m hxy h ih =>
    have hl' := (List.pairwise_cons.mp hl).2
    have hm' := (List.pairwise_cons.mp hm).2
    rw [List.orderedInsert_cons, List.orderedInsert_cons]
    by_cases hax : a ≤ x
    · by_cases hby : b ≤ y
      · rw [if_pos hax, if_pos hby]
        exact .cons hab (.cons hxy h)
      · -- `y` moves before `b`: the head `x` of the lower list takes the place of `b`
        rw [if_pos hax, if_neg hby, ← orderedInsert_head hl]
        exact .cons (hax.trans hxy) (ih hl' hm' (hxy.trans (by omega)))
    · by_cases hby : b ≤ y
      · rw [if_neg hax, if_pos hby, ← orderedInsert_head hm]
        exact .cons (by omega) (ih hl' hm' (hab.trans hby))
      · rw [if_neg hax, if_neg hby]
        exact .cons hxy (ih hl' hm' hab)

theorem insertionSort_mono (h : List.Forall₂ (· ≤ ·) l m) :
    List.Forall₂ (· ≤ ·) (l.insertionSort (· ≤ ·)) (m.insertionSort (· ≤ ·)) := by
  induction h with
  | nil => exact .nil
  | cons hxy _ ih =>
    exact orderedInsert_mono ih (List.pairwise_insertionSort _ _) (List.pairwise_insertionSort _ _) hxy

/-- a sorted list is the sorted form of its rearrangements -/
theorem insertionSort_eq (hl : l.Pairwise (· ≤ ·)) (h : m.Perm l) : m.insertionSort (· ≤ ·) = l :=
  ((List.perm_insertionSort _ m).trans h).eq_of_pairwise' (List.pairwise_insertionSort _ _) hl

theorem top_mono (h : List.Forall₂ (· ≤ ·) l m) : top l ≤ top m := by
  induction h with
  | nil => exact le_refl _
  | cons hxy _ ih =>
    rw [top_cons, top_cons]
    exact max_le_max hxy ih

theorem top_replicate_le (n x : Nat) : top (List.replicate n x) ≤ x :=
  top_le fun _ h => le_of_eq (List.eq_of_mem_replicate h)

end

/-! ## packed groups -/

section
variable (fit : Nat → Nat → Bool)

/-- the element `a` may join the group `g` -/
def joinsBy (g : List Nat) (a : Nat) : Bool := fit (g.length + 1) (max (top g) a)

/-- one element, or within the bound -/
def Packed (g : List Nat) : Prop := g.length = 1 ∨ fit g.length (top g) = true

/-- fewer and smaller elements fit too -/
def Shrinks : Prop := ∀ {n n' m m' : Nat}, n' ≤ n → m' ≤ m → fit n m = true → fit n' m' = true

variable {fit} (hfit : Shrinks fit)
include hfit

theorem Packed.below {g g' : List Nat} (hg : Packed fit g) (hlen : g'.length = g.length)
    (htop : top g' ≤ top g) : Packed fit g' := by
  rcases hg with h | h
  · exact Or.inl (hlen.trans h)
  · exact Or.inr (hfit (le_of_eq hlen) htop h)

theorem Packed.grown {g : List Nat} (hg : Packed fit g) : Grown (joinsBy fit) g := by
  rintro pre a post rfl hpre
  have hlen : 1 ≤ pre.length := List.length_pos_iff.mpr hpre
  rw [Packed, List.length_append, List.length_cons, top_append, top_cons] at hg
  rcases hg with h | h
  · omega
  · exact hfit (by omega) (by omega) h

/-- a packed group opens at most one new group -/
theorem close_length_foldl_le {g : List Nat} (hg : Packed fit g) (s : Segs Nat) :
    (g.foldl (Segs.step (joinsBy fit)) s).close.length ≤ s.close.length + 1 := by
  induction g generalizing s with
  | nil => exact Nat.le_succ _
  | cons a g ih =>
    rw [List.foldl_cons]
    -- once `a` has opened a group, the rest of `g` joins it
    have hopen : ∀ done, done.length ≤ s.close.length →
        (g.foldl (Segs.step (joinsBy fit)) ⟨done, [a]⟩).close.length ≤ s.close.length + 1 := by
      intro done hdone
      rw [Segs.foldl_grown _ (List.cons_ne_nil a []) (Packed.grown hfit hg)]
      simpa [Segs.close] using hdone
    by_cases he : s.cur = []
    · have hstep : Segs.step (joinsBy fit) s a = ⟨s.done, [a]⟩ := by
        simp [Segs.step, he]
      rw [hstep]
      exact hopen _ (by simp [Segs.close, he])
    · by_cases hj : joinsBy fit s.cur a = true
      · have hstep : Segs.step (joinsBy fit) s a = ⟨s.done, s.cur ++ [a]⟩ := by
          simp [Segs.step, hj]
        have hclose : (Segs.close ⟨s.done, s.cur ++ [a]⟩).length = s.close.length := by
          simp [Segs.close, he]
        rw [hstep, ← hclose]
        cases g with
        | nil => exact Nat.le_succ _
        | cons b g =>
          apply ih
          rcases hg with h | h
          · simp at h
          · exact Or.inr (hfit (by simp) (by simp) h)
      · have hstep : Segs.step (joinsBy fit) s a = ⟨s.done ++ [s.cur], [a]⟩ := by
          simp [Segs.step, hj, he]
        rw [hstep]
        exact hopen _ (by simp [Segs.close, he])

/-- the greedy cut of sizes below a contiguously divided list -/
theorem segment_length_le {l : List Nat} {groups : List (List Nat)}
    (h : List.Forall₂ (· ≤ ·) l groups.flatten) (hg : ∀ g ∈ groups, Packed fit g) :
    (segment (joinsBy fit) l).length ≤ groups.length := by
  unfold segment
  induction groups using List.reverseRecOn generalizing l with
  | nil =>
    rw [List.flatten_nil, List.forall₂_nil_right_iff] at h
    subst h
    exact Nat.le_refl 0
  | append_singleton groups g ih =>
    rw [List.flatten_append, List.flatten_singleton] at h
    have hpart := List.forall₂_drop_append l groups.flatten g h
    have hpacked : Packed fit (l.drop groups.flatten.length) :=
      (hg g (by simp)).below hfit hpart.length_eq (top_mono hpart)
    have hrest := ih (List.forall₂_take_append l groups.flatten g h)
      fun g hg' => hg g (List.mem_append_left _ hg')
    rw [← List.take_append_drop groups.flatten.length l, List.foldl_append, List.length_append,
      List.length_singleton]
    exact (close_length_foldl_le hfit hpacked _).trans (Nat.add_le_add_right hrest 1)

/-! ## any division -/

omit hfit in
/-- every size is at most the largest of its group -/
theorem flatten_le_tops (groups : List (List Nat)) :
    List.Forall₂ (· ≤ ·) groups.flatten
      (groups.map fun g => List.replicate g.length (top g)).flatten := by
  have hone : ∀ (g : List Nat) (m : Nat), (∀ a ∈ g, a ≤ m) →
      List.Forall₂ (· ≤ ·) g (List.replicate g.length m) := by
    intro g m hm
    induction g with
    | nil => exact .nil
    | cons a g ih =>
      exact .cons (hm a List.mem_cons_self) (ih fun b hb => hm b (List.mem_cons_of_mem _ hb))
  induction groups with
  | nil => exact .nil
  | cons g groups ih => exact List.rel_append (hone g (top g) fun a ha => le_top ha) ih

omit hfit in
/-- groups of equal sizes in the order of their size make a sorted list -/
theorem tops_sorted {groups : List (List Nat)} (h : groups.Pairwise fun g g' => top g ≤ top g') :
    (groups.map fun g => List.replicate g.length (top g)).flatten.Pairwise (· ≤ ·) := by
  rw [List.pairwise_flatten]
  refine ⟨?_, ?_⟩
  · intro r hr
    obtain ⟨g, -, rfl⟩ := List.mem_map.mp hr
    exact List.pairwise_replicate.mpr (Or.inr (le_refl _))
  · refine List.pairwise_map.mpr (h.imp ?_)
    intro g g' hle a ha b hb
    rw [List.eq_of_mem_replicate ha, List.eq_of_mem_replicate hb]
    exact hle

/-- **Greedy on sorted sizes is optimal**, also against divisions that are not contiguous. -/
theorem packed_optimal {l : List Nat} (hl : l.Pairwise (· ≤ ·)) {groups : List (List Nat)}
    (hperm : groups.flatten.Perm l) (hg : ∀ g ∈ groups, Packed fit g) :
    (segment (joinsBy fit) l).length ≤ groups.length := by
  have : Std.Total fun g g' : List Nat => top g ≤ top g' := ⟨fun _ _ => Nat.le_total _ _⟩
  have : IsTrans (List Nat) fun g g' => top g ≤ top g' := ⟨fun _ _ _ => Nat.le_trans⟩
  let tops := fun g : List Nat => List.replicate g.length (top g)
  let ordered := groups.insertionSort fun g g' => top g ≤ top g'
  have hordered : ordered.Perm groups := List.perm_insertionSort _ groups
  have hsorted : ((ordered.map tops).flatten).Pairwise (· ≤ ·) :=
    tops_sorted (List.pairwise_insertionSort _ groups)
  have hsame : (groups.map tops).flatten.Perm (ordered.map tops).flatten :=
    ((hordered.map tops).flatten).symm
  have hbelow := insertionSort_mono (flatten_le_tops groups)
  rw [insertionSort_eq hl hperm, insertionSort_eq hsorted hsame] at hbelow
  have hlen : (ordered.map tops).length = groups.length := by
    rw [List.length_map, hordered.length_eq]
  rw [← hlen]
  apply segment_length_le hfit hbelow
  intro r hr
  obtain ⟨g, hmem, rfl⟩ := List.mem_map.mp hr
  exact (hg g (hordered.mem_iff.mp hmem)).below hfit List.length_replicate (top_replicate_le _ _)

end

/-! ## lists of groups and partitions of a set -/

section
variable {s : Finset Nat}

theorem top_map_eq_sup (f : Nat → Nat) (l : List Nat) : top (l.map f) = l.toFinset.sup f := by
  apply le_antisymm
  · apply top_le
    intro a ha
    obtain ⟨i, hi, rfl⟩ := List.mem_map.mp ha
    exact Finset.le_sup (List.mem_toFinset.mpr hi)
  · apply Finset.sup_le
    intro i hi
    exact le_top (List.mem_map.mpr ⟨i, List.mem_toFinset.mp hi, rfl⟩)

/-- nonempty groups without a common element are the parts of a partition -/
theorem exists_parts {groups : List (List Nat)} (hnodup : groups.flatten.Nodup)
    (hs : groups.flatten.toFinset = s) (hne : ∀ g ∈ groups, g ≠ []) :
    ∃ P : Finpartition s, P.parts = (groups.map List.toFinset).toFinset ∧
      P.parts.card = groups.length := by
  obtain ⟨hin, hdisj⟩ := List.nodup_flatten.mp hnodup
  have hne' : ∀ g ∈ groups, g.toFinset ≠ ∅ := by
    intro g hg h
    exact hne g hg (List.toFinset_eq_empty_iff g |>.mp h)
  have hpairwise : (groups.map List.toFinset).Pairwise Disjoint := by
    rw [List.pairwise_map]
    exact hdisj.imp fun h => List.disjoint_toFinset_iff_disjoint.mpr h
  have hdistinct : (groups.map List.toFinset).Nodup := by
    refine hpairwise.imp_of_mem ?_
    rintro p q hp - hpq rfl
    obtain ⟨g, hg, rfl⟩ := List.mem_map.mp hp
    exact hne' g hg (disjoint_self.mp hpq)
  refine ⟨⟨(groups.map List.toFinset).toFinset, ?_, ?_, ?_⟩, rfl, ?_⟩
  · rw [Finset.supIndep_iff_pairwiseDisjoint]
    have : Std.Symm (Disjoint : Finset Nat → Finset Nat → Prop) := ⟨fun _ _ h => h.symm⟩
    intro p hp q hq hpq
    exact hpairwise.forall (List.mem_toFinset.mp hp) (List.mem_toFinset.mp hq) hpq
  · ext i
    rw [← hs, Finset.mem_sup]
    simp
  · intro h
    obtain ⟨g, hg, he⟩ := List.mem_map.mp (List.mem_toFinset.mp h)
    exact hne' g hg he
  · rw [List.toFinset_card_of_nodup hdistinct, List.length_map]

/-- the parts, listed, hold every element once -/
theorem parts_toList_perm (P : Finpartition s) :
    (P.parts.toList.map Finset.toList).flatten.Perm s.toList := by
  refine (List.perm_ext_iff_of_nodup ?_ s.nodup_toList).mpr ?_
  · rw [List.nodup_flatten]
    refine ⟨?_, ?_⟩
    · intro l hl
      obtain ⟨p, -, rfl⟩ := List.mem_map.mp hl
      exact p.nodup_toList
    · rw [List.pairwise_map]
      refine P.parts.nodup_toList.imp_of_mem ?_
      intro p q hp hq hpq i hi hi'
      have hd := P.disjoint (Finset.mem_toList.mp hp) (Finset.mem_toList.mp hq) hpq
      exact Finset.disjoint_left.mp hd (Finset.mem_toList.mp hi) (Finset.mem_toList.mp hi')
  · intro i
    have hmem : i ∈ s ↔ ∃ p ∈ P.parts, i ∈ p := ⟨P.exists_mem, fun ⟨p, hp, hi⟩ => P.le hp hi⟩
    simp [hmem]

end
end EmbedServer
