import Mathlib.Algebra.BigOperators.Group.Finset.Piecewise
import Mathlib.Algebra.GroupWithZero.Nat
import Mathlib.Data.Nat.Count

/-!
# Counting and adding up over the indices below `n`

* `count_congr`, `count_one_more`  the indices that have a property: the same, or one more;
* `sum_update`                     a sum in which the term of one index changes;
* `sum_map_modify`                 the same for one entry of a list;
* `countP_modify`                  how many entries of a list have a property, when one changes.
-/

namespace EmbedServer

section
variable {P Q : Nat → Prop} [DecidablePred P] [DecidablePred Q] {n w : Nat}

theorem count_congr (h : ∀ k < n, (Q k ↔ P k)) : Nat.count Q n = Nat.count P n := by
  rw [Nat.count_eq_card_filter_range, Nat.count_eq_card_filter_range]
  congr 1
  ext k
  rw [Finset.mem_filter, Finset.mem_filter, Finset.mem_range]
  constructor
  · intro hk
    exact ⟨hk.1, (h k hk.1).mp hk.2⟩
  · intro hk
    exact ⟨hk.1, (h k hk.1).mpr hk.2⟩

theorem count_one_more (hw : w < n) (hP : ¬P w) (hQ : Q w) (h : ∀ k, k ≠ w → (Q k ↔ P k)) :
    Nat.count Q n = Nat.count P n + 1 := by
  rw [Nat.count_eq_card_filter_range, Nat.count_eq_card_filter_range]
  have hnot : w ∉ (Finset.range n).filter P := by
    intro hm
    exact hP (Finset.mem_filter.mp hm).2
  rw [← Finset.card_insert_of_notMem hnot]
  congr 1
  ext k
  rw [Finset.mem_insert, Finset.mem_filter, Finset.mem_filter, Finset.mem_range]
  by_cases hk : k = w
  · subst hk
    exact ⟨fun _ => .inl rfl, fun _ => ⟨hw, hQ⟩⟩
  · rw [h k hk]
    exact ⟨fun hm => .inr hm, fun hm => hm.resolve_left hk⟩

end

/-- the term of index `w` goes from `f w` to `b` -/
theorem sum_update {f g : Nat → Nat} {n w b : Nat} (hw : w < n) (hg : g = Function.update f w b) :
    ∑ k ∈ Finset.range n, g k + f w = ∑ k ∈ Finset.range n, f k + b := by
  have hmem : w ∈ Finset.range n := Finset.mem_range.mpr hw
  rw [hg, Finset.sum_update_of_mem hmem, ← Finset.add_sum_erase _ f hmem, Finset.sdiff_singleton_eq_erase]
  omega

theorem sum_map_modify {α : Type} (f : α → Nat) (g : α → α) {l : List α} {i : Nat} {a : α}
    (h : l[i]? = some a) : ((l.modify i g).map f).sum + f a = (l.map f).sum + f (g a) := by
  induction l generalizing i with
  | nil => cases h
  | cons b l ih =>
    cases i with
    | zero =>
      cases h
      rw [List.modify_zero_cons, List.map_cons, List.map_cons, List.sum_cons, List.sum_cons]
      omega
    | succ i =>
      rw [List.getElem?_cons_succ] at h
      have := ih h
      rw [List.modify_succ_cons, List.map_cons, List.map_cons, List.sum_cons, List.sum_cons]
      omega

theorem countP_eq_sum {α : Type} (P : α → Bool) (l : List α) :
    l.countP P = (l.map fun a => (P a).toNat).sum := by
  induction l with
  | nil => rfl
  | cons a l ih =>
    rw [List.countP_cons, ih, List.map_cons, List.sum_cons, Nat.add_comm]
    cases P a <;> rfl

theorem countP_modify {α : Type} (P : α → Bool) (g : α → α) {l : List α} {i : Nat} {a : α}
    (h : l[i]? = some a) : (l.modify i g).countP P + (P a).toNat = l.countP P + (P (g a)).toNat := by
  rw [countP_eq_sum, countP_eq_sum]
  exact sum_map_modify _ g h

end EmbedServer
