import Mathlib.Data.List.Sort
import Mathlib.Data.List.Perm.Basic

/-!
# Order statistics

`atRank l k` is the element at place `k`, from zero on, once `l` is put in order.

* `atRank_perm`       it does not depend on the order of `l`;
* `atRank_cons_le`    one element more, however large, raises no place that was there before;
* `le_atRank_last`    the last place holds the largest element.
-/

namespace EmbedServer

section
variable {α : Type} [LinearOrder α]

/-- the element at place `k` of the ordered list -/
def atRank (l : List α) (k : Nat) : Option α := (l.insertionSort (· ≤ ·))[k]?

variable {l l' : List α} {k : Nat} {a : α}

theorem atRank_perm (h : l.Perm l') (k : Nat) : atRank l k = atRank l' k := by
  have hsort : l.insertionSort (· ≤ ·) = l'.insertionSort (· ≤ ·) := by
    apply List.Perm.eq_of_pairwise' (List.pairwise_insertionSort _ l) (List.pairwise_insertionSort _ l')
    exact (List.perm_insertionSort _ l).trans (h.trans (List.perm_insertionSort _ l').symm)
  unfold atRank
  rw [hsort]

theorem atRank_of_lt (h : k < l.length) : ∃ a, atRank l k = some a :=
  ⟨_, List.getElem?_eq_getElem (by rw [List.length_insertionSort]; exact h)⟩

theorem mem_of_atRank (h : atRank l k = some a) : a ∈ l :=
  (List.mem_insertionSort _).mp (List.mem_of_getElem? h)

theorem atRank_mono {i j : Nat} {b : α} (hij : i ≤ j) (ha : atRank l i = some a)
    (hb : atRank l j = some b) : a ≤ b := by
  obtain ⟨hi, rfl⟩ := List.getElem?_eq_some_iff.mp ha
  obtain ⟨hj, rfl⟩ := List.getElem?_eq_some_iff.mp hb
  exact (List.pairwise_insertionSort (· ≤ ·) l).sortedLE.getElem_le_getElem_of_le hij

/-- every element has its place -/
theorem exists_atRank (h : a ∈ l) : ∃ k < l.length, atRank l k = some a := by
  obtain ⟨k, hk, hka⟩ := List.getElem_of_mem ((List.mem_insertionSort (· ≤ ·)).mpr h)
  refine ⟨k, ?_, ?_⟩
  · rw [List.length_insertionSort] at hk
    exact hk
  · show (l.insertionSort (· ≤ ·))[k]? = some a
    rw [List.getElem?_eq_getElem hk, hka]

theorem le_atRank_last {b : α} (h : atRank l (l.length - 1) = some a) (hb : b ∈ l) : b ≤ a := by
  obtain ⟨k, hk, hkb⟩ := exists_atRank hb
  exact atRank_mono (by omega) hkb h

theorem atRank_zero_le {b : α} (h : atRank l 0 = some a) (hb : b ∈ l) : a ≤ b := by
  obtain ⟨k, -, hkb⟩ := exists_atRank hb
  exact atRank_mono (Nat.zero_le k) h hkb

/-- an element put into an ordered list pushes smaller ones up, never a larger one down -/
theorem orderedInsert_le {t : List α} (ht : t.Pairwise (· ≤ ·)) (x : α) {m : α}
    (hm : (t.orderedInsert (· ≤ ·) x)[k]? = some m) (ha : t[k]? = some a) : m ≤ a := by
  induction t generalizing k with
  | nil => cases ha
  | cons b t ih =>
    obtain ⟨hb, ht⟩ := List.pairwise_cons.mp ht
    by_cases hxb : x ≤ b
    · rw [List.orderedInsert_cons_of_le _ _ hxb] at hm
      cases k with
      | zero =>
        cases hm
        cases ha
        exact hxb
      | succ k =>
        rw [List.getElem?_cons_succ] at hm ha
        cases k with
        | zero =>
          cases hm
          exact hb a (List.mem_of_getElem? ha)
        | succ k =>
          rw [List.getElem?_cons_succ] at hm
          obtain ⟨hk, rfl⟩ := List.getElem?_eq_some_iff.mp hm
          obtain ⟨hk', rfl⟩ := List.getElem?_eq_some_iff.mp ha
          exact ht.sortedLE.getElem_le_getElem_of_le (Nat.le_succ k)
    · rw [List.orderedInsert_of_not_le _ _ hxb] at hm
      cases k with
      | zero =>
        cases hm
        cases ha
        exact le_rfl
      | succ k => exact ih ht hm ha

theorem atRank_cons_le (x : α) {m : α} (hm : atRank (x :: l) k = some m) (ha : atRank l k = some a) :
    m ≤ a := by
  unfold atRank at hm ha
  rw [List.insertionSort_cons] at hm
  exact orderedInsert_le (List.pairwise_insertionSort _ l) x hm ha

end
end EmbedServer
