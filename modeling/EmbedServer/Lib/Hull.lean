import Mathlib.Order.Interval.Basic

/-!
# Boxes around points

`hull s ss` is the smallest box `[a, b] × [c, d]` that holds `s` and the points `ss`.

* `mem_hull_iff`   a point is in the hull exactly if on each side of it, in each coordinate, there is
                   a point of the list.
-/

namespace EmbedServer

section
variable {α β : Type} [LinearOrder α] [LinearOrder β]

/-- the box extended to a point -/
def Box.extend (b : NonemptyInterval (α × β)) (t : α × β) : NonemptyInterval (α × β) :=
  b ⊔ NonemptyInterval.pure t

def hull (s : α × β) (ss : List (α × β)) : NonemptyInterval (α × β) :=
  ss.foldl Box.extend (NonemptyInterval.pure s)

theorem mem_extend_foldl (ss : List (α × β)) (b : NonemptyInterval (α × β)) (a : α × β) :
    a ∈ ss.foldl Box.extend b ↔
      (b.fst.1 ≤ a.1 ∨ ∃ t ∈ ss, t.1 ≤ a.1) ∧ (a.1 ≤ b.snd.1 ∨ ∃ t ∈ ss, a.1 ≤ t.1) ∧
      (b.fst.2 ≤ a.2 ∨ ∃ t ∈ ss, t.2 ≤ a.2) ∧ (a.2 ≤ b.snd.2 ∨ ∃ t ∈ ss, a.2 ≤ t.2) := by
  induction ss generalizing b with
  | nil =>
    rw [List.foldl_nil, NonemptyInterval.mem_def, Prod.le_def, Prod.le_def]
    simp only [List.not_mem_nil, false_and, exists_false, or_false]
    tauto
  | cons t ss ih =>
    rw [List.foldl_cons, ih]
    simp only [Box.extend, NonemptyInterval.fst_sup, NonemptyInterval.snd_sup, Prod.fst_inf, Prod.snd_inf,
      Prod.fst_sup, Prod.snd_sup, NonemptyInterval.pure, inf_le_iff,
      le_sup_iff, List.mem_cons, exists_eq_or_imp, or_assoc]

/-- **The hull, side by side.** -/
theorem mem_hull_iff {s : α × β} {ss : List (α × β)} {a : α × β} :
    a ∈ hull s ss ↔ (∃ t ∈ s :: ss, t.1 ≤ a.1) ∧ (∃ t ∈ s :: ss, a.1 ≤ t.1) ∧
      (∃ t ∈ s :: ss, t.2 ≤ a.2) ∧ ∃ t ∈ s :: ss, a.2 ≤ t.2 := by
  rw [hull, mem_extend_foldl]
  simp only [NonemptyInterval.pure, List.mem_cons, exists_eq_or_imp]

end
end EmbedServer
