import EmbedServer.Lib.Outcome
import Mathlib.Algebra.BigOperators.Group.List.Basic
import Mathlib.Tactic.Ring

/-!
# Dense arrays: a shape and the elements in row-major order

`Nd α` carries the proof that its element list has exactly the size of its shape, so a malformed
array cannot be built.

* `Nd.fromShapeVec`   shape plus flat vector, refused when the sizes differ;
* `Nd.indexAxis`      the sub-array at one index of one axis (a panic out of range);
* `indexAxis_zero`    index `i` of the first axis is the `i`-th block of the data;
* `block_flatten`     the `r`-th block of a concatenation of equally long rows is its `r`-th row.
-/

namespace EmbedServer

/-- `ndarray::ErrorKind` of a failed `from_shape_vec` -/
inductive ShapeError where
  | outOfBounds
  | incompatibleShape
deriving DecidableEq, Repr

structure Nd (α : Type) where
  shape : List Nat
  data : List α
  size_eq : data.length = shape.prod
deriving DecidableEq, Repr

/-! ## blocks of a flat vector -/

/-- the `r`-th block of length `k` -/
def block {α : Type} (k r : Nat) (l : List α) : List α := (l.drop (r * k)).take k

theorem length_block {α : Type} {k r n : Nat} {l : List α} (hl : l.length = n * k) (hr : r < n) :
    (block k r l).length = k := by
  have h := Nat.mul_le_mul_right k (show r + 1 ≤ n from hr)
  rw [Nat.succ_mul] at h
  rw [block, List.length_take, List.length_drop, hl]
  omega

theorem block_flatten {α : Type} {k : Nat} {L : List (List α)} (hL : ∀ x ∈ L, x.length = k)
    {r : Nat} {x : List α} (hr : L[r]? = some x) : block k r L.flatten = x := by
  induction L generalizing r with
  | nil => simp at hr
  | cons y L ih =>
    have hy : y.length = k := hL y List.mem_cons_self
    cases r with
    | zero =>
      rw [List.getElem?_cons_zero, Option.some.injEq] at hr
      subst hr
      simp [block, hy]
    | succ r =>
      rw [List.getElem?_cons_succ] at hr
      rw [← ih (fun z hz => hL z (List.mem_cons_of_mem _ hz)) hr]
      show ((y ++ L.flatten).drop ((r + 1) * k)).take k = _
      have e : (r + 1) * k = y.length + r * k := by rw [hy]; ring
      rw [e, List.drop_length_add_append]
      rfl

namespace Nd
variable {ε α : Type}

/-- `from_shape_vec` -/
def fromShapeVec (shape : List Nat) (v : List α) : Outcome ShapeError (Nd α) :=
  if h : v.length = shape.prod then .ok ⟨shape, v, h⟩
  else if v.length < shape.prod then .err .outOfBounds
  else .err .incompatibleShape

theorem fromShapeVec_ok {shape : List Nat} {v : List α} (h : v.length = shape.prod) :
    fromShapeVec shape v = .ok ⟨shape, v, h⟩ := dif_pos h

/-- `nrows` of a two-dimensional array -/
def nrows (a : Nd α) : Nat := a.shape.headD 0

/-- blocks of `inner` elements at index `i` of an axis of length `n`, one for every outer index -/
def axisData (outer n inner i : Nat) (l : List α) : List α :=
  (List.range outer).flatMap fun o => block inner (o * n + i) l

theorem length_axisData {outer n inner i : Nat} {l : List α} (hl : l.length = outer * n * inner)
    (hi : i < n) : (axisData outer n inner i l).length = outer * inner := by
  have hb : ∀ o ∈ List.range outer, (block inner (o * n + i) l).length = inner := by
    intro o ho
    have h1 := Nat.mul_le_mul_right n (show o + 1 ≤ outer from List.mem_range.mp ho)
    rw [Nat.succ_mul] at h1
    exact length_block hl (by omega)
  rw [axisData, List.length_flatMap, List.map_congr_left hb]
  simp

theorem prod_split {shape : List Nat} {ax n : Nat} (h : shape[ax]? = some n) :
    shape.prod = (shape.take ax).prod * n * (shape.drop (ax + 1)).prod := by
  obtain ⟨hax, hn⟩ := List.getElem?_eq_some_iff.mp h
  conv_lhs => rw [← List.take_append_drop ax shape, List.prod_append, List.drop_eq_getElem_cons hax,
    List.prod_cons, hn]
  ring

/-- `index_axis(Axis(ax), i)`, made contiguous -/
def indexAxis (a : Nd α) (ax i : Nat) : Outcome ε (Nd α) :=
  match h : a.shape[ax]? with
  | none => .panic "axis out of bounds"
  | some n =>
    if hi : i < n then
      .ok ⟨a.shape.take ax ++ a.shape.drop (ax + 1),
        axisData (a.shape.take ax).prod n (a.shape.drop (ax + 1)).prod i a.data, by
          rw [length_axisData (by rw [a.size_eq, prod_split h]) hi, List.prod_append]⟩
    else .panic "index out of bounds"

theorem errIn_indexAxis {P : ε → Prop} (a : Nd α) (ax i : Nat) :
    Outcome.ErrIn P (a.indexAxis ax i : Outcome ε (Nd α)) := by
  unfold indexAxis
  split
  · exact Outcome.errIn_panic _
  · split
    · exact Outcome.errIn_ok _
    · exact Outcome.errIn_panic _

theorem indexAxis_ok (a : Nd α) (ax : Nat) {i n : Nat} (h : a.shape[ax]? = some n) (hi : i < n) :
    ∃ r : Nd α, (a.indexAxis ax i : Outcome ε (Nd α)) = .ok r ∧
      r.shape = a.shape.take ax ++ a.shape.drop (ax + 1) ∧
      r.data = axisData (a.shape.take ax).prod n (a.shape.drop (ax + 1)).prod i a.data := by
  unfold indexAxis
  split
  · rename_i h'
    rw [h] at h'
    cases h'
  · rename_i m h'
    rw [h] at h'
    cases h'
    rw [dif_pos hi]
    exact ⟨_, rfl, rfl, rfl⟩

/-- an index of the first axis selects one block -/
theorem indexAxis_zero {a : Nd α} {b i : Nat} {rest : List Nat} (h : a.shape = b :: rest) (hi : i < b) :
    ∃ r : Nd α, (a.indexAxis 0 i : Outcome ε (Nd α)) = .ok r ∧ r.shape = rest ∧
      r.data = block rest.prod i a.data := by
  have h0 : a.shape[0]? = some b := by rw [h]; rfl
  obtain ⟨r, hr, hs, hd⟩ := indexAxis_ok (ε := ε) a 0 h0 hi
  refine ⟨r, hr, by rw [hs, h]; rfl, ?_⟩
  rw [hd, h]
  simp [axisData]

end Nd
end EmbedServer
