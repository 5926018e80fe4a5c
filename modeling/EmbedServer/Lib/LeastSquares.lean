import Mathlib.Algebra.BigOperators.Group.List.Basic
import Mathlib.Algebra.Order.BigOperators.Group.List
import Mathlib.Algebra.Order.Field.Basic
import Mathlib.Tactic.Linarith
import Mathlib.Tactic.Positivity
import Mathlib.Tactic.FieldSimp
import Mathlib.Tactic.LinearCombination
import Mathlib.Tactic.Ring

/-!
# Least squares with two columns and no intercept

Observations `i ∈ l` with columns `u i`, `v i` and response `z i`, in any ordered field:
`resid a b` is the sum of the squares of `z i - a * u i - b * v i`.

* `gramDet_cons`       Lagrange's identity, one observation at a time; so the determinant of the Gram
                       matrix is `≥ 0`, and `0` exactly when any two rows are proportional
                       (`gramDet_nonneg`, `gramDet_eq_zero_iff`);
* `resid_lt_cramer`    with a nonzero determinant, Cramer's rule gives the one pair with the least sum.
-/

namespace EmbedServer

section
variable {ι K : Type} [Field K] [LinearOrder K] [IsStrictOrderedRing K]

/-- sum of `f` over the observations -/
def total (l : List ι) (f : ι → K) : K := (l.map f).sum

omit [LinearOrder K] [IsStrictOrderedRing K] in
@[simp] theorem total_nil (f : ι → K) : total [] f = 0 := rfl

omit [LinearOrder K] [IsStrictOrderedRing K] in
@[simp] theorem total_cons (i : ι) (l : List ι) (f : ι → K) : total (i :: l) f = f i + total l f := by
  simp [total]

theorem total_sq_nonneg (l : List ι) (f : ι → K) : 0 ≤ total l fun i => f i ^ 2 := by
  induction l with
  | nil => exact le_refl _
  | cons i l ih =>
    rw [total_cons]
    positivity

theorem total_sq_eq_zero {l : List ι} {f : ι → K} (h : total l (fun i => f i ^ 2) = 0) :
    ∀ i ∈ l, f i = 0 := by
  induction l with
  | nil => exact fun i hi => absurd hi List.not_mem_nil
  | cons j l ih =>
    rw [total_cons] at h
    have hj : 0 ≤ f j ^ 2 := sq_nonneg _
    have hl := total_sq_nonneg l f
    intro i hi
    rcases List.mem_cons.mp hi with rfl | hi
    · exact pow_eq_zero_iff (two_ne_zero) |>.mp (by linarith)
    · exact ih (by linarith) i hi

variable (l : List ι) (u v z : ι → K)

/-- determinant of the Gram matrix of the two columns -/
def gramDet : K :=
  total l (fun i => u i * u i) * total l (fun i => v i * v i) -
    total l (fun i => u i * v i) * total l (fun i => u i * v i)

/-- sum of the squared residuals -/
def resid (a b : K) : K := total l fun i => (z i - a * u i - b * v i) ^ 2

/-! ## the determinant -/

omit [LinearOrder K] [IsStrictOrderedRing K] in
theorem total_cross (a b : K) : (total l fun j => (a * v j - b * u j) ^ 2) =
    a * a * total l (fun j => v j * v j) - 2 * a * b * total l (fun j => u j * v j) +
      b * b * total l (fun j => u j * u j) := by
  induction l with
  | nil => simp
  | cons j l ih =>
    simp only [total_cons, ih]
    ring

omit [LinearOrder K] [IsStrictOrderedRing K] in
theorem gramDet_cons (i : ι) : gramDet (i :: l) u v =
    gramDet l u v + total l fun j => (u i * v j - v i * u j) ^ 2 := by
  rw [total_cross]
  simp only [gramDet, total_cons]
  ring

/-- Cauchy-Schwarz -/
theorem gramDet_nonneg : 0 ≤ gramDet l u v := by
  induction l with
  | nil => simp [gramDet]
  | cons i l ih =>
    rw [gramDet_cons]
    exact add_nonneg ih (total_sq_nonneg l _)

/-- the columns are dependent exactly when any two rows are proportional -/
theorem gramDet_eq_zero_iff :
    gramDet l u v = 0 ↔ l.Pairwise fun i j => u i * v j - v i * u j = 0 := by
  induction l with
  | nil => simp [gramDet]
  | cons i l ih =>
    rw [gramDet_cons, List.pairwise_cons, ← ih]
    constructor
    · intro h
      have hdet := gramDet_nonneg l u v
      have hsum := total_sq_nonneg l fun j => u i * v j - v i * u j
      exact ⟨total_sq_eq_zero (by linarith), by linarith⟩
    · rintro ⟨hrow, hdet⟩
      have hsum : (total l fun j => (u i * v j - v i * u j) ^ 2) = 0 := by
        apply List.sum_eq_zero
        intro x hx
        obtain ⟨j, hj, rfl⟩ := List.mem_map.mp hx
        rw [hrow j hj]
        exact zero_pow two_ne_zero
      rw [hdet, hsum, add_zero]

/-! ## the minimum -/

omit [LinearOrder K] [IsStrictOrderedRing K] in
theorem resid_eq (a b : K) : resid l u v z a b =
    total l (fun i => z i * z i) - 2 * a * total l (fun i => u i * z i) -
      2 * b * total l (fun i => v i * z i) + a * a * total l (fun i => u i * u i) +
      2 * a * b * total l (fun i => u i * v i) + b * b * total l (fun i => v i * v i) := by
  unfold resid
  induction l with
  | nil => simp
  | cons i l ih =>
    simp only [total_cons, ih]
    ring

/-- where the normal equations hold, moving away adds a quadratic form -/
theorem resid_shift {a b : K} (h1 : total l (fun i => u i * u i) * a + total l (fun i => u i * v i) * b =
      total l (fun i => u i * z i))
    (h2 : total l (fun i => u i * v i) * a + total l (fun i => v i * v i) * b =
      total l (fun i => v i * z i)) (x y : K) :
    resid l u v z (a + x) (b + y) = resid l u v z a b + total l (fun i => u i * u i) * x ^ 2 +
      2 * total l (fun i => u i * v i) * (x * y) + total l (fun i => v i * v i) * y ^ 2 := by
  rw [resid_eq, resid_eq]
  linear_combination 2 * x * h1 + 2 * y * h2

/-- the form is positive where the determinant is -/
theorem form_pos {s11 s12 s22 x y : K} (h11 : 0 ≤ s11) (hdet : 0 < s11 * s22 - s12 * s12)
    (hxy : x ≠ 0 ∨ y ≠ 0) : 0 < s11 * x ^ 2 + 2 * s12 * (x * y) + s22 * y ^ 2 := by
  have hpos : 0 < s11 := by
    rcases h11.lt_or_eq with h | h
    · exact h
    · rw [← h] at hdet
      have := mul_self_nonneg s12
      linarith
  have hsquare : s11 * (s11 * x ^ 2 + 2 * s12 * (x * y) + s22 * y ^ 2) =
      (s11 * x + s12 * y) ^ 2 + (s11 * s22 - s12 * s12) * y ^ 2 := by ring
  have hright : 0 < (s11 * x + s12 * y) ^ 2 + (s11 * s22 - s12 * s12) * y ^ 2 := by
    by_cases hy : y = 0
    · have hx : x ≠ 0 := hxy.resolve_right (not_not.mpr hy)
      subst hy
      have : 0 < (s11 * x) ^ 2 := by positivity
      simpa using this
    · have hlast : 0 < (s11 * s22 - s12 * s12) * y ^ 2 := by positivity
      have hfirst := sq_nonneg (s11 * x + s12 * y)
      linarith
  rw [← hsquare] at hright
  exact (pos_iff_pos_of_mul_pos hright).mp hpos

omit [LinearOrder K] [IsStrictOrderedRing K] in
/-- Cramer's rule solves the normal equations -/
theorem cramer_solves {s11 s12 s22 t1 t2 d a b : K} (hd : d = s11 * s22 - s12 * s12) (h : d ≠ 0)
    (ha : a = (s22 * t1 - s12 * t2) / d) (hb : b = (s11 * t2 - s12 * t1) / d) :
    s11 * a + s12 * b = t1 ∧ s12 * a + s22 * b = t2 := by
  rw [ha, hb]
  constructor
  · field_simp
    rw [hd]
    ring
  · field_simp
    rw [hd]
    ring

omit [LinearOrder K] [IsStrictOrderedRing K] in
/-- scaling a column by `p` scales its coefficient by `1 / p` -/
theorem resid_scale {p q : K} (hp : p ≠ 0) (hq : q ≠ 0) (a b : K) :
    resid l (fun i => u i / p) (fun i => v i / q) z (a * p) (b * q) = resid l u v z a b := by
  have hterm : ∀ i, z i - a * p * (u i / p) - b * q * (v i / q) = z i - a * u i - b * v i := by
    intro i
    field_simp
  unfold resid
  simp only [hterm]

variable {l u v z} in
/-- **Cramer's rule gives the unique minimiser.** -/
theorem resid_lt_cramer (hdet : gramDet l u v ≠ 0) {a b : K}
    (ha : a = (total l (fun i => v i * v i) * total l (fun i => u i * z i) -
      total l (fun i => u i * v i) * total l (fun i => v i * z i)) / gramDet l u v)
    (hb : b = (total l (fun i => u i * u i) * total l (fun i => v i * z i) -
      total l (fun i => u i * v i) * total l (fun i => u i * z i)) / gramDet l u v)
    {a' b' : K} (hne : (a', b') ≠ (a, b)) : resid l u v z a b < resid l u v z a' b' := by
  have hpos : 0 < gramDet l u v := lt_of_le_of_ne (gramDet_nonneg l u v) hdet.symm
  have hdef : gramDet l u v = total l (fun i => u i * u i) * total l (fun i => v i * v i) -
      total l (fun i => u i * v i) * total l (fun i => u i * v i) := rfl
  obtain ⟨h1, h2⟩ := cramer_solves hdef hdet ha hb
  have hxy : a' - a ≠ 0 ∨ b' - b ≠ 0 := by
    by_contra h
    push Not at h
    exact hne (Prod.ext (sub_eq_zero.mp h.1) (sub_eq_zero.mp h.2))
  have h11 : 0 ≤ total l fun i => u i * u i := by
    have h := total_sq_nonneg l u
    simpa [sq] using h
  have hshift := resid_shift l u v z h1 h2 (a' - a) (b' - b)
  have hform := form_pos h11 hpos hxy
  rw [add_sub_cancel, add_sub_cancel] at hshift
  rw [hshift]
  linarith

end
end EmbedServer
