import EmbedServer.Lib.LeastSquares
import EmbedServer.Probe.Cache

/-!
# The fit is ordinary least squares (`probe/fit.rs`)

`rawFit` is the part of `fit_cost_model` before the sign checks, `clampFit` the rest
(`fitCostModel_eq`).  The columns are divided by their maxima; `resid_scale` takes the solution back.

* `gramOf_det_eq_zero_iff`   the normalised Gram determinant vanishes exactly when all points with a
                             token have one sequence length;
* `rawFit_unique`            the unscaled pair is the only minimiser of the squared residuals;
* `fit_least_squares`        the whole statement, with exact recovery, order independence, the clamp
                             box and the safe side of the clamps.
-/

namespace EmbedServer

/-! ## the two halves of the function -/

def x1Max (data : List DataPoint) : Rat := data.foldl (fun m dp => max m dp.x1) 0

def x2Max (data : List DataPoint) : Rat := data.foldl (fun m dp => max m dp.x2) 0

/-- the normalised Gram matrix of the data -/
def gramOf (data : List DataPoint) : Gram := data.foldl (Gram.push (x1Max data) (x2Max data)) ⟨0, 0, 0, 0, 0⟩

def Gram.det (g : Gram) : Rat := g.g11 * g.g22 - g.g12 * g.g12

/-- the singularity test -/
def Gram.nearlySingular (g : Gram) : Bool := decide (|g.det| < 1 / 1000000 * max g.g11 g.g22 ^ 2)

/-- the unscaled pair `(a_raw, b_raw)`, where the function reaches it -/
def rawFit (data : List DataPoint) : Option (Rat × Rat) :=
  if data.length < 2 ∨ x1Max data = 0 ∨ x2Max data = 0 ∨ (gramOf data).nearlySingular = true then none
  else
    let g := gramOf data
    some ((g.g22 * g.gy1 - g.g12 * g.gy2) / g.det / x1Max data,
      (g.g11 * g.gy2 - g.g12 * g.gy1) / g.det / x2Max data)

/-- sign check and clamps -/
def clampFit (raw : Rat × Rat) : Option (Rat × Rat) :=
  if raw.2 < 0 then none
  else some (clampRat (max raw.1 0) 4096 262144, clampRat raw.2 (1 / 100) 50000)

theorem fitCostModel_eq (data : List DataPoint) : fitCostModel data = (rawFit data).bind clampFit := by
  have hbody : fitCostModel data =
      if data.length < 2 then none
      else if x1Max data = 0 ∨ x2Max data = 0 then none
      else if |(gramOf data).det| < 1 / 1000000 * max (gramOf data).g11 (gramOf data).g22 ^ 2 then none
      else clampFit
        (((gramOf data).g22 * (gramOf data).gy1 - (gramOf data).g12 * (gramOf data).gy2) /
            (gramOf data).det / x1Max data,
          ((gramOf data).g11 * (gramOf data).gy2 - (gramOf data).g12 * (gramOf data).gy1) /
            (gramOf data).det / x2Max data) := rfl
  rw [hbody]
  unfold rawFit
  by_cases hlen : data.length < 2
  · rw [if_pos hlen, if_pos (.inl hlen)]
    rfl
  · rw [if_neg hlen]
    by_cases hmax : x1Max data = 0 ∨ x2Max data = 0
    · rw [if_pos hmax, if_pos (by tauto)]
      rfl
    · rw [if_neg hmax]
      by_cases hs : (gramOf data).nearlySingular = true
      · rw [if_pos (of_decide_eq_true hs), if_pos (by tauto)]
        rfl
      · rw [if_neg fun h => hs (decide_eq_true h), if_neg (by tauto)]
        rfl

section
variable {data : List DataPoint}

/-- squared residuals of `a * batch * seq + b * batch * seq²` -/
def residual (data : List DataPoint) (a b : Rat) : Rat :=
  resid data DataPoint.x1 DataPoint.x2 (fun dp => dp.rssDelta) a b

/-! ## the maxima -/

theorem le_foldl_max (f : DataPoint → Rat) (m : Rat) (data : List DataPoint) :
    m ≤ data.foldl (fun m dp => max m (f dp)) m ∧
      ∀ dp ∈ data, f dp ≤ data.foldl (fun m dp => max m (f dp)) m := by
  induction data generalizing m with
  | nil => exact ⟨le_refl m, by simp⟩
  | cons d data ih =>
    obtain ⟨h1, h2⟩ := ih (max m (f d))
    refine ⟨(le_max_left _ _).trans h1, ?_⟩
    intro dp hdp
    rcases List.mem_cons.mp hdp with rfl | hdp
    · exact (le_max_right _ _).trans h1
    · exact h2 dp hdp

theorem x1_pos {dp : DataPoint} (h : 0 < dp.batch * dp.seq) : 0 < dp.x1 := by
  unfold DataPoint.x1
  exact_mod_cast h

theorem x2_pos {dp : DataPoint} (h : 0 < dp.batch * dp.seq) : 0 < dp.x2 := by
  have hseq : 0 < dp.seq := Nat.pos_of_mul_pos_left h
  unfold DataPoint.x2
  exact_mod_cast Nat.mul_pos h hseq

theorem x1Max_pos (h : ∃ dp ∈ data, 0 < dp.batch * dp.seq) : 0 < x1Max data := by
  obtain ⟨dp, hmem, hdp⟩ := h
  exact (x1_pos hdp).trans_le ((le_foldl_max DataPoint.x1 0 data).2 dp hmem)

theorem x2Max_pos (h : ∃ dp ∈ data, 0 < dp.batch * dp.seq) : 0 < x2Max data := by
  obtain ⟨dp, hmem, hdp⟩ := h
  exact (x2_pos hdp).trans_le ((le_foldl_max DataPoint.x2 0 data).2 dp hmem)

/-! ## the Gram matrix -/

theorem foldl_push (p q : Rat) (data : List DataPoint) (g : Gram) :
    data.foldl (Gram.push p q) g =
      ⟨g.g11 + total data (fun dp => dp.x1 / p * (dp.x1 / p)),
        g.g12 + total data (fun dp => dp.x1 / p * (dp.x2 / q)),
        g.g22 + total data (fun dp => dp.x2 / q * (dp.x2 / q)),
        g.gy1 + total data (fun dp => dp.x1 / p * dp.rssDelta),
        g.gy2 + total data (fun dp => dp.x2 / q * dp.rssDelta)⟩ := by
  induction data generalizing g with
  | nil => simp
  | cons d data ih =>
    rw [List.foldl_cons, ih]
    simp only [Gram.push, total_cons, add_assoc]

theorem gramOf_eq (data : List DataPoint) : gramOf data =
    ⟨total data (fun dp => dp.x1 / x1Max data * (dp.x1 / x1Max data)),
      total data (fun dp => dp.x1 / x1Max data * (dp.x2 / x2Max data)),
      total data (fun dp => dp.x2 / x2Max data * (dp.x2 / x2Max data)),
      total data (fun dp => dp.x1 / x1Max data * dp.rssDelta),
      total data (fun dp => dp.x2 / x2Max data * dp.rssDelta)⟩ := by
  unfold gramOf
  rw [foldl_push]
  simp only [zero_add]

theorem gramOf_det (data : List DataPoint) : (gramOf data).det =
    gramDet data (fun dp => dp.x1 / x1Max data) (fun dp => dp.x2 / x2Max data) := by
  rw [gramOf_eq]
  rfl

theorem gramOf_det_nonneg (data : List DataPoint) : 0 ≤ (gramOf data).det := by
  rw [gramOf_det]
  exact gramDet_nonneg data _ _

/-- two rows are proportional when one is zero or the sequence lengths agree -/
theorem rows_proportional_iff {p q : Rat} (hp : p ≠ 0) (hq : q ≠ 0) (d e : DataPoint) :
    d.x1 / p * (e.x2 / q) - d.x2 / q * (e.x1 / p) = 0 ↔
      (0 < d.batch * d.seq → 0 < e.batch * e.seq → d.seq = e.seq) := by
  have hcross : d.x1 / p * (e.x2 / q) - d.x2 / q * (e.x1 / p) =
      ((d.batch * d.seq : Nat) : Rat) * (e.batch * e.seq : Nat) * ((e.seq : Rat) - d.seq) / (p * q) := by
    unfold DataPoint.x1 DataPoint.x2
    push_cast
    field_simp
  have hpq : p * q ≠ 0 := mul_ne_zero hp hq
  rw [hcross, div_eq_zero_iff, or_iff_left hpq, mul_eq_zero, mul_eq_zero, Nat.cast_eq_zero,
    Nat.cast_eq_zero, sub_eq_zero, Nat.cast_inj]
  constructor
  · rintro ((h | h) | h) hd he
    · omega
    · omega
    · exact h.symm
  · intro h
    by_cases hd : d.batch * d.seq = 0
    · exact .inl (.inl hd)
    · by_cases he : e.batch * e.seq = 0
      · exact .inl (.inr he)
      · exact .inr (h (Nat.pos_of_ne_zero hd) (Nat.pos_of_ne_zero he)).symm

theorem gramOf_det_eq_zero_iff (hpos : ∃ dp ∈ data, 0 < dp.batch * dp.seq) :
    (gramOf data).det = 0 ↔ ∀ d ∈ data, ∀ e ∈ data,
      0 < d.batch * d.seq → 0 < e.batch * e.seq → d.seq = e.seq := by
  have hp := (x1Max_pos hpos).ne'
  have hq := (x2Max_pos hpos).ne'
  rw [gramOf_det, gramDet_eq_zero_iff]
  have hrows : (data.Pairwise fun d e => d.x1 / x1Max data * (e.x2 / x2Max data) -
        d.x2 / x2Max data * (e.x1 / x1Max data) = 0) ↔
      data.Pairwise fun d e => 0 < d.batch * d.seq → 0 < e.batch * e.seq → d.seq = e.seq := by
    constructor
    · exact fun h => h.imp fun hde => (rows_proportional_iff hp hq _ _).mp hde
    · exact fun h => h.imp fun hde => (rows_proportional_iff hp hq _ _).mpr hde
  rw [hrows]
  constructor
  · intro h
    have : Std.Symm fun d e : DataPoint =>
        0 < d.batch * d.seq → 0 < e.batch * e.seq → d.seq = e.seq :=
      ⟨fun _ _ h he hd => (h hd he).symm⟩
    exact fun d hd e he => h.forall_of_forall (fun _ _ _ _ => rfl) hd he
  · intro h
    exact List.pairwise_of_forall_mem_list h

/-! ## the unscaled pair -/

/-- where the pair is reached the determinant is positive -/
theorem det_ne_zero_of_reached (hpos : ∃ dp ∈ data, 0 < dp.batch * dp.seq)
    (hs : ¬ (gramOf data).nearlySingular = true) : (gramOf data).det ≠ 0 := by
  intro hdet
  apply hs
  -- the normalised column holds a nonzero entry, so the right side of the test is positive
  have h11 : 0 < (gramOf data).g11 := by
    obtain ⟨dp, hmem, hdp⟩ := hpos
    rw [gramOf_eq]
    have hsq : (fun dp : DataPoint => dp.x1 / x1Max data * (dp.x1 / x1Max data)) =
        fun dp => (dp.x1 / x1Max data) ^ 2 := by
      funext dp
      ring
    show 0 < total data fun dp => dp.x1 / x1Max data * (dp.x1 / x1Max data)
    rw [hsq]
    refine lt_of_le_of_ne (total_sq_nonneg data _) fun h => ?_
    have hzero := total_sq_eq_zero h.symm dp hmem
    exact absurd hzero (div_pos (x1_pos hdp) (x1Max_pos ⟨dp, hmem, hdp⟩)).ne'
  have hmax : 0 < max (gramOf data).g11 (gramOf data).g22 := lt_max_of_lt_left h11
  refine decide_eq_true ?_
  rw [hdet, abs_zero]
  positivity

/-- **The unscaled pair is the unique minimiser.** -/
theorem rawFit_unique (hpos : ∃ dp ∈ data, 0 < dp.batch * dp.seq) {raw other : Rat × Rat}
    (h : rawFit data = some raw) (hne : other ≠ raw) :
    residual data raw.1 raw.2 < residual data other.1 other.2 := by
  have hp := (x1Max_pos hpos).ne'
  have hq := (x2Max_pos hpos).ne'
  unfold rawFit at h
  split at h
  · cases h
  · rename_i hreach
    have hdet := det_ne_zero_of_reached hpos fun hs => hreach (.inr (.inr (.inr hs)))
    injection h with h
    rw [Prod.ext_iff] at h
    obtain ⟨ha, hb⟩ := h
    -- back to the normalised columns
    have ha' : raw.1 * x1Max data =
        ((gramOf data).g22 * (gramOf data).gy1 - (gramOf data).g12 * (gramOf data).gy2) /
          (gramOf data).det := by
      rw [← ha]
      exact div_mul_cancel₀ _ hp
    have hb' : raw.2 * x2Max data =
        ((gramOf data).g11 * (gramOf data).gy2 - (gramOf data).g12 * (gramOf data).gy1) /
          (gramOf data).det := by
      rw [← hb]
      exact div_mul_cancel₀ _ hq
    have hother : (other.1 * x1Max data, other.2 * x2Max data) ≠
        (raw.1 * x1Max data, raw.2 * x2Max data) := by
      intro hsame
      obtain ⟨h1, h2⟩ := Prod.mk.inj hsame
      exact hne (Prod.ext (mul_right_cancel₀ hp h1) (mul_right_cancel₀ hq h2))
    rw [gramOf_det] at hdet ha' hb'
    rw [gramOf_eq] at ha' hb'
    have hlt := resid_lt_cramer hdet ha' hb' hother
    rw [resid_scale _ _ _ _ hp hq, resid_scale _ _ _ _ hp hq] at hlt
    exact hlt

/-! ## recovery, order and clamps -/

/-- data on one surface `a * x1 + b * x2` give its coefficients -/
theorem rawFit_exact (hpos : ∃ dp ∈ data, 0 < dp.batch * dp.seq) {a b : Rat}
    (hon : ∀ dp ∈ data, (dp.rssDelta : Rat) = a * dp.x1 + b * dp.x2) {raw : Rat × Rat}
    (h : rawFit data = some raw) : raw = (a, b) := by
  by_contra hne
  have hlt := rawFit_unique hpos h (Ne.symm hne)
  have hzero : residual data a b = 0 := by
    apply List.sum_eq_zero
    intro x hx
    obtain ⟨dp, hmem, rfl⟩ := List.mem_map.mp hx
    dsimp only
    rw [hon dp hmem]
    ring
  have hnonneg : 0 ≤ residual data raw.1 raw.2 := total_sq_nonneg data _
  rw [hzero] at hlt
  exact absurd hlt (not_lt.mpr hnonneg)

theorem rawFit_isSome (hlen : 2 ≤ data.length) (hpos : ∃ dp ∈ data, 0 < dp.batch * dp.seq)
    (hs : (gramOf data).nearlySingular = false) : ∃ raw, rawFit data = some raw := by
  unfold rawFit
  rw [if_neg]
  · exact ⟨_, rfl⟩
  · rintro (h | h | h | h)
    · omega
    · exact (x1Max_pos hpos).ne' h
    · exact (x2Max_pos hpos).ne' h
    · rw [hs] at h
      cases h

theorem clampRat_of_mem {x lo hi : Rat} (h1 : lo ≤ x) (h2 : x ≤ hi) : clampRat x lo hi = x := by
  unfold clampRat
  rw [max_eq_left h1, min_eq_left h2]

theorem le_clampRat {x lo hi : Rat} (h : x ≤ hi) : x ≤ clampRat x lo hi := le_min (le_max_left _ _) h

theorem clampFit_inFitRange {a b : Rat} (h : InFitRange a b) : clampFit (a, b) = some (a, b) := by
  obtain ⟨ha, hb⟩ := h.pos
  obtain ⟨h1, h2, h3, h4⟩ := h
  unfold clampFit
  rw [if_neg (not_lt.mpr hb.le)]
  dsimp only
  rw [max_eq_left ha.le, clampRat_of_mem h1 h2, clampRat_of_mem h3 h4]

/-- the clamps only raise what is below the upper bounds -/
theorem le_clampFit {raw model : Rat × Rat} (h : clampFit raw = some model) (ha : raw.1 ≤ 262144)
    (hb : raw.2 ≤ 50000) : raw.1 ≤ model.1 ∧ raw.2 ≤ model.2 := by
  unfold clampFit at h
  split at h
  · cases h
  · cases h
    have hzero : (0 : Rat) ≤ 262144 := by norm_num
    exact ⟨(le_max_left _ _).trans (le_clampRat (max_le ha hzero)), le_clampRat hb⟩

/-- maxima and sums do not depend on the order -/
theorem fitCostModel_perm {data' : List DataPoint} (h : data'.Perm data) :
    fitCostModel data' = fitCostModel data := by
  have hmax : ∀ f : DataPoint → Rat, data'.foldl (fun m dp => max m (f dp)) 0 =
      data.foldl (fun m dp => max m (f dp)) 0 :=
    fun f => h.foldl_eq' (fun x _ y _ m => max_right_comm m (f x) (f y)) 0
  have hx1 : x1Max data' = x1Max data := hmax DataPoint.x1
  have hx2 : x2Max data' = x2Max data := hmax DataPoint.x2
  have hpush : ∀ (p q : Rat) (d e : DataPoint) (g : Gram),
      Gram.push p q (Gram.push p q g d) e = Gram.push p q (Gram.push p q g e) d := by
    intro p q d e g
    simp only [Gram.push, add_right_comm]
  have hgram : gramOf data' = gramOf data := by
    unfold gramOf
    rw [hx1, hx2]
    exact h.foldl_eq' (fun d _ e _ g => hpush _ _ d e g) _
  have hraw : rawFit data' = rawFit data := by
    unfold rawFit
    rw [hx1, hx2, hgram, h.length_eq]
  rw [fitCostModel_eq, fitCostModel_eq, hraw]

end

/-- **The fit is least squares.**  The normalised determinant is nonnegative and vanishes exactly when all
points with a token share one length; the unscaled pair is the unique minimiser of the squared residuals;
exact data inside the clamp box are recovered; the order of the points does not matter; the result is in
the box; and clamping from below only raises the prediction. -/
theorem fit_least_squares (data : List DataPoint) (hlen : 2 ≤ data.length)
    (hpos : ∃ dp ∈ data, 0 < dp.batch * dp.seq) :
    0 ≤ (gramOf data).det ∧
    ((gramOf data).det = 0 ↔ ∀ d ∈ data, ∀ e ∈ data,
      0 < d.batch * d.seq → 0 < e.batch * e.seq → d.seq = e.seq) ∧
    (∀ raw, rawFit data = some raw → ∀ other, other ≠ raw →
      residual data raw.1 raw.2 < residual data other.1 other.2) ∧
    (∀ a b, InFitRange a b → (∀ dp ∈ data, (dp.rssDelta : Rat) = a * dp.x1 + b * dp.x2) →
      (gramOf data).nearlySingular = false → fitCostModel data = some (a, b)) ∧
    (∀ data' : List DataPoint, data'.Perm data → fitCostModel data' = fitCostModel data) ∧
    (∀ a b, fitCostModel data = some (a, b) → InFitRange a b) ∧
    (∀ raw model, rawFit data = some raw → fitCostModel data = some model → raw.1 ≤ 262144 →
      raw.2 ≤ 50000 → ∀ batch seq : Nat, raw.1 * (batch * seq) + raw.2 * (batch * seq ^ 2) ≤
        model.1 * (batch * seq) + model.2 * (batch * seq ^ 2)) := by
  refine ⟨gramOf_det_nonneg data, gramOf_det_eq_zero_iff hpos, ?_, ?_, ?_, ?_, ?_⟩
  · exact fun raw h other hne => rawFit_unique hpos h hne
  · intro a b hrange hon hs
    obtain ⟨raw, hraw⟩ := rawFit_isSome hlen hpos hs
    have hexact := rawFit_exact hpos hon hraw
    rw [fitCostModel_eq, hraw, hexact]
    exact clampFit_inFitRange hrange
  · exact fun data' h => fitCostModel_perm h
  · exact fun a b h => fitCostModel_range h
  · intro raw model hraw hmodel ha hb batch seq
    rw [fitCostModel_eq, hraw] at hmodel
    obtain ⟨h1, h2⟩ := le_clampFit hmodel ha hb
    gcongr

/-- two points on `4096 * x1 + x2` -/
theorem fit_least_squares_twoPoints : fitCostModel [⟨1, 1, 4097⟩, ⟨1, 2, 8196⟩] = some (4096, 1) := by
  have h := fit_least_squares [⟨1, 1, 4097⟩, ⟨1, 2, 8196⟩] (by decide) ⟨⟨1, 1, 4097⟩, by simp, by decide⟩
  refine h.2.2.2.1 4096 1 ⟨by norm_num, by norm_num, by norm_num, by norm_num⟩ ?_ (by decide +kernel)
  intro dp hdp
  simp only [List.mem_cons, List.not_mem_nil, or_false] at hdp
  rcases hdp with rfl | rfl
  · norm_num [DataPoint.x1, DataPoint.x2]
  · norm_num [DataPoint.x1, DataPoint.x2]

end EmbedServer
