import EmbedServer.Lib.F64
import EmbedServer.Lib.Text
import Mathlib.Data.Nat.Log
import Mathlib.Data.Nat.Prime.Basic
import Mathlib.Tactic.Ring

/-!
# Doubles and numerals printed and read back

* `IsDouble`          a value that rounding leaves alone: NaN, the infinities, and `m * 2 ^ k` with a
                      mantissa of 53 bits and an exponent from -1074 on (`isDouble_fin`);
* `ofRat_isDouble`    rounding gives such values only;
* `print`             an exact decimal expansion, which every double has;
* `parseF64_print`    printed and read back;
* `parseF64_range`    so the values that texts denote are the doubles;
* `parseUnsigned_toString`, `parseUnsigned_le`   the same for unsigned integers.
-/

namespace EmbedServer

namespace F64

/-! ## rounding -/

theorem zpow_le_iff {a b : Int} : (2 : Rat) ^ a ≤ 2 ^ b ↔ a ≤ b := zpow_le_zpow_iff_right₀ (by norm_num)

theorem zpow_lt_iff {a b : Int} : (2 : Rat) ^ a < 2 ^ b ↔ a < b := zpow_lt_zpow_iff_right₀ (by norm_num)

theorem zpow_pos' (a : Int) : (0 : Rat) < 2 ^ a := zpow_pos (by norm_num) a

/-- the exponent is the right one -/
theorem ilog2_spec {q : Rat} (h : 0 < q) : 2 ^ ilog2 q ≤ q ∧ q < 2 ^ (ilog2 q + 1) := by
  have hnum : q.num.natAbs ≠ 0 := Int.natAbs_ne_zero.mpr (Rat.num_pos.mpr h).ne'
  have hpos : (q.num.natAbs : Int) = q.num := Int.natAbs_of_nonneg (Rat.num_pos.mpr h).le
  have hq : q * q.den = (q.num.natAbs : Rat) := by
    rw [Rat.mul_den_eq_num, ← hpos]
    rfl
  have hden : (0 : Rat) < q.den := by exact_mod_cast q.den_pos
  have hn1 : (2 : Rat) ^ (q.num.natAbs.log2 : Int) ≤ q.num.natAbs := by
    exact_mod_cast Nat.log2_self_le hnum
  have hn2 : (q.num.natAbs : Rat) < 2 ^ ((q.num.natAbs.log2 : Int) + 1) := by
    exact_mod_cast Nat.lt_log2_self (n := q.num.natAbs)
  have hd1 : (2 : Rat) ^ (q.den.log2 : Int) ≤ q.den := by
    exact_mod_cast Nat.log2_self_le q.den_ne_zero
  have hd2 : (q.den : Rat) < 2 ^ ((q.den.log2 : Int) + 1) := by
    exact_mod_cast Nat.lt_log2_self (n := q.den)
  have hupper : q < 2 ^ ((q.num.natAbs.log2 : Int) - q.den.log2 + 1) := by
    refine lt_of_mul_lt_mul_right ?_ hden.le
    rw [hq]
    calc (q.num.natAbs : Rat) < 2 ^ ((q.num.natAbs.log2 : Int) + 1) := hn2
      _ = 2 ^ ((q.num.natAbs.log2 : Int) - q.den.log2 + 1) * 2 ^ (q.den.log2 : Int) := by
        rw [← zpow_add₀ (by norm_num)]
        congr 1
        ring
      _ ≤ 2 ^ ((q.num.natAbs.log2 : Int) - q.den.log2 + 1) * q.den :=
        mul_le_mul_of_nonneg_left hd1 (zpow_pos' _).le
  have hlower : 2 ^ ((q.num.natAbs.log2 : Int) - q.den.log2 - 1) ≤ q := by
    refine le_of_mul_le_mul_right ?_ hden
    rw [hq]
    calc (2 : Rat) ^ ((q.num.natAbs.log2 : Int) - q.den.log2 - 1) * q.den
        ≤ 2 ^ ((q.num.natAbs.log2 : Int) - q.den.log2 - 1) * 2 ^ ((q.den.log2 : Int) + 1) :=
          mul_le_mul_of_nonneg_left hd2.le (zpow_pos' _).le
      _ = 2 ^ (q.num.natAbs.log2 : Int) := by
        rw [← zpow_add₀ (by norm_num)]
        congr 1
        ring
      _ ≤ q.num.natAbs := hn1
  unfold ilog2
  dsimp only
  split
  · rename_i he
    exact ⟨he, hupper⟩
  · rename_i he
    refine ⟨hlower, ?_⟩
    rw [sub_add_cancel]
    exact not_le.mp he

theorem roundEven_intCast (m : Int) : roundEven m = m := by
  unfold roundEven
  rw [Rat.floor_intCast]
  simp

theorem roundEven_abs_le {q : Rat} {n : Int} (h : |q| < n) : |roundEven q| ≤ n := by
  obtain ⟨hlo, hhi⟩ := abs_lt.mp h
  have hfloor : -n ≤ q.floor := by
    apply Rat.le_floor_iff.mpr
    push_cast
    exact hlo.le
  have hceil : q.floor < n := by
    apply Rat.floor_lt_iff.mpr
    exact hhi
  unfold roundEven
  dsimp only
  rw [abs_le]
  split <;> constructor <;> omega

/-! ## what rounding leaves alone -/

/-- a value that has a double -/
def IsDouble : F64 → Prop
  | fin q => ofRat q = fin q
  | _ => True

instance : DecidablePred IsDouble
  | nan => isTrue trivial
  | inf _ => isTrue trivial
  | fin q => inferInstanceAs (Decidable (ofRat q = fin q))

/-- the last place of `q` -/
def ulpExponent (q : Rat) : Int := max (ilog2 |q|) (-1022) - 52

theorem ofRat_eq (q : Rat) : ofRat q =
    if |(roundEven (q / 2 ^ ulpExponent q) : Rat) * 2 ^ ulpExponent q| < 2 ^ 1024 then
      fin (roundEven (q / 2 ^ ulpExponent q) * 2 ^ ulpExponent q)
    else inf (decide (q < 0)) := rfl

/-- a multiple of its last place -/
theorem ofRat_multiple {q : Rat} {m : Int} (hm : q = m * 2 ^ ulpExponent q) (hlt : |q| < 2 ^ 1024) :
    ofRat q = fin q := by
  have hround : (roundEven (q / 2 ^ ulpExponent q) : Rat) * 2 ^ ulpExponent q = q := by
    have hdiv : q / 2 ^ ulpExponent q = m := (div_eq_iff (zpow_pos' _).ne').mpr hm
    rw [hdiv, roundEven_intCast]
    exact hm.symm
  rw [ofRat_eq, hround, if_pos hlt]

/-- a mantissa of 53 bits -/
theorem ofRat_mantissa {m k : Int} (hm : |m| < 2 ^ 53) (hk : -1074 ≤ k)
    (hlt : |(m : Rat) * 2 ^ k| < 2 ^ 1024) : ofRat (m * 2 ^ k) = fin (m * 2 ^ k) := by
  by_cases h0 : m = 0
  · refine @ofRat_multiple _ 0 ?_ hlt
    rw [h0]
    simp
  have habs : |(m : Rat) * 2 ^ k| = (|m| : Int) * 2 ^ k := by
    rw [abs_mul, abs_of_pos (zpow_pos' k), Int.cast_abs]
  have hpos : 0 < |(m : Rat) * 2 ^ k| := by
    rw [habs]
    exact mul_pos (by exact_mod_cast abs_pos.mpr h0) (zpow_pos' k)
  have hlast : ilog2 |(m : Rat) * 2 ^ k| < 53 + k := by
    refine zpow_lt_iff.mp ((ilog2_spec hpos).1.trans_lt ?_)
    rw [habs, zpow_add₀ (by norm_num)]
    exact mul_lt_mul_of_pos_right (by exact_mod_cast hm) (zpow_pos' k)
  have hexp : ulpExponent (m * 2 ^ k) ≤ k := by
    unfold ulpExponent
    omega
  obtain ⟨j, hj⟩ := Int.eq_ofNat_of_zero_le (sub_nonneg.mpr hexp)
  refine @ofRat_multiple _ (m * 2 ^ j) ?_ hlt
  have hsplit : (2 : Rat) ^ k = 2 ^ j * 2 ^ ulpExponent (m * 2 ^ k) := by
    rw [← zpow_natCast, ← zpow_add₀ (by norm_num)]
    congr 1
    omega
  push_cast
  rw [mul_assoc, ← hsplit]

/-- a mantissa of 53 bits, or the next power of two -/
theorem ofRat_form {m k : Int} (hm : |m| ≤ 2 ^ 53) (hk : -1074 ≤ k) (hlt : |(m : Rat) * 2 ^ k| < 2 ^ 1024) :
    ofRat (m * 2 ^ k) = fin (m * 2 ^ k) := by
  rcases lt_or_eq_of_le hm with hm | hm
  · exact ofRat_mantissa hm hk hlt
  · -- the mantissa is halved
    obtain ⟨h, hh⟩ : (2 : Int) ∣ m := by
      rw [← dvd_abs, hm]
      exact dvd_pow_self 2 (by decide)
    have hhalf : (m : Rat) * 2 ^ k = h * 2 ^ (k + 1) := by
      rw [hh, zpow_add₀ (by norm_num)]
      push_cast
      ring
    have hsmall : |h| < 2 ^ 53 := by
      rw [hh, abs_mul, abs_two] at hm
      omega
    rw [hhalf] at hlt ⊢
    exact ofRat_mantissa hsmall (by omega) hlt

/-- the mantissa after rounding, the carry included -/
theorem roundEven_ulp_le (q : Rat) : |roundEven (q / 2 ^ ulpExponent q)| ≤ 2 ^ 53 := by
  apply roundEven_abs_le
  rw [abs_div, abs_of_pos (zpow_pos' (ulpExponent q)), div_lt_iff₀ (zpow_pos' _)]
  push_cast
  by_cases h0 : q = 0
  · rw [h0, abs_zero]
    exact mul_pos (by norm_num) (zpow_pos' _)
  calc |q| < 2 ^ (ilog2 |q| + 1) := (ilog2_spec (abs_pos.mpr h0)).2
    _ ≤ 2 ^ (53 + ulpExponent q) := by
      apply zpow_le_iff.mpr
      unfold ulpExponent
      omega
    _ = 2 ^ 53 * 2 ^ ulpExponent q := by
      rw [zpow_add₀ (by norm_num)]
      rfl

theorem ulpExponent_le (q : Rat) : -1074 ≤ ulpExponent q := by
  unfold ulpExponent
  omega

/-- the doubles by mantissa and exponent -/
theorem isDouble_fin {q : Rat} : (fin q).IsDouble ↔
    ∃ m k : Int, q = m * 2 ^ k ∧ |m| ≤ 2 ^ 53 ∧ -1074 ≤ k ∧ |q| < 2 ^ 1024 := by
  constructor
  · intro h
    have h : ofRat q = fin q := h
    rw [ofRat_eq] at h
    split at h
    · rename_i hlt
      have hq := F64.fin.inj h
      rw [hq] at hlt
      exact ⟨_, _, hq.symm, roundEven_ulp_le q, ulpExponent_le q, hlt⟩
    · cases h
  · rintro ⟨m, k, rfl, hm, hk, hlt⟩
    exact ofRat_form hm hk hlt

/-- rounding twice is rounding once -/
theorem ofRat_isDouble (q : Rat) : (ofRat q).IsDouble := by
  rw [ofRat_eq]
  split
  · rename_i hlt
    exact ofRat_form (roundEven_ulp_le q) (ulpExponent_le q) hlt
  · trivial

theorem IsDouble.clamp {x : F64} {lo hi : Rat} (h : x.IsDouble) (hlo : (fin lo).IsDouble)
    (hhi : (fin hi).IsDouble) : (x.clamp lo hi).IsDouble := by
  cases x with
  | nan => trivial
  | inf neg =>
    cases neg with
    | false => exact hhi
    | true => exact hlo
  | fin q =>
    show (fin (min (max q lo) hi)).IsDouble
    rcases min_choice (max q lo) hi with hmin | hmin
    · rw [hmin]
      rcases max_choice q lo with hmax | hmax
      · rwa [hmax]
      · rwa [hmax]
    · rwa [hmin]

/-! ## decimal expansions -/

/-- a sum of halves, quarters and so on has a power of two below the line -/
theorem IsDouble.den {q : Rat} (h : (fin q).IsDouble) : q.den = 2 ^ q.den.log2 := by
  obtain ⟨m, k, rfl, -, -, -⟩ := isDouble_fin.mp h
  have hdvd : ((m : Rat) * 2 ^ k).den ∣ 2 ^ (-k).toNat := by
    have hdiv : (m : Rat) * 2 ^ k = (m * 2 ^ k.toNat : Int) / (2 ^ (-k).toNat : Int) := by
      rw [eq_div_iff (by positivity)]
      push_cast
      rw [mul_assoc, ← zpow_natCast, ← zpow_natCast, ← zpow_add₀ (by norm_num)]
      congr 2
      omega
    rw [hdiv, ← Rat.divInt_eq_div]
    have h := Rat.den_dvd (m * 2 ^ k.toNat) (2 ^ (-k).toNat)
    rw [← Int.natCast_dvd_natCast]
    push_cast
    exact h
  obtain ⟨j, -, hj⟩ := (Nat.dvd_prime_pow Nat.prime_two).mp hdvd
  rw [hj, Nat.log2_two_pow]

/-- an exact expansion: `digits` over a power of ten -/
def print : F64 → String
  | nan => "NaN"
  | inf neg => if neg then "-inf" else "inf"
  | fin q =>
    let s := q.den.log2
    (if q < 0 then "-" else "") ++ toString (q.num.natAbs * 5 ^ s) ++ "e-" ++ toString s

end F64

theorem splitSign_digits {cs rest : List Char} (hne : cs ≠ []) (hd : ∀ c ∈ cs, c.isDigit = true) :
    splitSign (cs ++ rest) = (false, cs ++ rest) := by
  cases cs with
  | nil => exact absurd rfl hne
  | cons c cs =>
    have hc := hd c List.mem_cons_self
    rw [List.cons_append]
    unfold splitSign
    split
    · rename_i h
      cases h
      exact absurd hc (by decide)
    · rename_i h
      cases h
      exact absurd hc (by decide)
    · rfl

theorem parseExponent_minus (s : Nat) : parseExponent ('-' :: (toString s).toList) = some (-(s : Int)) := by
  have hall : (toString s).toList.all Char.isDigit = true := List.all_eq_true.mpr (toString_digits s)
  have hne : (toString s).toList.isEmpty = false := by
    rw [List.isEmpty_eq_false_iff]
    exact toString_ne_nil s
  have hsign : splitSign ('-' :: (toString s).toList) = (true, (toString s).toList) := rfl
  rw [parseExponent, hsign]
  dsimp only
  rw [hne, hall, decimalValue_toString]
  rfl

/-- a whole number over a power of ten -/
theorem parseDecimal_shifted (n s : Nat) :
    parseDecimal ((toString n).toList ++ 'e' :: '-' :: (toString s).toList) =
      some ((n : Rat) / 10 ^ s) := by
  have hd := toString_digits n
  have htake : ((toString n).toList ++ 'e' :: '-' :: (toString s).toList).takeWhile Char.isDigit =
      (toString n).toList := by
    rw [List.takeWhile_append_of_pos hd]
    simp
  have hdrop : ((toString n).toList ++ 'e' :: '-' :: (toString s).toList).dropWhile Char.isDigit =
      'e' :: '-' :: (toString s).toList := by
    rw [List.dropWhile_append_of_pos hd]
    simp
  have hne : (toString n).toList.isEmpty = false := by
    rw [List.isEmpty_eq_false_iff]
    exact toString_ne_nil n
  unfold parseDecimal
  rw [htake, hdrop]
  show (if (toString n).toList.isEmpty && true then none
    else (if 'e' = 'e' ∨ 'e' = 'E' then parseExponent ('-' :: (toString s).toList) else none).map
      fun e : Int => (decimalValue ((toString n).toList ++ []) : Rat) * 10 ^ (e - (0 : Nat))) = _
  rw [hne, List.append_nil, decimalValue_toString, if_neg (by decide), if_pos (.inl rfl),
    parseExponent_minus]
  show some ((n : Rat) * 10 ^ (-(s : Int) - 0)) = some ((n : Rat) / 10 ^ s)
  rw [sub_zero, zpow_neg, zpow_natCast, div_eq_mul_inv]

theorem toLower_digit {c : Char} (h : c.isDigit = true) : c.toLower = c := by
  have hl := lowerChar_digit h
  unfold lowerChar at hl
  split at hl
  · rename_i hk
    rw [hk] at hl
    exact absurd hl (by decide)
  · split at hl
    · exact absurd (List.cons.inj hl).2 (by decide)
    · exact (List.cons.inj hl).1

/-- a text that begins with a digit is no word -/
theorem digits_ne_word {cs rest word : List Char} (hne : cs ≠ []) (hd : ∀ c ∈ cs, c.isDigit = true)
    (hw : word.head?.any Char.isDigit = false) : (cs ++ rest).map Char.toLower ≠ word := by
  cases cs with
  | nil => exact absurd rfl hne
  | cons c cs =>
    have hc := hd c List.mem_cons_self
    rintro rfl
    rw [List.cons_append, List.map_cons, List.head?_cons, Option.any_some, toLower_digit hc, hc] at hw
    cases hw

theorem parseF64_shifted {n s : Nat} {neg : Bool} {text : String}
    (h : splitSign text.toList = (neg, (toString n).toList ++ 'e' :: '-' :: (toString s).toList)) :
    parseF64 text = some (F64.ofRat (if neg then -((n : Rat) / 10 ^ s) else (n : Rat) / 10 ^ s)) := by
  have hword (word : List Char) (hw : word.head?.any Char.isDigit = false) :
      ((toString n).toList ++ 'e' :: '-' :: (toString s).toList).map Char.toLower ≠ word :=
    digits_ne_word (toString_ne_nil n) (toString_digits n) hw
  unfold parseF64
  rw [h]
  dsimp only
  rw [if_neg, if_neg, parseDecimal_shifted]
  · rfl
  · exact hword _ (by decide)
  · rintro (h | h)
    · exact hword _ (by decide) h
    · exact hword _ (by decide) h

/-- the digits that `print` writes -/
theorem F64.IsDouble.expansion {q : Rat} (h : (F64.fin q).IsDouble) :
    ((q.num.natAbs * 5 ^ q.den.log2 : Nat) : Rat) / 10 ^ q.den.log2 = |q| := by
  have hden : (q.den : Rat) = 2 ^ q.den.log2 := by
    have hpow := h.den
    exact_mod_cast hpow
  have habs : |q| = (q.num.natAbs : Rat) / q.den := by
    conv_lhs => rw [← q.num_div_den]
    rw [abs_div, Nat.abs_cast, ← Int.cast_abs, Int.abs_eq_natAbs]
    rfl
  have hten : (10 : Rat) ^ q.den.log2 = 2 ^ q.den.log2 * 5 ^ q.den.log2 := by
    rw [← mul_pow]
    norm_num
  rw [habs, hden, hten]
  push_cast
  exact mul_div_mul_right _ _ (by positivity)

/-- printed and read back -/
theorem parseF64_print {x : F64} (h : x.IsDouble) : parseF64 x.print = some x := by
  cases x with
  | nan => decide
  | inf neg => cases neg <;> decide
  | fin q =>
    have hround : F64.ofRat q = .fin q := h
    have hdigits : splitSign ((toString (q.num.natAbs * 5 ^ q.den.log2)).toList ++
        'e' :: '-' :: (toString q.den.log2).toList) = (false, _) :=
      splitSign_digits (toString_ne_nil _) (toString_digits _)
    by_cases hneg : q < 0
    · have hprint : (F64.fin q).print.toList = '-' :: ((toString (q.num.natAbs * 5 ^ q.den.log2)).toList ++
          'e' :: '-' :: (toString q.den.log2).toList) := by
        unfold F64.print
        dsimp only
        rw [if_pos hneg]
        simp
      rw [@parseF64_shifted _ _ true _ (by rw [hprint]; rfl), h.expansion, abs_of_neg hneg, if_pos rfl,
        neg_neg, hround]
    · have hprint : (F64.fin q).print.toList = (toString (q.num.natAbs * 5 ^ q.den.log2)).toList ++
          'e' :: '-' :: (toString q.den.log2).toList := by
        unfold F64.print
        dsimp only
        rw [if_neg hneg]
        simp
      rw [@parseF64_shifted _ _ false _ (by rw [hprint]; exact hdigits), h.expansion,
        abs_of_nonneg (not_lt.mp hneg), if_neg Bool.false_ne_true, hround]

/-- the values of texts are the doubles -/
theorem parseF64_range {x : F64} : (∃ s, parseF64 s = some x) ↔ x.IsDouble := by
  refine ⟨?_, fun h => ⟨x.print, parseF64_print h⟩⟩
  rintro ⟨s, hs⟩
  unfold parseF64 at hs
  dsimp only at hs
  split at hs
  · cases hs
    trivial
  · split at hs
    · cases hs
      trivial
    · obtain ⟨q, -, rfl⟩ := Option.map_eq_some_iff.mp hs
      exact F64.ofRat_isDouble _

/-! ## unsigned integers -/

theorem parseUnsigned_toString {limit n : Nat} (h : n ≤ limit) :
    parseUnsigned limit (toString n) = some n := by
  rw [← @String.ofList_toList (toString n), parseUnsigned_eq_some]
  have hnum := Numeral.plain (toString_ne_nil n) (toString_digits n) ((decimalValue_toString n).symm ▸ h)
  rwa [decimalValue_toString] at hnum

theorem Numeral.le {limit n : Nat} {cs : List Char} (h : Numeral limit cs n) : n ≤ limit := by
  cases h with
  | plain _ _ hle => exact hle
  | plus _ _ hle => exact hle

theorem parseUnsigned_le {limit n : Nat} {s : String} (h : parseUnsigned limit s = some n) : n ≤ limit := by
  rw [← @String.ofList_toList s, parseUnsigned_eq_some] at h
  exact h.le

end EmbedServer
