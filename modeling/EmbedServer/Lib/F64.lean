import Mathlib.Algebra.Order.Field.Rat
import Mathlib.Data.Rat.Floor
import Mathlib.Tactic.Linarith
import Mathlib.Tactic.Positivity

/-!
# Doubles as extended rationals, and numbers read from text

A finite double is its value (the two zeros are one).  NaN and the infinities are kept apart, since casts
and comparisons treat them apart.  Products are exact, without the rounding of doubles; only reading a
text rounds.

* `F64.toNat limit`    the saturating cast to an unsigned integer;
* `F64.stand limit`    a rational with the same products under that cast (`toNat_mul`);
* `parseUnsigned`      `str::parse` to an unsigned integer, which accepts the texts of `Numeral`;
* `parseF64`           `str::parse::<f64>`, to nearest, ties to even.
-/

namespace EmbedServer

inductive F64 where
  | nan
  | inf (neg : Bool)
  | fin (q : Rat)
deriving DecidableEq, Repr

namespace F64

/-- finite and above zero -/
def Positive : F64 → Prop
  | fin q => 0 < q
  | _ => False

instance : DecidablePred Positive
  | nan => isFalse id
  | inf _ => isFalse id
  | fin q => inferInstanceAs (Decidable (0 < q))

/-- the exact product, where that of doubles is rounded; NaN and the infinities are as for doubles -/
def mul : F64 → F64 → F64
  | nan, _ => nan
  | _, nan => nan
  | fin x, fin y => fin (x * y)
  | inf s, inf t => inf (s != t)
  | inf s, fin y => if y = 0 then nan else inf (s != decide (y < 0))
  | fin x, inf t => if x = 0 then nan else inf (t != decide (x < 0))

instance : Mul F64 := ⟨mul⟩

/-- `x as uN`, with `limit` the largest value -/
def toNat (limit : Nat) : F64 → Nat
  | nan => 0
  | inf neg => if neg then 0 else limit
  | fin q => min q.floor.toNat limit

/-- `f64::clamp`; NaN stays NaN -/
def clamp (x : F64) (lo hi : Rat) : F64 :=
  match x with
  | nan => nan
  | inf neg => fin (if neg then lo else hi)
  | fin q => fin (min (max q lo) hi)

/-! ## a rational in the place of a double -/

/-- NaN and the negative infinity cost nothing, the positive one more than the limit -/
def stand (limit : Nat) : F64 → Rat
  | nan => 0
  | inf neg => if neg then 0 else limit + 1
  | fin q => q

theorem nan_mul (x : F64) : nan * x = nan := rfl

theorem inf_mul_nat (neg : Bool) {n : Nat} (h : n ≠ 0) : inf neg * fin n = inf neg := by
  have hne : ¬ ((n : Rat) = 0) := by exact_mod_cast h
  have hpos : ¬ ((n : Rat) < 0) := not_lt.mpr (by positivity)
  show (if (n : Rat) = 0 then nan else inf (neg != decide ((n : Rat) < 0))) = inf neg
  rw [if_neg hne, decide_eq_false hpos]
  cases neg <;> rfl

theorem inf_mul_zero (neg : Bool) : inf neg * fin (0 : Nat) = nan := by
  show (if ((0 : Nat) : Rat) = 0 then nan else inf (neg != decide (((0 : Nat) : Rat) < 0))) = nan
  rw [if_pos Nat.cast_zero]

/-- a value above the limit saturates -/
theorem toNat_above {limit : Nat} {q : Rat} (h : (limit : Rat) + 1 ≤ q) : min q.floor.toNat limit = limit := by
  have hfloor : (limit : Int) ≤ q.floor := by
    apply Rat.le_floor_iff.mpr
    push_cast
    linarith
  omega

theorem toNat_zero (limit : Nat) : min (Rat.floor 0).toNat limit = 0 := Nat.zero_min limit

/-- one product -/
theorem toNat_mul (limit : Nat) (x : F64) (n : Nat) :
    (x * fin n).toNat limit = min (x.stand limit * n).floor.toNat limit := by
  cases x with
  | nan =>
    rw [nan_mul, stand, zero_mul, toNat_zero]
    rfl
  | fin q => rfl
  | inf neg =>
    by_cases hn : n = 0
    · subst hn
      rw [inf_mul_zero, Nat.cast_zero, mul_zero, toNat_zero]
      rfl
    · rw [inf_mul_nat neg hn]
      cases neg with
      | true =>
        rw [stand, if_pos rfl, zero_mul, toNat_zero]
        rfl
      | false =>
        have hone : (1 : Rat) ≤ n := by exact_mod_cast Nat.one_le_iff_ne_zero.mpr hn
        have hle : (limit : Rat) + 1 ≤ (limit + 1) * n := le_mul_of_one_le_right (by positivity) hone
        have hstand : (inf false).stand limit = limit + 1 := rfl
        rw [hstand, toNat_above hle]
        rfl

/-- two products, one after the other -/
theorem toNat_mul_mul (limit : Nat) (x : F64) (n m : Nat) :
    (x * fin n * fin m).toNat limit = min (x.stand limit * n * m).floor.toNat limit := by
  cases x with
  | nan =>
    rw [nan_mul, nan_mul, stand, zero_mul, zero_mul, toNat_zero]
    rfl
  | fin q => rfl
  | inf neg =>
    by_cases hn : n = 0
    · subst hn
      rw [inf_mul_zero, nan_mul, Nat.cast_zero, mul_zero, zero_mul, toNat_zero]
      rfl
    · have hone : (1 : Rat) ≤ n := by exact_mod_cast Nat.one_le_iff_ne_zero.mpr hn
      rw [inf_mul_nat neg hn, toNat_mul]
      cases neg with
      | true => simp only [stand, if_true, zero_mul]
      | false =>
        have hstand : (inf false).stand limit = limit + 1 := rfl
        rw [hstand]
        by_cases hm : m = 0
        · subst hm
          rw [Nat.cast_zero, mul_zero, mul_zero]
        · have hone' : (1 : Rat) ≤ m := by exact_mod_cast Nat.one_le_iff_ne_zero.mpr hm
          have hle : (limit : Rat) + 1 ≤ (limit + 1) * n := le_mul_of_one_le_right (by positivity) hone
          have hle' : (limit : Rat) + 1 ≤ (limit + 1) * m := le_mul_of_one_le_right (by positivity) hone'
          have hle'' : (limit : Rat) + 1 ≤ (limit + 1) * n * m :=
            hle.trans (le_mul_of_one_le_right (by positivity) hone')
          rw [toNat_above hle', toNat_above hle'']

/-! ## rounding -/

/-- the exponent of a positive rational: `2 ^ e ≤ q < 2 ^ (e + 1)` -/
def ilog2 (q : Rat) : Int :=
  let e : Int := Nat.log2 q.num.natAbs - Nat.log2 q.den
  if (2 : Rat) ^ e ≤ q then e else e - 1

/-- the nearest integer, ties to even -/
def roundEven (q : Rat) : Int :=
  let f := q.floor
  let r := q - f
  if r < 1 / 2 ∨ r = 1 / 2 ∧ f % 2 = 0 then f else f + 1

/-- the nearest double: 53 significant bits, exponents from -1022 to 1023 -/
def ofRat (q : Rat) : F64 :=
  let ulp : Rat := 2 ^ (max (ilog2 |q|) (-1022) - 52)
  let r := roundEven (q / ulp) * ulp
  if |r| < 2 ^ 1024 then fin r else inf (decide (q < 0))

end F64

/-! ## numbers read from text -/

def decimalValue (digits : List Char) : Nat := digits.foldl (fun v c => 10 * v + (c.toNat - '0'.toNat)) 0

/-- `str::parse` to an unsigned integer of the given maximum: a plus sign may come first -/
def parseUnsigned (limit : Nat) (s : String) : Option Nat :=
  let digits := match s.toList with
    | '+' :: rest => rest
    | cs => cs
  if digits.isEmpty || !digits.all Char.isDigit || decide (decimalValue digits > limit) then none
  else some (decimalValue digits)

/-- the numerals of an unsigned type: decimal digits, a plus sign in front of them or not, up to the limit -/
inductive Numeral (limit : Nat) : List Char → Nat → Prop
  | plain {digits : List Char} (hne : digits ≠ []) (hd : ∀ c ∈ digits, c.isDigit = true)
      (hle : decimalValue digits ≤ limit) : Numeral limit digits (decimalValue digits)
  | plus {digits : List Char} (hne : digits ≠ []) (hd : ∀ c ∈ digits, c.isDigit = true)
      (hle : decimalValue digits ≤ limit) : Numeral limit ('+' :: digits) (decimalValue digits)

/-- the part of the parser after the sign -/
theorem parseDigits_eq_some {limit n : Nat} {digits : List Char} :
    (if digits.isEmpty || !digits.all Char.isDigit || decide (decimalValue digits > limit) then none
      else some (decimalValue digits)) = some n ↔
    digits ≠ [] ∧ (∀ c ∈ digits, c.isDigit = true) ∧ decimalValue digits ≤ limit ∧ decimalValue digits = n := by
  split
  · rename_i hbad
    constructor
    · intro h
      cases h
    · rintro ⟨hne, hd, hle, -⟩
      simp [hne, List.all_eq_true.mpr hd] at hbad
      omega
  · rename_i hgood
    simp only [Bool.or_eq_true, List.isEmpty_iff, Bool.not_eq_true', decide_eq_true_eq, not_or,
      Bool.not_eq_false, List.all_eq_true, not_lt] at hgood
    constructor
    · intro h
      exact ⟨hgood.1.1, hgood.1.2, hgood.2, Option.some.inj h⟩
    · rintro ⟨-, -, -, h⟩
      rw [h]

theorem parseUnsigned_eq_some {limit n : Nat} {cs : List Char} :
    parseUnsigned limit (String.ofList cs) = some n ↔ Numeral limit cs n := by
  unfold parseUnsigned
  rw [String.toList_ofList]
  split
  · rename_i rest
    rw [parseDigits_eq_some]
    constructor
    · rintro ⟨hne, hd, hle, rfl⟩
      exact .plus hne hd hle
    · intro h
      cases h with
      | plain _ hd _ => exact absurd (hd '+' List.mem_cons_self) (by decide)
      | plus hne hd hle => exact ⟨hne, hd, hle, rfl⟩
  · rename_i cs hplus
    rw [parseDigits_eq_some]
    constructor
    · rintro ⟨hne, hd, hle, rfl⟩
      exact .plain hne hd hle
    · intro h
      cases h with
      | plain hne hd hle => exact ⟨hne, hd, hle, rfl⟩
      | plus _ _ _ => exact absurd rfl (hplus _)

theorem decimalValue_toString (n : Nat) : decimalValue (toString n).toList = n := by
  rw [show toString n = n.repr from rfl, Nat.toList_repr]
  exact Nat.ofDigitChars_ten_toDigits

/-- a sign, and what follows -/
def splitSign : List Char → Bool × List Char
  | '-' :: rest => (true, rest)
  | '+' :: rest => (false, rest)
  | cs => (false, cs)

/-- the part after `e` -/
def parseExponent (cs : List Char) : Option Int :=
  let (neg, digits) := splitSign cs
  if digits.isEmpty || !digits.all Char.isDigit then none
  else some (if neg then -(decimalValue digits : Int) else decimalValue digits)

/-- digits with at most one point and an exponent; a digit on one side of the point is enough -/
def parseDecimal (cs : List Char) : Option Rat :=
  let whole := cs.takeWhile Char.isDigit
  let (frac, rest) := match cs.dropWhile Char.isDigit with
    | '.' :: rest => (rest.takeWhile Char.isDigit, rest.dropWhile Char.isDigit)
    | rest => ([], rest)
  if whole.isEmpty && frac.isEmpty then none
  else
    let exponent := match rest with
      | [] => some (0 : Int)
      | c :: rest => if c = 'e' ∨ c = 'E' then parseExponent rest else none
    exponent.map fun e : Int => (decimalValue (whole ++ frac) : Rat) * 10 ^ (e - (frac.length : Int))

/-- `str::parse::<f64>` -/
def parseF64 (s : String) : Option F64 :=
  let (neg, cs) := splitSign s.toList
  let word := cs.map Char.toLower
  if word = "inf".toList ∨ word = "infinity".toList then some (.inf neg)
  else if word = "nan".toList then some .nan
  else (parseDecimal cs).map fun q => F64.ofRat (if neg then -q else q)

example : parseF64 "0.7" = some (.fin (3152519739159347 / 4503599627370496)) := by decide +kernel
example : parseF64 "1e-400" = some (.fin 0) ∧ parseF64 "-1E309" = some (.inf true) := by decide +kernel

end EmbedServer
