import Mathlib.Data.List.Infix
import Mathlib.Data.List.TakeWhile

/-!
# Substring search in messages with printed numbers, and some operations of `str`

* `containsStr`, `toLowercase`   `str::contains` and `str::to_lowercase`;
* `infix_of_separated`           a pattern cannot reach across a stretch of characters it has none
                                 of;
* `not_infix_num`                so a pattern without digits is found in `x ++ n ++ y` only if
                                 it is found in `x` or in `y`;
* `trim`, `lines`, `splitOnce`   the operations of `str` with these names (`trim_pad`: blanks around a
                                 word without blanks; `splitOnce_append`: a separator after a word
                                 without it);
* `rfind`                        the last occurrence (`rfind_append`: the one after which the first
                                 character of the pattern does not come again).
-/

namespace EmbedServer

/-- `str::contains` -/
def containsStr (s p : String) : Bool := decide (p.toList <:+: s.toList)

/-- one character of `to_lowercase`.  Besides the ASCII letters only the Kelvin sign and the
dotted capital I have ASCII letters in their lowercase form; all other characters map outside
ASCII and are kept, since every searched pattern is ASCII. -/
def lowerChar (c : Char) : List Char :=
  if c = '\u212a' then ['k'] else if c = '\u0130' then ['i', '\u0307'] else [c.toLower]

def toLowercase (s : String) : String := String.ofList (s.toList.flatMap lowerChar)

section
variable {α : Type}

theorem eq_nil_of_suffix_separated {P : α → Prop} {l xs d : List α} (hne : d ≠ [])
    (hd : ∀ c ∈ d, P c) (hl : ∀ c ∈ l, ¬ P c) (h : l <:+ xs ++ d) : l = [] := by
  rcases List.eq_nil_or_concat l with rfl | ⟨l', c, rfl⟩
  · rfl
  · rcases List.eq_nil_or_concat d with rfl | ⟨d', e, rfl⟩
    · exact absurd rfl hne
    · obtain ⟨t, ht⟩ := h
      rw [List.concat_eq_append, List.concat_eq_append, ← List.append_assoc, ← List.append_assoc] at ht
      have hc : c = e := by simpa using (List.append_inj' ht rfl).2
      exact absurd (hd c (by simp [hc])) (hl c (by simp))

theorem eq_nil_of_prefix_separated {P : α → Prop} {l d : List α} (hd : ∀ c ∈ d, P c)
    (hl : ∀ c ∈ l, ¬ P c) (h : l <+: d) : l = [] := by
  cases l with
  | nil => rfl
  | cons c l => exact absurd (hd c (h.subset List.mem_cons_self)) (hl c List.mem_cons_self)

/-- a pattern without `P`-characters does not reach across a non-empty stretch of them -/
theorem infix_of_separated {P : α → Prop} {p xs d ys : List α} (hne : d ≠ []) (hd : ∀ c ∈ d, P c)
    (hp : ∀ c ∈ p, ¬ P c) (h : p <:+: xs ++ d ++ ys) : p <:+: xs ∨ p <:+: ys := by
  rcases List.infix_append_iff.mp h with h | h | ⟨l₁, l₂, rfl, h1, h2⟩
  · rcases List.infix_append_iff.mp h with h | h | ⟨l₁, l₂, rfl, h1, h2⟩
    · exact Or.inl h
    · have : p = [] := by
        cases p with
        | nil => rfl
        | cons c p => exact absurd (hd c (h.subset List.mem_cons_self)) (hp c List.mem_cons_self)
      subst this
      exact Or.inl List.nil_infix
    · have e := eq_nil_of_prefix_separated hd (fun c hc => hp c (List.mem_append_right _ hc)) h2
      rw [e, List.append_nil]
      exact Or.inl h1.isInfix
  · exact Or.inr h
  · have e := eq_nil_of_suffix_separated hne hd (fun c hc => hp c (List.mem_append_left _ hc)) h1
    rw [e, List.nil_append]
    exact Or.inr h2.isInfix

end

/-- characters of a printed number -/
theorem toString_digits (n : Nat) : ∀ c ∈ (toString n).toList, c.isDigit = true := by
  intro c hc
  rw [show toString n = n.repr from rfl, Nat.toList_repr] at hc
  exact Nat.isDigit_of_mem_toDigits (by decide : 0 < 10) (by decide) hc

theorem toString_ne_nil (n : Nat) : (toString n).toList ≠ [] := by
  rw [show toString n = n.repr from rfl, Nat.toList_repr]
  exact Nat.toDigits_ne_nil

theorem lowerChar_digit {c : Char} (h : c.isDigit = true) : lowerChar c = [c] := by
  have h1 : c ≠ '\u212a' := by rintro rfl; exact absurd h (by decide)
  have h2 : c ≠ '\u0130' := by rintro rfl; exact absurd h (by decide)
  have h3 : c.toLower = c := by
    unfold Char.isDigit at h
    simp only [ge_iff_le, Bool.and_eq_true, decide_eq_true_eq] at h
    unfold Char.toLower
    rw [dif_neg]
    intro hu
    have h4 : c.val ≤ 57 := h.2
    have h5 : (65 : UInt32) ≤ c.val := hu.1
    exact absurd (UInt32.le_trans h5 h4) (by decide)
  unfold lowerChar
  rw [if_neg h1, if_neg h2, h3]

/-- lowercase characters of a text -/
def lowerChars (s : String) : List Char := s.toList.flatMap lowerChar

theorem toList_toLowercase (s : String) : (toLowercase s).toList = lowerChars s := by
  rw [toLowercase, String.toList_ofList]
  rfl

@[simp] theorem lowerChars_append (s t : String) : lowerChars (s ++ t) = lowerChars s ++ lowerChars t := by
  rw [lowerChars, String.toList_append, List.flatMap_append]
  rfl

/-- printed numbers are left alone -/
@[simp] theorem lowerChars_num (n : Nat) : lowerChars (toString n) = (toString n).toList := by
  unfold lowerChars
  have hd := toString_digits n
  generalize (toString n).toList = l at hd
  induction l with
  | nil => rfl
  | cons c l ih =>
    rw [List.flatMap_cons, lowerChar_digit (hd c List.mem_cons_self),
      ih fun x hx => hd x (List.mem_cons_of_mem _ hx)]
    rfl

/-- the pattern holds no digit -/
def noDigit (p : String) : Bool := p.toList.all fun c => !c.isDigit

/-- a pattern without digits is not found across a printed number -/
theorem not_infix_num {p : String} {xs ys : List Char} (n : Nat) (hp : noDigit p = true)
    (hx : ¬ p.toList <:+: xs) (hy : ¬ p.toList <:+: ys) :
    ¬ p.toList <:+: xs ++ (toString n).toList ++ ys := by
  intro h
  have hp' : ∀ c ∈ p.toList, ¬ c.isDigit = true := by
    intro c hc
    have := List.all_eq_true.mp hp c hc
    simpa using this
  rcases infix_of_separated (toString_ne_nil n) (toString_digits n) hp' h with h | h
  · exact hx h
  · exact hy h

/-! ## trimming, lines and the last occurrence -/

/-- `char::is_whitespace` -/
def isWhitespace (c : Char) : Bool :=
  let n := c.toNat
  (9 ≤ n && n ≤ 13) || n == 0x20 || n == 0x85 || n == 0xa0 || n == 0x1680 || (0x2000 ≤ n && n ≤ 0x200a)
    || n == 0x2028 || n == 0x2029 || n == 0x202f || n == 0x205f || n == 0x3000

/-- `str::trim` -/
def trim (cs : List Char) : List Char := ((cs.dropWhile isWhitespace).reverse.dropWhile isWhitespace).reverse

theorem dropWhile_blanks {p : Char → Bool} {blanks word : List Char} (hb : ∀ c ∈ blanks, p c = true)
    (hw : ∀ c ∈ word, p c = false) : (blanks ++ word).dropWhile p = word := by
  rw [List.dropWhile_append_of_pos hb]
  cases word with
  | nil => rfl
  | cons c word => rw [List.dropWhile_cons_of_neg (by rw [hw c List.mem_cons_self]; decide)]

theorem trim_blanks {cs : List Char} (h : ∀ c ∈ cs, isWhitespace c = true) : trim cs = [] := by
  unfold trim
  rw [List.dropWhile_eq_nil_iff.mpr h]
  rfl

/-- blanks around a word without blanks -/
theorem trim_pad {before word after : List Char} (hb : ∀ c ∈ before, isWhitespace c = true)
    (ha : ∀ c ∈ after, isWhitespace c = true) (hw : ∀ c ∈ word, isWhitespace c = false) :
    trim (before ++ word ++ after) = word := by
  cases word with
  | nil =>
    apply trim_blanks
    intro c hc
    rw [List.append_nil] at hc
    exact (List.mem_append.mp hc).elim (hb c) (ha c)
  | cons d word =>
    have hfront : (before ++ d :: word ++ after).dropWhile isWhitespace = d :: word ++ after := by
      rw [List.append_assoc, List.dropWhile_append_of_pos hb, List.cons_append,
        List.dropWhile_cons_of_neg (by rw [hw d List.mem_cons_self]; decide)]
    have hback : (d :: word ++ after).reverse.dropWhile isWhitespace = (d :: word).reverse := by
      rw [List.reverse_append]
      apply dropWhile_blanks
      · exact fun c hc => ha c (List.mem_reverse.mp hc)
      · exact fun c hc => hw c (List.mem_reverse.mp hc)
    unfold trim
    rw [hfront, hback, List.reverse_reverse]

/-- nothing is left only of blanks -/
theorem blanks_of_trim {cs : List Char} (h : trim cs = []) : ∀ c ∈ cs, isWhitespace c = true := by
  unfold trim at h
  rw [List.reverse_eq_nil_iff, List.dropWhile_eq_nil_iff] at h
  rw [← List.dropWhile_eq_nil_iff]
  -- what is dropped up to begins with a character that is no blank
  have hhead := List.head?_dropWhile_not isWhitespace cs
  cases hrest : cs.dropWhile isWhitespace with
  | nil => rfl
  | cons c rest =>
    rw [hrest] at hhead h
    have hblank := h c (List.mem_reverse.mpr List.mem_cons_self)
    rw [hhead] at hblank
    cases hblank

/-- a line that ended in `\n` loses a `\r` before it -/
def chopCr (line : List Char) : List Char := if line.getLast? = some '\r' then line.dropLast else line

/-- `str::lines`: the text after the last `\n` is a line unless it is empty -/
def lines (cs : List Char) : List (List Char) :=
  let parts := cs.splitOnP (· == '\n')
  parts.dropLast.map chopCr ++ (parts.getLast?.toList.filter fun last => !last.isEmpty)

/-- `str::strip_prefix` -/
def stripLead (lead cs : List Char) : Option (List Char) :=
  if lead.isPrefixOf cs then some (cs.drop lead.length) else none

/-- `str::split_once`: before and after the first `sep` -/
def splitOnce (sep : Char) (cs : List Char) : Option (List Char × List Char) :=
  match cs.dropWhile (· != sep) with
  | [] => none
  | _ :: rest => some (cs.takeWhile (· != sep), rest)

theorem splitOnce_append {sep : Char} {before : List Char} (h : sep ∉ before) (after : List Char) :
    splitOnce sep (before ++ sep :: after) = some (before, after) := by
  have hne : ∀ c ∈ before, (c != sep) = true := by
    intro c hc
    rw [bne_iff_ne]
    rintro rfl
    exact h hc
  unfold splitOnce
  rw [List.dropWhile_append_of_pos hne, List.takeWhile_append_of_pos hne]
  simp

theorem splitOnce_eq_some {sep : Char} {cs before after : List Char}
    (h : splitOnce sep cs = some (before, after)) : cs = before ++ sep :: after := by
  unfold splitOnce at h
  split at h
  · cases h
  · rename_i c rest hdrop
    cases h
    have hsplit := List.takeWhile_append_dropWhile (p := (· != sep)) (l := cs)
    have hc : (c != sep) = false := by
      have hhead := List.head?_dropWhile_not (· != sep) cs
      rw [hdrop] at hhead
      exact hhead
    rw [hdrop, bne_eq_false_iff_eq.mp hc] at hsplit
    exact hsplit.symm

/-- `str::rfind`: where the last occurrence of `p` begins -/
def rfind (p : List Char) : List Char → Option Nat
  | [] => if p.isEmpty then some 0 else none
  | c :: cs =>
    match rfind p cs with
    | some i => some (i + 1)
    | none => if p.isPrefixOf (c :: cs) then some 0 else none

theorem rfind_isPrefix {p cs : List Char} {i : Nat} (h : rfind p cs = some i) : p <+: cs.drop i := by
  induction cs generalizing i with
  | nil =>
    unfold rfind at h
    split at h
    · rename_i hp
      rw [List.isEmpty_iff.mp hp]
      exact List.nil_prefix
    · cases h
  | cons c cs ih =>
    unfold rfind at h
    split at h
    · rename_i j hj
      cases h
      exact ih hj
    · split at h
      · rename_i hp
        cases h
        exact List.isPrefixOf_iff_prefix.mp hp
      · cases h

/-- no occurrence without the first character -/
theorem rfind_eq_none {c : Char} {p cs : List Char} (h : c ∉ cs) : rfind (c :: p) cs = none := by
  induction cs with
  | nil => rfl
  | cons d cs ih =>
    have hd : c ≠ d := fun e => h (by rw [e]; exact List.mem_cons_self)
    unfold rfind
    rw [ih fun hm => h (List.mem_cons_of_mem _ hm)]
    simp [hd]

/-- the last occurrence is the one after which the first character does not come again -/
theorem rfind_append {c : Char} {p post : List Char} (h : c ∉ p ++ post) (pre : List Char) :
    rfind (c :: p) (pre ++ c :: (p ++ post)) = some pre.length := by
  induction pre with
  | nil =>
    rw [List.nil_append, rfind, rfind_eq_none h]
    simp
  | cons d pre ih =>
    rw [List.cons_append, rfind, ih]
    rfl

end EmbedServer
