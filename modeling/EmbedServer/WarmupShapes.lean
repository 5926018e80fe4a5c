import EmbedServer.Config
import EmbedServer.Lib.Text

/-!
# The warmup grid from the environment (`parse_trt_warmup_shapes`)

`BGE_M3_TRT_WARMUP_SHAPES` is a list of tokens `BxL` with commas between them.

* `ShapeToken`            a token as the grammar has it: two numerals with an `x` between them;
* `warmupToken_eq_some`   the parser of a token accepts these and no others;
* `ReadsAs`               a list of tokens, read with the malformed ones left out;
* `warmupShapes_grammar`  the whole statement.
-/

namespace EmbedServer

/-! ## the parser -/

def defaultTrtWarmupShapes : List Shape :=
  [(1, 128), (1, 512), (1, 2048), (1, 8192),
    (2, 128), (2, 512), (2, 2048), (2, 8192),
    (4, 128), (4, 512), (4, 2048), (4, 8192),
    (8, 128), (8, 512), (8, 2048), (8, 8192),
    (16, 128), (16, 512), (16, 2048), (16, 8192),
    (32, 128), (32, 512), (32, 2048), (32, 8192)]

/-- `str::splitn(2, sep)` -/
def splitn2 (sep : Char) (cs : List Char) : List (List Char) :=
  match splitOnce sep cs with
  | some (before, after) => [before, after]
  | none => [cs]

/-- the closure of `filter_map` -/
def warmupToken (token : List Char) : Option Shape := do
  let parts := splitn2 'x' (trim token)
  let batch ← parts[0]?.bind fun part => parseUnsigned usizeMax (String.ofList part)
  let seq ← parts[1]?.bind fun part => parseUnsigned usizeMax (String.ofList part)
  some (batch, seq)

def parseTrtWarmupShapes (raw : Option String) : List Shape :=
  match raw with
  | none => defaultTrtWarmupShapes
  | some val =>
    if (trim val.toList).isEmpty then defaultTrtWarmupShapes
    else
      let parsed := (val.toList.splitOn ',').filterMap warmupToken
      if parsed.isEmpty then defaultTrtWarmupShapes else parsed

/-- the field `trt_warmup_shapes` -/
def trtWarmupShapes (lookup : Lookup) : List Shape :=
  parseTrtWarmupShapes (lookup "BGE_M3_TRT_WARMUP_SHAPES")

/-! ## the grammar -/

/-- two numerals of `usize` with an `x` between them -/
def ShapeToken (token : List Char) (s : Shape) : Prop :=
  ∃ batch seq, token = batch ++ 'x' :: seq ∧ Numeral usizeMax batch s.1 ∧ Numeral usizeMax seq s.2

/-- tokens and what they say, those that are none left out -/
inductive ReadsAs : List (List Char) → List Shape → Prop
  | nil : ReadsAs [] []
  | shape {token tokens s shapes} (h : ShapeToken (trim token) s) (hr : ReadsAs tokens shapes) :
      ReadsAs (token :: tokens) (s :: shapes)
  | skip {token tokens shapes} (h : ∀ s, ¬ ShapeToken (trim token) s) (hr : ReadsAs tokens shapes) :
      ReadsAs (token :: tokens) shapes

/-- `BxL` -/
def printShape (s : Shape) : List Char := (toString s.1).toList ++ 'x' :: (toString s.2).toList

theorem Numeral.no_x {limit n : Nat} {cs : List Char} (h : Numeral limit cs n) : 'x' ∉ cs := by
  have hx : ∀ digits : List Char, (∀ c ∈ digits, c.isDigit = true) → 'x' ∉ digits :=
    fun digits hd hm => absurd (hd 'x' hm) (by decide)
  cases h with
  | plain _ hd _ => exact hx _ hd
  | plus _ hd _ =>
    intro hm
    rcases List.mem_cons.mp hm with hm | hm
    · exact absurd hm (by decide)
    · exact hx _ hd hm

/-- the parser of a token accepts the grammar -/
theorem warmupToken_eq_some {token : List Char} {s : Shape} :
    warmupToken token = some s ↔ ShapeToken (trim token) s := by
  unfold warmupToken splitn2
  constructor
  · intro h
    cases hsplit : splitOnce 'x' (trim token) with
    | none =>
      rw [hsplit] at h
      simp at h
    | some parts =>
      obtain ⟨before, after⟩ := parts
      rw [hsplit] at h
      obtain ⟨batch, hbatch, h⟩ := Option.bind_eq_some_iff.mp h
      obtain ⟨seq, hseq, h⟩ := Option.bind_eq_some_iff.mp h
      cases h
      exact ⟨before, after, splitOnce_eq_some hsplit, parseUnsigned_eq_some.mp hbatch,
        parseUnsigned_eq_some.mp hseq⟩
  · rintro ⟨batch, seq, htoken, hbatch, hseq⟩
    rw [htoken, splitOnce_append hbatch.no_x]
    dsimp only [List.getElem?_cons_zero, List.getElem?_cons_succ, Option.bind_some]
    rw [parseUnsigned_eq_some.mpr hbatch, parseUnsigned_eq_some.mpr hseq]
    rfl

theorem warmupToken_eq_none {token : List Char} :
    warmupToken token = none ↔ ∀ s, ¬ ShapeToken (trim token) s := by
  rw [Option.eq_none_iff_forall_ne_some]
  exact forall_congr' fun s => not_congr warmupToken_eq_some

/-- reading is a function of the tokens -/
theorem readsAs_iff {tokens : List (List Char)} {shapes : List Shape} :
    ReadsAs tokens shapes ↔ shapes = tokens.filterMap warmupToken := by
  constructor
  · intro h
    induction h with
    | nil => rfl
    | shape h _ ih => rw [List.filterMap_cons_some (warmupToken_eq_some.mpr h), ih]
    | skip h _ ih => rw [List.filterMap_cons_none (warmupToken_eq_none.mpr h), ih]
  · rintro rfl
    induction tokens with
    | nil => exact .nil
    | cons token tokens ih =>
      cases htoken : warmupToken token with
      | none =>
        rw [List.filterMap_cons_none htoken]
        exact .skip (warmupToken_eq_none.mp htoken) ih
      | some s =>
        rw [List.filterMap_cons_some htoken]
        exact .shape (warmupToken_eq_some.mp htoken) ih

/-! ## the value of the variable -/

/-- blanks alone are one token, and none of the grammar -/
theorem filterMap_blanks {cs : List Char} (h : trim cs = []) :
    (cs.splitOn ',').filterMap warmupToken = [] := by
  have hcomma : ',' ∉ cs := fun hm => absurd (blanks_of_trim h ',' hm) (by decide)
  have hnone : warmupToken cs = none := by
    rw [warmupToken_eq_none, h]
    rintro s ⟨batch, seq, htoken, -⟩
    exact absurd htoken.symm (by simp)
  rw [List.splitOn_eq_singleton hcomma, List.filterMap_cons_none hnone]
  rfl

theorem parseTrtWarmupShapes_some (val : String) : parseTrtWarmupShapes (some val) =
    if ((val.toList.splitOn ',').filterMap warmupToken).isEmpty then defaultTrtWarmupShapes
    else (val.toList.splitOn ',').filterMap warmupToken := by
  unfold parseTrtWarmupShapes
  dsimp only
  split
  · rename_i hblank
    rw [filterMap_blanks (List.isEmpty_iff.mp hblank)]
    rfl
  · rfl

/-- tokens with commas between them -/
theorem parseTrtWarmupShapes_join {tokens : List (List Char)} (h : ∀ token ∈ tokens, ',' ∉ token) :
    parseTrtWarmupShapes (some (String.ofList ([','].intercalate tokens))) =
      if (tokens.filterMap warmupToken).isEmpty then defaultTrtWarmupShapes
      else tokens.filterMap warmupToken := by
  rw [parseTrtWarmupShapes_some, String.toList_ofList]
  by_cases hne : tokens = []
  · subst hne
    rfl
  · rw [List.splitOn_intercalate ',' h hne]

/-- a shape of `usize` numbers, and the blanks around it -/
structure PaddedShape where
  before : List Char
  shape : Shape
  after : List Char
  blankBefore : ∀ c ∈ before, isWhitespace c = true
  blankAfter : ∀ c ∈ after, isWhitespace c = true
  batch_le : shape.1 ≤ usizeMax
  seq_le : shape.2 ≤ usizeMax

def PaddedShape.print (p : PaddedShape) : List Char := p.before ++ printShape p.shape ++ p.after

theorem numeral_toString {limit n : Nat} (h : n ≤ limit) : Numeral limit (toString n).toList n := by
  have hle : decimalValue (toString n).toList ≤ limit := by
    rw [decimalValue_toString]
    exact h
  have hnum := Numeral.plain (toString_ne_nil n) (toString_digits n) hle
  rw [decimalValue_toString] at hnum
  exact hnum

theorem isWhitespace_digit {c : Char} (h : c.isDigit = true) : isWhitespace c = false := by
  have hrange : 48 ≤ c.toNat ∧ c.toNat ≤ 57 := by
    unfold Char.isDigit at h
    simp only [ge_iff_le, Bool.and_eq_true, decide_eq_true_eq] at h
    exact ⟨UInt32.le_iff_toNat_le.mp h.1, UInt32.le_iff_toNat_le.mp h.2⟩
  unfold isWhitespace
  simp only [Bool.or_eq_false_iff, Bool.and_eq_false_iff, decide_eq_false_iff_not, beq_eq_false_iff_ne]
  omega

theorem mem_printShape {s : Shape} {c : Char} (h : c ∈ printShape s) : c.isDigit = true ∨ c = 'x' := by
  rcases List.mem_append.mp h with hc | hc
  · exact .inl (toString_digits _ c hc)
  · rcases List.mem_cons.mp hc with hc | hc
    · exact .inr hc
    · exact .inl (toString_digits _ c hc)

theorem trim_print (p : PaddedShape) : trim p.print = printShape p.shape := by
  apply trim_pad p.blankBefore p.blankAfter
  intro c hc
  rcases mem_printShape hc with hc | rfl
  · exact isWhitespace_digit hc
  · decide

theorem warmupToken_print (p : PaddedShape) : warmupToken p.print = some p.shape := by
  rw [warmupToken_eq_some, trim_print]
  exact ⟨_, _, rfl, numeral_toString p.batch_le, numeral_toString p.seq_le⟩

theorem comma_not_mem_print (p : PaddedShape) : ',' ∉ p.print := by
  intro h
  rcases List.mem_append.mp h with h | h
  · rcases List.mem_append.mp h with h | h
    · exact absurd (p.blankBefore ',' h) (by decide)
    · exact absurd (mem_printShape h) (by decide)
  · exact absurd (p.blankAfter ',' h) (by decide)

theorem filterMap_print (padded : List PaddedShape) :
    (padded.map PaddedShape.print).filterMap warmupToken = padded.map PaddedShape.shape := by
  induction padded with
  | nil => rfl
  | cons p padded ih => rw [List.map_cons, List.filterMap_cons_some (warmupToken_print p), ih, List.map_cons]

/-- **The warmup grid is what the variable says.**  A printed grid reads back, with blanks around its
shapes or not.  Of any value the tokens of the grammar are read, in order, and a token that is none of it
changes nothing for the others; without such a token, or without a value, the default grid is taken. -/
theorem warmupShapes_grammar :
    (∀ padded : List PaddedShape, padded ≠ [] →
      parseTrtWarmupShapes (some (String.ofList ([','].intercalate (padded.map PaddedShape.print)))) =
        padded.map PaddedShape.shape) ∧
    (∀ val : String, (∃ token ∈ val.toList.splitOn ',', ∃ s, ShapeToken (trim token) s) →
      ∀ shapes, ReadsAs (val.toList.splitOn ',') shapes ↔ shapes = parseTrtWarmupShapes (some val)) ∧
    (∀ before bad after, (∀ token ∈ before ++ bad :: after, ',' ∉ token) →
      (∀ s, ¬ ShapeToken (trim bad) s) →
      parseTrtWarmupShapes (some (String.ofList ([','].intercalate (before ++ bad :: after)))) =
        parseTrtWarmupShapes (some (String.ofList ([','].intercalate (before ++ after))))) ∧
    (∀ val : String, (∀ token ∈ val.toList.splitOn ',', ∀ s, ¬ ShapeToken (trim token) s) →
      parseTrtWarmupShapes (some val) = defaultTrtWarmupShapes) ∧
    (∀ lookup : Lookup, lookup "BGE_M3_TRT_WARMUP_SHAPES" = none →
      trtWarmupShapes lookup = defaultTrtWarmupShapes) ∧
    ∀ raw, parseTrtWarmupShapes raw ≠ [] := by
  refine ⟨?_, ?_, ?_, ?_, ?_, ?_⟩
  · intro padded hne
    rw [parseTrtWarmupShapes_join, filterMap_print, if_neg]
    · simpa using hne
    · intro token htoken
      obtain ⟨p, -, rfl⟩ := List.mem_map.mp htoken
      exact comma_not_mem_print p
  · rintro val ⟨token, htoken, s, hs⟩ shapes
    have hmem := List.mem_filterMap.mpr ⟨token, htoken, warmupToken_eq_some.mpr hs⟩
    rw [readsAs_iff, parseTrtWarmupShapes_some, if_neg]
    rw [List.isEmpty_iff]
    exact List.ne_nil_of_mem hmem
  · intro before bad after hcomma hbad
    have hskip : (before ++ bad :: after).filterMap warmupToken =
        (before ++ after).filterMap warmupToken := by
      rw [List.filterMap_append, List.filterMap_cons_none (warmupToken_eq_none.mpr hbad),
        List.filterMap_append]
    rw [parseTrtWarmupShapes_join hcomma, hskip, parseTrtWarmupShapes_join]
    intro token htoken
    apply hcomma
    rcases List.mem_append.mp htoken with ht | ht
    · exact List.mem_append_left _ ht
    · exact List.mem_append_right _ (List.mem_cons_of_mem _ ht)
  · intro val hnone
    have hnil : (val.toList.splitOn ',').filterMap warmupToken = [] := by
      rw [List.filterMap_eq_nil_iff]
      exact fun token htoken => warmupToken_eq_none.mpr (hnone token htoken)
    rw [parseTrtWarmupShapes_some, hnil]
    rfl
  · intro lookup hunset
    unfold trtWarmupShapes
    rw [hunset]
    rfl
  · intro raw hnil
    cases raw with
    | none => cases hnil
    | some val =>
      rw [parseTrtWarmupShapes_some] at hnil
      split at hnil
      · cases hnil
      · rename_i hne
        exact hne (List.isEmpty_iff.mpr hnil)

example : parseTrtWarmupShapes (some " 1x128,2x 4,+2x0512\n,1x2x3,") = [(1, 128), (2, 512)] := by
  decide +kernel

end EmbedServer
