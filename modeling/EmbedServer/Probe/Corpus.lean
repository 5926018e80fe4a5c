import EmbedServer.Lib.Outcome
import EmbedServer.Embed.Math

/-!
# Texts for the startup probe (`probe/corpus.rs`)

Texts are cut at a byte offset, so the cut can fall inside a character: then the slice panics.
-/

namespace EmbedServer

/-- `&s[..k]` on the characters of `s`; `none` if byte `k` is no character boundary -/
def sliceTo : List Char → Nat → Option (List Char)
  | _, 0 => some []
  | [], _ + 1 => none
  | c :: cs, k + 1 => if c.utf8Size ≤ k + 1 then (sliceTo cs (k + 1 - c.utf8Size)).map (c :: ·) else none

/-- `isize::MAX`, the largest allocation -/
def isizeMax : Nat := 2 ^ 63 - 1

/-- `usize::MAX` -/
def usizeMax : Nat := 2 ^ 64 - 1

/-- `str::repeat` -/
def repeatText (s : String) (n : Nat) : Outcome Empty (List Char) :=
  if s.utf8ByteSize * n ≤ isizeMax then .ok (List.replicate n s.toList).flatten
  else .panic "capacity overflow"

/-- one text of `synthesize_texts` -/
def synthesizeText (corpus : List String) (targetChars i : Nat) : Outcome Empty String := do
  if corpus.length = 0 then Outcome.panic "attempt to calculate the remainder with a divisor of zero"
  let base ← Outcome.index corpus (i % corpus.length)
  -- the sum wraps in a release build
  let repeated ← repeatText base ((max (targetChars / max base.utf8ByteSize 1) 2 + 1) % (usizeMax + 1))
  if (repeated.map Char.utf8Size).sum > targetChars then
    let trimmed ← Outcome.expect "not a char boundary" (sliceTo repeated targetChars)
    pure (String.ofList trimmed)
  else pure (String.ofList repeated)

def synthesizeTexts (corpus : List String) (batch targetSeq : Nat) : Outcome Empty (List String) :=
  let targetChars := max (min (targetSeq * 4) usizeMax) 16
  (List.range batch).mapM (synthesizeText corpus targetChars)

/-- the texts of the benchmark corpus if the file could be read, else one built-in sentence -/
def loadProbeTexts (fixture : Option (List String)) : List String :=
  match fixture with
  | some (t :: ts) => t :: ts
  | _ => ["The embedding server startup probe synthesizes texts to measure workspace cost."]

end EmbedServer
