import EmbedServer.Embed.Math
import EmbedServer.Error

/-!
# Tokenizer, chunk arrays and the ORT session (`embedder/tokenize.rs`, `session.run`)

The tokenizer and the session are code of other crates, so both are parameters.  A `Session` is any
function of the inputs run on it before and of the present input: it may remember what it has run.
The inputs run so far are the state of every embed call, so a trace of the executed
`session.run()` calls is part of its result.

* `buildChunkArrays_ok`   indices in range and no text longer than the padding: no shape error,
                          and row `r` of the arrays is the padded text `chunk[r]`.
-/

namespace EmbedServer

inductive ModelVariant where
  | fp32
  | fp16
  | int8
deriving DecidableEq, Repr

/-- one tokenized text; the tokenizer gives one mask entry per id -/
structure Encoding where
  ids : List Nat
  mask : List Nat
  mask_len : mask.length = ids.length
deriving DecidableEq, Repr

structure Tokenizer where
  encodeBatchFast : List String → Except String (List Encoding)
  /-- one encoding per text -/
  one_each : ∀ {texts encs}, encodeBatchFast texts = .ok encs → encs.length = texts.length
  /-- wall-clock time of the call -/
  elapsedMs : List String → Nat

def tokenizeNoPad (tokenizer : Tokenizer) (texts : List String) : Outcome AnyError (List Encoding) :=
  Outcome.ofExcept (fun e => .msg ("Tokenization failed: " ++ e)) (tokenizer.encodeBatchFast texts)

/-! ## chunk arrays -/

/-- the two inputs of one `session.run()` -/
structure ChunkArrays where
  ids : Nd Int
  mask : Nd Int
deriving DecidableEq, Repr

/-- right padding to `padTo`; a longer row is left as it is -/
def padRow (padTo : Nat) (fill : Int) (row : List Nat) : List Int :=
  row.map Int.ofNat ++ List.replicate (padTo - row.length) fill

/-- one text of the chunk: ids padded with `1`, mask with `0` -/
def pushRow (allEncodings : List Encoding) (padTo : Nat) (flat : List Int × List Int) (idx : Nat) :
    Outcome AnyError (List Int × List Int) := do
  let enc ← Outcome.index allEncodings idx
  -- the mask is padded by the length of the ids, as in the source
  pure (flat.1 ++ padRow padTo 1 enc.ids,
    flat.2 ++ (enc.mask.map Int.ofNat ++ List.replicate (padTo - enc.ids.length) 0))

def buildChunkArrays (allEncodings : List Encoding) (indices : List Nat) (padTo : Nat) :
    Outcome AnyError ChunkArrays := do
  let batch := indices.length
  let (idsFlat, maskFlat) ← indices.foldlM (pushRow allEncodings padTo) ([], [])
  let ids ← (Nd.fromShapeVec [batch, padTo] idsFlat).mapErr AnyError.ofShape
  let mask ← (Nd.fromShapeVec [batch, padTo] maskFlat).mapErr AnyError.ofShape
  pure ⟨ids, mask⟩

/-- `TensorRef::from_array_view`: a tensor has no empty dimension -/
def tensorRef (a : Nd Int) : Outcome AnyError Unit :=
  if a.shape.contains 0 then .err (ortErr "invalid dimension: all dimensions must be at least 1")
  else .ok ()

/-! ## the session -/

/-- the named outputs of a run, each with the result of `try_extract_array::<f32>()` -/
def Outputs (F : Type) : Type := String → Option (Except String (Nd F))

structure RunReply (F : Type) where
  outputs : Except String (Outputs F)
  elapsedMs : Nat

structure Session (F : Type) where
  run : List ChunkArrays → ChunkArrays → RunReply F

/-- inputs run on a session so far -/
abbrev Trace := List ChunkArrays

/-- `session.run(...)`; the run is recorded whether it succeeds or not -/
def runSession {F : Type} (session : Session F) (x : ChunkArrays) :
    Exec Trace AnyError (Outputs F × Nat) := fun h =>
  let r := session.run h x
  match r.outputs with
  | .ok outs => (.ok (outs, r.elapsedMs), h ++ [x])
  | .error e => (.err (ortErr e), h ++ [x])

/-- `outputs[name].try_extract_array()` -/
def tensor {F : Type} (outs : Outputs F) (name : String) : Outcome AnyError (Nd F) := do
  let value ← Outcome.expect "output not found" (outs name)
  Outcome.ofExcept ortErr value

/-- what an embed call works with besides the request: session, tokenizer, sparse-linear weights
and the standard library's unstable sort -/
structure Models (F : Type) where
  session : Session F
  tokenizer : Tokenizer
  linear : SparseLinear F
  sort : UnstableSort

/-! ## rows of the chunk arrays -/

theorem length_padRow {padTo : Nat} {fill : Int} {row : List Nat} (h : row.length ≤ padTo) :
    (padRow padTo fill row).length = padTo := by
  rw [padRow, List.length_append, List.length_map, List.length_replicate]
  omega

/-- the id rows of a chunk, padded -/
def paddedIds (encs : List Encoding) (padTo : Nat) (c : List Nat) : List (List Int) :=
  c.map fun i => ((encs[i]?).map fun e => padRow padTo 1 e.ids).getD []

/-- the mask rows of a chunk, padded -/
def paddedMask (encs : List Encoding) (padTo : Nat) (c : List Nat) : List (List Int) :=
  c.map fun i => ((encs[i]?).map fun e => padRow padTo 0 e.mask).getD []

/-- every index of the chunk has an encoding of at most `padTo` ids -/
def Holds (encs : List Encoding) (padTo : Nat) (c : List Nat) : Prop :=
  ∀ i ∈ c, ∃ e, encs[i]? = some e ∧ e.ids.length ≤ padTo

theorem pushRows_eq {encs : List Encoding} {padTo : Nat} {c : List Nat} (h : Holds encs padTo c)
    (flat : List Int × List Int) :
    c.foldlM (pushRow encs padTo) flat =
      .ok (flat.1 ++ (paddedIds encs padTo c).flatten, flat.2 ++ (paddedMask encs padTo c).flatten) := by
  induction c generalizing flat with
  | nil => simp [paddedIds, paddedMask]
  | cons i c ih =>
    obtain ⟨e, he, -⟩ := h i List.mem_cons_self
    rw [List.foldlM_cons, pushRow, Outcome.index_ok he, Outcome.bind_ok, Outcome.pure_eq,
      Outcome.bind_ok, ih fun j hj => h j (List.mem_cons_of_mem _ hj)]
    simp [paddedIds, paddedMask, he, padRow, e.mask_len]

theorem length_paddedIds {encs : List Encoding} {padTo : Nat} {c : List Nat} (h : Holds encs padTo c) :
    ∀ x ∈ paddedIds encs padTo c, x.length = padTo := by
  intro x hx
  obtain ⟨i, hi, rfl⟩ := List.mem_map.mp hx
  obtain ⟨e, he, hl⟩ := h i hi
  rw [he]
  exact length_padRow hl

theorem length_paddedMask {encs : List Encoding} {padTo : Nat} {c : List Nat} (h : Holds encs padTo c) :
    ∀ x ∈ paddedMask encs padTo c, x.length = padTo := by
  intro x hx
  obtain ⟨i, hi, rfl⟩ := List.mem_map.mp hx
  obtain ⟨e, he, hl⟩ := h i hi
  rw [he]
  exact length_padRow (e.mask_len.trans_le hl)

theorem length_flatten_rows {k : Nat} {L : List (List Int)} (h : ∀ x ∈ L, x.length = k) :
    L.flatten.length = [L.length, k].prod := by
  rw [List.length_flatten, List.map_congr_left h]
  simp

/-- **No shape error**: the arrays are the padded rows, one after the other. -/
theorem buildChunkArrays_ok {encs : List Encoding} {padTo : Nat} {c : List Nat}
    (h : Holds encs padTo c) :
    ∃ x, buildChunkArrays encs c padTo = .ok x ∧
      x.ids.shape = [c.length, padTo] ∧ x.ids.data = (paddedIds encs padTo c).flatten ∧
      x.mask.shape = [c.length, padTo] ∧ x.mask.data = (paddedMask encs padTo c).flatten := by
  have h1 := length_flatten_rows (length_paddedIds h)
  have h2 := length_flatten_rows (length_paddedMask h)
  rw [paddedIds, List.length_map, ← paddedIds] at h1
  rw [paddedMask, List.length_map, ← paddedMask] at h2
  unfold buildChunkArrays
  rw [pushRows_eq h]
  simp only [Outcome.bind_ok, List.nil_append]
  rw [Nd.fromShapeVec_ok h1, Nd.fromShapeVec_ok h2]
  exact ⟨_, rfl, rfl, rfl, rfl, rfl⟩

/-- row `r` of the id array is the padded text at position `r` of the chunk -/
theorem paddedIds_row {encs : List Encoding} {padTo : Nat} {chunk : List Nat} (h : Holds encs padTo chunk)
    {r i : Nat} {e : Encoding} (hr : chunk[r]? = some i) (he : encs[i]? = some e) :
    block padTo r (paddedIds encs padTo chunk).flatten = padRow padTo 1 e.ids := by
  refine block_flatten (length_paddedIds h) ?_
  rw [paddedIds, List.getElem?_map, hr, Option.map_some, he]
  rfl

theorem paddedMask_row {encs : List Encoding} {padTo : Nat} {chunk : List Nat} (h : Holds encs padTo chunk)
    {r i : Nat} {e : Encoding} (hr : chunk[r]? = some i) (he : encs[i]? = some e) :
    block padTo r (paddedMask encs padTo chunk).flatten = padRow padTo 0 e.mask := by
  refine block_flatten (length_paddedMask h) ?_
  rw [paddedMask, List.getElem?_map, hr, Option.map_some, he]
  rfl

end EmbedServer
