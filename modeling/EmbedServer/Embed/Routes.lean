import EmbedServer.Embed.Session

/-!
# The three embed routes (`embedder/dense.rs`, `sparse.rs`, `dual.rs`)

Each route is written out as in its own file, loop by loop: tokenize, pack, guard, then for
every chunk pad, run, extract, and scatter the rows back to the original positions.  All indexing,
slicing and `expect` of the source is kept as a possible panic, and every executed `session.run()`
stays in the trace.
-/

namespace EmbedServer

/-- the loop variables that survive a chunk -/
structure LoopState (β : Type) where
  slots : List β
  maxChunkSeq : Nat
  inferenceMs : Nat

section
variable {F : Type} [F32Ops F]

/-- `EmbedStats { .. }` at the end of a route -/
def embedStats (tokenizer : Tokenizer) (texts : List String) (seqLens : List Nat)
    (chunks : List (List Nat)) (maxChunkSeq inferenceMs : Nat) : EmbedStats :=
  let seqDist := seqLenDistribution seqLens
  { chunks := chunks.length
    maxChunkSeq := maxChunkSeq
    totalTokenPositions := seqLens.sum
    tokenizeMs := toU64 (tokenizer.elapsedMs texts)
    inferenceMs := inferenceMs
    seqLenMin := seqDist.min
    seqLenMax := seqDist.max
    seqLenMean := seqDist.mean
    seqLenP95 := seqDist.p95 }

/-! ## dense -/

/-- the `[batch, hidden]` array a variant offers for the dense vectors -/
def denseEmb (variant : ModelVariant) (outputs : Outputs F) : Outcome AnyError (Nd F) :=
  match variant with
  | .fp32 => tensor outputs "sentence_embedding"
  | .fp16 | .int8 => do
    let lhs ← tensor outputs "last_hidden_state"
    lhs.indexAxis 1 0

/-- row `chunkPos`, normalized -/
def denseVec (emb : Nd F) (chunkPos : Nat) : Outcome AnyError (List F) := do
  let row ← emb.indexAxis 0 chunkPos
  pure (normalizeL2 row.data)

/-- `p` is the original index with its position in the chunk -/
def denseStore (batchLen : Nat) (emb : Nd F) (allEmbeddings : List (List F)) (p : Nat × Nat) :
    Outcome AnyError (List (List F)) := do
  let (origIdx, chunkPos) := p
  Outcome.debugAssert (chunkPos < batchLen) "chunk_pos must be within batch"
  let vec ← denseVec emb chunkPos
  Outcome.store allEmbeddings origIdx vec

def denseChunk (m : Models F) (variant : ModelVariant) (encodings : List Encoding)
    (seqLens : List Nat) (st : LoopState (List F)) (chunk : List Nat) :
    Exec Trace AnyError (LoopState (List F)) := do
  let seqs ← Exec.lift (chunk.mapM (Outcome.index seqLens))
  let chunkMax := max (seqs.max?.getD 1) 1
  let maxChunkSeq := max st.maxChunkSeq chunkMax
  let arrays ← Exec.lift (buildChunkArrays encodings chunk chunkMax)
  let batchLen := arrays.ids.nrows
  Exec.lift (tensorRef arrays.ids)
  Exec.lift (tensorRef arrays.mask)
  let (outputs, elapsed) ← runSession m.session arrays
  let inferenceMs := satAddU64 st.inferenceMs (toU64 elapsed)
  let emb ← Exec.lift (denseEmb variant outputs)
  let slots ← Exec.lift (chunk.zipIdx.foldlM (denseStore batchLen emb) st.slots)
  pure { slots, maxChunkSeq, inferenceMs }

def embedDense (m : Models F) (texts : List String) (cm : CostModel) (variant : ModelVariant)
    (guard : Option TrtJitGuard) : Exec Trace AnyError (List (List F) × EmbedStats) := do
  let encodings ← Exec.lift (tokenizeNoPad m.tokenizer texts)
  let seqLens := encodings.map fun e => e.ids.length
  let chunks := binPack m.sort seqLens cm
  Exec.lift ((guardChunks guard chunks seqLens).mapErr AnyError.ofRejection)
  let st ← chunks.foldlM (denseChunk m variant encodings seqLens)
    { slots := List.replicate texts.length [], maxChunkSeq := 0, inferenceMs := 0 }
  pure (st.slots, embedStats m.tokenizer texts seqLens chunks st.maxChunkSeq st.inferenceMs)

/-! ## sparse -/

/-- the `[batch, seq, hidden]` array a variant offers for the token scores -/
def tokenEmb (variant : ModelVariant) (outputs : Outputs F) : Outcome AnyError (Nd F) :=
  match variant with
  | .fp32 => tensor outputs "token_embeddings"
  | .fp16 | .int8 => tensor outputs "last_hidden_state"

/-- project and pool the tokens of one row -/
def sparseVec (linear : SparseLinear F) (emb : Nd F) (enc : Encoding) (chunkPos : Nat) :
    Outcome AnyError (SparseEmbedding F) := do
  let batchHidden ← emb.indexAxis 0 chunkPos
  let scores ← (List.range enc.ids.length).mapM fun j => do
    let hidden ← batchHidden.indexAxis 0 j
    pure (sparseProject hidden.data linear)
  let (indices, values) ← sparseMaxpool enc.ids enc.mask scores
  pure { indices, values }

def sparseStore (linear : SparseLinear F) (encodings : List Encoding) (emb : Nd F)
    (allSparse : List (Option (SparseEmbedding F))) (p : Nat × Nat) :
    Outcome AnyError (List (Option (SparseEmbedding F))) := do
  let (origIdx, chunkPos) := p
  let enc ← Outcome.index encodings origIdx
  let sparse ← sparseVec linear emb enc chunkPos
  Outcome.store allSparse origIdx (some sparse)

def sparseChunk (m : Models F) (variant : ModelVariant) (encodings : List Encoding)
    (seqLens : List Nat) (st : LoopState (Option (SparseEmbedding F))) (chunk : List Nat) :
    Exec Trace AnyError (LoopState (Option (SparseEmbedding F))) := do
  let seqs ← Exec.lift (chunk.mapM (Outcome.index seqLens))
  let chunkMax := max (seqs.max?.getD 1) 1
  let maxChunkSeq := max st.maxChunkSeq chunkMax
  let arrays ← Exec.lift (buildChunkArrays encodings chunk chunkMax)
  Exec.lift (tensorRef arrays.ids)
  Exec.lift (tensorRef arrays.mask)
  let (outputs, elapsed) ← runSession m.session arrays
  let inferenceMs := satAddU64 st.inferenceMs (toU64 elapsed)
  let emb ← Exec.lift (tokenEmb variant outputs)
  let slots ← Exec.lift (chunk.zipIdx.foldlM (sparseStore m.linear encodings emb) st.slots)
  pure { slots, maxChunkSeq, inferenceMs }

def embedSparse (m : Models F) (texts : List String) (cm : CostModel) (variant : ModelVariant)
    (guard : Option TrtJitGuard) : Exec Trace AnyError (List (SparseEmbedding F) × EmbedStats) := do
  let encodings ← Exec.lift (tokenizeNoPad m.tokenizer texts)
  let seqLens := encodings.map fun e => e.ids.length
  let chunks := binPack m.sort seqLens cm
  Exec.lift ((guardChunks guard chunks seqLens).mapErr AnyError.ofRejection)
  let st ← chunks.foldlM (sparseChunk m variant encodings seqLens)
    { slots := List.replicate texts.length none, maxChunkSeq := 0, inferenceMs := 0 }
  let result ← Exec.lift (st.slots.mapM (Outcome.expect "every slot must be filled"))
  pure (result, embedStats m.tokenizer texts seqLens chunks st.maxChunkSeq st.inferenceMs)

/-! ## both, from one forward pass -/

/-- the dense and the token array from the same outputs -/
def bothEmb (variant : ModelVariant) (outputs : Outputs F) : Outcome AnyError (Nd F × Nd F) :=
  match variant with
  | .fp32 => do
    let dense ← tensor outputs "sentence_embedding"
    let tokens ← tensor outputs "token_embeddings"
    pure (dense, tokens)
  | .fp16 | .int8 => do
    let lhs ← tensor outputs "last_hidden_state"
    let dense ← lhs.indexAxis 1 0
    pure (dense, lhs)

def bothStore (linear : SparseLinear F) (encodings : List Encoding) (embs : Nd F × Nd F)
    (allDual : List (Option (DualEmbedding F))) (p : Nat × Nat) :
    Outcome AnyError (List (Option (DualEmbedding F))) := do
  let (origIdx, chunkPos) := p
  let dense ← denseVec embs.1 chunkPos
  let enc ← Outcome.index encodings origIdx
  let sparse ← sparseVec linear embs.2 enc chunkPos
  Outcome.store allDual origIdx (some { dense, sparse })

def bothChunk (m : Models F) (variant : ModelVariant) (encodings : List Encoding)
    (seqLens : List Nat) (st : LoopState (Option (DualEmbedding F))) (chunk : List Nat) :
    Exec Trace AnyError (LoopState (Option (DualEmbedding F))) := do
  let seqs ← Exec.lift (chunk.mapM (Outcome.index seqLens))
  let chunkMax := max (seqs.max?.getD 1) 1
  let maxChunkSeq := max st.maxChunkSeq chunkMax
  let arrays ← Exec.lift (buildChunkArrays encodings chunk chunkMax)
  Exec.lift (tensorRef arrays.ids)
  Exec.lift (tensorRef arrays.mask)
  let (outputs, elapsed) ← runSession m.session arrays
  let inferenceMs := satAddU64 st.inferenceMs (toU64 elapsed)
  let embs ← Exec.lift (bothEmb variant outputs)
  let slots ← Exec.lift (chunk.zipIdx.foldlM (bothStore m.linear encodings embs) st.slots)
  pure { slots, maxChunkSeq, inferenceMs }

def embedBoth (m : Models F) (texts : List String) (cm : CostModel) (variant : ModelVariant)
    (guard : Option TrtJitGuard) : Exec Trace AnyError (List (DualEmbedding F) × EmbedStats) := do
  let encodings ← Exec.lift (tokenizeNoPad m.tokenizer texts)
  let seqLens := encodings.map fun e => e.ids.length
  let chunks := binPack m.sort seqLens cm
  Exec.lift ((guardChunks guard chunks seqLens).mapErr AnyError.ofRejection)
  let st ← chunks.foldlM (bothChunk m variant encodings seqLens)
    { slots := List.replicate texts.length none, maxChunkSeq := 0, inferenceMs := 0 }
  let result ← Exec.lift (st.slots.mapM (Outcome.expect "every slot must be filled"))
  pure (result, embedStats m.tokenizer texts seqLens chunks st.maxChunkSeq st.inferenceMs)

end
end EmbedServer
