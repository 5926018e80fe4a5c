import EmbedServer.Embed.OnePerText

/-!
# Requests and responses (`handler/common.rs`, `dense.rs`, `sparse.rs`, `both.rs`, `models.rs`)

A handler is written in two parts: what it checks before it asks for a permit, and what it makes of the
reply of the pool.

* `checkReady`, `validateInput`   the checks, with their texts;
* `Route.answer`                  a reply, or its absence, as a response;
* `validateInput_ok`              what passes;
* `answer_ok`                     a success has one entry for each text, numbered in order.
-/

namespace EmbedServer

namespace AppError

/-- `"message"` of the error body -/
def message : AppError → String
  | .invalidRequest msg | .serviceUnavailable msg | .internal msg => msg

/-- `"type"` -/
def errorType : AppError → String
  | .invalidRequest _ => "invalid_request_error"
  | .serviceUnavailable _ => "service_unavailable"
  | .internal _ => "internal_error"

end AppError

namespace Http

/-! ## before the permit -/

/-- `MAX_STRING_CHARS` -/
def maxStringChars : Nat := 32768

/-- the texts from index `i` on -/
def validateTexts (i : Nat) : List String → Except AppError Unit
  | [] => .ok ()
  | text :: texts =>
    if maxStringChars < text.length then
      .error (.invalidRequest ("input[" ++ toString i ++ "] length " ++ toString text.length ++
        " exceeds maximum " ++ toString maxStringChars ++ " characters"))
    else validateTexts (i + 1) texts

def validateInput (texts : List String) (maxBatch : Nat) : Except AppError Unit :=
  if texts.isEmpty then .error (.invalidRequest "input must not be empty")
  else if maxBatch < texts.length then
    .error (.invalidRequest ("batch size " ++ toString texts.length ++ " exceeds maximum " ++
      toString maxBatch))
  else validateTexts 0 texts

def checkReady (ready : Bool) (liveWorkers : Nat) : Except AppError Unit :=
  if !ready then .error (.serviceUnavailable "model not ready")
  else if liveWorkers = 0 then .error (.serviceUnavailable "no workers available")
  else .ok ()

/-! ## responses -/

structure Usage where
  promptTokens : Nat
  totalTokens : Nat
deriving DecidableEq, Repr

structure DenseEmbeddingData (F : Type) where
  object : String
  index : Nat
  embedding : List F

structure DenseResponse (F : Type) where
  object : String
  model : String
  data : List (DenseEmbeddingData F)
  usage : Usage

structure SparseValues (F : Type) where
  /-- `u32` -/
  indices : List Nat
  values : List F

structure SparseEmbeddingData (F : Type) where
  index : Nat
  sparseValues : SparseValues F

structure SparseResponse (F : Type) where
  data : List (SparseEmbeddingData F)

structure DualEmbeddingData (F : Type) where
  index : Nat
  embedding : List F
  sparseValues : SparseValues F

structure DualResponse (F : Type) where
  object : String
  model : String
  data : List (DualEmbeddingData F)
  usage : Usage

inductive Response (F : Type) where
  | dense (r : DenseResponse F)
  | sparse (r : SparseResponse F)
  | both (r : DualResponse F)

/-- `chars / 4 + 1` per text -/
def promptTokens (texts : List String) : Nat := (texts.map fun t => t.length / 4 + 1).sum

def usage (texts : List String) : Usage := ⟨promptTokens texts, promptTokens texts⟩

section
variable {F : Type}

/-- `as u32` -/
def sparseValues (emb : SparseEmbedding F) : SparseValues F := ⟨emb.indices.map (· % 2 ^ 32), emb.values⟩

def denseResponse (texts : List String) (embeddings : List (List F)) : DenseResponse F where
  object := "list"
  model := "bge-m3"
  data := embeddings.zipIdx.map fun p => ⟨"embedding", p.2, p.1⟩
  usage := usage texts

def sparseResponse (embeddings : List (SparseEmbedding F)) : SparseResponse F where
  data := embeddings.zipIdx.map fun p => ⟨p.2, sparseValues p.1⟩

def dualResponse (texts : List String) (pairs : List (DualEmbedding F)) : DualResponse F where
  object := "list"
  model := "bge-m3"
  data := pairs.zipIdx.map fun p => ⟨p.2, p.1.dense, sparseValues p.1.sparse⟩
  usage := usage texts

/-! ## after the permit -/

inductive Route where
  | dense
  | sparse
  | both
deriving DecidableEq, Repr

/-- what the route sends to the pool -/
def Route.request (route : Route) (texts : List String) : EmbedRequest :=
  match route with
  | .dense => .dense texts
  | .sparse => .sparse texts
  | .both => .both texts

/-- `EmbedPool::dense` … without a reply: the send failed, or the reply sender is gone -/
def poolError (sendFailed : Bool) : AnyError :=
  .msg (if sendFailed then "EmbedPool channel closed" else "Worker dropped reply sender")

/-- `pool.dense(texts).await?` and the response -/
def Route.answer (route : Route) (texts : List String) (reply : Option (Reply F)) (sendFailed : Bool) :
    Except AppError (Response F) :=
  match route, reply with
  | .dense, some (.dense (.ok (embeddings, _))) => .ok (.dense (denseResponse texts embeddings))
  | .dense, some (.dense (.error e)) => .error (.ofAnyhow e)
  | .sparse, some (.sparse (.ok (embeddings, _))) => .ok (.sparse (sparseResponse embeddings))
  | .sparse, some (.sparse (.error e)) => .error (.ofAnyhow e)
  | .both, some (.both (.ok (pairs, _))) => .ok (.both (dualResponse texts pairs))
  | .both, some (.both (.error e)) => .error (.ofAnyhow e)
  -- a reply channel carries one type, so there is no reply here
  | _, _ => .error (.ofAnyhow (poolError sendFailed))

/-- the `"index"` fields -/
def Response.indices : Response F → List Nat
  | .dense r => r.data.map (·.index)
  | .sparse r => r.data.map (·.index)
  | .both r => r.data.map (·.index)

/-! ## what the checks let through -/

theorem validateTexts_ok {i : Nat} {texts : List String} :
    validateTexts i texts = .ok () ↔ ∀ text ∈ texts, text.length ≤ maxStringChars := by
  induction texts generalizing i with
  | nil => exact ⟨fun _ _ h => (by cases h), fun _ => rfl⟩
  | cons text texts ih =>
    rw [validateTexts, List.forall_mem_cons]
    split
    · rename_i hlong
      exact ⟨fun h => (by cases h), fun h => absurd h.1 (by omega)⟩
    · rename_i hshort
      rw [ih]
      exact ⟨fun h => ⟨by omega, h⟩, fun h => h.2⟩

theorem validateInput_ok {texts : List String} {maxBatch : Nat} :
    validateInput texts maxBatch = .ok () ↔
      texts ≠ [] ∧ texts.length ≤ maxBatch ∧ ∀ text ∈ texts, text.length ≤ maxStringChars := by
  unfold validateInput
  split
  · rename_i he
    rw [List.isEmpty_iff] at he
    exact ⟨fun h => (by cases h), fun h => absurd he h.1⟩
  · rename_i hne
    rw [List.isEmpty_iff] at hne
    split
    · rename_i hbig
      exact ⟨fun h => (by cases h), fun h => absurd h.2.1 (by omega)⟩
    · rename_i hfits
      rw [validateTexts_ok]
      exact ⟨fun h => ⟨hne, by omega, h⟩, fun h => h.2.2⟩

/-- a refusal of the checks is the client's fault -/
theorem validateTexts_error {i : Nat} {texts : List String} {e : AppError}
    (h : validateTexts i texts = .error e) : e.status = 400 := by
  induction texts generalizing i with
  | nil => cases h
  | cons text texts ih =>
    rw [validateTexts] at h
    split at h
    · cases h
      rfl
    · exact ih h

theorem validateInput_error {texts : List String} {maxBatch : Nat} {e : AppError}
    (h : validateInput texts maxBatch = .error e) : e.status = 400 := by
  unfold validateInput at h
  split at h
  · cases h
    rfl
  · split at h
    · cases h
      rfl
    · exact validateTexts_error h

theorem checkReady_error {ready : Bool} {live : Nat} {e : AppError} (h : checkReady ready live = .error e) :
    e.status = 503 ∧ (ready = false ∨ live = 0) := by
  unfold checkReady at h
  split at h
  · rename_i hr
    cases h
    exact ⟨rfl, .inl (by simpa using hr)⟩
  · split at h
    · rename_i hl
      cases h
      exact ⟨rfl, .inr hl⟩
    · cases h

/-! ## what a reply becomes -/

/-- the texts an error of the pool can leave with -/
theorem ofAnyhow_cases (e : AnyError) :
    (AppError.ofAnyhow e = .serviceUnavailable
        "embedding temporarily unavailable for this input size; please retry" ∧ isTrtShapeRejected e = true) ∨
      AppError.ofAnyhow e = .internal "internal server error" ∧ isTrtShapeRejected e = false := by
  unfold AppError.ofAnyhow
  cases h : isTrtShapeRejected e with
  | true => exact .inl ⟨rfl, rfl⟩
  | false => exact .inr ⟨rfl, rfl⟩

theorem zipIdx_indices {α β : Type} (l : List α) (f : α × Nat → β) (index : β → Nat)
    (hf : ∀ p, index (f p) = p.2) : (l.zipIdx.map f).map index = List.range l.length := by
  have hsnd : index ∘ f = Prod.snd := funext hf
  rw [List.map_map, hsnd, List.zipIdx_map_snd, List.range_eq_range']

/-- a success is a successful reply of the same kind, entry by entry -/
theorem answer_ok {route : Route} {texts : List String} {reply : Option (Reply F)} {sendFailed : Bool}
    {resp : Response F} (h : route.answer texts reply sendFailed = .ok resp) :
    ∃ r n, reply = some r ∧ r.count = some n ∧ resp.indices = List.range n := by
  unfold Route.answer at h
  split at h
  · cases h
    exact ⟨_, _, rfl, rfl, zipIdx_indices _ _ _ fun _ => rfl⟩
  · cases h
  · cases h
    exact ⟨_, _, rfl, rfl, zipIdx_indices _ _ _ fun _ => rfl⟩
  · cases h
  · cases h
    exact ⟨_, _, rfl, rfl, zipIdx_indices _ _ _ fun _ => rfl⟩
  · cases h
  · cases h

/-- a failure is the error of the reply or of the pool -/
theorem answer_error {route : Route} {texts : List String} {reply : Option (Reply F)} {sendFailed : Bool}
    {e : AppError} (h : route.answer texts reply sendFailed = .error e) : ∃ err, e = .ofAnyhow err := by
  unfold Route.answer at h
  split at h <;> cases h <;> exact ⟨_, rfl⟩

end
end Http
end EmbedServer
