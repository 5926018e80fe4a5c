import EmbedServer.Embed.Routes
import EmbedServer.Worker.Run

/-!
# One result per text

Whatever the session and the tokenizer do: a call that returns at all returns one entry for each text.

* `embedDense_length` …   the three routes;
* `Reply.count`           entries of a successful reply;
* `dispatchRequest_count` a reply of a worker has one entry for each text of its request.
-/

set_option linter.unusedSectionVars false

namespace EmbedServer

section
variable {F : Type} [F32Ops F]

/-! ## the loops -/

theorem denseStore_length {batchLen : Nat} {emb : Nd F} {slots slots' : List (List F)} {p : Nat × Nat}
    (h : denseStore batchLen emb slots p = .ok slots') : slots'.length = slots.length := by
  unfold denseStore at h
  obtain ⟨u, -, h⟩ := Outcome.bind_eq_ok.mp h
  obtain ⟨vec, -, h⟩ := Outcome.bind_eq_ok.mp h
  exact Outcome.length_store h

theorem sparseStore_length {linear : SparseLinear F} {encs : List Encoding} {emb : Nd F}
    {slots slots' : List (Option (SparseEmbedding F))} {p : Nat × Nat}
    (h : sparseStore linear encs emb slots p = .ok slots') : slots'.length = slots.length := by
  unfold sparseStore at h
  obtain ⟨enc, -, h⟩ := Outcome.bind_eq_ok.mp h
  obtain ⟨sparse, -, h⟩ := Outcome.bind_eq_ok.mp h
  exact Outcome.length_store h

theorem bothStore_length {linear : SparseLinear F} {encs : List Encoding} {embs : Nd F × Nd F}
    {slots slots' : List (Option (DualEmbedding F))} {p : Nat × Nat}
    (h : bothStore linear encs embs slots p = .ok slots') : slots'.length = slots.length := by
  unfold bothStore at h
  obtain ⟨dense, -, h⟩ := Outcome.bind_eq_ok.mp h
  obtain ⟨enc, -, h⟩ := Outcome.bind_eq_ok.mp h
  obtain ⟨sparse, -, h⟩ := Outcome.bind_eq_ok.mp h
  exact Outcome.length_store h

/-- the slots keep their number -/
def LoopState.Sized {β : Type} (n : Nat) (st : LoopState β) : Prop := st.slots.length = n

/-- a fold of stores -/
theorem okIn_stores {β : Type} {store : List β → Nat × Nat → Outcome AnyError (List β)} {n : Nat}
    (hstore : ∀ slots p slots', store slots p = .ok slots' → slots'.length = slots.length)
    (slots : List β) (ps : List (Nat × Nat)) (h : slots.length = n) :
    Exec.OkIn (fun r => r.length = n) (Exec.lift (ps.foldlM store slots) : Exec Trace AnyError (List β)) :=
  Exec.okIn_lift fun _ hr =>
    Outcome.foldlM_invariant (I := fun s => s.length = n) (fun s p t hs ht => (hstore s p t ht).trans hs) hr h

variable (m : Models F) (variant : ModelVariant) (encs : List Encoding) (lens : List Nat)

theorem denseChunk_sized {n : Nat} (st : LoopState (List F)) (chunk : List Nat) (h : st.Sized n) :
    Exec.OkIn (LoopState.Sized n) (denseChunk m variant encs lens st chunk) := by
  unfold denseChunk
  refine Exec.okIn_after fun _ => Exec.okIn_after fun _ => Exec.okIn_after fun _ => Exec.okIn_after fun _ =>
    Exec.okIn_after fun r => ?_
  refine Exec.okIn_after fun _ => ?_
  exact (okIn_stores (fun _ _ _ => denseStore_length) _ _ h).bind fun slots hs => Exec.okIn_pure hs

theorem sparseChunk_sized {n : Nat} (st : LoopState (Option (SparseEmbedding F))) (chunk : List Nat)
    (h : st.Sized n) : Exec.OkIn (LoopState.Sized n) (sparseChunk m variant encs lens st chunk) := by
  unfold sparseChunk
  refine Exec.okIn_after fun _ => Exec.okIn_after fun _ => Exec.okIn_after fun _ => Exec.okIn_after fun _ =>
    Exec.okIn_after fun r => ?_
  refine Exec.okIn_after fun _ => ?_
  exact (okIn_stores (fun _ _ _ => sparseStore_length) _ _ h).bind fun slots hs => Exec.okIn_pure hs

theorem bothChunk_sized {n : Nat} (st : LoopState (Option (DualEmbedding F))) (chunk : List Nat)
    (h : st.Sized n) : Exec.OkIn (LoopState.Sized n) (bothChunk m variant encs lens st chunk) := by
  unfold bothChunk
  refine Exec.okIn_after fun _ => Exec.okIn_after fun _ => Exec.okIn_after fun _ => Exec.okIn_after fun _ =>
    Exec.okIn_after fun r => ?_
  refine Exec.okIn_after fun _ => ?_
  exact (okIn_stores (fun _ _ _ => bothStore_length) _ _ h).bind fun slots hs => Exec.okIn_pure hs

/-! ## the routes -/

variable (texts : List String) (cm : CostModel) (guard : Option TrtJitGuard)

theorem embedDense_length :
    Exec.OkIn (fun v => v.1.length = texts.length) (embedDense m texts cm variant guard) := by
  unfold embedDense
  refine Exec.okIn_after fun encs => Exec.okIn_after fun _ => ?_
  refine Exec.OkIn.bind (P := LoopState.Sized texts.length)
    (Exec.okIn_foldlM (fun st chunk h => denseChunk_sized m variant encs _ st chunk h) _ ?_) ?_
  · exact List.length_replicate
  · exact fun st h => Exec.okIn_pure h

/-- `expect` on every slot keeps their number -/
theorem okIn_expect {β : Type} {n : Nat} {slots : List (Option β)} {msg : String} (h : slots.length = n) :
    Exec.OkIn (fun r => r.length = n)
      (Exec.lift (slots.mapM (Outcome.expect msg)) : Exec Trace AnyError (List β)) :=
  Exec.okIn_lift fun _ hr => (Outcome.getElem?_of_mapM hr).1.trans h

theorem embedSparse_length :
    Exec.OkIn (fun v => v.1.length = texts.length) (embedSparse m texts cm variant guard) := by
  unfold embedSparse
  refine Exec.okIn_after fun encs => Exec.okIn_after fun _ => ?_
  refine Exec.OkIn.bind (P := LoopState.Sized texts.length)
    (Exec.okIn_foldlM (fun st chunk h => sparseChunk_sized m variant encs _ st chunk h) _ ?_) ?_
  · exact List.length_replicate
  · exact fun st h => (okIn_expect h).bind fun r hr => Exec.okIn_pure hr

theorem embedBoth_length :
    Exec.OkIn (fun v => v.1.length = texts.length) (embedBoth m texts cm variant guard) := by
  unfold embedBoth
  refine Exec.okIn_after fun encs => Exec.okIn_after fun _ => ?_
  refine Exec.OkIn.bind (P := LoopState.Sized texts.length)
    (Exec.okIn_foldlM (fun st chunk h => bothChunk_sized m variant encs _ st chunk h) _ ?_) ?_
  · exact List.length_replicate
  · exact fun st h => (okIn_expect h).bind fun r hr => Exec.okIn_pure hr

/-! ## a reply -/

/-- entries of a successful embed reply -/
def Reply.count : Reply F → Option Nat
  | .dense (.ok v) => some v.1.length
  | .sparse (.ok v) => some v.1.length
  | .both (.ok v) => some v.1.length
  | _ => none

/-- texts of an embed request -/
def EmbedRequest.size : EmbedRequest → Nat
  | .dense texts | .sparse texts | .both texts | .probe texts => texts.length
  | .adaptiveWarmup _ _ => 0

variable {texts}

/-- a retried call returns what one of the two calls returned -/
theorem okIn_retry {σ α : Type} {P : α → Prop} {f : CostModel → Exec σ AnyError α}
    (h : ∀ cm, Exec.OkIn P (f cm)) (cm : CostModel) : Exec.OkIn P (embedWithTrtRetry f cm) := by
  intro s a s' he
  unfold embedWithTrtRetry at he
  split at he
  · split at he
    · exact h _ _ _ _ he
    · cases he
  · rename_i hr
    exact h _ _ _ _ he

theorem okIn_called {α : Type} {P : α → Prop} {x : Exec Trace AnyError α} (cm : CostModel)
    (h : Exec.OkIn P x) : Exec.OkIn P (called cm x) := by
  intro d a d' he
  rw [called_apply] at he
  have hr : (x d.runs).1 = .ok a := congrArg Prod.fst he
  exact h d.runs a (x d.runs).2 (Prod.ext hr rfl)

theorem dispatchEmbed_ok {γ : Type} {P : γ × EmbedStats → Prop}
    {f : CostModel → Exec Trace AnyError (γ × EmbedStats)} (hf : ∀ cm, Exec.OkIn P (f cm))
    {text : String} {toReply : Except AnyError (γ × EmbedStats) → Reply F} {config : WorkerConfig}
    {env : Env} {cf n : Nat} {isClosed : Bool} {d d' : Desk} {r : Reply F} {out : DispatchOutcome}
    (h : dispatchEmbed f text toReply config env cf n isClosed d = (.ok (some r, out), d')) :
    (∃ v, r = toReply (.ok v) ∧ P v) ∨ ∃ e, r = toReply (.error e) := by
  unfold dispatchEmbed at h
  cases isClosed with
  | true => cases h
  | false =>
    rw [if_neg (by decide)] at h
    obtain ⟨x, d1, hx, h⟩ := Exec.bind_eq_ok h
    unfold embedRoute at hx
    split at hx
    · rename_i v d2 hv
      cases hx
      cases h
      exact .inl ⟨v, rfl, okIn_retry (fun cm => okIn_called cm (hf cm)) _ _ _ _ hv⟩
    · cases hx
      cases h
      exact .inr ⟨_, rfl⟩
    · cases hx

/-- **one entry for each text** -/
theorem dispatchRequest_count {host : Host} {config : WorkerConfig} {id cf : Nat} {env : Env}
    {req : EmbedRequest} {isClosed : Bool} {d d' : Desk} {r : Reply F} {out : DispatchOutcome} {n : Nat}
    (h : dispatchRequest m host config id env cf guard req isClosed d = (.ok (some r, out), d'))
    (hn : r.count = some n) : n = req.size := by
  cases req with
  | dense texts =>
    rcases dispatchEmbed_ok (fun cm => embedDense_length m config.modelVariant texts cm guard) h with
      ⟨v, rfl, hv⟩ | ⟨e, rfl⟩
    · exact (Option.some.inj hn).symm.trans hv
    · cases hn
  | sparse texts =>
    rcases dispatchEmbed_ok (fun cm => embedSparse_length m config.modelVariant texts cm guard) h with
      ⟨v, rfl, hv⟩ | ⟨e, rfl⟩
    · exact (Option.some.inj hn).symm.trans hv
    · cases hn
  | both texts =>
    rcases dispatchEmbed_ok (fun cm => embedBoth_length m config.modelVariant texts cm guard) h with
      ⟨v, rfl, hv⟩ | ⟨e, rfl⟩
    · exact (Option.some.inj hn).symm.trans hv
    · cases hn
  | probe texts =>
    unfold dispatchRequest at h
    dsimp only at h
    split at h <;> cases h <;> cases hn
  | adaptiveWarmup batch seq =>
    cases h
    cases hn

end
end EmbedServer
