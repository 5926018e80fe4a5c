import EmbedServer.Worker.Breaker

/-!
# A guard refusal, end to end

Only the guard produces a refusal (`chunk_errors`), its verdict does not depend on the budget, and the
refusal passes every layer above untouched: no retry, no failure counted, no session dropped, no
shape sent, status 503.
-/

set_option linter.unusedSectionVars false

namespace EmbedServer

section
variable {F : Type} [F32Ops F]

/-! ## errors that are not refusals -/

/-- the error is not a guard refusal -/
def NotRefusal (e : AnyError) : Prop := isTrtShapeRejected e = false

theorem notRefusal_msg (text : String) : NotRefusal (.msg text) := rfl
theorem notRefusal_shape (e : ShapeError) : NotRefusal (.ofShape e) := rfl

open Outcome (errIn_ok errIn_panic errIn_err)

theorem errIn_tensor (outs : Outputs F) (name : String) : (tensor outs name).ErrIn NotRefusal := by
  refine (Outcome.errIn_expect _ _).bind fun v => ?_
  cases v with
  | ok a => exact errIn_ok a
  | error e => exact errIn_err (notRefusal_msg e)

theorem errIn_denseEmb (variant : ModelVariant) (outs : Outputs F) :
    (denseEmb variant outs).ErrIn NotRefusal := by
  cases variant with
  | fp32 => exact errIn_tensor _ _
  | fp16 => exact (errIn_tensor _ _).bind fun t => Nd.errIn_indexAxis t 1 0
  | int8 => exact (errIn_tensor _ _).bind fun t => Nd.errIn_indexAxis t 1 0

theorem errIn_tokenEmb (variant : ModelVariant) (outs : Outputs F) :
    (tokenEmb variant outs).ErrIn NotRefusal := by
  cases variant <;> exact errIn_tensor _ _

theorem errIn_denseVec (emb : Nd F) (p : Nat) : (denseVec emb p).ErrIn NotRefusal :=
  (Nd.errIn_indexAxis emb 0 p).bind fun _ => errIn_ok _

theorem errIn_poolStep (mask : List Nat) (scores : List F) (w : List (Nat × F)) (p : Nat × Nat) :
    (poolStep mask scores w p : Outcome AnyError _).ErrIn NotRefusal := by
  refine (Outcome.errIn_index _ _).bind fun b => ?_
  split
  · exact errIn_ok _
  · split
    · exact errIn_ok _
    · refine (Outcome.errIn_index _ _).bind fun s => ?_
      split <;> exact errIn_ok _

theorem errIn_sparseMaxpool (ids mask : List Nat) (scores : List F) :
    (sparseMaxpool ids mask scores : Outcome AnyError _).ErrIn NotRefusal :=
  (Outcome.errIn_foldlM (errIn_poolStep mask scores) _ _).bind fun _ =>
    (Outcome.errIn_mapM (fun _ => Outcome.errIn_expect _ _) _).bind fun _ => errIn_ok _

theorem errIn_sparseVec (linear : SparseLinear F) (emb : Nd F) (enc : Encoding) (p : Nat) :
    (sparseVec linear emb enc p).ErrIn NotRefusal :=
  (Nd.errIn_indexAxis emb 0 p).bind fun b =>
    (Outcome.errIn_mapM (fun j => (Nd.errIn_indexAxis b 0 j).bind fun _ => errIn_ok _) _).bind fun _ =>
      (errIn_sparseMaxpool _ _ _).bind fun _ => errIn_ok _

theorem errIn_buildChunkArrays (encs : List Encoding) (c : List Nat) (padTo : Nat) :
    (buildChunkArrays encs c padTo).ErrIn NotRefusal := by
  have hshape : ∀ (shape : List Nat) (v : List Int),
      ((Nd.fromShapeVec shape v).mapErr AnyError.ofShape).ErrIn NotRefusal := by
    intro shape v
    cases Nd.fromShapeVec shape v with
    | ok a => exact errIn_ok a
    | err e => exact errIn_err (notRefusal_shape e)
    | panic m => exact errIn_panic m
  refine (Outcome.errIn_foldlM (fun flat i => (Outcome.errIn_index _ _).bind fun _ => errIn_ok _) _ _).bind
    fun flat => ?_
  exact (hshape _ _).bind fun _ => (hshape _ _).bind fun _ => errIn_ok _

theorem errIn_tensorRef (a : Nd Int) : (tensorRef a).ErrIn NotRefusal := by
  unfold tensorRef
  split
  · exact errIn_err (notRefusal_msg _)
  · exact errIn_ok _

theorem errIn_runSession (session : Session F) (x : ChunkArrays) :
    (runSession session x).ErrIn NotRefusal := by
  intro h e h' he
  unfold runSession at he
  cases ho : (session.run h x).outputs with
  | ok outs => simp [ho] at he
  | error msg =>
    simp only [ho, Prod.mk.injEq, Outcome.err.injEq] at he
    rw [← he.1]
    exact notRefusal_msg msg

theorem Route.errIn_chunk {β : Type} (R : Route F β) (hR : ∀ outs, (R.rows outs).ErrIn NotRefusal)
    (hrow : ∀ outs rows, R.rows outs = .ok rows → ∀ b p, (rows b p).ErrIn NotRefusal) (m : Models F)
    (encs : List Encoding) (lens : List Nat) (st : LoopState β) (c : List Nat) :
    (R.chunk m encs lens st c).ErrIn NotRefusal := by
  refine (Exec.errIn_lift (Outcome.errIn_mapM (fun i => Outcome.errIn_index lens i) c)).bind fun _ =>
    (Exec.errIn_lift (errIn_buildChunkArrays _ _ _)).bind fun _ =>
    (Exec.errIn_lift (errIn_tensorRef _)).bind fun _ =>
    (Exec.errIn_lift (errIn_tensorRef _)).bind fun _ =>
    (errIn_runSession _ _).bind fun r => Exec.errIn_lift_bind (hR _) fun rows hr =>
    (Exec.errIn_lift (errIn_scatter (hrow _ rows hr _) _ _)).bind fun _ => Exec.errIn_pure _

theorem errIn_denseChunk (m : Models F) (variant : ModelVariant) (encs : List Encoding)
    (lens : List Nat) (st : LoopState (List F)) (c : List Nat) :
    (denseChunk m variant encs lens st c).ErrIn NotRefusal := by
  rw [denseChunk_eq]
  refine Route.errIn_chunk _ (fun outs => (errIn_denseEmb _ _).bind fun _ => errIn_ok _) ?_ _ _ _ _ _
  intro outs rows hr b p
  obtain ⟨d, -, e⟩ := Outcome.bind_eq_ok.mp hr
  cases e
  exact (Outcome.errIn_debugAssert _ _).bind fun _ => errIn_denseVec _ _

theorem errIn_sparseChunk (m : Models F) (variant : ModelVariant) (encs : List Encoding)
    (lens : List Nat) (st : LoopState (Option (SparseEmbedding F))) (c : List Nat) :
    (sparseChunk m variant encs lens st c).ErrIn NotRefusal := by
  rw [sparseChunk_eq]
  refine Route.errIn_chunk _ (fun outs => (errIn_tokenEmb _ _).bind fun _ => errIn_ok _) ?_ _ _ _ _ _
  intro outs rows hr b p
  obtain ⟨t, -, e⟩ := Outcome.bind_eq_ok.mp hr
  cases e
  exact (Outcome.errIn_index _ _).bind fun _ => (errIn_sparseVec _ _ _ _).bind fun _ => errIn_ok _

theorem errIn_bothChunk (m : Models F) (variant : ModelVariant) (encs : List Encoding)
    (lens : List Nat) (st : LoopState (Option (DualEmbedding F))) (c : List Nat) :
    (bothChunk m variant encs lens st c).ErrIn NotRefusal := by
  rw [bothChunk_eq]
  have hemb : ∀ outs : Outputs F, (bothEmb variant outs).ErrIn NotRefusal := by
    intro outs
    rw [bothEmb_eq]
    exact (errIn_denseEmb _ _).bind fun _ => (errIn_tokenEmb _ _).bind fun _ => errIn_ok _
  refine Route.errIn_chunk _ (fun outs => (hemb outs).bind fun _ => errIn_ok _) ?_ _ _ _ _ _
  intro outs rows hr b p
  obtain ⟨e, -, he⟩ := Outcome.bind_eq_ok.mp hr
  cases he
  exact (errIn_denseVec _ _).bind fun _ => (Outcome.errIn_index _ _).bind fun _ =>
    (errIn_sparseVec _ _ _ _).bind fun _ => errIn_ok _

/-! ## an embed call is refused by the guard or not at all -/

/-- what the guard means to an embed call on tokenized texts: an uncovered text and the call is over
before any run, no such text and no error of the call is a refusal -/
structure GuardDecides {γ : Type} (g : TrtJitGuard) (lens : List Nat)
    (f : CostModel → Exec Trace AnyError γ) : Prop where
  refused : Uncovered g lens → ∀ cm h, ∃ r : TrtJitRejection, f cm h = (.err (.ofRejection r), h)
  admitted : ¬ Uncovered g lens → ∀ cm, (f cm).ErrIn NotRefusal

section
variable {m : Models F} {texts : List String} {encs : List Encoding} {g : TrtJitGuard}
  {variant : ModelVariant}

/-- the guard in front of a loop -/
theorem guardDecides_prelude {γ : Type} {f k : CostModel → Exec Trace AnyError γ}
    (hk : ∀ cm, (k cm).ErrIn NotRefusal)
    (hf : ∀ cm, f cm = Exec.lift ((guardChunks (some g) (chunksOf m cm encs) (seqLens encs)).mapErr
      AnyError.ofRejection) >>= fun _ => k cm) : GuardDecides g (seqLens encs) f where
  refused hu cm h := by
    obtain ⟨c, -, hr⟩ := (guardChunks_binPack g (seqLens encs) m.sort cm).1 hu
    refine ⟨rejectionOf g (seqLens encs) c, ?_⟩
    rw [hf cm, chunksOf, hr]
    rfl
  admitted hu cm := by
    rw [hf cm, chunksOf, (guardChunks_binPack g (seqLens encs) m.sort cm).2 hu]
    exact hk cm

variable (ht : m.tokenizer.encodeBatchFast texts = .ok encs)
include ht

theorem guardDecides_dense :
    GuardDecides g (seqLens encs) fun cm => embedDense m texts cm variant (some g) := by
  refine guardDecides_prelude (m := m) (k := fun cm => do
    let st ← (chunksOf m cm encs).foldlM (denseChunk m variant encs (seqLens encs))
      ⟨List.replicate texts.length [], 0, 0⟩
    pure (st.slots, embedStats m.tokenizer texts (seqLens encs) (chunksOf m cm encs) st.maxChunkSeq
      st.inferenceMs)) (fun cm => ?_) (fun cm => ?_)
  · exact (Exec.errIn_foldlM (errIn_denseChunk m variant encs _) _ _).bind fun _ => Exec.errIn_pure _
  · rw [embedDense, tokenizeNoPad, ht]
    rfl

theorem guardDecides_sparse :
    GuardDecides g (seqLens encs) fun cm => embedSparse m texts cm variant (some g) := by
  refine guardDecides_prelude (m := m) (k := fun cm => do
    let st ← (chunksOf m cm encs).foldlM (sparseChunk m variant encs (seqLens encs))
      ⟨List.replicate texts.length none, 0, 0⟩
    let result ← Exec.lift (st.slots.mapM (Outcome.expect "every slot must be filled"))
    pure (result, embedStats m.tokenizer texts (seqLens encs) (chunksOf m cm encs) st.maxChunkSeq
      st.inferenceMs)) (fun cm => ?_) (fun cm => ?_)
  · exact (Exec.errIn_foldlM (errIn_sparseChunk m variant encs _) _ _).bind fun _ =>
      (Exec.errIn_lift (Outcome.errIn_mapM (fun _ => Outcome.errIn_expect _ _) _)).bind fun _ =>
        Exec.errIn_pure _
  · rw [embedSparse, tokenizeNoPad, ht]
    rfl

theorem guardDecides_both :
    GuardDecides g (seqLens encs) fun cm => embedBoth m texts cm variant (some g) := by
  refine guardDecides_prelude (m := m) (k := fun cm => do
    let st ← (chunksOf m cm encs).foldlM (bothChunk m variant encs (seqLens encs))
      ⟨List.replicate texts.length none, 0, 0⟩
    let result ← Exec.lift (st.slots.mapM (Outcome.expect "every slot must be filled"))
    pure (result, embedStats m.tokenizer texts (seqLens encs) (chunksOf m cm encs) st.maxChunkSeq
      st.inferenceMs)) (fun cm => ?_) (fun cm => ?_)
  · exact (Exec.errIn_foldlM (errIn_bothChunk m variant encs _) _ _).bind fun _ =>
      (Exec.errIn_lift (Outcome.errIn_mapM (fun _ => Outcome.errIn_expect _ _) _)).bind fun _ =>
        Exec.errIn_pure _
  · rw [embedBoth, tokenizeNoPad, ht]
    rfl

end

/-! ## through the retry, the outcome and the worker loop -/

/-- the error a reply carries -/
def Reply.error? : Reply F → Option AnyError
  | .dense (.error e) | .sparse (.error e) | .both (.error e) | .probe (.error e)
  | .warmup (.error e) => some e
  | _ => none

/-- one attempt of an embed request, its results dropped -/
def EmbedRequest.attempt (m : Models F) (variant : ModelVariant) (guard : Option TrtJitGuard)
    (req : EmbedRequest) (cm : CostModel) : Exec Trace AnyError Unit :=
  match req with
  | .dense texts => embedDense m texts cm variant guard >>= fun _ => pure ()
  | .sparse texts => embedSparse m texts cm variant guard >>= fun _ => pure ()
  | .both texts => embedBoth m texts cm variant guard >>= fun _ => pure ()
  | .probe _ | .adaptiveWarmup _ _ => pure ()

/-- the call returned a refusal -/
def Refused {α : Type} (r : Outcome AnyError α × Trace) : Prop :=
  ∃ e, r.1 = .err e ∧ isTrtShapeRejected e = true

section
variable {γ : Type} {g : TrtJitGuard} {lens : List Nat} {f : CostModel → Exec Trace AnyError γ}

theorem GuardDecides.refused_iff (hf : GuardDecides g lens f) (cm : CostModel) (h : Trace) :
    Refused ((f cm >>= fun _ => pure ()) h : Outcome AnyError Unit × Trace) ↔ Uncovered g lens := by
  constructor
  · rintro ⟨e, he, hrej⟩
    by_contra hu
    obtain ⟨r, h', hr⟩ : ∃ r h', f cm h = (r, h') := ⟨_, _, rfl⟩
    rw [Exec.bind_apply, hr] at he
    cases r with
    | ok v => cases he
    | panic msg => cases he
    | err e' =>
      cases he
      have hno := hf.admitted hu cm h e h' hr
      rw [NotRefusal, hrej] at hno
      cases hno
  · intro hu
    obtain ⟨r, hr⟩ := hf.refused hu cm h
    refine ⟨.ofRejection r, ?_, (isTrtShapeRejected_iff _).mpr ⟨r, rfl⟩⟩
    rw [Exec.bind_of_err _ hr]

variable {f : CostModel → Exec Trace AnyError (γ × EmbedStats)} (config : WorkerConfig) (env : Env)
  (cf n : Nat)

/-- a refused call comes back as an error of its route, with nothing else changed -/
theorem embedRoute_refused (hf : GuardDecides g lens f) (hu : Uncovered g lens) {text : String}
    (ht : text ∈ routeContexts) (d : Desk) :
    ∃ r : TrtJitRejection, embedRoute f text config env cf n d =
      (.ok (.error ((AnyError.ofRejection r).context text), .rejected),
        { d with calls := d.calls ++ [env.costModel] }) := by
  obtain ⟨r, hr⟩ := hf.refused hu env.costModel d.runs
  refine ⟨r, ?_⟩
  have hcall : embedWithTrtRetry (fun cm => called cm (f cm)) env.costModel d =
      (.err (.ofRejection r), { d with calls := d.calls ++ [env.costModel] }) := by
    simp [embedWithTrtRetry, called_apply, hr, isTrtJitOom_rejection]
  have hout : outcomeOf (.error ((AnyError.ofRejection r).context text) : Except AnyError (γ × EmbedStats))
      cf config.circuitBreakerThreshold = .rejected := by
    simp [outcomeOf, isTrtEngineBuildFatal_rejection r ht, isTrtShapeRejected_rejection,
      classifyInferenceOutcome]
  simp [embedRoute, hcall, finalizeEmbedRoute, hout]

/-- an admitted call never ends in a refusal, retried or not -/
theorem embedRoute_admitted (hf : GuardDecides g lens f) (hu : ¬ Uncovered g lens) (text : String)
    (d : Desk) {e : AnyError} {out : InferenceOutcome} {d' : Desk}
    (h : embedRoute f text config env cf n d = (.ok (.error e, out), d')) :
    isTrtShapeRejected e = false := by
  have hcall : ∀ cm (d : Desk) e d', called cm (f cm) d = (.err e, d') → NotRefusal e := by
    intro cm d e d' hc
    rw [called_apply] at hc
    have h1 := congrArg Prod.fst hc
    exact hf.admitted hu cm d.runs e (f cm d.runs).2 (Prod.ext h1 rfl)
  have hretry : ∀ e d', embedWithTrtRetry (fun cm => called cm (f cm)) env.costModel d = (.err e, d') →
      NotRefusal e := by
    intro e d' hr
    unfold embedWithTrtRetry at hr
    split at hr
    · rename_i e1 d1 h1
      split at hr
      · exact hcall _ _ _ _ hr
      · cases hr
        exact hcall _ _ _ _ h1
    · exact hcall _ _ _ _ hr
  have hctx : ∀ e : AnyError, NotRefusal e → isTrtShapeRejected (e.context text) = false := by
    intro e he
    unfold NotRefusal at he
    rw [Bool.eq_false_iff] at he ⊢
    exact fun hrej => he ((isTrtShapeRejected_iff e).mpr ((isTrtShapeRejected_iff _).mp hrej))
  unfold embedRoute at h
  split at h
  · cases h
  · rename_i e1 d1 h1
    cases h
    exact hctx e1 (hretry e1 d1 h1)
  · cases h

variable (toReply : Except AnyError (γ × EmbedStats) → Reply F)

theorem dispatchEmbed_refused (hf : GuardDecides g lens f) (hu : Uncovered g lens) {text : String}
    (ht : text ∈ routeContexts) (d : Desk) :
    ∃ r : TrtJitRejection, dispatchEmbed f text toReply config env cf n false d =
      (.ok (some (toReply (.error ((AnyError.ofRejection r).context text))), ⟨.rejected, false⟩),
        { d with calls := d.calls ++ [env.costModel] }) := by
  obtain ⟨r, hr⟩ := embedRoute_refused config env cf n hf hu ht d
  refine ⟨r, ?_⟩
  rw [dispatchEmbed, if_neg (by decide)]
  exact Exec.bind_of_ok _ hr

theorem dispatchEmbed_admitted (hf : GuardDecides g lens f) (hu : ¬ Uncovered g lens) (text : String)
    (hr : ∀ r, (toReply r).error? = match r with | .error e => some e | .ok _ => none)
    (d : Desk) {reply : Reply F} {out : DispatchOutcome} {d' : Desk}
    (h : dispatchEmbed f text toReply config env cf n false d = (.ok (some reply, out), d'))
    {e : AnyError} (he : reply.error? = some e) : isTrtShapeRejected e = false := by
  rw [dispatchEmbed, if_neg (by decide)] at h
  obtain ⟨x, d1, hx⟩ : ∃ x d1, embedRoute f text config env cf n d = (x, d1) := ⟨_, _, rfl⟩
  rw [Exec.bind_apply, hx] at h
  cases x with
  | err e => cases h
  | panic msg => cases h
  | ok v =>
    obtain ⟨result, o⟩ := v
    cases h
    rw [hr] at he
    cases result with
    | ok v => cases he
    | error e' =>
      cases he
      exact embedRoute_admitted config env cf n hf hu text d hx

end

/-! ## the worker loop -/

section
variable (host : Host) (config : WorkerConfig) (id : Nat) {m : Models F} (runs : Trace) (w : Worker F)
  (sh : Shared) (env : Env) {texts : List String} {encs : List Encoding}

/-- the three routes at once -/
theorem dispatch_guarded (g : TrtJitGuard) (cf : Nat) (d : Desk) {req : EmbedRequest}
    (hreq : req.embedTexts = some texts) (ht : m.tokenizer.encodeBatchFast texts = .ok encs) :
    (∀ cm h, Refused (req.attempt m config.modelVariant (some g) cm h) ↔ Uncovered g (seqLens encs)) ∧
    (Uncovered g (seqLens encs) → ∃ reply e, dispatchRequest m host config id env cf (some g) req false d =
        (.ok (some reply, ⟨.rejected, false⟩), { d with calls := d.calls ++ [env.costModel] }) ∧
      reply.error? = some e ∧ isTrtShapeRejected e = true) ∧
    (¬ Uncovered g (seqLens encs) → ∀ reply out d',
      dispatchRequest m host config id env cf (some g) req false d = (.ok (some reply, out), d') →
      ∀ e, reply.error? = some e → isTrtShapeRejected e = false) := by
  cases req with
  | dense t =>
    cases hreq
    have hf : GuardDecides g (seqLens encs) fun cm =>
        embedDense m texts cm config.modelVariant (some g) := guardDecides_dense ht
    refine ⟨fun cm h => hf.refused_iff cm h, fun hu => ?_, fun hu reply out d' h e he => ?_⟩
    · obtain ⟨r, hr⟩ := dispatchEmbed_refused config env cf texts.length .dense hf hu
        (by decide : "Dense embed error" ∈ routeContexts) d
      exact ⟨_, _, hr, rfl, isTrtShapeRejected_rejection r _⟩
    · exact dispatchEmbed_admitted config env cf texts.length .dense hf hu "Dense embed error"
        (fun r => by cases r <;> rfl) d h he
  | sparse t =>
    cases hreq
    have hf : GuardDecides g (seqLens encs) fun cm =>
        embedSparse m texts cm config.modelVariant (some g) := guardDecides_sparse ht
    refine ⟨fun cm h => hf.refused_iff cm h, fun hu => ?_, fun hu reply out d' h e he => ?_⟩
    · obtain ⟨r, hr⟩ := dispatchEmbed_refused config env cf texts.length .sparse hf hu
        (by decide : "Sparse embed error" ∈ routeContexts) d
      exact ⟨_, _, hr, rfl, isTrtShapeRejected_rejection r _⟩
    · exact dispatchEmbed_admitted config env cf texts.length .sparse hf hu "Sparse embed error"
        (fun r => by cases r <;> rfl) d h he
  | both t =>
    cases hreq
    have hf : GuardDecides g (seqLens encs) fun cm =>
        embedBoth m texts cm config.modelVariant (some g) := guardDecides_both ht
    refine ⟨fun cm h => hf.refused_iff cm h, fun hu => ?_, fun hu reply out d' h e he => ?_⟩
    · obtain ⟨r, hr⟩ := dispatchEmbed_refused config env cf texts.length .both hf hu
        (by decide : "Dual embed error" ∈ routeContexts) d
      exact ⟨_, _, hr, rfl, isTrtShapeRejected_rejection r _⟩
    · exact dispatchEmbed_admitted config env cf texts.length .both hf hu "Dual embed error"
        (fun r => by cases r <;> rfl) d h he
  | probe t => cases hreq
  | adaptiveWarmup b s => cases hreq

/-- a refused embed request shows up as a failed embed call -/
theorem dispatch_embedded {g : TrtJitGuard} {cf : Nat} {d d' : Desk} {req : EmbedRequest}
    (hreq : req.embedTexts = some texts) {reply : Reply F} {out : DispatchOutcome}
    (h : dispatchRequest m host config id env cf (some g) req false d = (.ok (some reply, out), d'))
    {e : AnyError} (he : reply.error? = some e) : reply.embedded = some (some e) := by
  have hd := dispatch_cases host config id m env cf (some g) req false d
  rw [h] at hd
  cases hd with
  | called _ _ err hr =>
    cases reply with
    | dense r | sparse r | both r => cases r <;> cases he; rfl
    | probe r | warmup r => cases hr
  | other hnone _ =>
    rw [hreq] at hnone
    cases hnone

/-- **A guard refusal is exact, atomic and harmless.**  On a loaded worker, an embed request with an
open reply and tokenized texts is refused exactly when some text is dangerous and uncovered, under
every cost model.  A refused request is one embed call without a run; it is classified `rejected`, so
the failure counter, the session, `loaded_workers`, `warmed_local`, the ceiling and both channels stay
as they were, and it is answered with 503.  What one attempt admits, no other attempt refuses. -/
theorem refusal_exact_and_harmless {g : TrtJitGuard} (hg : buildShapeGuard config sh.ceiling = some g)
    (hm : w.models = some (m, runs)) {req : EmbedRequest} (hreq : req.embedTexts = some texts)
    (ht : m.tokenizer.encodeBatchFast texts = .ok encs) (load : Except String (Models F)) :
    ((∃ reply e, (handleMsg host config id w sh (.request req false load env)).reply = some reply ∧
        reply.error? = some e ∧ isTrtShapeRejected e = true) ↔ Uncovered g (seqLens encs)) ∧
    (Uncovered g (seqLens encs) →
      ∃ reply e,
        dispatchRequest m host config id env w.consecutiveFailures (some g) req false (deskOf runs w sh) =
          (.ok (some reply, ⟨.rejected, false⟩),
            { deskOf runs w sh with calls := sh.calls ++ [env.costModel] }) ∧
        handleMsg host config id w sh (.request req false load env) =
          ⟨w, { sh with calls := sh.calls ++ [env.costModel] }, some reply, some (some e), .again⟩ ∧
        reply.error? = some e ∧ (AppError.ofAnyhow e).status = 503 ∧
        AppError.ofAnyhow e = .serviceUnavailable
          "embedding temporarily unavailable for this input size; please retry") ∧
    (∀ cm h h', ¬ Refused (req.attempt m config.modelVariant (some g) cm h) →
      ¬ Refused (req.attempt m config.modelVariant (some g) cm.halved h')) := by
  obtain ⟨hiff, href, hadm⟩ := dispatch_guarded host config id env g w.consecutiveFailures
    (deskOf runs w sh) hreq ht
  have hserve : handleMsg host config id w sh (.request req false load env) =
      serve host config id m runs w sh req false env := by
    simp only [handleMsg, ensureModels, hm]
  have hrefused : Uncovered g (seqLens encs) → ∃ reply e,
      dispatchRequest m host config id env w.consecutiveFailures (some g) req false (deskOf runs w sh) =
        (.ok (some reply, ⟨.rejected, false⟩),
          { deskOf runs w sh with calls := sh.calls ++ [env.costModel] }) ∧
      handleMsg host config id w sh (.request req false load env) =
        ⟨w, { sh with calls := sh.calls ++ [env.costModel] }, some reply, some (some e), .again⟩ ∧
      reply.error? = some e ∧ isTrtShapeRejected e = true := by
    intro hu
    obtain ⟨reply, e, hd, he, hrej⟩ := href hu
    have hemb := dispatch_embedded host config id env hreq hd he
    refine ⟨reply, e, hd, ?_, he, hrej⟩
    rw [hserve]
    obtain ⟨models, cf, wl⟩ := w
    subst hm
    unfold serve
    simp only [hg, hd, afterDispatch, Option.bind_some, hemb, nextConsecutiveFailures,
      shouldUnloadOnOutcome]
    rfl
  refine ⟨⟨?_, ?_⟩, ?_, ?_⟩
  · rintro ⟨reply, e, hreply, he, hrej⟩
    by_contra hu
    rw [hserve] at hreply
    obtain ⟨out, d, hd⟩ := serve_reply host config id hreply
    rw [hg] at hd
    rw [hadm hu reply out d hd e he] at hrej
    cases hrej
  · intro hu
    obtain ⟨reply, e, -, hit, he, hrej⟩ := hrefused hu
    exact ⟨reply, e, by rw [hit], he, hrej⟩
  · intro hu
    obtain ⟨reply, e, hd, hit, he, hrej⟩ := hrefused hu
    exact ⟨reply, e, hd, hit, he, by simp [AppError.ofAnyhow, hrej, AppError.status],
      by simp [AppError.ofAnyhow, hrej]⟩
  · intro cm h h' hno hyes
    exact hno ((hiff cm h).mpr ((hiff cm.halved h').mp hyes))

end
end

/-! ## a worker to try it on -/

/-- TensorRT with the guard from `guardSeq` tokens on, both channels connected -/
def trtConfig (guardSeq : Nat) : WorkerConfig :=
  ⟨.tensorRt, .fp16, 5, true, true, true, guardSeq, [], true⟩

/-- seven tokens, guarded from four on, warmed up to three: refused -/
theorem refusal_exact_and_harmless_lorem :
    ∃ reply e, (handleMsg bareHost (trtConfig 4) 0 ⟨some (echoModels, []), 2, []⟩ ⟨1, 3, [], [], []⟩
        (.request (.dense ["lorem"]) false (.error "no reload") ⟨⟨1, 1, 100⟩, true⟩)).reply = some reply ∧
      reply.error? = some e ∧ isTrtShapeRejected e = true :=
  (refusal_exact_and_harmless bareHost (trtConfig 4) 0 (m := echoModels) [] ⟨some (echoModels, []), 2, []⟩
    ⟨1, 3, [], [], []⟩ ⟨⟨1, 1, 100⟩, true⟩ (g := ⟨4, 3⟩) rfl rfl rfl rfl (.error "no reload")).1.mpr
    ⟨7, by simp [seqLens, charEncoding], by decide, by decide⟩

end EmbedServer
