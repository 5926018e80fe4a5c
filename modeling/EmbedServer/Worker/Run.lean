import EmbedServer.Worker.Dispatch

/-!
# The request loop of a worker (`worker/run.rs`)

`iteration` is one turn of the loop of `run_worker`: drain the propagation channel, wait for a message,
reload the models if they are gone, dispatch, act on the outcome.  Everything the turn reads from
outside is in its `Event`; the counters and channels shared with the other workers are in `Shared`.
-/

set_option linter.unusedSectionVars false

namespace EmbedServer

/-- atomic counters are 64-bit and wrap -/
def counterSize : Nat := 2 ^ 64

/-- `fetch_add(1)` -/
def fetchAdd1 (n : Nat) : Nat := if n + 1 = counterSize then 0 else n + 1

/-- `fetch_sub(1)` -/
def fetchSub1 (n : Nat) : Nat := if n = 0 then counterSize - 1 else n - 1

/-- what the blocking receive comes back with -/
inductive Msg (F : Type) where
  /-- the idle timeout elapsed -/
  | elapsed
  /-- all senders are gone -/
  | closed
  /-- a request; `isClosed` is its reply channel at dispatch, `load` the result of a model reload if
  one is needed -/
  | request (req : EmbedRequest) (isClosed : Bool) (load : Except String (Models F)) (env : Env)

structure Event (F : Type) where
  /-- shapes waiting on the propagation channel -/
  drained : List Shape
  msg : Msg F

/-- local variables of `run_worker`; a loaded session comes with the inputs run on it -/
structure Worker (F : Type) where
  models : Option (Models F × Trace)
  consecutiveFailures : Nat
  warmedLocal : List Shape

/-- shared with the other workers -/
structure Shared where
  loadedWorkers : Nat
  ceiling : Nat
  jitSent : List Shape
  propSent : List Shape
  calls : List CostModel
deriving DecidableEq, Repr

/-- how a turn of the loop ends -/
inductive Next where
  | again
  | shutdown
  | fatal
  | panicked
deriving DecidableEq, Repr

structure Iteration (F : Type) where
  worker : Worker F
  shared : Shared
  /-- sent on the reply channel of the request -/
  reply : Option (Reply F)
  /-- the embed call of the request, if one was made: `none` for success, else its error -/
  embedded : Option (Option AnyError)
  next : Next

section
variable {F : Type} [F32Ops F] (host : Host) (config : WorkerConfig) (id : Nat)

/-- session runs, `warmed_local` and the ceiling during a drain -/
structure DrainState where
  runs : Trace
  warmedLocal : List Shape
  ceiling : Nat

/-- one notification of `drain_engine_propagation` -/
def drainStep (m : Models F) (st : DrainState) (shape : Shape) : DrainState :=
  if st.warmedLocal.contains shape then st
  else
    let (stats, runs) := trtPrewarm m.session host [shape] st.runs
    { runs
      warmedLocal := insertShape st.warmedLocal shape
      ceiling :=
        if stats.warmed > 0 || stats.fullyCached then max st.ceiling (max stats.maxWarmedSeq shape.2)
        else st.ceiling }

def drainEnginePropagation (w : Worker F) (sh : Shared) (shapes : List Shape) : Worker F × Shared :=
  match w.models with
  | some (m, runs) =>
    if config.ep = .tensorRt ∧ config.enginePropagationTx then
      let st := shapes.foldl (drainStep host m) ⟨runs, w.warmedLocal, sh.ceiling⟩
      ({ w with models := some (m, st.runs), warmedLocal := st.warmedLocal },
        { sh with ceiling := st.ceiling })
    else (w, sh)
  | none => (w, sh)

/-- `reply_request_load_error` -/
def replyRequestLoadError (req : EmbedRequest) (err : AnyError) : Reply F :=
  match req with
  | .dense _ => .dense (.error err)
  | .sparse _ => .sparse (.error err)
  | .both _ => .both (.error err)
  | .probe _ => .probe (.error err)
  | .adaptiveWarmup _ _ => .warmup (.error err)

/-- the embed call a reply reports -/
def Reply.embedded : Reply F → Option (Option AnyError)
  | .dense (.ok _) | .sparse (.ok _) | .both (.ok _) => some none
  | .dense (.error e) | .sparse (.error e) | .both (.error e) => some (some e)
  | .probe _ | .warmup _ => none

/-- the models for a request: the loaded ones, or freshly loaded and primed with one run -/
def ensureModels (w : Worker F) (sh : Shared) (load : Except String (Models F)) :
    Except AnyError (Models F × Trace × Shared) :=
  match w.models with
  | some (m, runs) => .ok (m, runs, sh)
  | none =>
    match load with
    | .ok m => .ok (m, (probeRunDense m.session host (warmupArrays 1 8) []).2,
        { sh with loadedWorkers := fetchAdd1 sh.loadedWorkers })
    | .error e => .error (.msg ("Model reload failed: " ++ e))

/-- the desk a loaded worker puts in front of a request -/
def deskOf (runs : Trace) (w : Worker F) (sh : Shared) : Desk :=
  ⟨runs, w.warmedLocal, sh.ceiling, sh.jitSent, sh.propSent, sh.calls⟩

/-- the shared state with what the request left on the desk -/
def Shared.put (sh : Shared) (d : Desk) : Shared :=
  ⟨sh.loadedWorkers, d.ceiling, d.jitSent, d.propSent, d.calls⟩

/-- what follows from the outcome of a dispatched request -/
def afterDispatch (m : Models F) (w : Worker F) (sh : Shared) (reply : Option (Reply F))
    (out : DispatchOutcome) (d : Desk) : Iteration F :=
  let w := { w with models := some (m, d.runs), warmedLocal := d.warmedLocal }
  let sh := sh.put d
  let embedded := reply.bind Reply.embedded
  if out.skip then ⟨w, sh, reply, embedded, .again⟩
  else
    let w := { w with
      consecutiveFailures := nextConsecutiveFailures out.outcome w.consecutiveFailures }
    if out.outcome = .trtFatal then ⟨w, sh, reply, embedded, .fatal⟩
    else if shouldUnloadOnOutcome out.outcome then
      ⟨{ w with models := none }, { sh with loadedWorkers := fetchSub1 sh.loadedWorkers }, reply,
        embedded, .again⟩
    else ⟨w, sh, reply, embedded, .again⟩

/-- dispatch on loaded models -/
def serve (m : Models F) (runs : Trace) (w : Worker F) (sh : Shared) (req : EmbedRequest)
    (isClosed : Bool) (env : Env) : Iteration F :=
  match dispatchRequest m host config id env w.consecutiveFailures (buildShapeGuard config sh.ceiling)
    req isClosed (deskOf runs w sh) with
  | (.ok (reply, out), d) => afterDispatch m w sh reply out d
  -- nothing catches a panic of the worker thread; `dispatch_request` returns no error
  | (.err _, d) | (.panic _, d) =>
    ⟨{ w with models := some (m, d.runs), warmedLocal := d.warmedLocal }, sh.put d, none, none,
      .panicked⟩

/-- one turn of the loop, after the drain -/
def handleMsg (w : Worker F) (sh : Shared) (msg : Msg F) : Iteration F :=
  match msg with
  | .elapsed =>
    ⟨{ w with models := none }, { sh with loadedWorkers := fetchSub1 sh.loadedWorkers }, none, none,
      .again⟩
  | .closed =>
    ⟨w, if w.models.isSome then { sh with loadedWorkers := fetchSub1 sh.loadedWorkers } else sh, none,
      none, .shutdown⟩
  | .request req isClosed load env =>
    match ensureModels host w sh load with
    | .ok (m, runs, sh) => serve host config id m runs w sh req isClosed env
    | .error e => ⟨w, sh, some (replyRequestLoadError req e), none, .again⟩

def iteration (w : Worker F) (sh : Shared) (ev : Event F) : Iteration F :=
  let (w, sh) := drainEnginePropagation host config w sh ev.drained
  handleMsg host config id w sh ev.msg

/-! ## small facts -/

/-- what is left of a dispatch, whatever its outcome: the reply, and the desk with the models or without -/
structure Iteration.Keeps (it : Iteration F) (m : Models F) (r : Option (Reply F)) (d : Desk) : Prop where
  reply : it.reply = r
  embedded : it.embedded = r.bind Reply.embedded
  models : it.worker.models = some (m, d.runs) ∨ it.worker.models = none
  warmedLocal : it.worker.warmedLocal = d.warmedLocal
  ceiling : it.shared.ceiling = d.ceiling
  jitSent : it.shared.jitSent = d.jitSent
  propSent : it.shared.propSent = d.propSent
  calls : it.shared.calls = d.calls

theorem afterDispatch_keeps (m : Models F) (w : Worker F) (sh : Shared) (reply : Option (Reply F))
    (out : DispatchOutcome) (d : Desk) : (afterDispatch m w sh reply out d).Keeps m reply d := by
  unfold afterDispatch
  dsimp only
  split
  · exact ⟨rfl, rfl, .inl rfl, rfl, rfl, rfl, rfl, rfl⟩
  · split
    · exact ⟨rfl, rfl, .inl rfl, rfl, rfl, rfl, rfl, rfl⟩
    · split
      · exact ⟨rfl, rfl, .inr rfl, rfl, rfl, rfl, rfl, rfl⟩
      · exact ⟨rfl, rfl, .inl rfl, rfl, rfl, rfl, rfl, rfl⟩

/-- a session that is still there is that of the dispatch, with the runs it left -/
theorem Iteration.Keeps.models_eq {it : Iteration F} {m m' : Models F} {reply : Option (Reply F)} {d : Desk}
    {runs : Trace} (hk : it.Keeps m reply d) (h : it.worker.models = some (m', runs)) :
    m' = m ∧ runs = d.runs := by
  rcases hk.models with hm | hm
  · rw [hm] at h
    cases h
    exact ⟨rfl, rfl⟩
  · rw [hm] at h
    cases h

/-- texts of an embed request -/
def EmbedRequest.embedTexts : EmbedRequest → Option (List String)
  | .dense texts | .sparse texts | .both texts => some texts
  | .probe _ | .adaptiveWarmup _ _ => none

/-- outcome of an embed call, by its error -/
def outcomeOfCall (err : Option AnyError) (consecutiveFailures threshold : Nat) : InferenceOutcome :=
  match err with
  | none => .ok
  | some e => classifyInferenceOutcome (isTrtEngineBuildFatal e) (isTrtShapeRejected e) true
      consecutiveFailures threshold

theorem embedRoute_cases {γ : Type} {f : CostModel → Exec Trace AnyError (γ × EmbedStats)} {text : String}
    {env : Env} {cf n : Nat} {d d' : Desk} {r : Outcome AnyError _}
    (h : embedRoute f text config env cf n d = (r, d')) :
    (∃ result, r = .ok (result, outcomeOf result cf config.circuitBreakerThreshold)) ∨
      ∃ msg, r = .panic msg := by
  unfold embedRoute at h
  split at h
  · cases h
    exact .inl ⟨_, rfl⟩
  · cases h
    exact .inl ⟨_, rfl⟩
  · cases h
    exact .inr ⟨_, rfl⟩

/-- what a dispatch can come to -/
inductive Dispatched (config : WorkerConfig) (cf : Nat) (req : EmbedRequest) (isClosed : Bool) :
    Outcome AnyError (Option (Reply F) × DispatchOutcome) → Prop
  /-- the client of an embed request is gone -/
  | skipped (hreq : req.embedTexts.isSome) (hc : isClosed = true) :
      Dispatched config cf req isClosed (.ok (none, ⟨.ok, true⟩))
  /-- the embed call ended with error `err`, or with success -/
  | called (hreq : req.embedTexts.isSome) (hc : isClosed = false) {reply : Reply F}
      (err : Option AnyError) (hr : reply.embedded = some err) :
      Dispatched config cf req isClosed
        (.ok (some reply, ⟨outcomeOfCall err cf config.circuitBreakerThreshold, false⟩))
  /-- a probe or a warmup was answered -/
  | other (hreq : req.embedTexts = none) {reply : Reply F} (hr : reply.embedded = none) :
      Dispatched config cf req isClosed (.ok (some reply, ⟨.ok, false⟩))
  | panicked (msg : String) : Dispatched config cf req isClosed (.panic msg)

theorem dispatchEmbed_cases {γ : Type} {f : CostModel → Exec Trace AnyError (γ × EmbedStats)}
    {text : String} {toReply : Except AnyError (γ × EmbedStats) → Reply F} {env : Env} {cf n : Nat}
    {isClosed : Bool} {d : Desk} {req : EmbedRequest} (hreq : req.embedTexts.isSome)
    (hr : ∀ r, (toReply r).embedded = some (match r with | .error e => some e | .ok _ => none)) :
    Dispatched config cf req isClosed
      (dispatchEmbed f text toReply config env cf n isClosed d).1 := by
  unfold dispatchEmbed
  cases isClosed with
  | true => exact .skipped hreq rfl
  | false =>
    rw [if_neg (by decide)]
    obtain ⟨x, d1, hx⟩ : ∃ x d1, embedRoute f text config env cf n d = (x, d1) := ⟨_, _, rfl⟩
    rw [Exec.bind_apply, hx]
    rcases embedRoute_cases config hx with ⟨result, rfl⟩ | ⟨msg, rfl⟩
    · cases result with
      | ok v => exact .called hreq rfl none (hr (.ok v))
      | error e => exact .called hreq rfl (some e) (hr (.error e))
    · exact .panicked msg

theorem dispatch_cases (m : Models F) (env : Env) (cf : Nat) (guard : Option TrtJitGuard)
    (req : EmbedRequest) (isClosed : Bool) (d : Desk) :
    Dispatched config cf req isClosed
      (dispatchRequest m host config id env cf guard req isClosed d).1 := by
  cases req with
  | dense texts => exact dispatchEmbed_cases config rfl fun r => by cases r <;> rfl
  | sparse texts => exact dispatchEmbed_cases config rfl fun r => by cases r <;> rfl
  | both texts => exact dispatchEmbed_cases config rfl fun r => by cases r <;> rfl
  | probe texts =>
    unfold dispatchRequest
    dsimp only
    split
    · exact .other rfl rfl
    · exact .other rfl rfl
    · exact .panicked _
  | adaptiveWarmup b s => exact .other rfl rfl

/-- a reply of a served request is the reply of its dispatch -/
theorem serve_reply {m : Models F} {runs : Trace} {w : Worker F} {sh : Shared} {req : EmbedRequest}
    {isClosed : Bool} {env : Env} {reply : Reply F}
    (h : (serve host config id m runs w sh req isClosed env).reply = some reply) :
    ∃ out d, dispatchRequest m host config id env w.consecutiveFailures
      (buildShapeGuard config sh.ceiling) req isClosed (deskOf runs w sh) = (.ok (some reply, out), d) := by
  unfold serve at h
  split at h
  · rename_i r out d hd
    rw [(afterDispatch_keeps ..).reply] at h
    subst h
    exact ⟨out, d, hd⟩
  · cases h
  · cases h

end
end EmbedServer
