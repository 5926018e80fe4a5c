import EmbedServer.Trt.Prewarm
import EmbedServer.Worker.Retry

/-!
# One request on a loaded worker (`worker/dispatch.rs`, `worker/propagation.rs`, `worker/guard.rs`)

`Desk` is what a request can touch besides its reply: the runs of the session, the worker's
`warmed_local` set, the pool-wide warmed-sequence ceiling and the two shape channels.  It also
records the embed calls that were made.

* `logInferenceComplete`   the shape a slow request reports;
* `embedRoute`             an embed request: the (retried) call, and what follows from its result;
* `adaptiveWarmup`         compiles one shape and may raise the ceiling;
* `dispatchRequest`        the five request kinds.
-/

namespace EmbedServer

inductive EpSelection where
  | cpu
  | cuda
  | tensorRt
deriving DecidableEq, Repr

/-- the execution policy a worker reads; the two senders are `Some` or `None` -/
structure WorkerConfig where
  ep : EpSelection
  modelVariant : ModelVariant
  circuitBreakerThreshold : Nat
  jitSuspectTx : Bool
  enginePropagationTx : Bool
  trtInbandJitGuardEnabled : Bool
  trtInbandJitGuardSeq : Nat
  trtWarmupShapes : List Shape
  prewarmStrict : Bool
deriving DecidableEq, Repr

def buildShapeGuard (config : WorkerConfig) (ceiling : Nat) : Option TrtJitGuard :=
  if config.ep = .tensorRt ∧ config.trtInbandJitGuardEnabled then
    some ⟨config.trtInbandJitGuardSeq, ceiling⟩
  else none

/-- `MAX_PERMITS` of a semaphore, and of the semaphore in a bounded channel -/
def maxPermits : Nat := 2 ^ 61 - 1

/-- a request without its reply channel -/
inductive EmbedRequest where
  | dense (texts : List String)
  | sparse (texts : List String)
  | both (texts : List String)
  | probe (texts : List String)
  | adaptiveWarmup (batch seq : Nat)
deriving DecidableEq, Repr

/-- what is sent on the reply channel of a request -/
inductive Reply (F : Type) where
  | dense (r : Except AnyError (List (List F) × EmbedStats))
  | sparse (r : Except AnyError (List (SparseEmbedding F) × EmbedStats))
  | both (r : Except AnyError (List (DualEmbedding F) × EmbedStats))
  | probe (r : Except AnyError ProbeResult)
  | warmup (r : Except AnyError Nat)

structure Desk where
  /-- `session.run()` calls on the loaded session -/
  runs : Trace
  warmedLocal : List Shape
  /-- `warmed_seq_ceiling` -/
  ceiling : Nat
  /-- shapes sent on `jit_suspect_tx` -/
  jitSent : List Shape
  /-- shapes sent on `engine_propagation_tx` -/
  propSent : List Shape
  /-- budgets of the embed calls made, in order -/
  calls : List CostModel
deriving DecidableEq, Repr

/-- read at the time of the request: the shared cost model, and whether `try_send` finds room -/
structure Env where
  costModel : CostModel
  jitRoom : Bool
deriving DecidableEq, Repr

/-- `HashSet::insert` -/
def insertShape (set : List Shape) (s : Shape) : List Shape := if set.contains s then set else set ++ [s]

/-! ## after the inference -/

def logInferenceComplete (config : WorkerConfig) (jitRoom : Bool) (stats : EmbedStats) (batchLen : Nat)
    (d : Desk) : Option Shape × Desk :=
  let cacheHit := decide (stats.inferenceMs < chunkCacheHitThresholdMs)
  let shape := (batchLen, stats.maxChunkSeq)
  if cacheHit then (none, d)
  else
    let d := if config.jitSuspectTx && jitRoom then { d with jitSent := d.jitSent ++ [shape] } else d
    if config.enginePropagationTx then (some shape, { d with propSent := d.propSent ++ [shape] })
    else (none, d)

def finalizeEmbedRoute {α : Type} (config : WorkerConfig) (jitRoom : Bool)
    (consecutiveFailures batchLen : Nat) (result : Except AnyError (α × EmbedStats)) (d : Desk) :
    InferenceOutcome × Desk :=
  let d :=
    match result with
    | .ok (_, stats) =>
      match logInferenceComplete config jitRoom stats batchLen d with
      | (some shape, d) => { d with warmedLocal := insertShape d.warmedLocal shape }
      | (none, d) => d
    | .error _ => d
  (outcomeOf result consecutiveFailures config.circuitBreakerThreshold, d)

/-! ## the request kinds -/

/-- a step of the session, inside the desk -/
def onRuns {ε α : Type} (x : Exec Trace ε α) : Exec Desk ε α := fun d =>
  let (r, runs) := x d.runs
  (r, { d with runs })

/-- an embed call under a budget, recorded -/
def called {ε α : Type} (cm : CostModel) (x : Exec Trace ε α) : Exec Desk ε α := fun d =>
  onRuns x { d with calls := d.calls ++ [cm] }

theorem called_apply {ε α : Type} (cm : CostModel) (x : Exec Trace ε α) (d : Desk) :
    called cm x d = ((x d.runs).1, { d with runs := (x d.runs).2, calls := d.calls ++ [cm] }) := rfl

section
variable {F : Type} [F32Ops F]

/-- the shared part of `Dense`, `Sparse` and `Both`: call with retry, add the context, finish -/
def embedRoute {γ : Type} (embedFn : CostModel → Exec Trace AnyError (γ × EmbedStats))
    (context : String) (config : WorkerConfig) (env : Env) (consecutiveFailures batchLen : Nat) :
    Exec Desk AnyError (Except AnyError (γ × EmbedStats) × InferenceOutcome) := fun d =>
  match embedWithTrtRetry (fun cm => called cm (embedFn cm)) env.costModel d with
  | (.ok v, d) =>
    let (outcome, d) := finalizeEmbedRoute config env.jitRoom consecutiveFailures batchLen (.ok v) d
    (.ok (.ok v, outcome), d)
  | (.err e, d) =>
    let result : Except AnyError (γ × EmbedStats) := .error (e.context context)
    let (outcome, d) := finalizeEmbedRoute config env.jitRoom consecutiveFailures batchLen result d
    (.ok (result, outcome), d)
  | (.panic msg, d) => (.panic msg, d)

def runProbeBatch (m : Models F) (host : Host) (texts : List String) : Exec Trace AnyError ProbeResult := do
  let encodings ← Exec.lift (tokenizeNoPad m.tokenizer texts)
  let padTo := max ((encodings.map fun e => e.ids.length).max?.getD 1) 1
  let arrays ← Exec.lift (buildChunkArrays encodings (List.range texts.length) padTo)
  probeRunDense m.session host arrays

/-- `AdaptiveWarmup` on a worker: the reply, and the raised ceiling -/
def adaptiveWarmup (m : Models F) (host : Host) (config : WorkerConfig) (id batch seq : Nat) (d : Desk) :
    Except AnyError Nat × Desk :=
  if config.ep = .tensorRt then
    let (stats, runs) := trtPrewarm m.session host [(batch, seq)] d.runs
    if stats.warmed > 0 || stats.fullyCached then
      (.ok stats.totalCompileMs,
        { d with runs, ceiling := max d.ceiling (max stats.maxWarmedSeq seq) })
    else
      (.error (.msg ("adaptive warmup: no shapes warmed for (" ++ toString batch ++ ", " ++
        toString seq ++ ") on worker " ++ toString id)), { d with runs })
  else (.ok 0, d)

structure DispatchOutcome where
  outcome : InferenceOutcome
  skip : Bool
deriving DecidableEq, Repr

/-- one embed route of `dispatch_request`: an abandoned request is skipped -/
def dispatchEmbed {γ : Type} (embedFn : CostModel → Exec Trace AnyError (γ × EmbedStats))
    (context : String) (toReply : Except AnyError (γ × EmbedStats) → Reply F) (config : WorkerConfig)
    (env : Env) (consecutiveFailures batchLen : Nat) (closed : Bool) :
    Exec Desk AnyError (Option (Reply F) × DispatchOutcome) :=
  if closed then pure (none, ⟨.ok, true⟩)
  else do
    let (result, outcome) ← embedRoute embedFn context config env consecutiveFailures batchLen
    pure (some (toReply result), ⟨outcome, false⟩)

/-- `closed` is `reply.is_closed()` when the request is taken up -/
def dispatchRequest (m : Models F) (host : Host) (config : WorkerConfig) (id : Nat) (env : Env)
    (consecutiveFailures : Nat) (shapeGuard : Option TrtJitGuard) (request : EmbedRequest)
    (closed : Bool) : Exec Desk AnyError (Option (Reply F) × DispatchOutcome) :=
  match request with
  | .dense texts =>
    dispatchEmbed (fun cm => embedDense m texts cm config.modelVariant shapeGuard) "Dense embed error"
      .dense config env consecutiveFailures texts.length closed
  | .sparse texts =>
    dispatchEmbed (fun cm => embedSparse m texts cm config.modelVariant shapeGuard) "Sparse embed error"
      .sparse config env consecutiveFailures texts.length closed
  | .both texts =>
    dispatchEmbed (fun cm => embedBoth m texts cm config.modelVariant shapeGuard) "Dual embed error"
      .both config env consecutiveFailures texts.length closed
  | .probe texts => fun d =>
    match runProbeBatch m host texts d.runs with
    | (.ok r, runs) => (.ok (some (.probe (.ok r)), ⟨.ok, false⟩), { d with runs })
    | (.err e, runs) => (.ok (some (.probe (.error e)), ⟨.ok, false⟩), { d with runs })
    | (.panic msg, runs) => (.panic msg, { d with runs })
  | .adaptiveWarmup batch seq => fun d =>
    let (r, d) := adaptiveWarmup m host config id batch seq d
    (.ok (some (.warmup r), ⟨.ok, false⟩), d)

end
end EmbedServer
