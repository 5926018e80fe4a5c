import EmbedServer.Worker.Run

/-!
# Startup of a worker (`worker/startup.rs`, `worker/prewarm_strict.rs`)

Load the models, prime the session with one small run, prewarm the worker's warmup shapes, raise the
pool-wide ceiling, signal ready.
-/

set_option linter.unusedSectionVars false

namespace EmbedServer

def prewarmPersistencePostconditionFailed (freshCompiles engineCountAfter : Nat) : Bool :=
  decide (freshCompiles > 0) && engineCountAfter == 0

/-- `SUSPICIOUS_UNDERCOUNT_MIN_FRESH` -/
def suspiciousUndercountMinFresh : Nat := 2

def prewarmPersistenceSuspiciousUndercount (freshCompiles engineCountAfter : Nat) : Bool :=
  if engineCountAfter > 0 then false
  else if prewarmPersistencePostconditionFailed freshCompiles engineCountAfter then false
  else if freshCompiles < suspiciousUndercountMinFresh then false
  else false

def shouldFailReadiness (freshCompiles engineCountAfter : Nat) (strict : Bool) : Bool :=
  if !strict then false
  else prewarmPersistencePostconditionFailed freshCompiles engineCountAfter
    || prewarmPersistenceSuspiciousUndercount freshCompiles engineCountAfter

/-- the configuration of worker `id` of `n`: its shard of the warmup shapes -/
def workerConfigOf (config : WorkerConfig) (n id : Nat) : WorkerConfig :=
  if config.ep = .tensorRt ∧ n > 1 ∧ config.trtWarmupShapes ≠ [] then
    { config with trtWarmupShapes := shardShapes config.trtWarmupShapes id n }
  else config

inductive StartupOutcome (F : Type) where
  /-- the worker enters its loop; its ready signal carries the RSS it gained -/
  | ready (w : Worker F) (rssDelta : Nat)
  /-- the error was signalled in band -/
  | loadFailed (e : AnyError)
  /-- strict mode: the worker exits without a signal -/
  | refused (e : AnyError)

section
variable {F : Type} [F32Ops F] (host : Host) (config : WorkerConfig) (id : Nat)

/-- the prewarm of a freshly loaded session, if there is one -/
def startupPrewarm (m : Models F) (runs : Trace) : Option (PrewarmStats × Trace) :=
  if config.ep = .tensorRt ∧ config.trtWarmupShapes ≠ [] then
    some (trtPrewarm m.session host config.trtWarmupShapes runs)
  else none

def startupWorker (preLoadRss : Nat) (load : Except String (Models F)) (sh : Shared) :
    StartupOutcome F × Shared :=
  match load with
  | .error e => (.loadFailed (.msg ("Worker " ++ toString id ++ " failed to load: " ++ e)), sh)
  | .ok m =>
    -- a failed priming run is only logged
    let runs := (probeRunDense m.session host (warmupArrays 1 8) []).2
    let rssDelta (runs : Trace) := (host.rss runs).getD preLoadRss - preLoadRss
    match startupPrewarm host config m runs with
    | none => (.ready ⟨some (m, runs), 0, []⟩ (rssDelta runs), sh)
    | some (stats, runs) =>
      let sh := { sh with ceiling := max sh.ceiling stats.maxWarmedSeq }
      if shouldFailReadiness stats.freshCompiles stats.engineCountAfter config.prewarmStrict then
        (.refused (.msg ("Worker " ++ toString id ++ " prewarm postcondition failed (fresh_compiles=" ++
          toString stats.freshCompiles ++ ", engine_count_after=" ++ toString stats.engineCountAfter ++
          "); prewarm_strict=1: refusing to signal ready")), sh)
      else (.ready ⟨some (m, runs), 0, []⟩ (rssDelta runs), sh)

/-! ## the three sites that raise the ceiling -/

/-- longest sequence of some shapes -/
def topSeq (shapes : List Shape) : Nat := top (shapes.map Prod.snd)

@[simp] theorem topSeq_nil : topSeq [] = 0 := rfl

theorem topSeq_append (s t : List Shape) : topSeq (s ++ t) = max (topSeq s) (topSeq t) := by
  rw [topSeq, List.map_append, top_append]
  rfl

/-- what `fetch_max` gets after the prewarm of a single shape, propagated or adaptive -/
def singleRaise (shape : Shape) (stats : PrewarmStats) : Option Nat :=
  if stats.warmed > 0 || stats.fullyCached then some (max stats.maxWarmedSeq shape.2) else none

/-- `fetch_max`, if there is one -/
def fetchMax (ceiling : Nat) : Option Nat → Nat
  | some v => max ceiling v
  | none => ceiling

theorem startupWorker_ceiling (preLoadRss : Nat) (load : Except String (Models F)) (sh : Shared) :
    (startupWorker host config id preLoadRss load sh).2.ceiling = sh.ceiling ∨
    ∃ m runs, config.ep = .tensorRt ∧ config.trtWarmupShapes ≠ [] ∧
      (startupWorker host config id preLoadRss load sh).2.ceiling =
        fetchMax sh.ceiling
          (some (trtPrewarm (m : Models F).session host config.trtWarmupShapes runs).1.maxWarmedSeq) := by
  unfold startupWorker
  cases load with
  | error e => exact .inl rfl
  | ok m =>
    dsimp only
    cases hp : startupPrewarm host config m (probeRunDense m.session host (warmupArrays 1 8) []).2 with
    | none => exact .inl rfl
    | some r =>
      unfold startupPrewarm at hp
      split at hp
      · rename_i hc
        refine .inr ⟨m, (probeRunDense m.session host (warmupArrays 1 8) []).2, hc.1, hc.2, ?_⟩
        rw [Option.some.inj hp]
        dsimp only
        split <;> rfl
      · cases hp

theorem drainStep_ceiling (m : Models F) (st : DrainState) (shape : Shape) :
    (drainStep host m st shape).ceiling =
      if st.warmedLocal.contains shape then st.ceiling
      else fetchMax st.ceiling (singleRaise shape (trtPrewarm m.session host [shape] st.runs).1) := by
  unfold drainStep singleRaise
  split
  · rfl
  · dsimp only
    split <;> rfl

theorem adaptiveWarmup_ceiling (m : Models F) (batch seq : Nat) (d : Desk) :
    (adaptiveWarmup m host config id batch seq d).2.ceiling =
      if config.ep = .tensorRt then
        fetchMax d.ceiling (singleRaise (batch, seq) (trtPrewarm m.session host [(batch, seq)] d.runs).1)
      else d.ceiling := by
  unfold adaptiveWarmup singleRaise
  split
  · dsimp only
    split <;> rfl
  · rfl

/-- an overshoot of `seq` itself is impossible: the shape ran -/
theorem singleRaise_le (session : Session F) (shape : Shape) (runs : Trace) {v : Nat}
    (h : singleRaise shape (trtPrewarm session host [shape] runs).1 = some v) :
    v ≤ topSeq (trtPrewarm session host [shape] runs).1.okShapes := by
  unfold singleRaise at h
  split at h
  · rename_i hok
    cases h
    obtain ⟨-, hin, hmax⟩ := trtPrewarm_single session host shape runs (by simpa using hok)
    rw [hmax]
    exact le_top (List.mem_map_of_mem hin)
  · cases h

/-! ## everything else leaves it alone -/

theorem retry_ceiling {γ : Type} (f : CostModel → Exec Trace AnyError γ) (base : CostModel) (d : Desk) :
    (embedWithTrtRetry (fun cm => called cm (f cm)) base d).2.ceiling = d.ceiling := by
  unfold embedWithTrtRetry
  dsimp only
  rw [called_apply]
  cases (f base d.runs).1 with
  | ok v => rfl
  | panic msg => rfl
  | err e =>
    dsimp only
    split <;> rfl

theorem finalize_ceiling {α : Type} (jitRoom : Bool) (cf n : Nat) (r : Except AnyError (α × EmbedStats))
    (d : Desk) : (finalizeEmbedRoute config jitRoom cf n r d).2.ceiling = d.ceiling := by
  cases r with
  | error e => rfl
  | ok v =>
    have hlog : (logInferenceComplete config jitRoom v.2 n d).2.ceiling = d.ceiling := by
      unfold logInferenceComplete
      dsimp only
      split
      · rfl
      · split <;> split <;> rfl
    unfold finalizeEmbedRoute
    dsimp only
    split
    · rename_i shape d1 hd
      rw [hd] at hlog
      exact hlog
    · rename_i d1 hd
      rw [hd] at hlog
      exact hlog

theorem embedRoute_ceiling {γ : Type} (f : CostModel → Exec Trace AnyError (γ × EmbedStats)) (text : String)
    (env : Env) (cf n : Nat) (d : Desk) : (embedRoute f text config env cf n d).2.ceiling = d.ceiling := by
  have hr := retry_ceiling f env.costModel d
  unfold embedRoute
  split
  · rename_i v d1 hd
    rw [hd] at hr
    exact (finalize_ceiling config env.jitRoom cf n (.ok v) d1).trans hr
  · rename_i e d1 hd
    rw [hd] at hr
    have hf := finalize_ceiling config env.jitRoom cf n
      (.error (e.context text) : Except AnyError (γ × EmbedStats)) d1
    exact hf.trans hr
  · rename_i msg d1 hd
    rw [hd] at hr
    exact hr

theorem dispatchEmbed_ceiling {γ : Type} (f : CostModel → Exec Trace AnyError (γ × EmbedStats))
    (text : String) (toReply : Except AnyError (γ × EmbedStats) → Reply F) (env : Env) (cf n : Nat)
    (isClosed : Bool) (d : Desk) :
    (dispatchEmbed f text toReply config env cf n isClosed d).2.ceiling = d.ceiling := by
  unfold dispatchEmbed
  cases isClosed with
  | true => rfl
  | false =>
    have hr := embedRoute_ceiling config f text env cf n d
    rw [if_neg (by decide), Exec.bind_apply]
    obtain ⟨x, d1, hx⟩ : ∃ x d1, embedRoute f text config env cf n d = (x, d1) := ⟨_, _, rfl⟩
    rw [hx] at hr ⊢
    cases x <;> exact hr

/-- only an adaptive warmup moves the ceiling -/
theorem dispatch_ceiling (m : Models F) (env : Env) (cf : Nat) (guard : Option TrtJitGuard)
    (req : EmbedRequest) (isClosed : Bool) (d : Desk) :
    (dispatchRequest m host config id env cf guard req isClosed d).2.ceiling =
      match req with
      | .adaptiveWarmup batch seq => (adaptiveWarmup m host config id batch seq d).2.ceiling
      | _ => d.ceiling := by
  cases req with
  | dense texts => exact dispatchEmbed_ceiling config _ _ _ env cf _ isClosed d
  | sparse texts => exact dispatchEmbed_ceiling config _ _ _ env cf _ isClosed d
  | both texts => exact dispatchEmbed_ceiling config _ _ _ env cf _ isClosed d
  | probe texts =>
    unfold dispatchRequest
    dsimp only
    split <;> rfl
  | adaptiveWarmup b s => rfl

theorem serve_ceiling (m : Models F) (runs : Trace) (w : Worker F) (sh : Shared) (req : EmbedRequest)
    (isClosed : Bool) (env : Env) :
    (serve host config id m runs w sh req isClosed env).shared.ceiling =
      match req with
      | .adaptiveWarmup batch seq =>
        (adaptiveWarmup m host config id batch seq (deskOf runs w sh)).2.ceiling
      | _ => sh.ceiling := by
  have hd := dispatch_ceiling host config id m env w.consecutiveFailures
    (buildShapeGuard config sh.ceiling) req isClosed (deskOf runs w sh)
  refine Eq.trans ?_ hd
  unfold serve
  split
  · rename_i reply out d heq
    rw [heq]
    exact (afterDispatch_keeps m w sh reply out d).ceiling
  · rename_i e d heq
    rw [heq]
    rfl
  · rename_i msg d heq
    rw [heq]
    rfl

end
end EmbedServer
