import EmbedServer.Lib.Transition
import EmbedServer.Startup.Budget
import EmbedServer.Worker.Dispatch

/-!
# Startup as a transition system (`lib.rs`, `bootstrap/readiness.rs`, `bootstrap/probe_task.rs`)

Two tasks bring the server up.  The readiness task (`run_readiness_probe`) exits the process on an
error; on the probe path it drains the request permits and spawns the probe task, whose result
nobody awaits.  Requests come and go between any two of their steps.  A step is one write to the
shared state or one awaited call; the cache file the probe may write is not part of the state.

* `boot`     the state when the two tasks start;
* `step`     one step of a task, or of a request;
* `mainStep_cases`, `probeStep_cases`   all that a step of the two tasks can be.
-/

namespace EmbedServer.Startup

inductive ProbeStatus where
  | disabled
  | running
  | complete
  | failed
  | cacheHit
deriving DecidableEq, Repr

/-- release builds have `panic = "abort"`, the others unwind the panicking task -/
inductive PanicStrategy where
  | unwind
  | abort
deriving DecidableEq, Repr

/-- the settings startup reads; `BGE_M3_WORKERS` is raised to at least one -/
structure StartupConfig where
  workers : Nat
  workers_pos : 1 ≤ workers
  ep : EpSelection
  gpuCount : Nat
  maxSeqLength : Nat
  memorySafetyFactor : Rat
  costModelOverride : Option CostModel
  disableProbeCache : Bool
deriving DecidableEq

/-- what awaiting the pool's init handle comes to -/
inductive InitResult where
  | ok
  | failed
  | panicked
deriving DecidableEq, Repr

/-- what startup finds outside: the machine, the files, the pool -/
structure World where
  init : InitResult
  availableBytes : Nat
  modelRssPerWorker : Nat
  /-- `try_load_probe_cache` -/
  cached : Option (Rat × Rat)
  probe : ProbeEnv
  /-- the two readiness calls -/
  dense : Except AnyError Unit
  sparse : Except AnyError Unit

structure TuningInfo where
  availableBytes : Nat
  modelRssBytesPerWorker : Nat
  worstCasePeakBytes : Nat
  utilizationPct : Rat
deriving DecidableEq, Repr

/-- where the readiness task is -/
inductive MainPc where
  | init
  | budget
  | resolve
  | status (st : ProbeStatus)
  | dense
  | sparse
  | opening
  /-- waiting in `acquire_many_owned` -/
  | acquire
  /-- the permit is in hand -/
  | spawn
  | done
deriving DecidableEq, Repr

/-- where the probe task is -/
inductive ProbePc where
  | absent
  /-- it owns the acquired permits -/
  | start
  | sweep
  | install (a b : Rat)
  | status (st : ProbeStatus)
  | dense
  | sparse
  | opening
  | release
  | done
  | panicked
deriving DecidableEq, Repr

/-- how the process ended -/
inductive Exit where
  /-- `process::exit(1)` -/
  | failure
  | aborted
deriving DecidableEq, Repr

structure Server where
  ready : Bool
  probeStatus : ProbeStatus
  costModel : CostModel
  tuning : Option TuningInfo
  /-- available permits of `request_permits` -/
  permits : Nat
  /-- requests that passed `check_ready` and wait for a permit -/
  waiting : Nat
  /-- requests that hold a permit -/
  holding : Nat
  main : MainPc
  probe : ProbePc
  exit : Option Exit
deriving DecidableEq, Repr

inductive Act where
  | main
  | probe
  /-- a panic of the probe task where it stands -/
  | probePanic
  /-- a request arrives, gives up waiting, gets its permit, is finished -/
  | arrive
  | leave
  | acquire
  | finish
deriving DecidableEq, Repr

/-! ## permits and workers -/

/-- `u32::MAX` -/
def u32Max : Nat := 2 ^ 32 - 1

/-- the number of threads `EmbedPool::spawn` runs, after the GPU clamp -/
def poolSize (n : Nat) (ep : EpSelection) (gpuCount : Nat) : Nat :=
  let gpuCount := max gpuCount 1
  if ep ≠ .cpu ∧ n > gpuCount then gpuCount else n

namespace StartupConfig
variable (cfg : StartupConfig)

def poolSize : Nat := Startup.poolSize cfg.workers cfg.ep cfg.gpuCount

def initialPermits : Nat := max (cfg.workers - 1) 1

/-- what `spawn_probe_task` acquires -/
def probePermits : Nat := min (cfg.workers - 1) u32Max

def initialCostModel : CostModel :=
  cfg.costModelOverride.getD (CostModel.conservative CostModel.defaultMaxWorkspace)

/-- the budget of a worker on a machine -/
def budget (w : World) : Nat × Nat × Rat :=
  computeWorkspaceBudget w.availableBytes cfg.workers w.modelRssPerWorker cfg.memorySafetyFactor

def perWorkerWorkspace (w : World) : Nat := (cfg.budget w).1

end StartupConfig

/-- both tasks at their start -/
def booted (cfg : StartupConfig) : Server :=
  ⟨false, .running, cfg.initialCostModel, none, cfg.initialPermits, 0, 0, .init, .absent, none⟩

/-- `none` if the semaphore or the request channel cannot be made that large, a panic of `main` -/
def boot (cfg : StartupConfig) : Option Server :=
  if cfg.initialPermits ≤ maxPermits ∧ cfg.poolSize * 4 ≤ maxPermits then some (booted cfg) else none

/-! ## the readiness task -/

section
variable (strategy : PanicStrategy) (cfg : StartupConfig) (world : World)

def fail (s : Server) : Server := { s with exit := some .failure }

/-- the cost model of given coefficients, under the workspace budget -/
def probedModel (a b : Rat) : CostModel := ⟨a, b, cfg.perWorkerWorkspace world⟩

def mainStep (s : Server) : Option Server :=
  match s.main with
  | .init =>
    match world.init with
    | .ok => some { s with main := .budget }
    | .failed => some (fail s)
    | .panicked => some { s with exit := some (if strategy = .abort then .aborted else .failure) }
  | .budget =>
    let (perWorkerWorkspace, worstCasePeak, utilizationPct) := cfg.budget world
    if perWorkerWorkspace < physicsFloor cfg.maxSeqLength then some (fail s)
    else some { s with
      tuning := some ⟨world.availableBytes, world.modelRssPerWorker, worstCasePeak, utilizationPct⟩
      main := .resolve }
  | .resolve =>
    match cfg.costModelOverride with
    | some cm => some { s with costModel := cm, main := .status .disabled }
    | none =>
      match if cfg.disableProbeCache then none else world.cached with
      | some (a, b) => some { s with costModel := probedModel cfg world a b, main := .status .cacheHit }
      | none => some { s with probeStatus := .running, main := .acquire }
  | .status st => some { s with probeStatus := st, main := .dense }
  | .dense =>
    match world.dense with
    | .ok _ => some { s with main := .sparse }
    | .error _ => some (fail s)
  | .sparse =>
    match world.sparse with
    | .ok _ => some { s with main := .opening }
    | .error _ => some (fail s)
  | .opening => some { s with ready := true, main := .done }
  | .acquire =>
    if cfg.probePermits ≤ s.permits then
      some { s with permits := s.permits - cfg.probePermits, main := .spawn }
    else none
  | .spawn => some { s with main := .done, probe := .start }
  | .done => none

/-! ## the probe task -/

/-- a panic of the probe task: the process aborts, or the task is gone and drops what it owns -/
def panicProbe (s : Server) : Server :=
  match strategy with
  | .abort => { s with exit := some .aborted }
  | .unwind =>
    match s.probe with
    | .start => { s with permits := s.permits + cfg.probePermits, probe := .panicked }
    | _ => { s with probe := .panicked }

/-- `f64::EPSILON` -/
def f64Epsilon : Rat := 1 / 2 ^ 52

/-- the fallback coefficients count as a failed probe -/
def probedStatus (a b : Rat) : ProbeStatus :=
  if |a - CostModel.conservativeA| < f64Epsilon ∧ |b - CostModel.conservativeB| < f64Epsilon then .failed
  else .complete

def probeStep (s : Server) : Option Server :=
  match s.probe with
  | .absent => none
  | .start => some { s with probe := .sweep }
  | .sweep =>
    match runProbe world.probe cfg.maxSeqLength (cfg.perWorkerWorkspace world) world.availableBytes with
    | .ok ((a, b), _) => some { s with probe := .install a b }
    | .err e => nomatch e
    | .panic _ => some (panicProbe strategy cfg s)
  | .install a b => some { s with costModel := probedModel cfg world a b, probe := .status (probedStatus a b) }
  | .status st => some { s with probeStatus := st, probe := .dense }
  -- a failed readiness check is logged, and the task goes on to release the permits
  | .dense =>
    match world.dense with
    | .ok _ => some { s with probe := .sparse }
    | .error _ => some { s with probe := .release }
  | .sparse =>
    match world.sparse with
    | .ok _ => some { s with probe := .opening }
    | .error _ => some { s with probe := .release }
  | .opening => some { s with ready := true, probe := .release }
  | .release =>
    if s.permits + cfg.workers ≤ maxPermits then
      some { s with permits := s.permits + cfg.workers, probe := .done }
    else if cfg.workers ≤ maxPermits then
      -- `add_permits` adds, and its assertion about the sum fails: what was added stays
      some (panicProbe strategy cfg { s with permits := s.permits + cfg.workers })
    else
      -- it refuses a number this large before it adds
      some (panicProbe strategy cfg s)
  | .done | .panicked => none

/-- the probe task is there and has not ended -/
def ProbePc.live : ProbePc → Bool
  | .absent | .done | .panicked => false
  | _ => true

/-- one step of the server; an exited process makes none -/
def step (s : Server) (act : Act) : Option Server :=
  if s.exit.isSome then none
  else
    match act with
    | .main => mainStep strategy cfg world s
    | .probe => probeStep strategy cfg world s
    | .probePanic => if s.probe.live then some (panicProbe strategy cfg s) else none
    | .arrive => if s.ready then some { s with waiting := s.waiting + 1 } else none
    | .leave => if 0 < s.waiting then some { s with waiting := s.waiting - 1 } else none
    | .acquire =>
      if 0 < s.waiting ∧ 0 < s.permits then
        some { s with waiting := s.waiting - 1, permits := s.permits - 1, holding := s.holding + 1 }
      else none
    | .finish =>
      if 0 < s.holding then some { s with permits := s.permits + 1, holding := s.holding - 1 } else none

/-- the three ways out of cost-model resolution -/
inductive StartupPath where
  /-- the process exits before -/
  | exits
  /-- readiness checks in the readiness task: override or cache hit -/
  | inline (st : ProbeStatus)
  | probe
deriving DecidableEq, Repr

def startupPath : StartupPath :=
  if world.init ≠ .ok ∨ cfg.perWorkerWorkspace world < physicsFloor cfg.maxSeqLength then .exits
  else if cfg.costModelOverride.isSome then .inline .disabled
  else if !cfg.disableProbeCache && world.cached.isSome then .inline .cacheHit
  else .probe

/-- both readiness calls succeed -/
def World.checksPass : Bool := world.dense.isOk && world.sparse.isOk

/-- the sweep of the probe panics -/
def sweepPanics : Bool :=
  !(runProbe world.probe cfg.maxSeqLength (cfg.perWorkerWorkspace world) world.availableBytes).isOk

/-! ## what a step of a task can be -/

def tuningInfo : TuningInfo :=
  ⟨world.availableBytes, world.modelRssPerWorker, (cfg.budget world).2.1, (cfg.budget world).2.2⟩

/-- neither an override nor a usable cache file -/
def mustProbe : Prop :=
  cfg.costModelOverride = none ∧ (cfg.disableProbeCache = true ∨ world.cached = none)

inductive MainMove (s : Server) : Server → Prop
  | inited (hm : s.main = .init) (hi : world.init = .ok) : MainMove s { s with main := .budget }
  | initFailed (hm : s.main = .init) (hi : world.init ≠ .ok) : MainMove s (fail s)
  | initAborted (hm : s.main = .init) (ha : strategy = .abort) : MainMove s { s with exit := some .aborted }
  | tooSmall (hm : s.main = .budget) (hlt : cfg.perWorkerWorkspace world < physicsFloor cfg.maxSeqLength) :
      MainMove s (fail s)
  | sized (hm : s.main = .budget) (hle : physicsFloor cfg.maxSeqLength ≤ cfg.perWorkerWorkspace world) :
      MainMove s { s with tuning := some (tuningInfo cfg world), main := .resolve }
  | overridden (cm : CostModel) (hm : s.main = .resolve) (ho : cfg.costModelOverride = some cm) :
      MainMove s { s with costModel := cm, main := .status .disabled }
  | hit (a b : Rat) (hm : s.main = .resolve) (ho : cfg.costModelOverride = none)
      (hd : cfg.disableProbeCache = false) (hc : world.cached = some (a, b)) :
      MainMove s { s with costModel := probedModel cfg world a b, main := .status .cacheHit }
  | miss (hm : s.main = .resolve) (hp : mustProbe cfg world) :
      MainMove s { s with probeStatus := .running, main := .acquire }
  | status (st : ProbeStatus) (hm : s.main = .status st) :
      MainMove s { s with probeStatus := st, main := .dense }
  | denseOk (hm : s.main = .dense) (hd : world.dense.isOk = true) : MainMove s { s with main := .sparse }
  | denseFailed (hm : s.main = .dense) (hd : world.dense.isOk = false) : MainMove s (fail s)
  | sparseOk (hm : s.main = .sparse) (hd : world.sparse.isOk = true) : MainMove s { s with main := .opening }
  | sparseFailed (hm : s.main = .sparse) (hd : world.sparse.isOk = false) : MainMove s (fail s)
  | opened (hm : s.main = .opening) : MainMove s { s with ready := true, main := .done }
  | drained (hm : s.main = .acquire) (hle : cfg.probePermits ≤ s.permits) :
      MainMove s { s with permits := s.permits - cfg.probePermits, main := .spawn }
  | spawned (hm : s.main = .spawn) : MainMove s { s with main := .done, probe := .start }

inductive ProbeMove (s : Server) : Server → Prop
  | started (hp : s.probe = .start) : ProbeMove s { s with probe := .sweep }
  | swept (a b : Rat) (shapes : List Shape) (hp : s.probe = .sweep)
      (hr : runProbe world.probe cfg.maxSeqLength (cfg.perWorkerWorkspace world) world.availableBytes =
        .ok ((a, b), shapes)) : ProbeMove s { s with probe := .install a b }
  | sweepPanicked (hp : s.probe = .sweep) : ProbeMove s (panicProbe strategy cfg s)
  | installed (a b : Rat) (hp : s.probe = .install a b) :
      ProbeMove s { s with costModel := probedModel cfg world a b, probe := .status (probedStatus a b) }
  | status (st : ProbeStatus) (hp : s.probe = .status st) :
      ProbeMove s { s with probeStatus := st, probe := .dense }
  | denseOk (hp : s.probe = .dense) (hd : world.dense.isOk = true) : ProbeMove s { s with probe := .sparse }
  | sparseOk (hp : s.probe = .sparse) (hd : world.sparse.isOk = true) : ProbeMove s { s with probe := .opening }
  | checkFailed (hp : s.probe = .dense ∨ s.probe = .sparse) (hc : world.checksPass = false) :
      ProbeMove s { s with probe := .release }
  | opened (hp : s.probe = .opening) : ProbeMove s { s with ready := true, probe := .release }
  | released (hp : s.probe = .release) : ProbeMove s { s with permits := s.permits + cfg.workers, probe := .done }
  | overflowed (permits : Nat) (hp : s.probe = .release) :
      ProbeMove s (panicProbe strategy cfg { s with permits := permits })

variable {strategy cfg world}

theorem mainStep_cases {s s' : Server} (h : mainStep strategy cfg world s = some s') :
    MainMove strategy cfg world s s' := by
  unfold mainStep at h
  split at h
  next hm =>
    split at h
    next hi =>
      cases h
      exact .inited hm hi
    next hi =>
      cases h
      exact .initFailed hm (by rw [hi]; decide)
    next hi =>
      cases h
      by_cases ha : strategy = .abort
      · rw [if_pos ha]
        exact .initAborted hm ha
      · rw [if_neg ha]
        exact .initFailed hm (by rw [hi]; decide)
  next hm =>
    dsimp only at h
    split at h
    next hlt =>
      cases h
      exact .tooSmall hm hlt
    next hle =>
      cases h
      exact .sized hm (Nat.le_of_not_lt hle)
  next hm =>
    split at h
    next cm ho =>
      cases h
      exact .overridden cm hm ho
    next ho =>
      by_cases hd : cfg.disableProbeCache = true
      · rw [if_pos hd] at h
        cases h
        exact .miss hm ⟨ho, .inl hd⟩
      · rw [if_neg hd] at h
        split at h
        next a b hc =>
          cases h
          exact .hit a b hm ho (Bool.not_eq_true _ ▸ hd) hc
        next hc =>
          cases h
          exact .miss hm ⟨ho, .inr hc⟩
  next st hm =>
    cases h
    exact .status st hm
  next hm =>
    split at h
    next hd =>
      cases h
      exact .denseOk hm (by rw [hd]; rfl)
    next hd =>
      cases h
      exact .denseFailed hm (by rw [hd]; rfl)
  next hm =>
    split at h
    next hd =>
      cases h
      exact .sparseOk hm (by rw [hd]; rfl)
    next hd =>
      cases h
      exact .sparseFailed hm (by rw [hd]; rfl)
  next hm =>
    cases h
    exact .opened hm
  next hm =>
    split at h
    next hle =>
      cases h
      exact .drained hm hle
    next => cases h
  next hm =>
    cases h
    exact .spawned hm
  next => cases h

theorem probeStep_cases {s s' : Server} (h : probeStep strategy cfg world s = some s') :
    ProbeMove strategy cfg world s s' := by
  unfold probeStep at h
  split at h
  next => cases h
  next hp =>
    cases h
    exact .started hp
  next hp =>
    split at h
    next a b shapes hr =>
      cases h
      exact .swept a b shapes hp hr
    next e _ => cases e
    next =>
      cases h
      exact .sweepPanicked hp
  next a b hp =>
    cases h
    exact .installed a b hp
  next st hp =>
    cases h
    exact .status st hp
  next hp =>
    split at h
    next hd =>
      cases h
      exact .denseOk hp (by rw [hd]; rfl)
    next hd =>
      cases h
      exact .checkFailed (.inl hp) (by rw [World.checksPass, hd]; rfl)
  next hp =>
    split at h
    next hd =>
      cases h
      exact .sparseOk hp (by rw [hd]; rfl)
    next hd =>
      cases h
      exact .checkFailed (.inr hp) (by rw [World.checksPass, hd, Bool.and_comm]; rfl)
  next hp =>
    cases h
    exact .opened hp
  next hp =>
    split at h
    next =>
      cases h
      exact .released hp
    next =>
      split at h
      next =>
        cases h
        exact .overflowed _ hp
      next =>
        cases h
        exact .overflowed s.permits hp
  next => cases h
  next => cases h

end
end EmbedServer.Startup
