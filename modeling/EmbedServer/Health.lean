import EmbedServer.Pool.Balance
import EmbedServer.Pool.Counters
import EmbedServer.Startup.Permits

/-!
# `/health` over the pool (`handler/health.rs`, `lib.rs`)

The handler compares `total_workers`, which `lib.rs` takes from the configuration, with two counters
that the threads of the pool maintain.  `Node` puts the pool and startup side by side: the readiness task
goes on from `init_handle.await` when the init task of the pool is through.

* `health`             the handler;
* `nodeStep`           one step of the pool or of startup;
* `health_truthful`    unless the pool is clamped or a thread dies before the others, `/health` tells in
                       every state with `ready` how many threads there are and which hold a session;
* `health_misreports`  a clamped pool, and a fatal exit, where it does not.
-/

namespace EmbedServer

open Startup (StartupConfig World PanicStrategy Server ProbeStatus TuningInfo InitResult)

/-! ## the handler -/

/-- the `"status"` field, each text the name of its constructor -/
inductive HealthStatus where
  | loading
  | fail
  | idle
  | warn
  | ok
deriving DecidableEq, Repr

/-- what the handler reads -/
structure AppState where
  ready : Bool
  liveWorkers : Nat
  loadedWorkers : Nat
  totalWorkers : Nat
  maxSeqLength : Nat
  costModel : CostModel
  probeStatus : ProbeStatus
  tuning : Option TuningInfo

structure WorkersBlock where
  live : Nat
  total : Nat
deriving DecidableEq, Repr

/-- the `"tuning"` block; `info` is there once memory detection is through -/
structure TuningBlock where
  aBytesPerToken : Rat
  bBytesPerTokenSq : Rat
  maxWorkspaceBytes : Nat
  probeStatus : ProbeStatus
  info : Option TuningInfo
deriving DecidableEq, Repr

structure HealthReply where
  code : Nat
  status : HealthStatus
  workers : Option WorkersBlock
  maxSeqLength : Option Nat
  tuning : Option TuningBlock
deriving DecidableEq, Repr

def health (state : AppState) : HealthReply :=
  let workers : WorkersBlock := ⟨state.liveWorkers, state.totalWorkers⟩
  if !state.ready then ⟨503, .loading, none, none, none⟩
  else if state.liveWorkers = 0 then ⟨503, .fail, some workers, none, none⟩
  else if state.loadedWorkers = 0 then ⟨200, .idle, some workers, none, none⟩
  else
    { code := 200
      status := if state.liveWorkers < state.totalWorkers then .warn else .ok
      workers := some workers
      maxSeqLength := some state.maxSeqLength
      tuning := some ⟨state.costModel.a, state.costModel.b, state.costModel.maxWorkspaceBytes,
        state.probeStatus, state.tuning⟩ }

/-! ## the pool and startup -/

/-- a server on a machine: the pool is started with the clamped number of workers -/
structure Deployment where
  strategy : PanicStrategy
  cfg : StartupConfig
  world : World
  setup : Pool.Setup
  size : setup.n = cfg.poolSize
  ep : setup.config.ep = cfg.ep

structure Node (F : Type) where
  pool : Pool.System F
  server : Server

inductive NodeAct (F : Type) where
  | pool (a : Pool.Act F)
  | server (a : Startup.Act)

/-- what `init_handle.await` returns; `none` while the task runs -/
def Pool.InitPc.result : Pool.InitPc → Option InitResult
  | .done (.ok _) => some .ok
  | .done (.error _) => some .failed
  | _ => none

section
variable {F : Type} (d : Deployment)

/-- the readiness task waits for the init task of the pool; a panic of that task is left to the world -/
def Awaits (n : Node F) : Startup.Act → Prop
  | .main => n.server.main = .init → d.world.init = .panicked ∨ n.pool.init.result = some d.world.init
  | _ => True

instance (n : Node F) (a : Startup.Act) : Decidable (Awaits d n a) :=
  match a with
  | .main => inferInstanceAs (Decidable (_ → _ ∨ _))
  | .probe | .probePanic | .arrive | .leave | .acquire | .finish => inferInstanceAs (Decidable True)

/-- one step of the process -/
def nodeStep [F32Ops F] (n : Node F) : NodeAct F → Option (Node F)
  | .pool a =>
    if n.server.exit.isSome then none
    else (Pool.step d.setup n.pool a).map fun pool => { n with pool := pool }
  | .server a =>
    if Awaits d n a then
      (Startup.step d.strategy d.cfg d.world n.server a).map fun server => { n with server := server }
    else none

/-- `none` if startup panics before the tasks are spawned -/
def bootNode (ceiling : Nat) : Option (Node F) :=
  (Startup.boot d.cfg).map fun server => ⟨Pool.start d.setup ceiling, server⟩

/-- what the handler finds -/
def Node.appState (n : Node F) : AppState where
  ready := n.server.ready
  liveWorkers := n.pool.live
  loadedWorkers := n.pool.shared.loadedWorkers
  totalWorkers := d.cfg.workers
  maxSeqLength := d.cfg.maxSeqLength
  costModel := n.server.costModel
  probeStatus := n.server.probeStatus
  tuning := n.server.tuning

/-! ## the status -/

theorem health_status {state : AppState} (hr : state.ready = true) :
    ((health state).status = .fail ↔ state.liveWorkers = 0) ∧
    ((health state).status = .idle ↔ state.liveWorkers ≠ 0 ∧ state.loadedWorkers = 0) ∧
    ((health state).status = .warn ↔ state.liveWorkers ≠ 0 ∧ state.loadedWorkers ≠ 0 ∧
      state.liveWorkers < state.totalWorkers) ∧
    ((health state).status = .ok ↔ state.liveWorkers ≠ 0 ∧ state.loadedWorkers ≠ 0 ∧
      state.totalWorkers ≤ state.liveWorkers) ∧
    (health state).workers = some ⟨state.liveWorkers, state.totalWorkers⟩ := by
  unfold health
  rw [hr]
  by_cases hlive : state.liveWorkers = 0
  · simp [hlive]
  · by_cases hloaded : state.loadedWorkers = 0
    · simp [hlive, hloaded]
    · by_cases hlt : state.liveWorkers < state.totalWorkers
      · simp [hlive, hloaded, hlt]
      · simp [hlive, hloaded, hlt]
        omega

/-! ## `ready` and the init task -/

variable {d}

/-- the readiness task leaves its first await only with an `Ok` of the init task -/
structure InStep (n : Node F) : Prop where
  waiting : n.server.main = .init → n.server.ready = false ∧ n.server.probe = .absent
  passed : n.server.main ≠ .init → ∃ u, n.pool.init = .done (.ok u)

theorem startup_step_init {s s' : Server} {a : Startup.Act}
    (h : Startup.step d.strategy d.cfg d.world s a = some s') (hm : s.main = .init) (hr : s.ready = false)
    (hp : s.probe = .absent) :
    (a = .main ∧ d.world.init = .ok ∧ s'.main = .budget) ∨
      s'.main = .init ∧ s'.ready = false ∧ s'.probe = .absent := by
  unfold Startup.step at h
  split at h
  · cases h
  · cases a with
    | main =>
      unfold Startup.mainStep at h
      dsimp only at h
      rw [hm] at h
      cases hi : d.world.init with
      | ok =>
        rw [hi] at h
        cases h
        exact .inl ⟨rfl, rfl, rfl⟩
      | failed =>
        rw [hi] at h
        cases h
        exact .inr ⟨hm, hr, hp⟩
      | panicked =>
        rw [hi] at h
        cases h
        exact .inr ⟨rfl, hr, hp⟩
    | probe =>
      unfold Startup.probeStep at h
      dsimp only at h
      rw [hp] at h
      cases h
    | probePanic =>
      dsimp only at h
      rw [hp] at h
      cases h
    | arrive =>
      dsimp only at h
      rw [hr] at h
      cases h
    | leave =>
      dsimp only at h
      split at h
      · cases h
        exact .inr ⟨hm, hr, hp⟩
      · cases h
    | acquire =>
      dsimp only at h
      split at h
      · cases h
        exact .inr ⟨hm, hr, hp⟩
      · cases h
    | finish =>
      dsimp only at h
      split at h
      · cases h
        exact .inr ⟨hm, hr, hp⟩
      · cases h

theorem startup_step_passed {s s' : Server} {a : Startup.Act}
    (h : Startup.step d.strategy d.cfg d.world s a = some s') (hm : s.main ≠ .init) : s'.main ≠ .init := by
  have hpanic : ∀ s : Server, (Startup.panicProbe d.strategy d.cfg s).main = s.main := by
    intro s
    unfold Startup.panicProbe
    split
    · rfl
    · split <;> rfl
  unfold Startup.step at h
  split at h
  · cases h
  · cases a with
    | main =>
      have hmove := Startup.mainStep_cases h
      cases hmove with
      | inited hm' hi => exact absurd hm' hm
      | initFailed hm' hi => exact absurd hm' hm
      | initAborted hm' ha => exact absurd hm' hm
      | tooSmall => exact hm
      | denseFailed => exact hm
      | sparseFailed => exact hm
      | _ =>
        intro hinit
        cases hinit
    | probe =>
      have hmove := Startup.probeStep_cases h
      cases hmove with
      | sweepPanicked hp => rw [hpanic]; exact hm
      | overflowed permits hp => rw [hpanic]; exact hm
      | _ => exact hm
    | probePanic =>
      dsimp only at h
      split at h
      · cases h
        rw [hpanic]
        exact hm
      · cases h
    | arrive => dsimp only at h; split at h <;> cases h; exact hm
    | leave => dsimp only at h; split at h <;> cases h; exact hm
    | acquire => dsimp only at h; split at h <;> cases h; exact hm
    | finish => dsimp only at h; split at h <;> cases h; exact hm

variable [F32Ops F]

theorem pool_done_stays {p : Pool.Setup} {s t : Pool.System F} {a : Pool.Act F} {r : Except AnyError Unit}
    (h : Pool.step p s a = some t) (hi : s.init = .done r) : t.init = .done r := by
  have hmove := Pool.step_cases h
  by_cases ha : a = .init
  · subst ha
    have hinit : Pool.initStep p s = some t := h
    unfold Pool.initStep at hinit
    rw [hi] at hinit
    cases hinit
  · cases Pool.move_effect hmove ha with
    | ready hp hi' hd hc hw hth => exact hi'.trans hi
    | failed hp hi' hd hc hw hph hs => exact hi'.trans hi
    | other hi' hd hc hw => exact hi'.trans hi

/-- a step of the process is one of its parts -/
theorem nodeStep_cases {n n' : Node F} {a : NodeAct F} (h : nodeStep d n a = some n') :
    (∃ b pool, a = .pool b ∧ Pool.step d.setup n.pool b = some pool ∧ n' = { n with pool := pool }) ∨
    ∃ b server, a = .server b ∧ Awaits d n b ∧
      Startup.step d.strategy d.cfg d.world n.server b = some server ∧ n' = { n with server := server } := by
  cases a with
  | pool b =>
    unfold nodeStep at h
    dsimp only at h
    split at h
    · cases h
    · obtain ⟨pool, hpool, rfl⟩ := Option.map_eq_some_iff.mp h
      exact .inl ⟨b, pool, rfl, hpool, rfl⟩
  | server b =>
    unfold nodeStep at h
    dsimp only at h
    split at h
    · rename_i hawaits
      obtain ⟨server, hserver, rfl⟩ := Option.map_eq_some_iff.mp h
      exact .inr ⟨b, server, rfl, hawaits, hserver, rfl⟩
    · cases h

theorem inStep_step {n n' : Node F} {a : NodeAct F} (inv : InStep n) (h : nodeStep d n a = some n') :
    InStep n' := by
  rcases nodeStep_cases h with ⟨b, pool, -, hpool, rfl⟩ | ⟨b, server, rfl, hawaits, hserver, rfl⟩
  · refine ⟨inv.waiting, fun hm => ?_⟩
    obtain ⟨u, hu⟩ := inv.passed hm
    exact ⟨u, pool_done_stays hpool hu⟩
  · by_cases hm : n.server.main = .init
    · obtain ⟨hr, hp⟩ := inv.waiting hm
      rcases startup_step_init hserver hm hr hp with ⟨rfl, hok, hm'⟩ | ⟨hm', hr', hp'⟩
      · refine ⟨fun hinit => ?_, fun _ => ?_⟩
        · rw [show server.main = .init from hinit] at hm'
          cases hm'
        · rcases hawaits hm with hpanic | hresult
          · rw [hok] at hpanic
            cases hpanic
          · rw [hok] at hresult
            unfold Pool.InitPc.result at hresult
            split at hresult
            · rename_i u hdone
              exact ⟨u, hdone⟩
            · cases hresult
            · cases hresult
      · exact ⟨fun _ => ⟨hr', hp'⟩, fun hm'' => absurd hm' hm''⟩
    · exact ⟨fun hinit => absurd hinit (startup_step_passed hserver hm), fun _ => inv.passed hm⟩

theorem reach_inStep {C : Node F → NodeAct F → Prop} {ceiling : Nat} {n0 n : Node F}
    (hboot : bootNode d ceiling = some n0) (h : Reach (nodeStep d) C n0 n) : InStep n := by
  refine h.invariant ?_ fun _ _ _ inv _ hs => inStep_step inv hs
  obtain ⟨server, hserver, rfl⟩ := Option.map_eq_some_iff.mp hboot
  unfold Startup.boot at hserver
  split at hserver
  · cases hserver
    exact ⟨fun _ => ⟨rfl, rfl⟩, fun hm => absurd rfl hm⟩
  · cases hserver

/-! ## the pool of a node -/

/-- a thread of the pool dies only as the last one -/
def NodeLasting (d : Deployment) (n : Node F) : NodeAct F → Prop
  | .pool a => Pool.Lasting d.setup n.pool a
  | .server _ => True

theorem reach_pool {ceiling : Nat} {n0 n : Node F} (hboot : bootNode d ceiling = some n0)
    (h : Reach (nodeStep d) (NodeLasting d) n0 n) :
    Reach (Pool.step d.setup) (Pool.Lasting d.setup) (Pool.start d.setup ceiling) n.pool := by
  obtain ⟨server, -, rfl⟩ := Option.map_eq_some_iff.mp hboot
  refine h.project (f := Node.pool) fun t a u hc hs => ?_
  rcases nodeStep_cases hs with ⟨b, pool, rfl, hpool, rfl⟩ | ⟨b, server, rfl, -, -, rfl⟩
  · exact .single hc hpool
  · exact .refl

/-- with `ready` every worker was spawned and its ready signal processed -/
theorem ready_counted {ceiling : Nat} {n0 n : Node F} (hboot : bootNode d ceiling = some n0)
    (h : Reach (nodeStep d) (NodeLasting d) n0 n) (hready : n.server.ready = true) :
    n.pool.rssDeltas.length = d.setup.n ∧ ∀ k < d.setup.n, (n.pool.workers k).phase ≠ .absent := by
  have inv := Pool.reach_booksInv (reach_pool hboot h)
  have hstep := reach_inStep hboot h
  have hmain : n.server.main ≠ .init := by
    intro hm
    rw [(hstep.waiting hm).1] at hready
    cases hready
  obtain ⟨u, hu⟩ := hstep.passed hmain
  have hlen : n.pool.rssDeltas.length = d.setup.n := by
    have hpc := inv.pc
    rw [hu] at hpc
    cases hpc with
    | wait hk _ _ => cases hk
    | ok hn => exact hn
  refine ⟨hlen, fun k hk habsent => ?_⟩
  rw [← hlen] at hk
  have hserving := (inv.heard k _ (List.getElem?_eq_getElem hk)).phase
  rw [habsent] at hserving
  rcases hserving with hserving | hserving <;> cases hserving

/-- the counters of the pool, as the handler reads them -/
theorem counters_tell {ceiling : Nat} {n0 n : Node F} (hboot : bootNode d ceiling = some n0)
    (h : Reach (nodeStep d) (NodeLasting d) n0 n) (hready : n.server.ready = true) :
    (n.pool.live = 0 ↔ ∀ k < d.setup.n, (n.pool.workers k).phase.isExited = true) ∧
    (d.setup.n ≤ n.pool.live ↔ ∀ k < d.setup.n, (n.pool.workers k).phase.isExited = false) ∧
    (n.pool.live ≠ 0 → (n.pool.shared.loadedWorkers = 0 ↔ ∀ k < d.setup.n, ¬ n.pool.serves k)) := by
  have inv := Pool.reach_booksInv (reach_pool hboot h)
  have hle : Nat.count n.pool.isLive d.setup.n ≤ d.setup.n := Nat.count_le _
  have hzero : n.pool.live = 0 ↔ ∀ k < d.setup.n, (n.pool.workers k).phase.isExited = true := by
    rw [inv.live, Nat.count_iff_forall_not]
    unfold Pool.System.isLive
    simp only [Bool.not_eq_false]
  refine ⟨hzero, ?_, ?_⟩
  · rw [inv.live, hle.ge_iff_eq, Nat.count_iff_forall]
    exact Iff.rfl
  · intro hlive
    rcases Pool.reach_balance (reach_pool hboot h) with hbalance | hended
    · rw [hbalance.settled (ready_counted hboot h hready).1.ge, Nat.count_iff_forall_not]
    · exact absurd (hzero.mpr hended) hlive

/-- the clamp of `EmbedPool::spawn` does not bite -/
def Unclamped (cfg : StartupConfig) : Prop := cfg.ep = .cpu ∨ cfg.workers ≤ max cfg.gpuCount 1

theorem poolSize_unclamped {cfg : StartupConfig} : cfg.poolSize = cfg.workers ↔ Unclamped cfg := by
  unfold StartupConfig.poolSize Startup.poolSize Unclamped
  dsimp only
  split
  · rename_i hclamp
    constructor
    · intro heq
      exact .inr heq.ge
    · rintro (hcpu | hle)
      · exact absurd hcpu hclamp.1
      · omega
  · rename_i hclamp
    refine iff_of_true rfl ?_
    rw [not_and_or, not_not] at hclamp
    rcases hclamp with hcpu | hle
    · exact .inl hcpu
    · exact .inr (Nat.le_of_not_lt hle)

/-- **`/health` tells the truth about the workers** of a pool that is not clamped, in every run in which a
thread dies of a fatal build error or a panic only as the last one: in every state with `ready` the status
is `fail` exactly when no thread is alive, `idle` exactly when one is alive and none holds a session,
`warn` exactly when one holds a session and one has ended, `ok` otherwise; and `workers.total` is the
number of threads the pool was started with. -/
theorem health_truthful (hcfg : Unclamped d.cfg) {ceiling : Nat} {n0 n : Node F}
    (hboot : bootNode d ceiling = some n0) (h : Reach (nodeStep d) (NodeLasting d) n0 n)
    (hready : n.server.ready = true) :
    (∀ k < d.setup.n, (n.pool.workers k).phase ≠ .absent) ∧
    ((health (n.appState d)).status = .fail ↔
      ∀ k < d.setup.n, (n.pool.workers k).phase.isExited = true) ∧
    ((health (n.appState d)).status = .idle ↔
      (∃ k < d.setup.n, (n.pool.workers k).phase.isExited = false) ∧ ∀ k < d.setup.n, ¬ n.pool.serves k) ∧
    ((health (n.appState d)).status = .warn ↔
      (∃ k < d.setup.n, n.pool.serves k) ∧ ∃ k < d.setup.n, (n.pool.workers k).phase.isExited = true) ∧
    ((health (n.appState d)).status = .ok ↔
      (∃ k < d.setup.n, n.pool.serves k) ∧ ∀ k < d.setup.n, (n.pool.workers k).phase.isExited = false) ∧
    (health (n.appState d)).workers = some ⟨Nat.count n.pool.isLive d.setup.n, d.setup.n⟩ := by
  have htotal : d.cfg.workers = d.setup.n := (poolSize_unclamped.mpr hcfg).symm.trans d.size.symm
  obtain ⟨hnone, hall, hloaded⟩ := counters_tell hboot h hready
  obtain ⟨hfail, hidle, hwarn, hok, hworkers⟩ := @health_status (n.appState d) hready
  have hsome : n.pool.live ≠ 0 ↔ ∃ k < d.setup.n, (n.pool.workers k).phase.isExited = false := by
    rw [ne_eq, hnone]
    push Not
    simp only [Bool.not_eq_true]
  have hserve : (n.pool.live ≠ 0 ∧ n.pool.shared.loadedWorkers ≠ 0) ↔ ∃ k < d.setup.n, n.pool.serves k := by
    constructor
    · rintro ⟨hlive, hne⟩
      rw [ne_eq, hloaded hlive] at hne
      push Not at hne
      exact hne
    · rintro ⟨k, hk, hs⟩
      have hlive : n.pool.live ≠ 0 := hsome.mpr ⟨k, hk, Pool.Thread.session_alive hs⟩
      exact ⟨hlive, fun hzero => (hloaded hlive).mp hzero k hk hs⟩
  refine ⟨(ready_counted hboot h hready).2, hfail.trans hnone, ?_, ?_, ?_, ?_⟩
  · refine hidle.trans (Iff.trans ?_ (and_congr_left fun _ => hsome))
    exact and_congr_right fun hlive => hloaded hlive
  · refine hwarn.trans ?_
    rw [← and_assoc]
    refine and_congr hserve ?_
    show n.pool.live < d.cfg.workers ↔ _
    rw [htotal, ← not_le, hall]
    push Not
    simp only [Bool.not_eq_false]
  · refine hok.trans ?_
    rw [← and_assoc]
    refine and_congr hserve ?_
    show d.cfg.workers ≤ n.pool.live ↔ _
    rw [htotal]
    exact hall
  · rw [hworkers]
    show some (WorkersBlock.mk n.pool.live d.cfg.workers) = _
    rw [htotal, (Pool.reach_booksInv (reach_pool hboot h)).live]

end

/-! ## two deployments -/

/-- two GPUs, a worker on each -/
def pairSetup : Pool.Setup where
  host := Pool.trtSolo.host
  config := Pool.trtSolo.config
  idleTimeout := true
  n := 2
  size := Pool.poolSize_two

def pairDeployment : Deployment where
  strategy := .unwind
  cfg := { Startup.twoWorkers (some (.conservative CostModel.defaultMaxWorkspace)) with
    ep := .tensorRt, gpuCount := 2 }
  world := Startup.roomyHost
  setup := pairSetup
  size := rfl
  ep := rfl

/-- two workers configured and one GPU: the pool has one thread -/
def clampedDeployment : Deployment where
  strategy := .unwind
  cfg := { Startup.twoWorkers (some (.conservative CostModel.defaultMaxWorkspace)) with ep := .tensorRt }
  world := Startup.roomyHost
  setup := Pool.trtSolo
  size := rfl
  ep := rfl

/-- worker `k` is spawned, loads its models and is counted -/
def comesUp (k : Nat) (m : Models Int) : List (NodeAct Int) :=
  [.pool .init, .pool (.startup k 0 (.ok m)), .pool .init, .pool .init]

/-- the readiness task goes through -/
def opens : List (NodeAct Int) := List.replicate 7 (.server .main)

/-- no thread ends here -/
def NodeAct.quiet {F : Type} : NodeAct F → Bool
  | .pool (.act _) | .pool (.die _) => false
  | _ => true

theorem nodeLasting_of_quiet {F : Type} {d : Deployment} {n : Node F} {a : NodeAct F} (h : a.quiet = true) :
    NodeLasting d n a := by
  cases a with
  | server b => trivial
  | pool b =>
    intro w hdies
    cases hdies with
    | fatal hp hs ho => cases h
    | died => cases h

/-- both workers come up, and one is idle for long -/
theorem health_truthful_pair :
    ∃ n : Node Int, Reach (nodeStep pairDeployment) (NodeLasting pairDeployment)
        ⟨Pool.start pairSetup 0, Startup.booted pairDeployment.cfg⟩ n ∧
      (health (n.appState pairDeployment)).status = .ok ∧
      (∃ k < 2, n.pool.serves k) ∧ ∀ k < 2, (n.pool.workers k).phase.isExited = false := by
  obtain ⟨n, hr, hready, hok⟩ : ∃ n : Node Int, Reach (nodeStep pairDeployment) (NodeLasting pairDeployment)
      ⟨Pool.start pairSetup 0, Startup.booted pairDeployment.cfg⟩ n ∧
      n.server.ready = true ∧ (health (n.appState pairDeployment)).status = .ok := by
    refine Reach.exists_of_run (comesUp 0 echoModels ++ comesUp 1 echoModels ++ opens ++
      [.pool (.drain 0 []), .pool (.timeout 0)]) ?_ (by decide +kernel)
    intro s a ha
    apply nodeLasting_of_quiet
    revert a
    exact List.all_eq_true.mp rfl
  have htrue := @health_truthful Int pairDeployment _ (.inr (by decide)) 0 _ n rfl hr hready
  exact ⟨n, hr, hok, htrue.2.2.2.2.1.mp hok⟩

/-- **With two workers configured and one GPU the only worker is alive and loaded and the status is
`warn`, with two workers in total.  After a fatal exit of one of two workers and an idle timeout of the
other no worker holds a session and the status is `warn`.** -/
theorem health_misreports :
    (∃ n : Node Int, Reachable (nodeStep clampedDeployment)
        ⟨Pool.start clampedDeployment.setup 0, Startup.booted clampedDeployment.cfg⟩ n ∧
      n.server.ready = true ∧ clampedDeployment.setup.n = 1 ∧ n.pool.serves 0 ∧
      (n.pool.workers 0).phase.isExited = false ∧
      (health (n.appState clampedDeployment)).status = .warn ∧
      (health (n.appState clampedDeployment)).workers = some ⟨1, 2⟩) ∧
    ∃ n : Node Int, Reachable (nodeStep pairDeployment)
        ⟨Pool.start pairSetup 0, Startup.booted pairDeployment.cfg⟩ n ∧
      n.server.ready = true ∧ (n.pool.workers 1).phase.isExited = false ∧
      (¬ n.pool.serves 0 ∧ ¬ n.pool.serves 1) ∧
      (health (n.appState pairDeployment)).status = .warn := by
  constructor
  · exact Reach.exists_of_run (comesUp 0 echoModels ++ opens) (fun _ _ _ => trivial) (by decide +kernel)
  · exact Reach.exists_of_run (comesUp 0 Pool.unbuildable ++ comesUp 1 echoModels ++ opens ++
      Pool.oneRequest.map .pool ++ [.pool (.drain 1 []), .pool (.timeout 1)]) (fun _ _ _ => trivial)
      (by decide +kernel)

end EmbedServer
