import EmbedServer.Startup.Bootstrap

/-!
# What holds at every point of startup

`Facts` says for each point of the two tasks what is known there: the path that leads to it, the
results seen so far, and how many permits are in circulation.  `Inv` adds what an exited process says
about its run.  `reach_inv` : every run from `boot` keeps `Inv`.
-/

namespace EmbedServer.Startup

section
variable (strategy : PanicStrategy) (cfg : StartupConfig) (world : World)

/-- permits in circulation when both tasks are at the given points; unknown after a panic -/
def StartupConfig.due : MainPc → ProbePc → Option Nat
  | .spawn, .absent => some (cfg.initialPermits - cfg.probePermits)
  | _, .absent => some cfg.initialPermits
  | _, .done => some (cfg.initialPermits - cfg.probePermits + cfg.workers)
  | _, .panicked => none
  | _, _ => some (cfg.initialPermits - cfg.probePermits)

/-- what the readiness task knows -/
def mainFacts (s : Server) : Prop :=
  match s.main with
  | .init => True
  | .budget => world.init = .ok
  | .resolve => startupPath cfg world ≠ .exits
  | .status st => startupPath cfg world = .inline st
  | .dense => startupPath cfg world = .inline s.probeStatus
  | .sparse => startupPath cfg world = .inline s.probeStatus ∧ world.dense.isOk = true
  | .opening => startupPath cfg world = .inline s.probeStatus ∧ world.checksPass = true
  | .acquire | .spawn => startupPath cfg world = .probe ∧ s.probeStatus = .running
  | .done => True

/-- what the probe task knows; it has the readiness task behind it -/
def probeFacts (s : Server) : Prop :=
  match s.probe with
  | .absent => s.main = .done →
      startupPath cfg world = .inline s.probeStatus ∧ world.checksPass = true ∧ s.ready = true
  | .start | .sweep => startupPath cfg world = .probe ∧ s.ready = false
  | .install _ _ => startupPath cfg world = .probe ∧ s.ready = false ∧ sweepPanics cfg world = false
  | .status st => startupPath cfg world = .probe ∧ s.ready = false ∧ sweepPanics cfg world = false ∧
      st ≠ .running
  | .dense => startupPath cfg world = .probe ∧ s.ready = false ∧ sweepPanics cfg world = false ∧
      s.probeStatus ≠ .running
  | .sparse => startupPath cfg world = .probe ∧ s.ready = false ∧ sweepPanics cfg world = false ∧
      s.probeStatus ≠ .running ∧ world.dense.isOk = true
  | .opening => startupPath cfg world = .probe ∧ s.ready = false ∧ sweepPanics cfg world = false ∧
      s.probeStatus ≠ .running ∧ world.checksPass = true
  | .release | .done => startupPath cfg world = .probe ∧ s.ready = world.checksPass ∧
      sweepPanics cfg world = false ∧ s.probeStatus ≠ .running
  | .panicked => startupPath cfg world = .probe ∧ strategy = .unwind

structure Facts (s : Server) : Prop where
  balanced : ∀ n, cfg.due s.main s.probe = some n → s.permits + s.holding = n
  /-- the probe task is the last thing the readiness task starts -/
  order : s.main ≠ .done → s.probe = .absent ∧ s.ready = false
  /-- no request passes before `ready` -/
  quiet : s.ready = false → s.waiting = 0 ∧ s.holding = 0
  main : mainFacts cfg world s
  probe : probeFacts strategy cfg world s

/-- a failure every path of startup can meet -/
def StartupFails : Prop :=
  world.init ≠ .ok ∨ cfg.perWorkerWorkspace world < physicsFloor cfg.maxSeqLength ∨
    world.checksPass = false

/-- the invariant of startup -/
def Inv (s : Server) : Prop :=
  match s.exit with
  | none => Facts strategy cfg world s
  | some .failure => StartupFails cfg world
  | some .aborted => strategy = .abort

variable {strategy cfg world}

theorem inv_of_facts {s : Server} (he : s.exit = none) (h : Facts strategy cfg world s) :
    Inv strategy cfg world s := by
  unfold Inv
  rw [he]
  exact h

theorem facts_of_inv {s : Server} (he : s.exit = none) (h : Inv strategy cfg world s) :
    Facts strategy cfg world s := by
  unfold Inv at h
  rw [he] at h
  exact h

theorem boot_inv {s : Server} (h : boot cfg = some s) : Inv strategy cfg world s := by
  unfold boot at h
  split at h
  · cases h
    refine inv_of_facts rfl ⟨?_, fun _ => ⟨rfl, rfl⟩, fun _ => ⟨rfl, rfl⟩, trivial, ?_⟩
    · intro n hn
      cases hn
      rfl
    · intro h
      cases h
  · cases h

/-! ## paths -/

theorem inline_terminal {st : ProbeStatus} (h : startupPath cfg world = .inline st) : st ≠ .running := by
  unfold startupPath at h
  split at h
  · cases h
  · split at h
    · cases h; decide
    · split at h
      · cases h; decide
      · cases h

theorem probePermits_le : cfg.probePermits ≤ cfg.initialPermits := by
  unfold StartupConfig.probePermits StartupConfig.initialPermits
  omega

theorem checksPass_iff : world.checksPass = true ↔ world.dense.isOk = true ∧ world.sparse.isOk = true := by
  unfold World.checksPass
  rw [Bool.and_eq_true]

section
variable (hi : world.init = .ok) (hle : physicsFloor cfg.maxSeqLength ≤ cfg.perWorkerWorkspace world)
include hi hle

theorem goes_on : ¬ (world.init ≠ .ok ∨ cfg.perWorkerWorkspace world < physicsFloor cfg.maxSeqLength) :=
  not_or.mpr ⟨not_not.mpr hi, Nat.not_lt.mpr hle⟩

theorem startupPath_ne_exits : startupPath cfg world ≠ .exits := by
  unfold startupPath
  rw [if_neg (goes_on hi hle)]
  split
  · simp
  · split <;> simp

end

/-- startup that goes on past the budget -/
theorem path_of_ne_exits (hp : startupPath cfg world ≠ .exits) :
    world.init = .ok ∧ physicsFloor cfg.maxSeqLength ≤ cfg.perWorkerWorkspace world := by
  unfold startupPath at hp
  split at hp
  · exact absurd rfl hp
  · rename_i hne
    obtain ⟨hi, hlt⟩ := not_or.mp hne
    exact ⟨not_not.mp hi, Nat.le_of_not_lt hlt⟩

theorem path_overridden (hp : startupPath cfg world ≠ .exits) {cm : CostModel}
    (ho : cfg.costModelOverride = some cm) : startupPath cfg world = .inline .disabled := by
  obtain ⟨hi, hle⟩ := path_of_ne_exits hp
  unfold startupPath
  rw [if_neg (goes_on hi hle), ho]
  rfl

theorem path_hit (hp : startupPath cfg world ≠ .exits) (ho : cfg.costModelOverride = none)
    (hd : cfg.disableProbeCache = false) {c : Rat × Rat} (hc : world.cached = some c) :
    startupPath cfg world = .inline .cacheHit := by
  obtain ⟨hi, hle⟩ := path_of_ne_exits hp
  unfold startupPath
  rw [if_neg (goes_on hi hle), ho, hd, hc]
  rfl

theorem path_miss (hp : startupPath cfg world ≠ .exits) (h : mustProbe cfg world) :
    startupPath cfg world = .probe := by
  obtain ⟨hi, hle⟩ := path_of_ne_exits hp
  obtain ⟨ho, hdc⟩ := h
  unfold startupPath
  rw [if_neg (goes_on hi hle), ho]
  rcases hdc with hd | hc
  · rw [hd]
    rfl
  · have hno : (!cfg.disableProbeCache && world.cached.isSome) = false := by
      rw [hc]
      exact Bool.and_false _
    rw [hno]
    rfl

/-- where cost-model resolution goes -/
theorem resolve_cases {s s' : Server} (hm : s.main = .resolve)
    (hp : startupPath cfg world ≠ .exits) (h : mainStep strategy cfg world s = some s') :
    (∃ st cm, startupPath cfg world = .inline st ∧ s' = { s with costModel := cm, main := .status st }) ∨
      startupPath cfg world = .probe ∧ s' = { s with probeStatus := .running, main := .acquire } := by
  cases mainStep_cases h with
  | overridden cm _ ho => exact .inl ⟨.disabled, cm, path_overridden hp ho, rfl⟩
  | hit a b _ ho hd hc => exact .inl ⟨.cacheHit, _, path_hit hp ho hd hc, rfl⟩
  | miss _ hprobe => exact .inr ⟨path_miss hp hprobe, rfl⟩
  | _ => simp_all

/-! ## the readiness task -/

/-- a step of the readiness task that leaves it running touches neither the requests nor `ready` -/
theorem Facts.move {s s' : Server} (h : Facts strategy cfg world s) (hm : s.main ≠ .done)
    (hm' : s'.main ≠ .done) (hp : s'.probe = s.probe) (hr : s'.ready = s.ready)
    (hw : s'.waiting = s.waiting) (hh : s'.holding = s.holding)
    (hb : ∀ n, cfg.due s'.main .absent = some n → s'.permits + s'.holding = n)
    (hf : mainFacts cfg world s') : Facts strategy cfg world s' := by
  obtain ⟨ha, hr0⟩ := h.order hm
  rw [ha] at hp
  refine ⟨?_, fun _ => ⟨hp, hr.trans hr0⟩, fun _ => ?_, hf, ?_⟩
  · rw [hp]
    exact hb
  · rw [hw, hh]
    exact h.quiet hr0
  · unfold probeFacts
    rw [hp]
    exact fun hd => absurd hd hm'

/-- permits in circulation while the readiness task runs -/
theorem Facts.bal {s : Server} {pc : MainPc} (h : Facts strategy cfg world s) (hm : s.main = pc)
    (hne : pc ≠ .done) : ∀ n, cfg.due pc .absent = some n → s.permits + s.holding = n := by
  have hbal := h.balanced
  rw [(h.order (hm ▸ hne)).1, hm] at hbal
  exact hbal

theorem mainStep_inv {s s' : Server} (he : s.exit = none) (h : Facts strategy cfg world s)
    (hs : mainStep strategy cfg world s = some s') : Inv strategy cfg world s' := by
  have hmain := h.main
  unfold mainFacts at hmain
  cases mainStep_cases hs with
  | inited hm hi =>
    have hbal := h.bal hm (by decide)
    exact inv_of_facts he (h.move (by rw [hm]; decide) (by simp) rfl rfl rfl rfl hbal hi)
  | initFailed hm hi => exact Or.inl hi
  | initAborted hm ha => exact ha
  | tooSmall hm hlt => exact Or.inr (Or.inl hlt)
  | sized hm hle =>
    have hbal := h.bal hm (by decide)
    rw [hm] at hmain
    exact inv_of_facts he (h.move (by rw [hm]; decide) (by simp) rfl rfl rfl rfl hbal
      (startupPath_ne_exits hmain hle))
  | overridden cm hm ho =>
    have hbal := h.bal hm (by decide)
    rw [hm] at hmain
    exact inv_of_facts he (h.move (by rw [hm]; decide) (by simp) rfl rfl rfl rfl hbal
      (path_overridden hmain ho))
  | hit a b hm ho hd hc =>
    have hbal := h.bal hm (by decide)
    rw [hm] at hmain
    exact inv_of_facts he (h.move (by rw [hm]; decide) (by simp) rfl rfl rfl rfl hbal
      (path_hit hmain ho hd hc))
  | miss hm hp =>
    have hbal := h.bal hm (by decide)
    rw [hm] at hmain
    exact inv_of_facts he (h.move (by rw [hm]; decide) (by simp) rfl rfl rfl rfl hbal
      ⟨path_miss hmain hp, rfl⟩)
  | status st hm =>
    have hbal := h.bal hm (by simp)
    rw [hm] at hmain
    exact inv_of_facts he (h.move (by rw [hm]; simp) (by simp) rfl rfl rfl rfl hbal hmain)
  | denseOk hm hd =>
    have hbal := h.bal hm (by decide)
    rw [hm] at hmain
    exact inv_of_facts he (h.move (by rw [hm]; decide) (by simp) rfl rfl rfl rfl hbal
      ⟨hmain, hd⟩)
  | denseFailed hm hd => exact Or.inr (Or.inr (by rw [World.checksPass, hd]; rfl))
  | sparseOk hm hd =>
    have hbal := h.bal hm (by decide)
    rw [hm] at hmain
    exact inv_of_facts he (h.move (by rw [hm]; decide) (by simp) rfl rfl rfl rfl hbal
      ⟨hmain.1, checksPass_iff.mpr ⟨hmain.2, hd⟩⟩)
  | sparseFailed hm hd => exact Or.inr (Or.inr (by rw [World.checksPass, hd, Bool.and_comm]; rfl))
  | opened hm =>
    have ha := (h.order (by rw [hm]; decide)).1
    have hbal := h.bal hm (by decide)
    rw [hm] at hmain
    refine inv_of_facts he ⟨?_, fun hd => absurd rfl hd, fun hf => (by cases hf), trivial, ?_⟩
    · dsimp only
      rw [ha]
      exact hbal
    · unfold probeFacts
      dsimp only
      rw [ha]
      exact fun _ => ⟨hmain.1, hmain.2, rfl⟩
  | drained hm hle =>
    have hbal := h.bal hm (by decide)
    rw [hm] at hmain
    refine inv_of_facts he (h.move (by rw [hm]; decide) (by simp) rfl rfl rfl rfl ?_ hmain)
    intro n hn
    cases hn
    have := hbal _ rfl
    dsimp only
    omega
  | spawned hm =>
    have hr := (h.order (by rw [hm]; decide)).2
    have hbal := h.bal hm (by decide)
    rw [hm] at hmain
    exact inv_of_facts he ⟨hbal, fun hd => absurd rfl hd, h.quiet, trivial, hmain.1, hr⟩

/-! ## the probe task -/

/-- after a panic the permits are no longer tracked -/
theorem panicProbe_inv {s : Server} (he : s.exit = none)
    (hq : s.ready = false → s.waiting = 0 ∧ s.holding = 0) (hp : startupPath cfg world = .probe) (hm : s.main = .done) :
    Inv strategy cfg world (panicProbe strategy cfg s) := by
  unfold panicProbe
  cases strategy with
  | abort => exact rfl
  | unwind =>
    dsimp only
    split
    · refine inv_of_facts he ⟨fun n hn => ?_, fun hd => absurd hm hd, hq, ?_, hp, rfl⟩
      · rw [hm] at hn
        cases hn
      · unfold mainFacts
        dsimp only
        rw [hm]
        trivial
    · refine inv_of_facts he ⟨fun n hn => ?_, fun hd => absurd hm hd, hq, ?_, hp, rfl⟩
      · rw [hm] at hn
        cases hn
      · unfold mainFacts
        dsimp only
        rw [hm]
        trivial

/-- a step inside the probe window -/
theorem Facts.advance {s s' : Server} (h : Facts strategy cfg world s) (hm : s.main = .done)
    (hl : s.probe.live = true) (hl' : s'.probe.live = true) (hm' : s'.main = s.main)
    (hq : s'.ready = false → s'.waiting = s.waiting ∧ s'.holding = s.holding ∧ s.ready = false)
    (hb : s'.permits + s'.holding = s.permits + s.holding)
    (hf : probeFacts strategy cfg world s') : Facts strategy cfg world s' := by
  have hdue : ∀ pc : ProbePc, pc.live = true →
      cfg.due .done pc = some (cfg.initialPermits - cfg.probePermits) := by
    intro pc hpc
    cases pc <;> first | rfl | cases hpc
  have hbal := h.balanced
  rw [hm, hdue _ hl] at hbal
  refine ⟨?_, fun hd => absurd (hm'.trans hm) hd, fun hr => ?_, ?_, hf⟩
  · intro n hn
    rw [hm', hm, hdue _ hl'] at hn
    rw [hb]
    exact hbal n hn
  · obtain ⟨h1, h2, h3⟩ := hq hr
    rw [h1, h2]
    exact h.quiet h3
  · unfold mainFacts
    rw [hm', hm]
    trivial

theorem Facts.main_done {s : Server} (h : Facts strategy cfg world s) (hp : s.probe ≠ .absent) :
    s.main = .done := by
  by_contra hm
  exact hp (h.order hm).1

/-- a live probe task was started on the probe path -/
theorem Facts.path_of_live {s : Server} (h : Facts strategy cfg world s) (hl : s.probe.live = true) :
    startupPath cfg world = .probe := by
  have hf := h.probe
  unfold probeFacts at hf
  cases hp : s.probe <;> rw [hp] at hf hl <;> first | exact hf.1 | cases hl

theorem probedStatus_terminal (a b : Rat) : probedStatus a b ≠ .running := by
  unfold probedStatus
  split <;> decide

theorem sweep_not_panics {r : (Rat × Rat) × List Shape}
    (h : runProbe world.probe cfg.maxSeqLength (cfg.perWorkerWorkspace world) world.availableBytes = .ok r) :
    sweepPanics cfg world = false := by
  unfold sweepPanics
  rw [h]
  rfl

theorem probeStep_inv {s s' : Server} (he : s.exit = none) (h : Facts strategy cfg world s)
    (hs : probeStep strategy cfg world s = some s') : Inv strategy cfg world s' := by
  have hf := h.probe
  unfold probeFacts at hf
  cases probeStep_cases hs with
  | started hp =>
    have hm := h.main_done (by rw [hp]; decide)
    rw [hp] at hf
    exact inv_of_facts he (h.advance hm (by rw [hp]; rfl) rfl rfl (fun hr => ⟨rfl, rfl, hr⟩) rfl hf)
  | swept a b shapes hp hr =>
    have hm := h.main_done (by rw [hp]; decide)
    rw [hp] at hf
    exact inv_of_facts he (h.advance hm (by rw [hp]; rfl) rfl rfl (fun hr => ⟨rfl, rfl, hr⟩) rfl
      ⟨hf.1, hf.2, sweep_not_panics hr⟩)
  | sweepPanicked hp =>
    have hm := h.main_done (by rw [hp]; decide)
    rw [hp] at hf
    exact panicProbe_inv he h.quiet hf.1 hm
  | installed a b hp =>
    have hm := h.main_done (by rw [hp]; simp)
    rw [hp] at hf
    exact inv_of_facts he (h.advance hm (by rw [hp]; rfl) rfl rfl (fun hr => ⟨rfl, rfl, hr⟩) rfl
      ⟨hf.1, hf.2.1, hf.2.2, probedStatus_terminal a b⟩)
  | status st hp =>
    have hm := h.main_done (by rw [hp]; simp)
    rw [hp] at hf
    exact inv_of_facts he (h.advance hm (by rw [hp]; rfl) rfl rfl (fun hr => ⟨rfl, rfl, hr⟩) rfl hf)
  | denseOk hp hd =>
    have hm := h.main_done (by rw [hp]; decide)
    rw [hp] at hf
    obtain ⟨h1, h2, h3, h4⟩ := hf
    exact inv_of_facts he (h.advance hm (by rw [hp]; rfl) rfl rfl (fun hr => ⟨rfl, rfl, hr⟩) rfl
      ⟨h1, h2, h3, h4, hd⟩)
  | sparseOk hp hd =>
    have hm := h.main_done (by rw [hp]; decide)
    rw [hp] at hf
    obtain ⟨h1, h2, h3, h4, h5⟩ := hf
    exact inv_of_facts he (h.advance hm (by rw [hp]; rfl) rfl rfl (fun hr => ⟨rfl, rfl, hr⟩) rfl
      ⟨h1, h2, h3, h4, checksPass_iff.mpr ⟨h5, hd⟩⟩)
  | checkFailed hp hc =>
    have hl : s.probe.live = true := by rcases hp with hp | hp <;> rw [hp] <;> rfl
    have hm := h.main_done (by rcases hp with hp | hp <;> rw [hp] <;> decide)
    have hrest : s.ready = false ∧ sweepPanics cfg world = false ∧ s.probeStatus ≠ .running := by
      rcases hp with hp | hp <;> rw [hp] at hf
      · exact ⟨hf.2.1, hf.2.2.1, hf.2.2.2⟩
      · exact ⟨hf.2.1, hf.2.2.1, hf.2.2.2.1⟩
    obtain ⟨h2, h3, h4⟩ := hrest
    exact inv_of_facts he (h.advance hm hl rfl rfl (fun hr => ⟨rfl, rfl, hr⟩) rfl
      ⟨h.path_of_live hl, by rw [hc]; exact h2, h3, h4⟩)
  | opened hp =>
    have hm := h.main_done (by rw [hp]; decide)
    rw [hp] at hf
    obtain ⟨h1, h2, h3, h4, h5⟩ := hf
    exact inv_of_facts he (h.advance hm (by rw [hp]; rfl) rfl rfl (fun hr => by cases hr) rfl
      ⟨h1, h5.symm, h3, h4⟩)
  | released hp =>
    have hm := h.main_done (by rw [hp]; decide)
    have hbal := h.balanced
    rw [hm, hp] at hbal
    have := hbal _ rfl
    rw [hp] at hf
    refine inv_of_facts he ⟨?_, fun hd => absurd hm hd, h.quiet, ?_, hf⟩
    · intro n hn
      dsimp only at hn ⊢
      rw [hm] at hn
      cases hn
      omega
    · unfold mainFacts
      dsimp only
      rw [hm]
      trivial
  | overflowed permits hp =>
    have hm := h.main_done (by rw [hp]; decide)
    rw [hp] at hf
    exact panicProbe_inv he h.quiet hf.1 hm

/-! ## requests, and whole runs -/

/-- a request step keeps the number of permits in circulation, and is made only after `ready` -/
theorem Facts.request {s s' : Server} (h : Facts strategy cfg world s) (hr : s.ready = true)
    (hr' : s'.ready = s.ready) (hm : s'.main = s.main) (hp : s'.probe = s.probe)
    (hst : s'.probeStatus = s.probeStatus) (hb : s'.permits + s'.holding = s.permits + s.holding) :
    Facts strategy cfg world s' := by
  refine ⟨?_, ?_, fun hf => ?_, ?_, ?_⟩
  · rw [hm, hp, hb]
    exact h.balanced
  · rw [hm, hp, hr']
    exact h.order
  · rw [hr', hr] at hf
    cases hf
  · have hmain := h.main
    unfold mainFacts at hmain ⊢
    rw [hm, hst]
    exact hmain
  · have hprobe := h.probe
    unfold probeFacts at hprobe ⊢
    rw [hp, hm, hst, hr']
    exact hprobe

/-- a request that waits or holds a permit came after `ready` -/
theorem Facts.ready_of_request {s : Server} (h : Facts strategy cfg world s)
    (hpos : 0 < s.waiting ∨ 0 < s.holding) : s.ready = true := by
  by_contra hr
  have := h.quiet (Bool.not_eq_true _ ▸ hr)
  omega

theorem step_inv {s s' : Server} {act : Act} (h : Inv strategy cfg world s)
    (hs : step strategy cfg world s act = some s') : Inv strategy cfg world s' := by
  unfold step at hs
  split at hs
  · cases hs
  · rename_i hne
    have he : s.exit = none := Option.not_isSome_iff_eq_none.mp hne
    have hf := facts_of_inv he h
    cases act with
    | main => exact mainStep_inv he hf hs
    | probe => exact probeStep_inv he hf hs
    | probePanic =>
      dsimp only at hs
      split at hs
      · rename_i hl
        cases hs
        have hm := hf.main_done (by intro ha; rw [ha] at hl; cases hl)
        exact panicProbe_inv he hf.quiet (hf.path_of_live hl) hm
      · cases hs
    | arrive =>
      dsimp only at hs
      split at hs
      · rename_i hr
        cases hs
        exact inv_of_facts he (hf.request hr rfl rfl rfl rfl rfl)
      · cases hs
    | leave =>
      dsimp only at hs
      split at hs
      · rename_i hpos
        cases hs
        exact inv_of_facts he (hf.request (hf.ready_of_request (.inl hpos)) rfl rfl rfl rfl rfl)
      · cases hs
    | acquire =>
      dsimp only at hs
      split at hs
      · rename_i hpos
        cases hs
        refine inv_of_facts he (hf.request (hf.ready_of_request (.inl hpos.1)) rfl rfl rfl rfl ?_)
        dsimp only
        omega
      · cases hs
    | finish =>
      dsimp only at hs
      split at hs
      · rename_i hpos
        cases hs
        refine inv_of_facts he (hf.request (hf.ready_of_request (.inr hpos)) rfl rfl rfl rfl ?_)
        dsimp only
        omega
      · cases hs

/-- **Every run of startup keeps the invariant.** -/
theorem reach_inv {C : Server → Act → Prop} {s0 s : Server} (hboot : boot cfg = some s0)
    (h : Reach (step strategy cfg world) C s0 s) : Inv strategy cfg world s :=
  h.invariant (boot_inv hboot) fun _ _ _ hi _ hs => step_inv hi hs

end
end EmbedServer.Startup
