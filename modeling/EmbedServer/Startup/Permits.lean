import EmbedServer.Startup.Invariant

/-!
# Request permits after startup

`request_permits` starts one short of the configured workers.  Only the probe path ever adds permits,
and it adds as many as were configured, not as many as are missing.

* `permits_match_iff`   the permits end up equal to the number of worker threads, and are drained
                        during the probe, exactly under `PermitsMatch`.
-/

namespace EmbedServer.Startup

/-- startup has run to its end and the server takes requests -/
def Server.Opened (s : Server) : Prop :=
  s.exit = none ∧ s.ready = true ∧ s.main = .done ∧ (s.probe = .absent ∨ s.probe = .done)

/-- from the acquire in `spawn_probe_task` to the final `add_permits` -/
def Server.InWindow (s : Server) : Prop :=
  s.exit = none ∧ (s.main = .spawn ∨ s.probe.live = true)

/-- one available permit per worker thread after startup, none in the probe window -/
def PermitsExact (cfg : StartupConfig) (s : Server) : Prop :=
  (s.Opened → s.holding = 0 → s.permits = cfg.poolSize) ∧ (s.InWindow → s.permits = 0)

/-- the condition on configuration and path -/
def PermitsMatch (cfg : StartupConfig) (world : World) : Prop :=
  match startupPath cfg world with
  | .exits => True
  | .inline _ => world.checksPass = true → cfg.poolSize = max (cfg.workers - 1) 1
  | .probe => 2 ≤ cfg.workers ∧ cfg.workers ≤ 2 ^ 32 ∧
      (world.checksPass = true → sweepPanics cfg world = false → cfg.poolSize = cfg.workers)

section
variable {strategy : PanicStrategy} {cfg : StartupConfig} {world : World}

/-! ## from the accounts -/

theorem permits_inline {s : Server} (h : Facts strategy cfg world s) (hm : s.main = .done)
    (hp : s.probe = .absent) : s.permits + s.holding = cfg.initialPermits := by
  have := h.balanced
  rw [hm, hp] at this
  exact this _ rfl

theorem permits_released {s : Server} (h : Facts strategy cfg world s) (hp : s.probe = .done) :
    s.permits + s.holding = cfg.initialPermits - cfg.probePermits + cfg.workers := by
  have := h.balanced
  rw [h.main_done (by rw [hp]; decide), hp] at this
  exact this _ rfl

theorem permits_window {s : Server} (h : Facts strategy cfg world s) (hw : s.InWindow) :
    s.permits + s.holding = cfg.initialPermits - cfg.probePermits := by
  have hbal := h.balanced
  rcases hw.2 with hm | hl
  · rw [hm, (h.order (by rw [hm]; decide)).1] at hbal
    exact hbal _ rfl
  · have hm := h.main_done (by intro ha; rw [ha] at hl; cases hl)
    rw [hm] at hbal
    cases hp : s.probe <;> rw [hp] at hbal hl <;> first | exact hbal _ rfl | cases hl

theorem drained_iff : cfg.initialPermits - cfg.probePermits = 0 ↔ 2 ≤ cfg.workers ∧ cfg.workers ≤ 2 ^ 32 := by
  have := cfg.workers_pos
  unfold StartupConfig.initialPermits StartupConfig.probePermits u32Max
  omega

theorem window_path {s : Server} (h : Facts strategy cfg world s) (hw : s.InWindow) :
    startupPath cfg world = .probe := by
  rcases hw.2 with hm | hl
  · have hf := h.main
    unfold mainFacts at hf
    rw [hm] at hf
    exact hf.1
  · exact h.path_of_live hl

theorem permitsExact_of_match (hc : PermitsMatch cfg world) {s : Server}
    (h : Inv strategy cfg world s) : PermitsExact cfg s := by
  unfold PermitsMatch at hc
  constructor
  · rintro ⟨he, hr, hm, hp⟩ hh
    have hf := facts_of_inv he h
    have hpf := hf.probe
    unfold probeFacts at hpf
    rcases hp with hp | hp
    · rw [hp] at hpf
      obtain ⟨hpath, hok, -⟩ := hpf hm
      rw [hpath] at hc
      have := permits_inline hf hm hp
      rw [hh, Nat.add_zero] at this
      rw [this, hc hok]
      rfl
    · rw [hp] at hpf
      obtain ⟨hpath, hrc, hsp, -⟩ := hpf
      rw [hpath] at hc
      have := permits_released hf hp
      rw [hh, drained_iff.mpr ⟨hc.1, hc.2.1⟩, Nat.add_zero, Nat.zero_add] at this
      rw [this, hc.2.2 (hrc ▸ hr) hsp]
  · intro hw
    have hf := facts_of_inv hw.1 h
    rw [window_path hf hw] at hc
    have := permits_window hf hw
    rw [drained_iff.mpr ⟨hc.1, hc.2.1⟩] at this
    omega

/-! ## runs that get there -/

variable (strategy cfg world) in
/-- some run without requests has the two tasks at these points -/
def Gets (s0 : Server) (m : MainPc) (p : ProbePc) : Prop :=
  ∃ s, Reachable (step strategy cfg world) s0 s ∧ s.exit = none ∧ s.waiting = 0 ∧ s.holding = 0 ∧
    s.main = m ∧ s.probe = p

theorem Gets.next {s0 : Server} {m m' : MainPc} {p p' : ProbePc} (h : Gets strategy cfg world s0 m p)
    (act : Act) (hboot : boot cfg = some s0)
    (hs : ∀ s, s.exit = none → Facts strategy cfg world s → s.holding = 0 → s.main = m → s.probe = p →
      ∃ s', step strategy cfg world s act = some s' ∧ s'.exit = s.exit ∧ s'.waiting = s.waiting ∧
        s'.holding = s.holding ∧ s'.main = m' ∧ s'.probe = p') :
    Gets strategy cfg world s0 m' p' := by
  obtain ⟨s, hr, he, hw, hh, hm, hp⟩ := h
  obtain ⟨s', hs', h1, h2, h3, h4, h5⟩ := hs s he (facts_of_inv he (reach_inv hboot hr)) hh hm hp
  exact ⟨s', hr.tail trivial hs', h1.trans he, h2.trans hw, h3.trans hh, h4, h5⟩

theorem Gets.start {s0 : Server} (hboot : boot cfg = some s0) :
    Gets strategy cfg world s0 .init .absent := by
  refine ⟨s0, .refl, ?_⟩
  unfold boot at hboot
  split at hboot
  · cases hboot
    exact ⟨rfl, rfl, rfl, rfl, rfl⟩
  · cases hboot

variable (strategy) in
theorem gets_resolve {s0 : Server} (hboot : boot cfg = some s0)
    (hpath : startupPath cfg world ≠ .exits) : Gets strategy cfg world s0 .resolve .absent := by
  obtain ⟨hi, hle⟩ := path_of_ne_exits hpath
  have h1 : Gets strategy cfg world s0 .budget .absent := by
    refine (Gets.start hboot).next .main hboot fun s he _ _ hm hp =>
      ⟨{ s with main := .budget }, ?_, rfl, rfl, rfl, rfl, hp⟩
    simp [step, mainStep, he, hm, hi]
  refine h1.next .main hboot fun s he _ _ hm hp => ?_
  have hws : ¬ (cfg.budget world).1 < physicsFloor cfg.maxSeqLength := Nat.not_lt.mpr hle
  simp [step, mainStep, he, hm, hws, hp]

theorem step_main {s : Server} (he : s.exit = none) :
    step strategy cfg world s .main = mainStep strategy cfg world s := by
  simp [step, he]

theorem step_probe {s : Server} (he : s.exit = none) :
    step strategy cfg world s .probe = probeStep strategy cfg world s := by
  simp [step, he]

variable (strategy cfg world) in
theorem resolve_some {s : Server} (hm : s.main = .resolve) :
    ∃ s', mainStep strategy cfg world s = some s' := by
  unfold mainStep
  rw [hm]
  dsimp only
  split
  · exact ⟨_, rfl⟩
  · split <;> exact ⟨_, rfl⟩

variable (strategy) in
/-- an inline path whose checks pass opens the server -/
theorem gets_inline {s0 : Server} {st : ProbeStatus} (hboot : boot cfg = some s0)
    (hpath : startupPath cfg world = .inline st) (hok : world.checksPass = true) :
    Gets strategy cfg world s0 .done .absent := by
  obtain ⟨hdense, hsparse⟩ := checksPass_iff.mp hok
  have h1 : Gets strategy cfg world s0 (.status st) .absent := by
    refine (gets_resolve strategy hboot (by rw [hpath]; simp)).next .main hboot fun s he hf _ hm hp => ?_
    obtain ⟨s', hs⟩ := resolve_some strategy cfg world hm
    rcases resolve_cases hm (by rw [hpath]; simp) hs with ⟨st', cm, hst, rfl⟩ | ⟨hst, -⟩
    · rw [hpath] at hst
      cases hst
      exact ⟨_, (step_main he).trans hs, rfl, rfl, rfl, rfl, hp⟩
    · rw [hpath] at hst
      cases hst
  have h2 : Gets strategy cfg world s0 .dense .absent :=
    h1.next .main hboot fun s he _ _ hm hp => by simp [step_main he, mainStep, hm, hp]
  have h3 : Gets strategy cfg world s0 .sparse .absent := by
    refine h2.next .main hboot fun s he _ _ hm hp => ?_
    cases hd : world.dense with
    | ok u => simp [step_main he, mainStep, hm, hp, hd]
    | error e => rw [hd] at hdense; cases hdense
  have h4 : Gets strategy cfg world s0 .opening .absent := by
    refine h3.next .main hboot fun s he _ _ hm hp => ?_
    cases hd : world.sparse with
    | ok u => simp [step_main he, mainStep, hm, hp, hd]
    | error e => rw [hd] at hsparse; cases hsparse
  exact h4.next .main hboot fun s he _ _ hm hp => by simp [step_main he, mainStep, hm, hp]

variable (strategy) in
/-- the probe path drains the permits -/
theorem gets_spawn {s0 : Server} (hboot : boot cfg = some s0) (hpath : startupPath cfg world = .probe) :
    Gets strategy cfg world s0 .spawn .absent := by
  have h1 : Gets strategy cfg world s0 .acquire .absent := by
    refine (gets_resolve strategy hboot (by rw [hpath]; simp)).next .main hboot fun s he hf _ hm hp => ?_
    obtain ⟨s', hs⟩ := resolve_some strategy cfg world hm
    rcases resolve_cases hm (by rw [hpath]; simp) hs with ⟨st', cm, hst, -⟩ | ⟨-, rfl⟩
    · rw [hpath] at hst
      cases hst
    · exact ⟨_, (step_main he).trans hs, rfl, rfl, rfl, rfl, hp⟩
  refine h1.next .main hboot fun s he hf hh hm hp => ?_
  have hbal := hf.balanced
  rw [hm, hp] at hbal
  have hle : cfg.probePermits ≤ s.permits := by
    have := hbal _ rfl
    have := @probePermits_le cfg
    omega
  simp [step_main he, mainStep, hm, hp, hle]

variable (strategy) in
/-- a sweep that does not panic, and checks that pass, open the server -/
theorem gets_done {s0 : Server} (hboot : boot cfg = some s0) (hpath : startupPath cfg world = .probe)
    (hw : 2 ≤ cfg.workers ∧ cfg.workers ≤ 2 ^ 32) (hok : world.checksPass = true)
    (hsweep : sweepPanics cfg world = false) : Gets strategy cfg world s0 .done .done := by
  obtain ⟨hdense, hsparse⟩ := checksPass_iff.mp hok
  have h1 : Gets strategy cfg world s0 .done .start :=
    (gets_spawn strategy hboot hpath).next .main hboot fun s he _ _ hm hp => by
      simp [step_main he, mainStep, hm]
  have h2 : Gets strategy cfg world s0 .done .sweep :=
    h1.next .probe hboot fun s he _ _ hm hp => by simp [step_probe he, probeStep, hm, hp]
  obtain ⟨a, b, h3⟩ : ∃ a b, Gets strategy cfg world s0 .done (.install a b) := by
    unfold sweepPanics at hsweep
    cases hr : runProbe world.probe cfg.maxSeqLength (cfg.perWorkerWorkspace world) world.availableBytes with
    | ok r =>
      exact ⟨r.1.1, r.1.2, h2.next .probe hboot fun s he _ _ hm hp => by
        simp [step_probe he, probeStep, hm, hp, hr]⟩
    | err e => cases e
    | panic m => rw [hr] at hsweep; cases hsweep
  have h4 : Gets strategy cfg world s0 .done (.status (probedStatus a b)) :=
    h3.next .probe hboot fun s he _ _ hm hp => by simp [step_probe he, probeStep, hm, hp]
  have h5 : Gets strategy cfg world s0 .done .dense :=
    h4.next .probe hboot fun s he _ _ hm hp => by simp [step_probe he, probeStep, hm, hp]
  have h6 : Gets strategy cfg world s0 .done .sparse := by
    refine h5.next .probe hboot fun s he _ _ hm hp => ?_
    cases hd : world.dense with
    | ok u => simp [step_probe he, probeStep, hm, hp, hd]
    | error e => rw [hd] at hdense; cases hdense
  have h7 : Gets strategy cfg world s0 .done .opening := by
    refine h6.next .probe hboot fun s he _ _ hm hp => ?_
    cases hd : world.sparse with
    | ok u => simp [step_probe he, probeStep, hm, hp, hd]
    | error e => rw [hd] at hsparse; cases hsparse
  have h8 : Gets strategy cfg world s0 .done .release :=
    h7.next .probe hboot fun s he _ _ hm hp => by simp [step_probe he, probeStep, hm, hp]
  refine h8.next .probe hboot fun s he hf _ hm hp => ?_
  have hle : s.permits + cfg.workers ≤ maxPermits := by
    have := permits_window hf ⟨he, .inr (by rw [hp]; rfl)⟩
    rw [drained_iff.mpr hw] at this
    unfold maxPermits
    omega
  simp [step_probe he, probeStep, hm, hp, hle]

/-! ## the exact condition -/

variable (strategy) in
/-- **After startup there is one available permit per worker thread, and none in the probe window,
in every run, exactly under `PermitsMatch`.** -/
theorem permits_match_iff {s0 : Server} (hboot : boot cfg = some s0) :
    (∀ s, Reachable (step strategy cfg world) s0 s → PermitsExact cfg s) ↔ PermitsMatch cfg world := by
  constructor
  · intro hall
    unfold PermitsMatch
    cases hpath : startupPath cfg world with
    | exits => trivial
    | inline st =>
      intro hok
      obtain ⟨s, hr, he, hw, hh, hm, hp⟩ := gets_inline strategy hboot hpath hok
      have hf := facts_of_inv he (reach_inv hboot hr)
      have hready := hf.probe
      unfold probeFacts at hready
      rw [hp] at hready
      have hn := permits_inline hf hm hp
      rw [hh, Nat.add_zero] at hn
      exact ((hall s hr).1 ⟨he, (hready hm).2.2, hm, .inl hp⟩ hh).symm.trans hn
    | probe =>
      have hwin : 2 ≤ cfg.workers ∧ cfg.workers ≤ 2 ^ 32 := by
        obtain ⟨s, hr, he, hw, hh, hm, hp⟩ := gets_spawn strategy hboot hpath
        have hsw : s.InWindow := ⟨he, .inl hm⟩
        have hn := permits_window (facts_of_inv he (reach_inv hboot hr)) hsw
        rw [(hall s hr).2 hsw, hh] at hn
        exact drained_iff.mp hn.symm
      refine ⟨hwin.1, hwin.2, fun hok hsweep => ?_⟩
      obtain ⟨s, hr, he, hw, hh, hm, hp⟩ := gets_done strategy hboot hpath hwin hok hsweep
      have hf := facts_of_inv he (reach_inv hboot hr)
      have hready := hf.probe
      unfold probeFacts at hready
      rw [hp] at hready
      have hn := permits_released hf hp
      rw [hh, drained_iff.mpr hwin, Nat.add_zero, Nat.zero_add] at hn
      exact ((hall s hr).1 ⟨he, hready.2.1.trans hok, hm, .inr hp⟩ hh).symm.trans hn
  · intro hc s hr
    exact permitsExact_of_match hc (reach_inv hboot hr)

end

/-! ## two startups -/

instance : DecidablePred Server.Opened := fun s =>
  inferInstanceAs (Decidable (s.exit = none ∧ s.ready = true ∧ s.main = .done ∧
    (s.probe = .absent ∨ s.probe = .done)))

/-- 32 GiB, models of 1 GiB, everything answers; the probe calls of the pool fail -/
def roomyHost : World where
  init := .ok
  availableBytes := 2 ^ 35
  modelRssPerWorker := 2 ^ 30
  cached := none
  probe := ⟨some ["a"], fun _ => none, fun _ => .error (.msg "probe")⟩
  dense := .ok ()
  sparse := .ok ()

/-- two CPU workers, with or without a cost-model override -/
def twoWorkers (cm : Option CostModel) : StartupConfig where
  workers := 2
  workers_pos := by decide
  ep := .cpu
  gpuCount := 1
  maxSeqLength := 8
  memorySafetyFactor := 7 / 10
  costModelOverride := cm
  disableProbeCache := false

/-- two workers after a probe: two permits -/
theorem permits_match_twoWorkers :
    boot (twoWorkers none) = some (booted (twoWorkers none)) ∧
    ∀ s, Reachable (step .abort (twoWorkers none) roomyHost) (booted (twoWorkers none)) s →
      PermitsExact (twoWorkers none) s := by
  have hpath : startupPath (twoWorkers none) roomyHost = .probe := by decide +kernel
  refine ⟨rfl, (permits_match_iff .abort rfl).mpr ?_⟩
  unfold PermitsMatch
  rw [hpath]
  exact ⟨by decide, by decide, fun _ _ => rfl⟩

/-- **Under an override the second of two workers never gets a permit.** -/
theorem override_one_permit_short :
    boot (twoWorkers (some (.conservative 1))) = some (booted (twoWorkers (some (.conservative 1)))) ∧
    ∃ s, Reachable (step .abort (twoWorkers (some (.conservative 1))) roomyHost)
      (booted (twoWorkers (some (.conservative 1)))) s ∧
      ¬ PermitsExact (twoWorkers (some (.conservative 1))) s := by
  obtain ⟨s, hr, hopen, hh, hp⟩ : ∃ s, Reachable
      (step .abort (twoWorkers (some (.conservative 1))) roomyHost)
      (booted (twoWorkers (some (.conservative 1)))) s ∧ s.Opened ∧ s.holding = 0 ∧ s.permits = 1 :=
    Reach.exists_of_run (List.replicate 7 .main) (fun _ _ _ => trivial) (by decide +kernel)
  refine ⟨rfl, s, hr, fun hx => ?_⟩
  have := hx.1 hopen hh
  rw [hp] at this
  exact absurd this (by decide)

end EmbedServer.Startup
