import EmbedServer.Startup.Permits

/-!
# How startup can end

An error of the readiness task ends the process.  The probe task only logs a failed readiness check,
and after a panic that does not abort nobody notices that it is gone: both leave a process that is
alive and never ready.

* `startup_ends_well`   a run without these two steps ends open or exited, and exits on the same
                        failures whatever path it takes.
-/

namespace EmbedServer.Startup

/-- all startup tasks have terminated -/
def Server.Settled (s : Server) : Prop :=
  s.exit ≠ none ∨ s.main = .done ∧ s.probe.live = false

/-- ready, with a terminal probe status and at least one permit free or with a request -/
def Server.Open (s : Server) : Prop :=
  s.exit = none ∧ s.ready = true ∧ s.probeStatus ≠ .running ∧ 1 ≤ s.permits + s.holding

section
variable (strategy : PanicStrategy) (cfg : StartupConfig) (world : World)

/-- open, or exited with an error; and exited for a failure exactly if there was one, with no mention of
the path -/
def EndsWell (s : Server) : Prop :=
  (s.Open ∨ s.exit ≠ none) ∧ (StartupFails cfg world → s.exit ≠ none) ∧
    (s.exit = some .failure → StartupFails cfg world)

/-- the step does not lose a failure of the probe task: a panic aborts, and both readiness calls
succeed -/
def Sound (s : Server) (act : Act) : Prop :=
  match act with
  | .probePanic => strategy = .abort
  | .probe =>
    match s.probe with
    | .sweep => strategy = .abort ∨ sweepPanics cfg world = false
    | .dense => world.dense.isOk = true
    | .sparse => world.sparse.isOk = true
    | .release => strategy = .abort ∨ s.permits + cfg.workers ≤ maxPermits
    | _ => True
  | _ => True

/-- nothing was lost so far -/
def NothingLost (s : Server) : Prop :=
  s.exit = none → s.probe ≠ .panicked ∧ (s.probe = .release ∨ s.probe = .done → s.ready = true)

variable {strategy cfg world}

theorem panicProbe_abort {s : Server} (h : strategy = .abort) :
    (panicProbe strategy cfg s).exit = some .aborted := by
  unfold panicProbe
  rw [h]

theorem probeStep_nothingLost {s s' : Server} (hc : Sound strategy cfg world s .probe)
    (hl : NothingLost s) (he : s.exit = none) (hs : probeStep strategy cfg world s = some s') :
    NothingLost s' := by
  intro he'
  unfold Sound at hc
  unfold probeStep at hs
  cases hp : s.probe with
  | absent | done | panicked => rw [hp] at hs; cases hs
  | start | install | status => rw [hp] at hs; cases hs; exact ⟨by simp, by simp⟩
  | sweep =>
    rw [hp] at hs hc
    dsimp only at hs
    split at hs
    · cases hs
      exact ⟨by simp, by simp⟩
    · rename_i e _
      cases e
    · rename_i msg hr
      cases hs
      rcases hc with hc | hc
      · rw [panicProbe_abort hc] at he'
        cases he'
      · rw [sweepPanics, hr] at hc
        cases hc
  | dense =>
    rw [hp] at hs hc
    dsimp only at hs hc
    cases hd : world.dense with
    | ok u => rw [hd] at hs; cases hs; exact ⟨by simp, by simp⟩
    | error e => rw [hd] at hc; cases hc
  | sparse =>
    rw [hp] at hs hc
    dsimp only at hs hc
    cases hd : world.sparse with
    | ok u => rw [hd] at hs; cases hs; exact ⟨by simp, by simp⟩
    | error e => rw [hd] at hc; cases hc
  | opening =>
    rw [hp] at hs
    cases hs
    exact ⟨by simp, fun _ => rfl⟩
  | release =>
    rw [hp] at hs hc
    dsimp only at hs hc
    have hr := (hl he).2 (.inl hp)
    split at hs
    · cases hs
      exact ⟨by simp, fun _ => hr⟩
    · rename_i hle
      have habort : strategy = .abort := hc.resolve_right hle
      split at hs <;> cases hs
      all_goals
        rw [panicProbe_abort habort] at he'
        cases he'

/-- the readiness task touches the probe task only to start it -/
theorem mainStep_probe {s s' : Server} (hs : mainStep strategy cfg world s = some s') :
    s.main ≠ .done ∧ (s'.probe = s.probe ∨ s'.probe = .start) := by
  cases mainStep_cases hs with
  | spawned hm => exact ⟨by rw [hm]; decide, .inr rfl⟩
  | status st hm => exact ⟨by rw [hm]; simp, .inl rfl⟩
  | overridden cm hm | hit a b hm => exact ⟨by rw [hm]; decide, .inl rfl⟩
  | inited hm | initFailed hm | initAborted hm | tooSmall hm | sized hm | miss hm | denseOk hm
  | denseFailed hm | sparseOk hm | sparseFailed hm | opened hm | drained hm =>
    exact ⟨by rw [hm]; decide, .inl rfl⟩

theorem step_nothingLost {s s' : Server} {act : Act} (hi : Inv strategy cfg world s)
    (hc : Sound strategy cfg world s act) (hl : NothingLost s)
    (hs : step strategy cfg world s act = some s') : NothingLost s' := by
  unfold step at hs
  split at hs
  · cases hs
  · rename_i hne
    have he : s.exit = none := Option.not_isSome_iff_eq_none.mp hne
    obtain ⟨h1, h2⟩ := hl he
    have hf := facts_of_inv he hi
    cases act with
    | main =>
      obtain ⟨hm, hp⟩ := mainStep_probe hs
      rw [(hf.order hm).1] at hp
      rcases hp with hp | hp
      · exact fun _ => ⟨by rw [hp]; decide, fun h => by rw [hp] at h; simp at h⟩
      · exact fun _ => ⟨by rw [hp]; decide, fun h => by rw [hp] at h; simp at h⟩
    | probe => exact probeStep_nothingLost hc hl he hs
    | probePanic =>
      dsimp only at hs
      split at hs
      · cases hs
        intro he'
        rw [panicProbe_abort hc] at he'
        cases he'
      · cases hs
    | arrive | leave | acquire | finish =>
      dsimp only at hs
      split at hs
      · cases hs
        exact fun _ => ⟨h1, h2⟩
      · cases hs

/-- both invariants along a sound run -/
theorem reach_nothingLost {s0 s : Server} (hboot : boot cfg = some s0)
    (h : Reach (step strategy cfg world) (Sound strategy cfg world) s0 s) :
    Inv strategy cfg world s ∧ NothingLost s := by
  refine h.invariant (I := fun s => Inv strategy cfg world s ∧ NothingLost s) ⟨boot_inv hboot, ?_⟩
    fun t a u hi hc hs => ⟨step_inv hi.1 hs, step_nothingLost hi.1 hc hi.2 hs⟩
  unfold boot at hboot
  split at hboot
  · cases hboot
    exact fun _ => ⟨by simp [booted], by simp [booted]⟩
  · cases hboot

/-! ## settled states -/

theorem not_exits {p : StartupPath} (h : startupPath cfg world = p) (hp : p ≠ .exits) :
    world.init = .ok ∧ ¬ cfg.perWorkerWorkspace world < physicsFloor cfg.maxSeqLength := by
  subst h
  unfold startupPath at hp
  split at hp
  · exact absurd rfl hp
  · rename_i h
    exact ⟨not_not.mp (not_or.mp h).1, (not_or.mp h).2⟩

/-- a server that settled without a lost failure is open, and its startup met no failure -/
theorem open_of_settled {s : Server} (he : s.exit = none) (hf : Facts strategy cfg world s)
    (hl : NothingLost s) (hm : s.main = .done) (hp : s.probe.live = false) :
    s.Open ∧ ¬ StartupFails cfg world := by
  have hpf := hf.probe
  unfold probeFacts at hpf
  have hw := cfg.workers_pos
  cases hpc : s.probe with
  | absent =>
    rw [hpc] at hpf
    obtain ⟨hpath, hok, hr⟩ := hpf hm
    have hn := permits_inline hf hm hpc
    unfold StartupConfig.initialPermits at hn
    refine ⟨⟨he, hr, inline_terminal hpath, by omega⟩, ?_⟩
    obtain ⟨h1, h2⟩ := not_exits hpath (by simp)
    rintro (h | h | h)
    · exact h h1
    · exact h2 h
    · rw [hok] at h; cases h
  | done =>
    rw [hpc] at hpf
    obtain ⟨hpath, hrc, -, hst⟩ := hpf
    have hr := (hl he).2 (.inr hpc)
    have hn := permits_released hf hpc
    refine ⟨⟨he, hr, hst, by omega⟩, ?_⟩
    obtain ⟨h1, h2⟩ := not_exits hpath (by simp)
    rintro (h | h | h)
    · exact h h1
    · exact h2 h
    · rw [← hrc, hr] at h; cases h
  | panicked => exact absurd hpc (hl he).1
  | start | sweep | install | status | dense | sparse | opening | release =>
    rw [hpc] at hp
    cases hp

/-- **A run that loses no failure of the probe task ends open or exited**, and every path exits on the
same failures. -/
theorem startup_ends_well {s0 s : Server} (hboot : boot cfg = some s0)
    (h : Reach (step strategy cfg world) (Sound strategy cfg world) s0 s) (hs : s.Settled) :
    EndsWell cfg world s := by
  obtain ⟨hi, hl⟩ := reach_nothingLost hboot h
  cases he : s.exit with
  | none =>
    rcases hs with hs | ⟨hm, hp⟩
    · exact absurd he hs
    · obtain ⟨hopen, hno⟩ := open_of_settled he (facts_of_inv he hi) hl hm hp
      exact ⟨.inl hopen, fun hf => absurd hf hno, fun hx => by rw [he] at hx; cases hx⟩
  | some x =>
    refine ⟨.inr (by rw [he]; simp), fun _ => by rw [he]; simp, fun hx => ?_⟩
    rw [hx] at he
    cases he
    unfold Inv at hi
    rw [hx] at hi
    exact hi

/-- a failed readiness check of the probe task leaves a settled server that is not ready -/
theorem half_open_of_failed_check {s0 s : Server} (hboot : boot cfg = some s0)
    (hok : world.checksPass = false)
    (h : Reachable (step strategy cfg world) s0 s) (he : s.exit = none) (hp : s.probe = .done) :
    s.ready = false := by
  have hpf := (facts_of_inv he (reach_inv hboot h)).probe
  unfold probeFacts at hpf
  rw [hp] at hpf
  exact hpf.2.1.trans hok

end

/-! ## two workers on the probe path -/

instance : DecidablePred Server.Settled := fun s =>
  inferInstanceAs (Decidable (s.exit ≠ none ∨ s.main = .done ∧ s.probe.live = false))

/-- every call answers: the server opens -/
theorem startup_ends_well_twoWorkers :
    ∃ s, Reach (step .abort (twoWorkers none) roomyHost) (Sound .abort (twoWorkers none) roomyHost)
      (booted (twoWorkers none)) s ∧ s.Settled ∧ EndsWell (twoWorkers none) roomyHost s := by
  have hsound : ∀ s, ∀ a ∈ List.replicate 5 Act.main ++ List.replicate 8 Act.probe,
      Sound .abort (twoWorkers none) roomyHost s a := by
    intro s a _
    cases a with
    | probe =>
      unfold Sound
      dsimp only
      split <;> first | exact .inl rfl | rfl | trivial
    | probePanic => rfl
    | main | arrive | leave | acquire | finish => trivial
  obtain ⟨s, hr, hs⟩ : ∃ s, Reach (step .abort (twoWorkers none) roomyHost)
      (Sound .abort (twoWorkers none) roomyHost) (booted (twoWorkers none)) s ∧ s.Settled :=
    Reach.exists_of_run _ hsound (by decide +kernel)
  exact ⟨s, hr, hs, startup_ends_well rfl hr hs⟩

/-- the dense readiness call fails -/
def denseDown : World := { roomyHost with dense := .error (.msg "dense") }

/-- **The probe task logs the failure and ends: the process is alive and never ready.** -/
theorem probe_path_half_open :
    boot (twoWorkers none) = some (booted (twoWorkers none)) ∧
    ∃ s, Reachable (step .abort (twoWorkers none) denseDown) (booted (twoWorkers none)) s ∧
      s.Settled ∧ ¬ EndsWell (twoWorkers none) denseDown s := by
  obtain ⟨s, hr, hs, he, hp⟩ : ∃ s, Reachable (step .abort (twoWorkers none) denseDown)
      (booted (twoWorkers none)) s ∧ s.Settled ∧ s.exit = none ∧ s.probe = .done :=
    Reach.exists_of_run (List.replicate 5 .main ++ List.replicate 6 .probe) (fun _ _ _ => trivial)
      (by decide +kernel)
  have hready := half_open_of_failed_check rfl rfl hr he hp
  refine ⟨rfl, s, hr, hs, ?_⟩
  rintro ⟨hopen | hex, -⟩
  · rw [hopen.2.1] at hready
    cases hready
  · exact hex he

end EmbedServer.Startup
