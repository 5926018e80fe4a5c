import EmbedServer.Startup.HalfOpen
import EmbedServer.Startup.Requests

/-!
# Startup comes to an end

The readiness task waits in `acquire_many_owned` for permits that requests also take.  It asks before
`ready`, when no request can hold one, so it never waits.

* `Server.rank`        a measure that every step but a new request lowers;
* `task_progress`      until startup has settled one of the two tasks has a step;
* `startup_settles`    every schedule settles.
-/

namespace EmbedServer.Startup

/-- steps left to the readiness task, with those of the probe task it may start -/
def MainPc.rank : MainPc → Nat
  | .init => 20
  | .budget => 19
  | .resolve => 18
  | .acquire => 17
  | .spawn => 16
  | .status _ => 5
  | .dense => 4
  | .sparse => 3
  | .opening => 2
  | .done => 0

def ProbePc.rank : ProbePc → Nat
  | .start => 9
  | .sweep => 8
  | .install _ _ => 7
  | .status _ => 6
  | .dense => 5
  | .sparse => 4
  | .opening => 3
  | .release => 2
  | .absent | .done | .panicked => 0

def Server.rank (s : Server) : Nat :=
  if s.exit.isSome then 0 else s.main.rank + s.probe.rank + 2 * s.waiting + s.holding + 1

section
variable {strategy : PanicStrategy} {cfg : StartupConfig} {world : World} {s s' : Server}

theorem rank_alive (he : s.exit = none) :
    s.rank = s.main.rank + s.probe.rank + 2 * s.waiting + s.holding + 1 := by
  rw [Server.rank, he]
  rfl

theorem rank_exited (he : s'.exit ≠ none) : s'.rank = 0 :=
  if_pos (Option.isSome_iff_ne_none.mpr he)

/-- what a step does to an exited process does not count -/
theorem rank_le (s : Server) : s.rank ≤ s.main.rank + s.probe.rank + 2 * s.waiting + s.holding + 1 := by
  unfold Server.rank
  split
  · exact Nat.zero_le _
  · exact le_rfl

theorem rank_main (he : s.exit = none) (hp : s.probe = .absent) (h : MainMove strategy cfg world s s') :
    s'.rank < s.rank := by
  have hexit {t : Server} (ht : t.exit ≠ none) : t.rank < s.rank := by
    rw [rank_exited ht, rank_alive he]
    exact Nat.succ_pos _
  -- the task goes on, and leaves the rest
  have hnext {t : Server} (hm : t.main.rank < s.main.rank) (hp : t.probe = s.probe)
      (hw : t.waiting = s.waiting) (hh : t.holding = s.holding) : t.rank < s.rank := by
    have hle := rank_le t
    rw [hp] at hle
    rw [rank_alive he]
    omega
  cases h with
  | initFailed | tooSmall | denseFailed | sparseFailed => exact hexit (Option.some_ne_none _)
  | initAborted => exact hexit (Option.some_ne_none _)
  | spawned hm =>
    have hle := rank_le { s with main := .done, probe := .start }
    rw [rank_alive he, hm, hp]
    dsimp only [MainPc.rank, ProbePc.rank] at hle ⊢
    omega
  | inited hm | sized hm | overridden _ hm | hit _ _ hm | miss hm | status _ hm | denseOk hm | sparseOk hm
  | opened hm | drained hm =>
    refine hnext ?_ rfl rfl rfl
    rw [hm]
    dsimp only [MainPc.rank]
    omega

/-- a panic ends the probe task, or the process -/
theorem rank_panicProbe {permits : Nat} (he : s.exit = none) (hl : s.probe.live = true) :
    (panicProbe strategy cfg { s with permits := permits }).rank < s.rank := by
  have hpos : 0 < s.probe.rank := by
    cases hp : s.probe with
    | absent | done | panicked => rw [hp] at hl; cases hl
    | _ => exact Nat.succ_pos _
  rw [rank_alive he]
  have hle := rank_le (panicProbe strategy cfg { s with permits := permits })
  cases strategy with
  | abort =>
    rw [rank_exited (Option.some_ne_none _)]
    exact Nat.succ_pos _
  | unwind =>
    have hsame : (panicProbe .unwind cfg { s with permits := permits }).main = s.main ∧
        (panicProbe .unwind cfg { s with permits := permits }).probe = .panicked := by
      unfold panicProbe
      dsimp only
      split <;> exact ⟨rfl, rfl⟩
    obtain ⟨hw, hh⟩ := @panicProbe_queue .unwind cfg { s with permits := permits }
    rw [hsame.1, hsame.2, hw, hh] at hle
    dsimp only [ProbePc.rank] at hle
    omega

theorem rank_probe (he : s.exit = none) (h : ProbeMove strategy cfg world s s') : s'.rank < s.rank := by
  have hnext {t : Server} (hp : t.probe.rank < s.probe.rank) (hm : t.main = s.main)
      (hw : t.waiting = s.waiting) (hh : t.holding = s.holding) : t.rank < s.rank := by
    have hle := rank_le t
    rw [hm] at hle
    rw [rank_alive he]
    omega
  cases h with
  | sweepPanicked hp => exact rank_panicProbe he (by rw [hp]; rfl)
  | overflowed permits hp => exact rank_panicProbe he (by rw [hp]; rfl)
  | checkFailed hp =>
    refine hnext ?_ rfl rfl rfl
    rcases hp with hp | hp <;> rw [hp] <;> dsimp only [ProbePc.rank] <;> omega
  | started hp | swept _ _ _ hp | installed _ _ hp | status _ hp | denseOk hp | sparseOk hp | opened hp
  | released hp =>
    refine hnext ?_ rfl rfl rfl
    rw [hp]
    dsimp only [ProbePc.rank]
    omega

/-- every step but a new request -/
theorem rank_step {act : Act} (hi : Inv strategy cfg world s) (ha : act ≠ .arrive)
    (h : step strategy cfg world s act = some s') : s'.rank < s.rank := by
  have he : s.exit = none := by
    unfold step at h
    split at h
    · cases h
    · exact Option.not_isSome_iff_eq_none.mp ‹_›
  have hf := facts_of_inv he hi
  cases act with
  | arrive => exact absurd rfl ha
  | main =>
    rw [step_main he] at h
    have hm : s.main ≠ .done := by
      intro hm
      rw [mainStep, hm] at h
      cases h
    exact rank_main he (hf.order hm).1 (mainStep_cases h)
  | probe =>
    rw [step_probe he] at h
    exact rank_probe he (probeStep_cases h)
  | probePanic =>
    unfold step at h
    rw [if_neg (by rw [he]; decide)] at h
    dsimp only at h
    split at h
    · rename_i hl
      cases h
      exact rank_panicProbe he hl
    · cases h
  | leave =>
    obtain ⟨hpos, rfl⟩ := leave_eq h
    have hle := rank_le { s with waiting := s.waiting - 1 }
    rw [rank_alive he]
    dsimp only at hle
    omega
  | acquire =>
    obtain ⟨hpos, rfl⟩ := acquire_eq h
    have hle := rank_le { s with
      waiting := s.waiting - 1, permits := s.permits - 1, holding := s.holding + 1 }
    rw [rank_alive he]
    dsimp only at hle
    omega
  | finish =>
    obtain ⟨hpos, rfl⟩ := finish_eq h
    have hle := rank_le { s with permits := s.permits + 1, holding := s.holding - 1 }
    rw [rank_alive he]
    dsimp only at hle
    omega

/-! ## no dead end -/

/-- nobody holds a permit when the readiness task asks for them -/
theorem mainStep_ne_none (hf : Facts strategy cfg world s) (hm : s.main ≠ .done) :
    mainStep strategy cfg world s ≠ none := by
  cases hpc : s.main with
  | done => exact absurd hpc hm
  | acquire =>
    obtain ⟨hp, hr⟩ := hf.order hm
    have hbal := hf.balanced cfg.initialPermits (by rw [hpc, hp]; rfl)
    have hquiet := (hf.quiet hr).2
    have hle : cfg.probePermits ≤ s.permits := by
      have hsome : cfg.probePermits ≤ cfg.initialPermits := probePermits_le
      omega
    rw [mainStep, hpc]
    dsimp only
    rw [if_pos hle]
    exact Option.some_ne_none _
  | init | budget | resolve | dense | sparse =>
    rw [mainStep, hpc]
    dsimp only
    split <;> first | exact Option.some_ne_none _ | (split <;> exact Option.some_ne_none _)
  | status | opening | spawn =>
    rw [mainStep, hpc]
    exact Option.some_ne_none _

variable (strategy cfg world) in
theorem probeStep_ne_none (hl : s.probe.live = true) : probeStep strategy cfg world s ≠ none := by
  cases hpc : s.probe with
  | absent | done | panicked => rw [hpc] at hl; cases hl
  | sweep =>
    rw [probeStep, hpc]
    dsimp only
    split
    · exact Option.some_ne_none _
    · rename_i e _
      cases e
    · exact Option.some_ne_none _
  | dense | sparse =>
    rw [probeStep, hpc]
    dsimp only
    split <;> exact Option.some_ne_none _
  | release =>
    rw [probeStep, hpc]
    dsimp only
    split
    · exact Option.some_ne_none _
    · split <;> exact Option.some_ne_none _
  | start | install | status | opening =>
    rw [probeStep, hpc]
    exact Option.some_ne_none _

theorem task_progress (hi : Inv strategy cfg world s) (h : ¬s.Settled) :
    ∃ act s', (act = .main ∨ act = .probe) ∧ step strategy cfg world s act = some s' := by
  have he : s.exit = none := by
    by_contra hne
    exact h (.inl hne)
  have hf := facts_of_inv he hi
  by_cases hm : s.main = .done
  · have hl : s.probe.live = true := by
      by_contra hl
      exact h (.inr ⟨hm, by simpa using hl⟩)
    obtain ⟨s', hs⟩ := Option.ne_none_iff_exists'.mp (probeStep_ne_none strategy cfg world hl)
    exact ⟨.probe, s', .inr rfl, (step_probe he).trans hs⟩
  · obtain ⟨s', hs⟩ := Option.ne_none_iff_exists'.mp (mainStep_ne_none hf hm)
    exact ⟨.main, s', .inl rfl, (step_main he).trans hs⟩

variable (strategy) in
/-- **Startup always comes to an end.**  In every state that can be reached, requests in between and
panics of the probe task included, one of the two tasks has a step until the process has exited or both
have ended; and without new requests every schedule gets there after at most `rank` steps. -/
theorem startup_settles {s0 : Server} (hboot : boot cfg = some s0)
    (h : Reachable (step strategy cfg world) s0 s) :
    (¬s.Settled → ∃ act s', (act = .main ∨ act = .probe) ∧ step strategy cfg world s act = some s') ∧
    Inevitable (step strategy cfg world) (fun _ act => act ≠ .arrive) Server.Settled s ∧
    ∀ (acts : List Act) (t : Server), (∀ act ∈ acts, act ≠ .arrive) →
      acts.foldlM (step strategy cfg world) s = some t → acts.length ≤ s.rank := by
  have hi := reach_inv hboot h
  refine ⟨task_progress hi, ?_, fun acts t ha hrun => ?_⟩
  · refine Inevitable.of_measure Server.rank (I := Inv strategy cfg world) ?_ ?_ ?_ hi
    · exact fun s act t hi _ hs => step_inv hi hs
    · intro s hi hns
      obtain ⟨act, s', ha, hs⟩ := task_progress hi hns
      refine ⟨act, s', ?_, hs⟩
      rcases ha with rfl | rfl <;> decide
    · exact fun s act t hi _ ha hs => rank_step hi ha hs
  · have hlen := length_le_of_measure (C := fun _ act => act ≠ Act.arrive) (I := Inv strategy cfg world)
      Server.rank (fun s act t hi _ hs => step_inv hi hs) (fun s act t hi ha hs => rank_step hi ha hs) hi
      (fun _ act hm => ha act hm) hrun
    omega

end

/-- from the start of two workers on the probe path -/
theorem startup_settles_twoWorkers :
    Inevitable (step .abort (twoWorkers none) roomyHost) (fun _ act => act ≠ .arrive) Server.Settled
      (booted (twoWorkers none)) := (startup_settles .abort rfl .refl).2.1

end EmbedServer.Startup
