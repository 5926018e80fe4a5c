import EmbedServer.Startup.Permits

/-!
# The steps of requests in startup

* `arrive_eq` …    what a request changes;
* `task_queue`     the two tasks change none of it.
-/

set_option linter.unusedSectionVars false

namespace EmbedServer.Startup

section
variable {strategy : PanicStrategy} {cfg : StartupConfig} {world : World} {s s' : Server}

theorem arrive_eq (h : step strategy cfg world s .arrive = some s') :
    s' = { s with waiting := s.waiting + 1 } := by
  unfold step at h
  split at h
  · cases h
  · dsimp only at h
    split at h
    · exact (Option.some.inj h).symm
    · cases h

theorem leave_eq (h : step strategy cfg world s .leave = some s') :
    0 < s.waiting ∧ s' = { s with waiting := s.waiting - 1 } := by
  unfold step at h
  split at h
  · cases h
  · dsimp only at h
    split at h
    · rename_i hpos
      exact ⟨hpos, (Option.some.inj h).symm⟩
    · cases h

theorem acquire_eq (h : step strategy cfg world s .acquire = some s') :
    0 < s.waiting ∧
      s' = { s with waiting := s.waiting - 1, permits := s.permits - 1, holding := s.holding + 1 } := by
  unfold step at h
  split at h
  · cases h
  · dsimp only at h
    split at h
    · rename_i hpos
      exact ⟨hpos.1, (Option.some.inj h).symm⟩
    · cases h

theorem finish_eq (h : step strategy cfg world s .finish = some s') :
    0 < s.holding ∧ s' = { s with permits := s.permits + 1, holding := s.holding - 1 } := by
  unfold step at h
  split at h
  · cases h
  · dsimp only at h
    split at h
    · rename_i hpos
      exact ⟨hpos, (Option.some.inj h).symm⟩
    · cases h

theorem panicProbe_queue : (panicProbe strategy cfg s).waiting = s.waiting ∧
    (panicProbe strategy cfg s).holding = s.holding := by
  unfold panicProbe
  split
  · exact ⟨rfl, rfl⟩
  · split <;> exact ⟨rfl, rfl⟩

/-- the two tasks leave the requests alone -/
theorem task_queue {a : Act} (ha : a = .main ∨ a = .probe ∨ a = .probePanic)
    (h : step strategy cfg world s a = some s') : s'.waiting = s.waiting ∧ s'.holding = s.holding := by
  unfold step at h
  split at h
  · cases h
  · rcases ha with rfl | rfl | rfl
    · have hmove := mainStep_cases h
      cases hmove <;> exact ⟨rfl, rfl⟩
    · have hmove := probeStep_cases h
      cases hmove with
      | sweepPanicked hp => exact panicProbe_queue
      | overflowed permits hp => exact panicProbe_queue
      | _ => exact ⟨rfl, rfl⟩
    · dsimp only at h
      split at h
      · cases h
        exact panicProbe_queue
      · cases h

end
end EmbedServer.Startup
