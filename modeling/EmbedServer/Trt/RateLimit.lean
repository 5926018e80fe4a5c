import EmbedServer.Lib.Transition
import EmbedServer.Trt.Adaptive

/-!
# The hourly budget of the adaptive warmup loop (`adaptive_warmup.rs`)

The loop keeps one counter and the time of its last reset.  A failed or dropped acknowledgement leaves
the counter as it is, and a reset sets it to zero whatever was sent just before.

* `rate_limited`            if no step forgets a request that is less than an hour old, every window of
                            an hour has at most `maxShapesPerHour` requests;
* `failed_warmups_not_counted`   two requests in a second under a limit of one.
-/

namespace EmbedServer

/-- the loop with a clock and the times of its requests -/
structure TimedLoop where
  loop : WarmupLoop
  clock : Nat
  /-- latest first -/
  sends : List Nat
deriving DecidableEq

def TimedLoop.start (now : Nat) : TimedLoop := ⟨⟨[], [], 0, now, .top⟩, now, []⟩

/-- the reset reads the clock, between the last event and this one -/
def LoopEvent.readsClock (since now : Nat) : LoopEvent → Bool
  | .drain _ read later => decide (since ≤ read ∧ read ≤ later ∧ later = now)
  | _ => true

def timedStep (config : AdaptiveWarmupConfig) (s : TimedLoop) (a : LoopEvent × Nat) : Option TimedLoop :=
  if s.clock ≤ a.2 ∧ a.1.readsClock s.clock a.2 then
    (loopStep config s.loop a.1).map fun out =>
      ⟨out.loop, a.2, if out.request.isSome then a.2 :: s.sends else s.sends⟩
  else none

/-- requests in the hour from `t` on -/
def inHour (t : Nat) (sends : List Nat) : Nat := sends.countP fun x => t ≤ x ∧ x < t + hourMs

/-- requests less than an hour old -/
def young (now : Nat) (sends : List Nat) : Nat := sends.countP fun x => now < x + hourMs

/-- the step forgets no request that is less than an hour old -/
def Remembers (s : TimedLoop) (a : LoopEvent × Nat) : Prop :=
  match a.1 with
  | .nack | .dropped => ∀ x ∈ s.sends.head?, x + hourMs ≤ a.2
  | .drain _ read _ => read - s.loop.hourStart ≥ hourMs → ∀ x ∈ s.sends, x + hourMs ≤ read
  | _ => True

/-! ## counting -/

theorem young_mono {now now' : Nat} (h : now ≤ now') (sends : List Nat) :
    young now' sends ≤ young now sends := by
  apply List.countP_mono_left
  intro x _ hx
  rw [decide_eq_true_iff] at hx ⊢
  omega

theorem young_of_old {now : Nat} {sends : List Nat} (h : ∀ x ∈ sends, x + hourMs ≤ now) :
    young now sends = 0 := by
  apply List.countP_eq_zero.mpr
  intro x hx
  have := h x hx
  rw [decide_eq_true_iff]
  omega

theorem young_cons (now x : Nat) (sends : List Nat) :
    young now (x :: sends) = young now sends + if now < x + hourMs then 1 else 0 := by
  unfold young
  rw [List.countP_cons]
  simp

theorem inHour_cons (t x : Nat) (sends : List Nat) :
    inHour t (x :: sends) = inHour t sends + if t ≤ x ∧ x < t + hourMs then 1 else 0 := by
  unfold inHour
  rw [List.countP_cons]
  simp

/-- what shares a window with `now` is young at `now` -/
theorem inHour_le_young {t now : Nat} (h : now < t + hourMs) (sends : List Nat) :
    inHour t sends ≤ young now sends := by
  apply List.countP_mono_left
  intro x _ hx
  rw [decide_eq_true_iff] at hx ⊢
  omega

/-! ## the invariant -/

section
variable {config : AdaptiveWarmupConfig}

/-- requests whose outcome is known -/
def TimedLoop.settled (s : TimedLoop) : List Nat :=
  if s.loop.pc.awaited.isSome then s.sends.tail else s.sends

structure Limited (config : AdaptiveWarmupConfig) (s : TimedLoop) : Prop where
  /-- the counter covers the settled requests of the last hour -/
  counted : young s.clock s.settled ≤ s.loop.shapesThisHour
  armed : s.loop.pc.armed = true → s.loop.shapesThisHour < config.maxShapesPerHour
  windows : ∀ t, inHour t s.sends ≤ config.maxShapesPerHour

theorem settled_of_none {s : TimedLoop} (h : s.loop.pc.awaited = none) : s.settled = s.sends := by
  rw [TimedLoop.settled, h]
  rfl

theorem settled_of_acking {s : TimedLoop} {shape : Shape} (h : s.loop.pc = .acking shape) :
    s.settled = s.sends.tail := by
  rw [TimedLoop.settled, h]
  rfl

/-- later, with no request in flight -/
theorem Limited.counted_idle {s : TimedLoop} (hi : Limited config s) {now : Nat} (hle : s.clock ≤ now)
    (h : s.loop.pc.awaited = none) : young now s.sends ≤ s.loop.shapesThisHour := by
  have hc := hi.counted
  rw [settled_of_none h] at hc
  exact (young_mono hle s.sends).trans hc

/-- later, with one in flight -/
theorem Limited.counted_acking {s : TimedLoop} (hi : Limited config s) {now : Nat} (hle : s.clock ≤ now)
    {shape : Shape} (h : s.loop.pc = .acking shape) : young now s.sends.tail ≤ s.loop.shapesThisHour := by
  have hc := hi.counted
  rw [settled_of_acking h] at hc
  exact (young_mono hle s.sends.tail).trans hc

theorem timedStep_limited {s s' : TimedLoop} {a : LoopEvent × Nat} (hi : Limited config s)
    (hr : Remembers s a) (hs : timedStep config s a = some s') : Limited config s' := by
  obtain ⟨ev, now⟩ := a
  unfold timedStep at hs
  split at hs
  · rename_i hclock
    obtain ⟨hle, hread⟩ := hclock
    obtain ⟨out, hout, rfl⟩ := Option.map_eq_some_iff.mp hs
    dsimp only at hle hread hr ⊢
    cases loopStep_cases hout with
    | took hpc hpc' hwarmed hpending hack hnack hdropped hbudget harmed =>
      refine ⟨?_, fun h => ?_, hi.windows⟩
      · rw [settled_of_none hpc']
        rcases hbudget with hb | ⟨hb, got, read, later, rfl, hreset⟩
        · dsimp only
          rw [hb]
          exact hi.counted_idle hle hpc
        -- a reset: nothing of the last hour was sent
        · obtain ⟨-, hread', rfl⟩ := of_decide_eq_true hread
          have hzero := young_of_old fun x hx => (hr hreset x hx).trans hread'
          dsimp only [Option.isSome_none]
          rw [if_neg (by decide), hzero]
          exact Nat.zero_le _
      · rcases harmed h with h | ⟨h, hb⟩
        · exact h
        · dsimp only
          rw [hb]
          exact hi.armed h
    | sent hpc hpending =>
      have hbelow : s.loop.shapesThisHour < config.maxShapesPerHour := hi.armed (by rw [hpc]; rfl)
      have hyoung : young now s.sends ≤ s.loop.shapesThisHour := hi.counted_idle hle (by rw [hpc]; rfl)
      refine ⟨hyoung, by simp [LoopPc.armed], fun t => ?_⟩
      show inHour t (now :: s.sends) ≤ _
      rw [inHour_cons]
      by_cases hin : t ≤ now ∧ now < t + hourMs
      · have hshare := inHour_le_young hin.2 s.sends
        rw [if_pos hin]
        omega
      · rw [if_neg hin]
        exact hi.windows t
    | acked ms hpc =>
      refine ⟨?_, by simp [LoopPc.armed], hi.windows⟩
      have hrest := hi.counted_acking hle hpc
      show young now s.sends ≤ s.loop.shapesThisHour + 1
      cases hsends : s.sends with
      | nil => exact Nat.zero_le _
      | cons x sends =>
        rw [hsends, List.tail_cons] at hrest
        rw [young_cons]
        split <;> omega
    | failed hev hpc =>
      refine ⟨?_, by simp [LoopPc.armed], hi.windows⟩
      have hrest := hi.counted_acking hle hpc
      show young now s.sends ≤ s.loop.shapesThisHour
      cases hsends : s.sends with
      | nil => exact Nat.zero_le _
      | cons x sends =>
        rw [hsends, List.tail_cons] at hrest
        -- the request that failed is at least an hour old
        have hx : x + hourMs ≤ now := by
          have hhead : ∀ y ∈ s.sends.head?, y + hourMs ≤ now := by
            rcases hev with rfl | rfl
            · exact hr
            · exact hr
          rw [hsends] at hhead
          exact hhead x rfl
        rw [young_cons, if_neg (by omega)]
        exact hrest
  · cases hs

variable (config) in
/-- **The rolling limit**, in every run that forgets no request of the last hour: every window of one
hour has at most `maxShapesPerHour` requests. -/
theorem rate_limited {now : Nat} {s : TimedLoop}
    (h : Reach (timedStep config) Remembers (TimedLoop.start now) s) (t : Nat) :
    inHour t s.sends ≤ config.maxShapesPerHour := by
  have hstart : Limited config (TimedLoop.start now) :=
    ⟨Nat.zero_le _, by simp [TimedLoop.start, LoopPc.armed], fun t => Nat.zero_le _⟩
  exact (h.invariant hstart fun _ _ _ hi hc hs => timedStep_limited hi hc hs).windows t

end

/-! ## requests the counter does not see -/

/-- **A limit of one, two suspects, the first warmup fails: two requests within a second.** -/
theorem failed_warmups_not_counted :
    ∃ s, Reachable (timedStep ⟨0, 1⟩) (TimedLoop.start 0) s ∧ inHour 0 s.sends = 2 :=
  Reach.exists_of_run
    [(.drain [(1, 8), (2, 8)] 0 0, 0), (.depth 0, 0), (.send true, 0), (.nack, 400), (.drain [] 400 400, 400),
      (.depth 0, 400), (.send true, 400)]
    (fun _ _ _ => trivial) (by decide +kernel)

/-- one request, answered -/
theorem rate_limited_oneRequest :
    ∃ s, Reach (timedStep ⟨0, 1⟩) Remembers (TimedLoop.start 0) s ∧ s.sends = [0] ∧ inHour 0 s.sends ≤ 1 := by
  have hrun : ∃ s, Reach (timedStep ⟨0, 1⟩) Remembers (TimedLoop.start 0) s ∧ s.sends = [0] := by
    refine Reach.exists_of_run [(.drain [(1, 8)] 0 0, 0), (.depth 0, 0), (.send true, 0), (.ack 90, 300)]
      ?_ (by decide +kernel)
    intro s a ha
    simp only [List.mem_cons, List.not_mem_nil, or_false] at ha
    rcases ha with rfl | rfl | rfl | rfl
    · intro hreset
      rw [Nat.zero_sub] at hreset
      exact absurd hreset (by decide)
    · trivial
    · trivial
    · trivial
  obtain ⟨s, hs, hsends⟩ := hrun
  exact ⟨s, hs, hsends, rate_limited ⟨0, 1⟩ hs 0⟩

end EmbedServer
