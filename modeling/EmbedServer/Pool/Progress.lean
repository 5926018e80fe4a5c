import EmbedServer.Pool.Custody

/-!
# The pool can always go on

* `LockInv`    who holds the lock of the receiver is in `recv()`, and the other way round;
* `RunInv`     what holds in every run, panics included;
* `Act.own`    steps of the pool itself: no client hangs up, no timer is needed;
* `progress`   until the pool is at rest one of them is possible.
-/

set_option linter.unusedSectionVars false

namespace EmbedServer.Pool

section
variable {F : Type}

def Phase.receives : Phase F → Bool
  | .receiving => true
  | _ => false

structure LockInv (s : System F) : Prop where
  lock : ∀ w, s.lock = some w ↔ (s.workers w).phase.receives = true
  models : ∀ w id, (s.workers w).phase = .loaded id → (s.workers w).worker.models.isSome = true

/-- how thread `w` and the lock move together -/
inductive LockShift (s t : System F) (w : Nat) (th : Thread F) : Prop
  | keep (h : th.phase.receives = (s.workers w).phase.receives) (hl : t.lock = s.lock)
  | gain (h : th.phase.receives = true) (hl : s.lock = none) (hl' : t.lock = some w)
  | drop (h : th.phase.receives = false) (hl : t.lock = if s.lock = some w then none else s.lock)

theorem LockShift.lockInv {s t : System F} {w : Nat} {th : Thread F} (inv : LockInv s)
    (hw : t.workers = Function.update s.workers w th) (h : LockShift s t w th)
    (hm : ∀ id, th.phase = .loaded id → th.worker.models.isSome = true) : LockInv t := by
  refine ⟨fun k => ?_, fun k id hp => ?_⟩
  · have hother (hk : k ≠ w) : (t.workers k).phase.receives = (s.workers k).phase.receives := by
      rw [hw, Function.update_of_ne hk]
    have hsame : (t.workers w).phase.receives = th.phase.receives := by rw [hw, Function.update_self]
    by_cases hk : k = w
    · subst hk
      rw [hsame]
      cases h with
      | keep h hl => rw [h, hl]; exact inv.lock k
      | gain h hl hl' => rw [h, hl']; exact ⟨fun _ => rfl, fun _ => rfl⟩
      | drop h hl =>
        rw [h, hl]
        refine ⟨fun h => ?_, fun h => (by cases h)⟩
        split at h
        · cases h
        · rename_i hne
          exact absurd h hne
    · rw [hother hk]
      cases h with
      | keep h hl => rw [hl]; exact inv.lock k
      | gain h hl hl' =>
        rw [← inv.lock, hl, hl']
        exact ⟨fun h => absurd (Option.some.inj h).symm hk, fun h => (by cases h)⟩
      | drop h hl =>
        rw [← inv.lock, hl]
        split
        · rename_i hs
          rw [hs]
          exact ⟨fun h => (by cases h), fun h => absurd (Option.some.inj h).symm hk⟩
        · exact Iff.rfl
  · by_cases hk : k = w
    · subst hk
      rw [hw, Function.update_self] at hp ⊢
      exact hm id hp
    · rw [hw, Function.update_of_ne hk] at hp ⊢
      exact inv.models k id hp

theorem LockInv.still {s t : System F} (inv : LockInv s) (hw : t.workers = s.workers)
    (hl : t.lock = s.lock) : LockInv t := by
  refine ⟨fun k => ?_, fun k id => ?_⟩
  · rw [hw, hl]
    exact inv.lock k
  · rw [hw]
    exact inv.models k id

variable [F32Ops F] {p : Setup} {s t : System F}

theorem closeIfLast_lock : (s.closeIfLast p).lock = s.lock := System.closeIfLast_frame _ fun _ => rfl

/-- a thread that held no lock ends -/
theorem lockInv_exit (inv : LockInv s) {s₁ : System F} {w : Nat} {how : Joined}
    (hw : s₁.workers = s.workers) (hl : s₁.lock = s.lock) (hr : (s.workers w).phase.receives = false) :
    LockInv (s₁.exitWorker p w how) := by
  have hws := System.exitWorker_workers (p := p) (s := s₁) (w := w) how
  rw [hw] at hws
  exact LockShift.lockInv inv hws (.keep hr.symm (closeIfLast_lock.trans hl)) fun id h => by cases h

theorem lockInv_move {a : Act F} (inv : LockInv s) (hinv : InitInv p s) (h : Move p s a t) : LockInv t := by
  -- a step outside `recv()` that leaves the models alone
  have loop {w : Nat} {ph : Phase F} {th : Thread F} {t : System F}
      (hw : t.workers = Function.update s.workers w th) (hl : t.lock = s.lock)
      (hp : (s.workers w).phase = ph) (hr : ph.receives = false) (hr' : th.phase.receives = false)
      (hm : ∀ id, th.phase = .loaded id → th.worker.models.isSome = true) : LockInv t :=
    LockShift.lockInv inv hw (.keep (by rw [hp, hr, hr']) hl) hm
  cases h with
  | @spawned k hi =>
    have hf : s.workers k = .fresh := by
      refine hinv.later _ ?_
      rw [System.spawned, hi]
    exact loop (w := k) rfl rfl rfl (by rw [hf]; rfl) rfl fun _ h => by cases h
  | heard hi hc => exact inv.still rfl rfl
  | heardError hi hc => exact inv.still System.closeIfLast_workers closeIfLast_lock
  | silent hi hc => exact inv.still rfl rfl
  | joined hi hp => exact inv.still System.closeIfLast_workers closeIfLast_lock
  | pending hi hp => exact inv.still rfl rfl
  | woken hi hw => exact inv.still rfl rfl
  | @counted k delta hi =>
    unfold countWorker
    dsimp only
    split
    · exact inv.still rfl rfl
    · exact inv.still System.closeIfLast_workers closeIfLast_lock
  | @started w preLoadRss load out sh hp ho =>
    cases out with
    | ready wk delta => exact loop rfl rfl hp rfl rfl fun _ h => by cases h
    | loadFailed e => exact loop rfl rfl hp rfl rfl fun _ h => by cases h
    | refused e => exact lockInv_exit inv rfl rfl (by rw [hp]; rfl)
  | vanished hp => exact lockInv_exit inv rfl rfl (by rw [hp]; rfl)
  | left hp => exact lockInv_exit inv rfl rfl (by rw [hp]; rfl)
  | drained hp hd => exact loop rfl rfl hp rfl rfl fun _ h => by cases h
  | locked hp hl => exact LockShift.lockInv inv rfl (.gain rfl hl rfl) fun _ h => by cases h
  | elapsed hp hm => exact LockShift.lockInv inv rfl (.drop rfl rfl) fun _ h => by cases h
  | @took w id rest hp hq =>
    refine LockShift.lockInv inv rfl (.drop rfl ?_) fun _ h => by cases h
    rw [(inv.lock w).mpr (by rw [hp]; rfl), if_pos rfl]
  | @closed w hp hq hh =>
    have hws := System.exitWorker_workers (p := p) (s := s.closing w) (w := w) .ok
    refine LockShift.lockInv inv hws (.drop rfl ?_) fun _ h => by cases h
    rw [(inv.lock w).mpr (by rw [hp]; rfl), if_pos rfl]
    exact closeIfLast_lock
  | loaded hp he => exact loop rfl rfl hp rfl rfl fun _ _ => rfl
  | unloadable hp ht he => exact loop rfl rfl hp rfl rfl fun _ h => by cases h
  | served hp hm ht hd => exact loop rfl rfl hp rfl rfl fun _ h => by cases h
  | panicked hp hm ht => exact loop rfl rfl hp rfl rfl fun _ h => by cases h
  | replied hp => exact loop rfl rfl hp rfl rfl fun _ h => by cases h
  | again hp hs => exact loop rfl rfl hp rfl rfl fun _ h => by cases h
  | fatal hp hs ho => exact lockInv_exit inv rfl rfl (by rw [hp]; rfl)
  | broke hp hs ho => exact loop rfl rfl hp rfl rfl fun _ h => by cases h
  | noted hp hs => exact loop rfl rfl hp rfl rfl fun _ h => by cases h
  | died hp => exact lockInv_exit inv rfl rfl (by rw [hp]; rfl)
  | submitted hh => exact inv.still rfl rfl
  | enqueued ht hs => exact inv.still rfl rfl
  | disconnected ht hc => exact inv.still rfl rfl
  | dropped hh => exact inv.still rfl rfl

theorem lockInv_start (ceiling : Nat) : LockInv (start p ceiling : System F) :=
  ⟨fun w => ⟨fun h => (by cases h), fun h => (by cases h)⟩, fun w id h => (by cases h)⟩

/-- what holds in every run -/
structure RunInv (p : Setup) (s : System F) : Prop extends Custody p s, LockInv s

theorem runInv_step {a : Act F} (inv : RunInv p s) (h : step p s a = some t) : RunInv p t :=
  ⟨custody_step inv.toCustody h, lockInv_move inv.toLockInv inv.toInitInv (step_cases h)⟩

theorem reach_runInv {C : System F → Act F → Prop} {ceiling : Nat}
    (h : Reach (step p) C (start p ceiling) s) : RunInv p s :=
  h.invariant ⟨custody_start ceiling, lockInv_start ceiling⟩ fun _ _ _ inv _ hs => runInv_step inv hs

/-! ## no dead end -/

/-- steps of the pool itself -/
def Act.own : Act F → Bool
  | .vanish _ _ | .timeout _ | .submit _ | .disconnect _ | .dropPool => false
  | _ => true

/-- waiting for a request, or not running -/
def Phase.parked : Phase F → Bool
  | .absent | .waiting | .receiving | .exited _ => true
  | _ => false

structure AtRest (p : Setup) (s : System F) : Prop where
  init : s.init.isDone = true
  calls : ∀ (id : Nat) (tk : Ticket), s.tickets[id]? = some tk → tk.stage = .ended
  threads : ∀ k < p.n, (s.workers k).phase.parked = true

/-- the pool can go on by itself -/
def CanStep (p : Setup) (s : System F) : Prop := ∃ a t, a.own = true ∧ step p s a = some t

theorem canStep_of {a : Act F} (ha : a.own = true) (h : step p s a ≠ none) : CanStep p s := by
  obtain ⟨t, ht⟩ := Option.ne_none_iff_exists'.mp h
  exact ⟨a, t, ha, ht⟩

theorem canStep_of_init (inv : InitInv p s) (hd : s.init.isDone = false) : CanStep p s := by
  cases hb : step p s .init with
  | some t => exact ⟨.init, t, rfl, hb⟩
  | none =>
    obtain ⟨k, -, hp⟩ := inv.blocked hd hb
    exact ⟨.startup k 0 (.error ""), _, rfl, by rw [step, startupStep, hp]⟩

/-- a thread that is under way has a next step, whatever its environment answers -/
theorem canStep_of_thread (inv : RunInv p s) {w : Nat} (h : (s.workers w).phase.parked = false) :
    CanStep p s := by
  cases hp : (s.workers w).phase with
  | absent => rw [hp] at h; cases h
  | waiting => rw [hp] at h; cases h
  | receiving => rw [hp] at h; cases h
  | exited how => rw [hp] at h; cases h
  | starting =>
    exact canStep_of (a := .startup w 0 (.error "")) rfl
      (by rw [step, startupStep, hp]; exact Option.some_ne_none _)
  | failed e => exact canStep_of (a := .leave w) rfl (by rw [step, leaveStep, hp]; exact Option.some_ne_none _)
  | top => exact canStep_of (a := .drain w []) rfl (by rw [step, drainTurn, hp]; exact Option.some_ne_none _)
  | took id =>
    obtain ⟨tk, hg, -⟩ := inv.ticket (show s.inHand w = some id by rw [System.inHand, hp]; rfl)
    refine canStep_of (a := .load w (.error "")) rfl ?_
    rw [step, loadStep, hp]
    dsimp only
    rw [hg]
    dsimp only
    split <;> exact Option.some_ne_none _
  | loaded id =>
    obtain ⟨tk, hg, -⟩ := inv.ticket (show s.inHand w = some id by rw [System.inHand, hp]; rfl)
    obtain ⟨⟨m, runs⟩, hm⟩ := Option.isSome_iff_exists.mp (inv.models w id hp)
    refine canStep_of (a := .dispatch w ⟨⟨0, 0, 0⟩, true⟩) rfl ?_
    rw [step, dispatchStep, hp, hm]
    dsimp only
    rw [hg]
    dsimp only
    split <;> exact Option.some_ne_none _
  | replying id reply out => exact canStep_of (a := .reply w) rfl (by rw [step, replyStep, hp]; exact Option.some_ne_none _)
  | acting out =>
    refine canStep_of (a := .act w) rfl ?_
    rw [step, actStep, hp]
    dsimp only
    split
    · exact Option.some_ne_none _
    · split
      · exact Option.some_ne_none _
      · split <;> exact Option.some_ne_none _
  | unwinding id text => exact canStep_of (a := .die w) rfl (by rw [step, dieStep, hp]; exact Option.some_ne_none _)

/-- with a thread at the receiver, one has the lock or can take it -/
theorem listener_of_waiting (inv : LockInv s) {k : Nat} (hp : (s.workers k).phase.parked = true)
    (hg : (s.workers k).phase.gone = false) :
    CanStep p s ∨ ∃ w, (s.workers w).phase = .receiving := by
  cases hph : (s.workers k).phase with
  | waiting =>
    cases hl : s.lock with
    | none =>
      exact .inl (canStep_of (a := .lock k) rfl
        (by rw [step, lockStep, hph, hl]; exact Option.some_ne_none _))
    | some w =>
      have hr := (inv.lock w).mp hl
      refine .inr ⟨w, ?_⟩
      generalize (s.workers w).phase = ph at hr
      cases ph with
      | receiving => rfl
      | _ => cases hr
  | receiving => exact .inr ⟨k, hph⟩
  | absent => rw [hph] at hg; cases hg
  | exited how => rw [hph] at hg; cases hg
  | _ => rw [hph] at hp; cases hp

theorem canStep_of_recv {w : Nat} (hp : (s.workers w).phase = .receiving)
    (h : s.queue ≠ [] ∨ s.poolHandle = false) : CanStep p s := by
  refine canStep_of (a := .recv w) rfl ?_
  rw [step, recvStep, hp]
  dsimp only
  cases hq : s.queue with
  | cons id rest => exact Option.some_ne_none _
  | nil =>
    rw [h.resolve_left fun hne => hne hq]
    exact Option.some_ne_none _

/-- an open call moves -/
theorem canStep_of_call (inv : RunInv p s) (hd : s.init.isDone = true) {id : Nat} {tk : Ticket}
    (hg : s.tickets[id]? = some tk) (hne : tk.stage ≠ .ended) : CanStep p s := by
  have hst := stageOf_of_get hg
  by_cases htaken : tk.stage = .taken
  · -- some worker has it
    obtain ⟨w, hw⟩ := inv.taken id (by rw [hst, htaken])
    refine canStep_of_thread inv (w := w) ?_
    rw [System.inHand] at hw
    generalize (s.workers w).phase = ph at hw
    cases ph <;> first | rfl | cases hw
  · have hopen : s.rxOpen = true := by
      by_contra hc
      obtain ⟨h1, h2⟩ := inv.shut (by simpa using hc) id
      rw [hst] at h1 h2
      cases hstage : tk.stage with
      | sending => exact h1 (congrArg some hstage)
      | queued => exact h2 (congrArg some hstage)
      | taken => exact htaken hstage
      | ended => exact hne hstage
    -- the receiver has an owner, and that is a thread
    have hown : s.ownerless p = false := by
      by_contra ho
      rw [inv.ownerless (by simpa using ho)] at hopen
      cases hopen
    rw [System.ownerless, hd, Bool.true_and, List.all_eq_false] at hown
    obtain ⟨k, -, hk⟩ := hown
    have hgone : (s.workers k).phase.gone = false := by simpa using hk
    cases hpk : (s.workers k).phase.parked with
    | false => exact canStep_of_thread inv hpk
    | true =>
      rcases listener_of_waiting (p := p) inv.toLockInv hpk hgone with h | ⟨w, hw⟩
      · exact h
      · cases hq : s.queue with
        | cons j rest => exact canStep_of_recv hw (.inl (by rw [hq]; exact List.cons_ne_nil _ _))
        | nil =>
          have hsend : tk.stage = .sending := by
            cases hstage : tk.stage with
            | sending => rfl
            | queued =>
              have := (inv.queued id).mpr (by rw [hst, hstage])
              rw [hq] at this
              cases this
            | taken => exact absurd hstage htaken
            | ended => exact absurd hstage hne
          have hcap : 0 < p.n * 4 := by have := p.size.pos; omega
          refine canStep_of (a := .enqueue id) rfl ?_
          rw [step, enqueueStep, hg]
          dsimp only
          rw [if_pos ⟨hsend, by rw [hq]; exact hcap⟩]
          exact Option.some_ne_none _

theorem progress (inv : RunInv p s) (h : ¬AtRest p s) : CanStep p s := by
  by_contra hno
  refine h ⟨?_, fun id tk hg => ?_, fun k _ => ?_⟩
  · by_contra hd
    exact hno (canStep_of_init inv.toInitInv (by simpa using hd))
  · by_contra hne
    have hd : s.init.isDone = true := by
      by_contra hd
      exact hno (canStep_of_init inv.toInitInv (by simpa using hd))
    exact hno (canStep_of_call inv hd hg hne)
  · by_contra hp
    exact hno (canStep_of_thread inv (by simpa using hp))

end
end EmbedServer.Pool
