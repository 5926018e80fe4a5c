import EmbedServer.Pool.System

/-!
# Steps of the pool, case by case

* `Move`, `step_cases`   everything a step can do;
* `turn_eq_handleMsg`    the steps of a worker on one request are one turn of its loop.
-/

set_option linter.unusedSectionVars false

namespace EmbedServer.Pool

section
variable {F : Type} [F32Ops F] (p : Setup)

/-- every transition, with what its guard has checked -/
inductive Move (s : System F) : Act F → System F → Prop
  | spawned {k} (hi : s.init = .spawn k) :
      Move s .init { s.setPhase k .starting with init := .recv k }
  | heard {k delta rest} (hi : s.init = .recv k) (hc : s.readyCh = .ok delta :: rest) :
      Move s .init { s with readyCh := rest, init := .count k delta }
  | heardError {k e rest} (hi : s.init = .recv k) (hc : s.readyCh = .error e :: rest) :
      Move s .init ({ s with readyCh := rest }.finishInit p (.error (failedToLoad k e)))
  | silent {k} (hi : s.init = .recv k) (hc : s.readyCh = []) : Move s .init { s with init := .join k }
  | joined {k how} (hi : s.init = .join k) (hp : (s.workers k).phase = .exited how) :
      Move s .init (s.finishInit p (.error (joinError k how)))
  | pending {k} (hi : s.init = .join k) (hp : (s.workers k).phase.isExited = false) :
      Move s .init { s with init := .parked k }
  | woken {k} (hi : s.init = .parked k) (hw : s.readyCh ≠ [] ∨ (s.workers k).phase.isExited = true) :
      Move s .init { s with init := .recv k }
  | counted {k delta} (hi : s.init = .count k delta) : Move s .init (countWorker p s k delta)
  | started {w preLoadRss load out sh} (hp : (s.workers w).phase = .starting)
      (ho : startupWorker p.host (p.configOf w) w preLoadRss load s.shared = (out, sh)) :
      Move s (.startup w preLoadRss load) (startedUp p { s with shared := sh } w load out)
  | vanished {w how} (hp : (s.workers w).phase = .starting) :
      Move s (.vanish w how) (s.exitWorker p w how)
  | left {w e} (hp : (s.workers w).phase = .failed e) : Move s (.leave w) (s.exitWorker p w (.err e))
  | drained {w shapes wk sh} (hp : (s.workers w).phase = .top)
      (hd : drainEnginePropagation p.host (p.configOf w) (s.workers w).worker s.shared shapes = (wk, sh)) :
      Move s (.drain w shapes)
        { s.goOn w .waiting wk with shared := sh }
  | locked {w} (hp : (s.workers w).phase = .waiting) (hl : s.lock = none) :
      Move s (.lock w) { s.setPhase w .receiving with lock := some w }
  | elapsed {w} (hp : (s.workers w).phase = .waiting ∨ (s.workers w).phase = .receiving)
      (hm : (s.workers w).worker.models.isSome = true) :
      Move s (.timeout w) { s.subLoaded.goOn w .top (s.workers w).worker.unloaded with
        lock := if s.lock = some w then none else s.lock }
  | took {w id rest} (hp : (s.workers w).phase = .receiving) (hq : s.queue = id :: rest) :
      Move s (.recv w) { (s.setPhase w (.took id)).setTicket id Ticket.take with
        lock := none
        queue := rest
        takes := s.takes ++ [(id, w)] }
  | closed {w} (hp : (s.workers w).phase = .receiving) (hq : s.queue = []) (hh : s.poolHandle = false) :
      Move s (.recv w) ((s.closing w).exitWorker p w .ok)
  | loaded {w load id m runs sh} (hp : (s.workers w).phase = .took id)
      (he : ensureModels p.host (s.workers w).worker s.shared load = .ok (m, runs, sh)) :
      Move s (.load w load)
        { s.goOn w (.loaded id) { (s.workers w).worker with models := some (m, runs) } with
          shared := sh }
  | unloadable {w load id t e} (hp : (s.workers w).phase = .took id) (ht : s.tickets[id]? = some t)
      (he : ensureModels p.host (s.workers w).worker s.shared load = .error e) :
      Move s (.load w load)
        ((s.handle id w (.unloadable e)).setPhase w
          (.replying id (some (replyRequestLoadError t.req e)) ⟨.ok, true⟩))
  | served {w env id t m runs reply out d} (hp : (s.workers w).phase = .loaded id)
      (hm : (s.workers w).worker.models = some (m, runs)) (ht : s.tickets[id]? = some t)
      (hd : dispatchOn p s w m runs env t = (.ok (reply, out), d)) :
      Move s (.dispatch w env)
        (dispatched (s.handle id w (heldFor p s w m runs env t)) w m d (.replying id reply out))
  | panicked {w env id t text m runs d} (hp : (s.workers w).phase = .loaded id)
      (hm : (s.workers w).worker.models = some (m, runs)) (ht : s.tickets[id]? = some t) :
      Move s (.dispatch w env)
        (dispatched (s.handle id w (heldFor p s w m runs env t)) w m d (.unwinding id text))
  | replied {w id reply out} (hp : (s.workers w).phase = .replying id reply out) :
      Move s (.reply w) { (s.setPhase w (.acting out)).setTicket id Ticket.finish with
        replies := s.replies ++ received s w id reply }
  | again {w out} (hp : (s.workers w).phase = .acting out) (hs : out.skip = true) :
      Move s (.act w) (s.setPhase w .top)
  | fatal {w out} (hp : (s.workers w).phase = .acting out) (hs : out.skip = false)
      (ho : out.outcome = .trtFatal) :
      Move s (.act w) (s.exitWorker p w (.err (fatalError w)))
  | broke {w out} (hp : (s.workers w).phase = .acting out) (hs : out.skip = false)
      (ho : shouldUnloadOnOutcome out.outcome = true) :
      Move s (.act w) (s.subLoaded.goOn w .top ((s.workers w).worker.noted out).unloaded)
  | noted {w out} (hp : (s.workers w).phase = .acting out) (hs : out.skip = false) :
      Move s (.act w) (s.goOn w .top ((s.workers w).worker.noted out))
  | died {w id text} (hp : (s.workers w).phase = .unwinding id text) :
      Move s (.die w) ((s.setTicket id Ticket.finish).exitWorker p w (.panicked text))
  | submitted {req} (hh : s.poolHandle = true) : Move s (.submit req)
      { s with tickets := s.tickets ++ [⟨req, if s.rxOpen then .sending else .ended, true⟩] }
  | enqueued {id t} (ht : s.tickets[id]? = some t) (hs : t.stage = .sending) :
      Move s (.enqueue id) { s.setTicket id Ticket.enqueue with queue := s.queue ++ [id] }
  | disconnected {id t} (ht : s.tickets[id]? = some t) (hc : t.calling = true) :
      Move s (.disconnect id) (s.setTicket id Ticket.disconnect)
  | dropped (hh : s.poolHandle = true) : Move s .dropPool { s with poolHandle := false }

variable {p} {s t : System F} {w : Nat}

theorem initStep_cases (h : initStep p s = some t) : Move p s .init t := by
  unfold initStep at h
  cases hi : s.init with
  | spawn k =>
    rw [hi] at h
    cases h
    exact .spawned hi
  | recv k =>
    rw [hi] at h
    dsimp only at h
    split at h
    · rename_i delta rest hc
      cases h
      exact .heard hi hc
    · rename_i e rest hc
      cases h
      exact .heardError hi hc
    · rename_i hc
      cases h
      exact .silent hi hc
  | join k =>
    rw [hi] at h
    dsimp only at h
    split at h
    · rename_i how hp
      cases h
      exact .joined hi hp
    · rename_i hp
      cases h
      refine .pending hi ?_
      cases hq : (s.workers k).phase with
      | exited how => exact absurd hq (hp how)
      | _ => rfl
  | parked k =>
    rw [hi] at h
    dsimp only at h
    split at h
    · rename_i hw
      cases h
      refine .woken hi ?_
      rw [Bool.or_eq_true, Bool.not_eq_true', List.isEmpty_eq_false_iff] at hw
      exact hw
    · cases h
  | count k delta =>
    rw [hi] at h
    cases h
    exact .counted hi
  | done r =>
    rw [hi] at h
    cases h

theorem startupStep_cases {preLoadRss : Nat} {load : Except String (Models F)}
    (h : startupStep p s w preLoadRss load = some t) : Move p s (.startup w preLoadRss load) t := by
  unfold startupStep at h
  split at h
  · rename_i hp
    cases h
    exact .started hp rfl
  · cases h

theorem vanishStep_cases {how : Joined} (h : vanishStep p s w how = some t) :
    Move p s (.vanish w how) t := by
  unfold vanishStep at h
  split at h
  · rename_i hp
    cases h
    exact .vanished hp
  · cases h

theorem leaveStep_cases (h : leaveStep p s w = some t) : Move p s (.leave w) t := by
  unfold leaveStep at h
  split at h
  · rename_i e hp
    cases h
    exact .left hp
  · cases h

theorem drainTurn_cases {shapes : List Shape} (h : drainTurn p s w shapes = some t) :
    Move p s (.drain w shapes) t := by
  unfold drainTurn at h
  split at h
  · rename_i hp
    cases h
    exact .drained hp rfl
  · cases h

theorem lockStep_cases (h : lockStep s w = some t) : Move p s (.lock w) t := by
  unfold lockStep at h
  split at h
  · rename_i hp hl
    cases h
    exact .locked hp hl
  · cases h

theorem timedOut_cases (hp : (s.workers w).phase = .waiting ∨ (s.workers w).phase = .receiving)
    (h : timedOut p s w = some t) : Move p s (.timeout w) t := by
  unfold timedOut at h
  split at h
  · rename_i hm
    cases h
    rw [Bool.and_eq_true] at hm
    exact .elapsed hp hm.2
  · cases h

theorem timeoutStep_cases (h : timeoutStep p s w = some t) : Move p s (.timeout w) t := by
  unfold timeoutStep at h
  split at h
  · rename_i hp
    exact timedOut_cases (.inl hp) h
  · rename_i hp
    exact timedOut_cases (.inr hp) h
  · cases h

theorem recvStep_cases (h : recvStep p s w = some t) : Move p s (.recv w) t := by
  unfold recvStep at h
  split at h
  · rename_i hp
    split at h
    · rename_i id rest hq
      cases h
      exact .took hp hq
    · rename_i hq
      split at h
      · cases h
      · rename_i hh
        cases h
        exact .closed hp hq (by simpa using hh)
  · cases h

theorem loadStep_cases {load : Except String (Models F)} (h : loadStep p s w load = some t) :
    Move p s (.load w load) t := by
  unfold loadStep at h
  split at h
  · rename_i id hp
    split at h
    · rename_i tk ht
      split at h
      · rename_i m runs sh he
        cases h
        exact .loaded hp he
      · rename_i e he
        cases h
        exact .unloadable hp ht he
    · cases h
  · cases h

theorem dispatchStep_cases {env : Env} (h : dispatchStep p s w env = some t) :
    Move p s (.dispatch w env) t := by
  unfold dispatchStep at h
  split at h
  · rename_i id m runs hp hm
    split at h
    · rename_i tk ht
      split at h
      · rename_i reply out d hd
        cases h
        exact .served hp hm ht hd
      · cases h
        exact .panicked hp hm ht
      · cases h
        exact .panicked hp hm ht
    · cases h
  · cases h

theorem replyStep_cases (h : replyStep s w = some t) : Move p s (.reply w) t := by
  unfold replyStep at h
  split at h
  · rename_i id reply out hp
    cases h
    exact .replied hp
  · cases h

theorem actStep_cases (h : actStep p s w = some t) : Move p s (.act w) t := by
  unfold actStep at h
  split at h
  · rename_i out hp
    by_cases hs : out.skip = true
    · rw [if_pos hs] at h
      cases h
      exact .again hp hs
    · rw [if_neg hs] at h
      have hs : out.skip = false := by simpa using hs
      split at h
      · rename_i ho
        cases h
        exact .fatal hp hs ho
      · split at h
        · rename_i ho
          cases h
          exact .broke hp hs ho
        · cases h
          exact .noted hp hs
  · cases h

theorem dieStep_cases (h : dieStep p s w = some t) : Move p s (.die w) t := by
  unfold dieStep at h
  split at h
  · rename_i id text hp
    cases h
    exact .died hp
  · cases h

theorem submitStep_cases {req : EmbedRequest} (h : submitStep s req = some t) :
    Move p s (.submit req) t := by
  unfold submitStep at h
  split at h
  · rename_i hh
    cases h
    exact .submitted hh
  · cases h

theorem enqueueStep_cases {id : Nat} (h : enqueueStep p s id = some t) : Move p s (.enqueue id) t := by
  unfold enqueueStep at h
  split at h
  · rename_i tk ht
    split at h
    · rename_i hs
      cases h
      exact .enqueued ht hs.1
    · cases h
  · cases h

theorem disconnectStep_cases {id : Nat} (h : disconnectStep s id = some t) :
    Move p s (.disconnect id) t := by
  unfold disconnectStep at h
  split at h
  · rename_i tk ht
    split at h
    · rename_i hc
      cases h
      exact .disconnected ht hc
    · cases h
  · cases h

theorem dropPoolStep_cases (h : dropPoolStep s = some t) : Move p s .dropPool t := by
  unfold dropPoolStep at h
  split at h
  · rename_i hh
    cases h
    rw [Bool.and_eq_true] at hh
    exact .dropped hh.1
  · cases h

theorem step_cases {a : Act F} (h : step p s a = some t) : Move p s a t := by
  cases a with
  | init => exact initStep_cases h
  | startup w preLoadRss load => exact startupStep_cases h
  | vanish w how => exact vanishStep_cases h
  | leave w => exact leaveStep_cases h
  | drain w shapes => exact drainTurn_cases h
  | lock w => exact lockStep_cases h
  | timeout w => exact timeoutStep_cases h
  | recv w => exact recvStep_cases h
  | load w load => exact loadStep_cases h
  | dispatch w env => exact dispatchStep_cases h
  | reply w => exact replyStep_cases h
  | act w => exact actStep_cases h
  | die w => exact dieStep_cases h
  | submit req => exact submitStep_cases h
  | enqueue id => exact enqueueStep_cases h
  | disconnect id => exact disconnectStep_cases h
  | dropPool => exact dropPoolStep_cases h

/-! ## the parts of a step that are functions of their own -/

/-- a drain leaves the models where they are -/
theorem drain_isSome {host : Host} {config : WorkerConfig} {w wk : Worker F} {sh sh' : Shared}
    {shapes : List Shape} (h : drainEnginePropagation host config w sh shapes = (wk, sh')) :
    wk.models.isSome = w.models.isSome := by
  unfold drainEnginePropagation at h
  split at h
  · rename_i m runs hm
    split at h <;> cases h <;> simp [hm]
  · cases h
    rfl

theorem drain_loaded {host : Host} {config : WorkerConfig} {w wk : Worker F} {sh sh' : Shared}
    {shapes : List Shape} (h : drainEnginePropagation host config w sh shapes = (wk, sh')) :
    sh'.loadedWorkers = sh.loadedWorkers := by
  unfold drainEnginePropagation at h
  split at h
  · split at h <;> cases h <;> rfl
  · cases h
    rfl

theorem startup_loaded {host : Host} {config : WorkerConfig} {id preLoadRss : Nat}
    {load : Except String (Models F)} {sh sh' : Shared} {out : StartupOutcome F}
    (h : startupWorker host config id preLoadRss load sh = (out, sh')) :
    sh'.loadedWorkers = sh.loadedWorkers := by
  unfold startupWorker at h
  split at h
  · cases h
    rfl
  · dsimp only at h
    split at h
    · cases h
      rfl
    · split at h <;> cases h <;> rfl

/-- a worker that is ready has its session -/
theorem startup_ready {host : Host} {config : WorkerConfig} {id preLoadRss delta : Nat}
    {load : Except String (Models F)} {sh sh' : Shared} {wk : Worker F}
    (h : startupWorker host config id preLoadRss load sh = (.ready wk delta, sh')) :
    wk.models.isSome = true := by
  unfold startupWorker at h
  split at h
  · cases h
  · dsimp only at h
    split at h
    · cases h
      rfl
    · split at h
      · cases h
      · cases h
        rfl

/-- and its session is the one of its load -/
theorem startup_models {host : Host} {config : WorkerConfig} {id preLoadRss delta : Nat}
    {load : Except String (Models F)} {sh sh' : Shared} {wk : Worker F}
    (h : startupWorker host config id preLoadRss load sh = (.ready wk delta, sh')) {m : Models F}
    {runs : Trace} (hm : wk.models = some (m, runs)) : load = .ok m := by
  unfold startupWorker at h
  split at h
  · cases h
  · dsimp only at h
    split at h
    · cases h
      cases hm
      rfl
    · split at h
      · cases h
      · cases h
        cases hm
        rfl

/-- the models for a request: they were there, or they were loaded and counted -/
theorem ensureModels_ok {host : Host} {wk : Worker F} {sh sh' : Shared}
    {load : Except String (Models F)} {m : Models F} {runs : Trace}
    (h : ensureModels host wk sh load = .ok (m, runs, sh')) :
    (wk.models = some (m, runs) ∧ sh' = sh) ∨
      (wk.models = none ∧ sh' = { sh with loadedWorkers := fetchAdd1 sh.loadedWorkers }) := by
  unfold ensureModels at h
  split at h
  · rename_i hm
    cases h
    exact .inl ⟨hm, rfl⟩
  · rename_i hm
    split at h
    · cases h
      exact .inr ⟨hm, rfl⟩
    · cases h

/-- the reload failed -/
theorem ensureModels_error {host : Host} {wk : Worker F} {sh : Shared} {load : Except String (Models F)}
    {e : AnyError} (h : ensureModels host wk sh load = .error e) :
    ∃ text, e = .msg ("Model reload failed: " ++ text) := by
  unfold ensureModels at h
  split at h
  · cases h
  · split at h
    · cases h
    · cases h
      exact ⟨_, rfl⟩

/-! ## a request is one turn of the loop -/

/-- where a turn that ends like `it` leaves the thread -/
def TurnEnd (w id : Nat) (it : Iteration F) (th : Thread F) : Prop :=
  match it.next with
  | .again => th.phase = .top ∧ th.worker = it.worker
  | .fatal => th.phase = .exited (.err (fatalError w))
  | .panicked => ∃ text, th.phase = .unwinding id text
  | .shutdown => False

/-- the last step of a turn -/
theorem act_end {id : Nat} {reply : Option (Reply F)} {out : DispatchOutcome} {m : Models F} {d : Desk}
    {wk : Worker F} {sh : Shared} (hp : (s.workers w).phase = .acting out)
    (hw : (s.workers w).worker = { wk with models := some (m, d.runs), warmedLocal := d.warmedLocal })
    (hs : s.shared = sh.put d) :
    ∃ u, step p s (.act w) = some u ∧ u.shared = (afterDispatch m wk sh reply out d).shared ∧
      u.replies = s.replies ∧ TurnEnd w id (afterDispatch m wk sh reply out d) (u.workers w) := by
  unfold afterDispatch
  by_cases hk : out.skip = true
  · refine ⟨s.setPhase w .top, by simp only [step, actStep, hp, if_pos hk], ?_, rfl, ?_⟩
    · simp only [if_pos hk]
      exact hs
    · simp only [if_pos hk, TurnEnd]
      exact ⟨by simp [System.setPhase, System.goOn], by simp [System.setPhase, System.goOn, hw]⟩
  · by_cases hf : out.outcome = .trtFatal
    · refine ⟨s.exitWorker p w (.err (fatalError w)),
        by simp only [step, actStep, hp, if_neg hk, if_pos hf], ?_, System.closeIfLast_replies, ?_⟩
      · simp only [if_neg hk, if_pos hf]
        exact System.closeIfLast_shared.trans hs
      · simp only [if_neg hk, if_pos hf, TurnEnd]
        rw [System.exitWorker_workers, Function.update_self]
    · by_cases hu : shouldUnloadOnOutcome out.outcome = true
      · refine ⟨s.subLoaded.goOn w .top ((s.workers w).worker.noted out).unloaded,
          by simp only [step, actStep, hp, if_neg hk, if_neg hf, if_pos hu], ?_, rfl, ?_⟩
        · simp only [if_neg hk, if_neg hf, if_pos hu]
          rw [← hs]
          rfl
        · simp only [if_neg hk, if_neg hf, if_pos hu, TurnEnd]
          exact ⟨by simp [System.goOn], by simp [System.goOn, Worker.noted, Worker.unloaded, hw]⟩
      · refine ⟨s.goOn w .top ((s.workers w).worker.noted out),
          by simp only [step, actStep, hp, if_neg hk, if_neg hf, if_neg hu], ?_, rfl, ?_⟩
        · simp only [if_neg hk, if_neg hf, if_neg hu]
          exact hs
        · simp only [if_neg hk, if_neg hf, if_neg hu, TurnEnd]
          exact ⟨by simp [System.goOn], by simp [System.goOn, Worker.noted, hw]⟩

theorem reply_end {id : Nat} {reply : Option (Reply F)} {out : DispatchOutcome}
    (hp : (s.workers w).phase = .replying id reply out) :
    ∃ v, step p s (.reply w) = some v ∧ (v.workers w).phase = .acting out ∧
      (v.workers w).worker = (s.workers w).worker ∧ v.shared = s.shared ∧
      v.replies = s.replies ++ received s w id reply := by
  refine ⟨{ (s.setPhase w (.acting out)).setTicket id Ticket.finish with
    replies := s.replies ++ received s w id reply }, by simp only [step, replyStep, hp], ?_, ?_, rfl, rfl⟩
  · show ((s.setPhase w (.acting out)).workers w).phase = _
    rw [System.setPhase_same]
  · show ((s.setPhase w (.acting out)).workers w).worker = _
    rw [System.setPhase_same]

/-- from a result to the end of the turn -/
theorem reply_act {id : Nat} {reply : Option (Reply F)} {out : DispatchOutcome} {m : Models F} {d : Desk}
    {wk : Worker F} {sh : Shared} (hp : (s.workers w).phase = .replying id reply out)
    (hw : (s.workers w).worker = { wk with models := some (m, d.runs), warmedLocal := d.warmedLocal })
    (hs : s.shared = sh.put d) :
    ∃ u, [Act.reply w, .act w].foldlM (step p) s = some u ∧
      u.shared = (afterDispatch m wk sh reply out d).shared ∧
      u.replies = s.replies ++ received s w id reply ∧
      TurnEnd w id (afterDispatch m wk sh reply out d) (u.workers w) := by
  obtain ⟨v, hv, hvp, hvw, hvs, hvr⟩ := reply_end (p := p) hp
  obtain ⟨u, hu, hsh, hre, hend⟩ := act_end (p := p) hvp (hvw.trans hw) (hvs.trans hs)
  exact ⟨u, foldlM_cons_of hv (foldlM_cons_of hu rfl), hsh, hre.trans hvr, hend⟩

/-- what the client of `t` receives of `reply` -/
theorem received_eq {id : Nat} {t : Ticket} (ht : s.tickets[id]? = some t) (reply : Option (Reply F)) :
    received s w id reply = if t.isOpen then reply.toList.map (fun r => (id, w, r)) else [] := by
  unfold received
  rw [ht]
  cases reply with
  | none => simp
  | some r => rfl

variable (p) in
/-- some steps from `s` come to the turn `it` of worker `w` on ticket `id` -/
def ComesTo (s : System F) (w id : Nat) (t : Ticket) (it : Iteration F) : Prop :=
  ∃ (as : List (Act F)) (u : System F), as.foldlM (step p) s = some u ∧ u.shared = it.shared ∧
    u.replies = s.replies ++ (if t.isOpen then it.reply.toList.map (fun r => (id, w, r)) else []) ∧
    TurnEnd w id it (u.workers w)

/-- the load failed: an error reply, and nothing else changes -/
theorem comesTo_loadError {id : Nat} {t : Ticket} (hp : (s.workers w).phase = .took id)
    (ht : s.tickets[id]? = some t) {load : Except String (Models F)} {e : AnyError}
    (he : ensureModels p.host (s.workers w).worker s.shared load = .error e) :
    ComesTo p s w id t
      ⟨(s.workers w).worker, s.shared, some (replyRequestLoadError t.req e), none, .again⟩ := by
  have hl : step p s (.load w load) = some ((s.handle id w (.unloadable e)).setPhase w
      (.replying id (some (replyRequestLoadError t.req e)) ⟨.ok, true⟩)) := by
    simp only [step, loadStep, hp, ht, he]
  have hph := congrArg Thread.phase (System.setPhase_same (s := s.handle id w (.unloadable e)) (w := w)
    (.replying id (some (replyRequestLoadError t.req e)) ⟨.ok, true⟩))
  obtain ⟨v, hv, hvp, hvw, hvs, hvr⟩ := reply_end (p := p) hph
  have ha : step p v (.act w) = some (v.setPhase w .top) := by simp only [step, actStep, hvp, if_true]
  refine ⟨[.load w load, .reply w, .act w], v.setPhase w .top,
    foldlM_cons_of hl (foldlM_cons_of hv (foldlM_cons_of ha rfl)), hvs, ?_, ?_⟩
  · rw [← received_eq ht]
    exact hvr
  · rw [System.setPhase_same]
    refine ⟨rfl, hvw.trans ?_⟩
    rw [System.setPhase_same]
    rfl

/-- from loaded models to the end of the turn -/
theorem comesTo_serve {id : Nat} {t : Ticket} {m : Models F} {runs : Trace} {wk : Worker F}
    {sig : Option (Except AnyError Nat)}
    (hw : s.workers w = ⟨.loaded id, { wk with models := some (m, runs) }, sig⟩)
    (ht : s.tickets[id]? = some t) (env : Env) :
    ComesTo p s w id t (serve p.host (p.configOf w) w m runs wk s.shared t.req (!t.isOpen) env) := by
  have hp : (s.workers w).phase = .loaded id := by rw [hw]
  have hm : (s.workers w).worker.models = some (m, runs) := by rw [hw]
  have hd : dispatchOn p s w m runs env t = dispatchRequest m p.host (p.configOf w) w env
      wk.consecutiveFailures (buildShapeGuard (p.configOf w) s.shared.ceiling) t.req (!t.isOpen)
      (deskOf runs wk s.shared) := by
    unfold dispatchOn
    rw [hw]
    rfl
  obtain ⟨v, hv⟩ : ∃ v, v = s.handle id w (heldFor p s w m runs env t) := ⟨_, rfl⟩
  have hvw : v.workers w = s.workers w := by rw [hv]; rfl
  have hvr : v.replies = s.replies := by rw [hv]; rfl
  have hvt : v.tickets[id]? = some t := by rw [hv]; exact ht
  have hvs : v.shared = s.shared := by rw [hv]; rfl
  have hth (d : Desk) (ph : Phase F) : (dispatched v w m d ph).workers w =
      ⟨ph, { wk with models := some (m, d.runs), warmedLocal := d.warmedLocal }, sig⟩ := by
    refine (System.goOn_same _ _).trans ?_
    rw [hvw, hw]
  unfold serve
  rw [← hd]
  cases hr : dispatchOn p s w m runs env t with
  | mk r d =>
    cases r with
    | ok x =>
      obtain ⟨reply, out⟩ := x
      have hs : step p s (.dispatch w env) = some (dispatched v w m d (.replying id reply out)) := by
        rw [hv]
        simp only [step, dispatchStep, hp, hm, ht, hr]
      have hsh : (dispatched v w m d (.replying id reply out)).shared = s.shared.put d := by
        rw [← hvs]
        rfl
      obtain ⟨u, hu, hus, hur, hue⟩ := reply_act (p := p) (congrArg Thread.phase (hth d _))
        (congrArg Thread.worker (hth d (.replying id reply out))) hsh
      refine ⟨[.dispatch w env, .reply w, .act w], u, foldlM_cons_of hs hu, hus, ?_, hue⟩
      dsimp only
      rw [hur, (afterDispatch_keeps ..).reply, ← hvr, ← received_eq hvt]
      rfl
    | err e =>
      refine ⟨[.dispatch w env], dispatched v w m d (.unwinding id e.display), foldlM_cons_of ?_ rfl,
        ?_, ?_, e.display, ?_⟩
      · rw [hv]
        simp only [step, dispatchStep, hp, hm, ht, hr]
      · rw [← hvs]
        rfl
      · simp only [Option.toList_none, List.map_nil, ite_self, List.append_nil]
        exact hvr
      · rw [hth]
    | panic text =>
      refine ⟨[.dispatch w env], dispatched v w m d (.unwinding id text), foldlM_cons_of ?_ rfl, ?_, ?_,
        text, ?_⟩
      · rw [hv]
        simp only [step, dispatchStep, hp, hm, ht, hr]
      · rw [← hvs]
        rfl
      · simp only [Option.toList_none, List.map_nil, ite_self, List.append_nil]
        exact hvr
      · rw [hth]

/-- **the steps of a worker on one request are one turn of its loop** -/
theorem turn_eq_handleMsg {id : Nat} {t : Ticket} (hp : (s.workers w).phase = .took id)
    (ht : s.tickets[id]? = some t) (load : Except String (Models F)) (env : Env) :
    ComesTo p s w id t (handleMsg p.host (p.configOf w) w (s.workers w).worker s.shared
      (.request t.req (!t.isOpen) load env)) := by
  unfold handleMsg
  dsimp only
  cases he : ensureModels p.host (s.workers w).worker s.shared load with
  | error e => exact comesTo_loadError hp ht he
  | ok r =>
    obtain ⟨m, runs, sh⟩ := r
    -- the state in front of the dispatch
    obtain ⟨v, hv⟩ : ∃ v : System F, v = { s.goOn w (.loaded id) { (s.workers w).worker with
        models := some (m, runs) } with shared := sh } := ⟨_, rfl⟩
    have hl : step p s (.load w load) = some v := by
      rw [hv]
      simp only [step, loadStep, hp, ht, he]
    have hvw : v.workers w = ⟨.loaded id, { (s.workers w).worker with models := some (m, runs) },
        (s.workers w).signal⟩ := by
      rw [hv]
      exact System.goOn_same _ _
    have hvt : v.tickets[id]? = some t := by
      rw [hv]
      exact ht
    have hvs : v.shared = sh := by rw [hv]
    have hvr : v.replies = s.replies := by rw [hv]; rfl
    obtain ⟨as, u, hu, hus, hur, hue⟩ := comesTo_serve (p := p) hvw hvt env
    rw [hvs] at hus hur hue
    rw [hvr] at hur
    exact ⟨.load w load :: as, u, foldlM_cons_of hl hu, hus, hur, hue⟩

end
end EmbedServer.Pool
