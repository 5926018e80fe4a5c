import Mathlib.Data.List.Sort
import Mathlib.Logic.Function.Basic
import EmbedServer.Lib.Transition
import EmbedServer.Worker.Startup

/-!
# The pool as one system (`embedder/pool.rs`, `worker/run.rs`, `worker/guard.rs`)

The init task of `EmbedPool::spawn`, `n` worker threads and the clients, interleaved.  An action is one
step of one of them; what a step reads from outside (a load result, the environment of a request) comes
with the action.

* `Setup`, `System`   what the pool is started with, and its state;
* `step`              one step; `none` where the action is not enabled;
* `System.closeIfLast` the receiver goes with its last owner.
-/

set_option linter.unusedSectionVars false

namespace EmbedServer

/-- `models = None` -/
def Worker.unloaded {F : Type} (wk : Worker F) : Worker F := { wk with models := none }

/-- `consecutive_failures` after a request that was not skipped -/
def Worker.noted {F : Type} (wk : Worker F) (out : DispatchOutcome) : Worker F :=
  { wk with consecutiveFailures := nextConsecutiveFailures out.outcome wk.consecutiveFailures }

namespace Pool

/-- `mpsc::channel` takes the capacities `n` and `n * 4` -/
structure PoolSize (n : Nat) : Prop where
  pos : 1 ≤ n
  fits : n * 4 ≤ maxPermits

/-- what `EmbedPool::spawn` is called with; `n` after the clamp to `gpu_count` -/
structure Setup where
  host : Host
  config : WorkerConfig
  /-- `idle_timeout.is_some()` -/
  idleTimeout : Bool
  n : Nat
  size : PoolSize n

theorem poolSize_one : PoolSize 1 := ⟨by omega, by unfold maxPermits; omega⟩

theorem poolSize_two : PoolSize 2 := ⟨by omega, by unfold maxPermits; omega⟩

/-- `make_worker_config` -/
def Setup.configOf (p : Setup) (w : Nat) : WorkerConfig := workerConfigOf p.config p.n w

/-- how a thread ended, as its `JoinHandle` tells -/
inductive Joined where
  | ok
  | err (e : AnyError)
  | panicked (text : String)
deriving DecidableEq, Repr

/-- where a worker thread is -/
inductive Phase (F : Type) where
  /-- not spawned yet -/
  | absent
  /-- in `startup_worker` -/
  | starting
  /-- its load error is on the ready channel, it has not returned yet -/
  | failed (e : AnyError)
  /-- head of the loop -/
  | top
  /-- in `rx.lock()` -/
  | waiting
  /-- in `recv()`, with the lock -/
  | receiving
  /-- has a request, the models not looked at -/
  | took (id : Nat)
  /-- in front of `dispatch_request` -/
  | loaded (id : Nat)
  /-- the result is there, not sent -/
  | replying (id : Nat) (reply : Option (Reply F)) (out : DispatchOutcome)
  /-- behind `dispatch_request` -/
  | acting (out : DispatchOutcome)
  /-- `dispatch_request` panicked -/
  | unwinding (id : Nat) (text : String)
  | exited (how : Joined)

/-- no thread runs -/
def Phase.gone {F : Type} : Phase F → Bool
  | .absent | .exited _ => true
  | _ => false

/-- `JoinHandle` is ready -/
def Phase.isExited {F : Type} : Phase F → Bool
  | .exited _ => true
  | _ => false

structure Thread (F : Type) where
  phase : Phase F
  worker : Worker F
  /-- what it sent on the ready channel -/
  signal : Option (Except AnyError Nat)

def Thread.fresh {F : Type} : Thread F := ⟨.absent, ⟨none, 0, []⟩, none⟩

/-- where the init task is; `recv`, `join` are the two polls of the biased `select!`, in this order -/
inductive InitPc where
  | spawn (k : Nat)
  | recv (k : Nat)
  | join (k : Nat)
  /-- both were pending -/
  | parked (k : Nat)
  /-- `await_worker_signal` returned `delta` -/
  | count (k delta : Nat)
  | done (r : Except AnyError Unit)

/-- where the request of a client is -/
inductive Stage where
  /-- in `tx.send()` -/
  | sending
  | queued
  | taken
  /-- answered, or its reply sender is gone -/
  | ended
deriving DecidableEq, Repr

structure Ticket where
  req : EmbedRequest
  stage : Stage
  /-- the client still holds its end of the reply channel -/
  isOpen : Bool
deriving DecidableEq, Repr

/-- the receiver is dropped: what was not received is dropped with it, what was not sent fails -/
def Ticket.abandon (t : Ticket) : Ticket :=
  match t.stage with
  | .sending | .queued => { t with stage := .ended }
  | .taken | .ended => t

def Ticket.take (t : Ticket) : Ticket := { t with stage := .taken }

def Ticket.finish (t : Ticket) : Ticket := { t with stage := .ended }

def Ticket.enqueue (t : Ticket) : Ticket := { t with stage := .queued }

/-- the future of the call is dropped; before the send is through nothing is left of it -/
def Ticket.disconnect (t : Ticket) : Ticket :=
  { t with isOpen := false, stage := if t.stage = .sending then .ended else t.stage }

/-- the client is in its call -/
def Ticket.calling (t : Ticket) : Bool := t.isOpen && t.stage != .ended

/-- what a worker had when it turned to a request -/
inductive Handled (F : Type) where
  /-- no models: the error of the reload -/
  | unloadable (e : AnyError)
  /-- what `dispatch_request` was called with, beside the request -/
  | dispatched (m : Models F) (env : Env) (consecutiveFailures : Nat) (guard : Option TrtJitGuard)
      (isClosed : Bool) (d : Desk)

structure System (F : Type) where
  init : InitPc
  readyCh : List (Except AnyError Nat)
  rssDeltas : List Nat
  /-- `model_rss_per_worker_bytes` -/
  modelRss : Nat
  /-- `live_workers` -/
  live : Nat
  shared : Shared
  workers : Nat → Thread F
  /-- who holds the lock of the receiver -/
  lock : Option Nat
  /-- requests in the channel, by ticket -/
  queue : List Nat
  tickets : List Ticket
  /-- some `EmbedPool` is alive -/
  poolHandle : Bool
  rxOpen : Bool
  /-- history: which worker received which ticket -/
  takes : List (Nat × Nat)
  /-- history: ticket, worker and what the worker had when it turned to the request -/
  handled : List (Nat × Nat × Handled F)
  /-- history: ticket, worker and what the client received -/
  replies : List (Nat × Nat × Reply F)

inductive Act (F : Type) where
  /-- next step of the init task -/
  | init
  | startup (w preLoadRss : Nat) (load : Except String (Models F))
  /-- the thread ends in `startup_worker` without a signal -/
  | vanish (w : Nat) (how : Joined)
  | leave (w : Nat)
  | drain (w : Nat) (shapes : List Shape)
  | lock (w : Nat)
  | timeout (w : Nat)
  | recv (w : Nat)
  | load (w : Nat) (load : Except String (Models F))
  | dispatch (w : Nat) (env : Env)
  | reply (w : Nat)
  | act (w : Nat)
  | die (w : Nat)
  | submit (req : EmbedRequest)
  | enqueue (id : Nat)
  | disconnect (id : Nat)
  | dropPool

/-- `median_usize` -/
def medianUsize (values : List Nat) : Nat := (values.insertionSort (· ≤ ·)).getD (values.length / 2) 0

def failedToLoad (k : Nat) (e : AnyError) : AnyError :=
  .msg ("Worker " ++ toString k ++ " failed to load models: " ++ e.display)

def joinError (k : Nat) : Joined → AnyError
  | .ok => .msg ("Worker " ++ toString k ++ " exited cleanly without signaling readiness")
  | .err e =>
    .msg ("Worker " ++ toString k ++ " exited with error before signaling ready: " ++ e.display)
  | .panicked text => .msg ("Worker " ++ toString k ++ " panicked before signaling ready: " ++ text)

def fatalError (w : Nat) : AnyError :=
  .msg ("Worker " ++ toString w ++ " hit fatal TRT engine build error; exiting")

/-- the error a failed load returns -/
def loadError {F : Type} : Except String (Models F) → AnyError
  | .error text => .msg text
  | .ok _ => .msg ""

section
variable {F : Type}

def InitPc.isDone : InitPc → Bool
  | .done _ => true
  | _ => false

namespace System

def setThread (s : System F) (w : Nat) (th : Thread F) : System F :=
  { s with workers := Function.update s.workers w th }

/-- thread `w` goes on to `ph` with its locals at `wk` -/
def goOn (s : System F) (w : Nat) (ph : Phase F) (wk : Worker F) : System F :=
  s.setThread w ⟨ph, wk, (s.workers w).signal⟩

def setPhase (s : System F) (w : Nat) (ph : Phase F) : System F := s.goOn w ph (s.workers w).worker

def setTicket (s : System F) (id : Nat) (f : Ticket → Ticket) : System F :=
  { s with tickets := s.tickets.modify id f }

/-- worker `w` turns to ticket `id` -/
def handle (s : System F) (id w : Nat) (h : Handled F) : System F :=
  { s with handled := s.handled ++ [(id, w, h)] }

/-- `loaded_workers.fetch_add(1)` -/
def addLoaded (s : System F) : System F :=
  { s with shared := { s.shared with loadedWorkers := fetchAdd1 s.shared.loadedWorkers } }

/-- `loaded_workers.fetch_sub(1)` -/
def subLoaded (s : System F) : System F :=
  { s with shared := { s.shared with loadedWorkers := fetchSub1 s.shared.loadedWorkers } }

/-- the loop of worker `w` ends: the lock is free, and a loaded worker is taken off the count -/
def closing (s : System F) (w : Nat) : System F :=
  { s with
    lock := none
    shared :=
      if (s.workers w).worker.models.isSome then
        { s.shared with loadedWorkers := fetchSub1 s.shared.loadedWorkers }
      else s.shared }

/-- the receiver is dropped -/
def closeRx (s : System F) : System F :=
  { s with rxOpen := false, queue := [], tickets := s.tickets.map Ticket.abandon }

/-- the receiver goes with its last owner: the init task and every running thread hold it -/
def closeIfLast (p : Setup) (s : System F) : System F :=
  if s.init.isDone && (List.range p.n).all (fun k => (s.workers k).phase.gone) then s.closeRx else s

/-- the thread returns: its locals are dropped, the models among them, and its `WorkerGuard` -/
def exitWorker (p : Setup) (s : System F) (w : Nat) (how : Joined) : System F :=
  closeIfLast p { s.goOn w (.exited how) (s.workers w).worker.unloaded with live := fetchSub1 s.live }

def finishInit (p : Setup) (s : System F) (r : Except AnyError Unit) : System F :=
  closeIfLast p { s with init := .done r }

end System

def start (p : Setup) (ceiling : Nat) : System F :=
  { init := .spawn 0
    readyCh := []
    rssDeltas := []
    modelRss := 0
    live := p.n
    shared := ⟨0, ceiling, [], [], []⟩
    workers := fun _ => .fresh
    lock := none
    queue := []
    tickets := []
    poolHandle := true
    rxOpen := true
    takes := []
    handled := []
    replies := [] }

/-! ## the init task -/

/-- after `fetch_add`: the next worker, or the median and the end -/
def countWorker (p : Setup) (s : System F) (k delta : Nat) : System F :=
  let s := { s.addLoaded with rssDeltas := s.rssDeltas ++ [delta] }
  if k + 1 < p.n then { s with init := .spawn (k + 1) }
  else { s with modelRss := medianUsize s.rssDeltas }.finishInit p (.ok ())

def initStep (p : Setup) (s : System F) : Option (System F) :=
  match s.init with
  | .spawn k => some { s.setPhase k .starting with init := .recv k }
  | .recv k =>
    match s.readyCh with
    | .ok delta :: rest => some { s with readyCh := rest, init := .count k delta }
    | .error e :: rest =>
      some ({ s with readyCh := rest }.finishInit p (.error (failedToLoad k e)))
    -- the channel is never closed: the task holds a sender itself
    | [] => some { s with init := .join k }
  | .join k =>
    match (s.workers k).phase with
    | .exited how => some (s.finishInit p (.error (joinError k how)))
    | _ => some { s with init := .parked k }
  | .parked k =>
    if !s.readyCh.isEmpty || (s.workers k).phase.isExited then some { s with init := .recv k } else none
  | .count k delta => some (countWorker p s k delta)
  | .done _ => none

/-! ## a worker -/

section
variable [F32Ops F] (p : Setup) (s : System F) (w : Nat)

/-- the end of `startup_worker` -/
def startedUp (load : Except String (Models F)) : StartupOutcome F → System F
  | .ready wk delta =>
    { s.setThread w ⟨.top, wk, some (.ok delta)⟩ with readyCh := s.readyCh ++ [.ok delta] }
  | .loadFailed e =>
    { s.setThread w ⟨.failed (loadError load), (s.workers w).worker, some (.error e)⟩ with
      readyCh := s.readyCh ++ [.error e] }
  | .refused e => s.exitWorker p w (.err e)

def startupStep (preLoadRss : Nat) (load : Except String (Models F)) : Option (System F) :=
  match (s.workers w).phase with
  | .starting =>
    let (out, sh) := startupWorker p.host (p.configOf w) w preLoadRss load s.shared
    some (startedUp p { s with shared := sh } w load out)
  | _ => none

def vanishStep (how : Joined) : Option (System F) :=
  match (s.workers w).phase with
  | .starting => some (s.exitWorker p w how)
  | _ => none

def leaveStep : Option (System F) :=
  match (s.workers w).phase with
  | .failed e => some (s.exitWorker p w (.err e))
  | _ => none

def drainTurn (shapes : List Shape) : Option (System F) :=
  match (s.workers w).phase with
  | .top =>
    let (wk, sh) := drainEnginePropagation p.host (p.configOf w) (s.workers w).worker s.shared shapes
    some { s.goOn w .waiting wk with shared := sh }
  | _ => none

def lockStep : Option (System F) :=
  match (s.workers w).phase, s.lock with
  | .waiting, none => some { s.setPhase w .receiving with lock := some w }
  | _, _ => none

/-- the timeout is armed only with models; it drops the lock, or the wait for it -/
def timedOut : Option (System F) :=
  if p.idleTimeout && (s.workers w).worker.models.isSome then
    some { s.subLoaded.goOn w .top (s.workers w).worker.unloaded with
      lock := if s.lock = some w then none else s.lock }
  else none

def timeoutStep : Option (System F) :=
  match (s.workers w).phase with
  | .waiting | .receiving => timedOut p s w
  | _ => none

def recvStep : Option (System F) :=
  match (s.workers w).phase with
  | .receiving =>
    match s.queue with
    | id :: rest =>
      some { (s.setPhase w (.took id)).setTicket id Ticket.take with
        lock := none
        queue := rest
        takes := s.takes ++ [(id, w)] }
    | [] =>
      if s.poolHandle then none
      else some ((s.closing w).exitWorker p w .ok)
  | _ => none

def loadStep (load : Except String (Models F)) : Option (System F) :=
  match (s.workers w).phase with
  | .took id =>
    match s.tickets[id]? with
    | some t =>
      match ensureModels p.host (s.workers w).worker s.shared load with
      | .ok (m, runs, sh) =>
        some { s.goOn w (.loaded id) { (s.workers w).worker with models := some (m, runs) } with
          shared := sh }
      -- the reply, then `continue` as for a skipped request
      | .error e =>
        some ((s.handle id w (.unloadable e)).setPhase w
          (.replying id (some (replyRequestLoadError t.req e)) ⟨.ok, true⟩))
    | none => none
  | _ => none

/-- `dispatch_request` as worker `w` calls it for ticket `t` -/
def dispatchOn (m : Models F) (runs : Trace) (env : Env) (t : Ticket) :
    Outcome AnyError (Option (Reply F) × DispatchOutcome) × Desk :=
  dispatchRequest m p.host (p.configOf w) w env (s.workers w).worker.consecutiveFailures
    (buildShapeGuard (p.configOf w) s.shared.ceiling) t.req (!t.isOpen)
    (deskOf runs (s.workers w).worker s.shared)

/-- what `dispatchOn` calls it with -/
def heldFor (m : Models F) (runs : Trace) (env : Env) (t : Ticket) : Handled F :=
  .dispatched m env (s.workers w).worker.consecutiveFailures
    (buildShapeGuard (p.configOf w) s.shared.ceiling) (!t.isOpen) (deskOf runs (s.workers w).worker s.shared)

/-- the thread goes on to `ph` after a dispatch that left `d` -/
def dispatched (m : Models F) (d : Desk) (ph : Phase F) : System F :=
  { s.goOn w ph { (s.workers w).worker with models := some (m, d.runs), warmedLocal := d.warmedLocal } with
    shared := s.shared.put d }

def dispatchStep (env : Env) : Option (System F) :=
  match (s.workers w).phase, (s.workers w).worker.models with
  | .loaded id, some (m, runs) =>
    match s.tickets[id]? with
    | some t =>
      let s' := s.handle id w (heldFor p s w m runs env t)
      match dispatchOn p s w m runs env t with
      | (.ok (reply, out), d) => some (dispatched s' w m d (.replying id reply out))
      -- `dispatch_request` returns no error
      | (.err e, d) => some (dispatched s' w m d (.unwinding id e.display))
      | (.panic text, d) => some (dispatched s' w m d (.unwinding id text))
    | none => none
  | _, _ => none

/-- what a client with a ticket receives -/
def received (id : Nat) (reply : Option (Reply F)) : List (Nat × Nat × Reply F) :=
  match s.tickets[id]?, reply with
  | some t, some r => if t.isOpen then [(id, w, r)] else []
  | _, _ => []

def replyStep : Option (System F) :=
  match (s.workers w).phase with
  | .replying id reply out =>
    some { (s.setPhase w (.acting out)).setTicket id Ticket.finish with
      replies := s.replies ++ received s w id reply }
  | _ => none

def actStep : Option (System F) :=
  match (s.workers w).phase with
  | .acting out =>
    if out.skip then some (s.setPhase w .top)
    -- `consecutive_failures` goes with the thread
    else if out.outcome = .trtFatal then some (s.exitWorker p w (.err (fatalError w)))
    else if shouldUnloadOnOutcome out.outcome then
      some (s.subLoaded.goOn w .top ((s.workers w).worker.noted out).unloaded)
    else some (s.goOn w .top ((s.workers w).worker.noted out))
  | _ => none

/-- unwinding drops the request -/
def dieStep : Option (System F) :=
  match (s.workers w).phase with
  | .unwinding id text => some ((s.setTicket id Ticket.finish).exitWorker p w (.panicked text))
  | _ => none

end

/-! ## the clients -/

section
variable (p : Setup) (s : System F)

def submitStep (req : EmbedRequest) : Option (System F) :=
  if s.poolHandle then
    some { s with tickets := s.tickets ++ [⟨req, if s.rxOpen then .sending else .ended, true⟩] }
  else none

/-- the channel holds `n * 4` requests -/
def enqueueStep (id : Nat) : Option (System F) :=
  match s.tickets[id]? with
  | some t =>
    if t.stage = .sending ∧ s.queue.length < p.n * 4 then
      some { s.setTicket id Ticket.enqueue with queue := s.queue ++ [id] }
    else none
  | none => none

def disconnectStep (id : Nat) : Option (System F) :=
  match s.tickets[id]? with
  | some t => if t.calling then some (s.setTicket id Ticket.disconnect) else none
  | none => none

/-- a call borrows the pool: the last handle goes when no client is in a call -/
def dropPoolStep : Option (System F) :=
  if s.poolHandle && s.tickets.all (fun t => !t.calling) then some { s with poolHandle := false }
  else none

end

def step [F32Ops F] (p : Setup) (s : System F) : Act F → Option (System F)
  | .init => initStep p s
  | .startup w preLoadRss load => startupStep p s w preLoadRss load
  | .vanish w how => vanishStep p s w how
  | .leave w => leaveStep p s w
  | .drain w shapes => drainTurn p s w shapes
  | .lock w => lockStep s w
  | .timeout w => timeoutStep p s w
  | .recv w => recvStep p s w
  | .load w load => loadStep p s w load
  | .dispatch w env => dispatchStep p s w env
  | .reply w => replyStep s w
  | .act w => actStep p s w
  | .die w => dieStep p s w
  | .submit req => submitStep s req
  | .enqueue id => enqueueStep p s id
  | .disconnect id => disconnectStep s id
  | .dropPool => dropPoolStep s

/-! ## frame -/

namespace System
variable {p : Setup} {s : System F} {w k : Nat}

@[simp] theorem setThread_same (th : Thread F) : (s.setThread w th).workers w = th :=
  Function.update_self ..

@[simp] theorem goOn_same (ph : Phase F) (wk : Worker F) :
    (s.goOn w ph wk).workers w = ⟨ph, wk, (s.workers w).signal⟩ := setThread_same _

@[simp] theorem setPhase_same (ph : Phase F) :
    (s.setPhase w ph).workers w = ⟨ph, (s.workers w).worker, (s.workers w).signal⟩ := setThread_same _

/-- whatever the receiver has no part in survives its end -/
theorem closeIfLast_frame {α : Type} (f : System F → α) (h : ∀ s : System F, f s.closeRx = f s) :
    f (s.closeIfLast p) = f s := by
  unfold closeIfLast
  split
  · exact h s
  · rfl

@[simp] theorem closeIfLast_init : (s.closeIfLast p).init = s.init := closeIfLast_frame _ fun _ => rfl

@[simp] theorem closeIfLast_readyCh : (s.closeIfLast p).readyCh = s.readyCh :=
  closeIfLast_frame _ fun _ => rfl

@[simp] theorem closeIfLast_rssDeltas : (s.closeIfLast p).rssDeltas = s.rssDeltas :=
  closeIfLast_frame _ fun _ => rfl

@[simp] theorem closeIfLast_modelRss : (s.closeIfLast p).modelRss = s.modelRss :=
  closeIfLast_frame _ fun _ => rfl

@[simp] theorem closeIfLast_live : (s.closeIfLast p).live = s.live := closeIfLast_frame _ fun _ => rfl

@[simp] theorem closeIfLast_shared : (s.closeIfLast p).shared = s.shared :=
  closeIfLast_frame _ fun _ => rfl

@[simp] theorem closeIfLast_workers : (s.closeIfLast p).workers = s.workers :=
  closeIfLast_frame _ fun _ => rfl

@[simp] theorem closeIfLast_poolHandle : (s.closeIfLast p).poolHandle = s.poolHandle :=
  closeIfLast_frame _ fun _ => rfl

@[simp] theorem closeIfLast_takes : (s.closeIfLast p).takes = s.takes := closeIfLast_frame _ fun _ => rfl

@[simp] theorem closeIfLast_handled : (s.closeIfLast p).handled = s.handled :=
  closeIfLast_frame _ fun _ => rfl

@[simp] theorem closeIfLast_replies : (s.closeIfLast p).replies = s.replies :=
  closeIfLast_frame _ fun _ => rfl

/-- a thread that returned -/
theorem exitWorker_workers (how : Joined) : (s.exitWorker p w how).workers =
    Function.update s.workers w ⟨.exited how, (s.workers w).worker.unloaded, (s.workers w).signal⟩ :=
  closeIfLast_workers

end System

end
end Pool
end EmbedServer
