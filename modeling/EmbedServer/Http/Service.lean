import EmbedServer.Health
import EmbedServer.Http.Api
import EmbedServer.Pool.Callers

/-!
# The server as one system

The handlers stand in front of the pool and of startup.  A call is checked, waits for a permit of
`request_permits`, sends its request to the pool, and gives the permit back with its response, or when its
client goes away and the future of the handler is dropped.

* `Call`, `Service`   a call of a client, and the state;
* `serviceStep`       one step of the pool, of startup, of another caller of the pool, or of a call;
* `Service.Reached`   the states of a server from its start.
-/

namespace EmbedServer.Http

/-- where the handler of a call is; a ticket is a call of the pool -/
inductive CallStage (F : Type) where
  /-- in `acquire_owned` -/
  | waiting
  | permitted
  /-- in `pool.dense(..)` … -/
  | inPool (ticket : Nat)
  | answered (ticket : Option Nat) (r : Except AppError (Response F))
  /-- the client went away -/
  | gone

namespace CallStage
variable {F : Type}

def isWaiting : CallStage F → Bool
  | waiting => true
  | _ => false

/-- has a permit -/
def isHolding : CallStage F → Bool
  | permitted | inPool _ => true
  | _ => false

/-- no handler runs -/
def isOver : CallStage F → Bool
  | answered _ _ | gone => true
  | _ => false

def ticket : CallStage F → Option Nat
  | inPool id => some id
  | answered id _ => id
  | _ => none

/-- the status code of the response -/
def status : CallStage F → Option Nat
  | answered _ (.ok _) => some 200
  | answered _ (.error e) => some e.status
  | _ => none

end CallStage

structure Call (F : Type) where
  route : Route
  texts : List String
  stage : CallStage F

structure Service (F : Type) where
  node : Node F
  calls : List (Call F)

inductive ServiceAct (F : Type) where
  /-- a step of the pool or of a task of startup -/
  | inner (a : NodeAct F)
  /-- a call of the pool by startup, the probe, a warmup or `/health/deep`, and its end by a timeout -/
  | background (req : EmbedRequest)
  | hangUp (id : Nat)
  | request (route : Route) (texts : List String)
  | acquire (i : Nat)
  | send (i : Nat)
  | respond (i : Nat) (sendFailed : Bool)
  | cancel (i : Nat)

section
variable {F : Type}

/-- neither made by a handler nor by another caller of the pool -/
def isInner : NodeAct F → Bool
  | .pool (.submit _) | .pool (.disconnect _) | .pool .dropPool => false
  | .pool _ => true
  | .server .main | .server .probe | .server .probePanic => true
  | .server _ => false

namespace Service

def setCall (s : Service F) (i : Nat) (stage : CallStage F) : Service F :=
  { s with calls := s.calls.modify i fun c => { c with stage := stage } }

def push (s : Service F) (c : Call F) : Service F := { s with calls := s.calls ++ [c] }

def stageOf (s : Service F) (i : Nat) : Option (CallStage F) := (s.calls[i]?).map Call.stage

/-- what is on the reply channel of a ticket -/
def replyTo (s : Service F) (id : Nat) : Option (Reply F) :=
  (s.node.pool.replies.find? fun x => x.1 == id).map fun x => x.2.2

/-- the ticket has ended -/
def ended (s : Service F) (id : Nat) : Bool :=
  (s.node.pool.tickets[id]?).any fun t => t.stage == .ended

end Service

variable [F32Ops F] (d : Deployment) (maxBatch : Nat)

/-- the checks of a handler; the handlers share them -/
def checkCall (n : Node F) (texts : List String) : Except AppError Unit :=
  match checkReady n.server.ready n.pool.live with
  | .error e => .error e
  | .ok _ => validateInput texts maxBatch

/-- the future of a handler is dropped: the permit goes back, and the reply channel is closed -/
def cancelStep (s : Service F) (i : Nat) : Option (Service F) :=
  match s.stageOf i with
  | some .waiting => (nodeStep d s.node (.server .leave)).map fun n => { s with node := n }.setCall i .gone
  | some .permitted => (nodeStep d s.node (.server .finish)).map fun n => { s with node := n }.setCall i .gone
  | some (.inPool id) =>
    -- a call that has ended has nothing to close
    let n := if s.ended id then some s.node else nodeStep d s.node (.pool (.disconnect id))
    (n.bind fun n => nodeStep d n (.server .finish)).map fun n => { s with node := n }.setCall i .gone
  | _ => none

def serviceStep (s : Service F) : ServiceAct F → Option (Service F)
  | .inner a => if isInner a then (nodeStep d s.node a).map fun n => { s with node := n } else none
  | .background req => (nodeStep d s.node (.pool (.submit req))).map fun n => { s with node := n }
  | .hangUp id =>
    if s.calls.all (fun c => c.stage.ticket != some id) then
      (nodeStep d s.node (.pool (.disconnect id))).map fun n => { s with node := n }
    else none
  | .request route texts =>
    if s.node.server.exit.isSome then none
    else
      match checkCall maxBatch s.node texts with
      | .error e => some (s.push ⟨route, texts, .answered none (.error e)⟩)
      | .ok _ =>
        (nodeStep d s.node (.server .arrive)).map fun n => { s with node := n }.push ⟨route, texts, .waiting⟩
  | .acquire i =>
    match s.stageOf i with
    | some .waiting =>
      (nodeStep d s.node (.server .acquire)).map fun n => { s with node := n }.setCall i .permitted
    | _ => none
  | .send i =>
    match s.calls[i]? with
    | some ⟨route, texts, .permitted⟩ =>
      (nodeStep d s.node (.pool (.submit (route.request texts)))).map fun n =>
        { s with node := n }.setCall i (.inPool s.node.pool.tickets.length)
    | _ => none
  | .respond i sendFailed =>
    match s.calls[i]? with
    | some ⟨route, texts, .inPool id⟩ =>
      if s.ended id then
        (nodeStep d s.node (.server .finish)).map fun n =>
          { s with node := n }.setCall i (.answered id (route.answer texts (s.replyTo id) sendFailed))
      else none
    | _ => none
  | .cancel i => cancelStep d s i

/-- the states of a server, from the start of its tasks -/
def Service.Reached (ceiling : Nat) (s : Service F) : Prop :=
  ∃ n, bootNode d ceiling = some n ∧ Reachable (serviceStep d maxBatch) ⟨n, []⟩ s

end
end EmbedServer.Http
