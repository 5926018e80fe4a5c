import EmbedServer.Http.Service
import EmbedServer.Startup.Requests

/-!
# The calls of clients, in every run

* `CallMove`, `serviceStep_cases`   all that a step can be;
* `CallsInv`                        each call has its own ticket and its own permit;
* `Told`                            why a call was answered as it was;
* `answers_sound`                   what a client can be told;
* `permits_conserved`               no permit is lost or made up.
-/

set_option linter.unusedSectionVars false

namespace EmbedServer.Http

section
variable {F : Type} [F32Ops F] (d : Deployment) (maxBatch : Nat)

/-- all that a step can be -/
inductive CallMove (s : Service F) : ServiceAct F → Service F → Prop
  /-- of the pool; no client of a call hangs up -/
  | pool {a : ServiceAct F} {b : Pool.Act F} {pool : Pool.System F}
      (h : Pool.step d.setup s.node.pool b = some pool) (hb : b ≠ .dropPool)
      (hr : ∀ req, b = .submit req → a = .background req)
      (hc : ∀ id, b = .disconnect id → ∀ c ∈ s.calls, c.stage.ticket ≠ some id) :
      CallMove s a ⟨{ s.node with pool := pool }, s.calls⟩
  | task {b : Startup.Act} {server : Startup.Server} (hb : b = .main ∨ b = .probe ∨ b = .probePanic)
      (h : Startup.step d.strategy d.cfg d.world s.node.server b = some server) :
      CallMove s (.inner (.server b)) ⟨{ s.node with server := server }, s.calls⟩
  | refused {route : Route} {texts : List String} {e : AppError} (h : checkCall maxBatch s.node texts = .error e) :
      CallMove s (.request route texts) (s.push ⟨route, texts, .answered none (.error e)⟩)
  | arrived {route : Route} {texts : List String} {server : Startup.Server}
      (ha : checkCall maxBatch s.node texts = .ok ())
      (h : Startup.step d.strategy d.cfg d.world s.node.server .arrive = some server) :
      CallMove s (.request route texts)
        (Service.push { s with node := { s.node with server := server } } ⟨route, texts, .waiting⟩)
  | acquired {i : Nat} {c : Call F} {server : Startup.Server} (hg : s.calls[i]? = some c)
      (hs : c.stage = .waiting)
      (h : Startup.step d.strategy d.cfg d.world s.node.server .acquire = some server) :
      CallMove s (.acquire i)
        (Service.setCall { s with node := { s.node with server := server } } i .permitted)
  | sent {i : Nat} {c : Call F} {pool : Pool.System F} (hg : s.calls[i]? = some c) (hs : c.stage = .permitted)
      (h : Pool.step d.setup s.node.pool (.submit (c.route.request c.texts)) = some pool) :
      CallMove s (.send i) (Service.setCall { s with node := { s.node with pool := pool } } i
        (.inPool s.node.pool.tickets.length))
  | responded {i id : Nat} {c : Call F} {server : Startup.Server} {sendFailed : Bool}
      (hg : s.calls[i]? = some c) (hs : c.stage = .inPool id) (he : s.ended id = true)
      (h : Startup.step d.strategy d.cfg d.world s.node.server .finish = some server) :
      CallMove s (.respond i sendFailed) (Service.setCall { s with node := { s.node with server := server } } i
        (.answered id (c.route.answer c.texts (s.replyTo id) sendFailed)))
  /-- a call without a ticket is given up -/
  | left {i : Nat} {c : Call F} {server : Startup.Server} (hg : s.calls[i]? = some c)
      (hs : c.stage = .waiting)
      (h : Startup.step d.strategy d.cfg d.world s.node.server .leave = some server) :
      CallMove s (.cancel i) (Service.setCall { s with node := { s.node with server := server } } i .gone)
  | dropped {i : Nat} {c : Call F} {server : Startup.Server} (hg : s.calls[i]? = some c)
      (hs : c.stage.isHolding = true)
      (h : Startup.step d.strategy d.cfg d.world s.node.server .finish = some server) :
      CallMove s (.cancel i) (Service.setCall { s with node := { s.node with server := server } } i .gone)
  /-- a call with an open ticket is given up -/
  | hungUp {i id : Nat} {c : Call F} {pool : Pool.System F} {server : Startup.Server}
      (hg : s.calls[i]? = some c) (hs : c.stage = .inPool id)
      (hp : Pool.step d.setup s.node.pool (.disconnect id) = some pool)
      (h : Startup.step d.strategy d.cfg d.world s.node.server .finish = some server) :
      CallMove s (.cancel i) (Service.setCall { s with node := ⟨pool, server⟩ } i .gone)

variable {d maxBatch} {s t : Service F}

theorem nodeStep_pool {n n' : Node F} {b : Pool.Act F} (h : nodeStep d n (.pool b) = some n') :
    ∃ pool, Pool.step d.setup n.pool b = some pool ∧ n' = { n with pool := pool } := by
  rcases nodeStep_cases h with ⟨b', pool, hb, hp, rfl⟩ | ⟨b', server, hb, -, -, -⟩
  · cases hb
    exact ⟨pool, hp, rfl⟩
  · cases hb

theorem nodeStep_server {n n' : Node F} {b : Startup.Act} (h : nodeStep d n (.server b) = some n') :
    ∃ server, Startup.step d.strategy d.cfg d.world n.server b = some server ∧
      n' = { n with server := server } := by
  rcases nodeStep_cases h with ⟨b', pool, hb, -, -⟩ | ⟨b', server, hb, -, hs, rfl⟩
  · cases hb
  · cases hb
    exact ⟨server, hs, rfl⟩

theorem stageOf_cases {i : Nat} {st : CallStage F} (h : s.stageOf i = some st) :
    ∃ c, s.calls[i]? = some c ∧ c.stage = st := Option.map_eq_some_iff.mp h

theorem serviceStep_inner {a : NodeAct F} (h : serviceStep d maxBatch s (.inner a) = some t) :
    CallMove d maxBatch s (.inner a) t := by
  rw [serviceStep] at h
  split at h
  · rename_i hin
    obtain ⟨n, hn, rfl⟩ := Option.map_eq_some_iff.mp h
    cases a with
    | pool b =>
      obtain ⟨pool, hp, rfl⟩ := nodeStep_pool hn
      refine .pool hp ?_ ?_ ?_
      · rintro rfl
        cases hin
      · rintro req rfl
        cases hin
      · rintro id rfl
        cases hin
    | server b =>
      obtain ⟨server, hs, rfl⟩ := nodeStep_server hn
      refine .task ?_ hs
      cases b with
      | main => exact .inl rfl
      | probe => exact .inr (.inl rfl)
      | probePanic => exact .inr (.inr rfl)
      | arrive | leave | acquire | finish => cases hin
  · cases h

theorem serviceStep_cancel {i : Nat} (h : cancelStep d s i = some t) :
    CallMove d maxBatch s (.cancel i) t := by
  unfold cancelStep at h
  split at h
  · rename_i hst
    obtain ⟨c, hg, hs⟩ := stageOf_cases hst
    obtain ⟨n, hn, rfl⟩ := Option.map_eq_some_iff.mp h
    obtain ⟨server, hserver, rfl⟩ := nodeStep_server hn
    exact .left hg hs hserver
  · rename_i hst
    obtain ⟨c, hg, hs⟩ := stageOf_cases hst
    obtain ⟨n, hn, rfl⟩ := Option.map_eq_some_iff.mp h
    obtain ⟨server, hserver, rfl⟩ := nodeStep_server hn
    exact .dropped hg (by rw [hs]; rfl) hserver
  · rename_i id hst
    obtain ⟨c, hg, hs⟩ := stageOf_cases hst
    obtain ⟨n, hn, rfl⟩ := Option.map_eq_some_iff.mp h
    obtain ⟨n₁, hn₁, hn⟩ := Option.bind_eq_some_iff.mp hn
    obtain ⟨server, hserver, rfl⟩ := nodeStep_server hn
    split at hn₁
    · cases hn₁
      exact .dropped hg (by rw [hs]; rfl) hserver
    · obtain ⟨pool, hp, rfl⟩ := nodeStep_pool hn₁
      exact .hungUp hg hs hp hserver
  · cases h

theorem serviceStep_cases {a : ServiceAct F} (h : serviceStep d maxBatch s a = some t) :
    CallMove d maxBatch s a t := by
  cases a with
  | inner a => exact serviceStep_inner h
  | background req =>
    obtain ⟨n, hn, rfl⟩ := Option.map_eq_some_iff.mp h
    obtain ⟨pool, hp, rfl⟩ := nodeStep_pool hn
    exact .pool hp (fun hb => by cases hb) (fun req' hb => by cases hb; rfl) fun id hb => by cases hb
  | hangUp id =>
    rw [serviceStep] at h
    split at h
    · rename_i hall
      obtain ⟨n, hn, rfl⟩ := Option.map_eq_some_iff.mp h
      obtain ⟨pool, hp, rfl⟩ := nodeStep_pool hn
      refine .pool hp (fun hb => by cases hb) (fun req hb => by cases hb) fun id' hb c hm => ?_
      cases hb
      have := List.all_eq_true.mp hall c hm
      simpa using this
    · cases h
  | request route texts =>
    rw [serviceStep] at h
    split at h
    · cases h
    · split at h
      · rename_i e he
        cases h
        exact .refused he
      · rename_i hok
        obtain ⟨n, hn, rfl⟩ := Option.map_eq_some_iff.mp h
        obtain ⟨server, hserver, rfl⟩ := nodeStep_server hn
        exact .arrived hok hserver
  | acquire i =>
    rw [serviceStep] at h
    split at h
    · rename_i hst
      obtain ⟨c, hg, hs⟩ := stageOf_cases hst
      obtain ⟨n, hn, rfl⟩ := Option.map_eq_some_iff.mp h
      obtain ⟨server, hserver, rfl⟩ := nodeStep_server hn
      exact .acquired hg hs hserver
    · cases h
  | send i =>
    rw [serviceStep] at h
    split at h
    · rename_i route texts hg
      obtain ⟨n, hn, rfl⟩ := Option.map_eq_some_iff.mp h
      obtain ⟨pool, hp, rfl⟩ := nodeStep_pool hn
      exact .sent hg rfl hp
    · cases h
  | respond i sendFailed =>
    rw [serviceStep] at h
    split at h
    · rename_i route texts id hg
      split at h
      · rename_i he
        obtain ⟨n, hn, rfl⟩ := Option.map_eq_some_iff.mp h
        obtain ⟨server, hserver, rfl⟩ := nodeStep_server hn
        exact .responded hg rfl he hserver
      · cases h
    · cases h
  | cancel i => exact serviceStep_cancel h

/-! ## what holds of each call -/

variable (d maxBatch) in
/-- why a call was answered as it was -/
inductive Told (pool : Pool.System F) (route : Route) (texts : List String) :
    Option Nat → Except AppError (Response F) → Prop
  /-- `ready` and `live_workers`, as the handler read them -/
  | unready {ready : Bool} {live : Nat} {e : AppError} (h : checkReady ready live = .error e) :
      Told pool route texts none (.error e)
  | invalid {e : AppError} (h : validateInput texts maxBatch = .error e) :
      Told pool route texts none (.error e)
  | replied {id w : Nat} {x : Reply F} {sendFailed : Bool} (hv : validateInput texts maxBatch = .ok ())
      (h : (id, w, x) ∈ pool.replies)
      (ha : Pool.Answers d.setup pool.handled id w (route.request texts) x) :
      Told pool route texts (some id) (route.answer texts (some x) sendFailed)
  /-- the worker that had the request panicked, or every worker has ended -/
  | lost {id : Nat} (h : (∃ w, (id, w) ∈ pool.takes ∧ pool.crashed w) ∨ pool.ownerless d.setup = true) :
      Told pool route texts (some id) (.error (.internal "internal server error"))

variable (d maxBatch) in
/-- a call and the pool -/
def Call.Fits (pool : Pool.System F) (c : Call F) : Prop :=
  match c.stage with
  | .waiting | .permitted => validateInput c.texts maxBatch = .ok ()
  | .inPool id => validateInput c.texts maxBatch = .ok () ∧
      ∃ tk, pool.tickets[id]? = some tk ∧ tk.req = c.route.request c.texts ∧ tk.isOpen = true
  | .answered tk r => Told d maxBatch pool c.route c.texts tk r
  | .gone => True

variable (d maxBatch) in
structure CallsInv (s : Service F) : Prop where
  startup : Startup.Inv d.strategy d.cfg d.world s.node.server
  pool : Pool.RunInv d.setup s.node.pool
  handle : s.node.pool.poolHandle = true
  waiting : s.node.server.waiting = s.calls.countP fun c => c.stage.isWaiting
  holding : s.node.server.holding = s.calls.countP fun c => c.stage.isHolding
  fits : ∀ (i : Nat) (c : Call F), s.calls[i]? = some c → c.Fits d maxBatch s.node.pool
  known : ∀ (i : Nat) (c : Call F), s.calls[i]? = some c → ∀ id, c.stage.ticket = some id →
    id < s.node.pool.tickets.length
  apart : ∀ (i j : Nat) (c c' : Call F) (id : Nat), s.calls[i]? = some c → s.calls[j]? = some c' →
    c.stage.ticket = some id → c'.stage.ticket = some id → i = j

theorem Told.kept {pool pool' : Pool.System F} {b : Pool.Act F} {route : Route} {texts : List String}
    {tk : Option Nat} {r : Except AppError (Response F)} (h : Told d maxBatch pool route texts tk r)
    (hk : Pool.Kept d.setup pool b pool') : Told d maxBatch pool' route texts tk r := by
  cases h with
  | unready h => exact .unready h
  | invalid h => exact .invalid h
  | replied hv h ha => exact .replied hv (hk.replies _ h) (ha.grow hk.handled)
  | lost h =>
    refine .lost ?_
    rcases h with ⟨w, hw, hc⟩ | h
    · exact .inl ⟨w, hk.takes _ hw, hk.crashed w hc⟩
    · exact .inr (hk.ownerless h)

/-- a step of the pool, unless it is the client of this call that hangs up -/
theorem Call.Fits.kept {pool pool' : Pool.System F} {b : Pool.Act F} {c : Call F}
    (h : c.Fits d maxBatch pool) (hk : Pool.Kept d.setup pool b pool')
    (hb : ∀ id, b = .disconnect id → c.stage.ticket ≠ some id) : c.Fits d maxBatch pool' := by
  unfold Call.Fits at h ⊢
  cases hst : c.stage with
  | waiting => rw [hst] at h; exact h
  | permitted => rw [hst] at h; exact h
  | gone => trivial
  | answered tk r => rw [hst] at h; exact h.kept hk
  | inPool id =>
    rw [hst] at h
    obtain ⟨hv, tk, hg, hr, ho⟩ := h
    obtain ⟨tk', hg', hgo⟩ := hk.tickets id tk hg
    refine ⟨hv, tk', hg', hgo.req.trans hr, (hgo.isOpen fun hd => ?_).trans ho⟩
    exact hb id hd (by rw [hst]; rfl)

theorem Kept.length_le {p : Pool.Setup} {pool pool' : Pool.System F} {b : Pool.Act F}
    (hk : Pool.Kept p pool b pool') : pool.tickets.length ≤ pool'.tickets.length := by
  by_contra hlt
  obtain ⟨tk', hg', -⟩ := hk.tickets pool'.tickets.length _ (List.getElem?_eq_getElem (by omega))
  rw [List.getElem?_eq_none le_rfl] at hg'
  cases hg'

/-! ## one step -/

theorem Service.setCall_get {i j : Nat} {st : CallStage F} :
    (s.setCall i st).calls[j]? =
      if i = j then (s.calls[j]?).map fun c => { c with stage := st } else s.calls[j]? := by
  show (s.calls.modify i _)[j]? = _
  rw [List.getElem?_modify]
  split
  · rfl
  · exact id_map _

/-- a call goes on to another stage -/
theorem CallsInv.set (inv : CallsInv d maxBatch s) {i : Nat} {c : Call F} {n : Node F} {st : CallStage F}
    (hg : s.calls[i]? = some c) (hs : Startup.Inv d.strategy d.cfg d.world n.server)
    (hp : Pool.RunInv d.setup n.pool) (hh : n.pool.poolHandle = true)
    (hw : n.server.waiting + c.stage.isWaiting.toNat = s.node.server.waiting + st.isWaiting.toNat)
    (hd : n.server.holding + c.stage.isHolding.toNat = s.node.server.holding + st.isHolding.toNat)
    (hlen : s.node.pool.tickets.length ≤ n.pool.tickets.length)
    (hold : ∀ j c', j ≠ i → s.calls[j]? = some c' → c'.Fits d maxBatch n.pool)
    (hnew : Call.Fits d maxBatch n.pool { c with stage := st })
    (htk : ∀ id, st.ticket = some id → c.stage.ticket = some id ∨
      s.node.pool.tickets.length ≤ id ∧ id < n.pool.tickets.length) :
    CallsInv d maxBatch (Service.setCall { s with node := n } i st) := by
  -- a call after the step is one of before, or the one that went on
  have hget {j : Nat} {c' : Call F} (h : (Service.setCall { s with node := n } i st).calls[j]? = some c') :
      (j ≠ i ∧ s.calls[j]? = some c') ∨ j = i ∧ c' = { c with stage := st } := by
    rw [Service.setCall_get] at h
    split at h
    · rename_i hij
      subst hij
      rw [hg] at h
      exact .inr ⟨rfl, (Option.some.inj h).symm⟩
    · rename_i hij
      exact .inl ⟨fun h => hij h.symm, h⟩
  -- a new ticket is nobody else's
  have hother {j : Nat} {c' : Call F} {id : Nat} (hj : j ≠ i) (h : s.calls[j]? = some c')
      (h1 : c'.stage.ticket = some id) (h2 : st.ticket = some id) : False := by
    rcases htk id h2 with ht | ht
    · exact hj (inv.apart _ _ _ _ id h hg h1 ht)
    · have := inv.known j c' h id h1
      omega
  refine ⟨hs, hp, hh, ?_, ?_, fun j c' h => ?_, fun j c' h id ht => ?_, fun j k c' c'' id h h' ht ht' => ?_⟩
  · have hcount := countP_modify (fun c => c.stage.isWaiting) (fun c : Call F => { c with stage := st }) hg
    have := inv.waiting
    dsimp only at hcount
    show n.server.waiting = (s.calls.modify i _).countP _
    omega
  · have hcount := countP_modify (fun c => c.stage.isHolding) (fun c : Call F => { c with stage := st }) hg
    have := inv.holding
    dsimp only at hcount
    show n.server.holding = (s.calls.modify i _).countP _
    omega
  · rcases hget h with ⟨hj, h⟩ | ⟨-, rfl⟩
    · exact hold j c' hj h
    · exact hnew
  · show id < n.pool.tickets.length
    rcases hget h with ⟨hj, h⟩ | ⟨-, rfl⟩
    · exact (inv.known j c' h id ht).trans_le hlen
    · rcases htk id ht with ht | ht
      · exact (inv.known i c hg id ht).trans_le hlen
      · exact ht.2
  · rcases hget h with ⟨hj, hc⟩ | ⟨rfl, rfl⟩
    · rcases hget h' with ⟨hk, hc'⟩ | ⟨rfl, rfl⟩
      · exact inv.apart _ _ _ _ id hc hc' ht ht'
      · exact (hother hj hc ht ht').elim
    · rcases hget h' with ⟨hk, hc'⟩ | ⟨rfl, rfl⟩
      · exact (hother hk hc' ht' ht).elim
      · rfl

/-- a call that comes in -/
theorem CallsInv.push (inv : CallsInv d maxBatch s) {server : Startup.Server} {c : Call F}
    (hs : Startup.Inv d.strategy d.cfg d.world server)
    (hw : server.waiting = s.node.server.waiting + c.stage.isWaiting.toNat)
    (hd : server.holding = s.node.server.holding) (hc : c.stage.isHolding = false)
    (hnew : c.Fits d maxBatch s.node.pool) (htk : c.stage.ticket = none) :
    CallsInv d maxBatch (Service.push { s with node := { s.node with server := server } } c) := by
  have hget {j : Nat} {c' : Call F} (h : (s.calls ++ [c])[j]? = some c') :
      s.calls[j]? = some c' ∨ c' = c := by
    rw [List.getElem?_append] at h
    split at h
    · exact .inl h
    · exact .inr (List.mem_singleton.mp (List.mem_of_getElem? h))
  have hnone {c' : Call F} {id : Nat} (h : c' = c) (ht : c'.stage.ticket = some id) : False := by
    subst h
    rw [htk] at ht
    cases ht
  refine ⟨hs, inv.pool, inv.handle, ?_, ?_, fun j c' h => ?_, fun j c' h id ht => ?_,
    fun j k c' c'' id h h' ht ht' => ?_⟩
  · show server.waiting = (s.calls ++ [c]).countP _
    rw [List.countP_append, ← inv.waiting, hw, countP_eq_sum _ [c], List.map_singleton,
      List.sum_singleton]
  · show server.holding = (s.calls ++ [c]).countP _
    rw [List.countP_append, ← inv.holding, hd, countP_eq_sum _ [c], List.map_singleton,
      List.sum_singleton, hc]
    rfl
  · rcases hget h with h | rfl
    · exact inv.fits j c' h
    · exact hnew
  · rcases hget h with h | h
    · exact inv.known j c' h id ht
    · exact (hnone h ht).elim
  · rcases hget h with h | h
    · rcases hget h' with h' | h'
      · exact inv.apart _ _ _ _ id h h' ht ht'
      · exact (hnone h' ht').elim
    · exact (hnone h ht).elim

theorem CallStage.notWaiting {st : CallStage F} (h : st.isHolding = true) : st.isWaiting = false := by
  cases st with
  | waiting => cases h
  | _ => rfl

theorem checkCall_ok {n : Node F} {texts : List String} (h : checkCall maxBatch n texts = .ok ()) :
    validateInput texts maxBatch = .ok () := by
  unfold checkCall at h
  split at h
  · cases h
  · exact h

theorem checkCall_error {n : Node F} {texts : List String} {e : AppError}
    (h : checkCall maxBatch n texts = .error e) :
    checkReady n.server.ready n.pool.live = .error e ∨ validateInput texts maxBatch = .error e := by
  unfold checkCall at h
  split at h
  · rename_i hr
    cases h
    exact .inl hr
  · exact .inr h

/-- without a reply the handler says no more than that -/
theorem answer_none {route : Route} {texts : List String} {sendFailed : Bool} :
    route.answer (F := F) texts none sendFailed = .error (.internal "internal server error") := by
  have herr : AppError.ofAnyhow (poolError sendFailed) = .internal "internal server error" := by
    cases sendFailed <;> rfl
  rw [← herr]
  cases route <;> rfl

theorem Service.replyTo_some {id : Nat} {x : Reply F} (h : s.replyTo id = some x) :
    ∃ w, (id, w, x) ∈ s.node.pool.replies := by
  obtain ⟨⟨j, w, y⟩, hf, hy⟩ := Option.map_eq_some_iff.mp h
  have hj := List.find?_some hf
  cases hy
  have hj : j = id := by simpa using hj
  subst hj
  exact ⟨w, List.mem_of_find?_eq_some hf⟩

theorem Service.replyTo_none {id w : Nat} {x : Reply F} (h : s.replyTo id = none)
    (hx : (id, w, x) ∈ s.node.pool.replies) : False := by
  have hf := List.find?_eq_none.mp (Option.map_eq_none_iff.mp h) _ hx
  simp at hf

/-- what the handler makes of an ended ticket -/
theorem CallsInv.told (inv : CallsInv d maxBatch s) {i id : Nat} {c : Call F} (hg : s.calls[i]? = some c)
    (hs : c.stage = .inPool id) (he : s.ended id = true) (sendFailed : Bool) :
    Told d maxBatch s.node.pool c.route c.texts (some id) (c.route.answer c.texts (s.replyTo id) sendFailed) := by
  have hfits := inv.fits i c hg
  unfold Call.Fits at hfits
  rw [hs] at hfits
  obtain ⟨hv, tk, htk, hreq, hopen⟩ := hfits
  cases hx : s.replyTo id with
  | some x =>
    obtain ⟨w, hw⟩ := Service.replyTo_some hx
    obtain ⟨tk', htk', ha⟩ := inv.pool.sent id w x hw
    rw [htk] at htk'
    cases htk'
    exact .replied hv hw (hreq ▸ ha)
  | none =>
    rw [answer_none]
    have hend : tk.stage = .ended := by
      unfold Service.ended at he
      rw [htk] at he
      simpa using he
    rcases inv.pool.toCustody.fate htk hend hopen with ⟨w, x, h⟩ | h | ⟨h, -⟩
    · exact (Service.replyTo_none hx h).elim
    · exact .lost (.inl h)
    · exact .lost (.inr h)

theorem callsInv_step {a : ServiceAct F} (inv : CallsInv d maxBatch s)
    (h : serviceStep d maxBatch s a = some t) : CallsInv d maxBatch t := by
  cases serviceStep_cases h with
  | @pool a b pool hp hb hr hc =>
    have hk := Pool.kept_step inv.pool.toCustody hp
    refine ⟨inv.startup, Pool.runInv_step inv.pool hp,
      (Pool.handle_kept (Pool.step_cases hp) hb).trans inv.handle, inv.waiting, inv.holding,
      fun i c hg => (inv.fits i c hg).kept hk fun id hd => hc id hd c (List.mem_of_getElem? hg),
      fun i c hg id ht => (inv.known i c hg id ht).trans_le (Kept.length_le hk), inv.apart⟩
  | @task b server ha hs =>
    obtain ⟨hw, hd⟩ := Startup.task_queue ha hs
    exact ⟨Startup.step_inv inv.startup hs, inv.pool, inv.handle, hw.trans inv.waiting, hd.trans inv.holding,
      inv.fits, inv.known, inv.apart⟩
  | @refused route texts e he =>
    refine inv.push inv.startup rfl rfl rfl ?_ rfl
    rcases checkCall_error he with he | he
    · exact Told.unready he
    · exact Told.invalid he
  | @arrived route texts server ha hs =>
    have hi := Startup.step_inv inv.startup hs
    rw [Startup.arrive_eq hs] at hi ⊢
    exact inv.push hi rfl rfl rfl (checkCall_ok ha) rfl
  | @acquired i c server hg hs hstep =>
    have hi := Startup.step_inv inv.startup hstep
    obtain ⟨hpos, rfl⟩ := Startup.acquire_eq hstep
    refine inv.set hg hi inv.pool inv.handle ?_ ?_ le_rfl (fun j c' _ h => inv.fits j c' h) ?_ fun id ht => by cases ht
    · rw [hs]
      exact Nat.sub_add_cancel hpos
    · rw [hs]
      rfl
    · have hfits := inv.fits i c hg
      unfold Call.Fits at hfits
      rw [hs] at hfits
      exact hfits
  | @sent i c pool hg hs hp =>
    have hk := Pool.kept_step inv.pool.toCustody hp
    have hnew := Pool.submit_eq hp
    have hlen : pool.tickets.length = s.node.pool.tickets.length + 1 := by
      rw [hnew]
      exact List.length_append
    refine inv.set hg inv.startup (Pool.runInv_step inv.pool hp)
      ((Pool.handle_kept (Pool.step_cases hp) (fun hb => by cases hb)).trans inv.handle) ?_ ?_
      (Kept.length_le hk)
      (fun j c' _ h => (inv.fits j c' h).kept hk fun id hd => by cases hd) ?_ fun id ht => ?_
    · rw [hs]
      rfl
    · rw [hs]
      rfl
    · have hfits := inv.fits i c hg
      unfold Call.Fits at hfits
      rw [hs] at hfits
      refine ⟨hfits, ⟨c.route.request c.texts, if s.node.pool.rxOpen then .sending else .ended, true⟩, ?_, rfl, rfl⟩
      rw [hnew]
      exact List.getElem?_concat_length
    · cases ht
      exact .inr ⟨le_rfl, by show _ < pool.tickets.length; omega⟩
  | @responded i id c server sendFailed hg hs he hstep =>
    have hi := Startup.step_inv inv.startup hstep
    obtain ⟨hpos, rfl⟩ := Startup.finish_eq hstep
    refine inv.set hg hi inv.pool inv.handle ?_ ?_ le_rfl (fun j c' _ h => inv.fits j c' h)
      (inv.told hg hs he sendFailed) fun id' ht => ?_
    · rw [hs]
      rfl
    · rw [hs]
      exact Nat.sub_add_cancel hpos
    · rw [hs]
      exact .inl ht
  | @left i c server hg hs hstep =>
    have hi := Startup.step_inv inv.startup hstep
    obtain ⟨hpos, rfl⟩ := Startup.leave_eq hstep
    refine inv.set hg hi inv.pool inv.handle ?_ ?_ le_rfl (fun j c' _ h => inv.fits j c' h) trivial
      fun id ht => by cases ht
    · rw [hs]
      exact Nat.sub_add_cancel hpos
    · rw [hs]
      rfl
  | @dropped i c server hg hs hstep =>
    have hi := Startup.step_inv inv.startup hstep
    obtain ⟨hpos, rfl⟩ := Startup.finish_eq hstep
    refine inv.set hg hi inv.pool inv.handle ?_ ?_ le_rfl (fun j c' _ h => inv.fits j c' h) trivial
      fun id ht => by cases ht
    · rw [CallStage.notWaiting hs]
      rfl
    · rw [hs]
      exact Nat.sub_add_cancel hpos
  | @hungUp i id c pool server hg hs hp hstep =>
    have hi := Startup.step_inv inv.startup hstep
    obtain ⟨hpos, rfl⟩ := Startup.finish_eq hstep
    have hk := Pool.kept_step inv.pool.toCustody hp
    refine inv.set hg hi (Pool.runInv_step inv.pool hp)
      ((Pool.handle_kept (Pool.step_cases hp) (fun hb => by cases hb)).trans inv.handle) ?_ ?_
      (Kept.length_le hk) (fun j c' hj h => (inv.fits j c' h).kept hk fun id' hd ht => ?_) trivial
      fun id' ht => by cases ht
    · rw [hs]
      rfl
    · rw [hs]
      exact Nat.sub_add_cancel hpos
    · -- no other call has this ticket
      cases hd
      exact hj (inv.apart _ _ _ _ id h hg ht (by rw [hs]; rfl))

/-! ## every run -/

theorem reach_callsInv {ceiling : Nat} (h : Service.Reached d maxBatch ceiling s) : CallsInv d maxBatch s := by
  obtain ⟨n, hboot, hreach⟩ := h
  refine hreach.invariant ?_ fun _ _ _ inv _ hs => callsInv_step inv hs
  obtain ⟨server, hserver, rfl⟩ := Option.map_eq_some_iff.mp hboot
  have hinv : Startup.Inv d.strategy d.cfg d.world server := Startup.boot_inv hserver
  unfold Startup.boot at hserver
  split at hserver
  · cases hserver
    exact ⟨hinv, Pool.reach_runInv (C := fun _ _ => True) .refl, rfl, rfl, rfl, (fun i c h => by cases h),
      (fun i c h => by cases h), fun i j c c' id h => by cases h⟩
  · cases hserver

theorem request_size (route : Route) (texts : List String) : (route.request texts).size = texts.length := by
  cases route <;> rfl

/-- a reply to a request has one entry for each of its texts -/
theorem answers_count {log : List (Nat × Nat × Pool.Handled F)} {id w n : Nat} {req : EmbedRequest}
    {x : Reply F} {p : Pool.Setup} (h : Pool.Answers p log id w req x) (hn : x.count = some n) :
    n = req.size := by
  cases h with
  | dispatched hin h => exact dispatchRequest_count _ _ h hn
  | unloadable hin => cases req <;> cases hn

theorem Told.ok {pool : Pool.System F} {route : Route} {texts : List String} {tk : Option Nat}
    {r : Except AppError (Response F)} {resp : Response F} (h : Told d maxBatch pool route texts tk r)
    (hr : r = .ok resp) :
    validateInput texts maxBatch = .ok () ∧ resp.indices = List.range texts.length := by
  cases h with
  | unready h => cases hr
  | invalid h => cases hr
  | lost h => cases hr
  | replied hv h ha =>
    obtain ⟨x, n, hx, hn, hi⟩ := answer_ok hr
    cases hx
    rw [answers_count ha hn, request_size] at hi
    exact ⟨hv, hi⟩

/-- the errors a client can see -/
inductive Reported (maxBatch : Nat) (texts : List String) (e : AppError) : Prop
  | unready {ready : Bool} {live : Nat} (h : checkReady ready live = .error e)
  | invalid (h : validateInput texts maxBatch = .error e)
  | retry (h : e = .serviceUnavailable "embedding temporarily unavailable for this input size; please retry")
  | internal (h : e = .internal "internal server error")

theorem Told.error {pool : Pool.System F} {route : Route} {texts : List String} {tk : Option Nat}
    {r : Except AppError (Response F)} {e : AppError} (h : Told d maxBatch pool route texts tk r)
    (hr : r = .error e) : Reported maxBatch texts e := by
  cases h with
  | unready h => cases hr; exact .unready h
  | invalid h => cases hr; exact .invalid h
  | lost h => cases hr; exact .internal rfl
  | replied hv h ha =>
    obtain ⟨err, rfl⟩ := answer_error hr
    rcases ofAnyhow_cases err with ⟨he, -⟩ | ⟨he, -⟩
    · exact .retry he
    · exact .internal he

/-- a record of the pool is what its worker had in some state of the run -/
theorem Service.handled_origin {ceiling : Nat} (h : Service.Reached d maxBatch ceiling s) {id w : Nat}
    {x : Pool.Handled F} (hx : (id, w, x) ∈ s.node.pool.handled) :
    ∃ v, Service.Reached d maxBatch ceiling v ∧ Reachable (serviceStep d maxBatch) v s ∧
      v.node.pool.TurnsTo d.setup id w x := by
  obtain ⟨n, hboot, hreach⟩ := h
  have hpool {u v : Service F} {pool : Pool.System F} {b : Pool.Act F}
      (hp : Pool.step d.setup u.node.pool b = some pool) (hv : v.node.pool = pool) :
      ∀ y ∈ v.node.pool.handled,
        y ∈ u.node.pool.handled ∨ u.node.pool.TurnsTo d.setup y.1 y.2.1 y.2.2 := by
    rw [hv]
    exact Pool.handled_move (Pool.step_cases hp)
  have horigin := hreach.origin (L := fun s => s.node.pool.handled)
    (W := fun s y => s.node.pool.TurnsTo d.setup y.1 y.2.1 y.2.2) (fun u a v hs => ?_) hx
  · rcases horigin with h0 | ⟨v, hv, hvs, hw⟩
    · obtain ⟨server, hserver, rfl⟩ := Option.map_eq_some_iff.mp hboot
      cases h0
    · exact ⟨v, ⟨n, hboot, hv⟩, hvs, hw⟩
  · cases serviceStep_cases hs with
    | pool hp hb hr hc => exact hpool hp rfl
    | sent hg hst hp => exact hpool hp rfl
    | hungUp hg hst hp hstep => exact hpool hp rfl
    | _ => exact fun y hy => .inl hy

/-- **No permit is lost or made up.**  While the process is alive and the probe task has not panicked, the
free permits and the calls between their permit and their response make up what startup has put in
circulation, whether calls end with a response or with their client. -/
theorem permits_conserved {ceiling n : Nat} (h : Service.Reached d maxBatch ceiling s)
    (he : s.node.server.exit = none) (hn : d.cfg.due s.node.server.main s.node.server.probe = some n) :
    s.node.server.permits + (s.calls.countP fun c => c.stage.isHolding) = n ∧
      s.node.server.waiting = s.calls.countP fun c => c.stage.isWaiting := by
  have inv := reach_callsInv h
  have hf := Startup.facts_of_inv he inv.startup
  refine ⟨?_, inv.waiting⟩
  rw [← inv.holding]
  exact hf.balanced n hn

end

/-! ## one worker on the CPU -/

def soloDeployment : Deployment where
  strategy := .unwind
  cfg := { Startup.twoWorkers (some (.conservative CostModel.defaultMaxWorkspace)) with
    workers := 1, workers_pos := by decide }
  world := Startup.roomyHost
  setup := Pool.cpuSolo
  size := rfl
  ep := rfl

/-- the server comes up -/
def opened : List (ServiceAct Int) := (comesUp 0 echoModels ++ opens).map .inner

/-- the worker takes the next request and replies -/
def serves : List (ServiceAct Int) :=
  ([.drain 0 [], .lock 0, .recv 0, .load 0 (.error ""), .dispatch 0 ⟨⟨1, 1, 2⟩, true⟩, .reply 0, .act 0] :
    List (Pool.Act Int)).map fun a => .inner (.pool a)

/-- one call is answered, one is refused, and the client of a third goes away while the worker has it -/
def threeCalls : List (ServiceAct Int) :=
  opened ++ [.request .dense ["a", "b"], .request .sparse [], .acquire 0, .send 0,
    .inner (.pool (.enqueue 0))] ++ serves ++ [.respond 0 false, .request .both ["c"], .acquire 2, .send 2,
    .inner (.pool (.enqueue 1)), .inner (.pool (.drain 0 [])), .inner (.pool (.lock 0)),
    .inner (.pool (.recv 0)), .cancel 2]

theorem reached_solo {P : Service Int → Prop} [DecidablePred P] (as : List (ServiceAct Int))
    (h : (as.foldlM (serviceStep soloDeployment 4) ⟨⟨Pool.start Pool.cpuSolo 0,
      Startup.booted soloDeployment.cfg⟩, []⟩).any (fun s => decide (P s)) = true) :
    ∃ s, Service.Reached soloDeployment 4 0 s ∧ P s := by
  obtain ⟨s, hr, hP⟩ := Reach.exists_of_run (C := fun _ _ => True) as (fun _ _ _ => trivial) h
  exact ⟨s, ⟨_, rfl, hr⟩, hP⟩

/-- the third call gave its permit back -/
theorem permits_conserved_three : ∃ s : Service Int, Service.Reached soloDeployment 4 0 s ∧
    s.calls.map (fun c => c.stage.isOver) = [true, true, true] ∧
    s.node.server.permits + (s.calls.countP fun c => c.stage.isHolding) = 1 := by
  obtain ⟨s, hr, hs, he, hm, hp⟩ : ∃ s, Service.Reached soloDeployment 4 0 s ∧
      s.calls.map (fun c => c.stage.isOver) = [true, true, true] ∧ s.node.server.exit = none ∧
      s.node.server.main = .done ∧ s.node.server.probe = .absent :=
    reached_solo threeCalls (by decide +kernel)
  exact ⟨s, hr, hs, (permits_conserved hr he (by rw [hm, hp]; rfl)).1⟩

end EmbedServer.Http
