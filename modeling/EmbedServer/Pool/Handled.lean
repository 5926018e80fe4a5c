import EmbedServer.Pool.Ledger

/-!
# What a reply was made from (`worker/run.rs`, `worker/dispatch.rs`)

When a worker turns to a request it received, a history records what it had at that moment: its models, what
their session has run, the environment, its counters and caches.  A reply is what `dispatch_request` made of
these and of the request of its own ticket.

* `Answers`          a reply made for a request, from the record of its ticket; there is only one
                     (`Answers.unique`);
* `HandledInv`       a ticket is handled once, by the worker that received it, and every reply in hand or
                     sent is made from that record;
* `handledInv_move`  every step keeps it;
* `handled_origin`   each record was true of its worker in some state of the run.
-/

set_option linter.unusedSectionVars false

namespace EmbedServer

/-- the five kinds of requests -/
inductive Kind where
  | dense
  | sparse
  | both
  | probe
  | warmup
deriving DecidableEq, Repr

def EmbedRequest.kind : EmbedRequest → Kind
  | .dense _ => .dense
  | .sparse _ => .sparse
  | .both _ => .both
  | .probe _ => .probe
  | .adaptiveWarmup _ _ => .warmup

def Reply.kind {F : Type} : Reply F → Kind
  | .dense _ => .dense
  | .sparse _ => .sparse
  | .both _ => .both
  | .probe _ => .probe
  | .warmup _ => .warmup

namespace Pool

section
variable {F : Type}

/-- the ticket of a thread that has not turned to it yet -/
def Phase.untried : Phase F → Option Nat
  | .took id | .loaded id => some id
  | _ => none

/-- the ticket of a thread, and the reply it has for it -/
def Phase.reply : Phase F → Option (Nat × Reply F)
  | .replying id (some r) _ => some (id, r)
  | _ => none

theorem Phase.handling_of_untried {ph : Phase F} {id : Nat} (h : ph.untried = some id) :
    ph.handling = some id := by
  cases ph with
  | took j => exact h
  | loaded j => exact h
  | _ => cases h

variable [F32Ops F] (p : Setup)

/-- what worker `w` replied to `req` on ticket `id`, by the record `log`: the result of `dispatch_request` on
`req` and on what the worker had then, or the error of the reload -/
inductive Answers (log : List (Nat × Nat × Handled F)) (id w : Nat) (req : EmbedRequest) : Reply F → Prop
  | dispatched {m : Models F} {env cf guard isClosed d out d' r}
      (hin : (id, w, .dispatched m env cf guard isClosed d) ∈ log)
      (h : dispatchRequest m p.host (p.configOf w) w env cf guard req isClosed d = (.ok (some r, out), d')) :
      Answers log id w req r
  | unloadable {e : AnyError} (hin : (id, w, .unloadable e) ∈ log) :
      Answers log id w req (replyRequestLoadError req e)

/-- the reply `r` of worker `w` on ticket `id` was made for the request of that ticket -/
def System.Computed (s : System F) (id w : Nat) (r : Reply F) : Prop :=
  ∃ tk, s.tickets[id]? = some tk ∧ Answers p s.handled id w tk.req r

structure HandledInv (s : System F) : Prop where
  once : (s.handled.map Prod.fst).Nodup
  mine : ∀ id w h, (id, w, h) ∈ s.handled → (id, w) ∈ s.takes
  untried : ∀ w id, (s.workers w).phase.untried = some id → ∀ x ∈ s.handled, x.1 ≠ id
  inReply : ∀ w id r, (s.workers w).phase.reply = some (id, r) → s.Computed p id w r
  sent : ∀ id w r, (id, w, r) ∈ s.replies → s.Computed p id w r

variable {p} {s t u : System F}

theorem dispatchEmbed_reply {γ : Type} {f : CostModel → Exec Trace AnyError (γ × EmbedStats)}
    {text : String} {toReply : Except AnyError (γ × EmbedStats) → Reply F} {config : WorkerConfig}
    {env : Env} {cf n : Nat} {isClosed : Bool} {d d' : Desk} {r : Reply F} {out : DispatchOutcome}
    (h : dispatchEmbed f text toReply config env cf n isClosed d = (.ok (some r, out), d')) :
    ∃ x, r = toReply x := by
  unfold dispatchEmbed at h
  cases isClosed with
  | true => cases h
  | false =>
    rw [if_neg (by decide), Exec.bind_apply] at h
    obtain ⟨x, d1, hx⟩ : ∃ x d1, embedRoute f text config env cf n d = (x, d1) := ⟨_, _, rfl⟩
    rw [hx] at h
    cases x with
    | ok v => cases h; exact ⟨_, rfl⟩
    | err e => cases h
    | panic msg => cases h

theorem dispatchRequest_kind {m : Models F} {host : Host} {config : WorkerConfig} {id cf : Nat} {env : Env}
    {guard : Option TrtJitGuard} {req : EmbedRequest} {isClosed : Bool} {d d' : Desk} {r : Reply F}
    {out : DispatchOutcome}
    (h : dispatchRequest m host config id env cf guard req isClosed d = (.ok (some r, out), d')) :
    r.kind = req.kind := by
  cases req with
  | dense texts => obtain ⟨x, rfl⟩ := dispatchEmbed_reply h; rfl
  | sparse texts => obtain ⟨x, rfl⟩ := dispatchEmbed_reply h; rfl
  | both texts => obtain ⟨x, rfl⟩ := dispatchEmbed_reply h; rfl
  | probe texts =>
    unfold dispatchRequest at h
    dsimp only at h
    split at h <;> cases h <;> rfl
  | adaptiveWarmup batch seq => cases h; rfl

section
variable {log log' : List (Nat × Nat × Handled F)} {id w : Nat} {req : EmbedRequest} {r : Reply F}

theorem Answers.kind (h : Answers p log id w req r) : r.kind = req.kind := by
  cases h with
  | dispatched hin h => exact dispatchRequest_kind h
  | unloadable hin => cases req <;> rfl

/-- the record of a ticket and the request make one reply only -/
theorem Answers.unique {r' : Reply F} (hlog : (log.map Prod.fst).Nodup) (h : Answers p log id w req r)
    (h' : Answers p log id w req r') : r' = r := by
  have hone {x y : Handled F} (hx : (id, w, x) ∈ log) (hy : (id, w, y) ∈ log) : x = y := by
    have hsame := List.inj_on_of_nodup_map hlog hx hy rfl
    cases hsame
    rfl
  cases h with
  | dispatched hin h =>
    cases h' with
    | dispatched hin' h' =>
      cases hone hin hin'
      rw [h] at h'
      cases h'
      rfl
    | unloadable hin' => cases hone hin hin'
  | unloadable hin =>
    cases h' with
    | dispatched hin' h' => cases hone hin hin'
    | unloadable hin' =>
      cases hone hin hin'
      rfl

/-- a record is not taken back -/
theorem Answers.grow (h : Answers p log id w req r) (hlog : ∀ x ∈ log, x ∈ log') : Answers p log' id w req r := by
  cases h with
  | dispatched hin h => exact .dispatched (hlog _ hin) h
  | unloadable hin => exact .unloadable (hlog _ hin)

theorem System.Computed.later (h : s.Computed p id w r) (hl : s.Later u) (hlog : ∀ x ∈ s.handled, x ∈ u.handled) :
    u.Computed p id w r := by
  obtain ⟨tk, hg, ha⟩ := h
  obtain ⟨tk', hg', hlater⟩ := hl id tk hg
  refine ⟨tk', hg', ?_⟩
  rw [hlater.req]
  exact ha.grow hlog

end

/-! ## a step on which no worker turns to its request -/

structure Idle (s u : System F) : Prop where
  handled : u.handled = s.handled
  takes : ∀ x ∈ s.takes, x ∈ u.takes
  tickets : s.Later u
  untried : ∀ w id, (u.workers w).phase.untried = some id →
    (s.workers w).phase.untried = some id ∨ ∀ k, (id, k) ∉ s.takes
  inReply : ∀ w x, (u.workers w).phase.reply = some x → (s.workers w).phase.reply = some x
  replies : ∀ id w r, (id, w, r) ∈ u.replies →
    (id, w, r) ∈ s.replies ∨ (s.workers w).phase.reply = some (id, r)

theorem HandledInv.idle (H : HandledInv p s) (hi : Idle s u) : HandledInv p u := by
  have hlog : ∀ x ∈ s.handled, x ∈ u.handled := fun x hx => by rw [hi.handled]; exact hx
  refine ⟨by rw [hi.handled]; exact H.once, fun id w h hm => ?_, fun w id hw x hx => ?_, fun w id r hw => ?_,
    fun id w r hr => ?_⟩
  · rw [hi.handled] at hm
    exact hi.takes _ (H.mine id w h hm)
  · rw [hi.handled] at hx
    rcases hi.untried w id hw with h | h
    · exact H.untried w id h x hx
    · rintro rfl
      exact h x.2.1 (H.mine x.1 x.2.1 x.2.2 hx)
  · exact (H.inReply w id r (hi.inReply w _ hw)).later hi.tickets hlog
  · rcases hi.replies id w r hr with h | h
    · exact (H.sent id w r h).later hi.tickets hlog
    · exact (H.inReply w id r h).later hi.tickets hlog

/-- nothing but the tickets goes on -/
structure Apart (s u : System F) : Prop where
  handled : u.handled = s.handled
  takes : u.takes = s.takes
  replies : u.replies = s.replies
  tickets : s.Later u

theorem apart_of_tickets (hd : u.handled = s.handled) (hk : u.takes = s.takes) (hr : u.replies = s.replies)
    (ht : u.tickets = s.tickets) : Apart s u := by
  refine ⟨hd, hk, hr, fun id tk hg => ⟨tk, ?_, .refl tk⟩⟩
  rw [ht]
  exact hg

theorem HandledInv.still (H : HandledInv p s) (hb : Apart s u) (hw : u.workers = s.workers) : HandledInv p u := by
  refine H.idle ⟨hb.handled, fun x hx => by rw [hb.takes]; exact hx, hb.tickets, fun w id h => .inl ?_,
    fun w x h => ?_, fun id w r h => .inl ?_⟩
  · rw [hw] at h
    exact h
  · rw [hw] at h
    exact h
  · rw [hb.replies] at h
    exact h

/-- a thread moves, and has no reply in hand then -/
theorem HandledInv.moved (H : HandledInv p s) {w : Nat} {th : Thread F} (hd : u.handled = s.handled)
    (hk : ∀ x ∈ s.takes, x ∈ u.takes) (hl : s.Later u) (hw : u.workers = Function.update s.workers w th)
    (hu : ∀ id, th.phase.untried = some id →
      (s.workers w).phase.untried = some id ∨ ∀ k, (id, k) ∉ s.takes)
    (hre : th.phase.reply = none)
    (hr : ∀ id k r, (id, k, r) ∈ u.replies →
      (id, k, r) ∈ s.replies ∨ (s.workers k).phase.reply = some (id, r)) : HandledInv p u := by
  refine H.idle ⟨hd, hk, hl, fun k id h => ?_, fun k x h => ?_, hr⟩
  · by_cases hkw : k = w
    · subst hkw
      rw [hw, Function.update_self] at h
      exact hu id h
    · rw [hw, Function.update_of_ne hkw] at h
      exact .inl h
  · by_cases hkw : k = w
    · subst hkw
      rw [hw, Function.update_self, hre] at h
      cases h
    · rw [hw, Function.update_of_ne hkw] at h
      exact h

/-- with no new ticket either -/
theorem HandledInv.thread (H : HandledInv p s) {w : Nat} {th : Thread F} (hb : Apart s u)
    (hw : u.workers = Function.update s.workers w th)
    (hu : ∀ id, th.phase.untried = some id → (s.workers w).phase.untried = some id)
    (hr : th.phase.reply = none) : HandledInv p u := by
  refine H.moved hb.handled (fun x hx => ?_) hb.tickets hw (fun id h => .inl (hu id h)) hr
    fun id k r h => .inl ?_
  · rw [hb.takes]
    exact hx
  · rw [hb.replies] at h
    exact h

theorem HandledInv.closing (ht : t = u.closeIfLast p) (H : HandledInv p u) : HandledInv p t := by
  rw [ht]
  unfold System.closeIfLast
  split
  · refine H.still ⟨rfl, rfl, rfl, fun id tk hg => ?_⟩ rfl
    have hget : u.closeRx.tickets[id]? = (u.tickets[id]?).map Ticket.abandon := List.getElem?_map ..
    rw [hget, hg]
    exact ⟨_, rfl, tk.later_abandon⟩
  · exact H

/-- a thread returns -/
theorem HandledInv.exit (H : HandledInv p s) {w : Nat} {how : Joined} (hb : Apart s u)
    (hw : u.workers = s.workers) : HandledInv p (u.exitWorker p w how) := by
  have hws : (u.goOn w (.exited how) (u.workers w).worker.unloaded).workers =
      Function.update s.workers w ⟨.exited how, (u.workers w).worker.unloaded, (u.workers w).signal⟩ := by
    rw [← hw]
    rfl
  refine .closing rfl (H.thread ⟨?_, ?_, ?_, ?_⟩ hws (fun id h => by cases h) rfl)
  · exact hb.handled
  · exact hb.takes
  · exact hb.replies
  · exact hb.tickets

/-! ## a worker receives a request, turns to it, and replies -/

theorem HandledInv.took (H : HandledInv p s) (P : Places s) {w id : Nat} {rest : List Nat} {th : Thread F}
    (hq : s.queue = id :: rest) (hd : u.handled = s.handled) (hk : u.takes = s.takes ++ [(id, w)])
    (hr : u.replies = s.replies) (hl : s.Later u) (hw : u.workers = Function.update s.workers w th)
    (hu : th.phase.untried = some id) (hre : th.phase.reply = none) : HandledInv p u := by
  have hqueued : s.stageOf id = some .queued := (P.queued id).mp (by rw [hq]; exact List.mem_cons_self)
  refine H.moved hd (fun x hx => ?_) hl hw (fun j h => ?_) hre fun j k r h => .inl ?_
  · rw [hk]
    exact List.mem_append_left _ hx
  · rw [hu] at h
    cases h
    exact .inr (P.untaken hqueued)
  · rw [hr] at h
    exact h

/-- a worker turns to its ticket, and this is recorded -/
theorem HandledInv.turned (H : HandledInv p s) (P : Places s) {w id : Nat} {h : Handled F} {th : Thread F}
    (hp : (s.workers w).phase.untried = some id) (hd : u.handled = s.handled ++ [(id, w, h)])
    (hk : u.takes = s.takes) (hr : u.replies = s.replies) (ht : u.tickets = s.tickets)
    (hw : u.workers = Function.update s.workers w th) (hu : th.phase.untried = none)
    (hre : ∀ j r, th.phase.reply = some (j, r) → u.Computed p j w r) : HandledInv p u := by
  have hin : (id, w) ∈ s.takes := (P.hand w id (Phase.handling_of_untried hp)).2
  have hlog : ∀ x ∈ s.handled, x ∈ u.handled := fun x hx => by rw [hd]; exact List.mem_append_left _ hx
  have hl : s.Later u := fun j tk hg => ⟨tk, by rw [ht]; exact hg, .refl tk⟩
  refine ⟨?_, fun j k h' hm => ?_, fun k j hj x hx => ?_, fun k j r hj => ?_, fun j k r hj => ?_⟩
  · rw [hd]
    exact nodup_fst_append H.once fun b hb => H.untried w id hp _ hb rfl
  · rw [hd, List.mem_append, List.mem_singleton] at hm
    rw [hk]
    rcases hm with hm | hm
    · exact H.mine j k h' hm
    · cases hm
      exact hin
  · by_cases hkw : k = w
    · subst hkw
      rw [hw, Function.update_self, hu] at hj
      cases hj
    · rw [hw, Function.update_of_ne hkw] at hj
      rw [hd, List.mem_append, List.mem_singleton] at hx
      rcases hx with hx | rfl
      · exact H.untried k j hj x hx
      · -- two workers never have one ticket
        rintro rfl
        exact hkw (P.only (P.hand k id (Phase.handling_of_untried hj)).2 hin)
  · by_cases hkw : k = w
    · subst hkw
      rw [hw, Function.update_self] at hj
      exact hre j r hj
    · rw [hw, Function.update_of_ne hkw] at hj
      exact (H.inReply k j r hj).later hl hlog
  · rw [hr] at hj
    exact (H.sent j k r hj).later hl hlog

theorem HandledInv.replied (H : HandledInv p s) {w id : Nat} {reply : Option (Reply F)} {out : DispatchOutcome}
    {th : Thread F} (hp : (s.workers w).phase = .replying id reply out) (hd : u.handled = s.handled)
    (hk : u.takes = s.takes) (hr : u.replies = s.replies ++ received s w id reply) (hl : s.Later u)
    (hw : u.workers = Function.update s.workers w th) (hu : th.phase.untried = none)
    (hre : th.phase.reply = none) : HandledInv p u := by
  refine H.moved hd (fun x hx => ?_) hl hw (fun j h => ?_) hre fun j k r h => ?_
  · rw [hk]
    exact hx
  · rw [hu] at h
    cases h
  · rw [hr, List.mem_append] at h
    refine h.imp_right fun h => ?_
    obtain ⟨r', rfl, hx⟩ := received_mem h
    cases hx
    rw [hp]
    rfl

/-! ## every step -/

theorem later_submitted {tk : Ticket} (ht : u.tickets = s.tickets ++ [tk]) : s.Later u := by
  intro id tk' hg
  refine ⟨tk', ?_, .refl tk'⟩
  rw [ht]
  exact (List.getElem?_append_left (List.getElem?_eq_some_iff.mp hg).1).trans hg

theorem handledInv_move {a : Act F} (P : Places s) (H : HandledInv p s) (h : Move p s a t) :
    HandledInv p t := by
  -- a thread moves that has no reply and no new ticket
  have loop {w : Nat} {th : Thread F} {u : System F} (hb : Apart s u)
      (hw : u.workers = Function.update s.workers w th) (hu : th.phase.untried = none)
      (hr : th.phase.reply = none) : HandledInv p u :=
    H.thread hb hw (fun id h => by rw [hu] at h; cases h) hr
  have same : Apart s s := apart_of_tickets rfl rfl rfl rfl
  cases h with
  | @spawned k hi => exact loop (w := k) (apart_of_tickets rfl rfl rfl rfl) rfl rfl rfl
  | heardError hi hc => exact .closing rfl (H.still (apart_of_tickets rfl rfl rfl rfl) rfl)
  | joined hi hp => exact .closing rfl (H.still (apart_of_tickets rfl rfl rfl rfl) rfl)
  | @counted k delta hi =>
    unfold countWorker
    dsimp only
    split
    · exact H.still (apart_of_tickets rfl rfl rfl rfl) rfl
    · exact .closing rfl (H.still (apart_of_tickets rfl rfl rfl rfl) rfl)
  | @started w preLoadRss load out sh hp ho =>
    cases out with
    | ready wk delta => exact loop (w := w) (apart_of_tickets rfl rfl rfl rfl) rfl rfl rfl
    | loadFailed e => exact loop (w := w) (apart_of_tickets rfl rfl rfl rfl) rfl rfl rfl
    | refused e => exact H.exit (u := { s with shared := sh }) (apart_of_tickets rfl rfl rfl rfl) rfl
  | vanished hp => exact H.exit same rfl
  | left hp => exact H.exit same rfl
  | @drained w _ _ _ hp hd => exact loop (w := w) (apart_of_tickets rfl rfl rfl rfl) rfl rfl rfl
  | @locked w hp hl => exact loop (w := w) (apart_of_tickets rfl rfl rfl rfl) rfl rfl rfl
  | @elapsed w hp hm => exact loop (w := w) (apart_of_tickets rfl rfl rfl rfl) rfl rfl rfl
  | @took w id rest hp hq =>
    exact H.took P hq rfl rfl rfl (later_setTicket Ticket.later_take rfl) rfl rfl rfl
  | @closed w hp hq hh => exact H.exit (u := s.closing w) (apart_of_tickets rfl rfl rfl rfl) rfl
  | @loaded w load id m runs sh hp he =>
    refine H.thread (w := w) (apart_of_tickets rfl rfl rfl rfl) rfl (fun j h => ?_) rfl
    rw [hp]
    exact h
  | @unloadable w load id tk e hp ht he =>
    have huntried : (s.workers w).phase.untried = some id := by rw [hp]; rfl
    refine H.turned P huntried rfl rfl rfl rfl rfl rfl fun j r h => ?_
    cases h
    exact ⟨tk, ht, .unloadable (List.mem_append_right _ List.mem_cons_self)⟩
  | @served w env id tk m runs reply out d hp hm ht hd =>
    have huntried : (s.workers w).phase.untried = some id := by rw [hp]; rfl
    refine H.turned P huntried rfl rfl rfl rfl rfl ?_ fun j r h => ?_
    · cases reply <;> rfl
    · cases reply with
      | none => cases h
      | some r' =>
        cases h
        unfold dispatchOn at hd
        exact ⟨tk, ht, .dispatched (List.mem_append_right _ List.mem_cons_self) hd⟩
  | @panicked w env id tk text m runs d hp hm ht =>
    have huntried : (s.workers w).phase.untried = some id := by rw [hp]; rfl
    refine H.turned P huntried rfl rfl rfl rfl rfl rfl fun j r h => ?_
    cases h
  | @replied w id reply out hp =>
    exact H.replied hp rfl rfl rfl (later_setTicket Ticket.later_finish rfl) rfl rfl rfl
  | @again w out hp hs => exact loop (w := w) (apart_of_tickets rfl rfl rfl rfl) rfl rfl rfl
  | fatal hp hs ho => exact H.exit same rfl
  | @broke w out hp hs ho => exact loop (w := w) (apart_of_tickets rfl rfl rfl rfl) rfl rfl rfl
  | @noted w out hp hs => exact loop (w := w) (apart_of_tickets rfl rfl rfl rfl) rfl rfl rfl
  | @died w id text hp =>
    exact H.exit (u := s.setTicket id Ticket.finish) ⟨rfl, rfl, rfl, later_setTicket Ticket.later_finish rfl⟩ rfl
  | submitted hh => exact H.still ⟨rfl, rfl, rfl, later_submitted rfl⟩ rfl
  | enqueued ht hs => exact H.still ⟨rfl, rfl, rfl, later_setTicket Ticket.later_enqueue rfl⟩ rfl
  | disconnected ht hc => exact H.still ⟨rfl, rfl, rfl, later_setTicket Ticket.later_disconnect rfl⟩ rfl
  | heard hi hc => exact H.still (apart_of_tickets rfl rfl rfl rfl) rfl
  | silent hi hc => exact H.still (apart_of_tickets rfl rfl rfl rfl) rfl
  | pending hi hp => exact H.still (apart_of_tickets rfl rfl rfl rfl) rfl
  | woken hi hw => exact H.still (apart_of_tickets rfl rfl rfl rfl) rfl
  | dropped hh => exact H.still (apart_of_tickets rfl rfl rfl rfl) rfl

theorem handledInv_start (ceiling : Nat) : HandledInv p (start p ceiling : System F) := by
  refine ⟨List.nodup_nil, ?_, ?_, ?_, ?_⟩
  · intro id w h hm
    cases hm
  · intro w id h
    cases h
  · intro w id r h
    cases h
  · intro id w r h
    cases h

/-- worker `w` has ticket `id` and turns to it with what `h` says -/
inductive System.TurnsTo (p : Setup) (s : System F) (id w : Nat) : Handled F → Prop
  | dispatched {m : Models F} {runs : Trace} {t : Ticket} (hp : (s.workers w).phase = .loaded id)
      (hm : (s.workers w).worker.models = some (m, runs)) (ht : s.tickets[id]? = some t) (env : Env) :
      TurnsTo p s id w (heldFor p s w m runs env t)
  | unloadable {load : Except String (Models F)} {e : AnyError} (hp : (s.workers w).phase = .took id)
      (he : ensureModels p.host (s.workers w).worker s.shared load = .error e) :
      TurnsTo p s id w (.unloadable e)

/-- a step writes one record at most, and a true one -/
theorem handled_cases {a : Act F} (h : Move p s a t) :
    t.handled = s.handled ∨ ∃ id w x, t.handled = s.handled ++ [(id, w, x)] ∧ s.TurnsTo p id w x := by
  have closing {u t : System F} (ht : t = u.closeIfLast p) (hd : u.handled = s.handled) :
      t.handled = s.handled := by
    rw [ht, System.closeIfLast_handled, hd]
  cases h with
  | @started w preLoadRss load out sh hp ho =>
    cases out with
    | ready wk delta => exact .inl rfl
    | loadFailed e => exact .inl rfl
    | refused e => exact .inl (closing rfl rfl)
  | @counted k delta hi =>
    left
    unfold countWorker
    dsimp only
    split
    · rfl
    · exact closing rfl rfl
  | heardError hi hc => exact .inl (closing rfl rfl)
  | joined hi hp => exact .inl (closing rfl rfl)
  | vanished hp => exact .inl (closing rfl rfl)
  | left hp => exact .inl (closing rfl rfl)
  | closed hp hq hh => exact .inl (closing rfl rfl)
  | fatal hp hs ho => exact .inl (closing rfl rfl)
  | died hp => exact .inl (closing rfl rfl)
  | unloadable hp ht he => exact .inr ⟨_, _, _, rfl, .unloadable hp he⟩
  | served hp hm ht hd => exact .inr ⟨_, _, _, rfl, .dispatched hp hm ht _⟩
  | panicked hp hm ht => exact .inr ⟨_, _, _, rfl, .dispatched hp hm ht _⟩
  | _ => exact .inl rfl

theorem handled_move {a : Act F} (h : Move p s a t) :
    ∀ x ∈ t.handled, x ∈ s.handled ∨ s.TurnsTo p x.1 x.2.1 x.2.2 := by
  intro x hx
  rcases handled_cases h with he | ⟨id, w, y, he, hw⟩
  · rw [he] at hx
    exact .inl hx
  · rw [he, List.mem_append, List.mem_singleton] at hx
    refine hx.imp_right fun hxy => ?_
    rw [hxy]
    exact hw

/-- what was recorded stays recorded -/
theorem handled_kept {a : Act F} (h : Move p s a t) : ∀ x ∈ s.handled, x ∈ t.handled := by
  intro x hx
  rcases handled_cases h with he | ⟨id, w, y, he, -⟩
  · rw [he]
    exact hx
  · rw [he]
    exact List.mem_append_left _ hx

/-- a record is what its worker had in some state of the run -/
theorem handled_origin {C : System F → Act F → Prop} {ceiling : Nat} (h : Reach (step p) C (start p ceiling) s)
    {id w : Nat} {x : Handled F} (hx : (id, w, x) ∈ s.handled) :
    ∃ v, Reach (step p) C (start p ceiling) v ∧ Reach (step p) C v s ∧ v.TurnsTo p id w x := by
  have horigin := h.origin (L := System.handled) (W := fun s x => s.TurnsTo p x.1 x.2.1 x.2.2)
    (fun _ _ _ hs => handled_move (step_cases hs)) hx
  rcases horigin with h0 | hv
  · cases h0
  · exact hv

end
end Pool
end EmbedServer
