import EmbedServer.Embed.Locality
import EmbedServer.Pool.Handled
import EmbedServer.Pool.Init

/-!
# Requests and replies (`EmbedPool::dense` …, `worker/run.rs`)

* `ReplyInv`          the ledger, and what the end of the receiver leaves of it;
* `request_reply`     the protocol, in every run without a panic.
-/

set_option linter.unusedSectionVars false

namespace EmbedServer.Pool

section
variable {F : Type} [F32Ops F] (p : Setup)

/-- the init task and every thread have let go of the receiver -/
def System.ownerless (s : System F) : Bool :=
  s.init.isDone && (List.range p.n).all (fun k => (s.workers k).phase.gone)

structure ReplyInv (s : System F) : Prop extends InitInv p s, Ledger s where
  ownerless : s.ownerless p = true → s.rxOpen = false
  shut : s.rxOpen = false → ∀ id, s.stageOf id ≠ some .sending ∧ s.stageOf id ≠ some .queued

variable {p} {s t : System F}

/-! ## one step -/

/-- one thread moves, and what it has in hand stays -/
theorem Ledger.thread (L : Ledger s) {w : Nat} {th : Thread F} (ht : t.tickets = s.tickets)
    (hq : t.queue = s.queue) (hk : t.takes = s.takes) (hr : t.replies = s.replies)
    (hw : t.workers = Function.update s.workers w th) (hh : th.phase.handling = (s.workers w).phase.handling)
    (hre : ∀ id reply out, th.phase = .replying id reply out →
      ∃ tk, s.tickets[id]? = some tk ∧ Result tk reply) : Ledger t := by
  refine L.alike ht hq hk hr (fun k => ?_) fun k id reply out hp => ?_
  · by_cases h : k = w
    · subst h
      rw [inHand_same hw, hh]
      rfl
    · exact inHand_other hw h
  · by_cases h : k = w
    · subst h
      rw [hw, Function.update_self] at hp
      exact hre id reply out hp
    · rw [hw, Function.update_of_ne h] at hp
      exact L.result k id reply out hp

/-- no thread moves -/
theorem Ledger.still (L : Ledger s) (ht : t.tickets = s.tickets) (hq : t.queue = s.queue)
    (hk : t.takes = s.takes) (hr : t.replies = s.replies) (hw : t.workers = s.workers) : Ledger t := by
  refine L.alike ht hq hk hr (fun k => ?_) fun k id reply out hp => ?_
  · rw [System.inHand, hw]
    rfl
  · rw [hw] at hp
    exact L.result k id reply out hp

/-- a thread outside a request -/
theorem no_result {ph : Phase F} (h : ph.handling = none) (id : Nat) (reply : Option (Reply F))
    (out : DispatchOutcome) (hp : ph = .replying id reply out) :
    ∃ tk, s.tickets[id]? = some tk ∧ Result tk reply := by
  rw [hp] at h
  cases h

theorem ownerless_of_running {w : Nat} (hn : w < p.n) (h : (t.workers w).phase.gone = false) :
    t.ownerless p = false := by
  unfold System.ownerless
  rw [Bool.and_eq_false_iff]
  right
  rw [List.all_eq_false]
  exact ⟨w, List.mem_range.mpr hn, by rw [h]; decide⟩

theorem ownerless_of_not_done (h : t.init.isDone = false) : t.ownerless p = false := by
  rw [System.ownerless, h]
  rfl

/-- the last step of an owner of the receiver -/
theorem replyInv_closeIfLast {u : System F} (hinv : InitInv p (u.closeIfLast p)) (L : Ledger u)
    (hshut : u.rxOpen = false → ∀ id, u.stageOf id ≠ some .sending ∧ u.stageOf id ≠ some .queued) :
    ReplyInv p (u.closeIfLast p) := by
  have hcl : u.closeIfLast p = if u.ownerless p then u.closeRx else u := rfl
  cases ho : u.ownerless p with
  | true =>
    rw [ho, if_pos rfl] at hcl
    rw [hcl] at hinv ⊢
    refine ⟨hinv, L.closeRx, fun _ => rfl, fun _ id => ?_⟩
    rw [stageOf_closeRx]
    cases u.stageOf id with
    | none => exact ⟨by decide, by decide⟩
    | some st => cases st <;> decide
  | false =>
    rw [ho, if_neg (by decide)] at hcl
    rw [hcl] at hinv ⊢
    refine ⟨hinv, L, fun h => ?_, hshut⟩
    rw [ho] at h
    cases h

/-- a step that leaves the tickets alone, with a thread still running or the init task not done -/
theorem replyInv_running (inv : ReplyInv p s) (hinv : InitInv p t) (L : Ledger t)
    (ho : t.ownerless p = false) (hrx : t.rxOpen = s.rxOpen) (ht : t.tickets = s.tickets) :
    ReplyInv p t := by
  refine ⟨hinv, L, fun h => ?_, fun h id => ?_⟩
  · rw [ho] at h
    cases h
  · rw [hrx] at h
    have hst : t.stageOf id = s.stageOf id := by rw [System.stageOf, ht]; rfl
    rw [hst]
    exact inv.shut h id

/-- a thread ends -/
theorem replyInv_exit (inv : ReplyInv p s) {s₁ : System F} {w : Nat} {how : Joined}
    (hinv : InitInv p (s₁.exitWorker p w how)) (ht : s₁.tickets = s.tickets) (hq : s₁.queue = s.queue)
    (hk : s₁.takes = s.takes) (hr : s₁.replies = s.replies) (hw : s₁.workers = s.workers)
    (hrx : s₁.rxOpen = s.rxOpen) (hh : (s.workers w).phase.handling = none) :
    ReplyInv p (s₁.exitWorker p w how) := by
  have hws : (s₁.goOn w (.exited how) (s₁.workers w).worker.unloaded).workers =
      Function.update s.workers w
        ⟨.exited how, (s.workers w).worker.unloaded, (s.workers w).signal⟩ := by
    rw [← hw]
    rfl
  refine replyInv_closeIfLast hinv (inv.toLedger.thread ht hq hk hr hws hh.symm (no_result rfl)) ?_
  · intro h id
    have hst : s₁.stageOf id = s.stageOf id := by rw [System.stageOf, ht]; rfl
    show s₁.stageOf id ≠ _ ∧ s₁.stageOf id ≠ _
    rw [hst]
    exact inv.shut (hrx.symm.trans h) id

/-- a thread goes on in its loop, or comes to it -/
theorem replyInv_thread (inv : ReplyInv p s) (hinv : InitInv p t) {w : Nat} {th : Thread F}
    (ht : t.tickets = s.tickets) (hq : t.queue = s.queue) (hk : t.takes = s.takes)
    (hr : t.replies = s.replies) (hrx : t.rxOpen = s.rxOpen)
    (hw : t.workers = Function.update s.workers w th) (hg : th.phase.gone = false)
    (hh : th.phase.handling = (s.workers w).phase.handling)
    (hre : ∀ id reply out, th.phase = .replying id reply out →
      ∃ tk, s.tickets[id]? = some tk ∧ Result tk reply) : ReplyInv p t := by
  have hth : (t.workers w).phase.gone = false := by rw [hw, Function.update_self, hg]
  have hn : w < p.n := by
    refine Nat.lt_of_lt_of_le (hinv.present_lt fun h => ?_) hinv.spawned_le
    rw [h] at hth
    cases hth
  exact replyInv_running inv hinv (inv.toLedger.thread ht hq hk hr hw hh hre)
    (ownerless_of_running hn hth) hrx ht

/-- no worker panics -/
def NoPanic (_ : System F) (a : Act F) : Prop := ∀ w, a ≠ .die w

theorem replyInv_init (inv : ReplyInv p s) (h : Move p s .init t) : ReplyInv p t := by
  have hinv := initInv_init inv.toInitInv h
  cases h with
  | @spawned k hi =>
    have hf : s.workers k = .fresh := by
      refine inv.later _ ?_
      rw [System.spawned, hi]
    exact replyInv_thread inv hinv rfl rfl rfl rfl rfl rfl rfl (by rw [hf]; rfl) (no_result rfl)
  | heard hi hc =>
    exact replyInv_running inv hinv (inv.toLedger.still rfl rfl rfl rfl rfl) (ownerless_of_not_done rfl)
      rfl rfl
  | heardError hi hc =>
    exact replyInv_closeIfLast hinv (inv.toLedger.still rfl rfl rfl rfl rfl) inv.shut
  | silent hi hc =>
    exact replyInv_running inv hinv (inv.toLedger.still rfl rfl rfl rfl rfl) (ownerless_of_not_done rfl)
      rfl rfl
  | joined hi hp => exact replyInv_closeIfLast hinv (inv.toLedger.still rfl rfl rfl rfl rfl) inv.shut
  | pending hi hp =>
    exact replyInv_running inv hinv (inv.toLedger.still rfl rfl rfl rfl rfl) (ownerless_of_not_done rfl)
      rfl rfl
  | woken hi hw =>
    exact replyInv_running inv hinv (inv.toLedger.still rfl rfl rfl rfl rfl) (ownerless_of_not_done rfl)
      rfl rfl
  | @counted k delta hi =>
    by_cases hlt : k + 1 < p.n
    · have he : countWorker p s k delta =
          { s.addLoaded with rssDeltas := s.rssDeltas ++ [delta], init := .spawn (k + 1) } := by
        unfold countWorker
        dsimp only
        rw [if_pos hlt]
      rw [he] at hinv ⊢
      exact replyInv_running inv hinv (inv.toLedger.still rfl rfl rfl rfl rfl)
        (ownerless_of_not_done rfl) rfl rfl
    · unfold countWorker at hinv ⊢
      dsimp only at hinv ⊢
      rw [if_neg hlt] at hinv ⊢
      exact replyInv_closeIfLast hinv (inv.toLedger.still rfl rfl rfl rfl rfl) inv.shut

/-- a client gives up; its request stays where it is -/
theorem Ledger.sameStages (L : Ledger s) (hst : ∀ j, t.stageOf j = s.stageOf j) (hl : s.Later t)
    (hq : t.queue = s.queue) (hk : t.takes = s.takes) (hr : t.replies = s.replies)
    (hw : t.workers = s.workers) : Ledger t := by
  have hh (w : Nat) : t.inHand w = s.inHand w := by rw [System.inHand, hw]; rfl
  refine ⟨⟨?_, fun j => ?_, fun w j => ?_, fun j => ?_, ?_, fun j w => ?_⟩,
    L.toHistory.later hl (fun j h => ?_) hr (fun x h => ?_) (fun j w h => .inl ?_) (fun w j h => ?_)
      fun w j reply out h => ?_⟩
  · rw [hq]
    exact L.queue_nodup
  · rw [hq, hst]
    exact L.queued j
  · rw [hh, hst, hk]
    exact L.hand w j
  · rw [hst]
    simp only [hh]
    exact L.taken j
  · rw [hk]
    exact L.takes_nodup
  · rw [hk, hst]
    exact L.takes_stage j w
  · rw [hst]
    exact h
  · rw [hk]
    exact h
  · rw [hk] at h
    exact h
  · rw [hh]
    exact h
  · rw [hw] at h
    exact h

/-- a client moves: the owners of the receiver stay -/
theorem replyInv_client (inv : ReplyInv p s) (hinv : InitInv p t) (L : Ledger t) (hi : t.init = s.init)
    (hw : t.workers = s.workers) (hrx : t.rxOpen = s.rxOpen)
    (hshut : s.rxOpen = false → ∀ id, t.stageOf id ≠ some .sending ∧ t.stageOf id ≠ some .queued) :
    ReplyInv p t := by
  refine ⟨hinv, L, fun h => ?_, fun h => hshut (hrx.symm.trans h)⟩
  rw [hrx]
  refine inv.ownerless ?_
  unfold System.ownerless at h ⊢
  rw [hi, hw] at h
  exact h

theorem replyInv_submitted (inv : ReplyInv p s) {req : EmbedRequest} {st : Stage}
    (hst0 : st = if s.rxOpen then .sending else .ended)
    (hinv : InitInv p { s with tickets := s.tickets ++ [⟨req, st, true⟩] }) :
    ReplyInv p { s with tickets := s.tickets ++ [⟨req, st, true⟩] } := by
  have hnone : s.stageOf s.tickets.length = none := by
    rw [System.stageOf, List.getElem?_eq_none (Nat.le_refl _)]
    rfl
  have hst (j : Nat) : System.stageOf { s with tickets := s.tickets ++ [⟨req, st, true⟩] } j =
      if j = s.tickets.length then some st else s.stageOf j := by
    rw [System.stageOf]
    by_cases h : j = s.tickets.length
    · subst h
      rw [if_pos rfl, List.getElem?_concat_length]
      rfl
    · rw [if_neg h]
      dsimp only
      by_cases hlt : j < s.tickets.length
      · rw [List.getElem?_append_left hlt]
        rfl
      · rw [List.getElem?_eq_none (by simp; omega), System.stageOf, List.getElem?_eq_none (by omega)]
  have hne : st ≠ .taken ∧ st ≠ .queued := by
    rw [hst0]
    split <;> exact ⟨by decide, by decide⟩
  refine replyInv_client inv hinv (inv.toLedger.client ?_ hst hne.1 ?_
    inv.queue_nodup ?_ rfl rfl rfl) rfl rfl rfl ?_
  · rw [hnone]
    exact ⟨by decide, by decide⟩
  · intro id tk hg
    refine ⟨tk, ?_, .refl tk⟩
    exact (List.getElem?_append_left (List.getElem?_eq_some_iff.mp hg).1).trans hg
  · intro j
    by_cases h : j = s.tickets.length
    · subst h
      rw [if_pos rfl, inv.queued, hnone]
      exact ⟨fun h => (by cases h), fun h => absurd h hne.2⟩
    · rw [if_neg h]
  · intro hrx id
    rw [hst]
    by_cases h : id = s.tickets.length
    · rw [if_pos h, hst0, hrx]
      exact ⟨by decide, by decide⟩
    · rw [if_neg h]
      exact inv.shut hrx id

theorem replyInv_enqueued (inv : ReplyInv p s) {id : Nat} {tk : Ticket} (hg : s.tickets[id]? = some tk)
    (hs : tk.stage = .sending)
    (hinv : InitInv p { s.setTicket id Ticket.enqueue with queue := s.queue ++ [id] }) :
    ReplyInv p { s.setTicket id Ticket.enqueue with queue := s.queue ++ [id] } := by
  have hsend : s.stageOf id = some .sending := by rw [stageOf_of_get hg, hs]
  have hnot : id ∉ s.queue := by
    rw [inv.queued, hsend]
    decide
  have hst := stageOf_setTicket (t := { s.setTicket id Ticket.enqueue with queue := s.queue ++ [id] }) hg rfl
  refine replyInv_client inv hinv (inv.toLedger.client ?_ hst ?_ (later_setTicket Ticket.later_enqueue rfl)
    ?_ ?_ rfl rfl rfl) rfl rfl rfl ?_
  · rw [hsend]
    exact ⟨by decide, by decide⟩
  · intro h
    cases h
  · show (s.queue ++ [id]).Nodup
    rw [List.nodup_append]
    refine ⟨inv.queue_nodup, List.nodup_singleton _, ?_⟩
    intro a ha b hb hab
    rw [List.mem_singleton.mp hb] at hab
    rw [hab] at ha
    exact hnot ha
  · intro j
    show j ∈ s.queue ++ [id] ↔ _
    rw [List.mem_append, List.mem_singleton]
    by_cases h : j = id
    · rw [if_pos h]
      exact ⟨fun _ => rfl, fun _ => .inr h⟩
    · rw [if_neg h]
      exact ⟨fun h' => h'.resolve_right h, .inl⟩
  · intro hrx
    exact absurd hsend (inv.shut hrx id).1

theorem replyInv_disconnected (inv : ReplyInv p s) {id : Nat} {tk : Ticket} (hg : s.tickets[id]? = some tk)
    (hinv : InitInv p (s.setTicket id Ticket.disconnect)) :
    ReplyInv p (s.setTicket id Ticket.disconnect) := by
  have hst := stageOf_setTicket (t := s.setTicket id Ticket.disconnect) hg rfl
  have hl : s.Later (s.setTicket id Ticket.disconnect) := later_setTicket Ticket.later_disconnect rfl
  by_cases hs : tk.stage = .sending
  · -- nothing of the request was sent
    have hsend : s.stageOf id = some .sending := by rw [stageOf_of_get hg, hs]
    have hend : tk.disconnect.stage = .ended := if_pos hs
    rw [hend] at hst
    refine replyInv_client inv hinv (inv.toLedger.client ?_ hst (by decide) hl inv.queue_nodup ?_ rfl rfl
      rfl) rfl rfl rfl ?_
    · rw [hsend]
      exact ⟨by decide, by decide⟩
    · intro j
      by_cases h : j = id
      · subst h
        rw [if_pos rfl, System.setTicket, inv.queued, hsend]
        exact ⟨fun h => (by cases h), fun h => (by cases h)⟩
      · rw [if_neg h]
        exact Iff.rfl
    · intro hrx
      exact absurd hsend (inv.shut hrx id).1
  · have hsame (j : Nat) : (s.setTicket id Ticket.disconnect).stageOf j = s.stageOf j := by
      have hkeep : tk.disconnect.stage = tk.stage := if_neg hs
      rw [hst, hkeep]
      by_cases h : j = id
      · rw [if_pos h, h, stageOf_of_get hg]
      · rw [if_neg h]
    refine replyInv_client inv hinv (inv.toLedger.sameStages hsame hl rfl rfl rfl rfl) rfl rfl rfl ?_
    intro hrx j
    rw [hsame]
    exact inv.shut hrx j

/-- what a dispatch without a reply says about the client -/
theorem dispatch_result {w : Nat} {m : Models F} {runs : Trace} {env : Env} {tk : Ticket}
    {reply : Option (Reply F)} {out : DispatchOutcome} {d : Desk}
    (h : dispatchOn p s w m runs env tk = (.ok (reply, out), d)) : Result tk reply := by
  unfold dispatchOn at h
  cases reply with
  | some r => trivial
  | none =>
    have hc := dispatch_cases p.host (p.configOf w) w m env (s.workers w).worker.consecutiveFailures
      (buildShapeGuard (p.configOf w) s.shared.ceiling) tk.req (!tk.isOpen)
      (deskOf runs (s.workers w).worker s.shared)
    rw [h] at hc
    cases hc with
    | skipped _ hc =>
      show tk.isOpen = false
      simpa using hc

/-- a running thread brings ticket `id` to stage `st` -/
theorem replyInv_busy (inv : ReplyInv p s) (hinv : InitInv p t) (L : Ledger t) {w id : Nat} {st : Stage}
    (hg : (t.workers w).phase.gone = false) (hrx : t.rxOpen = s.rxOpen)
    (hst : ∀ j, t.stageOf j = if j = id then some st else s.stageOf j)
    (hne : st ≠ .sending ∧ st ≠ .queued) : ReplyInv p t := by
  have hn : w < p.n := by
    refine Nat.lt_of_lt_of_le (hinv.present_lt fun h => ?_) hinv.spawned_le
    rw [h] at hg
    cases hg
  refine ⟨hinv, L, fun h => ?_, fun h j => ?_⟩
  · rw [ownerless_of_running hn hg] at h
    cases h
  · rw [hst]
    by_cases hj : j = id
    · rw [if_pos hj]
      exact ⟨fun h => hne.1 (Option.some.inj h), fun h => hne.2 (Option.some.inj h)⟩
    · rw [if_neg hj]
      exact inv.shut (hrx.symm.trans h) j

theorem replyInv_move {a : Act F} (inv : ReplyInv p s) (h : Move p s a t) (ha : NoPanic s a) :
    ReplyInv p t := by
  have hinv := initInv_move inv.toInitInv h
  by_cases hi : a = .init
  · subst hi
    exact replyInv_init inv h
  -- a step of a thread with nothing in hand
  have loop {w : Nat} {ph ph' : Phase F} (hp : (s.workers w).phase = ph) (hn : ph.handling = none)
      (hn' : ph'.handling = none) : ph'.handling = (s.workers w).phase.handling := by
    rw [hp, hn, hn']
  cases h with
  | spawned => exact absurd rfl hi
  | heard => exact absurd rfl hi
  | heardError => exact absurd rfl hi
  | silent => exact absurd rfl hi
  | joined => exact absurd rfl hi
  | pending => exact absurd rfl hi
  | woken => exact absurd rfl hi
  | counted => exact absurd rfl hi
  | @started w preLoadRss load out sh hp ho =>
    cases out with
    | ready wk delta =>
      exact replyInv_thread inv hinv rfl rfl rfl rfl rfl rfl rfl (loop hp rfl rfl) (no_result rfl)
    | loadFailed e =>
      exact replyInv_thread inv hinv rfl rfl rfl rfl rfl rfl rfl (loop hp rfl rfl) (no_result rfl)
    | refused e => exact replyInv_exit inv hinv rfl rfl rfl rfl rfl rfl (by rw [hp]; rfl)
  | vanished hp => exact replyInv_exit inv hinv rfl rfl rfl rfl rfl rfl (by rw [hp]; rfl)
  | left hp => exact replyInv_exit inv hinv rfl rfl rfl rfl rfl rfl (by rw [hp]; rfl)
  | drained hp hd =>
    exact replyInv_thread inv hinv rfl rfl rfl rfl rfl rfl rfl (loop hp rfl rfl) (no_result rfl)
  | locked hp hl =>
    exact replyInv_thread inv hinv rfl rfl rfl rfl rfl rfl rfl (loop hp rfl rfl) (no_result rfl)
  | elapsed hp hm =>
    refine replyInv_thread inv hinv rfl rfl rfl rfl rfl rfl rfl ?_ (no_result rfl)
    rcases hp with hp | hp
    · exact loop hp rfl rfl
    · exact loop hp rfl rfl
  | @took w id rest hp hq =>
    have hqueued : s.stageOf id = some .queued := (inv.queued id).mp (by rw [hq]; exact List.mem_cons_self)
    obtain ⟨tk, hg, -⟩ := stageOf_some hqueued
    refine replyInv_busy (w := w) inv hinv (inv.toLedger.took hp hq rfl rfl rfl rfl rfl) ?_ rfl
      (stageOf_setTicket hg rfl) (show Stage.taken ≠ .sending ∧ Stage.taken ≠ .queued by decide)
    show (Function.update s.workers w _ w).phase.gone = false
    rw [Function.update_self]
    rfl
  | closed hp hq hh => exact replyInv_exit inv hinv rfl rfl rfl rfl rfl rfl (by rw [hp]; rfl)
  | loaded hp he =>
    exact replyInv_thread inv hinv rfl rfl rfl rfl rfl rfl rfl (by rw [hp]; rfl)
      fun _ _ _ h => by cases h
  | @unloadable w load id tk e hp ht he =>
    refine replyInv_thread inv hinv rfl rfl rfl rfl rfl rfl rfl (by rw [hp]; rfl) ?_
    rintro _ _ _ ⟨⟩
    exact ⟨tk, ht, trivial⟩
  | served hp hm ht hd =>
    refine replyInv_thread inv hinv rfl rfl rfl rfl rfl rfl rfl (by rw [hp]; rfl) ?_
    rintro _ _ _ ⟨⟩
    exact ⟨_, ht, dispatch_result hd⟩
  | panicked hp hm ht =>
    exact replyInv_thread inv hinv rfl rfl rfl rfl rfl rfl rfl (by rw [hp]; rfl)
      fun _ _ _ h => by cases h
  | @replied w id reply out hp =>
    obtain ⟨tk, hg, -⟩ := inv.result w id reply out hp
    refine replyInv_busy (w := w) inv hinv (inv.toLedger.sent hp rfl rfl rfl rfl rfl) ?_ rfl
      (stageOf_setTicket hg rfl) (show Stage.ended ≠ .sending ∧ Stage.ended ≠ .queued by decide)
    show (Function.update s.workers w _ w).phase.gone = false
    rw [Function.update_self]
    rfl
  | again hp hs =>
    exact replyInv_thread inv hinv rfl rfl rfl rfl rfl rfl rfl (loop hp rfl rfl) (no_result rfl)
  | fatal hp hs ho => exact replyInv_exit inv hinv rfl rfl rfl rfl rfl rfl (by rw [hp]; rfl)
  | broke hp hs ho =>
    exact replyInv_thread inv hinv rfl rfl rfl rfl rfl rfl rfl (loop hp rfl rfl) (no_result rfl)
  | noted hp hs =>
    exact replyInv_thread inv hinv rfl rfl rfl rfl rfl rfl rfl (loop hp rfl rfl) (no_result rfl)
  | @died w id text hp => exact absurd rfl (ha w)
  | submitted hh => exact replyInv_submitted inv rfl hinv
  | enqueued ht hs => exact replyInv_enqueued inv ht hs hinv
  | disconnected ht hc => exact replyInv_disconnected inv ht hinv
  | dropped hh =>
    exact replyInv_client inv hinv (inv.toLedger.still rfl rfl rfl rfl rfl) rfl rfl rfl inv.shut

theorem Phase.handling_of_gone {ph : Phase F} (h : ph.gone = true) : ph.handling = none := by
  cases ph with
  | absent => rfl
  | exited how => rfl
  | _ => cases h

theorem replyInv_start (ceiling : Nat) : ReplyInv p (start p ceiling : System F) := by
  have hst (id : Nat) : (start p ceiling : System F).stageOf id = none := rfl
  refine ⟨initInv_start ceiling, ⟨⟨List.nodup_nil, ?_, ?_, ?_, List.nodup_nil, ?_⟩,
    ⟨List.nodup_nil, ?_, ?_, ?_⟩⟩, ?_, ?_⟩
  · intro id
    rw [hst]
    exact ⟨fun h => absurd h List.not_mem_nil, fun h => (by cases h)⟩
  · intro w id h
    cases h
  · intro id h
    cases h
  · intro id w h
    cases h
  · intro id w r h
    cases h
  · intro id w h
    cases h
  · intro w id reply out h
    cases h
  · intro h
    rw [ownerless_of_not_done rfl] at h
    cases h
  · intro h
    cases h

theorem reach_replyInv {ceiling : Nat} (h : Reach (step p) NoPanic (start p ceiling) s) :
    ReplyInv p s ∧ HandledInv p s := by
  refine h.invariant (I := fun s => ReplyInv p s ∧ HandledInv p s)
    ⟨replyInv_start ceiling, handledInv_start ceiling⟩ fun _ _ _ inv ha hs => ?_
  have hR := replyInv_move inv.1 (step_cases hs) ha
  exact ⟨hR, handledInv_move inv.1.toPlaces inv.2 (step_cases hs)⟩

/-! ## the protocol -/

/-- **Requests and replies.**  Every request is received by at most one worker, which turns to it at most
once, and answered at most once, with a reply of its own kind made for its own texts: what `dispatch_request`
returns for them on the models, the session and the counters the worker had when it turned to this request, or
the error of the reload it tried then, and nothing else.  A worker that has turned away from a request it received has answered
it, unless its client was gone; and when the init task has ended and no thread runs, every call has ended. -/
theorem request_reply (ceiling : Nat) (h : Reach (step p) NoPanic (start p ceiling) s) :
    (s.takes.map Prod.fst).Nodup ∧ (s.handled.map Prod.fst).Nodup ∧ (s.replies.map Prod.fst).Nodup ∧
    (∀ id w x, (id, w, x) ∈ s.handled → (id, w) ∈ s.takes ∧
      ∃ v, Reach (step p) NoPanic (start p ceiling) v ∧ Reach (step p) NoPanic v s ∧ v.TurnsTo p id w x) ∧
    (∀ id w r, (id, w, r) ∈ s.replies → (id, w) ∈ s.takes ∧
      ∃ tk, s.tickets[id]? = some tk ∧ r.kind = tk.req.kind ∧ Answers p s.handled id w tk.req r ∧
        ∀ r', Answers p s.handled id w tk.req r' → r' = r) ∧
    (∀ id w tk, (id, w) ∈ s.takes → s.tickets[id]? = some tk → tk.isOpen = true →
      s.inHand w ≠ some id → ∃ r, (id, w, r) ∈ s.replies ∧
        ∀ w' r', (id, w', r') ∈ s.replies → w' = w ∧ r' = r) ∧
    ((∃ r, s.init = .done r) → (∀ k < p.n, (s.workers k).phase.gone = true) →
      ∀ (id : Nat) (tk : Ticket), s.tickets[id]? = some tk → tk.stage = .ended) := by
  obtain ⟨inv, H⟩ := reach_replyInv h
  refine ⟨inv.takes_nodup, H.once, inv.replies_nodup, ?_, ?_, ?_, ?_⟩
  · intro id w x hx
    exact ⟨H.mine id w x hx, handled_origin h hx⟩
  · intro id w r hm
    obtain ⟨tk, hg, ha⟩ := H.sent id w r hm
    exact ⟨(inv.replied id w r hm).2, tk, hg, ha.kind, ha, fun r' ha' => ha.unique H.once ha'⟩
  · intro id w tk hin hg ho hne
    rcases inv.answered id w hin with h | ⟨r, hr⟩ | ⟨tk', hg', hc⟩
    · exact absurd h hne
    · refine ⟨r, hr, fun w' r' hr' => ?_⟩
      have hsame := List.inj_on_of_nodup_map inv.replies_nodup hr' hr rfl
      cases hsame
      exact ⟨rfl, rfl⟩
    · rw [hg] at hg'
      cases hg'
      rw [ho] at hc
      cases hc
  · rintro ⟨r, hi⟩ hgone id tk hg
    have hown : s.ownerless p = true := by
      rw [System.ownerless, hi, Bool.and_eq_true]
      exact ⟨rfl, List.all_eq_true.mpr fun k hk => hgone k (List.mem_range.mp hk)⟩
    obtain ⟨hsend, hqueue⟩ := inv.shut (inv.ownerless hown) id
    have hst := stageOf_of_get hg
    rw [hst] at hsend hqueue
    cases hs : tk.stage with
    | sending => rw [hs] at hsend; exact absurd rfl hsend
    | queued => rw [hs] at hqueue; exact absurd rfl hqueue
    | ended => rfl
    | taken =>
      -- somebody would have it in hand
      rw [hs] at hst
      obtain ⟨w, hw⟩ := inv.taken id hst
      rw [System.inHand] at hw
      have hlt : w < p.n := by
        refine Nat.lt_of_lt_of_le (inv.present_lt fun h => ?_) inv.spawned_le
        rw [h] at hw
        cases hw
      rw [Phase.handling_of_gone (hgone w hlt)] at hw
      cases hw

end

/-- one worker on the CPU -/
def cpuSolo : Setup where
  host := ⟨fun _ => 0, fun _ => 0, fun _ => none⟩
  config := ⟨.cpu, .fp16, 5, false, false, false, 0, [], true⟩
  idleTimeout := true
  n := 1
  size := poolSize_one

/-- two clients, one of which leaves while its request is in the channel; the worker times out between
them, cannot reload, and the pool is dropped -/
theorem request_reply_reload : ∃ s : System Int, Reach (step cpuSolo) NoPanic (start cpuSolo 0) s ∧
    s.takes = [(0, 0), (1, 0)] ∧
    (∃ r, (1, 0, r) ∈ s.replies ∧ Answers cpuSolo s.handled 1 0 (.dense ["b"]) r) ∧
    (∀ r, (0, 0, r) ∉ s.replies) ∧
    ∀ (id : Nat) (tk : Ticket), s.tickets[id]? = some tk → tk.stage = .ended := by
  have hrun : ∃ s : System Int, Reach (step cpuSolo) NoPanic (start cpuSolo 0) s ∧
      s.takes = [(0, 0), (1, 0)] ∧ s.replies.map Prod.fst = [1] ∧ s.init.isDone = true ∧
      (s.workers 0).phase.gone = true ∧ s.tickets[1]? = some ⟨.dense ["b"], .ended, true⟩ :=
    Reach.exists_of_run [.init, .startup 0 0 (.ok echoModels), .init, .init, .submit (.sparse ["a"]),
      .submit (.dense ["b"]), .enqueue 0, .enqueue 1, .disconnect 0, .drain 0 [], .lock 0, .recv 0,
      .load 0 (.error "not needed"), .dispatch 0 ⟨⟨1, 1, 2⟩, true⟩, .reply 0, .act 0, .drain 0 [],
      .timeout 0, .drain 0 [], .lock 0, .recv 0, .load 0 (.error "no memory"), .reply 0, .act 0,
      .dropPool, .drain 0 [], .lock 0, .recv 0] (by simp [NoPanic]) (by decide)
  obtain ⟨s, hr, htakes, hreplies, hdone, hgone, htk⟩ := hrun
  obtain ⟨-, -, -, -, hmade, hanswered, hended⟩ := request_reply 0 hr
  have hfree : s.inHand 0 = none := Phase.handling_of_gone hgone
  refine ⟨s, hr, htakes, ?_, ?_, ?_⟩
  · obtain ⟨r, hin, -⟩ := hanswered 1 0 _ (by rw [htakes]; decide) htk rfl (by rw [hfree]; decide)
    obtain ⟨-, tk, hg, -, ha, -⟩ := hmade 1 0 r hin
    rw [htk] at hg
    cases hg
    exact ⟨r, hin, ha⟩
  · intro r hin
    have hmem : 0 ∈ s.replies.map Prod.fst := List.mem_map_of_mem hin
    rw [hreplies] at hmem
    exact absurd hmem (by decide)
  · refine hended ?_ ?_
    · cases hi : s.init with
      | done r => exact ⟨r, rfl⟩
      | _ => rw [hi] at hdone; cases hdone
    · intro k hk
      obtain rfl : k = 0 := Nat.lt_one_iff.mp hk
      exact hgone

end EmbedServer.Pool
