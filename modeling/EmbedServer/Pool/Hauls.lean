import EmbedServer.Pool.Replies

/-!
# What a step is to the requests

* `Haul`, `move_haul`   every step, before the receiver may go;
* `Haul.places`         each ticket is in one place, whatever the workers do.
-/

set_option linter.unusedSectionVars false

namespace EmbedServer.Pool

section
variable {F : Type}

/-- a step that no request takes part in -/
structure SameBooks (s u : System F) : Prop where
  tickets : u.tickets = s.tickets
  queue : u.queue = s.queue
  takes : u.takes = s.takes
  replies : u.replies = s.replies

theorem sameBooks_refl (s : System F) : SameBooks s s := ⟨rfl, rfl, rfl, rfl⟩

variable [F32Ops F] (p : Setup)

/-- what a step is to the requests -/
inductive Haul (s u : System F) : Prop
  | still (hw : u.workers = s.workers) (hb : SameBooks s u)
  | thread {w th} (hw : u.workers = Function.update s.workers w th) (hb : SameBooks s u)
      (hx : (s.workers w).phase.isExited = false) (hh : th.phase.handling = (s.workers w).phase.handling)
      (hre : ∀ id reply out, th.phase = .replying id reply out →
        ∃ tk, s.tickets[id]? = some tk ∧ Result tk reply)
  | took {w id rest wk sig} (hp : (s.workers w).phase = .receiving) (hq : s.queue = id :: rest)
      (ht : u.tickets = (s.setTicket id Ticket.take).tickets) (hq' : u.queue = rest)
      (hk : u.takes = s.takes ++ [(id, w)]) (hr : u.replies = s.replies)
      (hw : u.workers = Function.update s.workers w ⟨.took id, wk, sig⟩)
  | sent {w id reply out wk sig} (hp : (s.workers w).phase = .replying id reply out)
      (ht : u.tickets = (s.setTicket id Ticket.finish).tickets) (hq : u.queue = s.queue)
      (hk : u.takes = s.takes) (hr : u.replies = s.replies ++ received s w id reply)
      (hw : u.workers = Function.update s.workers w ⟨.acting out, wk, sig⟩)
  | lost {w id text wk sig} (hp : (s.workers w).phase = .unwinding id text)
      (ht : u.tickets = (s.setTicket id Ticket.finish).tickets) (hq : u.queue = s.queue)
      (hk : u.takes = s.takes) (hr : u.replies = s.replies)
      (hw : u.workers = Function.update s.workers w ⟨.exited (.panicked text), wk, sig⟩)
  | submitted {req} (ht : u.tickets = s.tickets ++ [⟨req, if s.rxOpen then .sending else .ended, true⟩])
      (hq : u.queue = s.queue) (hk : u.takes = s.takes) (hr : u.replies = s.replies)
      (hw : u.workers = s.workers)
  | enqueued {id tk} (hg : s.tickets[id]? = some tk) (hs : tk.stage = .sending)
      (ht : u.tickets = (s.setTicket id Ticket.enqueue).tickets) (hq : u.queue = s.queue ++ [id])
      (hk : u.takes = s.takes) (hr : u.replies = s.replies) (hw : u.workers = s.workers)
  | disconnected {id tk} (hg : s.tickets[id]? = some tk) (hc : tk.calling = true)
      (ht : u.tickets = (s.setTicket id Ticket.disconnect).tickets) (hq : u.queue = s.queue)
      (hk : u.takes = s.takes) (hr : u.replies = s.replies) (hw : u.workers = s.workers)

/-- the step behind a haul: nothing more, or an owner of the receiver lets go of it -/
def Closes (s u t : System F) : Prop :=
  t = u ∧ (u.ownerless p = true → s.ownerless p = true) ∨ t = u.closeIfLast p

variable {p} {s t u : System F}

/-! ## every step is a haul -/

/-- an owner of the receiver lets go of it -/
theorem closing_haul (ht : t = u.closeIfLast p) (h : Haul s u) (hrx : u.rxOpen = s.rxOpen) :
    ∃ u, Haul s u ∧ u.rxOpen = s.rxOpen ∧ Closes p s u t := ⟨u, h, hrx, .inr ht⟩

theorem haul_exit {v : System F} {w : Nat} {how : Joined} (hb : SameBooks s v)
    (hw : v.workers = s.workers) (hrx : v.rxOpen = s.rxOpen)
    (hx : (s.workers w).phase.isExited = false) (hh : (s.workers w).phase.handling = none) :
    ∃ u, Haul s u ∧ u.rxOpen = s.rxOpen ∧ Closes p s u (v.exitWorker p w how) := by
  have hws : (v.goOn w (.exited how) (v.workers w).worker.unloaded).workers =
      Function.update s.workers w ⟨.exited how, (s.workers w).worker.unloaded, (s.workers w).signal⟩ := by
    rw [← hw]
    rfl
  exact closing_haul rfl (.thread hws ⟨hb.tickets, hb.queue, hb.takes, hb.replies⟩ hx hh.symm (no_result rfl))
    hrx

/-- a thread that goes on keeps the receiver -/
theorem haul_thread (inv : InitInv p t) {w : Nat} {th : Thread F} (hb : SameBooks s t)
    (hw : t.workers = Function.update s.workers w th) (hrx : t.rxOpen = s.rxOpen)
    (hg : th.phase.gone = false) (hx : (s.workers w).phase.isExited = false)
    (hh : th.phase.handling = (s.workers w).phase.handling)
    (hre : ∀ id reply out, th.phase = .replying id reply out →
      ∃ tk, s.tickets[id]? = some tk ∧ Result tk reply) :
    ∃ u, Haul s u ∧ u.rxOpen = s.rxOpen ∧ Closes p s u t := by
  refine ⟨t, .thread hw hb hx hh hre, hrx, .inl ⟨rfl, fun ho => ?_⟩⟩
  have hth : (t.workers w).phase.gone = false := by rw [hw, Function.update_self, hg]
  have hn : w < p.n := by
    refine Nat.lt_of_lt_of_le (inv.present_lt fun h => ?_) inv.spawned_le
    rw [h] at hth
    cases hth
  rw [ownerless_of_running hn hth] at ho
  cases ho

/-- a running thread has some of its steps before it -/
theorem running_haul (inv : InitInv p t) {w : Nat} (h : Haul s t) (hrx : t.rxOpen = s.rxOpen)
    (hg : (t.workers w).phase.gone = false) : ∃ u, Haul s u ∧ u.rxOpen = s.rxOpen ∧ Closes p s u t := by
  refine ⟨t, h, hrx, .inl ⟨rfl, fun ho => ?_⟩⟩
  have hn : w < p.n := by
    refine Nat.lt_of_lt_of_le (inv.present_lt fun h => ?_) inv.spawned_le
    rw [h] at hg
    cases hg
  rw [ownerless_of_running hn hg] at ho
  cases ho

theorem client_haul (h : Haul s t) (hi : t.init = s.init) (hw : t.workers = s.workers)
    (hrx : t.rxOpen = s.rxOpen) : ∃ u, Haul s u ∧ u.rxOpen = s.rxOpen ∧ Closes p s u t := by
  refine ⟨t, h, hrx, .inl ⟨rfl, fun ho => ?_⟩⟩
  unfold System.ownerless at ho ⊢
  rw [hi, hw] at ho
  exact ho

theorem init_haul (inv : InitInv p s) (h : Move p s .init t) :
    ∃ u, Haul s u ∧ u.rxOpen = s.rxOpen ∧ Closes p s u t := by
  -- while the task runs it is an owner itself
  have poll {t : System F} (hw : t.workers = s.workers) (hb : SameBooks s t) (hrx : t.rxOpen = s.rxOpen)
      (hd : t.init.isDone = false) : ∃ u, Haul s u ∧ u.rxOpen = s.rxOpen ∧ Closes p s u t := by
    refine ⟨t, .still hw hb, hrx, .inl ⟨rfl, fun ho => ?_⟩⟩
    rw [ownerless_of_not_done hd] at ho
    cases ho
  cases h with
  | @spawned k hi =>
    have hf : s.workers k = .fresh := by
      refine inv.later _ ?_
      rw [System.spawned, hi]
    refine ⟨{ s.setPhase k .starting with init := .recv k }, .thread (w := k) rfl ⟨rfl, rfl, rfl, rfl⟩
      (by rw [hf]; rfl) (by rw [hf]; rfl) (no_result rfl), rfl, .inl ⟨rfl, fun ho => ?_⟩⟩
    rw [ownerless_of_not_done rfl] at ho
    cases ho
  | heard hi hc => exact poll rfl ⟨rfl, rfl, rfl, rfl⟩ rfl rfl
  | heardError hi hc => exact closing_haul rfl (.still rfl ⟨rfl, rfl, rfl, rfl⟩) rfl
  | silent hi hc => exact poll rfl ⟨rfl, rfl, rfl, rfl⟩ rfl rfl
  | joined hi hp => exact closing_haul rfl (.still rfl ⟨rfl, rfl, rfl, rfl⟩) rfl
  | pending hi hp => exact poll rfl ⟨rfl, rfl, rfl, rfl⟩ rfl rfl
  | woken hi hw => exact poll rfl ⟨rfl, rfl, rfl, rfl⟩ rfl rfl
  | @counted k delta hi =>
    unfold countWorker
    dsimp only
    split
    · exact poll rfl ⟨rfl, rfl, rfl, rfl⟩ rfl rfl
    · exact closing_haul rfl (.still rfl ⟨rfl, rfl, rfl, rfl⟩) rfl

theorem move_haul {a : Act F} (inv : InitInv p s) (h : Move p s a t) :
    ∃ u, Haul s u ∧ u.rxOpen = s.rxOpen ∧ Closes p s u t := by
  have hinv := initInv_move inv h
  by_cases ha : a = .init
  · subst ha
    exact init_haul inv h
  -- a step of a thread with nothing in hand
  have loop {w : Nat} {ph : Phase F} {th : Thread F} (hw : t.workers = Function.update s.workers w th)
      (hb : SameBooks s t) (hrx : t.rxOpen = s.rxOpen) (hp : (s.workers w).phase = ph)
      (hx : ph.isExited = false) (hn : ph.handling = none) (hn' : th.phase.handling = none)
      (hg : th.phase.gone = false) : ∃ u, Haul s u ∧ u.rxOpen = s.rxOpen ∧ Closes p s u t :=
    haul_thread hinv hb hw hrx hg (by rw [hp, hx]) (by rw [hp, hn, hn']) (no_result hn')
  have same : SameBooks s s := sameBooks_refl s
  cases h with
  | spawned => exact absurd rfl ha
  | heard => exact absurd rfl ha
  | heardError => exact absurd rfl ha
  | silent => exact absurd rfl ha
  | joined => exact absurd rfl ha
  | pending => exact absurd rfl ha
  | woken => exact absurd rfl ha
  | counted => exact absurd rfl ha
  | @started w preLoadRss load out sh hp ho =>
    cases out with
    | ready wk delta => exact loop rfl ⟨rfl, rfl, rfl, rfl⟩ rfl hp rfl rfl rfl rfl
    | loadFailed e => exact loop rfl ⟨rfl, rfl, rfl, rfl⟩ rfl hp rfl rfl rfl rfl
    | refused e => exact haul_exit ⟨rfl, rfl, rfl, rfl⟩ rfl rfl (by rw [hp]; rfl) (by rw [hp]; rfl)
  | vanished hp => exact haul_exit same rfl rfl (by rw [hp]; rfl) (by rw [hp]; rfl)
  | left hp => exact haul_exit same rfl rfl (by rw [hp]; rfl) (by rw [hp]; rfl)
  | drained hp hd => exact loop rfl ⟨rfl, rfl, rfl, rfl⟩ rfl hp rfl rfl rfl rfl
  | locked hp hl => exact loop rfl ⟨rfl, rfl, rfl, rfl⟩ rfl hp rfl rfl rfl rfl
  | elapsed hp hm =>
    rcases hp with hp | hp
    · exact loop rfl ⟨rfl, rfl, rfl, rfl⟩ rfl hp rfl rfl rfl rfl
    · exact loop rfl ⟨rfl, rfl, rfl, rfl⟩ rfl hp rfl rfl rfl rfl
  | @took w id rest hp hq =>
    refine running_haul (w := w) hinv (.took hp hq rfl rfl rfl rfl rfl) rfl ?_
    show (Function.update s.workers w _ w).phase.gone = false
    rw [Function.update_self]
    rfl
  | @closed w hp hq hh =>
    exact haul_exit (v := s.closing w) ⟨rfl, rfl, rfl, rfl⟩ rfl rfl (by rw [hp]; rfl) (by rw [hp]; rfl)
  | loaded hp he =>
    exact haul_thread hinv ⟨rfl, rfl, rfl, rfl⟩ rfl rfl rfl (by rw [hp]; rfl) (by rw [hp]; rfl)
      fun _ _ _ h => by cases h
  | @unloadable w load id tk e hp ht he =>
    refine haul_thread hinv ⟨rfl, rfl, rfl, rfl⟩ rfl rfl rfl (by rw [hp]; rfl) (by rw [hp]; rfl) ?_
    rintro _ _ _ ⟨⟩
    exact ⟨tk, ht, trivial⟩
  | served hp hm ht hd =>
    refine haul_thread hinv ⟨rfl, rfl, rfl, rfl⟩ rfl rfl rfl (by rw [hp]; rfl) (by rw [hp]; rfl) ?_
    rintro _ _ _ ⟨⟩
    exact ⟨_, ht, dispatch_result hd⟩
  | panicked hp hm ht =>
    exact haul_thread hinv ⟨rfl, rfl, rfl, rfl⟩ rfl rfl rfl (by rw [hp]; rfl) (by rw [hp]; rfl)
      fun _ _ _ h => by cases h
  | @replied w id reply out hp =>
    refine running_haul (w := w) hinv (.sent hp rfl rfl rfl rfl rfl) rfl ?_
    show (Function.update s.workers w _ w).phase.gone = false
    rw [Function.update_self]
    rfl
  | again hp hs => exact loop rfl ⟨rfl, rfl, rfl, rfl⟩ rfl hp rfl rfl rfl rfl
  | fatal hp hs ho => exact haul_exit same rfl rfl (by rw [hp]; rfl) (by rw [hp]; rfl)
  | broke hp hs ho => exact loop rfl ⟨rfl, rfl, rfl, rfl⟩ rfl hp rfl rfl rfl rfl
  | noted hp hs => exact loop rfl ⟨rfl, rfl, rfl, rfl⟩ rfl hp rfl rfl rfl rfl
  | @died w id text hp => exact closing_haul rfl (.lost hp rfl rfl rfl rfl rfl) rfl
  | submitted hh => exact client_haul (.submitted rfl rfl rfl rfl rfl) rfl rfl rfl
  | enqueued ht hs => exact client_haul (.enqueued ht hs rfl rfl rfl rfl rfl) rfl rfl rfl
  | disconnected ht hc => exact client_haul (.disconnected ht hc rfl rfl rfl rfl rfl) rfl rfl rfl
  | dropped hh => exact client_haul (.still rfl ⟨rfl, rfl, rfl, rfl⟩) rfl rfl rfl

/-! ## places -/

theorem SameBooks.stageOf (hb : SameBooks s u) (id : Nat) : u.stageOf id = s.stageOf id := by
  rw [System.stageOf, hb.tickets]
  rfl

theorem Places.alike (P : Places s) (hb : SameBooks s u) (hh : ∀ w, u.inHand w = s.inHand w) : Places u := by
  refine ⟨?_, fun id => ?_, fun w id => ?_, fun id => ?_, ?_, fun id w => ?_⟩
  · rw [hb.queue]
    exact P.queue_nodup
  · rw [hb.queue, hb.stageOf]
    exact P.queued id
  · rw [hh, hb.stageOf, hb.takes]
    exact P.hand w id
  · rw [hb.stageOf]
    simp only [hh]
    exact P.taken id
  · rw [hb.takes]
    exact P.takes_nodup
  · rw [hb.takes, hb.stageOf]
    exact P.takes_stage id w

/-- a client moves ticket `id`, which no worker has seen, to stage `st` -/
theorem Places.client (P : Places s) {id : Nat} {st : Stage}
    (hbefore : s.stageOf id ≠ some .taken ∧ s.stageOf id ≠ some .ended)
    (hst : ∀ j, u.stageOf j = if j = id then some st else s.stageOf j) (hne : st ≠ .taken)
    (hqn : u.queue.Nodup) (hq : ∀ j, j ∈ u.queue ↔ if j = id then st = .queued else j ∈ s.queue)
    (hk : u.takes = s.takes) (hw : u.workers = s.workers) : Places u := by
  have hh (w : Nat) : u.inHand w = s.inHand w := by rw [System.inHand, hw]; rfl
  refine P.move hst hqn hq ?_ (fun h => absurd h hne) ?_ ?_ ?_ ?_
  · intro k hkk
    rw [hh] at hkk
    exact absurd (P.hand k id hkk).1 hbefore.1
  · intro k j _
    rw [hh]
  · rw [hk]
    exact P.takes_nodup
  · intro k hkk
    rw [hk] at hkk
    rcases P.takes_stage id k hkk with h | h
    · exact absurd h hbefore.1
    · exact absurd h hbefore.2
  · intro j k _
    rw [hk]

/-- stages after a new ticket -/
theorem stageOf_submitted {tk : Ticket} (ht : u.tickets = s.tickets ++ [tk]) (j : Nat) :
    u.stageOf j = if j = s.tickets.length then some tk.stage else s.stageOf j := by
  rw [System.stageOf, ht]
  by_cases h : j = s.tickets.length
  · subst h
    rw [if_pos rfl, List.getElem?_concat_length]
    rfl
  · rw [if_neg h]
    by_cases hlt : j < s.tickets.length
    · rw [List.getElem?_append_left hlt]
      rfl
    · rw [List.getElem?_eq_none (by simp; omega), System.stageOf, List.getElem?_eq_none (by omega)]

theorem stageOf_new (s : System F) : s.stageOf s.tickets.length = none := by
  rw [System.stageOf, List.getElem?_eq_none (Nat.le_refl _)]
  rfl

theorem Places.submitted (P : Places s) {tk : Ticket} (ht : u.tickets = s.tickets ++ [tk])
    (hne : tk.stage ≠ .taken ∧ tk.stage ≠ .queued) (hq : u.queue = s.queue) (hk : u.takes = s.takes)
    (hw : u.workers = s.workers) : Places u := by
  have hnone := stageOf_new s
  refine P.client ?_ (stageOf_submitted ht) hne.1 (by rw [hq]; exact P.queue_nodup) ?_ hk hw
  · rw [hnone]
    exact ⟨by decide, by decide⟩
  · intro j
    rw [hq]
    by_cases h : j = s.tickets.length
    · subst h
      rw [if_pos rfl, P.queued, hnone]
      exact ⟨fun h => (by cases h), fun h => absurd h hne.2⟩
    · rw [if_neg h]

theorem Places.enqueued (P : Places s) {id : Nat} {tk : Ticket} (hg : s.tickets[id]? = some tk)
    (hs : tk.stage = .sending) (ht : u.tickets = (s.setTicket id Ticket.enqueue).tickets)
    (hq : u.queue = s.queue ++ [id]) (hk : u.takes = s.takes) (hw : u.workers = s.workers) : Places u := by
  have hsend : s.stageOf id = some .sending := by rw [stageOf_of_get hg, hs]
  have hnot : id ∉ s.queue := by
    rw [P.queued, hsend]
    decide
  refine P.client ?_ (stageOf_setTicket hg ht) (fun h => by cases h) ?_ ?_ hk hw
  · rw [hsend]
    exact ⟨by decide, by decide⟩
  · rw [hq, List.nodup_append]
    refine ⟨P.queue_nodup, List.nodup_singleton _, ?_⟩
    intro a ha b hb hab
    rw [List.mem_singleton.mp hb] at hab
    rw [hab] at ha
    exact hnot ha
  · intro j
    rw [hq, List.mem_append, List.mem_singleton]
    by_cases h : j = id
    · rw [if_pos h]
      exact ⟨fun _ => rfl, fun _ => .inr h⟩
    · rw [if_neg h]
      exact ⟨fun h' => h'.resolve_right h, .inl⟩

/-- a client that goes away after its request was sent changes no stage -/
theorem stageOf_disconnected {id : Nat} {tk : Ticket} (hg : s.tickets[id]? = some tk)
    (hs : tk.stage ≠ .sending) (ht : u.tickets = (s.setTicket id Ticket.disconnect).tickets) (j : Nat) :
    u.stageOf j = s.stageOf j := by
  have hkeep : tk.disconnect.stage = tk.stage := if_neg hs
  rw [stageOf_setTicket hg ht, hkeep]
  by_cases h : j = id
  · rw [if_pos h, h, stageOf_of_get hg]
  · rw [if_neg h]

theorem Places.disconnected (P : Places s) {id : Nat} {tk : Ticket} (hg : s.tickets[id]? = some tk)
    (ht : u.tickets = (s.setTicket id Ticket.disconnect).tickets) (hq : u.queue = s.queue)
    (hk : u.takes = s.takes) (hw : u.workers = s.workers) : Places u := by
  by_cases hs : tk.stage = .sending
  · -- nothing of the request was sent
    have hsend : s.stageOf id = some .sending := by rw [stageOf_of_get hg, hs]
    have hst := stageOf_setTicket hg ht
    have hend : tk.disconnect.stage = .ended := if_pos hs
    rw [hend] at hst
    refine P.client ?_ hst (by decide) (by rw [hq]; exact P.queue_nodup) ?_ hk hw
    · rw [hsend]
      exact ⟨by decide, by decide⟩
    · intro j
      rw [hq]
      by_cases h : j = id
      · subst h
        rw [if_pos rfl, P.queued, hsend]
        exact ⟨fun h => (by cases h), fun h => (by cases h)⟩
      · rw [if_neg h]
  · have hst := stageOf_disconnected hg hs ht
    have hh (w : Nat) : u.inHand w = s.inHand w := by rw [System.inHand, hw]; rfl
    refine ⟨by rw [hq]; exact P.queue_nodup, fun j => ?_, fun w j => ?_, fun j => ?_,
      by rw [hk]; exact P.takes_nodup, fun j w => ?_⟩
    · rw [hq, hst]
      exact P.queued j
    · rw [hh, hst, hk]
      exact P.hand w j
    · rw [hst]
      simp only [hh]
      exact P.taken j
    · rw [hk, hst]
      exact P.takes_stage j w

/-- the ticket in hand is there -/
theorem Places.ticket (P : Places s) {w id : Nat} (h : s.inHand w = some id) :
    ∃ tk, s.tickets[id]? = some tk ∧ tk.stage = .taken := stageOf_some (P.hand w id h).1

theorem Haul.places (h : Haul s u) (P : Places s) : Places u := by
  cases h with
  | still hw hb =>
    refine P.alike hb fun w => ?_
    rw [System.inHand, hw]
    rfl
  | @thread w th hw hb hx hh hre =>
    refine P.alike hb fun k => ?_
    by_cases h : k = w
    · subst h
      rw [inHand_same hw, hh]
      rfl
    · exact inHand_other hw h
  | @took w id rest wk sig hp hq ht hq' hk hr hw =>
    have hqueued : s.stageOf id = some .queued := (P.queued id).mp (by rw [hq]; exact List.mem_cons_self)
    obtain ⟨tk, hg, -⟩ := stageOf_some hqueued
    exact P.receive (by rw [System.inHand, hp]; rfl) hq (stageOf_setTicket hg ht) hq' hk hw rfl
  | @sent w id reply out wk sig hp ht hq hk hr hw =>
    have hmine : s.inHand w = some id := by rw [System.inHand, hp]; rfl
    obtain ⟨tk, hg, -⟩ := P.ticket hmine
    exact P.release hmine (stageOf_setTicket hg ht) hq hk hw rfl
  | @lost w id text wk sig hp ht hq hk hr hw =>
    have hmine : s.inHand w = some id := by rw [System.inHand, hp]; rfl
    obtain ⟨tk, hg, -⟩ := P.ticket hmine
    exact P.release hmine (stageOf_setTicket hg ht) hq hk hw rfl
  | submitted ht hq hk hr hw =>
    refine P.submitted ht ?_ hq hk hw
    dsimp only
    split <;> exact ⟨by decide, by decide⟩
  | enqueued hg hs ht hq hk hr hw => exact P.enqueued hg hs ht hq hk hw
  | disconnected hg hc ht hq hk hr hw => exact P.disconnected hg ht hq hk hw

theorem stageOf_closeRx_taken (id : Nat) :
    s.closeRx.stageOf id = some .taken ↔ s.stageOf id = some .taken := by
  rw [stageOf_closeRx]
  cases s.stageOf id with
  | none => exact Iff.rfl
  | some st => cases st <;> decide

theorem stageOf_closeRx_ended {id : Nat} (h : s.stageOf id = some .ended) :
    s.closeRx.stageOf id = some .ended := by
  rw [stageOf_closeRx, h]
  rfl

theorem Places.closeRx (P : Places s) : Places s.closeRx := by
  refine ⟨List.nodup_nil, fun id => ?_, fun w id h => ?_, fun id h => ?_, P.takes_nodup, fun id w h => ?_⟩
  · refine ⟨fun h => absurd h List.not_mem_nil, fun h => ?_⟩
    rw [stageOf_closeRx] at h
    cases hs : s.stageOf id with
    | none => rw [hs] at h; cases h
    | some st => rw [hs] at h; cases st <;> cases h
  · rw [stageOf_closeRx_taken]
    exact P.hand w id h
  · exact P.taken id (stageOf_closeRx_taken id |>.mp h)
  · rcases P.takes_stage id w h with h | h
    · exact .inl ((stageOf_closeRx_taken id).mpr h)
    · exact .inr (stageOf_closeRx_ended h)

end
end EmbedServer.Pool
