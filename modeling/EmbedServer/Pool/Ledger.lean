import EmbedServer.Pool.Moves

/-!
# Tickets of the pool (`EmbedPool::dense` …, `worker/dispatch.rs`)

Every request has a ticket.  It is in the hands of its client, in the channel, in the hands of one worker
or done; two histories record who received it and what its client received.

* `Places`, `History`            where each ticket is, and what became of those that were received;
* `Ledger.took`, `Ledger.sent`   receiving a request and sending its reply keep both, and so on for the
                                 steps of a client and the end of the receiver.
-/

set_option linter.unusedSectionVars false

namespace EmbedServer.Pool

section
variable {F : Type}

/-- the ticket a thread works on -/
def Phase.handling : Phase F → Option Nat
  | .took id | .loaded id | .replying id _ _ | .unwinding id _ => some id
  | _ => none

def System.stageOf (s : System F) (id : Nat) : Option Stage := (s.tickets[id]?).map Ticket.stage

/-- a result in hand; there is none only for a client that is gone -/
def Result (t : Ticket) : Option (Reply F) → Prop
  | some _ => True
  | none => t.isOpen = false

/-- the ticket of thread `w` -/
def System.inHand (s : System F) (w : Nat) : Option Nat := (s.workers w).phase.handling

/-- where each ticket is -/
structure Places (s : System F) : Prop where
  queue_nodup : s.queue.Nodup
  queued : ∀ id, id ∈ s.queue ↔ s.stageOf id = some .queued
  hand : ∀ w id, s.inHand w = some id → s.stageOf id = some .taken ∧ (id, w) ∈ s.takes
  taken : ∀ id, s.stageOf id = some .taken → ∃ w, s.inHand w = some id
  takes_nodup : (s.takes.map Prod.fst).Nodup
  takes_stage : ∀ id w, (id, w) ∈ s.takes → s.stageOf id = some .taken ∨ s.stageOf id = some .ended

/-- what became of the tickets that were received -/
structure History (s : System F) : Prop where
  replies_nodup : (s.replies.map Prod.fst).Nodup
  replied : ∀ id w r, (id, w, r) ∈ s.replies → s.stageOf id = some .ended ∧ (id, w) ∈ s.takes
  answered : ∀ id w, (id, w) ∈ s.takes → s.inHand w = some id ∨ (∃ r, (id, w, r) ∈ s.replies) ∨
    ∃ t, s.tickets[id]? = some t ∧ t.isOpen = false
  result : ∀ w id reply out, (s.workers w).phase = .replying id reply out →
    ∃ t, s.tickets[id]? = some t ∧ Result t reply

structure Ledger (s : System F) : Prop extends Places s, History s

variable [F32Ops F] {s t : System F}

/-! ## tickets -/

/-- a ticket keeps its request, and its client does not come back -/
structure Ticket.Later (t t' : Ticket) : Prop where
  req : t'.req = t.req
  gone : t.isOpen = false → t'.isOpen = false

theorem Ticket.Later.refl (t : Ticket) : t.Later t := ⟨rfl, id⟩

theorem Ticket.later_take (t : Ticket) : t.Later t.take := ⟨rfl, id⟩

theorem Ticket.later_finish (t : Ticket) : t.Later t.finish := ⟨rfl, id⟩

theorem Ticket.later_enqueue (t : Ticket) : t.Later t.enqueue := ⟨rfl, id⟩

theorem Ticket.later_disconnect (t : Ticket) : t.Later t.disconnect := ⟨rfl, fun _ => rfl⟩

theorem Ticket.later_abandon (t : Ticket) : t.Later t.abandon := by
  unfold Ticket.abandon
  split <;> exact ⟨rfl, id⟩

theorem System.setTicket_get (id j : Nat) (f : Ticket → Ticket) :
    (s.setTicket id f).tickets[j]? = if id = j then (s.tickets[j]?).map f else s.tickets[j]? := by
  show (s.tickets.modify id f)[j]? = _
  rw [List.getElem?_modify]
  by_cases h : id = j
  · simp only [if_pos h]
    rfl
  · simp only [if_neg h]
    exact Option.map_id'

/-- stages after a change of one ticket -/
theorem stageOf_setTicket {id : Nat} {tk : Ticket} {f : Ticket → Ticket} (hg : s.tickets[id]? = some tk)
    (ht : t.tickets = (s.setTicket id f).tickets) (j : Nat) :
    t.stageOf j = if j = id then some (f tk).stage else s.stageOf j := by
  rw [System.stageOf, ht, System.setTicket_get]
  by_cases h : id = j
  · subst h
    rw [if_pos rfl, if_pos rfl, hg]
    rfl
  · rw [if_neg h, if_neg (Ne.symm h)]
    rfl

/-- every ticket of `s` goes on in `t` -/
def System.Later (s t : System F) : Prop :=
  ∀ (id : Nat) (tk : Ticket), s.tickets[id]? = some tk → ∃ tk', t.tickets[id]? = some tk' ∧ tk.Later tk'

theorem later_setTicket {id : Nat} {f : Ticket → Ticket} (hf : ∀ tk, Ticket.Later tk (f tk))
    (ht : t.tickets = (s.setTicket id f).tickets) : s.Later t := by
  intro j tk hg
  rw [ht, System.setTicket_get, hg]
  by_cases h : id = j
  · rw [if_pos h]
    exact ⟨f tk, rfl, hf tk⟩
  · rw [if_neg h]
    exact ⟨tk, rfl, .refl tk⟩

theorem Result.later {tk tk' : Ticket} {reply : Option (Reply F)} (h : Result tk reply)
    (hl : tk.Later tk') : Result tk' reply := by
  cases reply with
  | none => exact hl.gone h
  | some r => trivial

/-! ## the ledger, step by step -/

/-- the tickets, the channel and the histories stay; a thread may have come to a result -/
theorem Ledger.alike (L : Ledger s) (ht : t.tickets = s.tickets) (hq : t.queue = s.queue)
    (hk : t.takes = s.takes) (hr : t.replies = s.replies) (hh : ∀ w, t.inHand w = s.inHand w)
    (hre : ∀ w id reply out, (t.workers w).phase = .replying id reply out →
      ∃ tk, s.tickets[id]? = some tk ∧ Result tk reply) : Ledger t := by
  have hst (id : Nat) : t.stageOf id = s.stageOf id := by rw [System.stageOf, ht]; rfl
  refine ⟨⟨?_, ?_, ?_, ?_, ?_, ?_⟩, ⟨?_, ?_, ?_, ?_⟩⟩
  · rw [hq]
    exact L.queue_nodup
  · intro id
    rw [hq, hst]
    exact L.queued id
  · intro w id
    rw [hh, hst, hk]
    exact L.hand w id
  · intro id
    rw [hst]
    simp only [hh]
    exact L.taken id
  · rw [hk]
    exact L.takes_nodup
  · intro id w
    rw [hk, hst]
    exact L.takes_stage id w
  · rw [hr]
    exact L.replies_nodup
  · intro id w r
    rw [hr, hst, hk]
    exact L.replied id w r
  · intro id w
    rw [hk, hh, hr, ht]
    exact L.answered id w
  · intro w id reply out hp
    rw [ht]
    exact hre w id reply out hp

/-- tickets go on, nothing is sent -/
theorem History.later (H : History s)
    (ht : s.Later t) (he : ∀ id, s.stageOf id = some .ended → t.stageOf id = some .ended)
    (hr : t.replies = s.replies) (hk : ∀ x ∈ s.takes, x ∈ t.takes)
    (hnew : ∀ id w, (id, w) ∈ t.takes → (id, w) ∈ s.takes ∨ t.inHand w = some id)
    (hh : ∀ w id, s.inHand w = some id → t.inHand w = some id)
    (hre : ∀ w id reply out, (t.workers w).phase = .replying id reply out →
      (s.workers w).phase = .replying id reply out) : History t := by
  constructor
  · rw [hr]
    exact H.replies_nodup
  · intro id w r hm
    rw [hr] at hm
    obtain ⟨hst, hin⟩ := H.replied id w r hm
    exact ⟨he id hst, hk _ hin⟩
  · intro id w hm
    rcases hnew id w hm with hold | hnow
    · rcases H.answered id w hold with h | ⟨r, h⟩ | ⟨tk, hg, hc⟩
      · exact .inl (hh w id h)
      · exact .inr (.inl ⟨r, by rw [hr]; exact h⟩)
      · obtain ⟨tk', hg', hl⟩ := ht id tk hg
        exact .inr (.inr ⟨tk', hg', hl.gone hc⟩)
    · exact .inl hnow
  · intro w id reply out hp
    obtain ⟨tk, hg, hres⟩ := H.result w id reply out (hre w id reply out hp)
    obtain ⟨tk', hg', hl⟩ := ht id tk hg
    exact ⟨tk', hg', hres.later hl⟩

/-- ticket `id` goes to stage `st`, the others stay -/
theorem Places.move (P : Places s) {id : Nat} {st : Stage}
    (hst : ∀ j, t.stageOf j = if j = id then some st else s.stageOf j) (hqn : t.queue.Nodup)
    (hq : ∀ j, j ∈ t.queue ↔ if j = id then st = .queued else j ∈ s.queue)
    (hmine : ∀ w, t.inHand w = some id → st = .taken ∧ (id, w) ∈ t.takes)
    (hnow : st = .taken → ∃ w, t.inHand w = some id)
    (hh : ∀ w j, j ≠ id → (t.inHand w = some j ↔ s.inHand w = some j))
    (hkn : (t.takes.map Prod.fst).Nodup) (hkst : ∀ w, (id, w) ∈ t.takes → st = .taken ∨ st = .ended)
    (hk : ∀ j w, j ≠ id → ((j, w) ∈ t.takes ↔ (j, w) ∈ s.takes)) : Places t := by
  refine ⟨hqn, fun j => ?_, fun w j hj => ?_, fun j hj => ?_, hkn, fun j w hj => ?_⟩
  · rw [hq, hst]
    by_cases h : j = id
    · rw [if_pos h, if_pos h, Option.some.injEq]
    · rw [if_neg h, if_neg h]
      exact P.queued j
  · rw [hst]
    by_cases h : j = id
    · subst h
      obtain ⟨rfl, hin⟩ := hmine w hj
      exact ⟨if_pos rfl, hin⟩
    · rw [if_neg h, hk j w h]
      exact P.hand w j ((hh w j h).mp hj)
  · rw [hst] at hj
    by_cases h : j = id
    · subst h
      rw [if_pos rfl] at hj
      exact hnow (Option.some.inj hj)
    · rw [if_neg h] at hj
      obtain ⟨w, hw⟩ := P.taken j hj
      exact ⟨w, (hh w j h).mpr hw⟩
  · rw [hst]
    by_cases h : j = id
    · subst h
      rw [if_pos rfl, Option.some.injEq, Option.some.injEq]
      exact hkst w hj
    · rw [if_neg h]
      exact P.takes_stage j w ((hk j w h).mp hj)

theorem stageOf_some {id : Nat} {st : Stage} (h : s.stageOf id = some st) :
    ∃ tk, s.tickets[id]? = some tk ∧ tk.stage = st := by
  obtain ⟨tk, hg, hs⟩ := Option.map_eq_some_iff.mp h
  exact ⟨tk, hg, hs⟩

theorem stageOf_of_get {id : Nat} {tk : Ticket} (h : s.tickets[id]? = some tk) :
    s.stageOf id = some tk.stage := by
  rw [System.stageOf, h]
  rfl

/-- thread `w` moves, the others keep what they have in hand -/
theorem inHand_other {w k : Nat} {th : Thread F} (hw : t.workers = Function.update s.workers w th)
    (h : k ≠ w) : t.inHand k = s.inHand k := by
  rw [System.inHand, hw, Function.update_of_ne h]
  rfl

theorem inHand_same {w : Nat} {th : Thread F} (hw : t.workers = Function.update s.workers w th) :
    t.inHand w = th.phase.handling := by
  rw [System.inHand, hw, Function.update_self]

/-- a history that names a ticket for the first time -/
theorem nodup_fst_append {β : Type} {l : List (Nat × β)} {id : Nat} {b : β} (h : (l.map Prod.fst).Nodup)
    (hnew : ∀ b', (id, b') ∉ l) : ((l ++ [(id, b)]).map Prod.fst).Nodup := by
  rw [List.map_append, List.nodup_append]
  refine ⟨h, List.nodup_singleton _, ?_⟩
  intro a ha c hc hac
  obtain ⟨⟨a', b'⟩, hin, rfl⟩ := List.mem_map.mp ha
  have hc : c = id := List.mem_singleton.mp hc
  rw [← hc, ← hac] at hnew
  exact hnew b' hin

/-- nobody ever had a queued ticket -/
theorem Places.untaken (P : Places s) {id : Nat} (h : s.stageOf id = some .queued) (k : Nat) :
    (id, k) ∉ s.takes := by
  intro hk
  rcases P.takes_stage id k hk with h' | h' <;> rw [h] at h' <;> cases h'

/-- an idle worker takes the first ticket of the channel -/
theorem Places.receive (P : Places s) {w id : Nat} {rest : List Nat} {th : Thread F}
    (hfree : s.inHand w = none) (hq : s.queue = id :: rest)
    (hst : ∀ j, t.stageOf j = if j = id then some .taken else s.stageOf j) (hq' : t.queue = rest)
    (hk : t.takes = s.takes ++ [(id, w)]) (hw : t.workers = Function.update s.workers w th)
    (hth : th.phase.handling = some id) : Places t := by
  have hnd := P.queue_nodup
  rw [hq, List.nodup_cons] at hnd
  have hqueued : s.stageOf id = some .queued := (P.queued id).mp (by rw [hq]; exact List.mem_cons_self)
  have hmine : t.inHand w = some id := (inHand_same hw).trans hth
  refine P.move hst ?_ ?_ ?_ ?_ ?_ ?_ ?_ ?_
  · rw [hq']
    exact hnd.2
  · intro j
    rw [hq', hq]
    by_cases h : j = id
    · subst h
      rw [if_pos rfl]
      exact ⟨fun h => absurd h hnd.1, fun h => (by cases h)⟩
    · rw [if_neg h, List.mem_cons]
      exact ⟨.inr, fun h' => h'.resolve_left h⟩
  · intro k hkk
    by_cases h : k = w
    · subst h
      exact ⟨rfl, by rw [hk]; exact List.mem_append_right _ List.mem_cons_self⟩
    · rw [inHand_other hw h] at hkk
      exact absurd (P.hand k id hkk).2 (P.untaken hqueued k)
  · intro _
    exact ⟨w, hmine⟩
  · intro k j hj
    by_cases h : k = w
    · subst h
      rw [hmine, hfree]
      exact ⟨fun h => absurd (Option.some.inj h).symm hj, fun h => (by cases h)⟩
    · rw [inHand_other hw h]
  · rw [hk]
    exact nodup_fst_append P.takes_nodup (P.untaken hqueued)
  · intro _ _
    exact .inl rfl
  · intro j k hj
    rw [hk, List.mem_append, List.mem_singleton]
    refine ⟨fun h => h.resolve_right ?_, .inl⟩
    rintro ⟨⟩
    exact hj rfl

/-- a request is received -/
theorem Ledger.took (L : Ledger s) {w id : Nat} {rest : List Nat} {wk : Worker F}
    {sig : Option (Except AnyError Nat)} (hp : (s.workers w).phase = .receiving)
    (hq : s.queue = id :: rest) (ht : t.tickets = (s.setTicket id Ticket.take).tickets)
    (hq' : t.queue = rest) (hk : t.takes = s.takes ++ [(id, w)]) (hr : t.replies = s.replies)
    (hw : t.workers = Function.update s.workers w ⟨.took id, wk, sig⟩) : Ledger t := by
  have hqueued : s.stageOf id = some .queued := (L.queued id).mp (by rw [hq]; exact List.mem_cons_self)
  obtain ⟨tk, hg, -⟩ := stageOf_some hqueued
  have hst := stageOf_setTicket hg ht
  have hfree : s.inHand w = none := by rw [System.inHand, hp]; rfl
  refine ⟨L.toPlaces.receive hfree hq hst hq' hk hw rfl,
    L.toHistory.later (later_setTicket Ticket.later_take ht) ?_ hr ?_ ?_ ?_ ?_⟩
  · intro j hj
    rw [hst]
    by_cases h : j = id
    · subst h
      rw [hqueued] at hj
      cases hj
    · rw [if_neg h]
      exact hj
  · intro x hx
    rw [hk]
    exact List.mem_append_left _ hx
  · intro j k hjk
    rw [hk, List.mem_append, List.mem_singleton] at hjk
    rcases hjk with h | h
    · exact .inl h
    · cases h
      exact .inr (inHand_same hw)
  · intro k j hkj
    by_cases h : k = w
    · subst h
      rw [hfree] at hkj
      cases hkj
    · rw [inHand_other hw h]
      exact hkj
  · intro k j reply out hph
    by_cases h : k = w
    · subst h
      rw [hw, Function.update_self] at hph
      cases hph
    · rw [hw, Function.update_of_ne h] at hph
      exact hph

/-- a client moves: ticket `id` goes from a stage before `taken` to another one -/
theorem Ledger.client (L : Ledger s) {id : Nat} {st : Stage}
    (hbefore : s.stageOf id ≠ some .taken ∧ s.stageOf id ≠ some .ended)
    (hst : ∀ j, t.stageOf j = if j = id then some st else s.stageOf j) (hne : st ≠ .taken)
    (hl : s.Later t) (hqn : t.queue.Nodup)
    (hq : ∀ j, j ∈ t.queue ↔ if j = id then st = .queued else j ∈ s.queue)
    (hk : t.takes = s.takes) (hr : t.replies = s.replies) (hw : t.workers = s.workers) : Ledger t := by
  have hh (w : Nat) : t.inHand w = s.inHand w := by rw [System.inHand, hw]; rfl
  have hnone (k : Nat) : s.inHand k ≠ some id := fun h => hbefore.1 (L.hand k id h).1
  have hnever (k : Nat) : (id, k) ∉ s.takes := by
    intro h
    rcases L.takes_stage id k h with h | h
    · exact hbefore.1 h
    · exact hbefore.2 h
  refine ⟨L.toPlaces.move hst hqn hq ?_ ?_ ?_ ?_ ?_ ?_, L.toHistory.later hl ?_ hr ?_ ?_ ?_ ?_⟩
  · intro k hkk
    rw [hh] at hkk
    exact absurd hkk (hnone k)
  · intro h
    exact absurd h hne
  · intro k j _
    rw [hh]
  · rw [hk]
    exact L.takes_nodup
  · intro k hkk
    rw [hk] at hkk
    exact absurd hkk (hnever k)
  · intro j k _
    rw [hk]
  · intro j hj
    rw [hst]
    by_cases h : j = id
    · subst h
      exact absurd hj hbefore.2
    · rw [if_neg h]
      exact hj
  · intro x hx
    rw [hk]
    exact hx
  · intro j k hjk
    rw [hk] at hjk
    exact .inl hjk
  · intro k j hkj
    rw [hh]
    exact hkj
  · intro k j reply out hph
    rw [hw] at hph
    exact hph

/-- the receiver is dropped -/
theorem stageOf_closeRx (id : Nat) : s.closeRx.stageOf id = (s.stageOf id).map fun st =>
    if st = .sending ∨ st = .queued then .ended else st := by
  have hget : s.closeRx.tickets[id]? = (s.tickets[id]?).map Ticket.abandon := List.getElem?_map ..
  rw [System.stageOf, hget, System.stageOf]
  cases s.tickets[id]? with
  | none => rfl
  | some tk =>
    obtain ⟨req, stage, isOpen⟩ := tk
    cases stage <;> rfl

theorem Ledger.closeRx (L : Ledger s) : Ledger s.closeRx := by
  have hget (id : Nat) : s.closeRx.tickets[id]? = (s.tickets[id]?).map Ticket.abandon :=
    List.getElem?_map ..
  have htaken (id : Nat) : s.closeRx.stageOf id = some .taken ↔ s.stageOf id = some .taken := by
    rw [stageOf_closeRx]
    cases s.stageOf id with
    | none => exact Iff.rfl
    | some st => cases st <;> decide
  have hended (id : Nat) (h : s.stageOf id = some .ended) : s.closeRx.stageOf id = some .ended := by
    rw [stageOf_closeRx, h]
    rfl
  refine ⟨⟨List.nodup_nil, fun id => ?_, fun w id h => ?_, fun id h => ?_, L.takes_nodup,
    fun id w h => ?_⟩, L.toHistory.later ?_ hended rfl (fun _ h => h) (fun _ _ h => .inl h)
    (fun _ _ h => h) (fun _ _ _ _ h => h)⟩
  · refine ⟨fun h => absurd h List.not_mem_nil, fun h => ?_⟩
    rw [stageOf_closeRx] at h
    cases hs : s.stageOf id with
    | none => rw [hs] at h; cases h
    | some st => rw [hs] at h; cases st <;> cases h
  · rw [htaken]
    exact L.hand w id h
  · exact L.taken id ((htaken id).mp h)
  · rcases L.takes_stage id w h with h | h
    · exact .inl ((htaken id).mpr h)
    · exact .inr (hended id h)
  · intro id tk hg
    rw [hget, hg]
    exact ⟨_, rfl, tk.later_abandon⟩

theorem Places.only (P : Places s) {w k id : Nat} (h : (id, k) ∈ s.takes) (h' : (id, w) ∈ s.takes) :
    k = w :=
  congrArg Prod.snd (List.inj_on_of_nodup_map P.takes_nodup h h' rfl)

/-- a worker lets go of its ticket, which has ended -/
theorem Places.release (P : Places s) {w id : Nat} {th : Thread F} (hmine : s.inHand w = some id)
    (hst : ∀ j, t.stageOf j = if j = id then some .ended else s.stageOf j) (hq : t.queue = s.queue)
    (hk : t.takes = s.takes) (hw : t.workers = Function.update s.workers w th)
    (hth : th.phase.handling = none) : Places t := by
  obtain ⟨htaken, hin⟩ := P.hand w id hmine
  have hfree : t.inHand w = none := (inHand_same hw).trans hth
  refine P.move hst ?_ ?_ ?_ ?_ ?_ ?_ ?_ ?_
  · rw [hq]
    exact P.queue_nodup
  · intro j
    rw [hq]
    by_cases h : j = id
    · subst h
      rw [if_pos rfl, P.queued, htaken]
      exact ⟨fun h => (by cases h), fun h => (by cases h)⟩
    · rw [if_neg h]
  · intro k hkk
    by_cases h : k = w
    · subst h
      rw [hfree] at hkk
      cases hkk
    · rw [inHand_other hw h] at hkk
      exact absurd (P.only (P.hand k id hkk).2 hin) h
  · intro h
    cases h
  · intro k j hj
    by_cases h : k = w
    · subst h
      rw [hfree, hmine]
      exact ⟨fun h => (by cases h), fun h => absurd (Option.some.inj h).symm hj⟩
    · rw [inHand_other hw h]
  · rw [hk]
    exact P.takes_nodup
  · intro _ _
    exact .inr rfl
  · intro j k _
    rw [hk]

/-- what the client receives: the result, or nothing if it is gone -/
theorem received_cases (w : Nat) {id : Nat} {tk : Ticket} {reply : Option (Reply F)} (hg : s.tickets[id]? = some tk)
    (hres : Result tk reply) :
    (received s w id reply = [] ∧ tk.isOpen = false) ∨
      ∃ r, reply = some r ∧ received s w id reply = [(id, w, r)] := by
  rw [received_eq hg]
  cases ho : tk.isOpen with
  | false => exact .inl ⟨if_neg (by decide), rfl⟩
  | true =>
    cases reply with
    | some r => exact .inr ⟨r, rfl, rfl⟩
    | none =>
      have hres : tk.isOpen = false := hres
      rw [ho] at hres
      cases hres

/-- what a client receives, its worker had in hand -/
theorem received_mem {id w : Nat} {reply : Option (Reply F)} {x : Nat × Nat × Reply F}
    (h : x ∈ received s w id reply) : ∃ r, reply = some r ∧ x = (id, w, r) := by
  unfold received at h
  split at h
  · rename_i tk r ht
    split at h
    · exact ⟨r, rfl, List.mem_singleton.mp h⟩
    · cases h
  · cases h

/-- a result is sent, to a client that may be gone -/
theorem Ledger.sent (L : Ledger s) {w id : Nat} {reply : Option (Reply F)} {out : DispatchOutcome}
    {wk : Worker F} {sig : Option (Except AnyError Nat)}
    (hp : (s.workers w).phase = .replying id reply out)
    (ht : t.tickets = (s.setTicket id Ticket.finish).tickets) (hq : t.queue = s.queue)
    (hk : t.takes = s.takes) (hr : t.replies = s.replies ++ received s w id reply)
    (hw : t.workers = Function.update s.workers w ⟨.acting out, wk, sig⟩) : Ledger t := by
  have hmine : s.inHand w = some id := by rw [System.inHand, hp]; rfl
  obtain ⟨htaken, hin⟩ := L.hand w id hmine
  obtain ⟨tk, hg, hres⟩ := L.result w id reply out hp
  have hrec := received_cases w hg hres
  have hst := stageOf_setTicket hg ht
  have hl : s.Later t := later_setTicket Ticket.later_finish ht
  have hended (j : Nat) (hj : s.stageOf j = some .ended ∨ j = id) : t.stageOf j = some .ended := by
    rw [hst]
    by_cases h : j = id
    · rw [if_pos h]
      rfl
    · rw [if_neg h]
      exact hj.resolve_right h
  refine ⟨L.toPlaces.release hmine hst hq hk hw rfl, ?_, ?_, ?_, ?_⟩
  · rw [hr]
    rcases hrec with ⟨he, -⟩ | ⟨r, -, he⟩
    · rw [he, List.append_nil]
      exact L.replies_nodup
    -- no reply to a ticket that has not ended
    · rw [he]
      refine nodup_fst_append L.replies_nodup fun x h => ?_
      have hend := (L.replied id x.1 x.2 h).1
      rw [htaken] at hend
      cases hend
  · intro j k r hm
    rw [hr, List.mem_append] at hm
    rcases hm with hm | hm
    · obtain ⟨hs, hjk⟩ := L.replied j k r hm
      exact ⟨hended j (.inl hs), by rw [hk]; exact hjk⟩
    · rcases hrec with ⟨he, -⟩ | ⟨r', -, he⟩
      · rw [he] at hm
        cases hm
      · rw [he, List.mem_singleton] at hm
        cases hm
        exact ⟨hended id (.inr rfl), by rw [hk]; exact hin⟩
  · intro j k hjk
    rw [hk] at hjk
    rcases L.answered j k hjk with h | ⟨r, h⟩ | ⟨tk', hg', hc⟩
    · by_cases hkw : k = w
      · subst hkw
        rw [hmine] at h
        cases h
        right
        rcases hrec with ⟨-, hc⟩ | ⟨r, -, he⟩
        · obtain ⟨tk', hg', hl'⟩ := hl id tk hg
          exact .inr ⟨tk', hg', hl'.gone hc⟩
        · refine .inl ⟨r, ?_⟩
          rw [hr, he]
          exact List.mem_append_right _ List.mem_cons_self
      · exact .inl (by rw [inHand_other hw hkw]; exact h)
    · refine .inr (.inl ⟨r, ?_⟩)
      rw [hr]
      exact List.mem_append_left _ h
    · obtain ⟨tk'', hg'', hl'⟩ := hl j tk' hg'
      exact .inr (.inr ⟨tk'', hg'', hl'.gone hc⟩)
  · intro k j reply' out' hph
    by_cases h : k = w
    · subst h
      rw [hw, Function.update_self] at hph
      cases hph
    · rw [hw, Function.update_of_ne h] at hph
      obtain ⟨tk', hg', hres'⟩ := L.result k j reply' out' hph
      obtain ⟨tk'', hg'', hl'⟩ := hl j tk' hg'
      exact ⟨tk'', hg'', hres'.later hl'⟩

end
end EmbedServer.Pool
