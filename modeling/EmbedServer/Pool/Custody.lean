import EmbedServer.Pool.Books
import EmbedServer.Pool.Hauls
import EmbedServer.Pool.Resolve

/-!
# Requests in every run, panics included

`Pool.Replies` is about runs without a panic.  Here a worker may die on a request at any time.

* `Past`        what became of the requests;
* `Custody`     that, and where each request is, in every run;
* `call_fate`   why a call has ended.
-/

set_option linter.unusedSectionVars false

namespace EmbedServer.Pool

section
variable {F : Type} [F32Ops F] (p : Setup)

/-- the worker panicked -/
def System.crashed (s : System F) (w : Nat) : Prop := ∃ text, (s.workers w).phase = .exited (.panicked text)

/-- what became of the requests -/
structure Past (s : System F) : Prop where
  replies_nodup : (s.replies.map Prod.fst).Nodup
  replied : ∀ id w r, (id, w, r) ∈ s.replies → s.stageOf id = some .ended ∧ (id, w) ∈ s.takes
  result : ∀ w id reply out, (s.workers w).phase = .replying id reply out →
    ∃ t, s.tickets[id]? = some t ∧ Result t reply
  kept : ∀ id w, (id, w) ∈ s.takes → s.inHand w = some id ∨ (∃ r, (id, w, r) ∈ s.replies) ∨
    (∃ t, s.tickets[id]? = some t ∧ t.isOpen = false) ∨ s.crashed w
  unheard : ∀ id t, s.tickets[id]? = some t → t.stage = .ended → t.isOpen = true → s.rxOpen = true →
    ∃ w, (id, w) ∈ s.takes

structure Custody (s : System F) : Prop extends InitInv p s, Places s, Past s, HandledInv p s where
  ownerless : s.ownerless p = true → s.rxOpen = false
  closed : s.rxOpen = false → s.ownerless p = true
  shut : s.rxOpen = false → ∀ id, s.stageOf id ≠ some .sending ∧ s.stageOf id ≠ some .queued

variable {p} {s t u : System F}

/-! ## what became of a request -/

/-- tickets go on, nothing is sent; a worker keeps its ticket, or dies with it -/
theorem Past.later (H : Past s) (ht : s.Later u)
    (he : ∀ id, s.stageOf id = some .ended → u.stageOf id = some .ended) (hr : u.replies = s.replies)
    (hk : ∀ x ∈ s.takes, x ∈ u.takes)
    (hnew : ∀ id w, (id, w) ∈ u.takes → (id, w) ∈ s.takes ∨ u.inHand w = some id)
    (hh : ∀ w id, s.inHand w = some id → u.inHand w = some id ∨ u.crashed w)
    (hx : ∀ w, s.crashed w → u.crashed w)
    (hre : ∀ w id reply out, (u.workers w).phase = .replying id reply out →
      ∃ tk, s.tickets[id]? = some tk ∧ Result tk reply)
    (hun : ∀ id tk, u.tickets[id]? = some tk → tk.stage = .ended → tk.isOpen = true → u.rxOpen = true →
      ∃ w, (id, w) ∈ u.takes) : Past u := by
  refine ⟨by rw [hr]; exact H.replies_nodup, fun id w r h => ?_, fun w id reply out hp => ?_,
    fun id w h => ?_, hun⟩
  · rw [hr] at h
    obtain ⟨hend, hin⟩ := H.replied id w r h
    exact ⟨he id hend, hk _ hin⟩
  · obtain ⟨tk, hg, hres⟩ := hre w id reply out hp
    obtain ⟨tk', hg', hl⟩ := ht id tk hg
    exact ⟨tk', hg', hres.later hl⟩
  · rcases hnew id w h with h | h
    · rcases H.kept id w h with h | h | ⟨tk, hg, ho⟩ | h
      · rcases hh w id h with h | h
        · exact .inl h
        · exact .inr (.inr (.inr h))
      · rw [hr]
        exact .inr (.inl h)
      · obtain ⟨tk', hg', hl⟩ := ht id tk hg
        exact .inr (.inr (.inl ⟨tk', hg', hl.gone ho⟩))
      · exact .inr (.inr (.inr (hx w h)))
    · exact .inl h

/-- an ended ticket with a client is one of before, or one that was received, or the receiver is gone -/
theorem Past.unheard_of (H : Past s) (hrx : u.rxOpen = s.rxOpen) (hk : ∀ x ∈ s.takes, x ∈ u.takes)
    (hold : ∀ id tk, u.tickets[id]? = some tk → tk.stage = .ended → tk.isOpen = true →
      s.tickets[id]? = some tk ∨ (∃ w, (id, w) ∈ s.takes) ∨ s.rxOpen = false) (id : Nat) (tk : Ticket)
    (hg : u.tickets[id]? = some tk) (hs : tk.stage = .ended) (ho : tk.isOpen = true)
    (hopen : u.rxOpen = true) : ∃ w, (id, w) ∈ u.takes := by
  rw [hrx] at hopen
  rcases hold id tk hg hs ho with h | ⟨w, h⟩ | h
  · obtain ⟨w, hw⟩ := H.unheard id tk h hs ho hopen
    exact ⟨w, hk _ hw⟩
  · exact ⟨w, hk _ h⟩
  · rw [hopen] at h
    cases h

/-- a ticket after a change of one -/
theorem setTicket_cases {id j : Nat} {f : Ticket → Ticket} {tk : Ticket}
    (ht : u.tickets = (s.setTicket id f).tickets) (hg : u.tickets[j]? = some tk) :
    s.tickets[j]? = some tk ∨ j = id ∧ ∃ tk', s.tickets[id]? = some tk' ∧ f tk' = tk := by
  rw [ht, System.setTicket_get] at hg
  by_cases h : id = j
  · subst h
    rw [if_pos rfl] at hg
    obtain ⟨tk', hg', rfl⟩ := Option.map_eq_some_iff.mp hg
    exact .inr ⟨rfl, tk', hg', rfl⟩
  · rw [if_neg h] at hg
    exact .inl hg

theorem crashed_of_workers (hw : u.workers = s.workers) {w : Nat} (h : s.crashed w) : u.crashed w := by
  unfold System.crashed
  rw [hw]
  exact h

/-- a thread that has not ended moves -/
theorem crashed_update {w k : Nat} {th : Thread F} (hw : u.workers = Function.update s.workers w th)
    (hx : (s.workers w).phase.isExited = false) (h : s.crashed k) : u.crashed k := by
  obtain ⟨text, hp⟩ := h
  have hk : k ≠ w := by
    rintro rfl
    rw [hp] at hx
    cases hx
  refine ⟨text, ?_⟩
  rw [hw, Function.update_of_ne hk]
  exact hp

theorem result_update {w : Nat} {th : Thread F} (H : Past s)
    (hw : u.workers = Function.update s.workers w th)
    (hre : ∀ id reply out, th.phase = .replying id reply out →
      ∃ tk, s.tickets[id]? = some tk ∧ Result tk reply) (k id : Nat) (reply : Option (Reply F))
    (out : DispatchOutcome) (hp : (u.workers k).phase = .replying id reply out) :
    ∃ tk, s.tickets[id]? = some tk ∧ Result tk reply := by
  by_cases h : k = w
  · subst h
    rw [hw, Function.update_self] at hp
    exact hre id reply out hp
  · rw [hw, Function.update_of_ne h] at hp
    exact H.result k id reply out hp

theorem later_of_tickets (ht : u.tickets = s.tickets) : s.Later u := by
  intro id tk hg
  rw [ht]
  exact ⟨tk, hg, .refl tk⟩

/-- nothing moves but one thread, which keeps its ticket -/
theorem Past.thread (H : Past s) {w : Nat} {th : Thread F}
    (hw : u.workers = Function.update s.workers w th) (hb : SameBooks s u) (hrx : u.rxOpen = s.rxOpen)
    (hx : (s.workers w).phase.isExited = false) (hh : th.phase.handling = (s.workers w).phase.handling)
    (hre : ∀ id reply out, th.phase = .replying id reply out →
      ∃ tk, s.tickets[id]? = some tk ∧ Result tk reply) : Past u := by
  have htk : ∀ x ∈ s.takes, x ∈ u.takes := fun x h => by rw [hb.takes]; exact h
  refine H.later (later_of_tickets hb.tickets) (fun id h => by rw [hb.stageOf]; exact h) hb.replies htk
    (fun id k h => .inl (by rw [← hb.takes]; exact h)) (fun k id h => .inl ?_)
    (fun k => crashed_update hw hx) (result_update H hw hre) (H.unheard_of hrx htk ?_)
  · by_cases hk : k = w
    · subst hk
      rw [inHand_same hw, hh]
      exact h
    · rw [inHand_other hw hk]
      exact h
  · intro id tk hg _ _
    rw [hb.tickets] at hg
    exact .inl hg

/-- a client moves -/
theorem Past.client (H : Past s) (hl : s.Later u)
    (he : ∀ id, s.stageOf id = some .ended → u.stageOf id = some .ended) (hk : u.takes = s.takes)
    (hr : u.replies = s.replies) (hw : u.workers = s.workers) (hrx : u.rxOpen = s.rxOpen)
    (hold : ∀ id tk, u.tickets[id]? = some tk → tk.stage = .ended → tk.isOpen = true →
      s.tickets[id]? = some tk ∨ (∃ w, (id, w) ∈ s.takes) ∨ s.rxOpen = false) : Past u := by
  have htk : ∀ x ∈ s.takes, x ∈ u.takes := fun x h => by rw [hk]; exact h
  refine H.later hl he hr htk (fun id k h => .inl (by rw [← hk]; exact h)) (fun k id h => .inl ?_)
    (fun k => crashed_of_workers hw) (fun k id reply out hp => ?_) (H.unheard_of hrx htk hold)
  · rw [System.inHand, hw]
    exact h
  · rw [hw] at hp
    exact H.result k id reply out hp

/-- an ended ticket is not the one that moves -/
theorem ended_setTicket {id j : Nat} {tk : Ticket} {f : Ticket → Ticket} (hg : s.tickets[id]? = some tk)
    (ht : u.tickets = (s.setTicket id f).tickets) (hf : tk.stage = .ended → (f tk).stage = .ended)
    (h : s.stageOf j = some .ended) : u.stageOf j = some .ended := by
  rw [stageOf_setTicket hg ht]
  by_cases hj : j = id
  · subst hj
    rw [if_pos rfl, hf]
    rw [stageOf_of_get hg] at h
    exact Option.some.inj h
  · rw [if_neg hj]
    exact h

theorem Past.took (H : Past s) (P : Places s) {w id : Nat} {rest : List Nat} {wk : Worker F}
    {sig : Option (Except AnyError Nat)} (hp : (s.workers w).phase = .receiving) (hq : s.queue = id :: rest)
    (ht : u.tickets = (s.setTicket id Ticket.take).tickets) (hk : u.takes = s.takes ++ [(id, w)])
    (hr : u.replies = s.replies) (hrx : u.rxOpen = s.rxOpen)
    (hw : u.workers = Function.update s.workers w ⟨.took id, wk, sig⟩) : Past u := by
  have hqueued : s.stageOf id = some .queued := (P.queued id).mp (by rw [hq]; exact List.mem_cons_self)
  obtain ⟨tk, hg, hstage⟩ := stageOf_some hqueued
  have htk : ∀ x ∈ s.takes, x ∈ u.takes := fun x h => by rw [hk]; exact List.mem_append_left _ h
  refine H.later (later_setTicket Ticket.later_take ht) (fun j => ended_setTicket hg ht fun h => ?_) hr htk
    (fun j k h => ?_) (fun k j h => .inl ?_) (fun k => crashed_update hw (by rw [hp]; rfl))
    (result_update H hw fun _ _ _ h => by cases h) (H.unheard_of hrx htk fun j tk' hg' hs _ => ?_)
  · rw [hstage] at h
    cases h
  · rw [hk, List.mem_append, List.mem_singleton] at h
    rcases h with h | h
    · exact .inl h
    · cases h
      exact .inr (inHand_same hw)
  · by_cases hkw : k = w
    · subst hkw
      rw [System.inHand, hp] at h
      cases h
    · rw [inHand_other hw hkw]
      exact h
  · rcases setTicket_cases ht hg' with h | ⟨rfl, tk'', -, rfl⟩
    · exact .inl h
    · cases hs

/-- a worker is through with its ticket: the ticket was received, and ends -/
theorem Past.ended (H : Past s) (P : Places s) {w id : Nat} (hmine : s.inHand w = some id)
    (ht : u.tickets = (s.setTicket id Ticket.finish).tickets) (hk : u.takes = s.takes)
    (hrx : u.rxOpen = s.rxOpen) (j : Nat) (tk : Ticket) (hg : u.tickets[j]? = some tk)
    (hs : tk.stage = .ended) (ho : tk.isOpen = true) (hopen : u.rxOpen = true) :
    ∃ k, (j, k) ∈ u.takes := by
  refine H.unheard_of hrx (fun x h => by rw [hk]; exact h) (fun j tk hg _ _ => ?_) j tk hg hs ho hopen
  rcases setTicket_cases ht hg with h | ⟨rfl, -⟩
  · exact .inl h
  · exact .inr (.inl ⟨w, (P.hand w _ hmine).2⟩)

theorem Past.lost (H : Past s) (P : Places s) {w id : Nat} {text : String} {wk : Worker F}
    {sig : Option (Except AnyError Nat)} (hp : (s.workers w).phase = .unwinding id text)
    (ht : u.tickets = (s.setTicket id Ticket.finish).tickets) (hk : u.takes = s.takes)
    (hr : u.replies = s.replies) (hrx : u.rxOpen = s.rxOpen)
    (hw : u.workers = Function.update s.workers w ⟨.exited (.panicked text), wk, sig⟩) : Past u := by
  have hmine : s.inHand w = some id := by rw [System.inHand, hp]; rfl
  obtain ⟨tk, hg, -⟩ := P.ticket hmine
  refine H.later (later_setTicket Ticket.later_finish ht) (fun j => ended_setTicket hg ht fun _ => rfl) hr
    (fun x h => by rw [hk]; exact h) (fun j k h => .inl (by rw [← hk]; exact h)) (fun k j h => ?_)
    (fun k => crashed_update hw (by rw [hp]; rfl)) (result_update H hw fun _ _ _ h => by cases h)
    (H.ended P hmine ht hk hrx)
  by_cases hkw : k = w
  · subst hkw
    exact .inr ⟨text, by rw [hw, Function.update_self]⟩
  · rw [inHand_other hw hkw]
    exact .inl h

theorem Past.sent (H : Past s) (P : Places s) {w id : Nat} {reply : Option (Reply F)}
    {out : DispatchOutcome} {wk : Worker F} {sig : Option (Except AnyError Nat)}
    (hp : (s.workers w).phase = .replying id reply out)
    (ht : u.tickets = (s.setTicket id Ticket.finish).tickets) (hk : u.takes = s.takes)
    (hr : u.replies = s.replies ++ received s w id reply) (hrx : u.rxOpen = s.rxOpen)
    (hw : u.workers = Function.update s.workers w ⟨.acting out, wk, sig⟩) : Past u := by
  have hmine : s.inHand w = some id := by rw [System.inHand, hp]; rfl
  obtain ⟨htaken, hin⟩ := P.hand w id hmine
  obtain ⟨tk, hg, hres⟩ := H.result w id reply out hp
  have hrec := received_cases w hg hres
  have hl : s.Later u := later_setTicket Ticket.later_finish ht
  have hend (j : Nat) (h : s.stageOf j = some .ended) : u.stageOf j = some .ended :=
    ended_setTicket hg ht (fun _ => rfl) h
  have hidend : u.stageOf id = some .ended := by
    rw [stageOf_setTicket hg ht, if_pos rfl]
    rfl
  refine ⟨?_, fun j k r hjk => ?_, fun k j reply' out' hph => ?_, fun j k hjk => ?_,
    H.ended P hmine ht hk hrx⟩
  · rw [hr]
    rcases hrec with ⟨h, -⟩ | ⟨r, -, h⟩
    · rw [h, List.append_nil]
      exact H.replies_nodup
    · rw [h]
      refine nodup_fst_append H.replies_nodup ?_
      -- a ticket in hand has not ended
      rintro ⟨k, r'⟩ hkr
      have := (H.replied id k r' hkr).1
      rw [htaken] at this
      cases this
  · rw [hr, List.mem_append] at hjk
    rcases hjk with hjk | hjk
    · obtain ⟨he, hin'⟩ := H.replied j k r hjk
      exact ⟨hend j he, by rw [hk]; exact hin'⟩
    · rcases hrec with ⟨h, -⟩ | ⟨r', -, h⟩
      · rw [h] at hjk
        cases hjk
      · rw [h, List.mem_singleton] at hjk
        cases hjk
        exact ⟨hidend, by rw [hk]; exact hin⟩
  · obtain ⟨tk', hg', hres'⟩ := result_update H hw (fun _ _ _ h => by cases h) k j reply' out' hph
    obtain ⟨tk'', hg'', hl'⟩ := hl j tk' hg'
    exact ⟨tk'', hg'', hres'.later hl'⟩
  · rw [hk] at hjk
    have hmem (r : Reply F) (h : (j, k, r) ∈ s.replies) : (j, k, r) ∈ u.replies := by
      rw [hr]
      exact List.mem_append_left _ h
    rcases H.kept j k hjk with h | ⟨r, h⟩ | ⟨tk', hg', ho⟩ | h
    · by_cases hkw : k = w
      · subst hkw
        rw [hmine] at h
        cases h
        rcases hrec with ⟨-, ho⟩ | ⟨r, -, h⟩
        · obtain ⟨tk', hg', hl'⟩ := hl id tk hg
          exact .inr (.inr (.inl ⟨tk', hg', hl'.gone ho⟩))
        · refine .inr (.inl ⟨r, ?_⟩)
          rw [hr, h]
          exact List.mem_append_right _ List.mem_cons_self
      · rw [inHand_other hw hkw]
        exact .inl h
    · exact .inr (.inl ⟨r, hmem r h⟩)
    · obtain ⟨tk'', hg'', hl'⟩ := hl j tk' hg'
      exact .inr (.inr (.inl ⟨tk'', hg'', hl'.gone ho⟩))
    · exact .inr (.inr (.inr (crashed_update hw (by rw [hp]; rfl) h)))

theorem Past.submitted (H : Past s) {req : EmbedRequest}
    (ht : u.tickets = s.tickets ++ [⟨req, if s.rxOpen then .sending else .ended, true⟩])
    (hk : u.takes = s.takes) (hr : u.replies = s.replies) (hw : u.workers = s.workers)
    (hrx : u.rxOpen = s.rxOpen) : Past u := by
  refine H.client (fun j tk hg => ⟨tk, ?_, .refl tk⟩) (fun j h => ?_) hk hr hw hrx fun j tk hg hs _ => ?_
  · rw [ht]
    exact (List.getElem?_append_left (List.getElem?_eq_some_iff.mp hg).1).trans hg
  · rw [stageOf_submitted ht, if_neg ?_]
    · exact h
    · rintro rfl
      rw [stageOf_new] at h
      cases h
  · by_cases hj : j < s.tickets.length
    · rw [ht, List.getElem?_append_left hj] at hg
      exact .inl hg
    · -- the new one
      have hst := stageOf_submitted ht j
      rw [stageOf_of_get hg] at hst
      by_cases hjl : j = s.tickets.length
      · rw [if_pos hjl] at hst
        have hst := (Option.some.inj hst).symm.trans hs
        dsimp only at hst
        split at hst
        · cases hst
        · rename_i hclosed
          exact .inr (.inr (by simpa using hclosed))
      · rw [if_neg hjl, System.stageOf, List.getElem?_eq_none (by omega)] at hst
        cases hst

theorem Haul.past (h : Haul s u) (P : Places s) (H : Past s) (hrx : u.rxOpen = s.rxOpen) : Past u := by
  cases h with
  | still hw hb =>
    refine H.client (later_of_tickets hb.tickets) (fun id h => by rw [hb.stageOf]; exact h) hb.takes
      hb.replies hw hrx fun id tk hg _ _ => ?_
    rw [hb.tickets] at hg
    exact .inl hg
  | thread hw hb hx hh hre => exact H.thread hw hb hrx hx hh hre
  | took hp hq ht hq' hk hr hw => exact H.took P hp hq ht hk hr hrx hw
  | sent hp ht hq hk hr hw => exact H.sent P hp ht hk hr hrx hw
  | lost hp ht hq hk hr hw => exact H.lost P hp ht hk hr hrx hw
  | submitted ht hq hk hr hw => exact H.submitted ht hk hr hw hrx
  | @enqueued id tk hg hs ht hq hk hr hw =>
    refine H.client (later_setTicket Ticket.later_enqueue ht) (fun j => ended_setTicket hg ht fun h => ?_)
      hk hr hw hrx fun j tk' hg' hs' _ => ?_
    · rw [hs] at h
      cases h
    · rcases setTicket_cases ht hg' with h | ⟨-, tk'', -, rfl⟩
      · exact .inl h
      · cases hs'
  | @disconnected id tk hg hc ht hq hk hr hw =>
    refine H.client (later_setTicket Ticket.later_disconnect ht)
      (fun j => ended_setTicket hg ht fun h => ?_) hk hr hw hrx fun j tk' hg' _ ho => ?_
    · show (if tk.stage = .sending then Stage.ended else tk.stage) = .ended
      rw [h]
      rfl
    · rcases setTicket_cases ht hg' with h | ⟨-, tk'', -, rfl⟩
      · exact .inl h
      · cases ho

theorem Past.closeRx (H : Past s) : Past s.closeRx := by
  have hget (id : Nat) : s.closeRx.tickets[id]? = (s.tickets[id]?).map Ticket.abandon :=
    List.getElem?_map ..
  refine H.later (fun id tk hg => ?_) (fun _ => stageOf_closeRx_ended) rfl (fun _ h => h)
    (fun _ _ h => .inl h) (fun _ _ h => .inl h) (fun _ => crashed_of_workers rfl) H.result
    fun _ _ _ _ _ h => by cases h
  rw [hget, hg]
  exact ⟨_, rfl, tk.later_abandon⟩

/-! ## every run -/

/-- before the receiver is gone no step of a haul shuts anything -/
theorem Haul.shut (h : Haul s u) (hrx : u.rxOpen = s.rxOpen) (P : Places s)
    (hs : s.rxOpen = false → ∀ id, s.stageOf id ≠ some .sending ∧ s.stageOf id ≠ some .queued)
    (hu : u.rxOpen = false) (id : Nat) : u.stageOf id ≠ some .sending ∧ u.stageOf id ≠ some .queued := by
  rw [hrx] at hu
  have hs := hs hu
  -- a ticket that moves to a later stage
  have moved {j : Nat} {st : Stage} (hne : st ≠ .sending ∧ st ≠ .queued)
      (hst : u.stageOf id = if id = j then some st else s.stageOf id) :
      u.stageOf id ≠ some .sending ∧ u.stageOf id ≠ some .queued := by
    rw [hst]
    by_cases h : id = j
    · rw [if_pos h]
      exact ⟨fun h => hne.1 (Option.some.inj h), fun h => hne.2 (Option.some.inj h)⟩
    · rw [if_neg h]
      exact hs id
  cases h with
  | still hw hb => rw [hb.stageOf]; exact hs id
  | thread hw hb hx hh hre => rw [hb.stageOf]; exact hs id
  | @took w j rest wk sig hp hq ht hq' hk hr hw =>
    have hqueued : s.stageOf j = some .queued := (P.queued j).mp (by rw [hq]; exact List.mem_cons_self)
    exact absurd hqueued (hs j).2
  | @sent w j reply out wk sig hp ht hq hk hr hw =>
    obtain ⟨tk, hg, -⟩ := P.ticket (show s.inHand w = some j by rw [System.inHand, hp]; rfl)
    exact moved (show Stage.ended ≠ .sending ∧ Stage.ended ≠ .queued by decide) (stageOf_setTicket hg ht id)
  | @lost w j text wk sig hp ht hq hk hr hw =>
    obtain ⟨tk, hg, -⟩ := P.ticket (show s.inHand w = some j by rw [System.inHand, hp]; rfl)
    exact moved (show Stage.ended ≠ .sending ∧ Stage.ended ≠ .queued by decide) (stageOf_setTicket hg ht id)
  | submitted ht hq hk hr hw =>
    refine moved ?_ (stageOf_submitted ht id)
    rw [hu]
    show Stage.ended ≠ .sending ∧ Stage.ended ≠ .queued
    decide
  | @enqueued j tk hg hst ht hq hk hr hw =>
    exact absurd ((stageOf_of_get hg).trans (congrArg some hst)) (hs j).1
  | @disconnected j tk hg hc ht hq hk hr hw =>
    by_cases hst : tk.stage = .sending
    · exact absurd ((stageOf_of_get hg).trans (congrArg some hst)) (hs j).1
    · rw [stageOf_disconnected hg hst ht]
      exact hs id

/-- a thread that is gone stays so -/
theorem Onward.gone {th th' : Thread F} (h : Onward th th') (hg : th.phase.gone = true) : th' = th := by
  cases h with
  | same he => exact he
  | loop hl _ _ =>
    rw [Phase.inLoop_present hl] at hg
    cases hg
  | exit hb _ _ => rcases hb with hb | ⟨e, hb⟩ <;> rw [hb] at hg <;> cases hg

theorem ownerless_done (h : s.ownerless p = true) : s.init.isDone = true := by
  unfold System.ownerless at h
  rw [Bool.and_eq_true] at h
  exact h.1

theorem ownerless_gone (h : s.ownerless p = true) {w : Nat} (hw : w < p.n) :
    (s.workers w).phase.gone = true := by
  unfold System.ownerless at h
  rw [Bool.and_eq_true, List.all_eq_true] at h
  exact h.2 w (List.mem_range.mpr hw)

/-- nobody gets hold of the receiver again -/
theorem ownerless_move {a : Act F} (inv : InitInv p s) (h : Move p s a t) (ho : s.ownerless p = true) : t.ownerless p = true := by
  have hd := ownerless_done ho
  by_cases ha : a = .init
  · subst ha
    rw [not_done_of_init h] at hd
    cases hd
  -- nobody is in startup
  have idle {w : Nat} (hp : (s.workers w).phase = .starting) : False := by
    have := ownerless_gone ho (inv.starting hp).2.2.1
    rw [hp] at this
    cases this
  have he := move_effect h ha
  cases he with
  | ready hp _ _ _ _ _ => exact (idle hp).elim
  | failed hp _ _ _ _ _ _ => exact (idle hp).elim
  | other hi _ _ hw =>
    unfold System.ownerless
    rw [hi, hd, Bool.true_and, List.all_eq_true]
    intro k hk
    have hg := ownerless_gone ho (List.mem_range.mp hk)
    rw [(hw k).gone hg]
    exact hg

theorem custody_closeIfLast (hinv : InitInv p (u.closeIfLast p)) (P : Places u) (H : Past u)
    (hlog : HandledInv p (u.closeIfLast p))
    (hclosed : u.rxOpen = false → (u.closeIfLast p).ownerless p = true)
    (hshut : u.rxOpen = false → ∀ id, u.stageOf id ≠ some .sending ∧ u.stageOf id ≠ some .queued) :
    Custody p (u.closeIfLast p) := by
  have hcl : u.closeIfLast p = if u.ownerless p then u.closeRx else u := rfl
  cases ho : u.ownerless p with
  | true =>
    rw [ho, if_pos rfl] at hcl
    rw [hcl] at hinv hlog ⊢
    refine ⟨hinv, P.closeRx, H.closeRx, hlog, fun _ => rfl, fun _ => ho, fun _ id => ?_⟩
    rw [stageOf_closeRx]
    cases u.stageOf id with
    | none => exact ⟨by decide, by decide⟩
    | some st => cases st <;> decide
  | false =>
    rw [ho, if_neg (by decide)] at hcl
    rw [hcl] at hinv hlog hclosed ⊢
    refine ⟨hinv, P, H, hlog, fun h => ?_, hclosed, hshut⟩
    rw [ho] at h
    cases h

theorem custody_step {a : Act F} (inv : Custody p s) (h : step p s a = some t) : Custody p t := by
  have hinv := initInv_move inv.toInitInv (step_cases h)
  obtain ⟨u, hu, hrx, hc⟩ := move_haul inv.toInitInv (step_cases h)
  have hP := hu.places inv.toPlaces
  have hH := hu.past inv.toPlaces inv.toPast hrx
  have hlog := handledInv_move inv.toPlaces inv.toHandledInv (step_cases h)
  have hshut := hu.shut hrx inv.toPlaces inv.shut
  have hclosed (hf : u.rxOpen = false) : t.ownerless p = true :=
    ownerless_move inv.toInitInv (step_cases h) (inv.closed (hrx.symm.trans hf))
  rcases hc with ⟨rfl, ho⟩ | rfl
  · exact ⟨hinv, hP, hH, hlog, fun h => hrx.trans (inv.ownerless (ho h)), hclosed, hshut⟩
  · exact custody_closeIfLast hinv hP hH hlog hclosed hshut

theorem custody_start (ceiling : Nat) : Custody p (start p ceiling : System F) := by
  have R : ReplyInv p (start p ceiling : System F) := replyInv_start ceiling
  exact ⟨R.toInitInv, R.toPlaces, ⟨R.replies_nodup, R.replied, R.result, (fun id w h => by cases h),
    (fun id tk h => by cases h)⟩, handledInv_start ceiling, R.ownerless, (fun h => by cases h), R.shut⟩

theorem reach_custody {C : System F → Act F → Prop} {ceiling : Nat}
    (h : Reach (step p) C (start p ceiling) s) : Custody p s :=
  h.invariant (custody_start ceiling) fun _ _ _ inv _ hs => custody_step inv hs

/-- a call that ended with its client there was answered, or lost -/
theorem Custody.fate (inv : Custody p s) {id : Nat} {tk : Ticket} (hg : s.tickets[id]? = some tk)
    (hs : tk.stage = .ended) (ho : tk.isOpen = true) :
    (∃ w r, (id, w, r) ∈ s.replies) ∨ (∃ w, (id, w) ∈ s.takes ∧ s.crashed w) ∨
      s.ownerless p = true ∧ ∀ w, (id, w) ∉ s.takes := by
  by_cases htaken : ∃ w, (id, w) ∈ s.takes
  · obtain ⟨w, hw⟩ := htaken
    rcases inv.kept id w hw with h | ⟨r, h⟩ | ⟨tk', hg', ho'⟩ | h
    · have := (inv.hand w id h).1
      rw [stageOf_of_get hg, hs] at this
      cases this
    · exact .inl ⟨w, r, h⟩
    · rw [hg] at hg'
      cases hg'
      rw [ho] at ho'
      cases ho'
    · exact .inr (.inl ⟨w, hw, h⟩)
  · refine .inr (.inr ⟨?_, fun w hw => htaken ⟨w, hw⟩⟩)
    cases hrx : s.rxOpen with
    | false => exact inv.closed hrx
    | true => exact absurd (inv.unheard id tk hg hs ho hrx) htaken

/-- **Why a call ended.**  Whatever the workers do, panics included: a call is received by at most one
worker, which turns to it at most once, and answered at most once, by that worker and with a reply made for
its own request: what `dispatch_request` returns for it on the models, the session and the counters the worker
had when it turned to this call, or the error of the reload it tried then, and nothing else.  If the call
ended while its client was waiting, then it was answered, or its worker panicked on it, or it was never
received, and the init task and every thread have ended. -/
theorem call_fate (ceiling : Nat) (h : Reachable (step p) (start p ceiling) s) :
    (s.takes.map Prod.fst).Nodup ∧ (s.handled.map Prod.fst).Nodup ∧ (s.replies.map Prod.fst).Nodup ∧
    (∀ id w x, (id, w, x) ∈ s.handled → (id, w) ∈ s.takes ∧
      ∃ v, Reachable (step p) (start p ceiling) v ∧ Reachable (step p) v s ∧ v.TurnsTo p id w x) ∧
    (∀ id w r, (id, w, r) ∈ s.replies → (id, w) ∈ s.takes ∧
      ∃ t, s.tickets[id]? = some t ∧ t.stage = .ended ∧ Answers p s.handled id w t.req r ∧
        ∀ r', Answers p s.handled id w t.req r' → r' = r) ∧
    ∀ id t, s.tickets[id]? = some t → t.stage = .ended → t.isOpen = true →
      (∃ w r, (id, w, r) ∈ s.replies) ∨ (∃ w, (id, w) ∈ s.takes ∧ s.crashed w) ∨
        s.ownerless p = true ∧ ∀ w, (id, w) ∉ s.takes := by
  have inv := reach_custody h
  refine ⟨inv.takes_nodup, inv.once, inv.replies_nodup,
    fun id w x hx => ⟨inv.mine id w x hx, handled_origin h hx⟩, fun id w r hr => ?_,
    fun id t hg hs ho => inv.fate hg hs ho⟩
  obtain ⟨hend, hin⟩ := inv.replied id w r hr
  obtain ⟨t, hg, ha⟩ := inv.sent id w r hr
  rw [stageOf_of_get hg] at hend
  exact ⟨hin, t, hg, Option.some.inj hend, ha, fun r' ha' => ha.unique inv.once ha'⟩

end

/-- a session without any output: the first access panics -/
def muteModels : Models Int := { echoModels with session := ⟨fun _ _ => ⟨.ok fun _ => none, 0⟩⟩ }

/-- the worker dies on the first of two requests, and the second is never received -/
theorem call_fate_panic : ∃ s : System Int, Reachable (step cpuSolo) (start cpuSolo 0) s ∧
    s.replies = [] ∧ (∃ w, (0, w) ∈ s.takes ∧ s.crashed w) ∧
    s.ownerless cpuSolo = true ∧ ∀ w, (1, w) ∉ s.takes := by
  have hrun : ∃ s : System Int, Reachable (step cpuSolo) (start cpuSolo 0) s ∧ s.takes = [(0, 0)] ∧
      s.replies.length = 0 ∧ s.tickets = [⟨.dense ["a"], .ended, true⟩, ⟨.dense ["b"], .ended, true⟩] :=
    Reach.exists_of_run [.init, .startup 0 0 (.ok muteModels), .init, .init, .submit (.dense ["a"]),
      .submit (.dense ["b"]), .enqueue 0, .drain 0 [], .lock 0, .recv 0, .load 0 (.error ""),
      .dispatch 0 ⟨⟨1, 1, 2⟩, true⟩, .die 0] (fun _ _ _ => trivial) (by decide +kernel)
  obtain ⟨s, hr, htakes, hreplies, htk⟩ := hrun
  have hnone : s.replies = [] := List.eq_nil_of_length_eq_zero hreplies
  obtain ⟨-, -, -, -, -, hfate⟩ := call_fate 0 hr
  refine ⟨s, hr, hnone, ?_, ?_⟩
  · rcases hfate 0 _ (by rw [htk]; rfl) rfl rfl with ⟨w, r, h⟩ | h | ⟨-, h⟩
    · rw [hnone] at h
      cases h
    · exact h
    · exact absurd (by rw [htakes]; exact List.mem_cons_self) (h 0)
  · rcases hfate 1 _ (by rw [htk]; rfl) rfl rfl with ⟨w, r, h⟩ | ⟨w, h, -⟩ | h
    · rw [hnone] at h
      cases h
    · rw [htakes] at h
      simp at h
    · exact h

end EmbedServer.Pool
