import EmbedServer.Pool.Rest

/-!
# What a caller of the pool can rely on

* `Kept`, `kept_step`   what no step takes back: a ticket keeps its request, its end and, while its own
                        client stays, its reply channel; what was received and answered stays so;
* `work_submit`         what a new call costs in the measure of `Pool.Rest`.
-/

set_option linter.unusedSectionVars false

namespace EmbedServer.Pool

section
variable {F : Type}

/-- ticket `tk` goes on as `tk'` -/
structure Ticket.Goes (tk tk' : Ticket) (leaves : Prop) : Prop where
  req : tk'.req = tk.req
  ended : tk.stage = .ended → tk'.stage = .ended
  isOpen : ¬leaves → tk'.isOpen = tk.isOpen

theorem Ticket.Goes.refl (tk : Ticket) (leaves : Prop) : tk.Goes tk leaves := ⟨rfl, id, fun _ => rfl⟩

theorem Ticket.Goes.trans {a b c : Ticket} {leaves : Prop} (h : a.Goes b leaves) (h' : b.Goes c leaves) :
    a.Goes c leaves :=
  ⟨h'.req.trans h.req, fun he => h'.ended (h.ended he), fun hl => (h'.isOpen hl).trans (h.isOpen hl)⟩

theorem Ticket.goes_abandon (tk : Ticket) (leaves : Prop) : tk.Goes tk.abandon leaves := by
  obtain ⟨req, stage, isOpen⟩ := tk
  cases stage with
  | sending => exact ⟨rfl, fun _ => rfl, fun _ => rfl⟩
  | queued => exact ⟨rfl, fun _ => rfl, fun _ => rfl⟩
  | taken => exact .refl _ _
  | ended => exact .refl _ _

variable [F32Ops F] (p : Setup)

/-- what no step takes back -/
structure Kept (s : System F) (a : Act F) (t : System F) : Prop where
  tickets : ∀ (id : Nat) (tk : Ticket), s.tickets[id]? = some tk →
    ∃ tk', t.tickets[id]? = some tk' ∧ tk.Goes tk' (a = .disconnect id)
  replies : ∀ x ∈ s.replies, x ∈ t.replies
  takes : ∀ x ∈ s.takes, x ∈ t.takes
  handled : ∀ x ∈ s.handled, x ∈ t.handled
  crashed : ∀ w, s.crashed w → t.crashed w
  ownerless : s.ownerless p = true → t.ownerless p = true

variable {p} {s t u : System F} {a : Act F}

/-- every ticket goes on -/
def AllGo (s t : System F) (a : Act F) : Prop :=
  ∀ (id : Nat) (tk : Ticket), s.tickets[id]? = some tk →
    ∃ tk', t.tickets[id]? = some tk' ∧ tk.Goes tk' (a = .disconnect id)

theorem allGo_same (ht : t.tickets = s.tickets) : AllGo s t a := by
  intro id tk hg
  rw [ht]
  exact ⟨tk, hg, .refl _ _⟩

theorem allGo_setTicket {id : Nat} {f : Ticket → Ticket} (ht : t.tickets = (s.setTicket id f).tickets)
    (hf : ∀ tk, s.tickets[id]? = some tk → tk.Goes (f tk) (a = .disconnect id)) : AllGo s t a := by
  intro j tk hg
  rw [ht, System.setTicket_get, hg]
  by_cases h : id = j
  · subst h
    rw [if_pos rfl]
    exact ⟨f tk, rfl, hf tk hg⟩
  · rw [if_neg h]
    exact ⟨tk, rfl, .refl _ _⟩

theorem allGo_closing (ht : t = u.closeIfLast p) (h : AllGo s u a) : AllGo s t a := by
  rw [ht]
  unfold System.closeIfLast
  split
  · intro id tk hg
    obtain ⟨tk', hg', hgo⟩ := h id tk hg
    have hget : u.closeRx.tickets[id]? = (u.tickets[id]?).map Ticket.abandon := List.getElem?_map ..
    rw [hget, hg']
    exact ⟨_, rfl, hgo.trans (tk'.goes_abandon _)⟩
  · exact h

theorem goes_later {tk : Ticket} {f : Ticket → Ticket} {leaves : Prop} (hr : (f tk).req = tk.req)
    (he : tk.stage = .ended → (f tk).stage = .ended) (ho : (f tk).isOpen = tk.isOpen) :
    tk.Goes (f tk) leaves := ⟨hr, he, fun _ => ho⟩

theorem move_tickets (P : Places s) (h : Move p s a t) : AllGo s t a := by
  cases h with
  | @started w preLoadRss load out sh hp ho =>
    cases out with
    | ready wk delta => exact allGo_same rfl
    | loadFailed e => exact allGo_same rfl
    | refused e => exact allGo_closing rfl (allGo_same rfl)
  | @counted k delta hi =>
    unfold countWorker
    dsimp only
    split
    · exact allGo_same rfl
    · exact allGo_closing rfl (allGo_same rfl)
  | heardError hi hc => exact allGo_closing rfl (allGo_same rfl)
  | joined hi hp => exact allGo_closing rfl (allGo_same rfl)
  | vanished hp => exact allGo_closing rfl (allGo_same rfl)
  | left hp => exact allGo_closing rfl (allGo_same rfl)
  | closed hp hq hh => exact allGo_closing rfl (allGo_same rfl)
  | fatal hp hs ho => exact allGo_closing rfl (allGo_same rfl)
  | @took w id rest hp hq =>
    have hqueued : s.stageOf id = some .queued := (P.queued id).mp (by rw [hq]; exact List.mem_cons_self)
    refine allGo_setTicket (f := Ticket.take) rfl fun tk hg => goes_later rfl (fun he => ?_) rfl
    rw [stageOf_of_get hg, he] at hqueued
    cases hqueued
  | replied hp =>
    exact allGo_setTicket (f := Ticket.finish) rfl fun tk _ => goes_later rfl (fun _ => rfl) rfl
  | @died w id text hp =>
    exact allGo_closing rfl
      (allGo_setTicket (f := Ticket.finish) rfl fun tk _ => goes_later rfl (fun _ => rfl) rfl)
  | submitted hh =>
    intro id tk hg
    exact ⟨tk, (List.getElem?_append_left (List.getElem?_eq_some_iff.mp hg).1).trans hg, .refl _ _⟩
  | @enqueued id tk hg hs =>
    refine allGo_setTicket (f := Ticket.enqueue) rfl fun tk' hg' => goes_later rfl (fun he => ?_) rfl
    rw [hg] at hg'
    cases hg'
    rw [hs] at he
    cases he
  | @disconnected id tk hg hc =>
    refine allGo_setTicket (f := Ticket.disconnect) rfl fun tk' _ => ⟨rfl, fun he => ?_, fun hl => absurd rfl hl⟩
    show (if tk'.stage = .sending then Stage.ended else tk'.stage) = .ended
    rw [he]
    rfl
  | _ => exact allGo_same rfl

theorem haul_histories (h : Haul s u) :
    (∀ x ∈ s.replies, x ∈ u.replies) ∧ (∀ x ∈ s.takes, x ∈ u.takes) ∧ ∀ w, s.crashed w → u.crashed w := by
  cases h with
  | still hw hb =>
    exact ⟨fun x h => by rw [hb.replies]; exact h, fun x h => by rw [hb.takes]; exact h,
      fun w => crashed_of_workers hw⟩
  | thread hw hb hx hh hre =>
    exact ⟨fun x h => by rw [hb.replies]; exact h, fun x h => by rw [hb.takes]; exact h,
      fun w => crashed_update hw hx⟩
  | took hp hq ht hq' hk hr hw =>
    exact ⟨fun x h => by rw [hr]; exact h, fun x h => by rw [hk]; exact List.mem_append_left _ h,
      fun w => crashed_update hw (by rw [hp]; rfl)⟩
  | sent hp ht hq hk hr hw =>
    exact ⟨fun x h => by rw [hr]; exact List.mem_append_left _ h, fun x h => by rw [hk]; exact h,
      fun w => crashed_update hw (by rw [hp]; rfl)⟩
  | lost hp ht hq hk hr hw =>
    exact ⟨fun x h => by rw [hr]; exact h, fun x h => by rw [hk]; exact h,
      fun w => crashed_update hw (by rw [hp]; rfl)⟩
  | submitted ht hq hk hr hw =>
    exact ⟨fun x h => by rw [hr]; exact h, fun x h => by rw [hk]; exact h, fun w => crashed_of_workers hw⟩
  | enqueued hg hs ht hq hk hr hw =>
    exact ⟨fun x h => by rw [hr]; exact h, fun x h => by rw [hk]; exact h, fun w => crashed_of_workers hw⟩
  | disconnected hg hc ht hq hk hr hw =>
    exact ⟨fun x h => by rw [hr]; exact h, fun x h => by rw [hk]; exact h, fun w => crashed_of_workers hw⟩

theorem kept_step (inv : Custody p s) (h : step p s a = some t) : Kept p s a t := by
  have hm := step_cases h
  obtain ⟨u, hu, -, hc⟩ := move_haul inv.toInitInv hm
  obtain ⟨hreplies, htakes, hcrashed⟩ := haul_histories hu
  refine ⟨move_tickets inv.toPlaces hm, ?_, ?_, handled_kept hm, ?_, ownerless_move inv.toInitInv hm⟩
  · rcases hc with ⟨rfl, -⟩ | rfl
    · exact hreplies
    · rw [System.closeIfLast_replies]
      exact hreplies
  · rcases hc with ⟨rfl, -⟩ | rfl
    · exact htakes
    · rw [System.closeIfLast_takes]
      exact htakes
  · rcases hc with ⟨rfl, -⟩ | rfl
    · exact hcrashed
    · exact fun w hw => crashed_of_workers System.closeIfLast_workers (hcrashed w hw)

/-- the pool goes only when its last handle is dropped -/
theorem handle_kept (h : Move p s a t) (ha : a ≠ .dropPool) : t.poolHandle = s.poolHandle := by
  cases h with
  | @started w preLoadRss load out sh hp ho =>
    cases out with
    | ready wk delta => rfl
    | loadFailed e => rfl
    | refused e => exact System.closeIfLast_poolHandle
  | @counted k delta hi =>
    unfold countWorker
    dsimp only
    split
    · rfl
    · exact System.closeIfLast_poolHandle
  | heardError hi hc => exact System.closeIfLast_poolHandle
  | joined hi hp => exact System.closeIfLast_poolHandle
  | vanished hp => exact System.closeIfLast_poolHandle
  | left hp => exact System.closeIfLast_poolHandle
  | closed hp hq hh => exact System.closeIfLast_poolHandle
  | fatal hp hs ho => exact System.closeIfLast_poolHandle
  | died hp => exact System.closeIfLast_poolHandle
  | dropped hh => exact absurd rfl ha
  | _ => rfl

/-- a call, and its ticket -/
theorem submit_eq {req : EmbedRequest} (h : step p s (.submit req) = some t) :
    t = { s with tickets := s.tickets ++ [⟨req, if s.rxOpen then .sending else .ended, true⟩] } := by
  rw [step, submitStep] at h
  split at h
  · cases h
    rfl
  · cases h

theorem work_submit {req : EmbedRequest} (h : step p s (.submit req) = some t) :
    p.work t ≤ p.work s + 13 := by
  rw [submit_eq h]
  have hcalls : System.callWork
      { s with tickets := s.tickets ++ [⟨req, if s.rxOpen then .sending else .ended, true⟩] } ≤
      s.callWork + 13 := by
    unfold System.callWork
    dsimp only
    rw [List.map_append, List.sum_append, List.map_singleton, List.sum_singleton]
    refine Nat.add_le_add_left ?_ _
    cases s.rxOpen
    · exact (by decide : 0 ≤ 13)
    · exact (by decide : 13 ≤ 13)
  have hinit : p.initRank
      { s with tickets := s.tickets ++ [⟨req, if s.rxOpen then .sending else .ended, true⟩] } =
      p.initRank s := rfl
  unfold Setup.work
  rw [hinit]
  dsimp only
  omega

/-- a client that leaves -/
theorem work_disconnect {id : Nat} (h : step p s (.disconnect id) = some t) : p.work t ≤ p.work s := by
  cases step_cases h with
  | @disconnected id tk hg hc =>
    have hcalls := callWork_setTicket (t := s.setTicket id Ticket.disconnect) hg rfl
    have := Ticket.work_disconnect hc
    have hinit : p.initRank (s.setTicket id Ticket.disconnect) = p.initRank s := rfl
    have hle : (s.setTicket id Ticket.disconnect).callWork ≤ s.callWork := by omega
    unfold Setup.work
    rw [hinit]
    exact Nat.add_le_add_right (Nat.add_le_add_left hle _) _

end
end EmbedServer.Pool
