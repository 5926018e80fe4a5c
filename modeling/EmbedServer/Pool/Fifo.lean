import EmbedServer.Pool.Custody

/-!
# The request channel is first in, first out, and bounded

* `System.arrivals`   the tickets in the order in which they came into the channel;
* `Onwards`           how that order goes on along a run;
* `channel_fifo`      a request with `i` requests before it is the one received after these.
-/

set_option linter.unusedSectionVars false

namespace EmbedServer.Pool

section
variable {F : Type}

/-- received, then still in the channel -/
def System.arrivals (s : System F) : List Nat := s.takes.map Prod.fst ++ s.queue

/-- from `s` to `t`; `lost` went with the receiver -/
structure Onwards (s t : System F) (lost : List Nat) : Prop where
  order : s.arrivals <+: t.arrivals ++ lost
  nodup : (t.arrivals ++ lost).Nodup
  kept : t.rxOpen = true → lost = []

variable [F32Ops F] {p : Setup} {s t u : System F}

theorem Places.arrivals_nodup (P : Places s) : s.arrivals.Nodup := by
  unfold System.arrivals
  rw [List.nodup_append]
  refine ⟨P.takes_nodup, P.queue_nodup, ?_⟩
  rintro id hid _ hq rfl
  obtain ⟨⟨id, w⟩, hin, rfl⟩ := List.mem_map.mp hid
  exact P.untaken ((P.queued _).mp hq) w hin

/-- a step lengthens the order at its end at most -/
theorem Haul.arrivals (h : Haul s u) : s.arrivals <+: u.arrivals := by
  unfold System.arrivals
  cases h with
  | still hw hb => rw [hb.takes, hb.queue]
  | thread hw hb hx hh hre => rw [hb.takes, hb.queue]
  | took hp hq ht hq' hk hr hw =>
    rw [hk, hq', hq, List.map_append, List.append_assoc]
    exact List.prefix_refl _
  | sent hp ht hq hk hr hw => rw [hq, hk]
  | lost hp ht hq hk hr hw => rw [hq, hk]
  | submitted ht hq hk hr hw => rw [hq, hk]
  | enqueued hg hs ht hq hk hr hw =>
    rw [hq, hk, ← List.append_assoc]
    exact List.prefix_append _ _
  | disconnected hg hc ht hq hk hr hw => rw [hq, hk]

/-- once the receiver is gone nothing comes and nothing goes -/
theorem Haul.arrivals_shut (h : Haul s u) (P : Places s)
    (hs : ∀ id, s.stageOf id ≠ some .sending ∧ s.stageOf id ≠ some .queued) :
    u.arrivals = s.arrivals := by
  unfold System.arrivals
  cases h with
  | still hw hb => rw [hb.takes, hb.queue]
  | thread hw hb hx hh hre => rw [hb.takes, hb.queue]
  | @took w id rest wk sig hp hq ht hq' hk hr hw =>
    exact absurd ((P.queued id).mp (by rw [hq]; exact List.mem_cons_self)) (hs id).2
  | sent hp ht hq hk hr hw => rw [hq, hk]
  | lost hp ht hq hk hr hw => rw [hq, hk]
  | submitted ht hq hk hr hw => rw [hq, hk]
  | @enqueued id tk hg hst ht hq hk hr hw =>
    exact absurd ((stageOf_of_get hg).trans (congrArg some hst)) (hs id).1
  | disconnected hg hc ht hq hk hr hw => rw [hq, hk]

theorem arrivals_closeIfLast (u : System F) :
    u.closeIfLast p = u ∨
      (u.closeIfLast p).arrivals ++ u.queue = u.arrivals ∧ (u.closeIfLast p).rxOpen = false := by
  unfold System.closeIfLast
  split
  · right
    refine ⟨?_, rfl⟩
    unfold System.arrivals System.closeRx
    rw [List.append_nil]
  · exact .inl rfl

/-- one step more -/
theorem Onwards.step {r : System F} {lost : List Nat} {a : Act F} (O : Onwards r s lost) (inv : Custody p s)
    (h : step p s a = some t) : ∃ lost', Onwards r t lost' := by
  obtain ⟨u, hu, hrx, hc⟩ := move_haul inv.toInitInv (step_cases h)
  have hP := hu.places inv.toPlaces
  have hO : ∃ lost', Onwards r u lost' := by
    cases hopen : s.rxOpen with
    | true =>
      have horder := O.order
      rw [O.kept hopen, List.append_nil] at horder
      refine ⟨[], ?_, ?_, fun _ => rfl⟩
      · rw [List.append_nil]
        exact horder.trans hu.arrivals
      · rw [List.append_nil]
        exact hP.arrivals_nodup
    | false =>
      have heq := hu.arrivals_shut inv.toPlaces (inv.shut hopen)
      exact ⟨lost, by rw [heq]; exact O.order, by rw [heq]; exact O.nodup,
        fun ht => by rw [hrx, hopen] at ht; cases ht⟩
  obtain ⟨lost', hO⟩ := hO
  have close : ∃ lost', Onwards r (u.closeIfLast p) lost' := by
    rcases arrivals_closeIfLast (p := p) u with he | ⟨he, hcl⟩
    · rw [he]
      exact ⟨lost', hO⟩
    · -- what was in the channel goes with it
      refine ⟨u.queue ++ lost', ?_, ?_, fun ho => by rw [hcl] at ho; cases ho⟩
      · rw [← List.append_assoc, he]
        exact hO.order
      · rw [← List.append_assoc, he]
        exact hO.nodup
  rcases hc with ⟨rfl, -⟩ | rfl
  · exact ⟨lost', hO⟩
  · exact close

theorem reach_onwards {ceiling : Nat} (h : Reachable (step p) (start p ceiling) s)
    (h' : Reachable (step p) s t) : ∃ lost, Onwards s t lost := by
  have inv := reach_custody h
  have hboth : Custody p t ∧ ∃ lost, Onwards s t lost := by
    refine h'.invariant (I := fun t => Custody p t ∧ ∃ lost, Onwards s t lost) ⟨inv, [], ?_⟩ ?_
    · refine ⟨?_, ?_, fun _ => rfl⟩
      · rw [List.append_nil]
      · rw [List.append_nil]
        exact inv.arrivals_nodup
    · rintro t a v ⟨inv, lost, O⟩ _ hs
      exact ⟨custody_step inv hs, O.step inv hs⟩
  exact hboth.2

/-! ## the bound -/

theorem closeIfLast_queue_le : (s.closeIfLast p).queue.length ≤ s.queue.length := by
  unfold System.closeIfLast
  split
  · exact Nat.zero_le _
  · exact le_refl _

/-- only a send lengthens the channel -/
theorem queue_move {a : Act F} (h : Move p s a t) (ha : ∀ id, a ≠ .enqueue id) :
    t.queue.length ≤ s.queue.length := by
  cases h with
  | @started w preLoadRss load out sh hp ho =>
    cases out with
    | ready wk delta => exact le_refl _
    | loadFailed e => exact le_refl _
    | refused e => exact closeIfLast_queue_le
  | @counted k delta hi =>
    unfold countWorker
    dsimp only
    split
    · exact le_refl _
    · exact closeIfLast_queue_le
  | heardError hi hc => exact closeIfLast_queue_le
  | joined hi hp => exact closeIfLast_queue_le
  | vanished hp => exact closeIfLast_queue_le
  | left hp => exact closeIfLast_queue_le
  | closed hp hq hh => exact closeIfLast_queue_le
  | fatal hp hs ho => exact closeIfLast_queue_le
  | died hp => exact closeIfLast_queue_le
  | @took w id rest hp hq =>
    rw [hq]
    exact Nat.le_succ _
  | @enqueued id tk hg hs => exact absurd rfl (ha id)
  | _ => exact le_refl _

theorem queue_step {a : Act F} (h : step p s a = some t) (hq : s.queue.length ≤ p.n * 4) :
    t.queue.length ≤ p.n * 4 := by
  cases a with
  | enqueue id =>
    rw [step, enqueueStep] at h
    split at h
    · split at h
      · rename_i hroom
        cases h
        show (s.queue ++ [id]).length ≤ _
        rw [List.length_append]
        exact hroom.2
      · cases h
    · cases h
  | _ => exact (queue_move (step_cases h) fun id he => by cases he).trans hq

theorem reach_queue {C : System F → Act F → Prop} {ceiling : Nat}
    (h : Reach (step p) C (start p ceiling) s) : s.queue.length ≤ p.n * 4 :=
  h.invariant (I := fun s => s.queue.length ≤ p.n * 4) (Nat.zero_le _) fun _ _ _ hq _ hs => queue_step hs hq

/-- **First in, first out.**  The channel never holds more than `n * 4` requests.  Whatever happens from a
state on, the requests are received in the order in which they came into it: one with `i` others before
it is, if it is received at all, the one received after exactly `i` more; and while the receiver is there
none of them gets lost. -/
theorem channel_fifo (ceiling : Nat) (h : Reachable (step p) (start p ceiling) s)
    (h' : Reachable (step p) s t) :
    s.queue.length ≤ p.n * 4 ∧
    (t.rxOpen = true → s.arrivals <+: t.arrivals) ∧
    ∀ i id, s.queue[i]? = some id → (∃ w, (id, w) ∈ t.takes) →
      (t.takes.map Prod.fst)[s.takes.length + i]? = some id := by
  obtain ⟨lost, O⟩ := reach_onwards h h'
  refine ⟨reach_queue h, fun hopen => ?_, fun i id hi => ?_⟩
  · have := O.order
    rw [O.kept hopen, List.append_nil] at this
    exact this
  · rintro ⟨w, hw⟩
    -- where `id` is in the order, as seen from `s` and as seen from `t`
    have hfrom : (t.arrivals ++ lost)[s.takes.length + i]? = some id := by
      have hs : s.arrivals[s.takes.length + i]? = some id := by
        rw [System.arrivals, List.getElem?_append_right (by rw [List.length_map]; omega), List.length_map,
          Nat.add_sub_cancel_left]
        exact hi
      obtain ⟨rest, hrest⟩ := O.order
      rw [← hrest, List.getElem?_append_left (List.getElem?_eq_some_iff.mp hs).1]
      exact hs
    have hmem : id ∈ t.takes.map Prod.fst := List.mem_map.mpr ⟨_, hw, rfl⟩
    obtain ⟨j, hj, hget⟩ := List.mem_iff_getElem.mp hmem
    have hto : (t.arrivals ++ lost)[j]? = some id := by
      rw [System.arrivals, List.append_assoc, List.getElem?_append_left hj, List.getElem?_eq_getElem hj, hget]
    have hidx : j = s.takes.length + i :=
      (List.getElem?_inj (List.getElem?_eq_some_iff.mp hto).1 O.nodup).mp (hto.trans hfrom.symm)
    rw [← hidx, List.getElem?_eq_getElem hj, hget]

end

/-- two requests in the channel, of which the second is received second -/
theorem channel_fifo_two : ∃ s t : System Int, Reachable (step cpuSolo) (start cpuSolo 0) s ∧
    Reachable (step cpuSolo) s t ∧ s.queue[1]? = some 0 ∧ (t.takes.map Prod.fst)[1]? = some 0 := by
  have hs : ∃ s : System Int, Reachable (step cpuSolo) (start cpuSolo 0) s ∧ s.takes.length = 0 ∧
      s.queue[1]? = some 0 ∧ ((([.recv 0, .load 0 (.error ""), .dispatch 0 ⟨⟨1, 1, 2⟩, true⟩, .reply 0,
        .act 0, .drain 0 [], .lock 0, .recv 0] : List (Act Int)).foldlM (step cpuSolo) s).any
        fun t => decide (t.takes = [(1, 0), (0, 0)])) = true :=
    Reach.exists_of_run [.init, .startup 0 0 (.ok echoModels), .init, .init, .submit (.dense ["a"]),
      .submit (.dense ["b"]), .enqueue 1, .enqueue 0, .drain 0 [], .lock 0] (fun _ _ _ => trivial)
      (by decide +kernel)
  obtain ⟨s, hr, hnone, hq, hrun⟩ := hs
  obtain ⟨t, hr', htakes⟩ := Reach.exists_of_run (C := fun _ _ => True) _ (fun _ _ _ => trivial) hrun
  have hfifo := (channel_fifo 0 hr hr').2.2 1 0 hq ⟨0, by rw [htakes]; decide⟩
  rw [hnone] at hfifo
  exact ⟨s, t, hr, hr', hq, hfifo⟩

end EmbedServer.Pool
