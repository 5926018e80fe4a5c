import Mathlib.Algebra.GroupWithZero.Nat
import EmbedServer.Lib.Counting
import EmbedServer.Pool.Progress

/-!
# The pool comes to rest

* `Setup.work`, `work_move`   a measure that every step but a new call lowers;
* `calls_end`                 once no new calls come, every call ends;
* `pool_shutdown`             once the last handle is gone, every thread ends.
-/

set_option linter.unusedSectionVars false

namespace EmbedServer.Pool

section
variable {F : Type} [F32Ops F] {p : Setup} {s t : System F}

/-- steps with a request in hand, down to the head of the loop with models loaded -/
def Phase.busy : Phase F → Nat
  | .took _ => 10
  | .loaded _ => 9
  | .replying _ _ _ => 8
  | .acting _ => 7
  | .unwinding _ _ => 1
  | _ => 0

def Thread.work (th : Thread F) : Nat := th.rank + th.phase.busy

/-- a request pays for what a worker does with it -/
def Ticket.work (t : Ticket) : Nat :=
  (match t.stage with
    | .sending => 12
    | .queued => 10
    | .taken | .ended => 0) + if t.calling then 1 else 0

def System.callWork (s : System F) : Nat := (s.tickets.map Ticket.work).sum

def Setup.work (p : Setup) (s : System F) : Nat :=
  ∑ k ∈ Finset.range p.n, (s.workers k).work + p.initRank s + s.callWork + if s.poolHandle then 1 else 0

theorem top_work_le (wk : Worker F) (sig : Option (Except AnyError Nat)) :
    (⟨.top, wk, sig⟩ : Thread F).work ≤ 6 := by
  rw [Thread.work, Thread.rank]
  dsimp only [Phase.busy]
  split <;> omega

theorem Ticket.work_ended {t : Ticket} (h : t.stage = .ended) : t.work = 0 := by
  rw [Ticket.work, Ticket.calling, h]
  simp

theorem Ticket.work_take {t : Ticket} (h : t.stage = .queued) : t.take.work + 10 = t.work := by
  unfold Ticket.work Ticket.calling Ticket.take
  rw [h]
  cases t.isOpen <;> rfl

theorem Ticket.work_enqueue {t : Ticket} (h : t.stage = .sending) : t.enqueue.work + 2 = t.work := by
  unfold Ticket.work Ticket.calling Ticket.enqueue
  rw [h]
  cases t.isOpen <;> rfl

theorem Ticket.work_disconnect {t : Ticket} (h : t.calling = true) : t.disconnect.work < t.work := by
  obtain ⟨req, stage, isOpen⟩ := t
  cases isOpen with
  | false => cases h
  | true =>
    cases stage with
    | ended => cases h
    | sending => exact (by decide : 0 < 13)
    | queued => exact (by decide : 10 < 11)
    | taken => exact (by decide : 0 < 1)

theorem Ticket.work_abandon (t : Ticket) : t.abandon.work ≤ t.work := by
  obtain ⟨req, stage, isOpen⟩ := t
  cases stage with
  | sending => exact (Ticket.work_ended rfl).trans_le (Nat.zero_le _)
  | queued => exact (Ticket.work_ended rfl).trans_le (Nat.zero_le _)
  | taken => exact le_refl _
  | ended => exact le_refl _

theorem callWork_setTicket {id : Nat} {tk : Ticket} {f : Ticket → Ticket} (hg : s.tickets[id]? = some tk)
    (ht : t.tickets = (s.setTicket id f).tickets) : t.callWork + tk.work = s.callWork + (f tk).work := by
  rw [System.callWork, ht]
  exact sum_map_modify Ticket.work f hg

theorem callWork_closeIfLast : (s.closeIfLast p).callWork ≤ s.callWork := by
  unfold System.closeIfLast
  split
  · unfold System.callWork System.closeRx
    dsimp only
    rw [List.map_map]
    exact List.sum_le_sum fun t _ => t.work_abandon
  · exact le_refl _

/-- a step of the init task -/
theorem work_init (inv : InitInv p s) (h : Move p s .init t) : p.work t < p.work s := by
  have hrank := rank_init inv h
  have split (s : System F) : ∑ k ∈ Finset.range p.n, (s.workers k).work =
      ∑ k ∈ Finset.range p.n, (s.workers k).rank + ∑ k ∈ Finset.range p.n, (s.workers k).phase.busy :=
    Finset.sum_add_distrib
  -- no thread takes a request in hand
  have hbusy : ∀ k, (t.workers k).phase.busy = (s.workers k).phase.busy := by
    intro k
    cases h with
    | @spawned j hi =>
      have hf : s.workers j = .fresh := by
        refine inv.later _ ?_
        rw [System.spawned, hi]
      show (Function.update s.workers j _ k).phase.busy = _
      by_cases hk : k = j
      · subst hk
        rw [Function.update_self, hf]
        rfl
      · rw [Function.update_of_ne hk]
    | heard hi hc => rfl
    | heardError hi hc => rw [System.finishInit, System.closeIfLast_workers]
    | silent hi hc => rfl
    | joined hi hp => rw [System.finishInit, System.closeIfLast_workers]
    | pending hi hp => rfl
    | woken hi hw => rfl
    | @counted j delta hi => rw [(countWorker_eq j delta).1]
  have hcalls : t.callWork ≤ s.callWork ∧ t.poolHandle = s.poolHandle := by
    cases h with
    | heardError hi hc => exact ⟨callWork_closeIfLast, System.closeIfLast_poolHandle⟩
    | joined hi hp => exact ⟨callWork_closeIfLast, System.closeIfLast_poolHandle⟩
    | @counted j delta hi =>
      unfold countWorker
      dsimp only
      split
      · exact ⟨le_refl _, rfl⟩
      · exact ⟨callWork_closeIfLast, System.closeIfLast_poolHandle⟩
    | spawned hi => exact ⟨le_refl _, rfl⟩
    | heard hi hc => exact ⟨le_refl _, rfl⟩
    | silent hi hc => exact ⟨le_refl _, rfl⟩
    | pending hi hp => exact ⟨le_refl _, rfl⟩
    | woken hi hw => exact ⟨le_refl _, rfl⟩
  have hsum : ∑ k ∈ Finset.range p.n, (t.workers k).phase.busy =
      ∑ k ∈ Finset.range p.n, (s.workers k).phase.busy := Finset.sum_congr rfl fun k _ => hbusy k
  unfold Setup.rank at hrank
  unfold Setup.work
  rw [split t, split s, hsum, hcalls.2]
  have := hcalls.1
  omega

/-- a step of one thread, on its own or with a request -/
theorem work_thread (inv : InitInv p s) {w : Nat} {th : Thread F} (he : Effect s t)
    (hw : t.workers = Function.update s.workers w th) (hp : (s.workers w).phase ≠ .absent)
    (hh : t.poolHandle = s.poolHandle)
    (hlt : th.work + t.callWork < (s.workers w).work + s.callWork) : p.work t < p.work s := by
  have hn : w < p.n := (inv.present_lt hp).trans_le inv.spawned_le
  have hsum := sum_update (f := fun k => (s.workers k).work) (g := fun k => (t.workers k).work)
    (b := th.work) hn (by
      funext k
      rw [hw]
      by_cases hk : k = w
      · subst hk
        rw [Function.update_self, Function.update_self]
      · rw [Function.update_of_ne hk, Function.update_of_ne hk])
  have hinit := initRank_effect (p := p) he
  unfold Setup.work
  rw [hh]
  omega

/-- a step of a client -/
theorem work_client (he : Effect s t) (hw : t.workers = s.workers) (hh : t.poolHandle = s.poolHandle)
    (hlt : t.callWork < s.callWork) : p.work t < p.work s := by
  have hinit := initRank_effect (p := p) he
  unfold Setup.work
  rw [hw, hh]
  omega

/-- no new call -/
def NoSubmit (_ : System F) (a : Act F) : Prop := ∀ req, a ≠ .submit req

/-- the end of a thread that was running -/
theorem work_exit (inv : InitInv p s) {v : System F} {w : Nat} {how : Joined}
    (he : Effect s (v.exitWorker p w how)) (hw : v.workers = s.workers) (hh : v.poolHandle = s.poolHandle)
    (hc : v.callWork ≤ s.callWork) (hp : (s.workers w).phase ≠ .absent) (hpos : 0 < (s.workers w).work) :
    p.work (v.exitWorker p w how) < p.work s := by
  have hws := System.exitWorker_workers (p := p) (s := v) (w := w) how
  rw [hw] at hws
  refine work_thread inv he hws hp (System.closeIfLast_poolHandle.trans hh) ?_
  have hle : (v.exitWorker p w how).callWork ≤ s.callWork := callWork_closeIfLast.trans hc
  show 0 + _ < _
  omega

theorem work_move {a : Act F} (inv : RunInv p s) (h : Move p s a t) (ha : NoSubmit s a) :
    p.work t < p.work s := by
  by_cases hi : a = .init
  · subst hi
    exact work_init inv.toInitInv h
  have he := move_effect h hi
  -- one thread, and no request
  have loop {w : Nat} {ph : Phase F} {th : Thread F} (hw : t.workers = Function.update s.workers w th)
      (hh : t.poolHandle = s.poolHandle) (hc : t.callWork = s.callWork) (hp : (s.workers w).phase = ph)
      (hne : ph ≠ .absent) (hlt : th.work < (s.workers w).work) : p.work t < p.work s := by
    refine work_thread inv.toInitInv he hw (by rw [hp]; exact hne) hh ?_
    omega
  cases h with
  | spawned => exact absurd rfl hi
  | heard => exact absurd rfl hi
  | heardError => exact absurd rfl hi
  | silent => exact absurd rfl hi
  | joined => exact absurd rfl hi
  | pending => exact absurd rfl hi
  | woken => exact absurd rfl hi
  | counted => exact absurd rfl hi
  | @started w preLoadRss load out sh hp ho =>
    have h8 : (s.workers w).work = 8 := by rw [Thread.work, Thread.rank, hp]; rfl
    cases out with
    | ready wk delta =>
      refine loop rfl rfl rfl hp (fun h => by cases h) ?_
      rw [h8]
      exact (top_work_le wk _).trans_lt (by decide)
    | loadFailed e =>
      refine loop rfl rfl rfl hp (fun h => by cases h) ?_
      rw [h8]
      exact (by decide : 1 < 8)
    | refused e =>
      exact work_exit inv.toInitInv he rfl rfl (le_refl _) (by rw [hp]; intro h; cases h) (by rw [h8]; decide)
  | @vanished w how hp =>
    exact work_exit inv.toInitInv he rfl rfl (le_refl _) (by rw [hp]; intro h; cases h)
      (by rw [Thread.work, Thread.rank, hp]; exact (by decide : 0 < 8))
  | @left w e hp =>
    exact work_exit inv.toInitInv he rfl rfl (le_refl _) (by rw [hp]; intro h; cases h)
      (by rw [Thread.work, Thread.rank, hp]; exact Nat.one_pos)
  | @drained w shapes wk sh hp hd =>
    refine loop rfl rfl rfl hp (fun h => by cases h) ?_
    rw [Thread.work, Thread.work, Thread.rank, Thread.rank, hp]
    dsimp only [Phase.busy]
    rw [drain_isSome hd]
    omega
  | @locked w hp hl =>
    refine loop rfl rfl rfl hp (fun h => by cases h) ?_
    rw [Thread.work, Thread.work, Thread.rank, Thread.rank, hp]
    dsimp only [Phase.busy]
    omega
  | @elapsed w hp hm =>
    have h4 : 3 < (s.workers w).work := by
      rw [Thread.work, Thread.rank, if_pos hm]
      rcases hp with hp | hp <;> rw [hp] <;> dsimp only [Phase.busy] <;> omega
    rcases hp with hp | hp
    · exact loop rfl rfl rfl hp (fun h => by cases h) h4
    · exact loop rfl rfl rfl hp (fun h => by cases h) h4
  | @took w id rest hp hq =>
    have hqueued : s.stageOf id = some .queued := (inv.queued id).mp (by rw [hq]; exact List.mem_cons_self)
    obtain ⟨tk, hg, hstage⟩ := stageOf_some hqueued
    refine work_thread inv.toInitInv he rfl (by rw [hp]; intro h; cases h) rfl ?_
    -- the ticket pays
    have hcalls := callWork_setTicket (t := { (s.setPhase w (.took id)).setTicket id Ticket.take with
        lock := none
        queue := rest
        takes := s.takes ++ [(id, w)] }) (f := Ticket.take) hg rfl
    have htake := Ticket.work_take hstage
    have hone : 1 ≤ (s.workers w).work := by
      rw [Thread.work, Thread.rank, hp]
      dsimp only
      omega
    show 10 + _ < _
    omega
  | @closed w hp hq hh =>
    refine work_exit (v := s.closing w) inv.toInitInv he rfl rfl (le_refl _)
      (by rw [hp]; intro h; cases h) ?_
    rw [Thread.work, Thread.rank, hp]
    dsimp only
    omega
  | @loaded w load id m runs sh hp hen =>
    refine loop rfl rfl rfl hp (fun h => by cases h) ?_
    rw [Thread.work, Thread.work, Thread.rank, Thread.rank, hp]
    exact (by decide : 9 < 10)
  | @unloadable w load id tk e hp ht hen =>
    refine loop rfl rfl rfl hp (fun h => by cases h) ?_
    rw [Thread.work, Thread.work, Thread.rank, Thread.rank, hp]
    exact (by decide : 8 < 10)
  | @served w env id tk m runs reply out d hp hm ht hd =>
    refine loop rfl rfl rfl hp (fun h => by cases h) ?_
    rw [Thread.work, Thread.work, Thread.rank, Thread.rank, hp]
    exact (by decide : 8 < 9)
  | @panicked w env id tk text m runs d hp hm ht =>
    refine loop rfl rfl rfl hp (fun h => by cases h) ?_
    rw [Thread.work, Thread.work, Thread.rank, Thread.rank, hp]
    exact (by decide : 1 < 9)
  | @replied w id reply out hp =>
    obtain ⟨tk, hg, -⟩ := inv.ticket (show s.inHand w = some id by rw [System.inHand, hp]; rfl)
    refine work_thread inv.toInitInv he rfl (by rw [hp]; intro h; cases h) rfl ?_
    have hcalls := callWork_setTicket (t := { (s.setPhase w (.acting out)).setTicket id Ticket.finish with
        replies := s.replies ++ received s w id reply }) (f := Ticket.finish) hg rfl
    have hfin : tk.finish.work = 0 := Ticket.work_ended rfl
    have h8 : (s.workers w).work = 8 := by rw [Thread.work, Thread.rank, hp]; rfl
    show 7 + _ < _
    omega
  | @again w out hp hs =>
    refine loop rfl rfl rfl hp (fun h => by cases h) ((top_work_le _ _).trans_lt ?_)
    rw [Thread.work, Thread.rank, hp]
    exact (by decide : 6 < 7)
  | @fatal w out hp hs ho =>
    exact work_exit inv.toInitInv he rfl rfl (le_refl _) (by rw [hp]; intro h; cases h)
      (by rw [Thread.work, Thread.rank, hp]; exact (by decide : 0 < 7))
  | @broke w out hp hs ho =>
    refine loop rfl rfl rfl hp (fun h => by cases h) ((top_work_le _ _).trans_lt ?_)
    rw [Thread.work, Thread.rank, hp]
    exact (by decide : 6 < 7)
  | @noted w out hp hs =>
    refine loop rfl rfl rfl hp (fun h => by cases h) ((top_work_le _ _).trans_lt ?_)
    rw [Thread.work, Thread.rank, hp]
    exact (by decide : 6 < 7)
  | @died w id text hp =>
    obtain ⟨tk, hg, -⟩ := inv.ticket (show s.inHand w = some id by rw [System.inHand, hp]; rfl)
    have hcalls := callWork_setTicket (t := s.setTicket id Ticket.finish) hg rfl
    have hfin : tk.finish.work = 0 := Ticket.work_ended rfl
    exact work_exit inv.toInitInv he rfl rfl (by omega) (by rw [hp]; intro h; cases h)
      (by rw [Thread.work, Thread.rank, hp]; exact Nat.one_pos)
  | @submitted req hh => exact absurd rfl (ha req)
  | @enqueued id tk hg hs =>
    have hcalls := callWork_setTicket (t := { s.setTicket id Ticket.enqueue with queue := s.queue ++ [id] })
      (f := Ticket.enqueue) hg rfl
    have := Ticket.work_enqueue hs
    exact work_client he rfl rfl (by omega)
  | @disconnected id tk hg hc =>
    have hcalls := callWork_setTicket (t := s.setTicket id Ticket.disconnect) hg rfl
    have := Ticket.work_disconnect hc
    exact work_client he rfl rfl (by omega)
  | dropped hh =>
    have hinit := initRank_effect (p := p) he
    show _ + p.initRank _ + s.callWork + 0 < p.work s
    rw [Setup.work, hh, if_pos rfl]
    exact Nat.add_lt_add_of_le_of_lt (Nat.add_le_add_right (Nat.add_le_add_left hinit _) _) Nat.one_pos

/-! ## the end of the calls, and of the pool -/

/-- **No call hangs.**  In every state that can be reached, panics and failed loads included, the pool has
a step of its own until it is at rest, so nothing waits for a client to hang up or for a timer; and once
no new calls come, every schedule brings it to rest after at most `work` steps, with every call ended. -/
theorem calls_end (ceiling : Nat) (h : Reachable (step p) (start p ceiling) s) :
    (¬AtRest p s → CanStep p s) ∧
    Inevitable (step p) NoSubmit (AtRest p) s ∧
    ∀ (as : List (Act F)) (t : System F), (∀ a ∈ as, ∀ req, a ≠ .submit req) →
      as.foldlM (step p) s = some t → as.length ≤ p.work s := by
  have inv := reach_runInv h
  refine ⟨progress inv, ?_, fun as t ha hrun => ?_⟩
  · refine Inevitable.of_measure p.work (I := RunInv p) ?_ ?_ ?_ inv
    · intro s a t inv _ hs
      exact runInv_step inv hs
    · intro s inv hr
      obtain ⟨a, t, ha, hs⟩ := progress inv hr
      refine ⟨a, t, ?_, hs⟩
      rintro req rfl
      cases ha
    · intro s a t inv _ ha hs
      exact work_move inv (step_cases hs) ha
  · have hlen := length_le_of_measure (C := NoSubmit) (I := RunInv p) p.work
      (fun s a t inv _ hs => runInv_step inv hs) (fun s a t inv ha hs => work_move inv (step_cases hs) ha)
      inv (fun _ a hm => ha a hm) hrun
    omega

/-- everything has ended -/
structure ShutDown (p : Setup) (s : System F) : Prop where
  init : s.init.isDone = true
  threads : ∀ k < p.n, (s.workers k).phase.gone = true
  receiver : s.rxOpen = false
  calls : ∀ (id : Nat) (tk : Ticket), s.tickets[id]? = some tk → tk.stage = .ended
  /-- `live_workers` -/
  live : s.init = .done (.ok ()) → s.live = 0

theorem handle_move {a : Act F} (h : Move p s a t) (hf : s.poolHandle = false) : t.poolHandle = false := by
  cases h with
  | @started w preLoadRss load out sh hp ho =>
    cases out with
    | ready wk delta => exact hf
    | loadFailed e => exact hf
    | refused e => exact System.closeIfLast_poolHandle.trans hf
  | @counted k delta hi =>
    unfold countWorker
    dsimp only
    split
    · exact hf
    · exact System.closeIfLast_poolHandle.trans hf
  | heardError hi hc => exact System.closeIfLast_poolHandle.trans hf
  | joined hi hp => exact System.closeIfLast_poolHandle.trans hf
  | vanished hp => exact System.closeIfLast_poolHandle.trans hf
  | left hp => exact System.closeIfLast_poolHandle.trans hf
  | closed hp hq hh => exact System.closeIfLast_poolHandle.trans hf
  | fatal hp hs ho => exact System.closeIfLast_poolHandle.trans hf
  | died hp => exact System.closeIfLast_poolHandle.trans hf
  | dropped hh => rfl
  | _ => exact hf

/-- without a handle a waiting thread is on its way out -/
theorem canStep_of_running (inv : RunInv p s) (hh : s.poolHandle = false) {k : Nat}
    (hg : (s.workers k).phase.gone = false) : CanStep p s := by
  cases hp : (s.workers k).phase.parked with
  | false => exact canStep_of_thread inv hp
  | true =>
    rcases listener_of_waiting (p := p) inv.toLockInv hp hg with h | ⟨w, hw⟩
    · exact h
    · exact canStep_of_recv hw (.inr hh)

/-- no thread runs and the init task is through -/
theorem down_of_ownerless (inv : RunInv p s) (bks : BooksInv p s) (ho : s.ownerless p = true) :
    ShutDown p s := by
  have hgone : ∀ k < p.n, (s.workers k).phase.gone = true := fun k hk => ownerless_gone ho hk
  have hrx := inv.ownerless ho
  refine ⟨ownerless_done ho, hgone, hrx, fun id tk hg => ?_, fun hi => ?_⟩
  · have hst := stageOf_of_get hg
    obtain ⟨h1, h2⟩ := inv.shut hrx id
    rw [hst] at h1 h2
    cases hstage : tk.stage with
    | sending => exact absurd (congrArg some hstage) h1
    | queued => exact absurd (congrArg some hstage) h2
    | ended => rfl
    | taken =>
      -- the worker that has it is not gone
      obtain ⟨w, hw⟩ := inv.taken id (by rw [hst, hstage])
      have hw' : (s.workers w).phase.handling = some id := hw
      have hn : w < p.n := by
        refine (inv.present_lt fun hp => ?_).trans_le inv.spawned_le
        rw [hp] at hw'
        cases hw'
      rw [Phase.handling_of_gone (hgone w hn)] at hw'
      cases hw'
  · rw [bks.live]
    refine Nat.count_of_forall_not fun k hk hlive => ?_
    -- each of the `n` workers was heard, so it is not absent
    have hpc := inv.pc
    rw [hi] at hpc
    cases hpc with
    | wait hk' _ _ => cases hk'
    | ok hn =>
      obtain ⟨delta, hd⟩ : ∃ delta, s.rssDeltas[k]? = some delta :=
        ⟨_, List.getElem?_eq_getElem (by omega)⟩
      rcases (inv.heard k delta hd).phase with h | h
      · have := hgone k hk
        rw [Phase.inLoop_present h] at this
        cases this
      · have hlive : (s.workers k).phase.isExited = false := hlive
        rw [h] at hlive
        cases hlive

/-- **Shutdown.**  Once the last handle of the pool is dropped every schedule brings it down: the init task
ends, every thread returns, the receiver goes and no call stays open; where startup had succeeded, the
count of live workers is then zero. -/
theorem pool_shutdown (ceiling : Nat) (h : Reachable (step p) (start p ceiling) s)
    (hh : s.poolHandle = false) : Inevitable (step p) (fun _ _ => True) (ShutDown p) s := by
  refine Inevitable.of_measure p.work
    (I := fun s => RunInv p s ∧ BooksInv p s ∧ s.poolHandle = false) ?_ ?_ ?_
    ⟨reach_runInv h, reach_booksInv h, hh⟩
  · rintro s a t ⟨inv, bks, hf⟩ _ hs
    exact ⟨runInv_step inv hs, booksInv_step bks hs, handle_move (step_cases hs) hf⟩
  · rintro s ⟨inv, bks, hf⟩ hd
    have hno : s.ownerless p = false := by
      by_contra ho
      exact hd (down_of_ownerless inv bks (by simpa using ho))
    have hstep : CanStep p s := by
      cases hi : s.init.isDone with
      | false => exact canStep_of_init inv.toInitInv hi
      | true =>
        rw [System.ownerless, hi, Bool.true_and, List.all_eq_false] at hno
        obtain ⟨k, -, hk⟩ := hno
        exact canStep_of_running inv hf (by simpa using hk)
    obtain ⟨a, t, -, hs⟩ := hstep
    exact ⟨a, t, trivial, hs⟩
  · rintro s a t ⟨inv, bks, hf⟩ _ _ hs
    refine work_move inv (step_cases hs) ?_
    rintro req rfl
    rw [step, submitStep, hf] at hs
    cases hs

end

/-- a request that nobody has received yet, in front of a worker that just came up -/
def oneCall : List (Act Int) :=
  [.init, .startup 0 100 (.ok echoModels), .init, .init, .submit (.dense ["a"]), .drain 0 [], .lock 0]

theorem calls_end_one : ∃ s : System Int, Reachable (step cpuSolo) (start cpuSolo 0) s ∧
    s.tickets.map Ticket.stage = [.sending] ∧
    Inevitable (step cpuSolo) NoSubmit (AtRest cpuSolo) s := by
  have hrun : ∃ s : System Int, Reachable (step cpuSolo) (start cpuSolo 0) s ∧
      s.tickets.map Ticket.stage = [.sending] :=
    Reach.exists_of_run oneCall (fun _ _ _ => trivial) (by decide)
  obtain ⟨s, hr, hs⟩ := hrun
  exact ⟨s, hr, hs, (calls_end 0 hr).2.1⟩

/-- the handle goes while the worker waits for the lock -/
theorem pool_shutdown_idle : ∃ s : System Int, Reachable (step cpuSolo) (start cpuSolo 0) s ∧
    s.poolHandle = false ∧ Inevitable (step cpuSolo) (fun _ _ => True) (ShutDown cpuSolo) s := by
  have hrun : ∃ s : System Int, Reachable (step cpuSolo) (start cpuSolo 0) s ∧ s.poolHandle = false :=
    Reach.exists_of_run [.init, .startup 0 100 (.ok echoModels), .init, .init, .drain 0 [], .dropPool]
      (fun _ _ _ => trivial) (by decide)
  obtain ⟨s, hr, hh⟩ := hrun
  exact ⟨s, hr, hh, pool_shutdown 0 hr hh⟩

end EmbedServer.Pool
