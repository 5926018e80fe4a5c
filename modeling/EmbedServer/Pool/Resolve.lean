import Mathlib.Algebra.Order.BigOperators.Group.Finset
import EmbedServer.Embed.Locality
import EmbedServer.Pool.Init

/-!
# Startup of the pool while nobody uses it

The callers hold the request channel open and send nothing on it until the init task is through.  Then
the workers only ever start up, wait and time out, and every run ends.

* `Quiet`, `Unused`       the side condition, and what it leaves the workers to do;
* `rank`, `Setup.rank`    a measure that every step of such a run lowers;
* `init_protocol`         order, result and end of the init task.
-/

set_option linter.unusedSectionVars false

namespace EmbedServer.Pool

section
variable {F : Type}

/-- until the init task is through the channel is neither used nor closed -/
def Quiet (s : System F) : Act F → Prop
  | .submit _ | .dropPool => s.init.isDone = true
  | _ => True

/-- no request in hand -/
def Phase.idle : Phase F → Bool
  | .absent | .starting | .failed _ | .top | .waiting | .receiving | .exited _ => true
  | _ => false

structure Calm (th : Thread F) : Prop where
  idle : th.phase.idle = true
  /-- who has signalled `Ok` does not end -/
  stays : ∀ delta, th.signal = some (.ok delta) → th.phase.inLoop = true

structure Unused (s : System F) : Prop where
  tickets : s.tickets = []
  queue : s.queue = []
  handle : s.poolHandle = true
  calm : ∀ k, Calm (s.workers k)

/-- steps a thread still has in a quiet run, at most -/
def Thread.rank (th : Thread F) : Nat :=
  let loaded := if th.worker.models.isSome then 3 else 0
  match th.phase with
  | .absent => 9
  | .starting => 8
  | .failed _ => 1
  | .top => 3 + loaded
  | .waiting => 2 + loaded
  | .receiving => 1 + loaded
  | _ => 0

/-- `JoinHandle` or channel of the worker that is waited for is ready -/
def System.hasNews (s : System F) (k : Nat) : Bool :=
  !s.readyCh.isEmpty || (s.workers k).phase.isExited

/-- steps the init task still has -/
def Setup.initRank (p : Setup) (s : System F) : Nat :=
  match s.init with
  | .spawn k => 8 * (p.n - k)
  | .recv k => 8 * (p.n - k) - if s.hasNews k then 4 else 1
  | .join k => 8 * (p.n - k) - if (s.workers k).phase.isExited then 5 else 2
  | .parked k => 8 * (p.n - k) - 3
  | .count k _ => 8 * (p.n - k) - 6
  | .done _ => 0

def Setup.rank (p : Setup) (s : System F) : Nat :=
  ∑ k ∈ Finset.range p.n, (s.workers k).rank + p.initRank s

variable [F32Ops F] {p : Setup} {s t : System F}

theorem closeIfLast_of_not_done (h : s.init.isDone = false) : s.closeIfLast p = s := by
  unfold System.closeIfLast
  rw [h]
  rfl

/-- the end of a thread that has not signalled `Ok` -/
theorem calm_exited {th : Thread F} {how : Joined} {wk : Worker F}
    (h : ∀ delta, th.signal ≠ some (.ok delta)) : Calm (⟨.exited how, wk, th.signal⟩ : Thread F) :=
  ⟨rfl, fun delta hs => absurd hs (h delta)⟩

/-- a thread that is not in its loop -/
theorem Calm.silent {th : Thread F} (h : Calm th) (hp : th.phase.inLoop = false) (delta : Nat) :
    th.signal ≠ some (.ok delta) := by
  intro hs
  have := h.stays delta hs
  rw [hp] at this
  cases this

/-- one thread, from where it is to `th`, nearer to its end -/
structure Down (s t : System F) (w : Nat) (th : Thread F) : Prop where
  tickets : t.tickets = s.tickets
  queue : t.queue = s.queue
  handle : t.poolHandle = s.poolHandle
  workers : t.workers = Function.update s.workers w th
  present : (s.workers w).phase ≠ .absent
  calm : Calm th
  rank : th.rank < (s.workers w).rank

theorem down_exit {w : Nat} {s₁ : System F} {how : Joined} (hd : s₁.init.isDone = false)
    (ht : s₁.tickets = s.tickets) (hq : s₁.queue = s.queue) (hh : s₁.poolHandle = s.poolHandle)
    (hw : s₁.workers = s.workers) (hp : (s.workers w).phase ≠ .absent)
    (hs : ∀ delta, (s.workers w).signal ≠ some (.ok delta)) (hr : 0 < (s.workers w).rank) :
    Down s (s₁.exitWorker p w how) w ⟨.exited how, (s.workers w).worker.unloaded, (s.workers w).signal⟩ := by
  have he : s₁.exitWorker p w how =
      { s₁.goOn w (.exited how) (s₁.workers w).worker.unloaded with live := fetchSub1 s₁.live } :=
    closeIfLast_of_not_done hd
  rw [he]
  refine ⟨ht, hq, hh, ?_, hp, calm_exited hs, hr⟩
  show Function.update s₁.workers _ _ = _
  rw [hw]

/-- a step in the loop -/
theorem down_loop {w : Nat} {ph : Phase F} {wk : Worker F} (ht : t.tickets = s.tickets)
    (hq : t.queue = s.queue) (hh : t.poolHandle = s.poolHandle)
    (hw : t.workers = Function.update s.workers w ⟨ph, wk, (s.workers w).signal⟩)
    (hp : (s.workers w).phase ≠ .absent) (hi : ph.idle = true) (hl : ph.inLoop = true)
    (hr : (⟨ph, wk, (s.workers w).signal⟩ : Thread F).rank < (s.workers w).rank) :
    Down s t w ⟨ph, wk, (s.workers w).signal⟩ :=
  ⟨ht, hq, hh, hw, hp, ⟨hi, fun _ _ => hl⟩, hr⟩

/-- what a thread or a client can do in a quiet run -/
theorem quiet_move {a : Act F} (inv : InitInv p s) (hu : Unused s) (hd : s.init.isDone = false)
    (h : Move p s a t) (ha : a ≠ .init) (hq : Quiet s a) : ∃ w th, Down s t w th := by
  -- a thread with a request in hand
  have busy {w : Nat} {ph : Phase F} (hp : (s.workers w).phase = ph) (hb : ph.idle = false) : False := by
    have := (hu.calm w).idle
    rw [hp, hb] at this
    cases this
  cases h with
  | spawned => exact absurd rfl ha
  | heard => exact absurd rfl ha
  | heardError => exact absurd rfl ha
  | silent => exact absurd rfl ha
  | joined => exact absurd rfl ha
  | pending => exact absurd rfl ha
  | woken => exact absurd rfl ha
  | counted => exact absurd rfl ha
  | @started w preLoadRss load out sh hp ho =>
    have hsig := (inv.starting hp).2.2.2.1
    have habs : (s.workers w).phase ≠ .absent := by rw [hp]; intro h; cases h
    have hr : (s.workers w).rank = 8 := by rw [Thread.rank, hp]
    cases out with
    | ready wk delta =>
      refine ⟨w, ⟨.top, wk, some (.ok delta)⟩, rfl, rfl, rfl, rfl, habs, ⟨rfl, fun _ _ => rfl⟩, ?_⟩
      rw [hr]
      unfold Thread.rank
      dsimp only
      split <;> omega
    | loadFailed e =>
      refine ⟨w, _, rfl, rfl, rfl, rfl, habs, ⟨rfl, fun _ h => by cases h⟩, ?_⟩
      rw [hr]
      show 1 < 8
      omega
    | refused e =>
      refine ⟨w, _, down_exit hd rfl rfl rfl rfl habs ?_ (by omega)⟩
      rw [hsig]
      intro delta h
      cases h
  | @vanished w how hp =>
    have hsig := (inv.starting hp).2.2.2.1
    refine ⟨w, _, down_exit hd rfl rfl rfl rfl (by rw [hp]; intro h; cases h) ?_ ?_⟩
    · rw [hsig]
      intro delta h
      cases h
    · rw [Thread.rank, hp]
      show 0 < 8
      omega
  | @left w e hp =>
    refine ⟨w, _, down_exit hd rfl rfl rfl rfl (by rw [hp]; intro h; cases h) ?_ ?_⟩
    · exact (hu.calm w).silent (by rw [hp]; rfl)
    · rw [Thread.rank, hp]
      show 0 < 1
      omega
  | @drained w shapes wk sh hp hdr =>
    refine ⟨w, _, down_loop rfl rfl rfl rfl (by rw [hp]; intro h; cases h) rfl rfl ?_⟩
    rw [Thread.rank, Thread.rank, hp]
    dsimp only
    rw [drain_isSome hdr]
    omega
  | @locked w hp hl =>
    refine ⟨w, _, down_loop rfl rfl rfl rfl (by rw [hp]; intro h; cases h) rfl rfl ?_⟩
    rw [Thread.rank, Thread.rank, hp]
    dsimp only
    omega
  | @elapsed w hp hm =>
    refine ⟨w, _, down_loop rfl rfl rfl rfl ?_ rfl rfl ?_⟩
    · rcases hp with hp | hp <;> rw [hp] <;> intro h <;> cases h
    · show 3 < (s.workers w).rank
      rw [Thread.rank, if_pos hm]
      rcases hp with hp | hp <;> rw [hp] <;> dsimp only <;> omega
  | took hp hq' => rw [hu.queue] at hq'; cases hq'
  | closed hp hq' hh => rw [hu.handle] at hh; cases hh
  | loaded hp he => exact (busy hp rfl).elim
  | unloadable hp ht he => exact (busy hp rfl).elim
  | served hp hm ht hd => exact (busy hp rfl).elim
  | panicked hp hm ht => exact (busy hp rfl).elim
  | replied hp => exact (busy hp rfl).elim
  | again hp hs => exact (busy hp rfl).elim
  | fatal hp hs ho => exact (busy hp rfl).elim
  | broke hp hs ho => exact (busy hp rfl).elim
  | noted hp hs => exact (busy hp rfl).elim
  | died hp => exact (busy hp rfl).elim
  | submitted hh => rw [Quiet, hd] at hq; cases hq
  | enqueued ht hs => rw [hu.tickets] at ht; cases ht
  | disconnected ht hc => rw [hu.tickets] at ht; cases ht
  | dropped hh => rw [Quiet, hd] at hq; cases hq

/-! ## the measure -/

theorem sum_rank_lt {w : Nat} {th : Thread F} (hn : w < p.n)
    (hw : t.workers = Function.update s.workers w th) (hr : th.rank < (s.workers w).rank) :
    ∑ k ∈ Finset.range p.n, (t.workers k).rank < ∑ k ∈ Finset.range p.n, (s.workers k).rank := by
  refine Finset.sum_lt_sum ?_ ⟨w, Finset.mem_range.mpr hn, ?_⟩
  · intro k _
    rw [hw]
    by_cases hk : k = w
    · subst hk
      rw [Function.update_self]
      exact hr.le
    · rw [Function.update_of_ne hk]
  · rw [hw, Function.update_self]
    exact hr

theorem Effect.exited {k : Nat} (h : Effect s t) (hx : (s.workers k).phase.isExited = true) :
    (t.workers k).phase.isExited = true := by
  obtain ⟨how, hp⟩ : ∃ how, (s.workers k).phase = .exited how := by
    generalize (s.workers k).phase = ph at hx
    cases ph with
    | exited how => exact ⟨how, rfl⟩
    | _ => cases hx
  -- a thread in startup has not ended
  have other {w : Nat} (hst : (s.workers w).phase = .starting) : k ≠ w := by
    rintro rfl
    rw [hp] at hst
    cases hst
  cases h with
  | ready hst _ _ _ hw _ => rw [hw, Function.update_of_ne (other hst)]; exact hx
  | failed hst _ _ _ hw _ _ => rw [hw, Function.update_of_ne (other hst)]; exact hx
  | other _ _ _ hw => rw [(hw k).exited hp]; exact hx

theorem Effect.init {s t : System F} (h : Effect s t) : t.init = s.init := by
  cases h with
  | ready _ hi _ _ _ _ => exact hi
  | failed _ hi _ _ _ _ _ => exact hi
  | other hi _ _ _ => exact hi

theorem Effect.hasNews {k : Nat} (h : Effect s t) (hx : s.hasNews k = true) : t.hasNews k = true := by
  unfold System.hasNews at hx ⊢
  rw [Bool.or_eq_true] at hx ⊢
  rcases hx with hx | hx
  · left
    cases h with
    | ready _ _ _ hc _ _ => rw [hc]; simp
    | failed _ _ _ hc _ _ _ => rw [hc]; simp
    | other _ _ hc _ => rw [hc]; exact hx
  · exact .inr (h.exited hx)

/-- a step of a thread does not put the init task back -/
theorem initRank_effect (h : Effect s t) : p.initRank t ≤ p.initRank s := by
  unfold Setup.initRank
  rw [h.init]
  cases s.init with
  | recv k =>
    dsimp only
    by_cases hn : s.hasNews k = true
    · rw [if_pos hn, if_pos (h.hasNews hn)]
    · rw [if_neg hn]
      split <;> omega
  | join k =>
    dsimp only
    by_cases hn : (s.workers k).phase.isExited = true
    · rw [if_pos hn, if_pos (h.exited hn)]
    · rw [if_neg hn]
      split <;> omega
  | spawn k => exact le_refl _
  | parked k => exact le_refl _
  | count k delta => exact le_refl _
  | done r => exact le_refl _

theorem initRank_done {r : Except AnyError Unit} (h : t.init = .done r) : p.initRank t = 0 := by
  rw [Setup.initRank, h]

theorem rank_of_workers (hw : t.workers = s.workers) (hlt : p.initRank t < p.initRank s) :
    p.rank t < p.rank s := by
  unfold Setup.rank
  rw [hw]
  omega

/-- a step of the init task is one step less -/
theorem rank_init (inv : InitInv p s) (h : Move p s .init t) : p.rank t < p.rank s := by
  have hle := inv.spawned_le
  unfold System.spawned at hle
  cases h with
  | @spawned k hi =>
    rw [hi] at hle
    have hpc := inv.pc
    rw [hi] at hpc
    cases hpc with
    | wait hk _ _ => cases hk
    | spawn hn hc =>
      have hf : s.workers s.rssDeltas.length = .fresh := by
        refine inv.later _ ?_
        rw [System.spawned, hi]
      have hsum := sum_rank_lt (p := p) (s := s)
        (t := { s.setPhase s.rssDeltas.length .starting with init := .recv s.rssDeltas.length })
        (w := s.rssDeltas.length) hn rfl (by rw [hf]; show 8 < 9; omega)
      have hinit : p.initRank { s.setPhase s.rssDeltas.length .starting with
          init := .recv s.rssDeltas.length } ≤ p.initRank s := by
        unfold Setup.initRank
        rw [hi]
        exact Nat.sub_le _ _
      exact Nat.add_lt_add_of_lt_of_le hsum hinit
  | @heard k delta rest hi hc =>
    refine rank_of_workers rfl ?_
    rw [hi] at hle
    have hnews : s.hasNews k = true := by rw [System.hasNews, hc]; rfl
    unfold Setup.initRank
    rw [hi]
    dsimp only at hle ⊢
    rw [if_pos hnews]
    omega
  | @heardError k e rest hi hc =>
    refine rank_of_workers System.closeIfLast_workers ?_
    rw [initRank_done System.closeIfLast_init, Setup.initRank, hi]
    rw [hi] at hle
    dsimp only at hle ⊢
    split <;> omega
  | @silent k hi hc =>
    refine rank_of_workers rfl ?_
    rw [hi] at hle
    have hnews : s.hasNews k = (s.workers k).phase.isExited := by rw [System.hasNews, hc]; rfl
    unfold Setup.initRank
    rw [hi]
    dsimp only at hle ⊢
    rw [hnews]
    split <;> omega
  | @joined k how hi hp =>
    refine rank_of_workers System.closeIfLast_workers ?_
    rw [initRank_done System.closeIfLast_init, Setup.initRank, hi]
    rw [hi] at hle
    dsimp only at hle ⊢
    split <;> omega
  | @pending k hi hp =>
    refine rank_of_workers rfl ?_
    rw [hi] at hle
    unfold Setup.initRank
    rw [hi]
    dsimp only at hle ⊢
    rw [if_neg (by rw [hp]; decide)]
    omega
  | @woken k hi hw =>
    refine rank_of_workers rfl ?_
    rw [hi] at hle
    have hnews : System.hasNews { s with init := .recv k } k = true := by
      rw [System.hasNews, Bool.or_eq_true, Bool.not_eq_true', List.isEmpty_eq_false_iff]
      exact hw
    unfold Setup.initRank
    rw [hi]
    dsimp only at hle ⊢
    rw [if_pos hnews]
    omega
  | @counted k delta hi =>
    obtain ⟨hw, -, -, hi'⟩ := countWorker_eq (p := p) (s := s) k delta
    refine rank_of_workers hw ?_
    rw [hi] at hle
    unfold Setup.initRank
    rw [hi, hi']
    dsimp only at hle ⊢
    by_cases hlt : k + 1 < p.n
    · rw [if_pos hlt]
      dsimp only
      omega
    · rw [if_neg hlt]
      dsimp only
      omega

/-! ## quiet runs -/

structure QuietInv (p : Setup) (s : System F) : Prop extends InitInv p s where
  unused : s.init.isDone = false → Unused s
  /-- who is blamed did not signal `Ok` -/
  blamed : ∀ e, s.init = .done (.error e) →
    ∀ delta, (s.workers s.rssDeltas.length).signal ≠ some (.ok delta)

theorem Unused.down (hu : Unused s) {w : Nat} {th : Thread F} (h : Down s t w th) : Unused t := by
  refine ⟨h.tickets.trans hu.tickets, h.queue.trans hu.queue, h.handle.trans hu.handle, fun k => ?_⟩
  rw [h.workers]
  by_cases hk : k = w
  · subst hk
    rw [Function.update_self]
    exact h.calm
  · rw [Function.update_of_ne hk]
    exact hu.calm k

theorem Unused.of_workers (hu : Unused s) (ht : t.tickets = s.tickets) (hq : t.queue = s.queue)
    (hh : t.poolHandle = s.poolHandle) (hw : t.workers = s.workers) : Unused t :=
  ⟨ht.trans hu.tickets, hq.trans hu.queue, hh.trans hu.handle, fun k => by rw [hw]; exact hu.calm k⟩

theorem not_done_of_init (h : Move p s .init t) : s.init.isDone = false := by
  cases h with
  | spawned hi => rw [hi]; rfl
  | heard hi _ => rw [hi]; rfl
  | heardError hi _ => rw [hi]; rfl
  | silent hi _ => rw [hi]; rfl
  | joined hi _ => rw [hi]; rfl
  | pending hi _ => rw [hi]; rfl
  | woken hi _ => rw [hi]; rfl
  | counted hi => rw [hi]; rfl

/-- after the init task is through -/
theorem quietInv_done (inv : QuietInv p s) (hd : s.init.isDone = true) (h : Effect s t) :
    QuietInv p t := by
  refine ⟨initInv_effect inv.toInitInv h, ?_, ?_⟩
  · intro hd'
    rw [h.init, hd] at hd'
    cases hd'
  · intro e he delta
    rw [h.init] at he
    have hno {w : Nat} (hp : (s.workers w).phase = .starting) : False := by
      have haw := (inv.starting hp).2.1
      rw [he] at haw
      cases haw
    cases h with
    | ready hp _ _ _ _ _ => exact (hno hp).elim
    | failed hp _ _ _ _ _ _ => exact (hno hp).elim
    | other _ hdl _ hw =>
      rw [hdl, (hw _).signal]
      exact inv.blamed e he delta

/-- the worker that is waited for has failed -/
theorem quietInv_finishError {e : AnyError} (hinv : InitInv p (s.finishInit p (.error e)))
    (hb : ∀ delta, (s.workers s.rssDeltas.length).signal ≠ some (.ok delta)) :
    QuietInv p (s.finishInit p (.error e)) := by
  refine ⟨hinv, ?_, ?_⟩
  · intro hd
    rw [System.finishInit, System.closeIfLast_init] at hd
    cases hd
  · intro _ _ delta
    rw [System.finishInit, System.closeIfLast_workers, System.closeIfLast_rssDeltas]
    exact hb delta

theorem quietInv_init (inv : QuietInv p s) (h : Move p s .init t) : QuietInv p t := by
  have hinv := initInv_init inv.toInitInv h
  have hu := inv.unused (not_done_of_init h)
  have hpc := inv.pc
  cases h with
  | @spawned k hi =>
    refine ⟨hinv, fun _ => ⟨hu.tickets, hu.queue, hu.handle, fun j => ?_⟩, fun e he => by cases he⟩
    have hf : s.workers k = .fresh := by
      refine inv.later _ ?_
      rw [System.spawned, hi]
    show Calm (Function.update s.workers k _ j)
    by_cases hj : j = k
    · subst hj
      rw [Function.update_self, hf]
      exact ⟨rfl, fun delta hs => by cases hs⟩
    · rw [Function.update_of_ne hj]
      exact hu.calm j
  | heard hi hc => exact ⟨hinv, fun _ => hu.of_workers rfl rfl rfl rfl, fun e he => by cases he⟩
  | @heardError k e rest hi hc =>
    rw [hi] at hpc
    cases hpc with
    | wait hk hn ha =>
      rw [hc] at ha
      cases ha with
      | failed hp hs =>
        refine quietInv_finishError hinv fun delta h => ?_
        rw [hs] at h
        cases h
  | silent hi hc => exact ⟨hinv, fun _ => hu.of_workers rfl rfl rfl rfl, fun e he => by cases he⟩
  | @joined k how hi hp =>
    rw [hi] at hpc
    cases hpc with
    | wait hk hn ha =>
      cases hk
      exact quietInv_finishError hinv ((hu.calm _).silent (by rw [hp]; rfl))
  | pending hi hp => exact ⟨hinv, fun _ => hu.of_workers rfl rfl rfl rfl, fun e he => by cases he⟩
  | woken hi hw => exact ⟨hinv, fun _ => hu.of_workers rfl rfl rfl rfl, fun e he => by cases he⟩
  | @counted k delta hi =>
    refine ⟨hinv, fun hd => ?_, fun e he => ?_⟩
    · obtain ⟨-, -, -, hi'⟩ := countWorker_eq (p := p) (s := s) k delta
      by_cases hlt : k + 1 < p.n
      · unfold countWorker
        dsimp only
        rw [if_pos hlt]
        exact hu.of_workers rfl rfl rfl rfl
      · rw [hi', if_neg hlt] at hd
        cases hd
    · obtain ⟨-, -, -, hi'⟩ := countWorker_eq (p := p) (s := s) k delta
      rw [hi'] at he
      split at he <;> cases he

theorem quietInv_move {a : Act F} (inv : QuietInv p s) (h : Move p s a t) (hq : Quiet s a) :
    QuietInv p t := by
  by_cases ha : a = .init
  · subst ha
    exact quietInv_init inv h
  · have he := move_effect h ha
    cases hd : s.init.isDone with
    | true => exact quietInv_done inv hd he
    | false =>
      obtain ⟨w, th, hdown⟩ := quiet_move inv.toInitInv (inv.unused hd) hd h ha hq
      refine ⟨initInv_effect inv.toInitInv he, fun _ => (inv.unused hd).down hdown, fun e hi => ?_⟩
      rw [he.init] at hi
      rw [hi] at hd
      cases hd

theorem quietInv_start (ceiling : Nat) : QuietInv p (start p ceiling : System F) where
  toInitInv := initInv_start ceiling
  unused := fun _ => ⟨rfl, rfl, rfl, fun _ => ⟨rfl, fun delta h => by cases h⟩⟩
  blamed := fun e he => by cases he

theorem reach_quietInv {ceiling : Nat} (h : Reach (step p) Quiet (start p ceiling) s) : QuietInv p s :=
  h.invariant (quietInv_start ceiling) fun _ _ _ inv hq hs => quietInv_move inv (step_cases hs) hq

theorem rank_move {a : Act F} (inv : QuietInv p s) (hd : s.init.isDone = false) (h : Move p s a t)
    (hq : Quiet s a) : p.rank t < p.rank s := by
  by_cases ha : a = .init
  · subst ha
    exact rank_init inv.toInitInv h
  · obtain ⟨w, th, hdown⟩ := quiet_move inv.toInitInv (inv.unused hd) hd h ha hq
    have hw := (inv.present_lt hdown.present).trans_le inv.spawned_le
    exact Nat.add_lt_add_of_lt_of_le (sum_rank_lt hw hdown.workers hdown.rank)
      (initRank_effect (move_effect h ha))

/-! ## the end of the init task -/

/-- worker `k` has signalled `Ok` -/
def System.signalledOk (s : System F) (k : Nat) : Prop := ∃ delta, (s.workers k).signal = some (.ok delta)

/-- the text is about worker `k` -/
def Names (k : Nat) (e : AnyError) : Prop := ∃ rest, e.display = "Worker " ++ toString k ++ " " ++ rest

theorem names_msg (k : Nat) (rest tail : String) :
    Names k (.msg ("Worker " ++ toString k ++ (" " ++ rest) ++ tail)) := by
  refine ⟨rest ++ tail, ?_⟩
  show "Worker " ++ toString k ++ (" " ++ rest) ++ tail = _
  simp only [String.append_assoc]

theorem Blame.names {k : Nat} {th : Thread F} {e : AnyError} (h : Blame k th e) : Names k e := by
  cases h with
  | @failed e' hs => exact names_msg k "failed to load models: " e'.display
  | @joined how hp =>
    cases how with
    | ok =>
      have h := names_msg k "exited cleanly without signaling readiness" ""
      rw [String.append_empty] at h
      exact h
    | err e' => exact names_msg k "exited with error before signaling ready: " e'.display
    | panicked text => exact names_msg k "panicked before signaling ready: " text

/-- with both polls pending, the worker that is waited for is still in startup -/
theorem InitInv.blocked (inv : InitInv p s) (hd : s.init.isDone = false) (hb : step p s .init = none) :
    ∃ k, s.init.awaits = some k ∧ (s.workers k).phase = .starting := by
  have hpc := inv.pc
  rw [step, initStep] at hb
  cases hi : s.init with
  | parked k =>
    rw [hi] at hb hpc
    dsimp only at hb
    split at hb
    · cases hb
    · rename_i hw
      rw [Bool.or_eq_true, Bool.not_eq_true', List.isEmpty_eq_false_iff] at hw
      refine ⟨k, rfl, ?_⟩
      cases hpc with
      | wait hk hn ha =>
        cases hk
        generalize hc : s.readyCh = ch at ha hw
        cases ha with
        | silent hp hs => exact hp
        | ready hs => exact absurd (.inl (List.cons_ne_nil _ _)) hw
        | failed hp hs => exact absurd (.inl (List.cons_ne_nil _ _)) hw
        | mute hp hs => exact absurd (.inr (by rw [hp]; rfl)) hw
  | done r => rw [hi] at hd; cases hd
  | spawn k => rw [hi] at hb; cases hb
  | recv k => rw [hi] at hb; dsimp only at hb; split at hb <;> cases hb
  | join k => rw [hi] at hb; dsimp only at hb; split at hb <;> cases hb
  | count k delta => rw [hi] at hb; cases hb

/-- some step is always possible before the init task is through -/
theorem InitInv.progress (inv : InitInv p s) (hd : s.init.isDone = false) :
    ∃ a t, Quiet s a ∧ step p s a = some t := by
  cases hb : step p s .init with
  | some t => exact ⟨.init, t, trivial, hb⟩
  | none =>
    obtain ⟨k, -, hp⟩ := inv.blocked hd hb
    exact ⟨.vanish k .ok, _, trivial, by rw [step, vanishStep, hp]⟩

theorem InitInv.spawned_le_succ (inv : InitInv p s) : s.spawned ≤ s.rssDeltas.length + 1 := by
  have hpc := inv.pc
  generalize hi : s.init = pc at hpc
  cases hpc with
  | wait hk hn _ => exact (spawned_awaits (s := s) (by rw [hi]; exact hk)).le
  | spawn hn _ => rw [System.spawned, hi]; exact Nat.le_succ _
  | count hn _ _ => rw [System.spawned, hi]
  | ok hn => rw [System.spawned, hi]; exact Nat.le_succ _
  | error hn _ _ => rw [System.spawned, hi]

theorem QuietInv.result (inv : QuietInv p s) {r : Except AnyError Unit} (hi : s.init = .done r) :
    (r = .ok () ∧ s.rssDeltas.length = p.n) ∨
      ∃ e, r = .error e ∧ s.rssDeltas.length < p.n ∧ Names s.rssDeltas.length e ∧
        ¬s.signalledOk s.rssDeltas.length := by
  have hpc := inv.pc
  rw [hi] at hpc
  cases hpc with
  | wait hk _ _ => cases hk
  | ok hn => exact .inl ⟨rfl, hn⟩
  | @error e hn hp hb =>
    refine .inr ⟨e, rfl, hn, hb.names, ?_⟩
    rintro ⟨delta, hs⟩
    exact inv.blamed e hi delta hs

/-- **startup of a pool whose channel is open and unused** -/
theorem init_protocol (ceiling : Nat) (h : Reach (step p) Quiet (start p ceiling) s) :
    -- one after another, each after the signal of the one before was received
    (∀ k, (s.workers k).phase ≠ .absent →
      k < p.n ∧ ∀ j < k, ∃ delta, (s.workers j).signal = some (.ok delta) ∧
        s.rssDeltas[j]? = some delta) ∧
    -- the result
    (∀ r, s.init = .done r → (r = .ok () ↔ ∀ k < p.n, s.signalledOk k)) ∧
    (s.init = .done (.ok ()) → s.rssDeltas.length = p.n ∧
      ∀ k < p.n, ∃ delta, (s.workers k).signal = some (.ok delta) ∧ s.rssDeltas[k]? = some delta) ∧
    (∀ k < p.n, s.init.isDone = true → (∀ j < k, s.signalledOk j) → ¬s.signalledOk k →
      (∃ e, s.init = .done (.error e) ∧ Names k e) ∧ ∀ j, k < j → (s.workers j).phase = .absent) ∧
    -- it never stays blocked
    (step p s .init = none → s.init.isDone = true ∨
      ∃ k, s.init.awaits = some k ∧ (s.workers k).phase = .starting) ∧
    Inevitable (step p) Quiet (fun t => t.init.isDone = true) s := by
  have inv := reach_quietInv h
  refine ⟨?_, ?_, ?_, ?_, ?_, ?_⟩
  · intro k hk
    have hlt := inv.present_lt hk
    refine ⟨hlt.trans_le inv.spawned_le, fun j hj => inv.heard_of_lt ?_⟩
    have := inv.spawned_le_succ
    omega
  · intro r hi
    rcases inv.result hi with ⟨rfl, hn⟩ | ⟨e, rfl, hn, -, hno⟩
    · refine ⟨fun _ k hk => ?_, fun _ => rfl⟩
      obtain ⟨delta, hs, -⟩ := inv.heard_of_lt (k := k) (by omega)
      exact ⟨delta, hs⟩
    · exact ⟨fun hr => (by cases hr), fun hall => absurd (hall _ hn) hno⟩
  · intro hi
    rcases inv.result hi with ⟨-, hn⟩ | ⟨e, hr, -⟩
    · exact ⟨hn, fun k hk => inv.heard_of_lt (by omega)⟩
    · cases hr
  · intro k hk hd hbefore hno
    obtain ⟨r, hi⟩ : ∃ r, s.init = .done r := by
      cases hi : s.init with
      | done r => exact ⟨r, rfl⟩
      | _ => rw [hi] at hd; cases hd
    -- every worker with a delta has signalled, so `k` is the one without
    have hge : s.rssDeltas.length ≤ k := by
      by_contra hlt
      obtain ⟨delta, hs, -⟩ := inv.heard_of_lt (k := k) (by omega)
      exact hno ⟨delta, hs⟩
    rcases inv.result hi with ⟨-, hn⟩ | ⟨e, rfl, hn, hnames, hno'⟩
    · omega
    · have hkm : k = s.rssDeltas.length := by
        by_contra hne
        exact hno' (hbefore _ (by omega))
      subst hkm
      refine ⟨⟨e, hi, hnames⟩, fun j hj => ?_⟩
      rw [inv.later j ?_]
      · rfl
      · have := inv.spawned_le_succ
        omega
  · intro hb
    cases hd : s.init.isDone with
    | true => exact .inl rfl
    | false => exact .inr (inv.blocked hd hb)
  · refine Inevitable.of_measure p.rank (I := QuietInv p) ?_ ?_ ?_ inv
    · intro s a t inv hq hs
      exact quietInv_move inv (step_cases hs) hq
    · intro s inv hd
      exact inv.progress (by simpa using hd)
    · intro s a t inv hd hq hs
      exact rank_move inv (by simpa using hd) (step_cases hs) hq

end

/-- two workers on the CPU, with an idle timeout -/
def cpuPair : Setup where
  host := ⟨fun _ => 0, fun _ => 0, fun runs => some (100 + runs.length)⟩
  config := ⟨.cpu, .fp16, 5, false, false, false, 0, [], true⟩
  idleTimeout := true
  n := 2
  size := poolSize_two

/-- the leader comes up and times out at once, the follower panics in startup -/
theorem init_protocol_panic : ∃ s : System Int, Reach (step cpuPair) Quiet (start cpuPair 0) s ∧
    (∃ e, s.init = .done (.error e) ∧ Names 1 e) ∧ ∀ j, 1 < j → (s.workers j).phase = .absent := by
  have hrun : ∃ s : System Int, Reach (step cpuPair) Quiet (start cpuPair 0) s ∧
      s.init.isDone = true ∧ (s.workers 0).signal = some (.ok 1) ∧ (s.workers 1).signal = none :=
    Reach.exists_of_run [.init, .startup 0 100 (.ok echoModels), .drain 0 [], .init, .timeout 0, .init,
      .init, .vanish 1 (.panicked "boom"), .init, .init] (by simp [Quiet]) (by decide)
  obtain ⟨s, hr, hd, h0, h1⟩ := hrun
  refine ⟨s, hr, (init_protocol 0 hr).2.2.2.1 1 (by decide) hd ?_ ?_⟩
  · intro j hj
    obtain rfl : j = 0 := by omega
    exact ⟨1, h0⟩
  · rintro ⟨delta, hs⟩
    rw [h1] at hs
    cases hs

end EmbedServer.Pool
