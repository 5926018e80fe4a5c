import EmbedServer.Lib.Counting
import EmbedServer.Pool.Init

/-!
# What a step is to the two counters (`live_workers`, `loaded_workers`)

A step moves at most one thread.  `Shift` says how that thread's session and `loaded_workers` move
together, `LiveShift` how its end and `live_workers` do.

* `Books`, `move_books`   every step of the pool, as one of these;
* `Unloads`, `Dies`       the steps that count a worker out, and the ends of a thread that do not;
* `BooksInv`              what the threads know about themselves, and `live_workers`; it holds in every
                          run (`reach_booksInv`).
-/

set_option linter.unusedSectionVars false

namespace EmbedServer.Pool

section
variable {F : Type}

/-- a running thread with a session -/
def Thread.session (th : Thread F) : Bool := th.worker.models.isSome && !th.phase.gone

/-- the ready signal of worker `w` is processed -/
def System.countedIn (s : System F) (w : Nat) : Prop := w < s.rssDeltas.length

instance (s : System F) (w : Nat) : Decidable (s.countedIn w) := inferInstanceAs (Decidable (_ < _))

/-- worker `k` has not ended -/
def System.isLive (s : System F) (k : Nat) : Prop := (s.workers k).phase.isExited = false

instance (s : System F) : DecidablePred s.isLive := fun _ => inferInstanceAs (Decidable (_ = _))

/-- what a thread knows about itself -/
structure ThreadOk (th : Thread F) : Prop where
  /-- the loop is entered behind the ready signal -/
  signal : th.phase.inLoop = true → ∃ delta, th.signal = some (.ok delta)
  failed : ∀ e, th.phase = .failed e → ∀ delta, th.signal ≠ some (.ok delta)
  /-- a result that is not skipped came from a session -/
  session : ∀ out, (th.phase = .acting out ∨ ∃ id r, th.phase = .replying id r out) → out.skip = false →
    th.worker.models.isSome = true

/-- it has sent its ready signal -/
def Thread.signalled (th : Thread F) : Prop := ∃ delta, th.signal = some (.ok delta)

/-- outside its loop a thread has no models -/
def Thread.Bare (th : Thread F) : Prop := th.phase.inLoop = false → th.worker.models = none

/-- a phase that says nothing about a result -/
def Phase.plain : Phase F → Bool
  | .failed _ | .replying _ _ _ | .acting _ => false
  | _ => true

theorem ThreadOk.plain {th : Thread F} (hp : th.phase.plain = true)
    (hs : th.phase.inLoop = true → ∃ delta, th.signal = some (.ok delta)) : ThreadOk th := by
  refine ⟨hs, fun e he => ?_, fun out ho => ?_⟩
  · rw [he] at hp
    cases hp
  · rcases ho with ho | ⟨id, r, ho⟩ <;> rw [ho] at hp <;> cases hp

theorem Phase.present {ph : Phase F} (h : ph.gone = false) : ph.isExited = false ∧ ph ≠ .absent := by
  constructor
  · cases ph <;> first | rfl | cases h
  · rintro rfl
    cases h

theorem Phase.inLoop_present {ph : Phase F} (h : ph.inLoop = true) : ph.gone = false := by
  cases ph <;> first | rfl | cases h

theorem Thread.session_inLoop (th : Thread F) (h : th.phase.inLoop = true) :
    th.session = th.worker.models.isSome := by
  rw [Thread.session, Phase.inLoop_present h]
  simp

theorem Thread.session_alive {th : Thread F} (h : th.session = true) : th.phase.isExited = false := by
  unfold Thread.session at h
  rw [Bool.and_eq_true, Bool.not_eq_true'] at h
  generalize th.phase = ph at h
  cases ph with
  | exited how => cases h.2
  | _ => rfl

/-- a session is held in the loop -/
theorem Thread.Bare.inLoop {th : Thread F} (h : th.Bare) (hs : th.session = true) :
    th.phase.inLoop = true := by
  by_contra hp
  rw [Thread.session, h (Bool.eq_false_iff.mpr hp)] at hs
  cases hs

theorem Thread.Bare.no_session {th : Thread F} (h : th.Bare) (hp : th.phase.inLoop = false) :
    th.session = false := by
  rw [Thread.session, h hp]
  rfl

/-! ## one thread and the counters -/

/-- an unload that counts the worker out -/
inductive Unloads (s : System F) (w : Nat) : Act F → Prop
  | elapsed : Unloads s w (.timeout w)
  | closed (hq : s.queue = []) (hm : (s.workers w).worker.models.isSome = true) : Unloads s w (.recv w)
  | broke {out} (hp : (s.workers w).phase = .acting out) (hs : out.skip = false)
      (ho : shouldUnloadOnOutcome out.outcome = true) : Unloads s w (.act w)

/-- an end of the thread that does not: a fatal build error, or a panic -/
inductive Dies (s : System F) (w : Nat) : Act F → Prop
  | fatal {out} (hp : (s.workers w).phase = .acting out) (hs : out.skip = false)
      (ho : out.outcome = .trtFatal) : Dies s w (.act w)
  | died : Dies s w (.die w)

/-- how thread `w`, its ready signal and `loaded_workers` move together -/
inductive Shift (s t : System F) (a : Act F) (w : Nat) (th : Thread F) : Prop
  | keep (h : th.session = (s.workers w).session) (hs : th.signalled ↔ (s.workers w).signalled)
      (hl : t.shared.loadedWorkers = s.shared.loadedWorkers)
  | drop (h : (s.workers w).session = true) (h' : th.session = false)
      (hs : th.signal = (s.workers w).signal) (ha : Unloads s w a)
      (hl : t.shared.loadedWorkers = fetchSub1 s.shared.loadedWorkers)
  | gain (h : (s.workers w).session = false) (h' : th.session = true) (hs : th.signal = (s.workers w).signal)
      (hsig : (s.workers w).signalled) (hl : t.shared.loadedWorkers = fetchAdd1 s.shared.loadedWorkers)
  | ready (hp : (s.workers w).phase = .starting) (h' : th.session = true) (hsig : th.signalled)
      (hl : t.shared.loadedWorkers = s.shared.loadedWorkers)
  | lost (h' : th.phase.isExited = true) (hs : th.signal = (s.workers w).signal) (ha : Dies s w a)
      (hl : t.shared.loadedWorkers = s.shared.loadedWorkers)

/-- how thread `w` and `live_workers` move together -/
inductive LiveShift (p : Setup) (s t : System F) (w : Nat) (th : Thread F) : Prop
  | keep (h : th.phase.isExited = (s.workers w).phase.isExited) (hl : t.live = s.live)
  | exit (h : (s.workers w).phase.isExited = false) (h' : th.phase.isExited = true) (hn : w < p.n)
      (hl : t.live = fetchSub1 s.live)

variable [F32Ops F] (p : Setup)

/-- a step: nothing, one thread, or the ready signal of one thread is processed -/
inductive Books (s : System F) (a : Act F) (t : System F) : Prop
  | still (hw : t.workers = s.workers) (hd : t.rssDeltas = s.rssDeltas)
      (hl : t.shared.loadedWorkers = s.shared.loadedWorkers) (hv : t.live = s.live)
  | moved {w th} (hn : w < p.n) (hw : t.workers = Function.update s.workers w th)
      (hd : t.rssDeltas = s.rssDeltas) (hok : ThreadOk th) (hbare : th.Bare) (hl : Shift s t a w th)
      (hv : LiveShift p s t w th)
  | counted {delta} (hi : s.init = .count s.rssDeltas.length delta)
      (hsig : (s.workers s.rssDeltas.length).signalled) (hn : s.rssDeltas.length < p.n)
      (hw : t.workers = s.workers) (hd : t.rssDeltas = s.rssDeltas ++ [delta])
      (hl : t.shared.loadedWorkers = fetchAdd1 s.shared.loadedWorkers) (hv : t.live = s.live)

structure BooksInv (s : System F) : Prop extends InitInv p s where
  threads : ∀ k, ThreadOk (s.workers k)
  bare : ∀ k, (s.workers k).Bare
  live : s.live = Nat.count s.isLive p.n

variable {p} {s t : System F} {a : Act F}

theorem BooksInv.lt_of_present (inv : BooksInv p s) {w : Nat} (h : (s.workers w).phase ≠ .absent) : w < p.n :=
  (inv.present_lt h).trans_le inv.spawned_le

/-- worker `w` goes on in its loop -/
theorem books_loop (inv : BooksInv p s) {w : Nat} {ph : Phase F} {wk : Worker F}
    (hp : (s.workers w).phase.inLoop = true) (hp' : ph.inLoop = true)
    (hw : t.workers = Function.update s.workers w ⟨ph, wk, (s.workers w).signal⟩)
    (hd : t.rssDeltas = s.rssDeltas) (hv : t.live = s.live)
    (hok : ∀ out, (ph = .acting out ∨ ∃ id r, ph = .replying id r out) → out.skip = false →
      wk.models.isSome = true)
    (hl : (wk.models.isSome = (s.workers w).worker.models.isSome ∧
        t.shared.loadedWorkers = s.shared.loadedWorkers) ∨
      ((s.workers w).worker.models.isSome = true ∧ wk.models.isSome = false ∧ Unloads s w a ∧
        t.shared.loadedWorkers = fetchSub1 s.shared.loadedWorkers) ∨
      ((s.workers w).worker.models.isSome = false ∧ wk.models.isSome = true ∧
        t.shared.loadedWorkers = fetchAdd1 s.shared.loadedWorkers)) : Books p s a t := by
  have hsig := (inv.threads w).signal hp
  have hold := (s.workers w).session_inLoop hp
  have hnew := Thread.session_inLoop ⟨ph, wk, (s.workers w).signal⟩ hp'
  refine .moved (inv.lt_of_present (Phase.present (Phase.inLoop_present hp)).2) hw hd
    ⟨fun _ => hsig, ?_, hok⟩ ?_ ?_ ?_
  · intro e he
    have he : ph = .failed e := he
    rw [he] at hp'
    cases hp'
  · intro hout
    have hout : ph.inLoop = false := hout
    rw [hp'] at hout
    cases hout
  · rcases hl with ⟨h, he⟩ | ⟨h, h', hun, he⟩ | ⟨h, h', he⟩
    · exact .keep (by rw [hnew, hold, h]) Iff.rfl he
    · exact .drop (by rw [hold, h]) (by rw [hnew, h']) rfl hun he
    · exact .gain (by rw [hold, h]) (by rw [hnew, h']) rfl hsig he
  · refine .keep ?_ hv
    rw [(Phase.present (Phase.inLoop_present hp)).1]
    exact (Phase.present (Phase.inLoop_present hp')).1

/-- worker `w` ends -/
theorem books_exit (inv : BooksInv p s) {s₁ : System F} {w : Nat} {how : Joined}
    (hw : s₁.workers = s.workers) (hd : s₁.rssDeltas = s.rssDeltas) (hv : s₁.live = s.live)
    (hp : (s.workers w).phase.gone = false)
    (hl : ((s.workers w).session = false ∨ Dies s w a) ∧
        s₁.shared.loadedWorkers = s.shared.loadedWorkers ∨
      (s.workers w).session = true ∧ Unloads s w a ∧
        s₁.shared.loadedWorkers = fetchSub1 s.shared.loadedWorkers) :
    Books p s a (s₁.exitWorker p w how) := by
  have hws := System.exitWorker_workers (p := p) (s := s₁) (w := w) how
  rw [hw] at hws
  have hsh : (s₁.exitWorker p w how).shared = s₁.shared := System.closeIfLast_shared
  obtain ⟨hx, ha⟩ := Phase.present hp
  have hn := inv.lt_of_present ha
  refine .moved hn hws (System.closeIfLast_rssDeltas.trans hd) (.plain rfl ?_) (fun _ => rfl) ?_
    (.exit hx rfl hn ?_)
  · intro h
    cases h
  · rw [← hsh] at hl
    rcases hl with ⟨h | h, he⟩ | ⟨h, hun, he⟩
    · exact .keep (by rw [h]; rfl) Iff.rfl he
    · exact .lost rfl rfl h he
    · exact .drop h rfl rfl hun he
  · rw [← hv]
    exact System.closeIfLast_live

/-- the end of startup -/
theorem books_started (inv : BooksInv p s) {w preLoadRss : Nat} {load : Except String (Models F)}
    {out : StartupOutcome F} {sh : Shared} (hp : (s.workers w).phase = .starting)
    (ho : startupWorker p.host (p.configOf w) w preLoadRss load s.shared = (out, sh)) :
    Books p s a (startedUp p { s with shared := sh } w load out) := by
  obtain ⟨-, -, hn, hsig, -⟩ := inv.starting hp
  have hloop : (s.workers w).phase.inLoop = false := by rw [hp]; rfl
  have hl := startup_loaded ho
  cases out with
  | ready wk delta =>
    have hses : (⟨.top, wk, some (.ok delta)⟩ : Thread F).session = true := by
      rw [Thread.session_inLoop _ rfl]
      exact startup_ready ho
    refine .moved hn rfl rfl (.plain rfl fun _ => ⟨delta, rfl⟩) ?_ (.ready hp hses ⟨delta, rfl⟩ hl)
      (.keep (by rw [hp]; rfl) rfl)
    intro h
    cases h
  | loadFailed e =>
    refine .moved hn rfl rfl ⟨?_, ?_, ?_⟩ (fun _ => inv.bare w hloop) (.keep ?_ ?_ hl)
      (.keep (by rw [hp]; rfl) rfl)
    · intro h
      cases h
    · intro _ _ delta h
      cases h
    · rintro out (h | ⟨_, _, h⟩) <;> cases h
    · show (_ && _) = _
      rw [(inv.bare w).no_session hloop]
      exact (inv.bare w hloop).symm ▸ rfl
    · constructor
      · rintro ⟨delta, h⟩
        cases h
      · rintro ⟨delta, h⟩
        rw [hsig] at h
        cases h
  | refused e =>
    exact books_exit inv rfl rfl rfl (by rw [hp]; rfl)
      (.inl ⟨.inl ((inv.bare w).no_session hloop), hl⟩)

/-- the ready signal of a worker is processed -/
theorem books_counted (inv : BooksInv p s) {k delta : Nat} (hi : s.init = .count k delta) :
    Books p s a (countWorker p s k delta) := by
  obtain ⟨hw, hd, -, -⟩ := countWorker_eq (p := p) (s := s) k delta
  have hsh : (countWorker p s k delta).shared.loadedWorkers = fetchAdd1 s.shared.loadedWorkers ∧
      (countWorker p s k delta).live = s.live := by
    unfold countWorker System.finishInit
    dsimp only
    split
    · exact ⟨rfl, rfl⟩
    · exact ⟨congrArg Shared.loadedWorkers System.closeIfLast_shared, System.closeIfLast_live⟩
  have hpc := inv.pc
  rw [hi] at hpc
  cases hpc with
  | wait hk _ _ => cases hk
  | count hn _ hs => exact .counted hi ⟨delta, hs.signal⟩ hn hw hd hsh.1 hsh.2

theorem move_books (inv : BooksInv p s) (h : Move p s a t) : Books p s a t := by
  have none_of {out : DispatchOutcome} {ph : Phase F} (hp : ph.plain = true) :
      (ph = .acting out ∨ ∃ id r, ph = .replying id r out) → out.skip = false → False := by
    rintro (h | ⟨_, _, h⟩) <;> rw [h] at hp <;> cases hp
  cases h with
  | @spawned k hi =>
    have hf : s.workers k = .fresh := by
      refine inv.later _ ?_
      rw [System.spawned, hi]
    have hn : k < p.n := by
      have hpc := inv.pc
      rw [hi] at hpc
      cases hpc with
      | spawn hn _ => exact hn
      | wait hk _ _ => cases hk
    refine .moved hn rfl rfl (.plain rfl ?_) ?_ (.keep ?_ Iff.rfl rfl) (.keep ?_ rfl)
    · intro h
      cases h
    · intro _
      rw [hf]
      rfl
    · rw [hf]
      rfl
    · rw [hf]
      rfl
  | heard hi hc => exact .still rfl rfl rfl rfl
  | heardError hi hc =>
    exact .still System.closeIfLast_workers System.closeIfLast_rssDeltas
      (congrArg Shared.loadedWorkers System.closeIfLast_shared) System.closeIfLast_live
  | silent hi hc => exact .still rfl rfl rfl rfl
  | joined hi hp =>
    exact .still System.closeIfLast_workers System.closeIfLast_rssDeltas
      (congrArg Shared.loadedWorkers System.closeIfLast_shared) System.closeIfLast_live
  | pending hi hp => exact .still rfl rfl rfl rfl
  | woken hi hw => exact .still rfl rfl rfl rfl
  | counted hi => exact books_counted inv hi
  | started hp ho => exact books_started inv hp ho
  | @vanished w how hp =>
    exact books_exit inv rfl rfl rfl (by rw [hp]; rfl)
      (.inl ⟨.inl ((inv.bare w).no_session (by rw [hp]; rfl)), rfl⟩)
  | @left w e hp =>
    exact books_exit inv rfl rfl rfl (by rw [hp]; rfl)
      (.inl ⟨.inl ((inv.bare w).no_session (by rw [hp]; rfl)), rfl⟩)
  | drained hp hd =>
    exact books_loop inv (by rw [hp]; rfl) rfl rfl rfl rfl (fun _ h hs => (none_of rfl h hs).elim)
      (.inl ⟨drain_isSome hd, drain_loaded hd⟩)
  | locked hp hl =>
    exact books_loop inv (by rw [hp]; rfl) rfl rfl rfl rfl (fun _ h hs => (none_of rfl h hs).elim)
      (.inl ⟨rfl, rfl⟩)
  | elapsed hp hm =>
    refine books_loop inv ?_ rfl rfl rfl rfl (fun _ h hs => (none_of rfl h hs).elim)
      (.inr (.inl ⟨hm, rfl, .elapsed, rfl⟩))
    rcases hp with hp | hp <;> rw [hp] <;> rfl
  | took hp hq =>
    exact books_loop inv (by rw [hp]; rfl) rfl rfl rfl rfl (fun _ h hs => (none_of rfl h hs).elim)
      (.inl ⟨rfl, rfl⟩)
  | @closed w hp hq hh =>
    have hses := (s.workers w).session_inLoop (by rw [hp]; rfl)
    refine books_exit inv rfl rfl rfl (by rw [hp]; rfl) ?_
    cases hm : (s.workers w).worker.models.isSome with
    | true =>
      rw [hm] at hses
      exact .inr ⟨hses, .closed hq hm, by rw [System.closing, if_pos hm]⟩
    | false =>
      rw [hm] at hses
      exact .inl ⟨.inl hses, by rw [System.closing, if_neg (by rw [hm]; decide)]⟩
  | loaded hp he =>
    refine books_loop inv (by rw [hp]; rfl) rfl rfl rfl rfl (fun _ h hs => (none_of rfl h hs).elim) ?_
    rcases ensureModels_ok he with ⟨hm, rfl⟩ | ⟨hm, rfl⟩
    · exact .inl ⟨by rw [hm], rfl⟩
    · exact .inr (.inr ⟨by rw [hm]; rfl, rfl, rfl⟩)
  | unloadable hp ht he =>
    refine books_loop inv (by rw [hp]; rfl) rfl rfl rfl rfl (fun out h hs => ?_) (.inl ⟨rfl, rfl⟩)
    -- an error reply is skipped
    rcases h with h | ⟨_, _, h⟩ <;> cases h
    cases hs
  | served hp hm ht hd =>
    exact books_loop inv (by rw [hp]; rfl) rfl rfl rfl rfl (fun _ _ _ => rfl) (.inl ⟨by rw [hm]; rfl, rfl⟩)
  | panicked hp hm ht =>
    exact books_loop inv (by rw [hp]; rfl) rfl rfl rfl rfl (fun _ _ _ => rfl) (.inl ⟨by rw [hm]; rfl, rfl⟩)
  | replied hp =>
    refine books_loop inv (by rw [hp]; rfl) rfl rfl rfl rfl (fun out h hs => ?_) (.inl ⟨rfl, rfl⟩)
    rcases h with h | ⟨_, _, h⟩ <;> cases h
    exact (inv.threads _).session _ (.inr ⟨_, _, hp⟩) hs
  | again hp hs =>
    exact books_loop inv (by rw [hp]; rfl) rfl rfl rfl rfl (fun _ h hs => (none_of rfl h hs).elim)
      (.inl ⟨rfl, rfl⟩)
  | fatal hp hs ho =>
    exact books_exit inv rfl rfl rfl (by rw [hp]; rfl)
      (.inl ⟨.inr (.fatal hp hs ho), rfl⟩)
  | broke hp hs ho =>
    exact books_loop inv (by rw [hp]; rfl) rfl rfl rfl rfl (fun _ h hs => (none_of rfl h hs).elim)
      (.inr (.inl ⟨(inv.threads _).session _ (.inl hp) hs, rfl, .broke hp hs ho, rfl⟩))
  | noted hp hs =>
    exact books_loop inv (by rw [hp]; rfl) rfl rfl rfl rfl (fun _ h hs => (none_of rfl h hs).elim)
      (.inl ⟨rfl, rfl⟩)
  | died hp =>
    exact books_exit inv rfl rfl rfl (by rw [hp]; rfl) (.inl ⟨.inr .died, rfl⟩)
  | submitted hh => exact .still rfl rfl rfl rfl
  | enqueued ht hs => exact .still rfl rfl rfl rfl
  | disconnected ht hc => exact .still rfl rfl rfl rfl
  | dropped hh => exact .still rfl rfl rfl rfl

/-- every access to the counters -/
theorem Books.access (h : Books p s a t) :
    (t.shared.loadedWorkers = s.shared.loadedWorkers ∨
      t.shared.loadedWorkers = fetchAdd1 s.shared.loadedWorkers ∨
      t.shared.loadedWorkers = fetchSub1 s.shared.loadedWorkers) ∧
    (t.live = s.live ∨ t.live = fetchSub1 s.live) := by
  cases h with
  | still hw hd hl hv => exact ⟨.inl hl, .inl hv⟩
  | counted hi hsig hn hw hd hl hv => exact ⟨.inr (.inl hl), .inl hv⟩
  | moved hn hw hd hok hbare hl hv =>
    constructor
    · cases hl with
      | keep h hs hl => exact .inl hl
      | drop h h' hs ha hl => exact .inr (.inr hl)
      | gain h h' hs hsig hl => exact .inr (.inl hl)
      | ready hp h' hsig hl => exact .inl hl
      | lost h' hs ha hl => exact .inl hl
    · cases hv with
      | keep h hl => exact .inl hl
      | exit h h' hn hl => exact .inr hl

/-! ## every run -/

theorem Setup.n_lt (p : Setup) : p.n + 1 < counterSize := by
  have h := p.size.fits
  unfold maxPermits at h
  unfold counterSize
  omega

theorem fetchSub1_succ (m : Nat) : fetchSub1 (m + 1) = m := by
  rw [fetchSub1, if_neg (Nat.succ_ne_zero m), Nat.add_sub_cancel]

theorem live_shift (hlive : s.live = Nat.count s.isLive p.n) {w : Nat} {th : Thread F}
    (hw : t.workers = Function.update s.workers w th) (h : LiveShift p s t w th) :
    t.live = Nat.count t.isLive p.n := by
  have hother (k : Nat) (hk : k ≠ w) : t.isLive k ↔ s.isLive k := by
    unfold System.isLive
    rw [hw, Function.update_of_ne hk]
  have hsame : t.isLive w ↔ th.phase.isExited = false := by
    unfold System.isLive
    rw [hw, Function.update_self]
  cases h with
  | keep h hl =>
    rw [hl, hlive]
    refine (count_congr fun k _ => ?_).symm
    by_cases hk : k = w
    · subst hk
      rw [hsame, h]
      exact Iff.rfl
    · exact hother k hk
  | exit h h' hn hl =>
    have hone : Nat.count s.isLive p.n = Nat.count t.isLive p.n + 1 := by
      refine count_one_more hn ?_ h fun k hk => (hother k hk).symm
      rw [hsame, h']
      intro hf
      cases hf
    rw [hl, hlive, hone, fetchSub1_succ]

theorem live_still (hlive : s.live = Nat.count s.isLive p.n) (hw : t.workers = s.workers)
    (hv : t.live = s.live) : t.live = Nat.count t.isLive p.n := by
  rw [hv, hlive]
  refine count_congr fun k _ => ?_
  unfold System.isLive
  rw [hw]

/-- a property of every thread, when one has moved -/
theorem forall_update {P : Thread F → Prop} {w : Nat} {th : Thread F} (hth : P th)
    (h : ∀ k, P (s.workers k)) (k : Nat) : P (Function.update s.workers w th k) := by
  by_cases hk : k = w
  · subst hk
    rw [Function.update_self]
    exact hth
  · rw [Function.update_of_ne hk]
    exact h k

theorem Books.booksInv (h : Books p s a t) (inv : BooksInv p s) (hinv : InitInv p t) : BooksInv p t := by
  cases h with
  | still hw hd hl hv =>
    exact ⟨hinv, by rw [hw]; exact inv.threads, by rw [hw]; exact inv.bare, live_still inv.live hw hv⟩
  | moved hn hw hd hok hbare hl hv =>
    refine ⟨hinv, ?_, ?_, live_shift inv.live hw hv⟩
    · rw [hw]
      exact forall_update hok inv.threads
    · rw [hw]
      exact forall_update hbare inv.bare
  | counted hi hsig hn hw hd hl hv =>
    exact ⟨hinv, by rw [hw]; exact inv.threads, by rw [hw]; exact inv.bare, live_still inv.live hw hv⟩

theorem booksInv_start (ceiling : Nat) : BooksInv p (start p ceiling : System F) where
  toInitInv := initInv_start ceiling
  threads := fun _ => .plain rfl fun h => by cases h
  bare := fun _ _ => rfl
  live := (Nat.count_of_forall fun _ _ => rfl).symm

theorem booksInv_step (inv : BooksInv p s) (h : step p s a = some t) : BooksInv p t :=
  (move_books inv (step_cases h)).booksInv inv (initInv_move inv.toInitInv (step_cases h))

theorem reach_booksInv {C : System F → Act F → Prop} {ceiling : Nat}
    (h : Reach (step p) C (start p ceiling) s) : BooksInv p s :=
  h.invariant (booksInv_start ceiling) fun _ _ _ inv _ hs => booksInv_step inv hs

end
end EmbedServer.Pool
