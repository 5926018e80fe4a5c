import EmbedServer.Embed.Locality
import EmbedServer.Pool.Books

/-!
# The two counters of the pool (`live_workers`, `loaded_workers`)

The init task counts a worker when it has its ready signal; from then on the worker counts itself out
and in.  A fatal TRT exit does not count the worker out, and an unload before the signal is processed
counts out a worker that was not counted.

* `System.holds`         a live, counted worker with a session;
* `Accounted`            the steps that keep the books;
* `loaded_exact`         along such steps `loaded_workers` is exact;
* `loaded_drifts`        two runs where it is not.
-/

set_option linter.unusedSectionVars false

namespace EmbedServer.Pool

section
variable {F : Type}

/-- worker `k` is live, holds a session, and its ready signal is processed -/
def System.holds (s : System F) (k : Nat) : Prop := (s.workers k).session = true ∧ s.countedIn k

instance (s : System F) : DecidablePred s.holds := fun _ => inferInstanceAs (Decidable (_ ∧ _))

/-- no fatal exit and no panic, and no unload of a worker that was not counted -/
def Accounted (s : System F) : Act F → Prop
  | .timeout w => s.countedIn w
  | .recv w => s.queue = [] → (s.workers w).worker.models.isSome = true → s.countedIn w
  | .act w => ∀ out, (s.workers w).phase = .acting out → out.skip = false →
      out.outcome ≠ .trtFatal ∧ (shouldUnloadOnOutcome out.outcome = true → s.countedIn w)
  | .die _ => False
  | _ => True

structure CountInv (p : Setup) (s : System F) : Prop extends InitInv p s where
  threads : ∀ k, ThreadOk (s.workers k)
  /-- a worker that waits to be counted holds its session -/
  waiting : ∀ k, ¬s.countedIn k → (∃ delta, (s.workers k).signal = some (.ok delta)) →
    (s.workers k).session = true
  loaded : s.shared.loadedWorkers = Nat.count s.holds p.n
  live : s.live = Nat.count s.isLive p.n

/-! ## the counters -/

theorem fetchAdd1_of_lt {m : Nat} (h : m + 1 < counterSize) : fetchAdd1 m = m + 1 := by
  rw [fetchAdd1, if_neg (by omega)]

variable [F32Ops F] {p : Setup} {s t : System F}

/-- how thread `w` and `loaded_workers` move together -/
inductive LoadedShift (s t : System F) (w : Nat) (th : Thread F) : Prop
  | keep (h : th.session = (s.workers w).session)
      (hl : t.shared.loadedWorkers = s.shared.loadedWorkers)
  | uncounted (h : ¬s.countedIn w) (hl : t.shared.loadedWorkers = s.shared.loadedWorkers)
  | drop (h : (s.workers w).session = true) (h' : th.session = false) (hc : s.countedIn w)
      (hl : t.shared.loadedWorkers = fetchSub1 s.shared.loadedWorkers)
  | gain (h : (s.workers w).session = false) (h' : th.session = true) (hc : s.countedIn w)
      (hl : t.shared.loadedWorkers = fetchAdd1 s.shared.loadedWorkers)

theorem InitInv.length_le (inv : InitInv p s) : s.rssDeltas.length ≤ p.n := by
  have hpc := inv.pc
  generalize s.init = pc at hpc
  cases hpc with
  | spawn hn _ => exact hn.le
  | wait _ hn _ => exact hn.le
  | count hn _ _ => exact hn.le
  | ok hn => exact hn.le
  | error hn _ _ => exact hn.le

theorem holds_other {w k : Nat} {th : Thread F} (hw : t.workers = Function.update s.workers w th)
    (hd : t.rssDeltas = s.rssDeltas) (hk : k ≠ w) : t.holds k ↔ s.holds k := by
  unfold System.holds System.countedIn
  rw [hw, hd, Function.update_of_ne hk]

theorem holds_same {w : Nat} {th : Thread F} (hw : t.workers = Function.update s.workers w th)
    (hd : t.rssDeltas = s.rssDeltas) : t.holds w ↔ th.session = true ∧ s.countedIn w := by
  unfold System.holds System.countedIn
  rw [hw, hd, Function.update_self]

theorem loaded_shift (inv : CountInv p s) {w : Nat} {th : Thread F}
    (hw : t.workers = Function.update s.workers w th) (hd : t.rssDeltas = s.rssDeltas)
    (h : LoadedShift s t w th) : t.shared.loadedWorkers = Nat.count t.holds p.n := by
  have hother (k : Nat) (hk : k ≠ w) : t.holds k ↔ s.holds k := holds_other hw hd hk
  have hlt (hc : s.countedIn w) : w < p.n := Nat.lt_of_lt_of_le hc inv.length_le
  cases h with
  | keep h hl =>
    rw [hl, inv.loaded]
    refine (count_congr fun k _ => ?_).symm
    by_cases hk : k = w
    · subst hk
      rw [holds_same hw hd, h]
      exact Iff.rfl
    · exact hother k hk
  | uncounted h hl =>
    rw [hl, inv.loaded]
    refine (count_congr fun k _ => ?_).symm
    by_cases hk : k = w
    · subst hk
      rw [holds_same hw hd]
      exact ⟨fun hh => absurd hh.2 h, fun hh => absurd hh.2 h⟩
    · exact hother k hk
  | drop h h' hc hl =>
    have hone : Nat.count s.holds p.n = Nat.count t.holds p.n + 1 := by
      refine count_one_more (hlt hc) ?_ ⟨h, hc⟩ fun k hk => (hother k hk).symm
      rw [holds_same hw hd, h']
      rintro ⟨hf, -⟩
      cases hf
    rw [hl, inv.loaded, hone, fetchSub1_succ]
  | gain h h' hc hl =>
    have hone : Nat.count t.holds p.n = Nat.count s.holds p.n + 1 := by
      refine count_one_more (hlt hc) ?_ ((holds_same hw hd).mpr ⟨h', hc⟩) hother
      rintro ⟨hf, -⟩
      rw [h] at hf
      cases hf
    have hle : Nat.count s.holds p.n ≤ p.n := Nat.count_le _
    have hsz := p.n_lt
    rw [hl, inv.loaded, hone, fetchAdd1_of_lt (by omega)]

/-- one thread moves -/
theorem countInv_thread (inv : CountInv p s) (hinv : InitInv p t) {w : Nat} {th : Thread F}
    (hw : t.workers = Function.update s.workers w th) (hd : t.rssDeltas = s.rssDeltas)
    (hok : ThreadOk th)
    (hwait : ¬s.countedIn w → (∃ delta, th.signal = some (.ok delta)) → th.session = true)
    (hl : LoadedShift s t w th) (hv : LiveShift p s t w th) : CountInv p t := by
  refine ⟨hinv, ?_, ?_, loaded_shift inv hw hd hl, live_shift inv.live hw hv⟩
  · rw [hw]
    exact forall_update hok inv.threads
  · intro k
    rw [hw, System.countedIn, hd]
    by_cases hk : k = w
    · subst hk
      rw [Function.update_self]
      exact hwait
    · rw [Function.update_of_ne hk]
      exact inv.waiting k

/-! ## one step -/

theorem Accounted.counted {a : Act F} {w : Nat} (ha : Accounted s a) (h : Unloads s w a) : s.countedIn w := by
  cases h with
  | elapsed => exact ha
  | closed hq hm => exact ha hq hm
  | broke hp hs ho => exact (ha _ hp hs).2 ho

theorem Accounted.not_dies {a : Act F} {w : Nat} (ha : Accounted s a) : ¬ Dies s w a := by
  intro h
  cases h with
  | fatal hp hs ho => exact (ha _ hp hs).1 ho
  | died => exact ha

/-- where every exit and every unload is accounted for, the counter follows the counted workers -/
theorem Shift.loadedShift {a : Act F} {w : Nat} {th : Thread F} (h : Shift s t a w th) (inv : CountInv p s)
    (ha : Accounted s a) : LoadedShift s t w th ∧
      (¬s.countedIn w → (∃ delta, th.signal = some (.ok delta)) → th.session = true) := by
  cases h with
  | keep h hs hl =>
    refine ⟨.keep h hl, ?_⟩
    intro hc hsig
    rw [h]
    exact inv.waiting w hc (hs.mp hsig)
  | drop h h' hs hun hl =>
    have hc := ha.counted hun
    exact ⟨.drop h h' hc hl, fun hn => absurd hc hn⟩
  | gain h h' hs hsig hl =>
    refine ⟨.gain h h' ?_ hl, fun _ _ => h'⟩
    -- an uncounted worker has its session
    by_contra hc
    have hses := inv.waiting w hc hsig
    rw [h] at hses
    cases hses
  | ready hp h' hsig hl =>
    have hc : ¬s.countedIn w := by
      obtain ⟨hlen, -⟩ := inv.starting hp
      unfold System.countedIn
      omega
    exact ⟨.uncounted hc hl, fun _ _ => h'⟩
  | lost h' hs hdies hl => exact absurd hdies ha.not_dies

/-- the worker that was waited for is counted -/
theorem holds_counted {delta : Nat} (hw : t.workers = s.workers) (hd : t.rssDeltas = s.rssDeltas ++ [delta])
    (hn : s.rssDeltas.length < p.n) (hses : (s.workers s.rssDeltas.length).session = true) :
    Nat.count t.holds p.n = Nat.count s.holds p.n + 1 := by
  have hlen : t.rssDeltas.length = s.rssDeltas.length + 1 := by
    rw [hd, List.length_append]
    rfl
  have hnot : ¬s.countedIn s.rssDeltas.length := lt_irrefl _
  refine count_one_more hn (fun h => hnot h.2) ?_ fun k hk => ?_
  · refine ⟨by rw [hw]; exact hses, ?_⟩
    rw [System.countedIn, hlen]
    exact Nat.lt_succ_self _
  · unfold System.holds System.countedIn
    rw [hw, hlen]
    exact and_congr_right fun _ => ⟨fun h => by omega, fun h => by omega⟩

theorem Books.countInv {a : Act F} (h : Books p s a t) (inv : CountInv p s) (hinv : InitInv p t)
    (ha : Accounted s a) : CountInv p t := by
  cases h with
  | still hw hd hl hv =>
    have hup : t.workers = Function.update s.workers 0 (s.workers 0) := by
      rw [hw, Function.update_eq_self]
    exact countInv_thread inv hinv hup hd (inv.threads 0) (inv.waiting 0) (.keep rfl hl) (.keep rfl hv)
  | moved hn hw hd hok hbare hl hv =>
    obtain ⟨hshift, hwait⟩ := hl.loadedShift inv ha
    exact countInv_thread inv hinv hw hd hok hwait hshift hv
  | counted hi hsig hn hw hd hl hv =>
    have hnot : ¬s.countedIn s.rssDeltas.length := lt_irrefl _
    have hle : Nat.count s.holds p.n ≤ p.n := Nat.count_le _
    have hsz := p.n_lt
    refine ⟨hinv, by rw [hw]; exact inv.threads, ?_, ?_, live_still inv.live hw hv⟩
    · intro k hk hsig
      rw [hw] at hsig ⊢
      refine inv.waiting k (fun h => hk ?_) hsig
      rw [System.countedIn, hd, List.length_append]
      exact Nat.lt_add_right 1 h
    · rw [hl, inv.loaded, holds_counted hw hd hn (inv.waiting _ hnot hsig), fetchAdd1_of_lt (by omega)]

theorem countInv_start (ceiling : Nat) : CountInv p (start p ceiling : System F) where
  toInitInv := initInv_start ceiling
  threads := fun _ => .plain rfl fun h => by cases h
  waiting := fun _ _ h => by obtain ⟨_, h⟩ := h; cases h
  loaded := by
    refine (Nat.count_of_forall_not ?_).symm
    rintro k - ⟨h, -⟩
    cases h
  live := (booksInv_start ceiling).live

theorem reach_countInv {ceiling : Nat} (h : Reach (step p) Accounted (start p ceiling) s) :
    CountInv p s := by
  have hboth : BooksInv p s ∧ CountInv p s := by
    refine h.invariant (I := fun s => BooksInv p s ∧ CountInv p s)
      ⟨booksInv_start ceiling, countInv_start ceiling⟩ ?_
    rintro t a u ⟨inv, cinv⟩ ha hs
    have inv' := booksInv_step inv hs
    exact ⟨inv', (move_books inv (step_cases hs)).countInv cinv inv'.toInitInv ha⟩
  exact hboth.2

/-! ## no counter wraps -/

theorem fetchSub1_le {m n : Nat} (h : n + 1 < counterSize) (hle : fetchSub1 m ≤ n) :
    fetchSub1 m + 1 = m := by
  unfold fetchSub1 at hle ⊢
  split at hle
  · omega
  · rename_i hm
    rw [if_neg hm]
    omega

/-- **`loaded_workers` is exact** as long as every exit and every unload is accounted for: it is the
number of live, counted workers with a session, at most `live_workers`, and no access wraps -/
theorem loaded_exact (ceiling : Nat) (h : Reach (step p) Accounted (start p ceiling) s) :
    s.shared.loadedWorkers = Nat.count s.holds p.n ∧ s.shared.loadedWorkers ≤ s.live ∧
    s.live = Nat.count s.isLive p.n ∧
    ∀ a t, Accounted s a → step p s a = some t →
      (t.shared.loadedWorkers = s.shared.loadedWorkers ∨
        t.shared.loadedWorkers = s.shared.loadedWorkers + 1 ∨
        t.shared.loadedWorkers + 1 = s.shared.loadedWorkers) ∧
      (t.live = s.live ∨ t.live + 1 = s.live) := by
  have inv := reach_countInv h
  refine ⟨inv.loaded, ?_, inv.live, fun a t ha hs => ?_⟩
  · rw [inv.loaded, inv.live]
    exact Nat.count_mono_left fun k _ hk => Thread.session_alive hk.1
  · have inv' := reach_countInv (h.tail ha hs)
    have hsz := p.n_lt
    have hle : s.shared.loadedWorkers ≤ p.n := by rw [inv.loaded]; exact Nat.count_le _
    have hle' : t.shared.loadedWorkers ≤ p.n := by rw [inv'.loaded]; exact Nat.count_le _
    have hlive : t.live ≤ p.n := by rw [inv'.live]; exact Nat.count_le _
    obtain ⟨hl, hv⟩ := (move_books (reach_booksInv h) (step_cases hs)).access
    constructor
    · rcases hl with hl | hl | hl
      · exact .inl hl
      · rw [hl, fetchAdd1_of_lt (by omega)]
        exact .inr (.inl rfl)
      · rw [hl] at hle' ⊢
        exact .inr (.inr (fetchSub1_le hsz hle'))
    · rcases hv with hv | hv
      · exact .inl hv
      · rw [hv] at hlive ⊢
        exact .inr (fetchSub1_le hsz hlive)

end

/-- one worker on TensorRT, with an idle timeout -/
def trtSolo : Setup where
  host := ⟨fun _ => 0, fun _ => 0, fun _ => none⟩
  config := ⟨.tensorRt, .fp16, 5, false, false, false, 0, [], false⟩
  idleTimeout := true
  n := 1
  size := poolSize_one

/-- no engine can be built -/
def unbuildable : Models Int :=
  { echoModels with session := ⟨fun _ _ => ⟨.error "TensorRT EP failed to build engine", 3⟩⟩ }

/-- spawn, ready signal, count -/
def broughtUp (m : Models Int) : List (Act Int) := [.init, .startup 0 0 (.ok m), .init, .init]

/-- one request, taken up by worker 0 -/
def oneRequest : List (Act Int) :=
  [.submit (.dense ["a"]), .enqueue 0, .drain 0 [], .lock 0, .recv 0, .load 0 (.error "not needed"),
    .dispatch 0 ⟨⟨1, 1, 2⟩, true⟩, .reply 0, .act 0]

/-- the worker is counted, and times out -/
theorem loaded_exact_idle : ∃ s : System Int, Reach (step trtSolo) Accounted (start trtSolo 0) s ∧
    s.shared.loadedWorkers = 0 ∧ s.live = 1 ∧ s.shared.loadedWorkers = Nat.count s.holds 1 := by
  have hrun : ∃ s : System Int, Reach (step trtSolo) Accounted (start trtSolo 0) s ∧ s.countedIn 0 ∧
      (step trtSolo s (.timeout 0)).any (fun t => t.shared.loadedWorkers == 0 && t.live == 1) = true :=
    Reach.exists_of_run (broughtUp echoModels ++ [.drain 0 []]) (by simp [broughtUp, Accounted])
      (by decide)
  obtain ⟨s, hr, hc, hs⟩ := hrun
  obtain ⟨t, ht, h0⟩ := (Option.any_eq_true _ _).mp hs
  rw [Bool.and_eq_true, beq_iff_eq, beq_iff_eq] at h0
  have hr' : Reach (step trtSolo) Accounted (start trtSolo 0) t :=
    .tail (a := .timeout 0) hr hc ht
  exact ⟨t, hr', h0.1, h0.2, (loaded_exact 0 hr').1⟩

/-- **A fatal exit leaves the worker in the count; an idle timeout before the init task has counted the
worker takes it below zero.** -/
theorem loaded_drifts :
    (∃ s : System Int, Reachable (step trtSolo) (start trtSolo 0) s ∧
      s.shared.loadedWorkers = 1 ∧ s.live = 0 ∧ Nat.count s.holds 1 = 0) ∧
    ∃ s : System Int, Reachable (step trtSolo) (start trtSolo 0) s ∧
      s.shared.loadedWorkers = 2 ^ 64 - 1 ∧ s.live = 1 ∧ Nat.count s.holds 1 = 0 := by
  constructor
  · exact Reach.exists_of_run (broughtUp unbuildable ++ oneRequest) (fun _ _ _ => trivial)
      (by decide +kernel)
  · exact Reach.exists_of_run [.init, .startup 0 0 (.ok echoModels), .drain 0 [], .timeout 0]
      (fun _ _ _ => trivial) (by decide)

end EmbedServer.Pool
