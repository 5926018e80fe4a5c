import EmbedServer.Pool.Books

/-!
# `loaded_workers` and the sessions, up to a wrap

A worker owes the counter its ready signal until the init task has processed it.  Between the two the
worker may already count itself out, and the counter wraps; with the signal it wraps back.

* `Balance`         the counter and what is owed to it make the number of sessions, or one wrap more;
* `Lasting`         a thread dies of a fatal build error or a panic only as the last one;
* `reach_balance`   along such steps the books balance as long as a thread is alive;
* `Balance.settled` when all signals are processed the counter is the number of sessions.
-/

set_option linter.unusedSectionVars false

namespace EmbedServer.Pool

section
variable {F : Type}

/-- thread `k` runs and holds a session -/
def System.serves (s : System F) (k : Nat) : Prop := (s.workers k).session = true

instance (s : System F) : DecidablePred s.serves := fun _ => inferInstanceAs (Decidable (_ = _))

instance (th : Thread F) : Decidable th.signalled :=
  match h : th.signal with
  | some (.ok delta) => .isTrue ⟨delta, h⟩
  | some (.error _) => .isFalse fun ⟨_, h'⟩ => nomatch h.symm.trans h'
  | none => .isFalse fun ⟨_, h'⟩ => nomatch h.symm.trans h'

/-- the ready signal of thread `k` is sent and not processed -/
def System.owes (s : System F) (k : Nat) : Prop := (s.workers k).signalled ∧ ¬s.countedIn k

instance (s : System F) : DecidablePred s.owes := fun _ => inferInstanceAs (Decidable (_ ∧ _))

/-- all threads have ended -/
def System.ended (p : Setup) (s : System F) : Prop := ∀ k < p.n, (s.workers k).phase.isExited = true

structure Balance (p : Setup) (s : System F) : Prop where
  lt : s.shared.loadedWorkers < counterSize
  eq : s.shared.loadedWorkers + Nat.count s.owes p.n = Nat.count s.serves p.n ∨
    s.shared.loadedWorkers + Nat.count s.owes p.n = Nat.count s.serves p.n + counterSize

/-- no other thread is alive when one dies -/
def Lasting (p : Setup) (s : System F) (a : Act F) : Prop :=
  ∀ w, Dies s w a → ∀ k < p.n, k ≠ w → (s.workers k).phase.isExited = true

/-! ## one step -/

theorem fetchAdd1_lt {m : Nat} (h : m < counterSize) : fetchAdd1 m < counterSize := by
  unfold fetchAdd1
  split
  · exact Nat.zero_lt_of_lt h
  · omega

theorem fetchSub1_lt {m : Nat} (h : m < counterSize) : fetchSub1 m < counterSize := by
  unfold fetchSub1
  split <;> omega

variable [F32Ops F] {p : Setup} {s t : System F} {a : Act F}

section
variable {w : Nat} {th : Thread F} (hw : t.workers = Function.update s.workers w th)
  (hd : t.rssDeltas = s.rssDeltas)
include hw

theorem serves_other {k : Nat} (hk : k ≠ w) : t.serves k ↔ s.serves k := by
  unfold System.serves
  rw [hw, Function.update_of_ne hk]

theorem serves_same : t.serves w ↔ th.session = true := by
  unfold System.serves
  rw [hw, Function.update_self]

theorem serves_kept (h : th.session = (s.workers w).session) :
    Nat.count t.serves p.n = Nat.count s.serves p.n := by
  refine count_congr fun k _ => ?_
  by_cases hk : k = w
  · subst hk
    rw [serves_same hw, h]
    exact Iff.rfl
  · exact serves_other hw hk

include hd

theorem owes_other {k : Nat} (hk : k ≠ w) : t.owes k ↔ s.owes k := by
  unfold System.owes System.countedIn
  rw [hw, hd, Function.update_of_ne hk]

theorem owes_same : t.owes w ↔ th.signalled ∧ ¬s.countedIn w := by
  unfold System.owes System.countedIn
  rw [hw, hd, Function.update_self]

theorem owes_kept (h : th.signalled ↔ (s.workers w).signalled) :
    Nat.count t.owes p.n = Nat.count s.owes p.n := by
  refine count_congr fun k _ => ?_
  by_cases hk : k = w
  · subst hk
    rw [owes_same hw hd, h]
    exact Iff.rfl
  · exact owes_other hw hd hk

end

theorem count_serves_le (s : System F) : Nat.count s.serves p.n ≤ p.n := Nat.count_le _

theorem count_owes_le (s : System F) : Nat.count s.owes p.n ≤ p.n := Nat.count_le _

/-- one session less, and the worker counts itself out -/
theorem Balance.sub (h : Balance p s) (hs : Nat.count s.serves p.n = Nat.count t.serves p.n + 1)
    (ho : Nat.count t.owes p.n = Nat.count s.owes p.n)
    (hl : t.shared.loadedWorkers = fetchSub1 s.shared.loadedWorkers) : Balance p t := by
  have hlt := h.lt
  have hsz := p.n_lt
  have hle := count_owes_le (p := p) s
  have hle' := count_serves_le (p := p) s
  refine ⟨by rw [hl]; exact fetchSub1_lt h.lt, ?_⟩
  rw [hl, ho]
  unfold fetchSub1
  rcases h.eq with heq | heq <;> split <;> omega

/-- one session more, or one signal less that is owed -/
theorem Balance.add (h : Balance p s)
    (hso : Nat.count t.serves p.n + Nat.count s.owes p.n = Nat.count s.serves p.n + Nat.count t.owes p.n + 1)
    (hl : t.shared.loadedWorkers = fetchAdd1 s.shared.loadedWorkers) : Balance p t := by
  have hlt := h.lt
  have hsz := p.n_lt
  have hle := count_owes_le (p := p) s
  have hle' := count_serves_le (p := p) s
  refine ⟨by rw [hl]; exact fetchAdd1_lt h.lt, ?_⟩
  rw [hl]
  unfold fetchAdd1
  rcases h.eq with heq | heq <;> split <;> omega

/-- the counter is left alone, and as much is owed as is served -/
theorem Balance.same (h : Balance p s)
    (hso : Nat.count t.serves p.n + Nat.count s.owes p.n = Nat.count s.serves p.n + Nat.count t.owes p.n)
    (hl : t.shared.loadedWorkers = s.shared.loadedWorkers) : Balance p t := by
  have hlt := h.lt
  refine ⟨by rw [hl]; exact h.lt, ?_⟩
  rw [hl]
  rcases h.eq with heq | heq <;> omega

theorem Shift.balance {w : Nat} {th : Thread F} (h : Shift s t a w th) (inv : BooksInv p s)
    (hb : Balance p s) (hn : w < p.n) (hw : t.workers = Function.update s.workers w th)
    (hd : t.rssDeltas = s.rssDeltas) : Balance p t ∨ Dies s w a ∧ th.phase.isExited = true := by
  cases h with
  | keep h hs hl =>
    refine .inl (hb.same ?_ hl)
    rw [serves_kept hw h, owes_kept hw hd hs]
  | drop h h' hs ha hl =>
    refine .inl (hb.sub ?_ (owes_kept hw hd (by unfold Thread.signalled; rw [hs])) hl)
    refine count_one_more hn ?_ h fun k hk => (serves_other hw hk).symm
    rw [serves_same hw, h']
    exact Bool.false_ne_true
  | gain h h' hs hsig hl =>
    refine .inl (hb.add ?_ hl)
    have hone : Nat.count t.serves p.n = Nat.count s.serves p.n + 1 := by
      refine count_one_more hn ?_ ((serves_same hw).mpr h') fun k hk => serves_other hw hk
      unfold System.serves
      rw [h]
      exact Bool.false_ne_true
    rw [hone, owes_kept hw hd (by unfold Thread.signalled; rw [hs])]
    omega
  | ready hp h' hsig hl =>
    obtain ⟨hlen, -, -, hnone, -⟩ := inv.starting hp
    have hnot : ¬s.countedIn w := by
      unfold System.countedIn
      omega
    have hserves : Nat.count t.serves p.n = Nat.count s.serves p.n + 1 := by
      refine count_one_more hn ?_ ((serves_same hw).mpr h') fun k hk => serves_other hw hk
      unfold System.serves
      rw [(inv.bare w).no_session (by rw [hp]; rfl)]
      exact Bool.false_ne_true
    have howes : Nat.count t.owes p.n = Nat.count s.owes p.n + 1 := by
      refine count_one_more hn ?_ ((owes_same hw hd).mpr ⟨hsig, hnot⟩) fun k hk => owes_other hw hd hk
      rintro ⟨⟨delta, hd⟩, -⟩
      rw [hnone] at hd
      cases hd
    refine .inl (hb.same ?_ hl)
    omega
  | lost h' hs ha hl => exact .inr ⟨ha, h'⟩

/-- the signal of the worker that was waited for is processed -/
theorem owes_counted {delta : Nat} (hw : t.workers = s.workers) (hd : t.rssDeltas = s.rssDeltas ++ [delta])
    (hn : s.rssDeltas.length < p.n) (hsig : (s.workers s.rssDeltas.length).signalled) :
    Nat.count s.owes p.n = Nat.count t.owes p.n + 1 := by
  have hlen : t.rssDeltas.length = s.rssDeltas.length + 1 := by
    rw [hd, List.length_append]
    rfl
  refine count_one_more hn ?_ ⟨hsig, lt_irrefl _⟩ fun k hk => ?_
  · rintro ⟨-, hnot⟩
    apply hnot
    rw [System.countedIn, hlen]
    exact Nat.lt_succ_self _
  · unfold System.owes System.countedIn
    rw [hw, hlen]
    exact and_congr_right fun _ => ⟨fun h => by omega, fun h => by omega⟩

theorem serves_still (hw : t.workers = s.workers) : Nat.count t.serves p.n = Nat.count s.serves p.n := by
  refine count_congr fun k _ => ?_
  unfold System.serves
  rw [hw]

theorem Books.balance (h : Books p s a t) (inv : BooksInv p s) (hb : Balance p s) :
    Balance p t ∨ ∃ w, Dies s w a ∧ (t.workers w).phase.isExited = true ∧
      ∀ k, k ≠ w → t.workers k = s.workers k := by
  cases h with
  | still hw hd hl hv =>
    refine .inl (hb.same ?_ hl)
    have howes : Nat.count t.owes p.n = Nat.count s.owes p.n := by
      refine count_congr fun k _ => ?_
      unfold System.owes System.countedIn
      rw [hw, hd]
    rw [serves_still hw, howes]
  | @moved w th hn hw hd hok hbare hl hv =>
    rcases hl.balance inv hb hn hw hd with hb' | ⟨hdies, hx⟩
    · exact .inl hb'
    · refine .inr ⟨w, hdies, ?_, ?_⟩
      · rw [hw, Function.update_self]
        exact hx
      · intro k hk
        rw [hw, Function.update_of_ne hk]
  | counted hi hsig hn hw hd hl hv =>
    refine .inl (hb.add ?_ hl)
    rw [serves_still hw, owes_counted hw hd hn hsig]
    omega

/-- a thread that has ended stays so -/
theorem Books.ended (h : Books p s a t) (he : s.ended p) : t.ended p := by
  intro k hk
  cases h with
  | still hw hd hl hv =>
    rw [hw]
    exact he k hk
  | counted hi hsig hn hw hd hl hv =>
    rw [hw]
    exact he k hk
  | @moved w th hn hw hd hok hbare hl hv =>
    rw [hw]
    by_cases hkw : k = w
    · subst hkw
      rw [Function.update_self]
      cases hv with
      | keep h hl => exact h.trans (he k hk)
      | exit h h' hn hl => exact h'
    · rw [Function.update_of_ne hkw]
      exact he k hk

/-! ## every run -/

theorem balance_start (ceiling : Nat) : Balance p (start p ceiling : System F) := by
  have hserves : Nat.count (start p ceiling : System F).serves p.n = 0 := by
    apply Nat.count_of_forall_not
    intro k _ h
    cases h
  have howes : Nat.count (start p ceiling : System F).owes p.n = 0 := by
    apply Nat.count_of_forall_not
    rintro k - ⟨⟨_, h⟩, -⟩
    cases h
  refine ⟨?_, .inl ?_⟩
  · show 0 < counterSize
    unfold counterSize
    omega
  · rw [hserves, howes]
    rfl

/-- **The books balance** in every run in which a thread dies only as the last one, as long as one is
alive. -/
theorem reach_balance {ceiling : Nat} (h : Reach (step p) (Lasting p) (start p ceiling) s) :
    Balance p s ∨ s.ended p := by
  have hboth : BooksInv p s ∧ (Balance p s ∨ s.ended p) := by
    refine h.invariant (I := fun s => BooksInv p s ∧ (Balance p s ∨ s.ended p))
      ⟨booksInv_start ceiling, .inl (balance_start ceiling)⟩ ?_
    rintro t a u ⟨inv, hb⟩ hlast hs
    have hbooks := move_books inv (step_cases hs)
    refine ⟨booksInv_step inv hs, ?_⟩
    rcases hb with hb | he
    · rcases hbooks.balance inv hb with hb' | ⟨w, hdies, hx, hother⟩
      · exact .inl hb'
      · refine .inr fun k hk => ?_
        by_cases hkw : k = w
        · subst hkw
          exact hx
        · rw [hother k hkw]
          exact hlast w hdies k hk hkw
    · exact .inr (hbooks.ended he)
  exact hboth.2

/-- when all ready signals are processed the counter is the number of sessions -/
theorem Balance.settled (h : Balance p s) (hall : p.n ≤ s.rssDeltas.length) :
    s.shared.loadedWorkers = Nat.count s.serves p.n := by
  have howes : Nat.count s.owes p.n = 0 := by
    apply Nat.count_of_forall_not
    rintro k hk ⟨-, hnot⟩
    exact hnot (Nat.lt_of_lt_of_le hk hall)
  have hlt := h.lt
  rcases h.eq with heq | heq <;> omega

end
end EmbedServer.Pool
