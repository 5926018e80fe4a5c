import EmbedServer.Lib.Transition
import EmbedServer.Trt.Adaptive

/-!
# The history of the adaptive warmup loop (`adaptive_warmup.rs`)

Every step of the loop is logged: the suspects it takes off the channel, those it puts into `pending`,
the requests it sends and what became of them.

* `Hist`               how `pending`, `warmed` and the shape in flight go with the log;
* `Hist.note`, `Hist.send`, `Hist.ack`, `Hist.fail`   what each kind of step does to it;
* `warmup_loop_history`   it holds in every reachable state.
-/

namespace EmbedServer

inductive LoopEntry where
  /-- off the suspect channel -/
  | took (s : Shape)
  /-- into `pending` -/
  | noted (s : Shape)
  | sent (s : Shape)
  /-- acknowledged with `Ok` -/
  | warmed (s : Shape)
  /-- acknowledged with an error, or the ack was dropped -/
  | failed (s : Shape)
deriving DecidableEq, Repr

/-- the loop with its log, newest entry first -/
structure Logged where
  loop : WarmupLoop
  log : List LoopEntry
deriving DecidableEq

/-- one suspect -/
def noteLogged (warmed : List Shape) (st : List Shape × List LoopEntry) (g : Shape) :
    List Shape × List LoopEntry :=
  (noteSuspect warmed st.1 g,
    if warmed.contains g || st.1.contains g then .took g :: st.2 else .noted g :: .took g :: st.2)

/-- the outcome a step learns -/
def outcomeEntry (pc : LoopPc) (ev : LoopEvent) : Option LoopEntry :=
  match pc, ev with
  | .acking s, .ack _ => some (.warmed s)
  | .acking s, .nack | .acking s, .dropped => some (.failed s)
  | _, _ => none

def loggedStep (config : AdaptiveWarmupConfig) (s : Logged) (ev : LoopEvent) : Option Logged :=
  (loopStep config s.loop ev).map fun out =>
    ⟨out.loop, (out.request.map .sent).toList ++ (outcomeEntry s.loop.pc ev).toList ++
      (ev.received.foldl (noteLogged s.loop.warmed) (s.loop.pending, s.log)).2⟩

def Logged.start (now : Nat) : Logged := ⟨⟨[], [], 0, now, .top⟩, []⟩

/-! ## reading the log -/

def LoopEntry.noted? : LoopEntry → Option Shape
  | .noted s => some s
  | _ => none

def LoopEntry.sent? : LoopEntry → Option Shape
  | .sent s => some s
  | _ => none

/-- shapes put into `pending`, in order -/
def notedOrder (log : List LoopEntry) : List Shape := (log.filterMap LoopEntry.noted?).reverse

/-- shapes sent, in order -/
def sentOrder (log : List LoopEntry) : List Shape := (log.filterMap LoopEntry.sent?).reverse

/-- requests without an outcome -/
def outstanding : List LoopEntry → List Shape
  | [] => []
  | .sent s :: log => outstanding log ++ [s]
  | .warmed s :: log | .failed s :: log => (outstanding log).erase s
  | .took _ :: log | .noted _ :: log => outstanding log

/-- `warmed`, `pending` and the shape in flight, against the log -/
structure Hist (warmed pending : List Shape) (awaited : Option Shape) (log : List LoopEntry) : Prop where
  nodup : pending.Nodup
  disjoint : ∀ x ∈ pending, x ∉ warmed
  warmed_iff : ∀ x, x ∈ warmed ↔ .warmed x ∈ log
  /-- the shape in flight is the first pending one -/
  inFlight : ∀ x ∈ awaited, pending.head? = some x
  outstanding : outstanding log = awaited.toList
  /-- first in, first out: what was put into `pending` was sent, in that order, or still waits -/
  fifo : notedOrder log = sentOrder log ++ if awaited.isSome then pending.tail else pending
  /-- a suspect without an outcome since is warmed or pending -/
  kept : ∀ l₂ x l₁, log = l₂ ++ .took x :: l₁ → .warmed x ∉ l₂ → .failed x ∉ l₂ → x ∈ warmed ∨ x ∈ pending
  /-- a pending shape that failed before was suspected again since -/
  retaken : ∀ x ∈ pending, ∀ l₂ l₁, log = l₂ ++ .failed x :: l₁ → .took x ∈ l₂
  /-- a shape is not sent after it was warmed, and after a failure only when suspected again -/
  sent : ∀ l₂ x l₁, log = l₂ ++ .sent x :: l₁ →
    .warmed x ∉ l₁ ∧ ∀ l₄ l₃, l₁ = l₄ ++ .failed x :: l₃ → .took x ∈ l₄

section
variable {w p : List Shape} {log : List LoopEntry}

/-- the place of an entry in a longer log -/
theorem cons_split {e a : LoopEntry} {l l₂ l₁ : List LoopEntry} (h : e :: l = l₂ ++ a :: l₁) :
    l₂ = [] ∧ e = a ∧ l = l₁ ∨ ∃ l', l₂ = e :: l' ∧ l = l' ++ a :: l₁ := by
  rcases List.cons_eq_append_iff.mp h with ⟨rfl, h'⟩ | ⟨l', rfl, h'⟩
  · cases h'
    exact .inl ⟨rfl, rfl, rfl⟩
  · exact .inr ⟨l', rfl, h'⟩

/-! one entry more: what it has to say for itself, and what it leaves of the older ones -/

theorem kept_cons {e : LoopEntry} {K K' : Shape → Prop} (hnew : ∀ x, e = .took x → K' x)
    (hold : ∀ x, e ≠ .warmed x → e ≠ .failed x → K x → K' x)
    (h : ∀ l₂ x l₁, log = l₂ ++ .took x :: l₁ → .warmed x ∉ l₂ → .failed x ∉ l₂ → K x) :
    ∀ l₂ x l₁, e :: log = l₂ ++ .took x :: l₁ → .warmed x ∉ l₂ → .failed x ∉ l₂ → K' x := by
  intro l₂ x l₁ hl h1 h2
  rcases cons_split hl with ⟨-, he, -⟩ | ⟨l', rfl, hl'⟩
  · exact hnew x he
  · rw [List.mem_cons, not_or] at h1 h2
    exact hold x (Ne.symm h1.1) (Ne.symm h2.1) (h l' x l₁ hl' h1.2 h2.2)

theorem retaken_cons {e : LoopEntry} (hnew : ∀ x ∈ p, e ≠ .failed x)
    (h : ∀ x ∈ p, ∀ l₂ l₁, log = l₂ ++ .failed x :: l₁ → .took x ∈ l₂) :
    ∀ x ∈ p, ∀ l₂ l₁, e :: log = l₂ ++ .failed x :: l₁ → .took x ∈ l₂ := by
  intro x hx l₂ l₁ hl
  rcases cons_split hl with ⟨-, he, -⟩ | ⟨l', rfl, hl'⟩
  · exact absurd he (hnew x hx)
  · exact List.mem_cons_of_mem _ (h x hx l' l₁ hl')

theorem sent_cons {e : LoopEntry} {Q : Shape → List LoopEntry → Prop} (hnew : ∀ x, e = .sent x → Q x log)
    (h : ∀ l₂ x l₁, log = l₂ ++ .sent x :: l₁ → Q x l₁) :
    ∀ l₂ x l₁, e :: log = l₂ ++ .sent x :: l₁ → Q x l₁ := by
  intro l₂ x l₁ hl
  rcases cons_split hl with ⟨-, he, rfl⟩ | ⟨l', rfl, hl'⟩
  · exact hnew x he
  · exact h l' x l₁ hl'

theorem hist_start : Hist [] [] none [] where
  nodup := List.nodup_nil
  disjoint x hx := by cases hx
  warmed_iff x := by simp
  inFlight x hx := by cases hx
  outstanding := rfl
  fifo := rfl
  kept l₂ x l₁ h := by simp at h
  retaken x hx := by cases hx
  sent l₂ x l₁ h := by simp at h

/-- a suspect that is known already -/
theorem Hist.took (h : Hist w p none log) {g : Shape} (hg : g ∈ w ∨ g ∈ p) :
    Hist w p none (.took g :: log) where
  nodup := h.nodup
  disjoint := h.disjoint
  warmed_iff x := by rw [h.warmed_iff]; simp
  inFlight x hx := by cases hx
  outstanding := h.outstanding
  fifo := h.fifo
  kept := by
    refine kept_cons (fun x he => ?_) (fun _ _ _ hk => hk) h.kept
    cases he
    exact hg
  retaken := retaken_cons (fun x _ he => by cases he) h.retaken
  sent := sent_cons (fun x he => by cases he) h.sent

/-- a new suspect -/
theorem Hist.noted (h : Hist w p none log) {g : Shape} (hw : g ∉ w) (hp : g ∉ p) :
    Hist w (p ++ [g]) none (.noted g :: .took g :: log) where
  nodup := by
    rw [List.nodup_append]
    refine ⟨h.nodup, List.nodup_singleton g, ?_⟩
    rintro x hx y hy rfl
    exact hp (List.mem_singleton.mp hy ▸ hx)
  disjoint x hx := by
    rcases List.mem_append.mp hx with hx | hx
    · exact h.disjoint x hx
    · rw [List.mem_singleton.mp hx]
      exact hw
  warmed_iff x := by rw [h.warmed_iff]; simp
  inFlight x hx := by cases hx
  outstanding := h.outstanding
  fifo := by
    have hf := h.fifo
    simp only [Option.isSome_none, Bool.false_eq_true, if_false] at hf ⊢
    show (g :: log.filterMap LoopEntry.noted?).reverse = sentOrder log ++ (p ++ [g])
    rw [List.reverse_cons, ← List.append_assoc, ← hf]
    rfl
  kept := by
    refine kept_cons (fun x he => by cases he) (fun _ _ _ hk => hk) (kept_cons (fun x he => ?_) ?_ h.kept)
    · cases he
      exact .inr (List.mem_append_right _ (List.mem_singleton.mpr rfl))
    · exact fun x _ _ hk => hk.imp_right (List.mem_append_left _)
  retaken := by
    refine retaken_cons (fun x _ he => by cases he) fun x hx l₂ l₁ hl => ?_
    rcases List.mem_append.mp hx with hx | hx
    · exact retaken_cons (fun y _ he => by cases he) h.retaken x hx l₂ l₁ hl
    -- the new shape has just been taken
    · rw [List.mem_singleton.mp hx] at hl ⊢
      rcases cons_split hl with ⟨-, he, -⟩ | ⟨l', rfl, -⟩
      · cases he
      · exact List.mem_cons_self
  sent := sent_cons (fun x he => by cases he) (sent_cons (fun x he => by cases he) h.sent)

theorem Hist.note {st : List Shape × List LoopEntry} (h : Hist w st.1 none st.2) (g : Shape) :
    Hist w (noteLogged w st g).1 none (noteLogged w st g).2 := by
  unfold noteLogged noteSuspect
  dsimp only
  split
  · rename_i hk
    exact h.took (by simpa using hk)
  · rename_i hk
    simp only [Bool.or_eq_true, List.contains_iff_mem, not_or] at hk
    exact h.noted hk.1 hk.2

/-- all suspects of a drain -/
theorem Hist.notes (got : List Shape) {st : List Shape × List LoopEntry} (h : Hist w st.1 none st.2) :
    Hist w (got.foldl (noteLogged w) st).1 none (got.foldl (noteLogged w) st).2 := by
  induction got generalizing st with
  | nil => exact h
  | cons g got ih => exact ih (h.note g)

theorem notes_fst (got : List Shape) (st : List Shape × List LoopEntry) :
    (got.foldl (noteLogged w) st).1 = drainRx w st.1 got := by
  induction got generalizing st with
  | nil => rfl
  | cons g got ih => exact ih (noteLogged w st g)

theorem Hist.send {x : Shape} {rest : List Shape} (h : Hist w (x :: rest) none log) :
    Hist w (x :: rest) (some x) (.sent x :: log) where
  nodup := h.nodup
  disjoint := h.disjoint
  warmed_iff y := by rw [h.warmed_iff]; simp
  inFlight y hy := by
    cases hy
    rfl
  outstanding := by
    show EmbedServer.outstanding log ++ [x] = [x]
    rw [h.outstanding]
    rfl
  fifo := by
    have hf := h.fifo
    simp only [Option.isSome_none, Bool.false_eq_true, if_false] at hf
    show notedOrder log = (x :: log.filterMap LoopEntry.sent?).reverse ++ rest
    rw [hf, List.reverse_cons, List.append_assoc]
    rfl
  kept := kept_cons (fun y he => by cases he) (fun _ _ _ hk => hk) h.kept
  retaken := retaken_cons (fun y _ he => by cases he) h.retaken
  sent := by
    refine sent_cons (fun y he => ?_) h.sent
    -- the shape sent now was pending, so neither warmed nor failed and forgotten
    cases he
    refine ⟨fun hm => h.disjoint x List.mem_cons_self ((h.warmed_iff x).mpr hm), ?_⟩
    exact h.retaken x List.mem_cons_self

/-- the shape in flight is the first pending one -/
theorem Hist.pending_eq {x : Shape} (h : Hist w p (some x) log) : p = x :: p.tail :=
  (List.cons_head?_tail (h.inFlight x rfl)).symm

theorem Hist.erase_eq {x : Shape} (h : Hist w p (some x) log) : p.erase x = p.tail := by
  have hp := h.pending_eq
  rw [hp]
  simp

theorem Hist.not_mem_tail {x : Shape} (h : Hist w p (some x) log) : x ∉ p.tail := by
  have hnd := h.nodup
  rw [h.pending_eq] at hnd
  exact (List.nodup_cons.mp hnd).1

theorem Hist.mem_tail {x y : Shape} (h : Hist w p (some x) log) (hy : y ∈ p) (hne : y ≠ x) :
    y ∈ p.tail := by
  rw [h.pending_eq] at hy
  rcases List.mem_cons.mp hy with rfl | hy
  · exact absurd rfl hne
  · exact hy

theorem Hist.ack {x : Shape} (h : Hist w p (some x) log) :
    Hist (if w.contains x then w else w ++ [x]) (p.erase x) none (.warmed x :: log) := by
  have hw : ∀ y, y ∈ (if w.contains x then w else w ++ [x]) ↔ y ∈ w ∨ y = x := by
    intro y
    split
    · rename_i hx
      constructor
      · exact .inl
      · rintro (hy | rfl)
        · exact hy
        · exact List.contains_iff_mem.mp hx
    · simp
  rw [h.erase_eq]
  refine ⟨h.nodup.tail, fun y hy => ?_, fun y => ?_, fun y hy => ?_, ?_, ?_, ?_, ?_, ?_⟩
  · rw [hw]
    rintro (hy' | rfl)
    · exact h.disjoint y (List.mem_of_mem_tail hy) hy'
    · exact h.not_mem_tail hy
  · rw [hw, h.warmed_iff, List.mem_cons, LoopEntry.warmed.injEq]
    tauto
  · cases hy
  · show (EmbedServer.outstanding log).erase x = []
    rw [h.outstanding]
    simp
  · exact h.fifo
  · refine kept_cons (fun y he => by cases he) (fun y hne _ hk => ?_) h.kept
    rw [hw]
    rcases hk with hk | hk
    · exact .inl (.inl hk)
    · exact .inr (h.mem_tail hk fun hyx => hne (by rw [hyx]))
  · exact retaken_cons (fun y _ he => by cases he) fun y hy => h.retaken y (List.mem_of_mem_tail hy)
  · exact sent_cons (fun y he => by cases he) h.sent

theorem Hist.fail {x : Shape} (h : Hist w p (some x) log) : Hist w (p.erase x) none (.failed x :: log) := by
  rw [h.erase_eq]
  refine ⟨h.nodup.tail, fun y hy => h.disjoint y (List.mem_of_mem_tail hy), fun y => ?_, fun y hy => ?_,
    ?_, ?_, ?_, ?_, ?_⟩
  · rw [h.warmed_iff]
    simp
  · cases hy
  · show (EmbedServer.outstanding log).erase x = []
    rw [h.outstanding]
    simp
  · exact h.fifo
  · refine kept_cons (fun y he => by cases he) (fun y _ hne hk => ?_) h.kept
    rcases hk with hk | hk
    · exact .inl hk
    · exact .inr (h.mem_tail hk fun hyx => hne (by rw [hyx]))
  · refine retaken_cons (fun y hy he => ?_) fun y hy => h.retaken y (List.mem_of_mem_tail hy)
    cases he
    exact h.not_mem_tail hy
  · exact sent_cons (fun y he => by cases he) h.sent

end

/-! ## every run -/

/-- the history of a logged loop -/
def Logged.Sound (s : Logged) : Prop := Hist s.loop.warmed s.loop.pending s.loop.pc.awaited s.log

theorem outcomeEntry_none {pc : LoopPc} {ev : LoopEvent} (h : pc.awaited = none) :
    outcomeEntry pc ev = none := by
  unfold outcomeEntry
  split <;> first | rfl | cases h

theorem loggedStep_sound {config : AdaptiveWarmupConfig} {s s' : Logged} {ev : LoopEvent} (hi : s.Sound)
    (hs : loggedStep config s ev = some s') : s'.Sound := by
  unfold Logged.Sound at hi
  obtain ⟨out, hout, rfl⟩ := Option.map_eq_some_iff.mp hs
  cases loopStep_cases hout with
  | took hpc hpc' hwarmed hpending hack hnack hdropped hbudget harmed =>
    rw [hpc] at hi
    have hn := @Hist.notes s.loop.warmed ev.received (s.loop.pending, s.log) hi
    rw [notes_fst] at hn
    unfold Logged.Sound
    dsimp only
    rw [hwarmed, hpc', hpending, outcomeEntry_none hpc]
    exact hn
  | sent hpc hpending =>
    rw [hpc, hpending] at hi
    unfold Logged.Sound
    dsimp only
    rw [hpending, hpc]
    exact hi.send
  | acked ms hpc =>
    rw [hpc] at hi
    unfold Logged.Sound
    dsimp only
    rw [hpc]
    exact hi.ack
  | failed hev hpc =>
    rw [hpc] at hi
    unfold Logged.Sound
    dsimp only
    rw [hpc]
    rcases hev with rfl | rfl
    · exact hi.fail
    · exact hi.fail

/-- **The history of the loop**, in every reachable state. -/
theorem warmup_loop_history (config : AdaptiveWarmupConfig) {now : Nat} {s : Logged}
    (h : Reachable (loggedStep config) (Logged.start now) s) :
    Hist s.loop.warmed s.loop.pending s.loop.pc.awaited s.log ∧ (outstanding s.log).length ≤ 1 := by
  have hs : s.Sound := h.invariant (I := Logged.Sound) hist_start fun _ _ _ hi _ hs => loggedStep_sound hi hs
  refine ⟨hs, ?_⟩
  rw [hs.outstanding]
  cases s.loop.pc.awaited with
  | none => exact Nat.zero_le _
  | some x => exact le_rfl

/-- a suspect fails, is suspected again and warmed -/
theorem warmup_loop_history_retry :
    ∃ s, Reachable (loggedStep ⟨0, 12⟩) (Logged.start 0) s ∧
      sentOrder s.log = [(1, 8), (1, 8)] ∧ s.loop.warmed = [(1, 8)] ∧ notedOrder s.log = sentOrder s.log := by
  have hrun : ∃ s, Reachable (loggedStep ⟨0, 12⟩) (Logged.start 0) s ∧
      (sentOrder s.log = [(1, 8), (1, 8)] ∧ s.loop.warmed = [(1, 8)] ∧ s.loop.pending = [] ∧
        s.loop.pc = .top) :=
    Reach.exists_of_run [.drain [(1, 8)] 0 0, .depth 0, .send true, .nack, .drain [(1, 8), (1, 8)] 9 9, .depth 0,
      .send true, .ack 70] (fun _ _ _ => trivial) (by decide +kernel)
  obtain ⟨s, hs, hsent, hwarmed, hpending, hpc⟩ := hrun
  refine ⟨s, hs, hsent, hwarmed, ?_⟩
  have hfifo := (warmup_loop_history ⟨0, 12⟩ hs).1.fifo
  rw [hpc, hpending] at hfifo
  simpa using hfifo

end EmbedServer
