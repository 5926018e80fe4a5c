import EmbedServer.Pool.Moves

/-!
# The init task (`EmbedPool::spawn`, `await_worker_signal`)

One ready channel serves all workers, and the task that reads it holds a sender of it.

* `Effect`, `move_effect`  what a step of a thread or a client is to the init task;
* `InitInv`                where the task is says which workers were started, which have signalled and
                           what is on the channel; it holds in every run (`reach_initInv`).
-/

set_option linter.unusedSectionVars false

namespace EmbedServer.Pool

section
variable {F : Type}

/-- in the request loop -/
def Phase.inLoop : Phase F → Bool
  | .absent | .starting | .failed _ | .exited _ => false
  | _ => true

/-- has signalled `Ok(delta)`, and went on -/
structure Serving (th : Thread F) (delta : Nat) : Prop where
  signal : th.signal = some (.ok delta)
  phase : th.phase.inLoop = true ∨ th.phase.isExited = true

/-- the thread the init task waits for, and the ready channel -/
inductive Awaited (th : Thread F) : List (Except AnyError Nat) → Prop
  | silent (hp : th.phase = .starting) (hs : th.signal = none) : Awaited th []
  | ready {delta} (h : Serving th delta) : Awaited th [.ok delta]
  | failed {e} (hp : (∃ e', th.phase = .failed e') ∨ ∃ how, th.phase = .exited how)
      (hs : th.signal = some (.error e)) : Awaited th [.error e]
  | mute {how} (hp : th.phase = .exited how) (hs : th.signal = none) : Awaited th []

/-! ## what a step is to the init task -/

/-- a step of a thread that puts nothing on the ready channel -/
inductive Onward (th th' : Thread F) : Prop
  | same (h : th' = th)
  | loop (h : th.phase.inLoop = true) (h' : th'.phase.inLoop = true ∨ th'.phase.isExited = true)
      (hs : th'.signal = th.signal)
  | exit {how} (h : th.phase = .starting ∨ ∃ e, th.phase = .failed e) (h' : th'.phase = .exited how)
      (hs : th'.signal = th.signal)

inductive Effect (s t : System F) : Prop
  | ready {w delta th} (hp : (s.workers w).phase = .starting) (hi : t.init = s.init)
      (hd : t.rssDeltas = s.rssDeltas) (hc : t.readyCh = s.readyCh ++ [.ok delta])
      (hw : t.workers = Function.update s.workers w th) (hth : Serving th delta)
  | failed {w e e' th} (hp : (s.workers w).phase = .starting) (hi : t.init = s.init)
      (hd : t.rssDeltas = s.rssDeltas) (hc : t.readyCh = s.readyCh ++ [.error e])
      (hw : t.workers = Function.update s.workers w th) (hph : th.phase = .failed e')
      (hs : th.signal = some (.error e))
  | other (hi : t.init = s.init) (hd : t.rssDeltas = s.rssDeltas) (hc : t.readyCh = s.readyCh)
      (hw : ∀ k, Onward (s.workers k) (t.workers k))

theorem Onward.update {ths : Nat → Thread F} {w : Nat} {th : Thread F} (h : Onward (ths w) th) (k : Nat) :
    Onward (ths k) (Function.update ths w th k) := by
  by_cases hk : k = w
  · subst hk
    rw [Function.update_self]
    exact h
  · exact .same (Function.update_of_ne hk ..)

/-- only thread `w` moved -/
theorem Effect.single {s t : System F} {w : Nat} {th : Thread F} (hi : t.init = s.init)
    (hd : t.rssDeltas = s.rssDeltas) (hc : t.readyCh = s.readyCh)
    (hw : t.workers = Function.update s.workers w th) (h : Onward (s.workers w) th) : Effect s t := by
  refine .other hi hd hc fun k => ?_
  rw [hw]
  exact h.update k

/-- a client moved -/
theorem Effect.client {s t : System F} (hi : t.init = s.init) (hd : t.rssDeltas = s.rssDeltas)
    (hc : t.readyCh = s.readyCh) (hw : t.workers = s.workers) : Effect s t :=
  .other hi hd hc fun k => .same (congrFun hw k)

/-- a step within the loop -/
theorem Onward.stay {th : Thread F} {ph : Phase F} {wk : Worker F} (h : th.phase.inLoop = true)
    (h' : ph.inLoop = true) : Onward th ⟨ph, wk, th.signal⟩ := .loop h (.inl h') rfl

/-- the end of a thread, after a step `s₁` that the init task does not see -/
theorem Effect.exitWorker {p : Setup} {s s₁ : System F} {w : Nat} (how : Joined) (hi : s₁.init = s.init)
    (hd : s₁.rssDeltas = s.rssDeltas) (hc : s₁.readyCh = s.readyCh) (hw : s₁.workers = s.workers)
    (h : (s.workers w).phase.inLoop = true ∨ (s.workers w).phase = .starting ∨
      ∃ e, (s.workers w).phase = .failed e) : Effect s (s₁.exitWorker p w how) := by
  have hws := System.exitWorker_workers (p := p) (s := s₁) (w := w) how
  rw [hw] at hws
  refine .single (System.closeIfLast_init.trans hi) (System.closeIfLast_rssDeltas.trans hd)
    (System.closeIfLast_readyCh.trans hc) hws ?_
  rcases h with h | h
  · exact .loop h (.inr rfl) rfl
  · exact .exit h rfl rfl

variable [F32Ops F] {p : Setup} {s t : System F}

theorem move_effect {a : Act F} (h : Move p s a t) (ha : a ≠ .init) : Effect s t := by
  cases h with
  | spawned => exact absurd rfl ha
  | heard => exact absurd rfl ha
  | heardError => exact absurd rfl ha
  | silent => exact absurd rfl ha
  | joined => exact absurd rfl ha
  | pending => exact absurd rfl ha
  | woken => exact absurd rfl ha
  | counted => exact absurd rfl ha
  | @started w preLoadRss load out sh hp ho =>
    cases out with
    | ready wk delta => exact .ready hp rfl rfl rfl rfl ⟨rfl, .inl rfl⟩
    | loadFailed e => exact .failed hp rfl rfl rfl rfl rfl rfl
    | refused e => exact .exitWorker _ rfl rfl rfl rfl (.inr (.inl hp))
  | vanished hp => exact .exitWorker _ rfl rfl rfl rfl (.inr (.inl hp))
  | left hp => exact .exitWorker _ rfl rfl rfl rfl (.inr (.inr ⟨_, hp⟩))
  | drained hp hd => exact .single rfl rfl rfl rfl (.stay (by rw [hp]; rfl) rfl)
  | locked hp hl => exact .single rfl rfl rfl rfl (.stay (by rw [hp]; rfl) rfl)
  | elapsed hp hm =>
    refine .single rfl rfl rfl rfl (.stay ?_ rfl)
    rcases hp with hp | hp <;> rw [hp] <;> rfl
  | took hp hq => exact .single rfl rfl rfl rfl (.stay (by rw [hp]; rfl) rfl)
  | closed hp hq hh => exact .exitWorker _ rfl rfl rfl rfl (.inl (by rw [hp]; rfl))
  | loaded hp he => exact .single rfl rfl rfl rfl (.stay (by rw [hp]; rfl) rfl)
  | unloadable hp ht he => exact .single rfl rfl rfl rfl (.stay (by rw [hp]; rfl) rfl)
  | served hp hm ht hd => exact .single rfl rfl rfl rfl (.stay (by rw [hp]; rfl) rfl)
  | panicked hp hm ht => exact .single rfl rfl rfl rfl (.stay (by rw [hp]; rfl) rfl)
  | replied hp => exact .single rfl rfl rfl rfl (.stay (by rw [hp]; rfl) rfl)
  | again hp hs => exact .single rfl rfl rfl rfl (.stay (by rw [hp]; rfl) rfl)
  | fatal hp hs ho => exact .exitWorker _ rfl rfl rfl rfl (.inl (by rw [hp]; rfl))
  | broke hp hs ho => exact .single rfl rfl rfl rfl (.stay (by rw [hp]; rfl) rfl)
  | noted hp hs => exact .single rfl rfl rfl rfl (.stay (by rw [hp]; rfl) rfl)
  | died hp => exact .exitWorker _ rfl rfl rfl rfl (.inl (by rw [hp]; rfl))
  | submitted hh => exact .client rfl rfl rfl rfl
  | enqueued ht hs => exact .client rfl rfl rfl rfl
  | disconnected ht hc => exact .client rfl rfl rfl rfl
  | dropped hh => exact .client rfl rfl rfl rfl

/-! ## the invariant -/

/-- the worker the init task waits for -/
def InitPc.awaits : InitPc → Option Nat
  | .recv k | .join k | .parked k => some k
  | _ => none

/-- workers started so far -/
def System.spawned (s : System F) : Nat :=
  match s.init with
  | .spawn k => k
  | .recv k | .join k | .parked k | .count k _ => k + 1
  | .done (.ok _) => s.rssDeltas.length
  | .done (.error _) => s.rssDeltas.length + 1

/-- why the task gave up on worker `k` -/
inductive Blame (k : Nat) (th : Thread F) : AnyError → Prop
  | failed {e} (hs : th.signal = some (.error e)) : Blame k th (failedToLoad k e)
  | joined {how} (hp : th.phase = .exited how) : Blame k th (joinError k how)

/-- what holds where the init task is; as many workers as there are deltas are through -/
inductive AtPc (p : Setup) (s : System F) : InitPc → Prop
  | spawn (hn : s.rssDeltas.length < p.n) (hc : s.readyCh = []) : AtPc p s (.spawn s.rssDeltas.length)
  | wait {pc} (hk : pc.awaits = some s.rssDeltas.length) (hn : s.rssDeltas.length < p.n)
      (ha : Awaited (s.workers s.rssDeltas.length) s.readyCh) : AtPc p s pc
  | count {delta} (hn : s.rssDeltas.length < p.n) (hc : s.readyCh = [])
      (hs : Serving (s.workers s.rssDeltas.length) delta) : AtPc p s (.count s.rssDeltas.length delta)
  | ok {u} (hn : s.rssDeltas.length = p.n) : AtPc p s (.done (.ok u))
  | error {e} (hn : s.rssDeltas.length < p.n) (hp : (s.workers s.rssDeltas.length).phase ≠ .starting)
      (hb : Blame s.rssDeltas.length (s.workers s.rssDeltas.length) e) : AtPc p s (.done (.error e))

structure InitInv (p : Setup) (s : System F) : Prop where
  heard : ∀ k delta, s.rssDeltas[k]? = some delta → Serving (s.workers k) delta
  later : ∀ k, s.spawned ≤ k → s.workers k = .fresh
  pc : AtPc p s s.init

theorem initInv_start (ceiling : Nat) : InitInv p (start p ceiling : System F) where
  heard := fun k delta h => by cases h
  later := fun k _ => rfl
  pc := .spawn p.size.pos rfl

theorem Serving.not_starting {th : Thread F} {delta : Nat} (h : Serving th delta) :
    th.phase ≠ .starting := by
  intro hp
  have := h.phase
  rw [hp] at this
  rcases this with h | h <;> cases h

theorem spawned_awaits {k : Nat} (h : s.init.awaits = some k) : s.spawned = k + 1 := by
  unfold System.spawned
  unfold InitPc.awaits at h
  split at h
  · rename_i hi
    cases h
    rw [hi]
  · rename_i hi
    cases h
    rw [hi]
  · rename_i hi
    cases h
    rw [hi]
  · cases h

/-- a thread in startup is the one that is waited for, and the channel is empty -/
theorem InitInv.starting (inv : InitInv p s) {w : Nat} (hp : (s.workers w).phase = .starting) :
    w = s.rssDeltas.length ∧ s.init.awaits = some w ∧ w < p.n ∧ (s.workers w).signal = none ∧
      s.readyCh = [] := by
  have hlt : w < s.spawned := by
    by_contra hge
    have := inv.later w (by omega)
    rw [this] at hp
    cases hp
  have hge : s.rssDeltas.length ≤ w := by
    by_contra hlt
    obtain ⟨delta, hd⟩ : ∃ delta, s.rssDeltas[w]? = some delta :=
      ⟨_, List.getElem?_eq_getElem (by omega)⟩
    exact (inv.heard w delta hd).not_starting hp
  have hpc := inv.pc
  generalize hi : s.init = pc at hpc
  cases hpc with
  | spawn hn hc =>
    rw [System.spawned, hi] at hlt
    exact absurd hlt (by dsimp only; omega)
  | wait hk hn ha =>
    have hw : w = s.rssDeltas.length := by
      have := spawned_awaits (s := s) (by rw [hi]; exact hk)
      omega
    subst hw
    generalize s.readyCh = ch at ha
    cases ha with
    | silent _ hs => exact ⟨rfl, hk, hn, hs, rfl⟩
    | ready h => exact absurd hp h.not_starting
    | failed hf _ =>
      rcases hf with ⟨_, hf⟩ | ⟨_, hf⟩ <;> rw [hf] at hp <;> cases hp
    | mute hf _ => rw [hf] at hp; cases hp
  | count hn hc hs =>
    rw [System.spawned, hi] at hlt
    have hw : w = s.rssDeltas.length := by dsimp only at hlt; omega
    subst hw
    exact absurd hp hs.not_starting
  | ok hn =>
    rw [System.spawned, hi] at hlt
    exact absurd hlt (by dsimp only; omega)
  | error hn hne hb =>
    rw [System.spawned, hi] at hlt
    have hw : w = s.rssDeltas.length := by dsimp only at hlt; omega
    subst hw
    exact absurd hp hne

/-- a delta that was taken in is the one its worker signalled -/
theorem InitInv.heard_of_lt (inv : InitInv p s) {k : Nat} (hk : k < s.rssDeltas.length) :
    ∃ delta, (s.workers k).signal = some (.ok delta) ∧ s.rssDeltas[k]? = some delta := by
  have hd := List.getElem?_eq_getElem hk
  exact ⟨_, (inv.heard k _ hd).signal, hd⟩

theorem InitInv.spawned_le (inv : InitInv p s) : s.spawned ≤ p.n := by
  have hpc := inv.pc
  generalize hi : s.init = pc at hpc
  cases hpc with
  | spawn hn _ =>
    rw [System.spawned, hi]
    exact hn.le
  | wait hk hn _ =>
    rw [spawned_awaits (s := s) (by rw [hi]; exact hk)]
    exact hn
  | count hn _ _ =>
    rw [System.spawned, hi]
    exact hn
  | ok hn =>
    rw [System.spawned, hi]
    exact hn.le
  | error hn _ _ =>
    rw [System.spawned, hi]
    exact hn

/-- a started thread is one of the `n` -/
theorem InitInv.present_lt (inv : InitInv p s) {w : Nat} (h : (s.workers w).phase ≠ .absent) :
    w < s.spawned := by
  by_contra hge
  rw [inv.later w (by omega)] at h
  exact h rfl

/-! ## one step -/

theorem Serving.onward {th th' : Thread F} {delta : Nat} (h : Serving th delta) (ho : Onward th th') :
    Serving th' delta := by
  cases ho with
  | same he => rw [he]; exact h
  | loop _ h' hs => exact ⟨hs.trans h.signal, h'⟩
  | exit hb _ _ =>
    have hp := h.phase
    rcases hb with hb | ⟨e, hb⟩ <;> rw [hb] at hp <;> rcases hp with hp | hp <;> cases hp

/-- a thread that ended stays as it is -/
theorem Onward.exited {th th' : Thread F} {how : Joined} (ho : Onward th th')
    (hp : th.phase = .exited how) : th' = th := by
  cases ho with
  | same he => exact he
  | loop h _ _ => rw [hp] at h; cases h
  | exit hb _ _ => rcases hb with hb | ⟨e, hb⟩ <;> rw [hb] at hp <;> cases hp

theorem Onward.fresh {th' : Thread F} (ho : Onward Thread.fresh th') : th' = .fresh := by
  cases ho with
  | same he => exact he
  | loop h _ _ => cases h
  | exit hb _ _ => rcases hb with hb | ⟨e, hb⟩ <;> cases hb

theorem Onward.signal {th th' : Thread F} (ho : Onward th th') : th'.signal = th.signal := by
  cases ho with
  | same he => rw [he]
  | loop _ _ hs => exact hs
  | exit _ _ hs => exact hs

theorem Onward.not_starting {th th' : Thread F} (ho : Onward th th') (h : th.phase ≠ .starting) :
    th'.phase ≠ .starting := by
  cases ho with
  | same he => rw [he]; exact h
  | loop _ h' _ =>
    intro hp
    rw [hp] at h'
    rcases h' with h' | h' <;> cases h'
  | exit _ h' _ =>
    intro hp
    rw [hp] at h'
    cases h'

theorem Awaited.onward {th th' : Thread F} {ch : List (Except AnyError Nat)} (h : Awaited th ch)
    (ho : Onward th th') : Awaited th' ch := by
  cases h with
  | silent hp hs =>
    cases ho with
    | same he => rw [he]; exact .silent hp hs
    | loop hl _ _ => rw [hp] at hl; cases hl
    | exit _ h' hs' => exact .mute h' (hs'.trans hs)
  | ready h => exact .ready (h.onward ho)
  | failed hp hs =>
    refine .failed ?_ (ho.signal.trans hs)
    rcases hp with ⟨e, hp⟩ | ⟨how, hp⟩
    · cases ho with
      | same he => rw [he]; exact .inl ⟨e, hp⟩
      | loop hl _ _ => rw [hp] at hl; cases hl
      | exit _ h' _ => exact .inr ⟨_, h'⟩
    · rw [ho.exited hp]
      exact .inr ⟨how, hp⟩
  | mute hp hs =>
    rw [ho.exited hp]
    exact .mute hp hs

theorem Blame.onward {th th' : Thread F} {k : Nat} {e : AnyError} (h : Blame k th e) (ho : Onward th th') :
    Blame k th' e := by
  cases h with
  | failed hs => exact .failed (ho.signal.trans hs)
  | joined hp =>
    rw [ho.exited hp]
    exact .joined hp

theorem AtPc.onward {pc : InitPc} (h : AtPc p s pc) (hd : t.rssDeltas = s.rssDeltas)
    (hc : t.readyCh = s.readyCh)
    (ho : Onward (s.workers s.rssDeltas.length) (t.workers s.rssDeltas.length)) : AtPc p t pc := by
  cases h with
  | spawn hn hc' =>
    rw [← hd] at hn ⊢
    exact .spawn hn (hc.trans hc')
  | wait hk hn ha =>
    have ha' := ha.onward ho
    rw [← hd] at hk hn ha'
    rw [← hc] at ha'
    exact .wait hk hn ha'
  | count hn hc' hs =>
    have hs' := hs.onward ho
    rw [← hd] at hn hs' ⊢
    exact .count hn (hc.trans hc') hs'
  | ok hn =>
    rw [← hd] at hn
    exact .ok hn
  | error hn hp hb =>
    have hp' := ho.not_starting hp
    have hb' := hb.onward ho
    rw [← hd] at hn hp' hb'
    exact .error hn hp' hb'

/-- the thread that is waited for signals -/
theorem InitInv.signalled (inv : InitInv p s) {w : Nat} {th : Thread F} {x : Except AnyError Nat}
    (hp : (s.workers w).phase = .starting) (hi : t.init = s.init) (hd : t.rssDeltas = s.rssDeltas)
    (hw : t.workers = Function.update s.workers w th) (ha : Awaited th [x]) (hc : t.readyCh = [x]) :
    InitInv p t := by
  obtain ⟨rfl, haw, hn, -, -⟩ := inv.starting hp
  constructor
  · intro k delta hk
    rw [hd] at hk
    have hlt : k < s.rssDeltas.length := (List.getElem?_eq_some_iff.mp hk).1
    rw [hw, Function.update_of_ne (by omega)]
    exact inv.heard k delta hk
  · intro k hk
    have hsp : t.spawned = s.spawned := by rw [System.spawned, System.spawned, hi, hd]
    rw [hsp] at hk
    have := spawned_awaits haw
    rw [hw, Function.update_of_ne (by omega)]
    exact inv.later k hk
  · rw [hi]
    refine .wait (by rw [hd]; exact haw) (by rw [hd]; exact hn) ?_
    rw [hd, hw, Function.update_self, hc]
    exact ha

theorem initInv_effect (inv : InitInv p s) (h : Effect s t) : InitInv p t := by
  cases h with
  | ready hp hi hd hc hw hth =>
    refine inv.signalled hp hi hd hw (.ready hth) ?_
    rw [hc, (inv.starting hp).2.2.2.2]
    rfl
  | failed hp hi hd hc hw hph hs =>
    refine inv.signalled hp hi hd hw (.failed (.inl ⟨_, hph⟩) hs) ?_
    rw [hc, (inv.starting hp).2.2.2.2]
    rfl
  | other hi hd hc hw =>
    constructor
    · intro k delta hk
      rw [hd] at hk
      exact (inv.heard k delta hk).onward (hw k)
    · intro k hk
      have hsp : t.spawned = s.spawned := by rw [System.spawned, System.spawned, hi, hd]
      rw [hsp] at hk
      have ho := hw k
      rw [inv.later k hk] at ho
      exact ho.fresh
    · rw [hi]
      exact inv.pc.onward hd hc (hw _)

/-- one of the polls, or the wait between them -/
theorem initInv_poll (inv : InitInv p s) {k : Nat} {pc : InitPc} (hk : s.init.awaits = some k)
    (hk' : pc.awaits = some k) : InitInv p { s with init := pc } := by
  refine ⟨inv.heard, ?_, ?_⟩
  · intro j hj
    rw [spawned_awaits (s := { s with init := pc }) hk'] at hj
    exact inv.later j (by rw [spawned_awaits hk]; exact hj)
  · have hpc := inv.pc
    generalize s.init = pc' at hpc hk
    cases hpc with
    | wait hm hn ha =>
      rw [hk] at hm
      exact .wait (hk'.trans hm) hn ha
    | spawn _ _ => cases hk
    | count _ _ _ => cases hk
    | ok _ => cases hk
    | error _ _ _ => cases hk

/-- the init task gives up on the worker it waits for -/
theorem initInv_finishError (inv : InitInv p s) {k : Nat} {e : AnyError} {ch : List (Except AnyError Nat)}
    (hk : s.init.awaits = some k) (hn : k < p.n) (hm : k = s.rssDeltas.length)
    (hp : (s.workers k).phase ≠ .starting) (hb : Blame k (s.workers k) e) :
    InitInv p ({ s with readyCh := ch }.finishInit p (.error e)) := by
  subst hm
  constructor
  · intro k delta hd
    rw [System.finishInit, System.closeIfLast_rssDeltas] at hd
    rw [System.finishInit, System.closeIfLast_workers]
    exact inv.heard k delta hd
  · intro k hd
    rw [System.spawned, System.finishInit, System.closeIfLast_init, System.closeIfLast_rssDeltas] at hd
    rw [System.finishInit, System.closeIfLast_workers]
    refine inv.later k ?_
    rw [spawned_awaits hk]
    exact hd
  · rw [System.finishInit, System.closeIfLast_init]
    refine .error ?_ ?_ ?_ <;> simp only [System.closeIfLast_rssDeltas, System.closeIfLast_workers]
    · exact hn
    · exact hp
    · exact hb

theorem countWorker_eq (k delta : Nat) : (countWorker p s k delta).workers = s.workers ∧
    (countWorker p s k delta).rssDeltas = s.rssDeltas ++ [delta] ∧
    (countWorker p s k delta).readyCh = s.readyCh ∧
    (countWorker p s k delta).init = if k + 1 < p.n then .spawn (k + 1) else .done (.ok ()) := by
  unfold countWorker System.finishInit
  dsimp only
  split
  · exact ⟨rfl, rfl, rfl, rfl⟩
  · exact ⟨System.closeIfLast_workers, System.closeIfLast_rssDeltas, System.closeIfLast_readyCh,
      System.closeIfLast_init⟩

/-- worker `k` is through -/
theorem initInv_counted (inv : InitInv p s) {delta : Nat} (hi : s.init = .count s.rssDeltas.length delta)
    (hn : s.rssDeltas.length < p.n) (hc : s.readyCh = [])
    (hs : Serving (s.workers s.rssDeltas.length) delta) :
    InitInv p (countWorker p s s.rssDeltas.length delta) := by
  obtain ⟨hw, hd, hr, hi'⟩ := countWorker_eq (p := p) (s := s) s.rssDeltas.length delta
  have hsp : (countWorker p s s.rssDeltas.length delta).spawned = s.rssDeltas.length + 1 := by
    rw [System.spawned, hi', hd]
    by_cases hlt : s.rssDeltas.length + 1 < p.n
    · rw [if_pos hlt]
    · rw [if_neg hlt, List.length_append]
      rfl
  constructor
  · intro k d hk
    rw [hd] at hk
    rw [hw]
    by_cases hlt : k < s.rssDeltas.length
    · rw [List.getElem?_append_left hlt] at hk
      exact inv.heard k d hk
    · rw [List.getElem?_append_right (by omega)] at hk
      have hz : k - s.rssDeltas.length < 1 := (List.getElem?_eq_some_iff.mp hk).1
      have hkm : k = s.rssDeltas.length := by omega
      subst hkm
      rw [Nat.sub_self] at hk
      cases hk
      exact hs
  · intro k hk
    rw [hsp] at hk
    rw [hw]
    refine inv.later k ?_
    rw [System.spawned, hi]
    exact hk
  · rw [hi']
    have hlen : (countWorker p s s.rssDeltas.length delta).rssDeltas.length = s.rssDeltas.length + 1 := by
      rw [hd, List.length_append]
      rfl
    split
    · rename_i hlt
      rw [← hlen]
      exact .spawn (by rw [hlen]; exact hlt) (hr.trans hc)
    · rename_i hge
      exact .ok (by omega)

theorem initInv_init (inv : InitInv p s) (h : Move p s .init t) : InitInv p t := by
  have hpc := inv.pc
  cases h with
  | spawned hi =>
    rw [hi] at hpc
    cases hpc with
    | spawn hn hc =>
      have hf : s.workers s.rssDeltas.length = .fresh := by
        refine inv.later _ ?_
        rw [System.spawned, hi]
      constructor
      · intro k delta hk
        have hlt : k < s.rssDeltas.length := (List.getElem?_eq_some_iff.mp hk).1
        show Serving (Function.update s.workers _ _ k) delta
        rw [Function.update_of_ne (by omega)]
        exact inv.heard k delta hk
      · intro k hk
        have hlt : s.rssDeltas.length + 1 ≤ k := hk
        show Function.update s.workers _ _ k = _
        rw [Function.update_of_ne (by omega)]
        refine inv.later k ?_
        rw [System.spawned, hi]
        dsimp only
        omega
      · refine .wait rfl hn ?_
        show Awaited (Function.update s.workers s.rssDeltas.length _ s.rssDeltas.length) s.readyCh
        rw [Function.update_self, hc]
        exact .silent rfl (by rw [hf]; rfl)
    | wait hk _ _ => cases hk
  | heard hi hc =>
    rw [hi] at hpc
    cases hpc with
    | wait hk hn ha =>
      cases hk
      rw [hc] at ha
      cases ha with
      | ready hs =>
        refine ⟨inv.heard, ?_, .count hn rfl hs⟩
        intro k hk
        refine inv.later k ?_
        rw [System.spawned, hi]
        exact hk
  | heardError hi hc =>
    rw [hi] at hpc
    cases hpc with
    | wait hk hn ha =>
      cases hk
      rw [hc] at ha
      cases ha with
      | failed hp hs =>
        refine initInv_finishError inv (by rw [hi]; rfl) hn rfl ?_ (.failed hs)
        intro hst
        rcases hp with ⟨_, hp⟩ | ⟨_, hp⟩ <;> rw [hp] at hst <;> cases hst
  | silent hi hc => exact initInv_poll inv (by rw [hi]; rfl) rfl
  | joined hi hp =>
    rw [hi] at hpc
    cases hpc with
    | wait hk hn ha =>
      cases hk
      refine initInv_finishError inv (by rw [hi]; rfl) hn rfl ?_ (.joined hp)
      rw [hp]
      intro h
      cases h
  | pending hi hp => exact initInv_poll inv (by rw [hi]; rfl) rfl
  | woken hi hw => exact initInv_poll inv (by rw [hi]; rfl) rfl
  | counted hi =>
    rw [hi] at hpc
    cases hpc with
    | count hn hc hs => exact initInv_counted inv hi hn hc hs
    | wait hk _ _ => cases hk

theorem initInv_move {a : Act F} (inv : InitInv p s) (h : Move p s a t) : InitInv p t := by
  by_cases ha : a = .init
  · subst ha
    exact initInv_init inv h
  · exact initInv_effect inv (move_effect h ha)

/-- in every run, whatever the workers and the clients do -/
theorem reach_initInv {C : System F → Act F → Prop} {ceiling : Nat}
    (h : Reach (step p) C (start p ceiling) s) : InitInv p s :=
  h.invariant (initInv_start ceiling) fun _ _ _ inv _ hs => initInv_move inv (step_cases hs)

end
end EmbedServer.Pool
