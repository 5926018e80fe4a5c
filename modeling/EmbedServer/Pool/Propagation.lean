import EmbedServer.Lib.Broadcast
import EmbedServer.Pool.Init
import EmbedServer.Worker.Warmed

/-!
# Engine propagation (`worker/propagation.rs`, `worker/run.rs`, `pool.rs`)

A worker that compiled an engine for a request sends its shape to all workers, which run it once on their
own sessions before they take the next request.  The channel keeps 32 shapes; a worker that falls behind,
because its requests are long or its models unloaded, misses what was overwritten.

* `Wired`, `wiredStep`    the pool with this channel; a drain goes one `try_recv` at a time;
* `ThreadStep`            what a step of the pool leaves of a thread;
* `WiredInv`              every receiver is sound, and what was received or sent is marked;
* `propagation_reaches`   after a drain every shape sent since the worker subscribed is marked, but for
                          those that were overwritten before the worker came to them.
-/

set_option linter.unusedSectionVars false

namespace EmbedServer.Pool

/-- `broadcast::channel(32)` -/
def propagationCapacity : Nat := 32

/-- the pool, the propagation channel with the senders, the receivers, and what the drain under way has
received -/
structure Wired (F : Type) where
  pool : System F
  bus : List (Option Nat × Shape)
  rx : Nat → Option Receiver
  buffer : Nat → List Shape

inductive WiredAct (F : Type) where
  | pool (a : Act F)
  /-- `Sender::subscribe` in front of the loop -/
  | subscribe (w : Nat)
  | tryRecv (w : Nat)
  /-- `try_recv` finds nothing -/
  | drained (w : Nat)
  /-- `broadcast_engine_ready` -/
  | announce (shape : Shape)

section
variable {F : Type} [F32Ops F] (p : Setup)

/-- the worker drains at the head of its loop -/
def listens (s : System F) (w : Nat) : Bool :=
  decide ((p.configOf w).ep = .tensorRt ∧ (p.configOf w).enginePropagationTx = true) &&
    (s.workers w).worker.models.isSome

/-- who sends in a step of the pool -/
def Act.sender : Act F → Option Nat
  | .dispatch w _ => some w
  | _ => none

/-- what a step of the pool puts on the channel -/
def announced (s t : System F) (a : Act F) : List (Option Nat × Shape) :=
  (t.shared.propSent.drop s.shared.propSent.length).map fun x => (a.sender, x)

namespace Wired

def setReceiver (s : Wired F) (w : Nat) (r : Receiver) : Wired F :=
  { s with rx := Function.update s.rx w (some r) }

def endDrain (s : Wired F) (w : Nat) (t : System F) : Wired F :=
  { s with pool := t, buffer := Function.update s.buffer w [] }

end Wired

def wiredStep (s : Wired F) : WiredAct F → Option (Wired F)
  | .pool a =>
    match a with
    -- the drains are below
    | .drain _ _ => none
    | _ => (step p s.pool a).map fun t => { s with pool := t, bus := s.bus ++ announced s.pool t a }
  | .subscribe w =>
    match (s.pool.workers w).phase, s.rx w with
    | .top, none =>
      if (p.configOf w).enginePropagationTx then some (s.setReceiver w (.subscribe s.bus)) else none
    | _, _ => none
  | .tryRecv w =>
    match (s.pool.workers w).phase, s.rx w with
    | .top, some r =>
      if listens p s.pool w then
        match r.tryRecv propagationCapacity s.bus with
        | (.received x, r') =>
          some { s.setReceiver w r' with buffer := Function.update s.buffer w (s.buffer w ++ [x.2]) }
        | (.lagged _, r') => some (s.setReceiver w r')
        | (.empty, _) => none
      else none
    | _, _ => none
  | .drained w =>
    match s.rx w with
    | some r =>
      if listens p s.pool w then
        match r.tryRecv propagationCapacity s.bus with
        | (.empty, _) => (step p s.pool (.drain w (s.buffer w))).map (s.endDrain w)
        | _ => none
      else (step p s.pool (.drain w [])).map (s.endDrain w)
    | none =>
      if (p.configOf w).enginePropagationTx then none
      else (step p s.pool (.drain w [])).map (s.endDrain w)
  | .announce shape => if s.pool.poolHandle then some { s with bus := s.bus ++ [(none, shape)] } else none

def wired (ceiling : Nat) : Wired F := ⟨start p ceiling, [], fun _ => none, fun _ => []⟩

end

section
variable {F : Type}

/-- behind `startup_worker` -/
def Phase.begun : Phase F → Bool
  | .absent | .starting => false
  | _ => true

def Phase.isTop : Phase F → Bool
  | .top => true
  | _ => false

/-- what a step of the pool that is no drain leaves of a thread behind its startup -/
inductive ThreadStep (th th' : Thread F) : Prop
  | same (h : th' = th)
  | early (h : th.phase.begun = false)
  | moved (h : th.phase.isTop = false) (hb : th'.phase.begun = true)
      (hw : ∀ x ∈ th.worker.warmedLocal, x ∈ th'.worker.warmedLocal)

theorem ThreadStep.update {f : Nat → Thread F} {w : Nat} {th : Thread F} (h : ThreadStep (f w) th)
    (k : Nat) : ThreadStep (f k) (Function.update f w th k) := by
  by_cases hk : k = w
  · subst hk
    rw [Function.update_self]
    exact h
  · exact .same (Function.update_of_ne hk ..)

variable [F32Ops F] {p : Setup} {s t : System F}

theorem startup_propSent {host : Host} {config : WorkerConfig} {id preLoadRss : Nat}
    {load : Except String (Models F)} {sh sh' : Shared} {out : StartupOutcome F}
    (h : startupWorker host config id preLoadRss load sh = (out, sh')) : sh'.propSent = sh.propSent := by
  unfold startupWorker at h
  split at h
  · cases h
    rfl
  · dsimp only at h
    split at h
    · cases h
      rfl
    · split at h <;> cases h <;> rfl

theorem ensureModels_propSent {host : Host} {wk : Worker F} {sh sh' : Shared}
    {load : Except String (Models F)} {m : Models F} {runs : Trace}
    (h : ensureModels host wk sh load = .ok (m, runs, sh')) : sh'.propSent = sh.propSent := by
  unfold ensureModels at h
  split at h
  · cases h
    rfl
  · split at h <;> cases h
    rfl

/-- a dispatch, whatever its outcome -/
theorem dispatch_eq {w : Nat} {env : Env} (h : step p s (.dispatch w env) = some t) :
    ∃ id m runs tk ph, (s.workers w).phase = .loaded id ∧ (s.workers w).worker.models = some (m, runs) ∧
      ph.begun = true ∧ t = dispatched (s.handle id w (heldFor p s w m runs env tk)) w m
        (dispatchOn p s w m runs env tk).2 ph := by
  rw [step, dispatchStep] at h
  split at h
  · rename_i id m runs hp hm
    split at h
    · rename_i tk ht
      refine ⟨id, m, runs, tk, ?_⟩
      split at h
      · rename_i hd
        cases h
        exact ⟨_, hp, hm, rfl, by rw [hd]⟩
      · rename_i hd
        cases h
        exact ⟨_, hp, hm, rfl, by rw [hd]⟩
      · rename_i hd
        cases h
        exact ⟨_, hp, hm, rfl, by rw [hd]⟩
    · cases h
  · cases h

/-- a dispatch takes no mark back, and marks what it sends -/
theorem dispatch_books (m : Models F) (host : Host) (config : WorkerConfig) (id : Nat) (env : Env)
    (cf : Nat) (guard : Option TrtJitGuard) (req : EmbedRequest) (isClosed : Bool) (d : Desk) :
    (∀ x ∈ d.warmedLocal,
      x ∈ (dispatchRequest m host config id env cf guard req isClosed d).2.warmedLocal) ∧
    ∃ new, (dispatchRequest m host config id env cf guard req isClosed d).2.propSent = d.propSent ++ new ∧
      ∀ x ∈ new, x ∈ (dispatchRequest m host config id env cf guard req isClosed d).2.warmedLocal := by
  have hl := dispatch_leaves m host config id env cf guard req isClosed d
  have hm := dispatch_marks m host config id env cf guard req isClosed d
  generalize dispatchRequest m host config id env cf guard req isClosed d = res at hl hm ⊢
  cases hl with
  | @completed texts reply d' cm encs h hreq hr hd =>
    cases hm with
    | @completed texts' reply' d' cm' encs' h' hreq' hr' hd' =>
      -- the two descriptions are of one call
      cases hreq.symm.trans hreq'
      cases hd.tokenized.symm.trans hd'.tokenized
      cases hd.budget.symm.trans hd'.budget
      have hh := List.append_cancel_right (hd.runs.symm.trans hd'.runs)
      subst hh
      refine ⟨fun x hx => ?_, _, hd.prop, fun x hx => ?_⟩
      · rw [hd'.warmed]
        exact mem_marked.mpr (.inl hx)
      · rw [hd'.warmed]
        refine mem_marked.mpr (.inr ?_)
        unfold slowShape at hx
        split at hx
        · rename_i htx
          split at hx
          · cases hx
          · rename_i hslow
            exact ⟨htx, Nat.le_of_not_lt hslow, List.mem_singleton.mp hx⟩
        · cases hx
    | unmarked hr' hd' => exact absurd hr (hr' _ _ rfl)
  | @silent r d' hr hd =>
    cases hm with
    | completed hreq' hr' hd' => exact absurd hr' (hr _ _ rfl)
    | unmarked hr' hd' =>
      refine ⟨fun x hx => ?_, [], ?_, fun x hx => absurd hx List.not_mem_nil⟩
      · rw [hd'.2]
        exact hx
      · rw [List.append_nil]
        exact hd.2

theorem thread_step {a : Act F} (inv : InitInv p s) (h : step p s a = some t)
    (hd : ∀ w shapes, a ≠ .drain w shapes) (k : Nat) : ThreadStep (s.workers k) (t.workers k) := by
  -- one thread moved, from somewhere else than the head of its loop
  have loop {w : Nat} {ph : Phase F} {th : Thread F} {t : System F}
      (hw : t.workers = Function.update s.workers w th) (hp : (s.workers w).phase = ph)
      (hph : ph.isTop = false) (hb : th.phase.begun = true)
      (hm : ∀ x ∈ (s.workers w).worker.warmedLocal, x ∈ th.worker.warmedLocal) :
      ThreadStep (s.workers k) (t.workers k) := by
    rw [hw]
    exact ThreadStep.update (.moved (by rw [hp]; exact hph) hb hm) k
  have still {t : System F} (hw : t.workers = s.workers) : ThreadStep (s.workers k) (t.workers k) :=
    .same (by rw [hw])
  have exit {w : Nat} {ph : Phase F} {u : System F} {how : Joined} (hw : u.workers = s.workers)
      (hp : (s.workers w).phase = ph) (hph : ph.isTop = false) :
      ThreadStep (s.workers k) ((u.exitWorker p w how).workers k) := by
    have hws := System.exitWorker_workers (p := p) (s := u) (w := w) how
    rw [hw] at hws
    exact loop hws hp hph rfl fun x hx => hx
  by_cases hdisp : ∃ w env, a = .dispatch w env
  · obtain ⟨w, env, rfl⟩ := hdisp
    obtain ⟨id, m, runs, tk, ph, hp, hm, hb, rfl⟩ := dispatch_eq h
    refine loop (w := w) rfl hp rfl hb fun x hx => ?_
    exact (dispatch_books m p.host (p.configOf w) w env _ _ tk.req (!tk.isOpen) _).1 x hx
  · cases step_cases h with
    | @spawned k' hi =>
      have hf : s.workers k' = .fresh := by
        refine inv.later _ ?_
        rw [System.spawned, hi]
      exact ThreadStep.update (f := s.workers) (.early (by rw [hf]; rfl)) k
    | heardError hi hc => exact still System.closeIfLast_workers
    | joined hi hp => exact still System.closeIfLast_workers
    | @counted k' delta hi =>
      unfold countWorker
      dsimp only
      split
      · exact still rfl
      · exact still System.closeIfLast_workers
    | @started w preLoadRss load out sh hp ho =>
      have hearly : (s.workers w).phase.begun = false := by rw [hp]; rfl
      cases out with
      | ready wk delta => exact ThreadStep.update (f := s.workers) (.early hearly) k
      | loadFailed e => exact ThreadStep.update (f := s.workers) (.early hearly) k
      | refused e => exact exit (u := { s with shared := sh }) rfl hp rfl
    | vanished hp => exact exit rfl hp rfl
    | left hp => exact exit rfl hp rfl
    | drained hp hd' => exact absurd rfl (hd _ _)
    | @locked w hp hl => exact loop (w := w) rfl hp rfl rfl fun x hx => hx
    | @elapsed w hp hm =>
      rcases hp with hp | hp
      · exact loop (w := w) rfl hp rfl rfl fun x hx => hx
      · exact loop (w := w) rfl hp rfl rfl fun x hx => hx
    | @took w id rest hp hq => exact loop (w := w) rfl hp rfl rfl fun x hx => hx
    | @closed w hp hq hh => exact exit (u := s.closing w) rfl hp rfl
    | @loaded w load id m runs sh hp he => exact loop (w := w) rfl hp rfl rfl fun x hx => hx
    | @unloadable w load id tk e hp ht he => exact loop (w := w) rfl hp rfl rfl fun x hx => hx
    | served hp hm ht hd' => exact absurd ⟨_, _, rfl⟩ hdisp
    | panicked hp hm ht => exact absurd ⟨_, _, rfl⟩ hdisp
    | @replied w id reply out hp => exact loop (w := w) rfl hp rfl rfl fun x hx => hx
    | @again w out hp hs => exact loop (w := w) rfl hp rfl rfl fun x hx => hx
    | fatal hp hs ho => exact exit rfl hp rfl
    | @broke w out hp hs ho => exact loop (w := w) rfl hp rfl rfl fun x hx => hx
    | @noted w out hp hs => exact loop (w := w) rfl hp rfl rfl fun x hx => hx
    | @died w id text hp => exact exit (u := s.setTicket id Ticket.finish) rfl hp rfl
    | heard hi hc => exact still rfl
    | silent hi hc => exact still rfl
    | pending hi hp => exact still rfl
    | woken hi hw => exact still rfl
    | submitted hh => exact still rfl
    | enqueued ht hs => exact still rfl
    | disconnected ht hc => exact still rfl
    | dropped hh => exact still rfl

/-- what a step sends, its sender has marked -/
theorem prop_step {a : Act F} (h : step p s a = some t) :
    ∃ new, t.shared.propSent = s.shared.propSent ++ new ∧
      ∀ x ∈ new, ∃ w, a.sender = some w ∧ (t.workers w).phase.begun = true ∧
        x ∈ (t.workers w).worker.warmedLocal := by
  have quiet {t : System F} (ht : t.shared.propSent = s.shared.propSent) :
      ∃ new, t.shared.propSent = s.shared.propSent ++ new ∧ ∀ x ∈ new, ∃ w, a.sender = some w ∧
        (t.workers w).phase.begun = true ∧ x ∈ (t.workers w).worker.warmedLocal :=
    ⟨[], ht.trans (List.append_nil _).symm, fun x hx => absurd hx List.not_mem_nil⟩
  have exit {u : System F} {w : Nat} {how : Joined} (hu : u.shared.propSent = s.shared.propSent) :
      (u.exitWorker p w how).shared.propSent = s.shared.propSent :=
    (congrArg Shared.propSent System.closeIfLast_shared).trans hu
  by_cases hdisp : ∃ w env, a = .dispatch w env
  · obtain ⟨w, env, rfl⟩ := hdisp
    obtain ⟨id, m, runs, tk, ph, hp, hm, hb, rfl⟩ := dispatch_eq h
    obtain ⟨new, hnew, hmarks⟩ :=
      (dispatch_books m p.host (p.configOf w) w env (s.workers w).worker.consecutiveFailures
        (buildShapeGuard (p.configOf w) s.shared.ceiling) tk.req (!tk.isOpen)
        (deskOf runs (s.workers w).worker s.shared)).2
    have hth : (dispatched (s.handle id w (heldFor p s w m runs env tk)) w m
        (dispatchOn p s w m runs env tk).2 ph).workers w =
        ⟨ph, { (s.workers w).worker with
          models := some (m, (dispatchOn p s w m runs env tk).2.runs)
          warmedLocal := (dispatchOn p s w m runs env tk).2.warmedLocal }, (s.workers w).signal⟩ :=
      Function.update_self ..
    refine ⟨new, hnew, fun x hx => ⟨w, rfl, ?_, ?_⟩⟩
    · rw [hth]
      exact hb
    · rw [hth]
      exact hmarks x hx
  · cases step_cases h with
    | heardError hi hc => exact quiet (congrArg Shared.propSent System.closeIfLast_shared)
    | joined hi hp => exact quiet (congrArg Shared.propSent System.closeIfLast_shared)
    | @counted k delta hi =>
      refine quiet ?_
      unfold countWorker
      dsimp only
      split
      · rfl
      · refine Eq.trans (b := s.addLoaded.shared.propSent) ?_ rfl
        exact congrArg Shared.propSent System.closeIfLast_shared
    | @started w preLoadRss load out sh hp ho =>
      have hsh := startup_propSent ho
      cases out with
      | ready wk delta => exact quiet hsh
      | loadFailed e => exact quiet hsh
      | refused e => exact quiet (exit hsh)
    | vanished hp => exact quiet (exit rfl)
    | left hp => exact quiet (exit rfl)
    | @drained w shapes wk sh hp hd =>
      have hsh := (drain_channels p.host (p.configOf w) (s.workers w).worker s.shared shapes).2
      rw [hd] at hsh
      exact quiet hsh
    | @closed w hp hq hh =>
      refine quiet (exit (u := s.closing w) ?_)
      unfold System.closing
      dsimp only
      split <;> rfl
    | loaded hp he => exact quiet (ensureModels_propSent he)
    | served hp hm ht hd => exact absurd ⟨_, _, rfl⟩ hdisp
    | panicked hp hm ht => exact absurd ⟨_, _, rfl⟩ hdisp
    | fatal hp hs ho => exact quiet (exit rfl)
    | @died w id text hp => exact quiet (exit (u := s.setTicket id Ticket.finish) rfl)
    | _ => exact quiet rfl

/-! ## the invariant -/

/-- marked, or received in the drain under way -/
def Wired.Marked (s : Wired F) (w : Nat) (x : Shape) : Prop :=
  x ∈ (s.pool.workers w).worker.warmedLocal ∨ x ∈ s.buffer w

structure WiredInv (p : Setup) (s : Wired F) : Prop where
  init : InitInv p s.pool
  begun : ∀ w r, s.rx w = some r → (s.pool.workers w).phase.begun = true
  sound : ∀ w r, s.rx w = some r → r.Sound propagationCapacity s.bus
  marked : ∀ w r, s.rx w = some r → ∀ j ∈ r.heard, ∀ (o : Option Nat) (x : Shape), s.bus[j]? = some (o, x) → s.Marked w x
  /-- a drain is under way at the head of the loop only -/
  buffered : ∀ w, s.buffer w ≠ [] → (s.pool.workers w).phase = .top ∧ listens p s.pool w = true
  own : ∀ (j w : Nat) (x : Shape), s.bus[j]? = some (some w, x) →
    (s.pool.workers w).phase.begun = true ∧ x ∈ (s.pool.workers w).worker.warmedLocal

theorem wiredInv_start (ceiling : Nat) : WiredInv p (wired p ceiling : Wired F) where
  init := initInv_start ceiling
  begun := fun w r h => by cases h
  sound := fun w r h => by cases h
  marked := fun w r h => by cases h
  buffered := fun w h => absurd rfl h
  own := fun j w x h => by cases h

/-- behind its startup a thread stays there and keeps its marks -/
theorem ThreadStep.kept {th th' : Thread F} (h : ThreadStep th th') (hb : th.phase.begun = true) :
    th'.phase.begun = true ∧ ∀ x ∈ th.worker.warmedLocal, x ∈ th'.worker.warmedLocal := by
  cases h with
  | same he => rw [he]; exact ⟨hb, fun x hx => hx⟩
  | early hn => rw [hn] at hb; cases hb
  | moved _ hb' hw => exact ⟨hb', hw⟩

/-- at the head of its loop a thread stays as it is -/
theorem ThreadStep.top {th th' : Thread F} (h : ThreadStep th th') (ht : th.phase = .top) : th' = th := by
  cases h with
  | same he => exact he
  | early hn => rw [ht] at hn; cases hn
  | moved hn _ _ => rw [ht] at hn; cases hn

/-- an entry of a channel that more was sent on is an old one or a new one -/
theorem getElem?_append_cases {β : Type} {l l' : List β} {j : Nat} {x : β} (h : (l ++ l')[j]? = some x) :
    l[j]? = some x ∨ x ∈ l' := by
  rw [List.getElem?_append] at h
  split at h
  · exact .inl h
  · exact .inr (List.mem_of_getElem? h)

theorem mem_announced {a : Act F} {o : Option Nat} {x : Shape} (h : step p s a = some t)
    (hx : (o, x) ∈ announced s t a) : ∃ w, o = some w ∧ (t.workers w).phase.begun = true ∧
      x ∈ (t.workers w).worker.warmedLocal := by
  obtain ⟨new, hnew, hmarks⟩ := prop_step h
  rw [announced, hnew, List.drop_left, List.mem_map] at hx
  obtain ⟨y, hy, he⟩ := hx
  cases he
  exact hmarks x hy

theorem wiredInv_pool {a : Act F} {v : Wired F} (inv : WiredInv p v) (h : step p v.pool a = some t)
    (hd : ∀ w shapes, a ≠ .drain w shapes) :
    WiredInv p { v with pool := t, bus := v.bus ++ announced v.pool t a } := by
  have hth := thread_step inv.init h hd
  have hkept {w : Nat} {r : Receiver} (hr : v.rx w = some r) := (hth w).kept (inv.begun w r hr)
  refine ⟨initInv_move inv.init (step_cases h), fun w r hr => (hkept hr).1, fun w r hr => (inv.sound w r hr).send _,
    fun w r hr j hj o x hx => ?_, fun w hw => ?_, fun j w x hx => ?_⟩
  · -- what was received was there before
    have hlt : j < v.bus.length := ((inv.sound w r hr).range j hj).2.trans_le (inv.sound w r hr).bounded
    have hx : (v.bus ++ announced v.pool t a)[j]? = some (o, x) := hx
    rw [List.getElem?_append_left hlt] at hx
    rcases inv.marked w r hr j hj o x hx with hm | hm
    · exact .inl ((hkept hr).2 x hm)
    · exact .inr hm
  · obtain ⟨htop, hlisten⟩ := inv.buffered w hw
    have hsame : t.workers w = v.pool.workers w := (hth w).top htop
    refine ⟨(congrArg Thread.phase hsame).trans htop, ?_⟩
    rw [listens] at hlisten ⊢
    rw [hsame]
    exact hlisten
  · rcases getElem?_append_cases hx with hx | hx
    · obtain ⟨hb, hm⟩ := inv.own j w x hx
      exact ⟨((hth w).kept hb).1, ((hth w).kept hb).2 x hm⟩
    · obtain ⟨w', hw, hb, hm⟩ := mem_announced h hx
      cases hw
      exact ⟨hb, hm⟩

/-! ## the steps of the channel -/

/-- every step of the wired pool, with what its guards have checked -/
inductive WiredMove (p : Setup) (s : Wired F) : WiredAct F → Wired F → Prop
  | pool {a t} (hs : step p s.pool a = some t) (hd : ∀ w shapes, a ≠ .drain w shapes) :
      WiredMove p s (.pool a) { s with pool := t, bus := s.bus ++ announced s.pool t a }
  | subscribed {w} (hp : (s.pool.workers w).phase = .top) :
      WiredMove p s (.subscribe w) (s.setReceiver w (.subscribe s.bus))
  | heard {w r x r'} (hp : (s.pool.workers w).phase = .top) (hr : s.rx w = some r)
      (hl : listens p s.pool w = true) (ht : r.tryRecv propagationCapacity s.bus = (.received x, r')) :
      WiredMove p s (.tryRecv w)
        { s.setReceiver w r' with buffer := Function.update s.buffer w (s.buffer w ++ [x.2]) }
  | lagged {w r n r'} (hp : (s.pool.workers w).phase = .top) (hr : s.rx w = some r)
      (ht : r.tryRecv propagationCapacity s.bus = (.lagged n, r')) :
      WiredMove p s (.tryRecv w) (s.setReceiver w r')
  | drained {w r r' t} (hr : s.rx w = some r) (hl : listens p s.pool w = true)
      (ht : r.tryRecv propagationCapacity s.bus = (.empty, r'))
      (hs : step p s.pool (.drain w (s.buffer w)) = some t) : WiredMove p s (.drained w) (s.endDrain w t)
  | passed {w t} (hl : listens p s.pool w = false) (hs : step p s.pool (.drain w []) = some t) :
      WiredMove p s (.drained w) (s.endDrain w t)
  | announced {shape} : WiredMove p s (.announce shape) { s with bus := s.bus ++ [(none, shape)] }

theorem listens_false {w : Nat} (h : ¬(p.configOf w).enginePropagationTx = true) : listens p s w = false := by
  rw [listens, decide_eq_false fun hc => h hc.2, Bool.false_and]

theorem wiredStep_cases {s s' : Wired F} {act : WiredAct F} (h : wiredStep p s act = some s') :
    WiredMove p s act s' := by
  cases act with
  | pool a =>
    unfold wiredStep at h
    dsimp only at h
    split at h
    · cases h
    · rename_i hd
      obtain ⟨t, hs, rfl⟩ := Option.map_eq_some_iff.mp h
      exact .pool hs hd
  | subscribe w =>
    unfold wiredStep at h
    dsimp only at h
    split at h
    · rename_i hp hr
      split at h
      · cases h
        exact .subscribed hp
      · cases h
    · cases h
  | tryRecv w =>
    unfold wiredStep at h
    dsimp only at h
    split at h
    · rename_i r hp hr
      split at h
      · rename_i hl
        split at h
        · rename_i x r' ht
          cases h
          exact .heard hp hr hl ht
        · rename_i n r' ht
          cases h
          exact .lagged hp hr ht
        · cases h
      · cases h
    · cases h
  | drained w =>
    unfold wiredStep at h
    dsimp only at h
    split at h
    · rename_i r hr
      split at h
      · rename_i hl
        split at h
        · rename_i r' ht
          obtain ⟨t, hs, rfl⟩ := Option.map_eq_some_iff.mp h
          exact .drained hr hl ht hs
        · cases h
      · rename_i hl
        obtain ⟨t, hs, rfl⟩ := Option.map_eq_some_iff.mp h
        exact .passed (by simpa using hl) hs
    · split at h
      · cases h
      · rename_i htx
        obtain ⟨t, hs, rfl⟩ := Option.map_eq_some_iff.mp h
        exact .passed (listens_false htx) hs
  | announce shape =>
    unfold wiredStep at h
    dsimp only at h
    split at h
    · cases h
      exact .announced
    · cases h

theorem drain_eq {w : Nat} {shapes : List Shape} (h : step p s (.drain w shapes) = some t) :
    (s.workers w).phase = .top ∧ t.workers = Function.update s.workers w ⟨.waiting,
      (drainEnginePropagation p.host (p.configOf w) (s.workers w).worker s.shared shapes).1,
      (s.workers w).signal⟩ := by
  rw [step, drainTurn] at h
  split at h
  · rename_i hp
    cases h
    exact ⟨hp, rfl⟩
  · cases h

theorem mem_drain_fold {host : Host} {m : Models F} {x : Shape} (shapes : List Shape) (st : DrainState) :
    x ∈ (shapes.foldl (drainStep host m) st).warmedLocal ↔ x ∈ st.warmedLocal ∨ x ∈ shapes := by
  induction shapes generalizing st with
  | nil => simp
  | cons shape shapes ih => rw [List.foldl_cons, ih, mem_drainStep, List.mem_cons, or_assoc]

/-- a drain of a listening worker marks what it received -/
theorem mem_drain {w : Nat} {x : Shape} (shapes : List Shape) (hl : listens p s w = true) :
    x ∈ (drainEnginePropagation p.host (p.configOf w) (s.workers w).worker s.shared shapes).1.warmedLocal ↔
      x ∈ (s.workers w).worker.warmedLocal ∨ x ∈ shapes := by
  rw [listens, Bool.and_eq_true] at hl
  obtain ⟨⟨m, runs⟩, hm⟩ := Option.isSome_iff_exists.mp hl.2
  unfold drainEnginePropagation
  rw [hm]
  dsimp only
  rw [if_pos (of_decide_eq_true hl.1)]
  exact mem_drain_fold shapes _

theorem drain_pass {w : Nat} (h : listens p s w = false) (shapes : List Shape) :
    drainEnginePropagation p.host (p.configOf w) (s.workers w).worker s.shared shapes =
      ((s.workers w).worker, s.shared) := by
  unfold drainEnginePropagation
  cases hm : (s.workers w).worker.models with
  | none => rfl
  | some mr =>
    rw [listens, hm, Option.isSome_some, Bool.and_true] at h
    dsimp only
    rw [if_neg (of_decide_eq_false h)]

/-- what was marked or buffered is marked after the drain -/
theorem wiredInv_drain {v : Wired F} {w : Nat} {shapes : List Shape} (inv : WiredInv p v)
    (h : step p v.pool (.drain w shapes) = some t)
    (hm : ∀ x, v.Marked w x →
      x ∈ (drainEnginePropagation p.host (p.configOf w) (v.pool.workers w).worker v.pool.shared
        shapes).1.warmedLocal) : WiredInv p (v.endDrain w t) := by
  obtain ⟨hp, hw⟩ := drain_eq h
  have hself : t.workers w = ⟨.waiting, (drainEnginePropagation p.host (p.configOf w)
      (v.pool.workers w).worker v.pool.shared shapes).1, (v.pool.workers w).signal⟩ := by
    rw [hw, Function.update_self]
  have hother {k : Nat} (hk : k ≠ w) : t.workers k = v.pool.workers k := by
    rw [hw, Function.update_of_ne hk]
  have hbegun {k : Nat} (hb : (v.pool.workers k).phase.begun = true) : (t.workers k).phase.begun = true := by
    by_cases hk : k = w
    · rw [hk, hself]
      rfl
    · rw [hother hk]
      exact hb
  refine ⟨initInv_move inv.init (step_cases h), fun k r hr => hbegun (inv.begun k r hr), inv.sound,
    fun k r hr j hj o x hx => ?_, fun k hk => ?_, fun j k x hx => ?_⟩
  · have hold := inv.marked k r hr j hj o x hx
    by_cases hk : k = w
    · subst hk
      refine .inl ?_
      show x ∈ (t.workers k).worker.warmedLocal
      rw [hself]
      exact hm x hold
    · rcases hold with hold | hold
      · refine .inl ?_
        show x ∈ (t.workers k).worker.warmedLocal
        rw [hother hk]
        exact hold
      · refine .inr ?_
        show x ∈ Function.update v.buffer w [] k
        rw [Function.update_of_ne hk]
        exact hold
  · have hk : Function.update v.buffer w [] k ≠ [] := hk
    by_cases hkw : k = w
    · rw [hkw, Function.update_self] at hk
      exact absurd rfl hk
    · rw [Function.update_of_ne hkw] at hk
      obtain ⟨htop, hl⟩ := inv.buffered k hk
      refine ⟨(congrArg Thread.phase (hother hkw)).trans htop, ?_⟩
      show listens p t k = true
      rw [listens, hother hkw]
      exact hl
  · obtain ⟨hb, hold⟩ := inv.own j k x hx
    refine ⟨hbegun hb, ?_⟩
    show x ∈ (t.workers k).worker.warmedLocal
    by_cases hk : k = w
    · subst hk
      rw [hself]
      exact hm x (.inl hold)
    · rw [hother hk]
      exact hold

/-- a receiver, and with it a buffer, moved -/
theorem wiredInv_receive {v : Wired F} {w : Nat} {r : Receiver} {buf : List Shape} (inv : WiredInv p v)
    (hp : (v.pool.workers w).phase = .top) (hsound : r.Sound propagationCapacity v.bus)
    (hm : ∀ j ∈ r.heard, ∀ (o : Option Nat) (x : Shape), v.bus[j]? = some (o, x) →
      x ∈ (v.pool.workers w).worker.warmedLocal ∨ x ∈ buf)
    (hl : buf ≠ [] → listens p v.pool w = true) :
    WiredInv p { v.setReceiver w r with buffer := Function.update v.buffer w buf } := by
  have hrx {k : Nat} {q : Receiver} (hk : k ≠ w) (hq : Function.update v.rx w (some r) k = some q) :
      v.rx k = some q := by
    rw [Function.update_of_ne hk] at hq
    exact hq
  refine ⟨inv.init, fun k q hq => ?_, fun k q hq => ?_, fun k q hq j hj o x hx => ?_, fun k hk => ?_, inv.own⟩
  · by_cases hk : k = w
    · show (v.pool.workers k).phase.begun = true
      rw [hk, hp]
      rfl
    · exact inv.begun k q (hrx hk hq)
  · have hq : Function.update v.rx w (some r) k = some q := hq
    by_cases hk : k = w
    · rw [hk, Function.update_self] at hq
      cases hq
      exact hsound
    · exact inv.sound k q (hrx hk hq)
  · have hq : Function.update v.rx w (some r) k = some q := hq
    by_cases hk : k = w
    · subst hk
      rw [Function.update_self] at hq
      cases hq
      rcases hm j hj o x hx with h | h
      · exact .inl h
      · refine .inr ?_
        show x ∈ Function.update v.buffer k buf k
        rw [Function.update_self]
        exact h
    · rcases inv.marked k q (hrx hk hq) j hj o x hx with h | h
      · exact .inl h
      · refine .inr ?_
        show x ∈ Function.update v.buffer w buf k
        rw [Function.update_of_ne hk]
        exact h
  · have hk : Function.update v.buffer w buf k ≠ [] := hk
    by_cases hkw : k = w
    · subst hkw
      rw [Function.update_self] at hk
      exact ⟨hp, hl hk⟩
    · rw [Function.update_of_ne hkw] at hk
      exact inv.buffered k hk

theorem wiredInv_step {v v' : Wired F} {act : WiredAct F} (inv : WiredInv p v)
    (h : wiredStep p v act = some v') : WiredInv p v' := by
  cases wiredStep_cases h with
  | pool hs hd => exact wiredInv_pool inv hs hd
  | @subscribed w hp =>
    have hbuf : v.setReceiver w (.subscribe v.bus) = { v.setReceiver w (.subscribe v.bus) with
        buffer := Function.update v.buffer w (v.buffer w) } := by
      rw [Function.update_eq_self]
      rfl
    rw [hbuf]
    exact wiredInv_receive inv hp Receiver.sound_subscribe (fun j hj => absurd hj List.not_mem_nil)
      fun hne => (inv.buffered w hne).2
  | @heard w r x r' hp hr hl ht =>
    have hsound := (inv.sound w r hr).tryRecv
    have hcases := Receiver.tryRecv_cases propagationCapacity v.bus r
    rw [ht] at hsound hcases
    refine wiredInv_receive inv hp hsound (fun j hj o y hy => ?_) fun _ => hl
    cases hcases with
    | received hx =>
      rcases List.mem_append.mp hj with hj | hj
      · rcases inv.marked w r hr j hj o y hy with h | h
        · exact .inl h
        · exact .inr (List.mem_append_left _ h)
      · rw [List.mem_singleton.mp hj, hx] at hy
        cases hy
        exact .inr (List.mem_append_right _ (List.mem_singleton_self _))
  | @lagged w r n r' hp hr ht =>
    have hsound := (inv.sound w r hr).tryRecv
    have hcases := Receiver.tryRecv_cases propagationCapacity v.bus r
    rw [ht] at hsound hcases
    have hbuf : v.setReceiver w r' = { v.setReceiver w r' with
        buffer := Function.update v.buffer w (v.buffer w) } := by
      rw [Function.update_eq_self]
      rfl
    rw [hbuf]
    refine wiredInv_receive inv hp hsound (fun j hj o y hy => ?_) fun hne => (inv.buffered w hne).2
    cases hcases with
    | lagged hlt => exact inv.marked w r hr j hj o y hy
  | drained hr hl ht hs => exact wiredInv_drain inv hs fun x hx => (mem_drain _ hl).mpr hx
  | @passed w t hl hs =>
    refine wiredInv_drain inv hs fun x hx => ?_
    rw [drain_pass hl]
    refine hx.resolve_right fun hb => ?_
    -- nothing is buffered for a worker that does not listen
    have hne : v.buffer w ≠ [] := by
      intro he
      rw [he] at hb
      cases hb
    rw [(inv.buffered w hne).2] at hl
    cases hl
  | announced =>
    refine ⟨inv.init, inv.begun, fun w r hr => (inv.sound w r hr).send _, fun w r hr j hj o x hx => ?_,
      inv.buffered, fun j w x hx => ?_⟩
    · have hlt : j < v.bus.length := ((inv.sound w r hr).range j hj).2.trans_le (inv.sound w r hr).bounded
      have hx : (v.bus ++ [_])[j]? = some (o, x) := hx
      rw [List.getElem?_append_left hlt] at hx
      exact inv.marked w r hr j hj o x hx
    · rcases getElem?_append_cases hx with hx | hx
      · exact inv.own j w x hx
      · rw [List.mem_singleton] at hx
        cases hx

theorem reach_wiredInv {C : Wired F → WiredAct F → Prop} {ceiling : Nat} {v : Wired F}
    (h : Reach (wiredStep p) C (wired p ceiling) v) : WiredInv p v :=
  h.invariant (wiredInv_start ceiling) fun _ _ _ inv _ hs => wiredInv_step inv hs

/-- a run of the wired pool is one of the pool, whose drains take what the channel gives them -/
theorem wired_project {C : Wired F → WiredAct F → Prop} {v v' : Wired F} (h : Reach (wiredStep p) C v v') :
    Reachable (step p) v.pool v'.pool := by
  refine h.project fun v act v' _ hs => ?_
  cases wiredStep_cases hs with
  | pool hstep _ => exact .single trivial hstep
  | drained _ _ _ hstep => exact .single trivial hstep
  | passed _ hstep => exact .single trivial hstep
  | subscribed | heard | lagged | announced => exact .refl

/-- **Engine propagation.**  In every run of the pool with its channel, sends between any two `try_recv`
included: what a worker receives are shapes sent since it subscribed, each once and in order, and what it
misses is what the channel reports as lag; a shape a worker sent itself is marked there already; and when a
drain of a loaded worker is over, every shape sent since it subscribed is marked, but for those it did not
receive, behind which more than 32 were sent. -/
theorem propagation_reaches (ceiling : Nat) {s : Wired F}
    (h : Reachable (wiredStep p) (wired p ceiling) s) :
    Reachable (step p) (start p ceiling) s.pool ∧
    (∀ w r, s.rx w = some r → r.heard.Pairwise (· < ·) ∧ (∀ j ∈ r.heard, r.start ≤ j ∧ j < r.next) ∧
      r.heard.length + r.missed = r.next - r.start) ∧
    (∀ (j w : Nat) (x : Shape), s.bus[j]? = some (some w, x) →
      x ∈ (s.pool.workers w).worker.warmedLocal) ∧
    ∀ w s', listens p s.pool w = true → wiredStep p s (.drained w) = some s' →
      ∃ r, s'.rx w = some r ∧ r.next = s'.bus.length ∧
        ∀ (j : Nat) (o : Option Nat) (x : Shape), r.start ≤ j → s'.bus[j]? = some (o, x) →
          x ∈ (s'.pool.workers w).worker.warmedLocal ∨
            j ∉ r.heard ∧ j + propagationCapacity < s'.bus.length := by
  have inv := reach_wiredInv h
  refine ⟨wired_project h, fun w r hr => ?_, fun j w x hx => (inv.own j w x hx).2, fun w s' hl hs => ?_⟩
  · have hsound := inv.sound w r hr
    exact ⟨hsound.ordered, hsound.range, hsound.counted⟩
  · have inv' := wiredInv_step inv hs
    cases wiredStep_cases hs with
    | passed hno _ =>
      rw [hl] at hno
      cases hno
    | @drained w r r' t hr _ ht hstep =>
      have hsound := inv.sound w r hr
      have hnext := (hsound.empty ht).2
      refine ⟨r, hr, hnext, fun j o x hj hx => ?_⟩
      have hlt : j < r.next := by
        rw [hnext]
        exact (List.getElem?_eq_some_iff.mp hx).1
      by_cases hin : j ∈ r.heard
      · refine .inl ((inv'.marked w r hr j hin o x hx).resolve_right fun hb => ?_)
        have hb : x ∈ Function.update s.buffer w [] w := hb
        rw [Function.update_self] at hb
        cases hb
      · exact .inr ⟨hin, hsound.overwritten j hj hlt hin⟩

end

/-- two workers on TensorRT that tell each other of compiled shapes -/
def twoTellers : Setup where
  host := ⟨fun _ => 0, fun _ => 0, fun _ => none⟩
  config := ⟨.tensorRt, .fp16, 5, false, true, false, 0, [], false⟩
  idleTimeout := true
  n := 2
  size := poolSize_two

/-- two shapes are announced, and worker `1` has received both -/
def tells : List (WiredAct Int) :=
  [.pool .init, .pool (.startup 0 100 (.ok echoModels)), .pool .init, .pool .init,
    .pool .init, .pool (.startup 1 100 (.ok echoModels)), .pool .init, .pool .init,
    .subscribe 0, .subscribe 1, .announce (1, 3), .announce (2, 4), .tryRecv 1, .tryRecv 1]

theorem propagation_reaches_twoTellers : ∃ s s' : Wired Int,
    Reachable (wiredStep twoTellers) (wired twoTellers 0) s ∧
    s.bus = [(none, (1, 3)), (none, (2, 4))] ∧ wiredStep twoTellers s (.drained 1) = some s' ∧
    ∃ r, s'.rx 1 = some r ∧ r.next = s'.bus.length ∧
      ∀ (j : Nat) (o : Option Nat) (x : Shape), r.start ≤ j → s'.bus[j]? = some (o, x) →
        x ∈ (s'.pool.workers 1).worker.warmedLocal ∨
          j ∉ r.heard ∧ j + propagationCapacity < s'.bus.length := by
  have hrun : ∃ s : Wired Int, Reachable (wiredStep twoTellers) (wired twoTellers 0) s ∧
      (s.bus = [(none, (1, 3)), (none, (2, 4))] ∧ listens twoTellers s.pool 1 = true ∧
        (wiredStep twoTellers s (.drained 1)).isSome = true) :=
    Reach.exists_of_run tells (fun _ _ _ => trivial) (by decide +kernel)
  obtain ⟨s, hr, hbus, hl, hsome⟩ := hrun
  obtain ⟨s', hs⟩ := Option.isSome_iff_exists.mp hsome
  exact ⟨s, s', hr, hbus, hs, (propagation_reaches 0 hr).2.2.2 1 s' hl hs⟩

end EmbedServer.Pool
