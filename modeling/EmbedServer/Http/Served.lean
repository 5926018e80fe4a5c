import EmbedServer.Http.Calls

/-!
# Every call ends

* `Service.work`, `work_lt`   a measure that every step but a new call lowers;
* `service_progress`          until every call has ended the server has a step of its own;
* `http_calls_end`            once no new calls come, every call ends.
-/

set_option linter.unusedSectionVars false

namespace EmbedServer.Http

/-- startup has gone through -/
structure Up (server : Startup.Server) : Prop where
  alive : server.exit = none
  main : server.main = .done
  probe : server.probe = .absent ∨ server.probe = .done

section
variable {F : Type}

/-- steps of the server itself: no client goes away, no timer is needed -/
def ServiceAct.own : ServiceAct F → Bool
  | .inner (.pool a) => a.own
  | .inner (.server .main) | .inner (.server .probe) => true
  | .acquire _ | .send _ | .respond _ _ => true
  | _ => false

/-- no new call, of a client or of another caller of the pool -/
def NoCall (_ : Service F) : ServiceAct F → Prop
  | .request _ _ | .background _ => False
  | _ => True

/-- every handler has returned -/
def Service.Over (s : Service F) : Prop := ∀ c ∈ s.calls, c.stage.isOver = true

/-- a call that waits pays for what its request costs in the pool -/
def CallStage.work : CallStage F → Nat
  | .waiting => 16
  | .permitted => 15
  | .inPool _ => 1
  | .answered _ _ | .gone => 0

variable [F32Ops F] (d : Deployment)

/-- the server can go on by itself -/
def Service.CanStep (maxBatch : Nat) (s : Service F) : Prop :=
  ∃ a t, a.own = true ∧ serviceStep d maxBatch s a = some t

def Service.work (s : Service F) : Nat := d.setup.work s.node.pool + (s.calls.map fun c => c.stage.work).sum

variable {d} {maxBatch : Nat} {s t : Service F}

/-! ## the measure -/

theorem CallStage.work_holding {st : CallStage F} (h : st.isHolding = true) : 0 < st.work := by
  cases st with
  | permitted => exact (by decide : 0 < 15)
  | inPool id => exact Nat.one_pos
  | _ => cases h

/-- a call goes on: what it pays is more than what the pool gets -/
theorem work_setCall {i : Nat} {c : Call F} {n : Node F} {st : CallStage F} (hg : s.calls[i]? = some c)
    (h : d.setup.work n.pool + st.work < d.setup.work s.node.pool + c.stage.work) :
    (Service.setCall { s with node := n } i st).work d < s.work d := by
  have hsum := sum_map_modify (fun c : Call F => c.stage.work) (fun c => { c with stage := st }) hg
  unfold Service.work
  dsimp only [Service.setCall] at hsum ⊢
  omega

/-- startup makes no step any more -/
theorem Up.no_task {server server' : Startup.Server} (up : Up server) {a : Startup.Act}
    (ha : a = .main ∨ a = .probe ∨ a = .probePanic)
    (h : Startup.step d.strategy d.cfg d.world server a = some server') : False := by
  have hlive : server.probe.live = false := by
    rcases up.probe with hp | hp <;> rw [hp] <;> rfl
  unfold Startup.step at h
  split at h
  · cases h
  · rcases ha with rfl | rfl | rfl
    · dsimp only [Startup.mainStep] at h
      rw [up.main] at h
      cases h
    · dsimp only [Startup.probeStep] at h
      rcases up.probe with hp | hp <;> rw [hp] at h <;> cases h
    · dsimp only at h
      rw [hlive] at h
      cases h

theorem up_step {a : ServiceAct F} (up : Up s.node.server) (h : serviceStep d maxBatch s a = some t) :
    Up t.node.server := by
  cases serviceStep_cases h with
  | pool => exact up
  | task ha hs => exact (up.no_task ha hs).elim
  | refused => exact up
  | arrived _ hs => rw [Startup.arrive_eq hs]; exact ⟨up.alive, up.main, up.probe⟩
  | acquired _ _ hs => rw [(Startup.acquire_eq hs).2]; exact ⟨up.alive, up.main, up.probe⟩
  | sent => exact up
  | responded _ _ _ hs => rw [(Startup.finish_eq hs).2]; exact ⟨up.alive, up.main, up.probe⟩
  | left _ _ hs => rw [(Startup.leave_eq hs).2]; exact ⟨up.alive, up.main, up.probe⟩
  | dropped _ _ hs => rw [(Startup.finish_eq hs).2]; exact ⟨up.alive, up.main, up.probe⟩
  | hungUp _ _ _ hs => rw [(Startup.finish_eq hs).2]; exact ⟨up.alive, up.main, up.probe⟩

theorem work_lt {a : ServiceAct F} (inv : CallsInv d maxBatch s) (up : Up s.node.server)
    (ha : NoCall s a) (h : serviceStep d maxBatch s a = some t) : t.work d < s.work d := by
  cases serviceStep_cases h with
  | pool hp hb hr hc =>
    refine Nat.add_lt_add_right (Pool.work_move inv.pool (Pool.step_cases hp) ?_) _
    rintro req rfl
    rw [hr req rfl] at ha
    exact ha
  | task hb hs => exact (up.no_task hb hs).elim
  | refused => exact ha.elim
  | arrived => exact ha.elim
  | acquired hg hs =>
    refine work_setCall hg ?_
    rw [hs]
    exact Nat.add_lt_add_left (by decide : 15 < 16) _
  | sent hg hs hp =>
    -- the new ticket costs less than the weight of the call falls
    refine work_setCall hg ?_
    have hsubmit := Pool.work_submit hp
    rw [hs]
    dsimp only [CallStage.work]
    omega
  | responded hg hs =>
    refine work_setCall hg ?_
    rw [hs]
    exact Nat.add_lt_add_left Nat.one_pos _
  | left hg hs =>
    refine work_setCall hg ?_
    rw [hs]
    exact Nat.add_lt_add_left (by decide : 0 < 16) _
  | dropped hg hs => exact work_setCall hg (Nat.add_lt_add_left (CallStage.work_holding hs) _)
  | hungUp hg hs hp =>
    refine work_setCall hg ?_
    have hpool := Pool.work_disconnect hp
    rw [hs]
    dsimp only [CallStage.work]
    omega

/-! ## no dead end -/

/-- with every task of startup through there is a permit for somebody -/
theorem Up.permit (up : Up s.node.server) (inv : CallsInv d maxBatch s) :
    1 ≤ s.node.server.permits + s.node.server.holding := by
  have hf := Startup.facts_of_inv up.alive inv.startup
  have hw := d.cfg.workers_pos
  rcases up.probe with hp | hp
  · have hn := Startup.permits_inline hf up.main hp
    unfold Startup.StartupConfig.initialPermits at hn
    omega
  · have hn := Startup.permits_released hf hp
    omega

theorem canStep_of {a : ServiceAct F} (ha : a.own = true) (h : serviceStep d maxBatch s a ≠ none) :
    s.CanStep d maxBatch := by
  obtain ⟨t, ht⟩ := Option.ne_none_iff_exists'.mp h
  exact ⟨a, t, ha, ht⟩

theorem nodeStep_of_pool {n : Node F} {b : Pool.Act F} {pool : Pool.System F} (he : n.server.exit = none)
    (h : Pool.step d.setup n.pool b = some pool) :
    nodeStep d n (.pool b) = some { n with pool := pool } := by
  rw [nodeStep, if_neg (by rw [he]; decide), h]
  rfl

/-- a request step of startup is not kept waiting -/
theorem nodeStep_of_server {n : Node F} {b : Startup.Act} {server : Startup.Server} (hb : b ≠ .main)
    (h : Startup.step d.strategy d.cfg d.world n.server b = some server) :
    nodeStep d n (.server b) = some { n with server := server } := by
  have hawaits : Awaits d n b := by
    cases b with
    | main => exact absurd rfl hb
    | _ => trivial
  rw [nodeStep, if_pos hawaits, h]
  rfl

/-- the pool goes on, and the handlers do not notice -/
theorem canStep_of_pool {b : Pool.Act F} {pool : Pool.System F} (he : s.node.server.exit = none)
    (hb : b.own = true) (h : Pool.step d.setup s.node.pool b = some pool) : s.CanStep d maxBatch := by
  have hin : isInner (.pool b) = true := by
    cases b with
    | submit | disconnect | dropPool => cases hb
    | _ => rfl
  refine canStep_of (a := .inner (.pool b)) hb ?_
  rw [serviceStep, if_pos hin, nodeStep_of_pool he h]
  exact Option.some_ne_none _

/-- a call in the pool: its ticket has ended, or the pool is not at rest -/
theorem canStep_of_inPool (inv : CallsInv d maxBatch s) (up : Up s.node.server) {i id : Nat} {c : Call F}
    (hg : s.calls[i]? = some c) (hs : c.stage = .inPool id) :
    s.CanStep d maxBatch := by
  have hfits := inv.fits i c hg
  unfold Call.Fits at hfits
  rw [hs] at hfits
  obtain ⟨-, tk, htk, -, -⟩ := hfits
  by_cases hend : tk.stage = .ended
  · have hended : s.ended id = true := by
      unfold Service.ended
      rw [htk]
      exact decide_eq_true hend
    have hhold : 0 < s.node.server.holding := by
      rw [inv.holding, List.countP_pos_iff]
      exact ⟨c, List.mem_of_getElem? hg, by rw [hs]; rfl⟩
    have hfinish : Startup.step d.strategy d.cfg d.world s.node.server .finish =
        some { s.node.server with
          permits := s.node.server.permits + 1, holding := s.node.server.holding - 1 } := by
      rw [Startup.step, if_neg (by rw [up.alive]; decide)]
      exact if_pos hhold
    obtain ⟨route, texts, stage⟩ := c
    cases hs
    refine canStep_of (a := .respond i false) rfl ?_
    rw [serviceStep, hg]
    dsimp only
    rw [if_pos hended, nodeStep_of_server (by decide) hfinish]
    exact Option.some_ne_none _
  · have hrest : ¬Pool.AtRest d.setup s.node.pool := fun h => hend (h.calls id tk htk)
    obtain ⟨b, pool, hb, hp⟩ := Pool.progress inv.pool hrest
    exact canStep_of_pool up.alive hb hp

theorem canStep_of_permitted (inv : CallsInv d maxBatch s) (up : Up s.node.server) {i : Nat} {c : Call F}
    (hg : s.calls[i]? = some c) (hs : c.stage = .permitted) :
    s.CanStep d maxBatch := by
  obtain ⟨route, texts, stage⟩ := c
  cases hs
  have hsubmit : Pool.step d.setup s.node.pool (.submit (route.request texts)) ≠ none := by
    rw [Pool.step, Pool.submitStep, if_pos inv.handle]
    exact Option.some_ne_none _
  obtain ⟨pool, hp⟩ := Option.ne_none_iff_exists'.mp hsubmit
  refine canStep_of (a := .send i) rfl ?_
  rw [serviceStep, hg]
  dsimp only
  rw [nodeStep_of_pool up.alive hp]
  exact Option.some_ne_none _

theorem canStep_of_waiting (inv : CallsInv d maxBatch s) (up : Up s.node.server) {i : Nat} {c : Call F}
    (hg : s.calls[i]? = some c) (hs : c.stage = .waiting) (hfree : s.node.server.holding = 0) :
    s.CanStep d maxBatch := by
  have hwait : 0 < s.node.server.waiting := by
    rw [inv.waiting, List.countP_pos_iff]
    exact ⟨c, List.mem_of_getElem? hg, by rw [hs]; rfl⟩
  have hpermit := up.permit inv
  have hacquire : Startup.step d.strategy d.cfg d.world s.node.server .acquire =
      some { s.node.server with
        waiting := s.node.server.waiting - 1
        permits := s.node.server.permits - 1
        holding := s.node.server.holding + 1 } := by
    rw [Startup.step, if_neg (by rw [up.alive]; decide)]
    exact if_pos ⟨hwait, by omega⟩
  refine canStep_of (a := .acquire i) rfl ?_
  rw [serviceStep, Service.stageOf, hg, Option.map_some, hs]
  dsimp only
  rw [nodeStep_of_server (by decide) hacquire]
  exact Option.some_ne_none _

theorem service_progress (inv : CallsInv d maxBatch s) (up : Up s.node.server) (h : ¬s.Over) :
    s.CanStep d maxBatch := by
  by_cases hhold : ∃ c ∈ s.calls, c.stage.isHolding = true
  · obtain ⟨c, hc, hst⟩ := hhold
    obtain ⟨i, hg⟩ := List.getElem?_of_mem hc
    cases hs : c.stage with
    | permitted => exact canStep_of_permitted inv up hg hs
    | inPool id => exact canStep_of_inPool inv up hg hs
    | waiting | answered | gone => rw [hs] at hst; cases hst
  · -- nobody holds a permit, so one is free
    have hfree : s.node.server.holding = 0 := by
      rw [inv.holding, List.countP_eq_zero]
      exact fun c hc hst => hhold ⟨c, hc, hst⟩
    unfold Service.Over at h
    push Not at h
    obtain ⟨c, hc, hst⟩ := h
    obtain ⟨i, hg⟩ := List.getElem?_of_mem hc
    cases hs : c.stage with
    | waiting => exact canStep_of_waiting inv up hg hs hfree
    | permitted | inPool => exact absurd ⟨c, hc, by rw [hs]; rfl⟩ hhold
    | answered | gone => rw [hs] at hst; exact absurd rfl hst

/-- **No call hangs.**  In every state that can be reached once startup has gone through, panics and lost
workers included, the server has a step of its own until every call has ended, so no handler waits for a
client to go away or for a timer; and once no new calls come, every schedule ends all of them after at
most `work` steps. -/
theorem http_calls_end {ceiling : Nat} (h : Service.Reached d maxBatch ceiling s) (up : Up s.node.server) :
    (¬s.Over → s.CanStep d maxBatch) ∧
    Inevitable (serviceStep d maxBatch) NoCall Service.Over s ∧
    ∀ (as : List (ServiceAct F)) (t : Service F), (∀ a ∈ as, ∀ s, NoCall s a) →
      as.foldlM (serviceStep d maxBatch) s = some t → as.length ≤ s.work d := by
  have inv := reach_callsInv h
  have hkeep : ∀ (s : Service F) (a : ServiceAct F) (t : Service F),
      CallsInv d maxBatch s ∧ Up s.node.server → NoCall s a → serviceStep d maxBatch s a = some t →
      CallsInv d maxBatch t ∧ Up t.node.server :=
    fun s a t hi _ hs => ⟨callsInv_step hi.1 hs, up_step hi.2 hs⟩
  refine ⟨service_progress inv up, ?_, fun as t ha hrun => ?_⟩
  · refine Inevitable.of_measure (Service.work d) hkeep ?_ ?_ ⟨inv, up⟩
    · rintro s ⟨inv, up⟩ hover
      obtain ⟨a, t, ha, hs⟩ := service_progress inv up hover
      refine ⟨a, t, ?_, hs⟩
      cases a with
      | request | background => cases ha
      | _ => trivial
    · rintro s a t ⟨inv, up⟩ - ha hs
      exact work_lt inv up ha hs
  · have hlen := length_le_of_measure (Service.work d) hkeep
      (fun s a t hi ha hs => work_lt hi.1 hi.2 ha hs) ⟨inv, up⟩ (fun s a hm => ha a hm s) hrun
    omega

end

/-- two calls, of which one has the only permit -/
theorem http_calls_end_two : ∃ s : Service Int, Service.Reached soloDeployment 4 0 s ∧
    s.calls.map (fun c => c.stage.isOver) = [false, false] ∧
    Inevitable (serviceStep soloDeployment 4) NoCall Service.Over s := by
  obtain ⟨s, hr, hs, he, hm, hp⟩ : ∃ s, Service.Reached soloDeployment 4 0 s ∧
      s.calls.map (fun c => c.stage.isOver) = [false, false] ∧ s.node.server.exit = none ∧
      s.node.server.main = .done ∧ s.node.server.probe = .absent :=
    reached_solo (opened ++ [.request .dense ["a"], .request .sparse ["b"], .acquire 1])
      (by decide +kernel)
  exact ⟨s, hr, hs, (http_calls_end hr ⟨he, hm, .inl hp⟩).2.1⟩

end EmbedServer.Http
