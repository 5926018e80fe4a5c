import EmbedServer.Startup.Permits

/-!
# What `ready` promises (`bootstrap/readiness.rs`, `handler/common.rs`, `handler/health.rs`)

The handlers are added to startup: a request that holds a permit sends its texts to the pool once, and
`health_deep` sends its canary without a permit.  Both have seen `ready` before.  Beside the state stands
a history of the stores, of the readiness calls that succeeded and of what the handlers sent.

* `Chosen`            the cost model a path of startup chooses, with the status it reports;
* `siteStep_inv`      one step of a task or a handler keeps `SiteInv`;
* `ready_sound`       what holds in every state with `ready`, and that the probe runs alone.
-/

namespace EmbedServer.Startup

/-- who sends to the pool besides startup -/
inductive Sender where
  | client
  | canary
deriving DecidableEq, Repr

inductive Event where
  /-- `cost_model.store` -/
  | stored (cm : CostModel)
  /-- `probe_status.store` -/
  | reported (st : ProbeStatus)
  /-- the readiness calls -/
  | denseOk
  | sparseOk
  /-- a request of a handler, with the probe status at that moment -/
  | sent (who : Sender) (st : ProbeStatus)
deriving DecidableEq, Repr

structure Site where
  server : Server
  /-- requests that hold a permit and have not sent their texts -/
  unsent : Nat
  /-- calls of `health_deep` that saw `ready` and have not sent the canary -/
  canaries : Nat
  /-- latest first -/
  log : List Event
deriving DecidableEq, Repr

inductive SiteAct where
  | server (act : Act)
  /-- a request with a permit sends its texts, or is dropped before -/
  | send
  | cancel
  /-- `health_deep` is called, sends the canary, or is dropped before -/
  | deep
  | canary
  | deepCancel
deriving DecidableEq, Repr

def Site.start (s : Server) : Site := ⟨s, 0, 0, []⟩

section
variable (strategy : PanicStrategy) (cfg : StartupConfig) (world : World)

/-- what a step of the readiness task adds to the history -/
def mainEvents (s s' : Server) : List Event :=
  match s.main, s'.main with
  | .resolve, .status _ => [.stored s'.costModel]
  | .resolve, .acquire => [.reported .running]
  | .status st, .dense => [.reported st]
  | .dense, .sparse => [.denseOk]
  | .sparse, .opening => [.sparseOk]
  | _, _ => []

/-- what a step of the probe task adds -/
def probeEvents (s s' : Server) : List Event :=
  match s.probe, s'.probe with
  | .install _ _, .status _ => [.stored s'.costModel]
  | .status st, .dense => [.reported st]
  | .dense, .sparse => [.denseOk]
  | .sparse, .opening => [.sparseOk]
  | _, _ => []

def siteStep (t : Site) (act : SiteAct) : Option Site :=
  match act with
  | .server act =>
    match step strategy cfg world t.server act with
    | none => none
    | some s' =>
      match act with
      | .main => some { t with server := s', log := mainEvents t.server s' ++ t.log }
      | .probe => some { t with server := s', log := probeEvents t.server s' ++ t.log }
      | .acquire => some { t with server := s', unsent := t.unsent + 1 }
      -- only a request that was sent is finished
      | .finish => if t.unsent < t.server.holding then some { t with server := s' } else none
      | .probePanic | .arrive | .leave => some { t with server := s' }
  | .send =>
    if t.server.exit.isNone ∧ 0 < t.unsent then
      some { t with unsent := t.unsent - 1, log := .sent .client t.server.probeStatus :: t.log }
    else none
  | .cancel =>
    if 0 < t.unsent then
      (step strategy cfg world t.server .finish).map fun s' => { t with server := s', unsent := t.unsent - 1 }
    else none
  | .deep =>
    if t.server.exit.isNone ∧ t.server.ready then some { t with canaries := t.canaries + 1 } else none
  | .canary =>
    if t.server.exit.isNone ∧ 0 < t.canaries then
      some { t with canaries := t.canaries - 1, log := .sent .canary t.server.probeStatus :: t.log }
    else none
  | .deepCancel =>
    if t.server.exit.isNone ∧ 0 < t.canaries then some { t with canaries := t.canaries - 1 } else none

/-! ## the invariant -/

/-- the cost model and the probe status of the path taken -/
inductive Chosen : CostModel → ProbeStatus → Prop
  | override (cm : CostModel) (h : cfg.costModelOverride = some cm) : Chosen cm .disabled
  | cached (a b : Rat) (ho : cfg.costModelOverride = none) (hd : cfg.disableProbeCache = false)
      (hc : world.cached = some (a, b)) : Chosen (probedModel cfg world a b) .cacheHit
  | probed (a b : Rat) (shapes : List Shape) (hp : mustProbe cfg world)
      (hr : runProbe world.probe cfg.maxSeqLength (cfg.perWorkerWorkspace world) world.availableBytes =
        .ok ((a, b), shapes)) : Chosen (probedModel cfg world a b) (probedStatus a b)

/-- the history of an opening: the two stores, then the two calls -/
def openLog (cm : CostModel) (st : ProbeStatus) : List Event :=
  [.sparseOk, .denseOk, .reported st, .stored cm]

/-- a task has `k` events of `openLog` still to come -/
def Due (t : Site) (st : ProbeStatus) (k : Nat) : Prop :=
  Chosen cfg world t.server.costModel st ∧ (openLog t.server.costModel st).drop k <+: t.log

/-- what the readiness task has done -/
def mainTold (t : Site) : Prop :=
  match t.server.main with
  | .status st => Due cfg world t st 3
  | .dense => Due cfg world t t.server.probeStatus 2
  | .sparse => Due cfg world t t.server.probeStatus 1
  | .opening => Due cfg world t t.server.probeStatus 0
  | .acquire | .spawn => mustProbe cfg world ∧ t.server.probeStatus = .running
  | _ => True

/-- what the probe task has done -/
def probeTold (t : Site) : Prop :=
  match t.server.probe with
  | .start | .sweep => mustProbe cfg world ∧ t.server.probeStatus = .running
  | .install a b => mustProbe cfg world ∧ ∃ shapes,
      runProbe world.probe cfg.maxSeqLength (cfg.perWorkerWorkspace world) world.availableBytes =
        .ok ((a, b), shapes)
  | .status st => Due cfg world t st 3
  | .dense => Due cfg world t t.server.probeStatus 2
  | .sparse => Due cfg world t t.server.probeStatus 1
  | .opening => Due cfg world t t.server.probeStatus 0
  | _ => True

/-- startup went through -/
structure WentThrough (t : Site) : Prop where
  path : startupPath cfg world ≠ .exits
  checks : world.checksPass = true
  tuned : t.server.tuning = some (tuningInfo cfg world)
  chosen : Chosen cfg world t.server.costModel t.server.probeStatus
  log : openLog t.server.costModel t.server.probeStatus <:+: t.log

structure SiteInv (t : Site) : Prop where
  inv : Inv strategy cfg world t.server
  main : mainTold cfg world t
  probe : probeTold cfg world t
  tuned : t.server.main = .init ∨ t.server.main = .budget ∨ t.server.tuning = some (tuningInfo cfg world)
  unsent_le : t.unsent ≤ t.server.holding
  /-- no handler has sent anything before `ready` -/
  quiet : t.server.ready = false → t.unsent = 0 ∧ t.canaries = 0 ∧ ∀ who st, .sent who st ∉ t.log
  opened : t.server.ready = true → WentThrough cfg world t
  late : ∀ who st, .sent who st ∈ t.log → st ≠ .running

variable {strategy cfg world}

theorem Chosen.terminal {cm : CostModel} {st : ProbeStatus} (h : Chosen cfg world cm st) : st ≠ .running := by
  cases h with
  | override => decide
  | cached => decide
  | probed a b => exact probedStatus_terminal a b

/-- a completed probe did not fall back to the default coefficients -/
theorem Chosen.complete {cm : CostModel} (h : Chosen cfg world cm .complete) :
    ¬ (cm.a = CostModel.conservativeA ∧ cm.b = CostModel.conservativeB) := by
  rintro ⟨ha, hb⟩
  generalize hst : ProbeStatus.complete = st at h
  cases h with
  | override => cases hst
  | cached => cases hst
  | probed a b =>
    have hdef : probedStatus a b = .failed := by
      have ha' : a = CostModel.conservativeA := ha
      have hb' : b = CostModel.conservativeB := hb
      rw [ha', hb']
      decide +kernel
    rw [hdef] at hst
    cases hst

/-- one more event of `openLog` -/
theorem Due.next {t t' : Site} {st : ProbeStatus} {k : Nat} {e : Event} (h : Due cfg world t st (k + 1))
    (hcm : t'.server.costModel = t.server.costModel) (hlog : t'.log = e :: t.log)
    (he : (openLog t.server.costModel st).drop k = e :: (openLog t.server.costModel st).drop (k + 1)) :
    Due cfg world t' st k := by
  obtain ⟨hc, hp⟩ := h
  refine ⟨by rw [hcm]; exact hc, ?_⟩
  rw [hcm, he, hlog]
  exact List.prefix_cons_inj e |>.mpr hp

/-! ## the tasks -/

theorem sent_mainEvents {s s' : Server} (who : Sender) (st : ProbeStatus) :
    .sent who st ∉ mainEvents s s' := by
  unfold mainEvents
  split <;> simp

theorem sent_probeEvents {s s' : Server} (who : Sender) (st : ProbeStatus) :
    .sent who st ∉ probeEvents s s' := by
  unfold probeEvents
  split <;> simp

/-- a step of one of the tasks: no request moves -/
theorem SiteInv.task {t : Site} {s' : Server} {l : List Event} (h : SiteInv strategy cfg world t)
    (hinv : Inv strategy cfg world s') (hnew : ∀ who st, .sent who st ∉ l)
    (hh : s'.holding = t.server.holding) (hq : s'.ready = false → t.server.ready = false)
    (hmain : mainTold cfg world ⟨s', t.unsent, t.canaries, l ++ t.log⟩)
    (hprobe : probeTold cfg world ⟨s', t.unsent, t.canaries, l ++ t.log⟩)
    (htuned : s'.main = .init ∨ s'.main = .budget ∨ s'.tuning = some (tuningInfo cfg world))
    (hopen : s'.ready = true → WentThrough cfg world ⟨s', t.unsent, t.canaries, l ++ t.log⟩) :
    SiteInv strategy cfg world ⟨s', t.unsent, t.canaries, l ++ t.log⟩ := by
  refine ⟨hinv, hmain, hprobe, htuned, by rw [hh]; exact h.unsent_le, fun hf => ?_, hopen, ?_⟩
  · obtain ⟨h1, h2, h3⟩ := h.quiet (hq hf)
    refine ⟨h1, h2, fun who st hmem => ?_⟩
    rcases List.mem_append.mp hmem with hmem | hmem
    · exact hnew who st hmem
    · exact h3 who st hmem
  · intro who st hmem
    rcases List.mem_append.mp hmem with hmem | hmem
    · exact absurd hmem (hnew who st)
    · exact h.late who st hmem

/-- a step of the readiness task before it opens the server -/
theorem SiteInv.mainTask {t : Site} {s' : Server} {l : List Event} (h : SiteInv strategy cfg world t)
    (hf : Facts strategy cfg world t.server) (hd : t.server.main ≠ .done)
    (hinv : Inv strategy cfg world s') (hnew : ∀ who st, .sent who st ∉ l)
    (hh : s'.holding = t.server.holding) (hr : s'.ready = t.server.ready) (hp : s'.probe = t.server.probe)
    (hmain : mainTold cfg world ⟨s', t.unsent, t.canaries, l ++ t.log⟩)
    (htuned : s'.main = .init ∨ s'.main = .budget ∨ s'.tuning = some (tuningInfo cfg world)) :
    SiteInv strategy cfg world ⟨s', t.unsent, t.canaries, l ++ t.log⟩ := by
  obtain ⟨ha, hready⟩ := hf.order hd
  refine h.task hinv hnew hh (fun _ => hready) hmain ?_ htuned (fun ht => ?_)
  · unfold probeTold
    dsimp only
    rw [hp, ha]
    trivial
  · rw [hr, hready] at ht
    cases ht

theorem SiteInv.tuned_at {t : Site} {pc : MainPc} (h : SiteInv strategy cfg world t)
    (hm : t.server.main = pc) (h1 : pc ≠ .init) (h2 : pc ≠ .budget) :
    t.server.tuning = some (tuningInfo cfg world) := by
  rcases h.tuned with h | h | h
  · exact absurd (hm.symm.trans h) h1
  · exact absurd (hm.symm.trans h) h2
  · exact h

theorem mainStep_site {t : Site} {s' : Server} (h : SiteInv strategy cfg world t)
    (he : t.server.exit = none) (hs : mainStep strategy cfg world t.server = some s') :
    SiteInv strategy cfg world { t with server := s', log := mainEvents t.server s' ++ t.log } := by
  have hf := facts_of_inv he h.inv
  have hinv := mainStep_inv he hf hs
  have hnew := @sent_mainEvents t.server s'
  have hmain := h.main
  unfold mainTold at hmain
  cases mainStep_cases hs with
  | inited hm =>
    exact h.mainTask hf (by rw [hm]; decide) hinv hnew rfl rfl rfl trivial (.inr (.inl rfl))
  | initFailed hm | initAborted hm =>
    refine h.mainTask hf (by rw [hm]; decide) hinv hnew rfl rfl rfl ?_ (.inl hm)
    simp only [mainTold, fail, hm]
  | tooSmall hm =>
    refine h.mainTask hf (by rw [hm]; decide) hinv hnew rfl rfl rfl ?_ (.inr (.inl hm))
    simp only [mainTold, fail, hm]
  | sized hm =>
    exact h.mainTask hf (by rw [hm]; decide) hinv hnew rfl rfl rfl trivial (.inr (.inr rfl))
  | overridden cm hm ho =>
    refine h.mainTask hf (by rw [hm]; decide) hinv hnew rfl rfl rfl ⟨.override cm ho, ?_⟩
      (.inr (.inr (h.tuned_at hm (by decide) (by decide))))
    simp [mainEvents, hm, openLog]
  | hit a b hm ho hd hc =>
    refine h.mainTask hf (by rw [hm]; decide) hinv hnew rfl rfl rfl ⟨.cached a b ho hd hc, ?_⟩
      (.inr (.inr (h.tuned_at hm (by decide) (by decide))))
    simp [mainEvents, hm, openLog]
  | miss hm hp =>
    exact h.mainTask hf (by rw [hm]; decide) hinv hnew rfl rfl rfl ⟨hp, rfl⟩
      (.inr (.inr (h.tuned_at hm (by decide) (by decide))))
  | status st hm =>
    rw [hm] at hmain
    refine h.mainTask hf (by rw [hm]; simp) hinv hnew rfl rfl rfl ?_
      (.inr (.inr (h.tuned_at hm (by simp) (by simp))))
    exact hmain.next rfl (by simp [mainEvents, hm]) rfl
  | denseOk hm =>
    rw [hm] at hmain
    refine h.mainTask hf (by rw [hm]; simp) hinv hnew rfl rfl rfl ?_
      (.inr (.inr (h.tuned_at hm (by simp) (by simp))))
    exact hmain.next rfl (by simp [mainEvents, hm]) rfl
  | sparseOk hm =>
    rw [hm] at hmain
    refine h.mainTask hf (by rw [hm]; simp) hinv hnew rfl rfl rfl ?_
      (.inr (.inr (h.tuned_at hm (by simp) (by simp))))
    exact hmain.next rfl (by simp [mainEvents, hm]) rfl
  | denseFailed hm | sparseFailed hm =>
    rw [hm] at hmain
    refine h.mainTask hf (by rw [hm]; simp) hinv hnew rfl rfl rfl ?_
      (.inr (.inr (h.tuned_at hm (by simp) (by simp))))
    simp only [mainTold, fail, hm]
    exact ⟨hmain.1, by simpa [mainEvents, hm, fail] using hmain.2⟩
  | opened hm =>
    have hpath := hf.main
    unfold mainFacts at hpath
    rw [hm] at hmain hpath
    refine h.task hinv hnew rfl (fun hr => by cases hr) trivial ?_
      (.inr (.inr (h.tuned_at hm (by simp) (by simp)))) fun _ => ?_
    · simp only [probeTold, (hf.order (by rw [hm]; decide)).1]
    · refine ⟨by rw [hpath.1]; simp, hpath.2, h.tuned_at hm (by decide) (by decide), hmain.1, ?_⟩
      exact (List.IsPrefix.isInfix hmain.2).trans (List.infix_append_right ..)
  | drained hm =>
    rw [hm] at hmain
    exact h.mainTask hf (by rw [hm]; decide) hinv hnew rfl rfl rfl hmain
      (.inr (.inr (h.tuned_at hm (by decide) (by decide))))
  | spawned hm =>
    rw [hm] at hmain
    have hr := (hf.order (by rw [hm]; decide)).2
    exact h.task hinv hnew rfl id trivial hmain
      (.inr (.inr (h.tuned_at hm (by decide) (by decide)))) fun ht => by
        rw [hr] at ht
        cases ht

/-- a step of the probe task -/
theorem SiteInv.probeTask {t : Site} {s' : Server} {l : List Event} (h : SiteInv strategy cfg world t)
    (hf : Facts strategy cfg world t.server) (hp : t.server.probe ≠ .absent)
    (hinv : Inv strategy cfg world s') (hnew : ∀ who st, .sent who st ∉ l)
    (hh : s'.holding = t.server.holding) (hq : s'.ready = false → t.server.ready = false)
    (hm : s'.main = t.server.main) (ht : s'.tuning = t.server.tuning)
    (hprobe : probeTold cfg world ⟨s', t.unsent, t.canaries, l ++ t.log⟩)
    (hopen : s'.ready = true → WentThrough cfg world ⟨s', t.unsent, t.canaries, l ++ t.log⟩) :
    SiteInv strategy cfg world ⟨s', t.unsent, t.canaries, l ++ t.log⟩ := by
  have hdone := hf.main_done hp
  refine h.task hinv hnew hh hq ?_ hprobe ?_ hopen
  · unfold mainTold
    dsimp only
    rw [hm, hdone]
    trivial
  · rw [ht]
    exact .inr (.inr (h.tuned_at hdone (by decide) (by decide)))

theorem WentThrough.mono {t t' : Site} (h : WentThrough cfg world t)
    (ht : t'.server.tuning = t.server.tuning) (hcm : t'.server.costModel = t.server.costModel)
    (hst : t'.server.probeStatus = t.server.probeStatus) (hlog : t.log <:+: t'.log) :
    WentThrough cfg world t' := by
  refine ⟨h.path, h.checks, ht.trans h.tuned, ?_, ?_⟩
  · rw [hcm, hst]
    exact h.chosen
  · rw [hcm, hst]
    exact h.log.trans hlog

/-- a panic of the probe task changes none of the shared cells -/
theorem panicProbe_site {t : Site} (h : SiteInv strategy cfg world t)
    (hf : Facts strategy cfg world t.server) (hp : t.server.probe ≠ .absent) (permits : Nat)
    (hinv : Inv strategy cfg world (panicProbe strategy cfg { t.server with permits := permits })) :
    SiteInv strategy cfg world
      { t with server := panicProbe strategy cfg { t.server with permits := permits } } := by
  have hsame : ∃ p pc e, panicProbe strategy cfg { t.server with permits := permits } =
      { t.server with permits := p, probe := pc, exit := e } ∧ (pc = .panicked ∨ pc = t.server.probe) := by
    unfold panicProbe
    split
    · exact ⟨_, _, _, rfl, .inr rfl⟩
    · split
      · exact ⟨_, _, _, rfl, .inl rfl⟩
      · exact ⟨_, _, _, rfl, .inl rfl⟩
  obtain ⟨p, pc, e, heq, hpc⟩ := hsame
  rw [heq] at hinv ⊢
  refine h.probeTask (l := []) hf hp hinv (fun _ _ => List.not_mem_nil) rfl id rfl rfl ?_ ?_
  · rcases hpc with rfl | rfl
    · trivial
    · exact h.probe
  · intro hr
    exact (h.opened hr).mono rfl rfl rfl (List.infix_append_right ..)

theorem probeStep_site {t : Site} {s' : Server} (h : SiteInv strategy cfg world t)
    (he : t.server.exit = none) (hs : probeStep strategy cfg world t.server = some s') :
    SiteInv strategy cfg world { t with server := s', log := probeEvents t.server s' ++ t.log } := by
  have hf := facts_of_inv he h.inv
  have hinv := probeStep_inv he hf hs
  have hnew := @sent_probeEvents t.server s'
  have hprobe := h.probe
  have hfacts := hf.probe
  unfold probeTold at hprobe
  unfold probeFacts at hfacts
  -- the task opens the server only at the end
  have hclosed : ∀ {P : Prop}, t.server.ready = false → t.server.ready = true → P := by
    intro P h0 h1
    rw [h0] at h1
    cases h1
  cases probeStep_cases hs with
  | started hp =>
    rw [hp] at hprobe hfacts
    exact h.probeTask hf (by rw [hp]; decide) hinv hnew rfl id rfl rfl hprobe (hclosed hfacts.2)
  | swept a b shapes hp hr =>
    rw [hp] at hprobe hfacts
    exact h.probeTask hf (by rw [hp]; decide) hinv hnew rfl id rfl rfl ⟨hprobe.1, shapes, hr⟩
      (hclosed hfacts.2)
  | sweepPanicked hp =>
    have hnone : probeEvents t.server (panicProbe strategy cfg t.server) = [] := by
      unfold probeEvents
      rw [hp]
    rw [hnone]
    exact panicProbe_site h hf (by rw [hp]; decide) t.server.permits hinv
  | installed a b hp =>
    rw [hp] at hprobe hfacts
    obtain ⟨hmust, shapes, hr⟩ := hprobe
    refine h.probeTask hf (by rw [hp]; simp) hinv hnew rfl id rfl rfl ⟨.probed a b shapes hmust hr, ?_⟩
      (hclosed hfacts.2.1)
    simp [probeEvents, hp, openLog]
  | status st hp =>
    rw [hp] at hprobe hfacts
    exact h.probeTask hf (by rw [hp]; simp) hinv hnew rfl id rfl rfl
      (hprobe.next rfl (by simp [probeEvents, hp]) rfl) (hclosed hfacts.2.1)
  | denseOk hp =>
    rw [hp] at hprobe hfacts
    exact h.probeTask hf (by rw [hp]; decide) hinv hnew rfl id rfl rfl
      (hprobe.next rfl (by simp [probeEvents, hp]) rfl) (hclosed hfacts.2.1)
  | sparseOk hp =>
    rw [hp] at hprobe hfacts
    exact h.probeTask hf (by rw [hp]; decide) hinv hnew rfl id rfl rfl
      (hprobe.next rfl (by simp [probeEvents, hp]) rfl) (hclosed hfacts.2.1)
  | checkFailed hp =>
    have hr : t.server.ready = false := by
      rcases hp with hp | hp <;> rw [hp] at hfacts <;> exact hfacts.2.1
    exact h.probeTask hf (by rcases hp with hp | hp <;> rw [hp] <;> decide) hinv hnew rfl id rfl rfl
      trivial (hclosed hr)
  | opened hp =>
    rw [hp] at hprobe hfacts
    refine h.probeTask hf (by rw [hp]; decide) hinv hnew rfl (fun hr => by cases hr) rfl rfl trivial ?_
    intro _
    have htuned := h.tuned_at (hf.main_done (by rw [hp]; decide)) (by decide) (by decide)
    refine ⟨by rw [hfacts.1]; simp, hfacts.2.2.2.2, htuned, hprobe.1, ?_⟩
    exact (List.IsPrefix.isInfix hprobe.2).trans (List.infix_append_right ..)
  | released hp =>
    refine h.probeTask hf (by rw [hp]; decide) hinv hnew rfl id rfl rfl trivial ?_
    intro hr
    exact (h.opened hr).mono rfl rfl rfl (List.infix_append_right ..)
  | overflowed permits hp =>
    have hnone : probeEvents t.server
        (panicProbe strategy cfg { t.server with permits := permits }) = [] := by
      unfold probeEvents
      rw [hp]
    rw [hnone]
    exact panicProbe_site h hf (by rw [hp]; decide) permits hinv

/-! ## the handlers -/

/-- once the server is open the tasks have no event of `openLog` to come -/
theorem told_of_ready {t : Site} (hf : Facts strategy cfg world t.server) (hr : t.server.ready = true) :
    mainTold cfg world t ∧ probeTold cfg world t := by
  have hm : t.server.main = .done := by
    by_contra hm
    rw [(hf.order hm).2] at hr
    cases hr
  refine ⟨by unfold mainTold; rw [hm]; trivial, ?_⟩
  have hp := hf.probe
  unfold probeFacts at hp
  unfold probeTold
  split <;> try trivial
  all_goals
    rename_i hpc
    rw [hpc] at hp
    simp [hr] at hp

/-- a handler moves: it has seen `ready` -/
theorem SiteInv.handler {t : Site} {waiting permits holding unsent canaries : Nat} {l : List Event}
    (h : SiteInv strategy cfg world t) (he : t.server.exit = none) (hr : t.server.ready = true)
    (hinv : Inv strategy cfg world
      { t.server with waiting := waiting, permits := permits, holding := holding })
    (hle : unsent ≤ holding) (hnew : ∀ e ∈ l, ∃ who, e = .sent who t.server.probeStatus) :
    SiteInv strategy cfg world
      ⟨{ t.server with waiting := waiting, permits := permits, holding := holding }, unsent, canaries,
        l ++ t.log⟩ := by
  have hopen := h.opened hr
  obtain ⟨hmain, hprobe⟩ := @told_of_ready strategy cfg world
    ⟨{ t.server with waiting := waiting, permits := permits, holding := holding }, unsent, canaries,
      l ++ t.log⟩ (facts_of_inv he hinv) hr
  refine ⟨hinv, hmain, hprobe, h.tuned, hle, fun hf => ?_, fun _ => ?_, ?_⟩
  · rw [show t.server.ready = false from hf] at hr
    cases hr
  · exact hopen.mono rfl rfl rfl (List.infix_append_right ..)
  · intro who st hmem
    rcases List.mem_append.mp hmem with hmem | hmem
    · obtain ⟨who', he⟩ := hnew _ hmem
      cases he
      exact hopen.chosen.terminal
    · exact h.late who st hmem

theorem exit_of_step {s s' : Server} {act : Act} (h : step strategy cfg world s act = some s') :
    s.exit = none := by
  unfold step at h
  split at h
  · cases h
  · exact Option.not_isSome_iff_eq_none.mp ‹_›

theorem SiteInv.ready_of_unsent {t : Site} (h : SiteInv strategy cfg world t)
    (hpos : 0 < t.unsent ∨ 0 < t.canaries) : t.server.ready = true := by
  by_contra hr
  have := h.quiet (Bool.not_eq_true _ ▸ hr)
  omega

theorem serverStep_inv {t t' : Site} {act : Act} (h : SiteInv strategy cfg world t)
    (hs : siteStep strategy cfg world t (.server act) = some t') : SiteInv strategy cfg world t' := by
  unfold siteStep at hs
  dsimp only at hs
  split at hs
  · cases hs
  · rename_i s' hstep
    have he := exit_of_step hstep
    have hf := facts_of_inv he h.inv
    have hinv := step_inv h.inv hstep
    have hne : ¬ (t.server.exit.isSome = true) := by rw [he]; simp
    unfold step at hstep
    rw [if_neg hne] at hstep
    cases act with
    | main =>
      cases hs
      exact mainStep_site h he hstep
    | probe =>
      cases hs
      exact probeStep_site h he hstep
    | probePanic =>
      cases hs
      dsimp only at hstep
      split at hstep
      · rename_i hl
        cases hstep
        exact panicProbe_site h hf (by intro ha; rw [ha] at hl; cases hl) t.server.permits hinv
      · cases hstep
    | arrive =>
      cases hs
      dsimp only at hstep
      split at hstep
      · rename_i hr
        cases hstep
        exact h.handler (l := []) he hr hinv h.unsent_le (by simp)
      · cases hstep
    | leave =>
      cases hs
      dsimp only at hstep
      split at hstep
      · rename_i hpos
        cases hstep
        exact h.handler (l := []) he (hf.ready_of_request (.inl hpos)) hinv h.unsent_le (by simp)
      · cases hstep
    | acquire =>
      cases hs
      dsimp only at hstep
      split at hstep
      · rename_i hpos
        cases hstep
        exact h.handler (l := []) he (hf.ready_of_request (.inl hpos.1)) hinv
          (Nat.add_le_add_right h.unsent_le 1) (by simp)
      · cases hstep
    | finish =>
      dsimp only at hs hstep
      split at hs
      · rename_i hlt
        cases hs
        split at hstep
        · rename_i hpos
          cases hstep
          exact h.handler (l := []) he (hf.ready_of_request (.inr hpos)) hinv (by omega) (by simp)
        · cases hstep
      · cases hs

/-- one step of a task or a handler -/
theorem siteStep_inv {t t' : Site} {act : SiteAct} (h : SiteInv strategy cfg world t)
    (hs : siteStep strategy cfg world t act = some t') : SiteInv strategy cfg world t' := by
  cases act with
  | server act => exact serverStep_inv h hs
  | send =>
    unfold siteStep at hs
    dsimp only at hs
    split at hs
    · rename_i hpos
      cases hs
      exact h.handler (l := [_]) (Option.isNone_iff_eq_none.mp hpos.1)
        (h.ready_of_unsent (.inl hpos.2)) h.inv ((Nat.sub_le ..).trans h.unsent_le) (by simp)
    · cases hs
  | cancel =>
    unfold siteStep at hs
    dsimp only at hs
    split at hs
    · rename_i hpos
      obtain ⟨s', hstep, ht⟩ := Option.map_eq_some_iff.mp hs
      subst ht
      have he := exit_of_step hstep
      have hinv := step_inv h.inv hstep
      have hle := h.unsent_le
      have hne : ¬ (t.server.exit.isSome = true) := by rw [he]; simp
      unfold step at hstep
      rw [if_neg hne] at hstep
      dsimp only at hstep
      split at hstep
      · cases hstep
        exact h.handler (l := []) he (h.ready_of_unsent (.inl hpos)) hinv (by omega) (by simp)
      · cases hstep
    · cases hs
  | deep =>
    unfold siteStep at hs
    dsimp only at hs
    split at hs
    · rename_i hpos
      cases hs
      exact h.handler (l := []) (Option.isNone_iff_eq_none.mp hpos.1) hpos.2 h.inv h.unsent_le (by simp)
    · cases hs
  | canary =>
    unfold siteStep at hs
    dsimp only at hs
    split at hs
    · rename_i hpos
      cases hs
      exact h.handler (l := [_]) (Option.isNone_iff_eq_none.mp hpos.1)
        (h.ready_of_unsent (.inr hpos.2)) h.inv h.unsent_le (by simp)
    · cases hs
  | deepCancel =>
    unfold siteStep at hs
    dsimp only at hs
    split at hs
    · rename_i hpos
      cases hs
      exact h.handler (l := []) (Option.isNone_iff_eq_none.mp hpos.1)
        (h.ready_of_unsent (.inr hpos.2)) h.inv h.unsent_le (by simp)
    · cases hs

theorem start_siteInv {s0 : Server} (hboot : boot cfg = some s0) :
    SiteInv strategy cfg world (Site.start s0) := by
  have hinv : Inv strategy cfg world s0 := boot_inv hboot
  unfold boot at hboot
  split at hboot
  · cases hboot
    exact ⟨hinv, trivial, trivial, .inl rfl, le_rfl, fun _ => ⟨rfl, rfl, by simp [Site.start]⟩,
      fun hr => (by cases hr), by simp [Site.start]⟩
  · cases hboot

/-! ## whole runs -/

theorem panicProbe_ready (s : Server) : (panicProbe strategy cfg s).ready = s.ready := by
  unfold panicProbe
  split
  · rfl
  · split <;> rfl

theorem step_ready {s s' : Server} {act : Act} (hs : step strategy cfg world s act = some s')
    (hr : s.ready = true) : s'.ready = true := by
  have hne : ¬ (s.exit.isSome = true) := by rw [exit_of_step hs]; simp
  unfold step at hs
  rw [if_neg hne] at hs
  cases act with
  | main => cases mainStep_cases hs <;> first | exact hr | rfl
  | probe =>
    cases probeStep_cases hs with
    | sweepPanicked => exact (panicProbe_ready _).trans hr
    | overflowed => exact (panicProbe_ready _).trans hr
    | opened => rfl
    | _ => exact hr
  | probePanic =>
    dsimp only at hs
    split at hs
    · cases hs
      exact (panicProbe_ready _).trans hr
    · cases hs
  | arrive =>
    dsimp only at hs
    rw [if_pos hr] at hs
    cases hs
    exact hr
  | leave | acquire | finish =>
    dsimp only at hs
    split at hs
    · cases hs
      exact hr
    · cases hs

theorem siteStep_ready {t t' : Site} {act : SiteAct} (hs : siteStep strategy cfg world t act = some t')
    (hr : t.server.ready = true) : t'.server.ready = true := by
  unfold siteStep at hs
  cases act with
  | server act =>
    dsimp only at hs
    split at hs
    · cases hs
    · rename_i s' hstep
      have hready := step_ready hstep hr
      cases act with
      | finish =>
        dsimp only at hs
        split at hs
        · cases hs
          exact hready
        · cases hs
      | _ =>
        cases hs
        exact hready
  | cancel =>
    dsimp only at hs
    split at hs
    · obtain ⟨s', hstep, ht⟩ := Option.map_eq_some_iff.mp hs
      subst ht
      exact step_ready hstep hr
    · cases hs
  | send | deep | canary | deepCancel =>
    dsimp only at hs
    split at hs
    · cases hs
      exact hr
    · cases hs

theorem reach_siteInv {s0 : Server} {t : Site} (hboot : boot cfg = some s0)
    (h : Reachable (siteStep strategy cfg world) (Site.start s0) t) : SiteInv strategy cfg world t :=
  h.invariant (start_siteInv hboot) fun _ _ _ hi _ hs => siteStep_inv hi hs

theorem panicProbe_costModel (s : Server) : (panicProbe strategy cfg s).costModel = s.costModel := by
  unfold panicProbe
  split
  · rfl
  · split <;> rfl

/-- what is in the shared handle -/
def Stored (cfg : StartupConfig) (world : World) (cm : CostModel) : Prop :=
  cm = cfg.initialCostModel ∨ ∃ st, Chosen cfg world cm st

theorem step_stored {t : Site} {s' : Server} {act : Act} (h : SiteInv strategy cfg world t)
    (hst : Stored cfg world t.server.costModel) (hs : step strategy cfg world t.server act = some s') :
    Stored cfg world s'.costModel := by
  have hne : ¬ (t.server.exit.isSome = true) := by rw [exit_of_step hs]; simp
  unfold step at hs
  rw [if_neg hne] at hs
  cases act with
  | main =>
    cases mainStep_cases hs with
    | overridden cm _ ho => exact .inr ⟨_, .override cm ho⟩
    | hit a b _ ho hd hc => exact .inr ⟨_, .cached a b ho hd hc⟩
    | _ => exact hst
  | probe =>
    cases probeStep_cases hs with
    | installed a b hp =>
      have hprobe := h.probe
      unfold probeTold at hprobe
      rw [hp] at hprobe
      obtain ⟨hmust, shapes, hr⟩ := hprobe
      exact .inr ⟨_, .probed a b shapes hmust hr⟩
    | sweepPanicked => rw [panicProbe_costModel]; exact hst
    | overflowed => rw [panicProbe_costModel]; exact hst
    | _ => exact hst
  | probePanic =>
    dsimp only at hs
    split at hs
    · cases hs
      rw [panicProbe_costModel]
      exact hst
    · cases hs
  | arrive | leave | acquire | finish =>
    dsimp only at hs
    split at hs
    · cases hs
      exact hst
    · cases hs

/-- the handle holds the initial model or the chosen one -/
theorem reach_stored {s0 : Server} {t : Site} (hboot : boot cfg = some s0)
    (h : Reachable (siteStep strategy cfg world) (Site.start s0) t) : Stored cfg world t.server.costModel := by
  induction h with
  | refl =>
    unfold boot at hboot
    split at hboot
    · cases hboot
      exact .inl rfl
    · cases hboot
  | @tail t u act hr _ hs ih =>
    have hi := reach_siteInv hboot hr
    unfold siteStep at hs
    cases act with
    | server act =>
      dsimp only at hs
      split at hs
      · cases hs
      · rename_i s' hstep
        have hstored := step_stored hi ih hstep
        cases act with
        | finish =>
          dsimp only at hs
          split at hs
          · cases hs
            exact hstored
          · cases hs
        | _ =>
          cases hs
          exact hstored
    | cancel =>
      dsimp only at hs
      split at hs
      · obtain ⟨s', hstep, ht⟩ := Option.map_eq_some_iff.mp hs
        subst ht
        exact step_stored hi ih hstep
      · cases hs
    | send | deep | canary | deepCancel =>
      dsimp only at hs
      split at hs
      · cases hs
        exact ih
      · cases hs

/-- **What `ready` promises**, in every state of every run: the pool came up, the budget is above the
floor, `tuning` is set, the shared cost model and the probe status are those of the path taken, and both
readiness calls succeeded after the store.  It is never taken back.  No handler sends to the pool while
the status is `Running`, so that nothing was sent when the probe sweeps. -/
theorem ready_sound {s0 : Server} {t : Site} (hboot : boot cfg = some s0)
    (h : Reachable (siteStep strategy cfg world) (Site.start s0) t) :
    (t.server.ready = true →
      world.init = .ok ∧
      physicsFloor cfg.maxSeqLength ≤ cfg.perWorkerWorkspace world ∧
      t.server.tuning = some (tuningInfo cfg world) ∧
      Chosen cfg world t.server.costModel t.server.probeStatus ∧
      t.server.probeStatus ≠ .running ∧
      (t.server.probeStatus = .complete → ¬ (t.server.costModel.a = CostModel.conservativeA ∧
        t.server.costModel.b = CostModel.conservativeB)) ∧
      world.dense.isOk = true ∧ world.sparse.isOk = true ∧
      openLog t.server.costModel t.server.probeStatus <:+: t.log) ∧
    (t.server.ready = true → ∀ u, Reachable (siteStep strategy cfg world) t u → u.server.ready = true) ∧
    (∀ who st, .sent who st ∈ t.log → st ≠ .running) ∧
    (t.server.probeStatus = .running → ∀ who st, .sent who st ∉ t.log) ∧
    (t.server.probe = .sweep → t.server.probeStatus = .running) := by
  have hinv := reach_siteInv hboot h
  refine ⟨fun hr => ?_, fun hr u hu => ?_, hinv.late, fun hrun => ?_, fun hsweep => ?_⟩
  · have hopen := hinv.opened hr
    obtain ⟨hi, hle⟩ := path_of_ne_exits hopen.path
    obtain ⟨hdense, hsparse⟩ := checksPass_iff.mp hopen.checks
    refine ⟨hi, hle, hopen.tuned, hopen.chosen, hopen.chosen.terminal, fun hc => ?_, hdense, hsparse,
      hopen.log⟩
    have hchosen := hopen.chosen
    rw [hc] at hchosen
    exact hchosen.complete
  · exact hu.invariant (I := fun t => t.server.ready = true) hr fun _ _ _ hi _ hs => siteStep_ready hs hi
  · have hr : t.server.ready = false := by
      by_contra hr
      exact (hinv.opened (Bool.not_eq_false _ ▸ hr)).chosen.terminal hrun
    exact (hinv.quiet hr).2.2
  · have hprobe := hinv.probe
    unfold probeTold at hprobe
    rw [hsweep] at hprobe
    exact hprobe.2

end
/-- two workers on the probe path; a canary and a request are sent after the server opens -/
theorem ready_sound_twoWorkers :
    ∃ t, Reachable (siteStep .abort (twoWorkers none) roomyHost) (Site.start (booted (twoWorkers none))) t ∧
      .sent .canary .failed ∈ t.log ∧ .sent .client .failed ∈ t.log ∧ t.server.ready = true ∧
      Chosen (twoWorkers none) roomyHost t.server.costModel t.server.probeStatus := by
  obtain ⟨t, hr, hcanary, hclient, hready⟩ :
      ∃ t, Reachable (siteStep .abort (twoWorkers none) roomyHost) (Site.start (booted (twoWorkers none))) t ∧
        .sent .canary .failed ∈ t.log ∧ .sent .client .failed ∈ t.log ∧ t.server.ready = true :=
    Reach.exists_of_run
      (List.replicate 5 (.server .main) ++ List.replicate 8 (.server .probe) ++
        [.deep, .canary, .server .arrive, .server .acquire, .send])
      (fun _ _ _ => trivial) (by decide +kernel)
  exact ⟨t, hr, hcanary, hclient, hready, ((ready_sound rfl hr).1 hready).2.2.2.1⟩

end EmbedServer.Startup
