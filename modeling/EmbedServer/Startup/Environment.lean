import EmbedServer.Config
import EmbedServer.Startup.Floor

/-!
# From the environment to the cost model (`config.rs`, `bootstrap/readiness.rs`)

Three paths read `BGE_M3_AVAILABLE_MEMORY_BYTES`: the automatic budget divides it among the workers, the
two overrides install it as the ceiling of each worker.  Of the places where a cost model is made, the
override by `BGE_M3_COST_MODEL_A` and `_B` alone does not look at its coefficients.

* `declared_total_iff`       when the ceilings of all workers are within the declared memory;
* `Installed`                the cost models a process ever packs with;
* `installed_sound_iff`      when all of them are well formed.
-/

namespace EmbedServer.Startup

section
variable {lookup : Lookup} {machine : Machine}

/-! ## settings -/

/-- the clamped safety factor, NaN included -/
theorem clamp_stand_mem (x : F64) {lo hi : Rat} (h0 : 0 ≤ lo) (h : lo ≤ hi) :
    0 ≤ (x.clamp lo hi).stand 0 ∧ (x.clamp lo hi).stand 0 ≤ hi := by
  cases x with
  | nan => exact ⟨le_rfl, h0.trans h⟩
  | inf neg =>
    cases neg with
    | true => exact ⟨h0, h⟩
    | false => exact ⟨h0.trans h, le_rfl⟩
  | fin q => exact ⟨le_min (h0.trans (le_max_right _ _)) (h0.trans h), min_le_right _ _⟩

variable (lookup machine) in
theorem safety_mem : 0 ≤ (machine.startupConfig lookup).memorySafetyFactor ∧
    (machine.startupConfig lookup).memorySafetyFactor ≤ 1 := by
  have hlo : 0 ≤ (F64.ofRat (1 / 10)).stand 0 ∧ (F64.ofRat (1 / 10)).stand 0 ≤ 1 := by decide +kernel
  exact clamp_stand_mem _ hlo.1 hlo.2

variable (lookup) in
/-- both coefficients are set, to texts that are floats -/
def CoefficientsSet : Prop :=
  (f64Var lookup "BGE_M3_COST_MODEL_A").isSome = true ∧ (f64Var lookup "BGE_M3_COST_MODEL_B").isSome = true

variable (lookup) in
/-- the memory is divided by the automatic budget: neither override is set -/
def AutoBudget : Prop := flagVar lookup "BGE_M3_DISABLE_AUTO_BUDGET" = false ∧ ¬ CoefficientsSet lookup

/-- the third place of the priority list -/
theorem resolve_coefficients {n : Nat} (hd : flagVar lookup "BGE_M3_DISABLE_AUTO_BUDGET" = false)
    (ht : usizeVar lookup "BGE_M3_TOKEN_BUDGET" = none) :
    resolveCostModelOverride lookup n =
      (f64Var lookup "BGE_M3_COST_MODEL_A").bind fun a =>
        (f64Var lookup "BGE_M3_COST_MODEL_B").map fun b => ⟨a, b, declaredWorkspace lookup⟩ := by
  unfold resolveCostModelOverride f64Var
  rw [hd, ht]
  cases lookup "BGE_M3_COST_MODEL_A" with
  | none => rfl
  | some aStr =>
    rw [Option.bind_some]
    cases lookup "BGE_M3_COST_MODEL_B" with
    | none => cases parseF64 aStr <;> rfl
    | some bStr =>
      rw [Option.bind_some]
      dsimp only
      cases parseF64 aStr with
      | none => rfl
      | some a => cases parseF64 bStr <;> rfl

/-- without an override of the token budget: the automatic budget, or the declared memory as it is -/
theorem resolve_declared {n : Nat}
    (hused : flagVar lookup "BGE_M3_DISABLE_AUTO_BUDGET" = true ∨ usizeVar lookup "BGE_M3_TOKEN_BUDGET" = none) :
    AutoBudget lookup ∧ resolveCostModelOverride lookup n = none ∨
      ¬ AutoBudget lookup ∧ ∃ cm, resolveCostModelOverride lookup n = some cm ∧
        cm.maxWorkspaceBytes = declaredWorkspace lookup := by
  unfold AutoBudget CoefficientsSet
  cases hd : flagVar lookup "BGE_M3_DISABLE_AUTO_BUDGET" with
  | true =>
    refine .inr ⟨by simp, .conservative (declaredWorkspace lookup), ?_, rfl⟩
    unfold resolveCostModelOverride
    rw [hd]
    rfl
  | false =>
    have ht : usizeVar lookup "BGE_M3_TOKEN_BUDGET" = none := by
      rcases hused with h | h
      · rw [hd] at h
        cases h
      · exact h
    rw [resolve_coefficients hd ht]
    cases f64Var lookup "BGE_M3_COST_MODEL_A" with
    | none => exact .inl ⟨by simp, rfl⟩
    | some a =>
      cases f64Var lookup "BGE_M3_COST_MODEL_B" with
      | none => exact .inl ⟨by simp, rfl⟩
      | some b => exact .inr ⟨by simp, _, rfl, rfl⟩

/-! ## the declared memory -/

theorem override_of_cpu (hcpu : (machine.config lookup).ep = .cpu) :
    (machine.config lookup).costModelOverride =
      resolveCostModelOverride lookup (machine.config lookup).maxSeqLength := by
  unfold Machine.config Config.fromLookup at hcpu ⊢
  dsimp only at hcpu ⊢
  rw [if_pos hcpu]

/-- a ceiling of the whole memory for each worker -/
theorem mul_self_le_iff {w m : Nat} (hw : 1 ≤ w) : w * m ≤ m ↔ w = 1 ∨ m = 0 := by
  constructor
  · intro h
    by_cases hm : m = 0
    · exact .inr hm
    · left
      have hlt : ¬ 2 ≤ w := fun h2 => by
        have := Nat.mul_le_mul_right m h2
        omega
      omega
  · rintro (rfl | rfl)
    · omega
    · exact le_rfl

/-- **The declared memory covers the ceilings of all workers exactly if** the automatic budget divides it,
or there is one worker, or no memory is declared. -/
theorem declared_total_iff {strategy : PanicStrategy} {memory : Nat} {s0 : Server} {t : Site}
    (hmemory : usizeVar lookup "BGE_M3_AVAILABLE_MEMORY_BYTES" = some memory)
    (hcpu : (machine.config lookup).ep = .cpu)
    (hused : flagVar lookup "BGE_M3_DISABLE_AUTO_BUDGET" = true ∨ usizeVar lookup "BGE_M3_TOKEN_BUDGET" = none)
    (hboot : boot (machine.startupConfig lookup) = some s0)
    (h : Reachable (siteStep strategy (machine.startupConfig lookup) (machine.world lookup)) (Site.start s0) t)
    (hr : t.server.ready = true) :
    (machine.config lookup).workers * t.server.costModel.maxWorkspaceBytes ≤ memory ↔
      AutoBudget lookup ∨ (machine.config lookup).workers = 1 ∨ memory = 0 := by
  have hw : 1 ≤ (machine.config lookup).workers := (machine.startupConfig lookup).workers_pos
  have hdeclared : declaredWorkspace lookup = memory := by
    unfold declaredWorkspace
    rw [hmemory]
    rfl
  have havail : (machine.world lookup).availableBytes = memory := by
    show detectAvailableMemory lookup machine.cgroup machine.hostRam = memory
    unfold detectAvailableMemory
    rw [hmemory]
  -- the share of a worker, on the paths without an override
  have hshare : (machine.config lookup).workers *
      (machine.startupConfig lookup).perWorkerWorkspace (machine.world lookup) ≤ memory := by
    obtain ⟨h0, h1⟩ := safety_mem lookup machine
    have htotal : totalWorkspace (machine.world lookup).availableBytes (machine.config lookup).workers
        (machine.world lookup).modelRssPerWorker ≤ memory := by
      rw [havail]
      exact (Nat.sub_le _ _).trans (Nat.sub_le _ _)
    exact (perWorker_le hw h0 h1).trans htotal
  have hchosen := ((reach_siteInv hboot h).opened hr).chosen
  rcases resolve_declared (n := (machine.config lookup).maxSeqLength) hused with
    ⟨hauto, hnone⟩ | ⟨hauto, cm, hsome, hmax⟩
  · have ho : (machine.startupConfig lookup).costModelOverride = none := by
      show (machine.config lookup).costModelOverride.map FloatCostModel.exact = none
      rw [override_of_cpu hcpu, hnone]
      rfl
    refine ⟨fun _ => .inl hauto, fun _ => ?_⟩
    generalize t.server.probeStatus = st at hchosen
    generalize t.server.costModel = model at hchosen ⊢
    cases hchosen with
    | override cm h => rw [ho] at h; cases h
    | cached a b => exact hshare
    | probed a b => exact hshare
  · have ho : (machine.startupConfig lookup).costModelOverride = some cm.exact := by
      show (machine.config lookup).costModelOverride.map FloatCostModel.exact = some cm.exact
      rw [override_of_cpu hcpu, hsome]
      rfl
    have hmodel : t.server.costModel.maxWorkspaceBytes = memory := by
      generalize t.server.probeStatus = st at hchosen
      generalize t.server.costModel = model at hchosen ⊢
      cases hchosen with
      | override cm' h =>
        rw [ho] at h
        cases h
        exact hmax.trans hdeclared
      | cached a b hn => rw [ho] at hn; cases hn
      | probed a b shapes hp =>
        have hn := hp.1
        rw [ho] at hn
        cases hn
    rw [hmodel, mul_self_le_iff hw]
    exact ⟨.inr, fun h => h.resolve_left hauto⟩

end

/-! ## two environments -/

def envOf (vars : List (String × String)) : Lookup := fun name => vars.lookup name

/-- models of 1 GiB, a cache file with the conservative coefficients, everything answers -/
def plainMachine : Machine where
  procGpus := none
  cgroup := none
  hostRam := none
  build := ⟨"0.1.0", "x86_64"⟩
  file := some (savedProbeCache ⟨"0.1.0", "x86_64"⟩ "fp16" 8192 0 16384 8)
  init := .ok
  modelRssPerWorker := 2 ^ 30
  probe := ⟨none, fun _ => none, fun _ => .error (.msg "probe")⟩
  dense := .ok ()
  sparse := .ok ()

/-- 8 GiB declared, by the automatic budget or by an override -/
def eightGiB (more : List (String × String)) : Lookup :=
  envOf (("BGE_M3_AVAILABLE_MEMORY_BYTES", "8589934592") :: more)

/-- two workers share the declared memory -/
theorem declared_total_auto :
    ∃ t, Reachable (siteStep .abort (plainMachine.startupConfig (eightGiB [])) (plainMachine.world (eightGiB [])))
        (Site.start (booted (plainMachine.startupConfig (eightGiB [])))) t ∧
      t.server.ready = true ∧
      (plainMachine.config (eightGiB [])).workers * t.server.costModel.maxWorkspaceBytes ≤ 8589934592 := by
  obtain ⟨t, hr, hready⟩ : ∃ t, Reachable
      (siteStep .abort (plainMachine.startupConfig (eightGiB [])) (plainMachine.world (eightGiB [])))
      (Site.start (booted (plainMachine.startupConfig (eightGiB [])))) t ∧ t.server.ready = true :=
    Reach.exists_of_run (List.replicate 7 (.server .main)) (fun _ _ _ => trivial) (by decide +kernel)
  have hauto : AutoBudget (eightGiB []) := ⟨rfl, fun h => by cases h.1⟩
  have hmemory : usizeVar (eightGiB []) "BGE_M3_AVAILABLE_MEMORY_BYTES" = some 8589934592 := by
    decide +kernel
  exact ⟨t, hr, hready,
    (declared_total_iff hmemory rfl (.inr rfl) (by decide +kernel) hr hready).mpr (.inl hauto)⟩

/-- the same memory, without the automatic budget -/
def fixedEnv : Lookup := eightGiB [("BGE_M3_DISABLE_AUTO_BUDGET", "1")]

/-- **Without the automatic budget each of two workers may use all of the declared memory.** -/
theorem declared_total_twice :
    usizeVar fixedEnv "BGE_M3_AVAILABLE_MEMORY_BYTES" = some 8589934592 ∧
    (plainMachine.config fixedEnv).ep = .cpu ∧
    ∃ t, Reachable (siteStep .abort (plainMachine.startupConfig fixedEnv) (plainMachine.world fixedEnv))
        (Site.start (booted (plainMachine.startupConfig fixedEnv))) t ∧
      t.server.ready = true ∧
      ¬ (plainMachine.config fixedEnv).workers * t.server.costModel.maxWorkspaceBytes ≤ 8589934592 :=
  ⟨by decide +kernel, rfl,
    Reach.exists_of_run (List.replicate 7 (.server .main)) (fun _ _ _ => trivial) (by decide +kernel)⟩

/-! ## well-formed cost models -/

section
variable (lookup : Lookup) (machine : Machine)

/-- a cost model the process packs with: the ones stored in the shared handle, at the start and by the
three paths of startup, and the halved copies of the retry -/
inductive Installed : FloatCostModel → Prop
  | initial : Installed ((machine.config lookup).costModelOverride.getD
      (.conservative CostModel.defaultMaxWorkspace))
  | override (cm : FloatCostModel) (h : (machine.config lookup).costModelOverride = some cm) : Installed cm
  | cached (a b : Rat) (h : (machine.world lookup).cached = some (a, b)) :
      Installed ⟨.fin a, .fin b, (machine.startupConfig lookup).perWorkerWorkspace (machine.world lookup)⟩
  | probed (a b : Rat) (shapes : List Shape)
      (h : runProbe machine.probe (machine.config lookup).maxSeqLength
        ((machine.startupConfig lookup).perWorkerWorkspace (machine.world lookup))
        (machine.world lookup).availableBytes = .ok ((a, b), shapes)) :
      Installed ⟨.fin a, .fin b, (machine.startupConfig lookup).perWorkerWorkspace (machine.world lookup)⟩
  | halved (cm : FloatCostModel) (h : Installed cm) : Installed cm.halved

/-- the coefficients of the environment, where they are used, are positive -/
def CoefficientsPositive : Prop :=
  (machine.config lookup).ep = .cpu → flagVar lookup "BGE_M3_DISABLE_AUTO_BUDGET" = false →
    usizeVar lookup "BGE_M3_TOKEN_BUDGET" = none →
    ∀ a b, f64Var lookup "BGE_M3_COST_MODEL_A" = some a → f64Var lookup "BGE_M3_COST_MODEL_B" = some b →
      a.Positive ∧ b.Positive

variable {lookup machine}

theorem conservative_positive (n : Nat) :
    (FloatCostModel.conservative n).a.Positive ∧ (FloatCostModel.conservative n).b.Positive := by
  constructor
  · show (0 : Rat) < CostModel.conservativeA
    norm_num [CostModel.conservativeA]
  · show (0 : Rat) < CostModel.conservativeB
    norm_num [CostModel.conservativeB]

/-- the first two places of the priority list have the conservative coefficients -/
theorem resolve_positive {n : Nat} {cm : FloatCostModel} (h : resolveCostModelOverride lookup n = some cm)
    (hab : flagVar lookup "BGE_M3_DISABLE_AUTO_BUDGET" = false →
      usizeVar lookup "BGE_M3_TOKEN_BUDGET" = none →
      ∀ a b, f64Var lookup "BGE_M3_COST_MODEL_A" = some a → f64Var lookup "BGE_M3_COST_MODEL_B" = some b →
        a.Positive ∧ b.Positive) : cm.a.Positive ∧ cm.b.Positive := by
  by_cases hd : flagVar lookup "BGE_M3_DISABLE_AUTO_BUDGET" = true
  · unfold resolveCostModelOverride at h
    rw [if_pos hd] at h
    cases h
    exact conservative_positive _
  · rw [Bool.not_eq_true] at hd
    cases ht : usizeVar lookup "BGE_M3_TOKEN_BUDGET" with
    | some tokenBudget =>
      unfold resolveCostModelOverride at h
      rw [hd, ht] at h
      cases h
      exact conservative_positive _
    | none =>
      rw [resolve_coefficients hd ht] at h
      obtain ⟨a, ha, h⟩ := Option.bind_eq_some_iff.mp h
      obtain ⟨b, hb, h⟩ := Option.map_eq_some_iff.mp h
      cases h
      exact hab hd ht a b ha hb

theorem override_positive (hc : CoefficientsPositive lookup machine) {cm : FloatCostModel}
    (h : (machine.config lookup).costModelOverride = some cm) : cm.a.Positive ∧ cm.b.Positive := by
  by_cases hcpu : (machine.config lookup).ep = .cpu
  · rw [override_of_cpu hcpu] at h
    exact resolve_positive h (hc hcpu)
  · unfold Machine.config Config.fromLookup at h hcpu
    dsimp only at h hcpu
    rw [if_neg hcpu] at h
    cases h
    exact conservative_positive _

/-- every place that makes a cost model, but for the coefficients of the environment -/
theorem Installed.positive (hc : CoefficientsPositive lookup machine) {cm : FloatCostModel}
    (h : Installed lookup machine cm) : cm.a.Positive ∧ cm.b.Positive := by
  induction h with
  | initial =>
    cases ho : (machine.config lookup).costModelOverride with
    | none => exact conservative_positive _
    | some cm => exact override_positive hc ho
  | override cm h => exact override_positive hc h
  | cached a b h => exact tryLoadProbeCache_pos h
  | probed a b shapes h => exact (runProbe_range h).pos
  | halved cm _ ih => exact ih

end

/-- finite positive coefficients, and what the packer relies on: the cost grows with the texts and with
the tokens, nothing is free, and a chunk over the budget stays over it -/
structure SoundModel (cm : FloatCostModel) : Prop where
  positive : cm.a.Positive ∧ cm.b.Positive
  mono : ∀ {count count' maxSeq maxSeq' : Nat}, count ≤ count' → maxSeq ≤ maxSeq' →
    cm.chunkCost count maxSeq ≤ cm.chunkCost count' maxSeq'
  cost_pos : ∀ {q : Rat}, cm.a = .fin q → 1 ≤ q → ∀ {count maxSeq : Nat}, 1 ≤ count → 1 ≤ maxSeq →
    0 < cm.chunkCost count maxSeq
  stays_over : ∀ {count count' maxSeq maxSeq' : Nat}, count ≤ count' → maxSeq ≤ maxSeq' →
    cm.fits count maxSeq = false → cm.fits count' maxSeq' = false

theorem stand_pos {limit : Nat} {x : F64} (h : x.Positive) : 0 < x.stand limit := by
  cases x with
  | nan => exact h.elim
  | inf neg => exact h.elim
  | fin q => exact h

theorem sound_of_positive {cm : FloatCostModel} (h : cm.a.Positive ∧ cm.b.Positive) :
    SoundModel cm := by
  have hmono : ∀ {count count' maxSeq maxSeq' : Nat}, count ≤ count' → maxSeq ≤ maxSeq' →
      cm.chunkCost count maxSeq ≤ cm.chunkCost count' maxSeq' := by
    intro count count' maxSeq maxSeq' hc hs
    rw [FloatCostModel.chunkCost_exact, FloatCostModel.chunkCost_exact]
    exact CostModel.chunkCost_mono (stand_pos h.1).le (stand_pos h.2).le hc hs
  refine ⟨h, hmono, ?_, ?_⟩
  · intro q ha hq count maxSeq hc hs
    rw [FloatCostModel.chunkCost_exact]
    refine CostModel.chunkCost_pos ?_ hc hs
    show 1 ≤ cm.a.stand u128Max
    rw [ha]
    exact hq
  · intro count count' maxSeq maxSeq' hc hs hover
    apply decide_eq_false
    have hlt := Nat.lt_of_not_le (of_decide_eq_false hover)
    exact Nat.not_le.mpr (hlt.trans_le (hmono hc hs))

section
variable (lookup : Lookup) (machine : Machine)

/-- **Every cost model is well formed exactly if** the coefficients of the environment, where they are
used, are finite and positive. -/
theorem installed_sound_iff :
    (∀ cm, Installed lookup machine cm → SoundModel cm) ↔ CoefficientsPositive lookup machine := by
  constructor
  · intro h hcpu hd ht a b ha hb
    have hover : (machine.config lookup).costModelOverride = some ⟨a, b, declaredWorkspace lookup⟩ := by
      rw [override_of_cpu hcpu, resolve_coefficients hd ht, ha, hb]
      rfl
    exact (h _ (.override _ hover)).positive
  · intro hc cm hcm
    exact sound_of_positive (hcm.positive hc)

variable {lookup machine}

/-- what the shared handle holds at any point of any startup is the rational form of an installed model -/
theorem stored_installed {strategy : PanicStrategy} {s0 : Server} {t : Site}
    (hboot : boot (machine.startupConfig lookup) = some s0)
    (h : Reachable (siteStep strategy (machine.startupConfig lookup) (machine.world lookup)) (Site.start s0) t) :
    ∃ cm, Installed lookup machine cm ∧ t.server.costModel = cm.exact := by
  rcases reach_stored hboot h with hinit | ⟨st, hchosen⟩
  · refine ⟨_, .initial, hinit.trans ?_⟩
    show ((machine.config lookup).costModelOverride.map FloatCostModel.exact).getD _ = _
    cases (machine.config lookup).costModelOverride <;> rfl
  · generalize t.server.costModel = model at hchosen ⊢
    cases hchosen with
    | override cm ho =>
      obtain ⟨cm', hcm, rfl⟩ := Option.map_eq_some_iff.mp ho
      exact ⟨cm', .override cm' hcm, rfl⟩
    | cached a b _ _ hc => exact ⟨_, .cached a b hc, rfl⟩
    | probed a b shapes _ hr => exact ⟨_, .probed a b shapes hr, rfl⟩

end

def badCoefficients : Lookup := envOf [("BGE_M3_COST_MODEL_A", "-1"), ("BGE_M3_COST_MODEL_B", "nan")]

/-- **A negative coefficient makes every chunk free**: the text `-1` is a float like any other. -/
theorem negative_coefficient_free :
    ∃ cm, Installed badCoefficients plainMachine cm ∧ ¬ SoundModel cm ∧
      cm.chunkCost 256 8192 = 0 ∧ cm.chunkCost 1 1 = 0 := by
  have hover : (plainMachine.config badCoefficients).costModelOverride =
      some ⟨.fin (-1), .nan, CostModel.defaultMaxWorkspace⟩ := by decide +kernel
  refine ⟨_, .override _ hover, fun h => h.positive.2, ?_, ?_⟩
  · decide +kernel
  · decide +kernel

end EmbedServer.Startup
