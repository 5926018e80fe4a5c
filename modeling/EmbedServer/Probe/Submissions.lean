import EmbedServer.Probe.Runner
import Mathlib.Data.List.Nodup

/-!
# What the probe submits to the pool (`probe/runner.rs`)

`submissions` lists every shape the probe sends with the RSS of the process at that moment, also for a run
that ends in a panic.  The sweep reads that RSS itself; the arena warm-up reads nothing.

* `sweptFrom_gated`   the sweep sends a shape only if it fits the ceiling and the RSS guard lets it pass;
* `probeSafe_iff`     so all submissions are gated exactly when the guards would have let the warm-up
                      pass; everything else that is said of the sweep holds in every run.
-/

namespace EmbedServer

/-- a shape sent to the pool, and the RSS of the process when it was sent -/
structure Submission where
  shape : Shape
  rss : Nat
deriving DecidableEq, Repr

/-- the two guards, on exact numbers -/
def Gated (rssCeiling cgroupLimitBytes : Nat) (sub : Submission) : Prop :=
  (CostModel.conservative rssCeiling).fits sub.shape.1 sub.shape.2 = true ∧
  (0 < cgroupLimitBytes → sub.rss + 4 * (CostModel.conservative rssCeiling).chunkCost sub.shape.1 sub.shape.2 ≤
    cgroupLimitBytes - cgroupLimitBytes / 8)

section
variable (env : ProbeEnv) (corpusTexts : List String) (conservative : CostModel) (cgroupLimitBytes : Nat)

/-- both guards of the sweep let the shape pass -/
def passes (shape : Shape × Nat) : Bool :=
  conservative.fits shape.1.1 shape.1.2 &&
    !(decide (cgroupLimitBytes > 0) &&
      breachesCgroup conservative cgroupLimitBytes ((env.rss shape.2).getD 0) shape.1)

/-- the data point of submission `n`, if the reply was good -/
def measured (shape : Shape) (n : Nat) : Option DataPoint :=
  match env.reply n with
  | .ok r => some ⟨shape.1, shape.2, r.rssAfter - r.rssBefore⟩
  | .error _ => none

/-- the shapes with their places that the sweep sends, until it ends or a text cannot be made -/
def sweptFrom (st : Sweep) : List (Shape × Nat) → List (Shape × Nat)
  | [] => []
  | shape :: rest =>
    match sweepStep env corpusTexts conservative cgroupLimitBytes st shape with
    | .ok st' => (if st'.submitted.length = st.submitted.length then [] else [shape]) ++ sweptFrom st' rest
    | .err _ | .panic _ => []

/-! ## one shape -/

/-- what one round of the sweep does: skip, stop at a text, or submit -/
theorem sweepStep_cases (st : Sweep) (shape : Shape × Nat) :
    (passes env conservative cgroupLimitBytes shape = false ∧
      sweepStep env corpusTexts conservative cgroupLimitBytes st shape =
        .ok { st with shapesSkipped := st.shapesSkipped + 1 }) ∨
    (passes env conservative cgroupLimitBytes shape = true ∧
      ((∃ m, sweepStep env corpusTexts conservative cgroupLimitBytes st shape = .panic m) ∨
        ∃ st', sweepStep env corpusTexts conservative cgroupLimitBytes st shape = .ok st' ∧
          st'.submitted = st.submitted ++ [shape.1] ∧
          st'.data = st.data ++ (measured env shape.1 st.submitted.length).toList)) := by
  obtain ⟨s, i⟩ := shape
  unfold passes sweepStep measured
  dsimp only
  cases hfits : conservative.fits s.1 s.2 with
  | false => exact .inl ⟨rfl, rfl⟩
  | true =>
    rw [Bool.true_and]
    cases hguard : (decide (cgroupLimitBytes > 0) &&
        breachesCgroup conservative cgroupLimitBytes ((env.rss i).getD 0) s) with
    | true => exact .inl ⟨rfl, rfl⟩
    | false =>
      refine .inr ⟨rfl, ?_⟩
      cases htexts : synthesizeTexts corpusTexts s.1 s.2 with
      | err e => exact e.elim
      | panic m => exact .inl ⟨m, rfl⟩
      | ok texts =>
        refine .inr ?_
        cases env.reply st.submitted.length with
        | ok r => exact ⟨_, rfl, rfl, rfl⟩
        | error e => exact ⟨_, rfl, rfl, (List.append_nil _).symm⟩

/-! ## the sweep -/

theorem sweptFrom_sublist (shapes : List (Shape × Nat)) (st : Sweep) :
    (sweptFrom env corpusTexts conservative cgroupLimitBytes st shapes).Sublist shapes := by
  induction shapes generalizing st with
  | nil => exact List.Sublist.refl _
  | cons shape rest ih =>
    unfold sweptFrom
    split
    · rename_i st' _
      split
      · exact (ih st').cons shape
      · exact (ih st').cons_cons shape
    · exact List.nil_sublist _
    · exact List.nil_sublist _

theorem sweptFrom_passes (shapes : List (Shape × Nat)) (st : Sweep) :
    ∀ shape ∈ sweptFrom env corpusTexts conservative cgroupLimitBytes st shapes,
      passes env conservative cgroupLimitBytes shape = true := by
  induction shapes generalizing st with
  | nil => exact fun _ h => absurd h List.not_mem_nil
  | cons shape rest ih =>
    unfold sweptFrom
    rcases sweepStep_cases env corpusTexts conservative cgroupLimitBytes st shape with
      ⟨-, hstep⟩ | ⟨hpass, ⟨m, hstep⟩ | ⟨st', hstep, hsub, -⟩⟩
    · rw [hstep]
      dsimp only
      rw [if_pos rfl, List.nil_append]
      exact ih _
    · rw [hstep]
      exact fun _ h => absurd h List.not_mem_nil
    · rw [hstep]
      dsimp only
      rw [hsub, if_neg (by simp)]
      intro x hx
      rcases List.mem_cons.mp hx with rfl | hx
      · exact hpass
      · exact ih st' x hx

/-- a finished sweep has submitted these shapes and measured those with a good reply -/
theorem sweep_finished (shapes : List (Shape × Nat)) {st final : Sweep}
    (h : shapes.foldlM (sweepStep env corpusTexts conservative cgroupLimitBytes) st = .ok final) :
    final.submitted = st.submitted ++
      (sweptFrom env corpusTexts conservative cgroupLimitBytes st shapes).map Prod.fst ∧
    final.data = st.data ++
      (((sweptFrom env corpusTexts conservative cgroupLimitBytes st shapes).map Prod.fst).zipIdx
        st.submitted.length).filterMap fun p => measured env p.1 p.2 := by
  induction shapes generalizing st with
  | nil =>
    cases h
    exact ⟨(List.append_nil _).symm, (List.append_nil _).symm⟩
  | cons shape rest ih =>
    rw [List.foldlM_cons] at h
    unfold sweptFrom
    rcases sweepStep_cases env corpusTexts conservative cgroupLimitBytes st shape with
      ⟨-, hstep⟩ | ⟨-, ⟨m, hstep⟩ | ⟨st', hstep, hsub, hdata⟩⟩
    · rw [hstep, Outcome.bind_ok] at h
      rw [hstep]
      dsimp only
      rw [if_pos rfl, List.nil_append]
      exact ih h
    · rw [hstep, Outcome.bind_panic] at h
      cases h
    · rw [hstep, Outcome.bind_ok] at h
      rw [hstep]
      dsimp only
      obtain ⟨hs, hd⟩ := ih h
      rw [hsub] at hs hd ⊢
      rw [if_neg (by simp)]
      refine ⟨?_, ?_⟩
      · rw [hs]
        simp
      · rw [hd, hdata, List.length_append, List.length_singleton, List.singleton_append, List.map_cons,
          List.zipIdx_cons, List.filterMap_cons, List.append_assoc]
        cases measured env shape.1 st.submitted.length with
        | none => rfl
        | some dp => rfl

end

/-- the guards of the code, on machine words, are the guards on exact numbers -/
theorem passes_iff_gated (env : ProbeEnv) {rssCeiling cgroupLimitBytes : Nat} (hceil : rssCeiling ≤ usizeMax)
    (hlimit : cgroupLimitBytes ≤ usizeMax) (shape : Shape × Nat) :
    passes env (.conservative rssCeiling) cgroupLimitBytes shape = true ↔
      Gated rssCeiling cgroupLimitBytes ⟨shape.1, (env.rss shape.2).getD 0⟩ := by
  unfold passes Gated
  rw [Bool.and_eq_true]
  refine and_congr_right fun hfits => ?_
  -- a cost within the ceiling is not truncated, and a saturated sum is over any limit
  have hcost : (CostModel.conservative rssCeiling).chunkCost shape.1.1 shape.1.2 ≤ rssCeiling :=
    of_decide_eq_true hfits
  have hword : (CostModel.conservative rssCeiling).chunkCostUsize shape.1.1 shape.1.2 =
      (CostModel.conservative rssCeiling).chunkCost shape.1.1 shape.1.2 := by
    unfold CostModel.chunkCostUsize
    unfold usizeMax at hceil
    omega
  unfold breachesCgroup
  rw [hword]
  unfold usizeMax at *
  simp only [Bool.not_eq_true', Bool.and_eq_false_iff, decide_eq_false_iff_not]
  omega

/-! ## the whole probe -/

/-- the sweep of the probe, with the places of the shapes -/
def probeSwept (env : ProbeEnv) (maxSeq rssCeiling cgroupLimitBytes : Nat) : List (Shape × Nat) :=
  sweptFrom env (loadProbeTexts env.fixture) (.conservative rssCeiling) cgroupLimitBytes
    ⟨[], 0, 0, [(1, 64)]⟩ (sweepShapes maxSeq).zipIdx

/-- the probe gets as far as the arena warm-up -/
def warmsUp (env : ProbeEnv) (maxSeq : Nat) : Bool :=
  (validateMaxSeqShape maxSeq).isOk && (synthesizeTexts (loadProbeTexts env.fixture) 1 64).isOk

/-- everything sent to the pool; the warm-up is sent with an RSS of `warmupRss` -/
def submissions (env : ProbeEnv) (warmupRss maxSeq rssCeiling cgroupLimitBytes : Nat) : List Submission :=
  if warmsUp env maxSeq then
    ⟨(1, 64), warmupRss⟩ ::
      (probeSwept env maxSeq rssCeiling cgroupLimitBytes).map fun s => ⟨s.1, (env.rss s.2).getD 0⟩
  else []

/-- the data points of the good replies -/
def successes (env : ProbeEnv) (maxSeq rssCeiling cgroupLimitBytes : Nat) : List DataPoint :=
  (((probeSwept env maxSeq rssCeiling cgroupLimitBytes).map Prod.fst).zipIdx 1).filterMap
    fun p => measured env p.1 p.2

/-- what is asked of a run of the probe -/
structure ProbeSafe (env : ProbeEnv) (warmupRss maxSeq rssCeiling cgroupLimitBytes : Nat) : Prop where
  gated : ∀ sub ∈ submissions env warmupRss maxSeq rssCeiling cgroupLimitBytes,
    Gated rssCeiling cgroupLimitBytes sub
  inRange : ∀ s ∈ probeSwept env maxSeq rssCeiling cgroupLimitBytes, s.1.2 ≤ maxSeq
  once : ((probeSwept env maxSeq rssCeiling cgroupLimitBytes).map Prod.fst).Nodup
  ascending : ((probeSwept env maxSeq rssCeiling cgroupLimitBytes).map Prod.fst).Pairwise
    fun s t => s.1 * s.2 ≤ t.1 * t.2
  considered : ∃ s ∈ sweepShapes maxSeq, s.2 = maxSeq
  result : ∀ pair shapes, runProbe env maxSeq rssCeiling cgroupLimitBytes = .ok (pair, shapes) →
    shapes = (submissions env warmupRss maxSeq rssCeiling cgroupLimitBytes).map Submission.shape ∧
    (pair = (CostModel.conservativeA, CostModel.conservativeB) ∨
      fitCostModel (successes env maxSeq rssCeiling cgroupLimitBytes) = some pair)

/-! ### the shapes considered -/

theorem mem_sweepShapes {maxSeq : Nat} {s : Shape} : s ∈ sweepShapes maxSeq ↔
    s.2 ≤ maxSeq ∧ (s ∈ probeShapes ∨ (s = (1, maxSeq) ∧ ∀ t ∈ probeShapes, t.2 ≠ maxSeq)) := by
  unfold sweepShapes
  dsimp only
  rw [List.mem_insertionSort, List.mem_filter, decide_eq_true_eq, and_comm]
  refine and_congr_right fun _ => ?_
  by_cases h : (probeShapes.any fun s => s.2 == maxSeq) = true
  · rw [if_pos h]
    obtain ⟨t, ht, heq⟩ := List.any_eq_true.mp h
    constructor
    · exact fun hs => .inl hs
    · rintro (hs | ⟨-, hno⟩)
      · exact hs
      · exact absurd (beq_iff_eq.mp heq) (hno t ht)
  · rw [if_neg h, List.mem_append, List.mem_singleton]
    refine or_congr_right ⟨fun hs => ⟨hs, fun t ht heq => h ?_⟩, fun hs => hs.1⟩
    exact List.any_eq_true.mpr ⟨t, ht, beq_iff_eq.mpr heq⟩

theorem sweepShapes_nodup (maxSeq : Nat) : (sweepShapes maxSeq).Nodup := by
  unfold sweepShapes
  dsimp only
  rw [(List.perm_insertionSort _ _).nodup_iff]
  refine List.Nodup.filter _ ?_
  split
  · decide
  · rename_i h
    refine List.nodup_append.mpr ⟨by decide, List.nodup_singleton _, ?_⟩
    rintro s hs t ht rfl
    rw [List.mem_singleton.mp ht] at hs
    exact h (List.any_eq_true.mpr ⟨_, hs, beq_self_eq_true _⟩)

theorem sweepShapes_ascending (maxSeq : Nat) :
    (sweepShapes maxSeq).Pairwise fun s t => s.1 * s.2 ≤ t.1 * t.2 := by
  have : Std.Total fun s t : Shape => s.1 * s.2 ≤ t.1 * t.2 := ⟨fun _ _ => Nat.le_total _ _⟩
  have : IsTrans Shape fun s t => s.1 * s.2 ≤ t.1 * t.2 := ⟨fun _ _ _ => Nat.le_trans⟩
  exact List.pairwise_insertionSort _ _

theorem sweepShapes_maxSeq (maxSeq : Nat) : ∃ s ∈ sweepShapes maxSeq, s.2 = maxSeq := by
  by_cases h : ∃ t ∈ probeShapes, t.2 = maxSeq
  · obtain ⟨t, ht, heq⟩ := h
    exact ⟨t, mem_sweepShapes.mpr ⟨heq.le, .inl ht⟩, heq⟩
  · exact ⟨(1, maxSeq), mem_sweepShapes.mpr ⟨le_refl _, .inr ⟨rfl, fun t ht heq => h ⟨t, ht, heq⟩⟩⟩, rfl⟩

section
variable (env : ProbeEnv) (maxSeq rssCeiling cgroupLimitBytes : Nat)

/-- the swept shapes are some of those considered, in their order -/
theorem probeSwept_sublist :
    ((probeSwept env maxSeq rssCeiling cgroupLimitBytes).map Prod.fst).Sublist (sweepShapes maxSeq) := by
  have h := (sweptFrom_sublist env (loadProbeTexts env.fixture) (.conservative rssCeiling) cgroupLimitBytes
    (sweepShapes maxSeq).zipIdx ⟨[], 0, 0, [(1, 64)]⟩).map Prod.fst
  rwa [List.zipIdx_map_fst] at h

theorem sweepResult_eq (data : List DataPoint) :
    sweepResult data = (CostModel.conservativeA, CostModel.conservativeB) ∨
      fitCostModel data = some (sweepResult data) := by
  unfold sweepResult
  split
  · exact .inl rfl
  · split
    · exact .inl rfl
    · cases fitCostModel data with
      | none => exact .inl rfl
      | some pair => exact .inr rfl

theorem runProbe_result {warmupRss : Nat} {pair : Rat × Rat} {shapes : List Shape}
    (h : runProbe env maxSeq rssCeiling cgroupLimitBytes = .ok (pair, shapes)) :
    shapes = (submissions env warmupRss maxSeq rssCeiling cgroupLimitBytes).map Submission.shape ∧
    (pair = (CostModel.conservativeA, CostModel.conservativeB) ∨
      fitCostModel (successes env maxSeq rssCeiling cgroupLimitBytes) = some pair) := by
  unfold runProbe at h
  obtain ⟨_, hvalid, h⟩ := Outcome.bind_eq_ok.mp h
  obtain ⟨_, htexts, h⟩ := Outcome.bind_eq_ok.mp h
  obtain ⟨final, hsweep, h⟩ := Outcome.bind_eq_ok.mp h
  obtain ⟨hsub, hdata⟩ := sweep_finished _ _ _ _ _ hsweep
  have hwarm : warmsUp env maxSeq = true := by
    unfold warmsUp
    rw [hvalid, htexts]
    rfl
  injection h with hpair
  obtain ⟨rfl, rfl⟩ := Prod.mk.inj hpair
  refine ⟨?_, ?_⟩
  · unfold submissions
    rw [if_pos hwarm, hsub, List.map_cons, List.map_map]
    rfl
  · have hsucc : final.data = successes env maxSeq rssCeiling cgroupLimitBytes := hdata
    rw [← hsucc]
    exact sweepResult_eq final.data

end

/-- what the warm-up costs under the conservative coefficients -/
theorem warmup_cost (rssCeiling : Nat) : (CostModel.conservative rssCeiling).chunkCost 1 64 = 1081344 := by
  have hbudget : (CostModel.conservative rssCeiling).chunkCost 1 64 =
      (CostModel.conservative 0).chunkCost 1 64 := rfl
  rw [hbudget]
  decide +kernel

/-- **The probe is safe exactly when the guards would let the warm-up pass.**  Every swept shape is gated,
within `max_seq`, sent at most once and in ascending order, and the result is the fit of the good replies
or the default.  The arena warm-up is sent unconditionally: it is gated exactly when the ceiling holds
1 081 344 bytes and, where there is a limit, the RSS at that moment leaves four times as much below it. -/
theorem probeSafe_iff (env : ProbeEnv) (warmupRss maxSeq rssCeiling cgroupLimitBytes : Nat)
    (hceil : rssCeiling ≤ usizeMax) (hlimit : cgroupLimitBytes ≤ usizeMax) :
    ProbeSafe env warmupRss maxSeq rssCeiling cgroupLimitBytes ↔
      (warmsUp env maxSeq = true → 1081344 ≤ rssCeiling ∧
        (0 < cgroupLimitBytes → warmupRss + 4325376 ≤ cgroupLimitBytes - cgroupLimitBytes / 8)) := by
  have hwarmup : Gated rssCeiling cgroupLimitBytes ⟨(1, 64), warmupRss⟩ ↔ 1081344 ≤ rssCeiling ∧
      (0 < cgroupLimitBytes → warmupRss + 4325376 ≤ cgroupLimitBytes - cgroupLimitBytes / 8) := by
    have hbudget : (CostModel.conservative rssCeiling).maxWorkspaceBytes = rssCeiling := rfl
    unfold Gated CostModel.fits
    dsimp only
    rw [warmup_cost, decide_eq_true_eq, hbudget]
  constructor
  · intro h hwarm
    apply hwarmup.mp
    apply h.gated
    unfold submissions
    rw [if_pos hwarm]
    exact List.mem_cons_self
  · intro h
    have hsub := probeSwept_sublist env maxSeq rssCeiling cgroupLimitBytes
    refine ⟨?_, ?_, (sweepShapes_nodup maxSeq).sublist hsub, (sweepShapes_ascending maxSeq).sublist hsub,
      sweepShapes_maxSeq maxSeq, fun pair shapes hrun => runProbe_result env _ _ _ hrun⟩
    · intro sub hmem
      unfold submissions at hmem
      split at hmem
      · rename_i hwarm
        rcases List.mem_cons.mp hmem with rfl | hmem
        · exact hwarmup.mpr (h hwarm)
        · obtain ⟨s, hs, rfl⟩ := List.mem_map.mp hmem
          exact (passes_iff_gated env hceil hlimit s).mp (sweptFrom_passes _ _ _ _ _ _ s hs)
      · cases hmem
    · intro s hs
      exact (mem_sweepShapes.mp (hsub.subset (List.mem_map_of_mem hs))).1

/-- no corpus file, an RSS of 2 000 000 000 bytes throughout, and a pool that answers with errors -/
def fullHost : ProbeEnv := ⟨none, fun _ => some 2000000000, fun _ => .error (.msg "Worker is shutting down")⟩

/-- no limit and a ceiling of 2 MiB -/
theorem probeSafe_iff_unlimited : ProbeSafe fullHost 2000000000 8192 2097152 0 :=
  (probeSafe_iff fullHost 2000000000 8192 2097152 0 (by decide) (by decide)).mpr
    fun _ => ⟨by decide, fun h => absurd h (by decide)⟩

/-- under a limit of 2 GiB the sweep sends nothing, and the warm-up is sent all the same -/
theorem warmup_not_gated :
    runProbe fullHost 8192 1073741824 2147483648 = .ok ((16384, 8), [(1, 64)]) ∧
    ¬ ProbeSafe fullHost 2000000000 8192 1073741824 2147483648 := by
  refine ⟨by decide +kernel, fun h => ?_⟩
  have hwarm : warmsUp fullHost 8192 = true := by decide +kernel
  have hsent : ⟨(1, 64), 2000000000⟩ ∈ submissions fullHost 2000000000 8192 1073741824 2147483648 := by
    unfold submissions
    rw [if_pos hwarm]
    exact List.mem_cons_self
  have hguard := (h.gated _ hsent).2 (by decide)
  rw [warmup_cost] at hguard
  exact absurd hguard (by decide)

end EmbedServer
