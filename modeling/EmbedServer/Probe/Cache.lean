import EmbedServer.Probe.Runner
import Mathlib.Tactic.NormNum

/-!
# Coefficients a probe or its cache file can deliver (`probe/cache.rs`, `probe/fit.rs`)

Reading the file and `serde_json` give a `ProbeCache` or nothing; a JSON number is always finite.

* `tryLoadProbeCache_eq_some`   a cache hit has the fingerprint asked for and positive coefficients,
                          and no upper bound;
* `runProbe_range`          a probe ends in the clamped ranges of the fit.
-/

namespace EmbedServer

structure ProbeCache where
  schemaVersion : Nat
  serverVersion : String
  model : String
  maxSeq : Nat
  arch : String
  fittedAtUnix : Nat
  a : Rat
  b : Rat
deriving DecidableEq, Repr

/-- constants of the build: `CARGO_PKG_VERSION` and `ARCH` -/
structure Build where
  version : String
  arch : String
deriving DecidableEq, Repr

/-- `file` is what the file holds, `none` if it cannot be read or parsed -/
def tryLoadProbeCache (build : Build) (file : Option ProbeCache) (modelVariant : String) (maxSeq : Nat) :
    Option (Rat × Rat) :=
  match file with
  | none => none
  | some cache =>
    if cache.schemaVersion ≠ 1 ∨ cache.serverVersion ≠ build.version ∨ cache.model ≠ modelVariant ∨
        cache.maxSeq ≠ maxSeq ∨ cache.arch ≠ build.arch then none
    else if cache.a ≤ 0 ∨ cache.b ≤ 0 then none
    else some (cache.a, cache.b)

/-- what `save_probe_cache` writes at the given time -/
def savedProbeCache (build : Build) (modelVariant : String) (maxSeq now : Nat) (a b : Rat) : ProbeCache :=
  ⟨1, build.version, modelVariant, maxSeq, build.arch, now, a, b⟩

/-- a hit is a file with the fingerprint asked for and positive coefficients -/
theorem tryLoadProbeCache_eq_some {build : Build} {file : Option ProbeCache} {modelVariant : String}
    {maxSeq : Nat} {a b : Rat} (h : tryLoadProbeCache build file modelVariant maxSeq = some (a, b)) :
    ∃ cache, file = some cache ∧
      (cache.schemaVersion = 1 ∧ cache.serverVersion = build.version ∧ cache.model = modelVariant ∧
        cache.maxSeq = maxSeq ∧ cache.arch = build.arch) ∧
      a = cache.a ∧ b = cache.b ∧ 0 < a ∧ 0 < b := by
  unfold tryLoadProbeCache at h
  split at h
  · cases h
  · rename_i cache
    split at h
    · cases h
    · rename_i hkey
      split at h
      · cases h
      · rename_i hpos
        cases h
        simp only [not_or, not_not] at hkey
        rw [not_or, not_le, not_le] at hpos
        exact ⟨cache, rfl, hkey, rfl, rfl, hpos⟩

theorem tryLoadProbeCache_pos {build : Build} {file : Option ProbeCache} {modelVariant : String}
    {maxSeq : Nat} {a b : Rat} (h : tryLoadProbeCache build file modelVariant maxSeq = some (a, b)) :
    0 < a ∧ 0 < b := by
  obtain ⟨_, _, _, _, _, hpos⟩ := tryLoadProbeCache_eq_some h
  exact hpos

/-- the file a probe has written is a hit, with its coefficients -/
theorem tryLoadProbeCache_saved (build : Build) (modelVariant : String) (maxSeq now : Nat) {a b : Rat}
    (ha : 0 < a) (hb : 0 < b) :
    tryLoadProbeCache build (some (savedProbeCache build modelVariant maxSeq now a b)) modelVariant maxSeq =
      some (a, b) := by
  have hpos : ¬ (a ≤ 0 ∨ b ≤ 0) := by
    rw [not_or, not_le, not_le]
    exact ⟨ha, hb⟩
  simp [tryLoadProbeCache, savedProbeCache, hpos]

/-! ## the fit -/

theorem clampRat_mem {x lo hi : Rat} (h : lo ≤ hi) : lo ≤ clampRat x lo hi ∧ clampRat x lo hi ≤ hi :=
  ⟨le_min (le_max_right _ _) h, min_le_right _ _⟩

/-- `a` in `[4 KiB, 256 KiB]`, `b` in `[0.01, 50 000]` -/
def InFitRange (a b : Rat) : Prop := 4096 ≤ a ∧ a ≤ 262144 ∧ 1 / 100 ≤ b ∧ b ≤ 50000

theorem conservative_inFitRange : InFitRange CostModel.conservativeA CostModel.conservativeB := by
  unfold InFitRange CostModel.conservativeA CostModel.conservativeB
  norm_num

theorem fitCostModel_range {data : List DataPoint} {a b : Rat} (h : fitCostModel data = some (a, b)) :
    InFitRange a b := by
  unfold fitCostModel at h
  split at h
  · cases h
  · dsimp only at h
    split at h
    · cases h
    · split at h
      · cases h
      · split at h
        · cases h
        · cases h
          have hA : (4096 : Rat) ≤ 262144 := by norm_num
          have hB : (1 / 100 : Rat) ≤ 50000 := by norm_num
          exact ⟨(clampRat_mem hA).1, (clampRat_mem hA).2, (clampRat_mem hB).1, (clampRat_mem hB).2⟩

theorem sweepResult_range (data : List DataPoint) :
    InFitRange (sweepResult data).1 (sweepResult data).2 := by
  unfold sweepResult
  split
  · exact conservative_inFitRange
  · split
    · exact conservative_inFitRange
    · cases hfit : fitCostModel data with
      | none => exact conservative_inFitRange
      | some p => exact fitCostModel_range hfit

theorem runProbe_range {env : ProbeEnv} {maxSeq rssCeiling cgroupLimitBytes : Nat} {a b : Rat}
    {shapes : List Shape} (h : runProbe env maxSeq rssCeiling cgroupLimitBytes = .ok ((a, b), shapes)) :
    InFitRange a b := by
  unfold runProbe at h
  obtain ⟨_, _, h⟩ := Outcome.bind_eq_ok.mp h
  obtain ⟨_, _, h⟩ := Outcome.bind_eq_ok.mp h
  obtain ⟨st, _, h⟩ := Outcome.bind_eq_ok.mp h
  have hr := sweepResult_range st.data
  injection h with hpair
  have hresult : sweepResult st.data = (a, b) := (Prod.ext_iff.mp hpair).1
  rw [hresult] at hr
  exact hr

theorem InFitRange.pos {a b : Rat} (h : InFitRange a b) : 0 < a ∧ 0 < b := by
  unfold InFitRange at h
  constructor
  · linarith [h.1]
  · linarith [h.2.2.1]

end EmbedServer
