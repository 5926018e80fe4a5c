import EmbedServer.Startup.Ready
import EmbedServer.Probe.Cache

/-!
# What the physics floor gives (`bootstrap/readiness.rs`, `binpack.rs`)

The floor is computed with the conservative coefficients, before the coefficients that will be used are
known.

* `fits_of_floor`    the floor is enough for coefficients up to the conservative ones;
* `floor_serves`     what holds of the cost model and of every chunk once the server is open;
* `floor_misses_steep_fit`   a cached fit under which no text of `max_seq` tokens fits.
-/

namespace EmbedServer.Startup

/-- the floor of the default `max_seq_length`, 640 MiB -/
theorem conservative_cost_top : (CostModel.conservative 0).chunkCost 1 8192 = 671088640 := by
  decide +kernel

theorem conservative_nonneg (n : Nat) :
    0 ≤ (CostModel.conservative n).a ∧ 0 ≤ (CostModel.conservative n).b := by
  unfold CostModel.conservative CostModel.conservativeA CostModel.conservativeB
  norm_num

/-- up to the largest `max_seq_length` the cast to `usize` keeps the cost -/
theorem physicsFloor_eq {maxSeq : Nat} (h : maxSeq ≤ 8192) :
    physicsFloor maxSeq = (CostModel.conservative 0).chunkCost 1 maxSeq := by
  obtain ⟨ha, hb⟩ := conservative_nonneg 0
  have hle := CostModel.chunkCost_mono ha hb (le_refl 1) h
  rw [conservative_cost_top] at hle
  exact Nat.mod_eq_of_lt (lt_of_le_of_lt hle (by norm_num))

/-- the floor is enough for coefficients up to the conservative ones -/
theorem fits_of_floor {cm : CostModel} {maxSeq : Nat} (hseq : maxSeq ≤ 8192)
    (ha : cm.a ≤ CostModel.conservativeA) (hb : cm.b ≤ CostModel.conservativeB)
    (hfloor : physicsFloor maxSeq ≤ cm.maxWorkspaceBytes) : cm.fits 1 maxSeq = true := by
  rw [physicsFloor_eq hseq] at hfloor
  have hcost : cm.chunkCost 1 maxSeq ≤ (CostModel.conservative 0).chunkCost 1 maxSeq :=
    CostModel.chunkCost_le_of_coeffs ha hb 1 maxSeq
  exact decide_eq_true (hcost.trans hfloor)

/-- all chunks of texts up to `maxSeq` tokens are within the budget exactly if one such text is -/
theorem all_within_iff {cm : CostModel} (ha : 0 ≤ cm.a) (hb : 0 ≤ cm.b) (maxSeq : Nat) :
    cm.fits 1 maxSeq = true ↔ ∀ S lens, (∀ l ∈ lens, l ≤ maxSeq) → ∀ c ∈ binPack S lens cm,
      cm.chunkCost c.length (chunkSeq lens c) ≤ cm.maxWorkspaceBytes := by
  constructor
  · intro hfit S lens hl c hc
    exact of_decide_eq_true (binPack_within ha hb hfit hl hc)
  · intro h
    have hone : [0] ∈ binPack .insertion [maxSeq] cm := by
      rw [binPack_singleton]
      exact List.mem_singleton_self _
    have hcost := h .insertion [maxSeq] (fun l hl => (List.mem_singleton.mp hl).le) [0] hone
    exact decide_eq_true hcost

section
variable {strategy : PanicStrategy} {cfg : StartupConfig} {world : World} {build : Build}
  {file : Option ProbeCache} {modelVariant : String}

/-- the model of the probe path or of a cache hit -/
theorem Chosen.fitted {cm : CostModel} {st : ProbeStatus} (h : Chosen cfg world cm st)
    (hcache : world.cached = tryLoadProbeCache build file modelVariant cfg.maxSeqLength)
    (ho : cfg.costModelOverride = none) :
    (0 < cm.a ∧ 0 < cm.b) ∧ cm.maxWorkspaceBytes = cfg.perWorkerWorkspace world := by
  cases h with
  | override cm h =>
    rw [ho] at h
    cases h
  | cached a b _ _ hc =>
    rw [hcache] at hc
    exact ⟨tryLoadProbeCache_pos hc, rfl⟩
  | probed a b shapes _ hr => exact ⟨(runProbe_range hr).pos, rfl⟩

/-- **What the floor gives** when the server opens without an override: the budget covers one text of
`max_seq_length` tokens at the conservative coefficients, hence under every smaller fit; a chunk of
several texts is always within the budget; and chunks of one text are, exactly if the installed model
fits a text of `max_seq_length` tokens. -/
theorem floor_serves {s0 : Server} {t : Site} (hboot : boot cfg = some s0)
    (hcache : world.cached = tryLoadProbeCache build file modelVariant cfg.maxSeqLength)
    (ho : cfg.costModelOverride = none)
    (h : Reachable (siteStep strategy cfg world) (Site.start s0) t) (hr : t.server.ready = true) :
    physicsFloor cfg.maxSeqLength ≤ t.server.costModel.maxWorkspaceBytes ∧
    (cfg.maxSeqLength ≤ 8192 → t.server.costModel.a ≤ CostModel.conservativeA →
      t.server.costModel.b ≤ CostModel.conservativeB →
      t.server.costModel.fits 1 cfg.maxSeqLength = true) ∧
    (∀ S lens, ∀ c ∈ binPack S lens t.server.costModel, c.length ≠ 1 →
      t.server.costModel.chunkCost c.length (chunkSeq lens c) ≤ t.server.costModel.maxWorkspaceBytes) ∧
    (t.server.costModel.fits 1 cfg.maxSeqLength = true ↔
      ∀ S lens, (∀ l ∈ lens, l ≤ cfg.maxSeqLength) → ∀ c ∈ binPack S lens t.server.costModel,
        t.server.costModel.chunkCost c.length (chunkSeq lens c) ≤
          t.server.costModel.maxWorkspaceBytes) := by
  have hopen := (reach_siteInv hboot h).opened hr
  obtain ⟨⟨ha, hb⟩, hmax⟩ := hopen.chosen.fitted hcache ho
  have hfloor : physicsFloor cfg.maxSeqLength ≤ t.server.costModel.maxWorkspaceBytes := by
    rw [hmax]
    exact (path_of_ne_exits hopen.path).2
  refine ⟨hfloor, fun hseq hA hB => fits_of_floor hseq hA hB hfloor, ?_, all_within_iff ha.le hb.le _⟩
  intro S lens c hc hmany
  rcases binPack_fits hc with hone | hfit
  · exact absurd hone hmany
  · exact of_decide_eq_true hfit

end

/-! ## a cached fit -/

/-- two CPU workers at the default `max_seq_length` -/
def twoLongWorkers : StartupConfig := { twoWorkers none with maxSeqLength := 8192 }

/-- the file of a fit with the given quadratic coefficient, at the lower clamp of the linear one -/
def fitFile (b : Rat) : ProbeCache := savedProbeCache ⟨"0.1.0", "x86_64"⟩ "fp32" 8192 0 4096 b

/-- 8 GiB, models of 1 GiB, and a cache file -/
def cachedHost (b : Rat) : World :=
  { roomyHost with
    availableBytes := 8 * 1024 ^ 3
    cached := tryLoadProbeCache ⟨"0.1.0", "x86_64"⟩ (some (fitFile b)) "fp32" 8192 }

/-- a fit below the conservative coefficients -/
theorem floor_serves_flatFit :
    ∃ t, Reachable (siteStep .abort twoLongWorkers (cachedHost 2)) (Site.start (booted twoLongWorkers)) t ∧
      t.server.ready = true ∧ t.server.costModel.fits 1 8192 = true := by
  obtain ⟨t, hr, hready, hA, hB⟩ :
      ∃ t, Reachable (siteStep .abort twoLongWorkers (cachedHost 2)) (Site.start (booted twoLongWorkers)) t ∧
        t.server.ready = true ∧ t.server.costModel.a ≤ CostModel.conservativeA ∧
        t.server.costModel.b ≤ CostModel.conservativeB :=
    Reach.exists_of_run (List.replicate 7 (.server .main)) (fun _ _ _ => trivial) (by decide +kernel)
  have hcache : (cachedHost 2).cached = tryLoadProbeCache ⟨"0.1.0", "x86_64"⟩ (some (fitFile 2)) "fp32"
      twoLongWorkers.maxSeqLength := rfl
  have hserves := floor_serves rfl hcache rfl hr hready
  exact ⟨t, hr, hready, hserves.2.1 (by decide) hA hB⟩

/-- **A steeper fit passes the floor and does not fit one text**: the budget is three times the floor. -/
theorem floor_misses_steep_fit :
    ∃ t, Reachable (siteStep .abort twoLongWorkers (cachedHost 32)) (Site.start (booted twoLongWorkers)) t ∧
      t.server.ready = true ∧ t.server.probeStatus = .cacheHit ∧
      t.server.costModel.fits 1 8192 = false ∧
      ∃ c ∈ binPack .insertion [8192] t.server.costModel,
        t.server.costModel.maxWorkspaceBytes <
          t.server.costModel.chunkCost c.length (chunkSeq [8192] c) := by
  obtain ⟨t, hr, hready, hst, hfit⟩ :
      ∃ t, Reachable (siteStep .abort twoLongWorkers (cachedHost 32)) (Site.start (booted twoLongWorkers)) t ∧
        t.server.ready = true ∧ t.server.probeStatus = .cacheHit ∧
        t.server.costModel.fits 1 8192 = false :=
    Reach.exists_of_run (List.replicate 7 (.server .main)) (fun _ _ _ => trivial) (by decide +kernel)
  refine ⟨t, hr, hready, hst, hfit, [0], ?_, ?_⟩
  · rw [binPack_singleton]
    exact List.mem_singleton_self _
  · exact Nat.lt_of_not_le (of_decide_eq_false hfit)

end EmbedServer.Startup
