import EmbedServer.Binpack.Optimal
import EmbedServer.Worker.Retry

/-!
# What the retry makes of the chunks (`worker/trt_retry.rs`)

The retry changes nothing but the packing budget: half of it, and at least 1 MiB.

* below the halved budget the packing is the same, chunk by chunk (`binPack_same`), so a request whose
  dearest chunk is within it repeats exactly the chunks that failed;
* above it the dearest chunk comes back smaller;
* a budget under 1 MiB is RAISED by the floor.

`retry_shrinks` says exactly when the second attempt is cheaper, and how often the embed function is
called.
-/

namespace EmbedServer

/-! ## how often the embed function is called -/

section
variable {σ α : Type}

/-- the embed function with the cost models it is called with written down -/
def recorded (embedFn : CostModel → Exec σ AnyError α) (cm : CostModel) :
    Exec (σ × List CostModel) AnyError α := fun s =>
  ((embedFn cm s.1).1, (embedFn cm s.1).2, s.2 ++ [cm])

/-- the calls of one run of the retry -/
def retryCalls (embedFn : CostModel → Exec σ AnyError α) (cm : CostModel) (s : σ) : List CostModel :=
  (embedWithTrtRetry (recorded embedFn) cm (s, [])).2.2

/-- a second call, under the halved budget, exactly after a JIT workspace overflow -/
theorem retryCalls_eq (embedFn : CostModel → Exec σ AnyError α) (cm : CostModel) (s : σ) :
    retryCalls embedFn cm s =
      match (embedFn cm s).1 with
      | .err e => if isTrtJitOom e then [cm, cm.halved] else [cm]
      | _ => [cm] := by
  unfold retryCalls embedWithTrtRetry recorded
  dsimp only
  cases (embedFn cm s).1 with
  | ok v => rfl
  | panic msg => rfl
  | err e =>
    dsimp only
    split
    · rfl
    · rfl

end

/-! ## the two packings -/

section
variable {S : UnstableSort} {lens : List Nat} {cm : CostModel}

/-- what a chunk of texts costs -/
def costOf (cm : CostModel) (lens c : List Nat) : Nat := cm.chunkCost c.length (chunkSeq lens c)

/-- a single text costs no more than the chunk it is in -/
theorem cost_one_le (ha : 0 ≤ cm.a) (hb : 0 ≤ cm.b) {g : List Nat} {i : Nat} (hi : i ∈ g) :
    cm.chunkCost 1 (seqAt lens i) ≤ costOf cm lens g :=
  CostModel.chunkCost_mono ha hb (List.length_pos_of_mem hi) (le_top (List.mem_map_of_mem hi))

/-- every chunk of a packing is one text of the request or within the budget -/
theorem binPack_one_or_within {budget : Nat} {d : List Nat}
    (hd : d ∈ binPack S lens { cm with maxWorkspaceBytes := budget }) :
    (∃ i < lens.length, costOf cm lens d = cm.chunkCost 1 (seqAt lens i)) ∨ costOf cm lens d ≤ budget := by
  rcases binPack_fits hd with hone | hfit
  · obtain ⟨i, rfl⟩ := List.length_eq_one_iff.mp hone
    refine .inl ⟨i, binPack_lt hd List.mem_cons_self, ?_⟩
    simp [costOf, chunkSeq]
  · exact .inr (of_decide_eq_true hfit)

/-- the dearest chunk of the first attempt costs at least any single text -/
theorem cost_one_le_dearest (ha : 0 ≤ cm.a) (hb : 0 ≤ cm.b) {peak : Nat}
    (hmax : ∀ g ∈ binPack S lens cm, costOf cm lens g ≤ peak) {i : Nat} (hi : i < lens.length) :
    cm.chunkCost 1 (seqAt lens i) ≤ peak := by
  have hmem : i ∈ (binPack S lens cm).flatten :=
    (binPack_perm S lens cm).mem_iff.mpr (List.mem_range.mpr hi)
  obtain ⟨g, hg, hig⟩ := List.mem_flatten.mp hmem
  exact (cost_one_le ha hb hig).trans (hmax g hg)

/-- a dearest chunk within the smaller budget: the packing stays as it is -/
theorem binPack_unchanged (ha : 0 ≤ cm.a) (hb : 0 ≤ cm.b) {budget peak : Nat}
    (hle : budget ≤ cm.maxWorkspaceBytes) (hmax : ∀ g ∈ binPack S lens cm, costOf cm lens g ≤ peak)
    (hpeak : peak ≤ budget) : binPack S lens { cm with maxWorkspaceBytes := budget } = binPack S lens cm :=
  binPack_same S ha hb hle fun g hg => .inr ((hmax g hg).trans hpeak)

theorem halved_le (h : 1024 * 1024 ≤ cm.maxWorkspaceBytes) : cm.halved.maxWorkspaceBytes ≤ cm.maxWorkspaceBytes :=
  max_le (Nat.div_le_self _ 2) h

/-- a smaller budget makes no chunk dearer -/
theorem repack_le (ha : 0 ≤ cm.a) (hb : 0 ≤ cm.b) {budget peak : Nat}
    (hle : budget ≤ cm.maxWorkspaceBytes) (hmax : ∀ g ∈ binPack S lens cm, costOf cm lens g ≤ peak)
    {d : List Nat} (hd : d ∈ binPack S lens { cm with maxWorkspaceBytes := budget }) :
    costOf cm lens d ≤ peak := by
  rcases binPack_one_or_within hd with ⟨i, hi, hone⟩ | hwithin
  · rw [hone]
    exact cost_one_le_dearest ha hb hmax hi
  · by_cases hpeak : peak ≤ budget
    · rw [binPack_unchanged ha hb hle hmax hpeak] at hd
      exact hmax d hd
    · omega

/-- under any other budget, all chunks become cheaper than a dearest chunk of several texts exactly when
that chunk is over the new budget -/
theorem repack_lt_iff (ha : 0 ≤ cm.a) (hb : 0 ≤ cm.b) {budget : Nat} {c : List Nat}
    (hmem : c ∈ binPack S lens cm) (hmax : ∀ g ∈ binPack S lens cm, costOf cm lens g ≤ costOf cm lens c)
    (htwo : 2 ≤ c.length) (halone : ∀ i < lens.length, cm.chunkCost 1 (seqAt lens i) < costOf cm lens c) :
    (∀ d ∈ binPack S lens { cm with maxWorkspaceBytes := budget }, costOf cm lens d < costOf cm lens c) ↔
      budget < costOf cm lens c := by
  constructor
  · intro hall
    by_contra hover
    -- otherwise the two packings are the same, and `c` would be cheaper than itself
    have hsame : binPack S lens { cm with maxWorkspaceBytes := budget } = binPack S lens cm := by
      by_cases hle : budget ≤ cm.maxWorkspaceBytes
      · exact binPack_unchanged ha hb hle hmax (by omega)
      · have hfirst : costOf cm lens c ≤ cm.maxWorkspaceBytes := by
          rcases binPack_fits hmem with hone | hfit
          · omega
          · exact of_decide_eq_true hfit
        let wide : CostModel := { cm with maxWorkspaceBytes := budget }
        have hback := @binPack_unchanged S lens wide ha hb cm.maxWorkspaceBytes (costOf cm lens c)
          (Nat.le_of_lt (Nat.lt_of_not_le hle)) (fun d hd => Nat.le_of_lt (hall d hd)) hfirst
        exact hback.symm
    have hself := hall c (by rw [hsame]; exact hmem)
    omega
  · intro hover d hd
    rcases binPack_one_or_within hd with ⟨i, hi, hone⟩ | hwithin
    · rw [hone]
      exact halone i hi
    · omega

end

/-- **What the retry does.**  The embed function is called at most twice, once when the first error is not
a JIT workspace overflow.  From a budget of 1 MiB on, no chunk of the second attempt is dearer than the
dearest of the first, and from a smaller one none is dearer than that and 1 MiB.  If the dearest chunk
holds several texts and is dearer than each text alone, every chunk of the second attempt is cheaper
exactly when that chunk is over the halved budget; if it is within it, the second attempt packs the same
chunks again. -/
theorem retry_shrinks {σ α : Type} (embedFn : CostModel → Exec σ AnyError α) (s : σ) (S : UnstableSort)
    (lens : List Nat) (cm : CostModel) (ha : 0 < cm.a) (hb : 0 < cm.b) :
    (retryCalls embedFn cm s).length ≤ 2 ∧
    (∀ e, (embedFn cm s).1 = .err e → isTrtJitOom e = false → retryCalls embedFn cm s = [cm]) ∧
    ∀ e, (embedFn cm s).1 = .err e → isTrtJitOom e = true →
      retryCalls embedFn cm s = [cm, cm.halved] ∧
      ∀ c ∈ binPack S lens cm, (∀ g ∈ binPack S lens cm, costOf cm lens g ≤ costOf cm lens c) →
        (1024 * 1024 ≤ cm.maxWorkspaceBytes →
          ∀ d ∈ binPack S lens cm.halved, costOf cm lens d ≤ costOf cm lens c) ∧
        (∀ d ∈ binPack S lens cm.halved, costOf cm lens d ≤ max (costOf cm lens c) (1024 * 1024)) ∧
        (2 ≤ c.length → (∀ i < lens.length, cm.chunkCost 1 (seqAt lens i) < costOf cm lens c) →
          ((∀ d ∈ binPack S lens cm.halved, costOf cm lens d < costOf cm lens c) ↔
            cm.halved.maxWorkspaceBytes < costOf cm lens c)) ∧
        (1024 * 1024 ≤ cm.maxWorkspaceBytes → costOf cm lens c ≤ cm.halved.maxWorkspaceBytes →
          binPack S lens cm.halved = binPack S lens cm) := by
  have hcalls := retryCalls_eq embedFn cm s
  refine ⟨?_, ?_, ?_⟩
  · rw [hcalls]
    split
    · split
      · exact Nat.le_refl 2
      · exact Nat.le_succ 1
    · exact Nat.le_succ 1
  · intro e he hno
    rw [hcalls, he]
    simp [hno]
  · intro e he hyes
    refine ⟨by rw [hcalls, he]; simp [hyes], ?_⟩
    intro c hmem hmax
    refine ⟨?_, ?_, ?_, ?_⟩
    · intro hfloor d hd
      exact repack_le ha.le hb.le (halved_le hfloor) hmax hd
    · intro d hd
      by_cases hfloor : 1024 * 1024 ≤ cm.maxWorkspaceBytes
      · exact (repack_le ha.le hb.le (halved_le hfloor) hmax hd).trans (le_max_left _ _)
      · rcases binPack_one_or_within hd with ⟨i, hi, hone⟩ | hwithin
        · rw [hone]
          exact (cost_one_le_dearest ha.le hb.le hmax hi).trans (le_max_left _ _)
        · -- under the floor the halved budget is 1 MiB
          have hone : cm.halved.maxWorkspaceBytes = 1024 * 1024 := by
            show max (cm.maxWorkspaceBytes / 2) (1024 * 1024) = 1024 * 1024
            omega
          exact (hwithin.trans (le_of_eq hone)).trans (le_max_right _ _)
    · intro htwo halone
      exact repack_lt_iff ha.le hb.le hmem hmax htwo halone
    · intro hfloor hwithin
      exact binPack_unchanged ha.le hb.le (halved_le hfloor) hmax hwithin

/-- an embed function whose every call overflows the JIT workspace -/
def overflowing : CostModel → Exec Unit AnyError Unit := fun _ s => (.err (ortErr "User allocator error"), s)

/-- two texts of 1024 tokens in one chunk over the halved budget: the retry splits them -/
theorem retry_shrinks_two :
    binPack UnstableSort.insertion [1024, 1024] ⟨1, 1, 4194304⟩ = [[0, 1]] ∧
    ∀ d ∈ binPack UnstableSort.insertion [1024, 1024] (CostModel.halved ⟨1, 1, 4194304⟩),
      costOf ⟨1, 1, 4194304⟩ [1024, 1024] d < 2099200 := by
  have hpack : binPack UnstableSort.insertion [1024, 1024] ⟨1, 1, 4194304⟩ = [[0, 1]] := by decide +kernel
  have hcost : costOf ⟨1, 1, 4194304⟩ [1024, 1024] [0, 1] = 2099200 := by decide +kernel
  have halone : ∀ i < [1024, 1024].length,
      CostModel.chunkCost ⟨1, 1, 4194304⟩ 1 (seqAt [1024, 1024] i) < 2099200 := by decide +kernel
  obtain ⟨-, hchunks⟩ := (retry_shrinks overflowing () UnstableSort.insertion [1024, 1024]
    ⟨1, 1, 4194304⟩ (by decide) (by decide)).2.2 _ rfl (by decide +kernel)
  rw [hpack] at hchunks
  obtain ⟨-, -, hlt, -⟩ := hchunks [0, 1] List.mem_cons_self fun g hg => by
    rw [List.mem_singleton.mp hg]
  rw [hcost] at hlt
  exact ⟨hpack, (hlt (by decide) halone).mpr (by decide)⟩

/-- the conservative coefficients under the default budget of 2 GiB -/
def defaultModel : CostModel := .conservative CostModel.defaultMaxWorkspace

/-- two texts of 10 tokens under the default budget fail as one chunk and are packed into the same chunk
again; under a budget of 0 two chunks of one text become one chunk of both -/
theorem retry_repeats_chunk :
    retryCalls overflowing defaultModel () = [defaultModel, defaultModel.halved] ∧
    ¬ (∀ c ∈ binPack UnstableSort.insertion [10, 10] defaultModel,
      (∀ g ∈ binPack UnstableSort.insertion [10, 10] defaultModel,
        costOf defaultModel [10, 10] g ≤ costOf defaultModel [10, 10] c) →
      2 ≤ c.length → (∀ i < 2, defaultModel.chunkCost 1 (seqAt [10, 10] i) < costOf defaultModel [10, 10] c) →
      ∀ d ∈ binPack UnstableSort.insertion [10, 10] defaultModel.halved,
        costOf defaultModel [10, 10] d < costOf defaultModel [10, 10] c) ∧
    ¬ (∀ c ∈ binPack UnstableSort.insertion [10, 10] (.conservative 0),
      (∀ g ∈ binPack UnstableSort.insertion [10, 10] (.conservative 0),
        costOf (.conservative 0) [10, 10] g ≤ costOf (.conservative 0) [10, 10] c) →
      ∀ d ∈ binPack UnstableSort.insertion [10, 10] (CostModel.conservative 0).halved,
        costOf (.conservative 0) [10, 10] d ≤ costOf (.conservative 0) [10, 10] c) := by
  decide +kernel

end EmbedServer
