import EmbedServer.Probe.Runner
import Mathlib.Algebra.Group.Action.Defs
import Mathlib.Algebra.Order.BigOperators.Group.List
import Mathlib.Tactic.Linarith

/-!
# Workspace budget per worker (`bootstrap/budget.rs`)

The products of floats are exact rationals here; the casts and the integer operations saturate as in
the source.

* `perWorker_le`, `perWorker_mono`, `perWorker_anti`   a worker's share, and how it moves;
* `budget_safe`   a positive share means that nothing saturated, and that all workers at their share,
                  the weights and the headroom are within the memory together.
-/

namespace EmbedServer

/-- 256 MiB -/
def osHeadroomBytes : Nat := 256 * 1024 * 1024

/-- `x as usize` for a float -/
def castUsize (x : Rat) : Nat := min x.floor.toNat usizeMax

def satAddUsize (x y : Nat) : Nat := min (x + y) usizeMax
def satMulUsize (x y : Nat) : Nat := min (x * y) usizeMax

/-- `(per_worker_workspace, worst_case_peak, utilization_pct)`; the product and the quotients are exact,
where the source rounds each to a double -/
def computeWorkspaceBudget (availableBytes nWorkers modelRssPerWorker : Nat) (safetyFactor : Rat) :
    Nat × Nat × Rat :=
  let totalWorkspace := availableBytes - satMulUsize nWorkers modelRssPerWorker - osHeadroomBytes
  let perWorkerWorkspace := castUsize (totalWorkspace * safetyFactor / nWorkers)
  let worstCasePeak := satAddUsize (satAddUsize (satMulUsize nWorkers perWorkerWorkspace)
    (satMulUsize nWorkers modelRssPerWorker)) osHeadroomBytes
  let utilizationPct : Rat :=
    if availableBytes > 0 then (worstCasePeak : Rat) / availableBytes * 100 else 0
  (perWorkerWorkspace, worstCasePeak, utilizationPct)

/-- workspace of one text at `max_seq_length` under the conservative coefficients -/
def physicsFloor (maxSeq : Nat) : Nat := (CostModel.conservative 0).chunkCostUsize 1 maxSeq

/-! ## casts and saturation -/

theorem castUsize_mono {x y : Rat} (h : x ≤ y) : castUsize x ≤ castUsize y :=
  min_le_min_right _ (Int.toNat_le_toNat (Rat.floor_monotone h))

theorem castUsize_eq {x : Rat} (h : castUsize x < usizeMax) : castUsize x = x.floor.toNat := by
  unfold castUsize at h ⊢
  omega

/-- the fraction and the excess are dropped -/
theorem castUsize_le {x : Rat} (h : 0 ≤ x) : (castUsize x : Rat) ≤ x := by
  have h1 : castUsize x ≤ x.floor.toNat := min_le_left _ _
  have h2 : ((x.floor.toNat : Int) : Rat) = (x.floor : Rat) := by
    rw [Int.toNat_of_nonneg (Rat.le_floor_iff.mpr (by exact_mod_cast h))]
  calc (castUsize x : Rat) ≤ (x.floor.toNat : Rat) := by exact_mod_cast h1
    _ = (x.floor : Rat) := by exact_mod_cast h2
    _ ≤ x := Rat.floor_le x

theorem satMulUsize_mono {x x' y y' : Nat} (hx : x ≤ x') (hy : y ≤ y') :
    satMulUsize x y ≤ satMulUsize x' y' :=
  min_le_min_right _ (Nat.mul_le_mul hx hy)

/-- below the limit nothing saturated -/
theorem satMulUsize_eq {x y : Nat} (h : satMulUsize x y < usizeMax) : satMulUsize x y = x * y := by
  unfold satMulUsize at h ⊢
  omega

theorem satMulUsize_of_le {x y : Nat} (h : x * y ≤ usizeMax) : satMulUsize x y = x * y := min_eq_left h

theorem satAddUsize_of_le {x y : Nat} (h : x + y ≤ usizeMax) : satAddUsize x y = x + y := min_eq_left h

/-! ## the share of a worker -/

section
variable {avail avail' n n' rss rss' : Nat} {safety safety' : Rat}

/-- what the workers share: the memory without the weights and the headroom -/
def totalWorkspace (avail n rss : Nat) : Nat := avail - satMulUsize n rss - osHeadroomBytes

/-- `per_worker_workspace` -/
def perWorker (avail n rss : Nat) (safety : Rat) : Nat := (computeWorkspaceBudget avail n rss safety).1

/-- `worst_case_peak` -/
def worstPeak (avail n rss : Nat) (safety : Rat) : Nat := (computeWorkspaceBudget avail n rss safety).2.1

theorem perWorker_eq : perWorker avail n rss safety =
    castUsize (totalWorkspace avail n rss * safety / n) := rfl

theorem totalWorkspace_mono (ha : avail ≤ avail') (hn : n' ≤ n) (hr : rss' ≤ rss) :
    totalWorkspace avail n rss ≤ totalWorkspace avail' n' rss' := by
  have hsat : satMulUsize n' rss' ≤ satMulUsize n rss := satMulUsize_mono hn hr
  unfold totalWorkspace
  omega

theorem perWorker_mono (hs : 0 ≤ safety) (ha : avail ≤ avail') (hss : safety ≤ safety') (hr : rss' ≤ rss) :
    perWorker avail n rss safety ≤ perWorker avail' n rss' safety' := by
  rw [perWorker_eq, perWorker_eq]
  apply castUsize_mono
  have ht : (totalWorkspace avail n rss : Rat) ≤ totalWorkspace avail' n rss' := by
    exact_mod_cast totalWorkspace_mono ha le_rfl hr
  generalize totalWorkspace avail n rss = total at ht ⊢
  generalize totalWorkspace avail' n rss' = total' at ht ⊢
  gcongr

theorem perWorker_anti (hs : 0 ≤ safety) (hn : 1 ≤ n) (hnn : n ≤ n') :
    perWorker avail n' rss safety ≤ perWorker avail n rss safety := by
  rw [perWorker_eq, perWorker_eq]
  apply castUsize_mono
  have hpos : (0 : Rat) < n := by exact_mod_cast hn
  have ht : (totalWorkspace avail n' rss : Rat) ≤ totalWorkspace avail n rss := by
    exact_mod_cast totalWorkspace_mono le_rfl hnn le_rfl
  generalize totalWorkspace avail n' rss = total' at ht ⊢
  generalize totalWorkspace avail n rss = total at ht ⊢
  gcongr

/-- the shares together are within the total -/
theorem perWorker_le (hn : 1 ≤ n) (hs0 : 0 ≤ safety) (hs1 : safety ≤ 1) :
    n * perWorker avail n rss safety ≤ totalWorkspace avail n rss := by
  have hpos : (0 : Rat) < n := by exact_mod_cast hn
  rw [perWorker_eq]
  generalize totalWorkspace avail n rss = total
  have hle : (castUsize (total * safety / n) : Rat) ≤ total * safety / n := castUsize_le (by positivity)
  generalize castUsize (total * safety / n) = share at hle ⊢
  have hmul : (n : Rat) * share ≤ total :=
    calc (n : Rat) * share ≤ n * (total * safety / n) := by gcongr
      _ = total * safety := by field_simp
      _ ≤ total * 1 := by gcongr
      _ = total := mul_one _
  exact_mod_cast hmul

/-- a positive share: weights and headroom are below the memory -/
theorem room_of_pos (havail : avail ≤ usizeMax) (h : 0 < perWorker avail n rss safety) :
    satMulUsize n rss = n * rss ∧ n * rss + osHeadroomBytes ≤ avail := by
  have ht : 0 < totalWorkspace avail n rss := by
    by_contra hzero
    have e : totalWorkspace avail n rss = 0 := by omega
    rw [perWorker_eq, e] at h
    have hcast : castUsize ((0 : Nat) * safety / n) = 0 := by
      rw [Nat.cast_zero, zero_mul, zero_div]
      rfl
    omega
  have hlt : satMulUsize n rss + osHeadroomBytes < avail := by
    unfold totalWorkspace at ht
    omega
  have hsat : satMulUsize n rss = n * rss := satMulUsize_eq (by omega)
  exact ⟨hsat, by omega⟩

/-- chunks on distinct workers, each within the share -/
theorem sum_chunkCost_le (chunks : List (Nat × Nat)) (cm : CostModel)
    (h : ∀ x ∈ chunks, cm.fits x.1 x.2 = true) :
    (chunks.map fun x => cm.chunkCost x.1 x.2).sum ≤ chunks.length * cm.maxWorkspaceBytes := by
  have hsum := List.sum_le_card_nsmul (chunks.map fun x => cm.chunkCost x.1 x.2) cm.maxWorkspaceBytes
  rw [List.length_map, smul_eq_mul] at hsum
  apply hsum
  intro k hk
  obtain ⟨x, hx, rfl⟩ := List.mem_map.mp hk
  exact of_decide_eq_true (h x hx)

variable (avail n rss safety) in
/-- **The budget is safe**: a positive share saturates nowhere, the peak is the exact sum and within the
memory, and so is any set of chunks that fit, one on each worker; more memory or a larger factor never
lowers the share, more workers or heavier weights never raise it. -/
theorem budget_safe (havail : avail ≤ usizeMax) (hn : 1 ≤ n) (hs0 : 0 < safety) (hs1 : safety ≤ 1) :
    (0 < perWorker avail n rss safety →
      satMulUsize n rss = n * rss ∧
      castUsize (totalWorkspace avail n rss * safety / n) =
        (totalWorkspace avail n rss * safety / n : Rat).floor.toNat ∧
      satMulUsize n (perWorker avail n rss safety) = n * perWorker avail n rss safety ∧
      worstPeak avail n rss safety = n * perWorker avail n rss safety + n * rss + osHeadroomBytes ∧
      n * perWorker avail n rss safety + n * rss + osHeadroomBytes ≤ avail ∧
      ∀ (a b : Rat) (chunks : List (Nat × Nat)), chunks.length ≤ n →
        (∀ x ∈ chunks, CostModel.fits ⟨a, b, perWorker avail n rss safety⟩ x.1 x.2 = true) →
        (chunks.map fun x => CostModel.chunkCost ⟨a, b, perWorker avail n rss safety⟩ x.1 x.2).sum +
          n * rss + osHeadroomBytes ≤ avail) ∧
    (∀ avail', avail ≤ avail' → perWorker avail n rss safety ≤ perWorker avail' n rss safety) ∧
    (∀ safety', safety ≤ safety' → perWorker avail n rss safety ≤ perWorker avail n rss safety') ∧
    (∀ n', n ≤ n' → perWorker avail n' rss safety ≤ perWorker avail n rss safety) ∧
    (∀ rss', rss ≤ rss' → perWorker avail n rss' safety ≤ perWorker avail n rss safety) := by
  refine ⟨fun hpos => ?_, fun avail' h => perWorker_mono hs0.le h le_rfl le_rfl,
    fun safety' h => perWorker_mono hs0.le le_rfl h le_rfl,
    fun n' h => perWorker_anti hs0.le hn h, fun rss' h => perWorker_mono hs0.le le_rfl le_rfl h⟩
  obtain ⟨hsat, hroom⟩ := room_of_pos havail hpos
  have htotal : totalWorkspace avail n rss = avail - n * rss - osHeadroomBytes := by
    rw [totalWorkspace, hsat]
  have hshare : n * perWorker avail n rss safety ≤ totalWorkspace avail n rss :=
    perWorker_le hn hs0.le hs1
  have hle : n * perWorker avail n rss safety + n * rss + osHeadroomBytes ≤ avail := by omega
  have hsat' : satMulUsize n (perWorker avail n rss safety) = n * perWorker avail n rss safety :=
    satMulUsize_of_le (by omega)
  refine ⟨hsat, ?_, hsat', ?_, hle, fun a b chunks hlen hfit => ?_⟩
  -- the cast did not saturate: the share is below the limit
  · have hone : perWorker avail n rss safety ≤ n * perWorker avail n rss safety :=
      Nat.le_mul_of_pos_left _ hn
    have hhead : 0 < osHeadroomBytes := Nat.zero_lt_succ _
    have hlt : perWorker avail n rss safety < usizeMax := by omega
    exact castUsize_eq hlt
  · show satAddUsize (satAddUsize (satMulUsize n (perWorker avail n rss safety)) (satMulUsize n rss))
      osHeadroomBytes = _
    have h1 : n * perWorker avail n rss safety + n * rss ≤ usizeMax := by omega
    have h2 : n * perWorker avail n rss safety + n * rss + osHeadroomBytes ≤ usizeMax := by omega
    rw [hsat', hsat, satAddUsize_of_le h1, satAddUsize_of_le h2]
  · have hsum := sum_chunkCost_le chunks ⟨a, b, perWorker avail n rss safety⟩ hfit
    have hmul : chunks.length * perWorker avail n rss safety ≤ n * perWorker avail n rss safety :=
      Nat.mul_le_mul_right _ hlen
    dsimp only at hsum
    omega

end

/-- the production machine of the tests: 28 GiB, seven workers of 1.08 GB, factor 0.7 -/
theorem budget_safe_sevenWorkers :
    7 * perWorker (28 * 1024 ^ 3) 7 1080000000 (7 / 10) + 7 * 1080000000 + osHeadroomBytes ≤ 28 * 1024 ^ 3 :=
  ((budget_safe (28 * 1024 ^ 3) 7 1080000000 (7 / 10) (by decide) (by decide) (by norm_num)
    (by norm_num)).1 (by decide +kernel)).2.2.2.2.1

end EmbedServer
