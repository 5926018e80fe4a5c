import EmbedServer.Startup.Bootstrap
import EmbedServer.Worker.Coverage
import Mathlib.Data.Int.CardIntervalMod

/-!
# Sharded warmup (`trt_warmup.rs`, `pool.rs`)

Worker `k` of `n` prewarms the positions `k, k + n, k + 2n, …` of the warmup list.

* `shard_covers`, `length_shard`   the shards hold every position once, and are of equal size up to one;
* `deviceId_inj`                   after the clamp no two workers share a device;
* `ceiling_eq_of_settled`          once every `fetch_max` is made, the ceiling is the longest sequence
                                   that ran;
* `sharded_warmup_covers`          all of it, for the pool.
-/

set_option linter.unusedSectionVars false

namespace EmbedServer

/-! ## the partition -/

/-- positions of worker `k` of `n` in a list of length `len` -/
def shardPositions (len k n : Nat) : List Nat := (List.range len).filter fun i => i % n == k

theorem mem_shardPositions {len k n i : Nat} : i ∈ shardPositions len k n ↔ i < len ∧ i % n = k := by
  simp [shardPositions]

/-- a shard is the list at its positions, in list order -/
theorem shardShapes_eq (shapes : List Shape) {k n : Nat} (hk : k < n) :
    shardShapes shapes k n = (shardPositions shapes.length k n).filterMap fun i => shapes[i]? := by
  have hat : ∀ p ∈ shapes.zipIdx, shapes[p.2]? = some p.1 := fun p hp => List.mem_zipIdx_iff_getElem?.mp hp
  have hpos : shardPositions shapes.length k n =
      (shapes.zipIdx.filter fun p => p.2 % n == k).map Prod.snd := by
    rw [shardPositions, List.range_eq_range', ← List.zipIdx_map_snd 0 shapes, List.filter_map]
    rfl
  have hsel : (shardPositions shapes.length k n).filterMap (fun i => shapes[i]?) =
      (shapes.zipIdx.filter fun p => p.2 % n == k).map Prod.fst := by
    rw [hpos, List.filterMap_map, ← List.filterMap_eq_map]
    apply List.filterMap_congr
    intro p hp
    exact hat p (List.mem_of_mem_filter hp)
  rw [hsel, shardShapes]
  split
  · rename_i hn
    have hone : n = 1 := by omega
    have hzero : k = 0 := by omega
    subst hone hzero
    have hall : (shapes.zipIdx.filter fun p => p.2 % 1 == 0) = shapes.zipIdx := by
      apply List.filter_eq_self.mpr
      intro p _
      simp [Nat.mod_one]
    rw [hall, List.zipIdx_map_fst]
  · rfl

/-- every position is in one shard -/
theorem shard_covers {len n i : Nat} (hn : 1 ≤ n) (hi : i < len) :
    ∃! k, k < n ∧ i ∈ shardPositions len k n := by
  refine ⟨i % n, ⟨Nat.mod_lt _ hn, mem_shardPositions.mpr ⟨hi, rfl⟩⟩, ?_⟩
  rintro k ⟨-, hk⟩
  exact (mem_shardPositions.mp hk).2.symm

theorem shardPositions_sorted (len k n : Nat) : (shardPositions len k n).Pairwise (· < ·) :=
  List.pairwise_lt_range.filter _

theorem length_shard {len k n : Nat} (hk : k < n) :
    (shardPositions len k n).length = len / n + if k < len % n then 1 else 0 := by
  have hcount := Nat.count_modEq_card len (show 0 < n by omega) k
  rw [Nat.mod_eq_of_lt hk] at hcount
  rw [← hcount, shardPositions, ← List.countP_eq_length_filter, Nat.count]
  apply List.countP_congr
  intro i _
  rw [beq_iff_eq, decide_eq_true_iff, Nat.ModEq, Nat.mod_eq_of_lt hk]

theorem length_shard_le {len j k n : Nat} (hj : j < n) (hk : k < n) :
    (shardPositions len j n).length ≤ (shardPositions len k n).length + 1 := by
  rw [length_shard hj, length_shard hk]
  split <;> split <;> omega

/-! ## devices -/

/-- `u32::try_from(n).unwrap_or(d)` -/
def toU32Or (n d : Nat) : Nat := if n < 2 ^ 32 then n else d

/-- `device_id` of a worker; `gpu_count` has been raised to at least one -/
def deviceId (id gpuCount : Nat) : Nat := toU32Or id 0 % toU32Or (max gpuCount 1) 1

theorem deviceId_of_lt {id gpuCount : Nat} (hg : gpuCount < 2 ^ 32) (hid : id < max gpuCount 1) :
    deviceId id gpuCount = id := by
  have hmax : max gpuCount 1 < 2 ^ 32 := by omega
  unfold deviceId toU32Or
  rw [if_pos hmax, if_pos (by omega), Nat.mod_eq_of_lt hid]

/-- **No two workers on one GPU.** -/
theorem deviceId_inj {ep : EpSelection} (hep : ep ≠ .cpu) {workers gpuCount i j : Nat}
    (hg : gpuCount < 2 ^ 32) (hi : i < Startup.poolSize workers ep gpuCount)
    (hj : j < Startup.poolSize workers ep gpuCount) (h : deviceId i gpuCount = deviceId j gpuCount) :
    i = j := by
  have hle : Startup.poolSize workers ep gpuCount ≤ max gpuCount 1 := by
    unfold Startup.poolSize
    dsimp only
    split
    · exact le_rfl
    · rename_i hc
      exact not_lt.mp fun hlt => hc ⟨hep, hlt⟩
  rw [deviceId_of_lt hg (hi.trans_le hle), deviceId_of_lt hg (hj.trans_le hle)] at h
  exact h

/-! ## the ceiling after the prewarms -/

section
variable {F : Type} [F32Ops F] {config : WorkerConfig} {n : Nat}

/-- the longest shape that ran is in the ceiling, or in a `fetch_max` still to be made -/
def Accounted (n : Nat) (p : Fleet) : Prop :=
  topSeq p.warmed ≤ p.ceiling ∨ ∃ id < n, ∃ v, p.due id = some v ∧ topSeq p.warmed ≤ v

theorem accounted_ran {p : Fleet} {id : Nat} {stats : PrewarmStats} {v : Option Nat} (hi : Accounted n p)
    (hid : id < n) (hdue : p.due id = none) (hv : topSeq stats.okShapes ≤ v.getD 0) :
    Accounted n (p.ran id stats v) := by
  have htop : topSeq (p.ran id stats v).warmed = max (topSeq p.warmed) (topSeq stats.okShapes) :=
    topSeq_append _ _
  have hother : ∀ j x, p.due j = some x → (p.ran id stats v).due j = some x := by
    intro j x hj
    show Function.update p.due id v j = some x
    rw [Function.update_of_ne (by rintro rfl; rw [hdue] at hj; cases hj)]
    exact hj
  by_cases hle : topSeq stats.okShapes ≤ topSeq p.warmed
  · rw [Accounted, htop, max_eq_left hle]
    rcases hi with h | ⟨j, hjn, x, hj, hx⟩
    · exact .inl h
    · exact .inr ⟨j, hjn, x, hother j x hj, hx⟩
  · rw [Accounted, htop, max_eq_right (by omega)]
    cases v with
    | none =>
      rw [Option.getD_none] at hv
      omega
    | some x =>
      have hself : Function.update p.due id (some x) id = some x := Function.update_self id (some x) p.due
      exact .inr ⟨id, hid, x, hself, hv⟩

/-- what a prewarm of one shape raises covers what ran -/
theorem le_singleRaise (host : Host) (session : Session F) (shape : Shape) (runs : Trace) :
    topSeq (trtPrewarm session host [shape] runs).1.okShapes ≤
      (singleRaise shape (trtPrewarm session host [shape] runs).1).getD 0 := by
  obtain ⟨-, hlen, hseq, -⟩ := trtPrewarm_spec session host [shape] runs
  unfold singleRaise
  split
  · rw [Option.getD_some]
    exact le_max_of_le_left hseq.ge
  · rename_i hno
    have hnil : (trtPrewarm session host [shape] runs).1.okShapes = [] := by
      apply List.length_eq_zero_iff.mp
      rw [← hlen]
      simp only [Bool.or_eq_true, decide_eq_true_eq, not_or] at hno
      omega
    rw [hnil]
    exact Nat.zero_le _

theorem fleetStep_accounted {p p' : Fleet} {a : WarmAct F} (hi : Accounted n p)
    (hs : fleetStep config n p a = some p') : Accounted n p' := by
  cases a with
  | startup id host session runs =>
    dsimp only [fleetStep] at hs
    split at hs
    · rename_i hc
      cases hs
      exact accounted_ran hi hc.2.2.1 hc.2.2.2 (trtPrewarm_spec session host _ runs).2.2.1.ge
    · cases hs
  | single id shape host session runs =>
    dsimp only [fleetStep] at hs
    split at hs
    · rename_i hc
      cases hs
      exact accounted_ran hi hc.2.1 hc.2.2 (le_singleRaise host session shape runs)
    · cases hs
  | raise id =>
    obtain ⟨v, hv, rfl⟩ := Option.map_eq_some_iff.mp hs
    rcases hi with h | ⟨j, hjn, x, hj, hx⟩
    · exact .inl (le_max_of_le_left h)
    · by_cases hji : j = id
      · subst hji
        rw [hv] at hj
        cases hj
        exact .inl (le_max_of_le_right hx)
      · exact .inr ⟨j, hjn, x, (Function.update_of_ne hji _ _).trans hj, hx⟩

/-- no worker has a `fetch_max` to make -/
def Fleet.Settled (n : Nat) (p : Fleet) : Prop := ∀ id < n, p.due id = none

/-- **The ceiling is the longest sequence that ran.** -/
theorem ceiling_eq_of_settled {p : Fleet} (h : FleetRun F config n Fleet.start p) (hs : p.Settled n) :
    p.ceiling = topSeq p.warmed := by
  have hacc : Accounted n p := h.invariant (.inl le_rfl) fun _ _ _ hi _ hs => fleetStep_accounted hi hs
  have hle : p.ceiling ≤ topSeq p.warmed := (fleetRun_grounded grounded_start h).ceiling
  rcases hacc with hge | ⟨id, hid, v, hv, -⟩
  · exact le_antisymm hle hge
  · rw [hs id hid] at hv
    cases hv

/-- the startup prewarms and their `fetch_max` -/
def StartupAct (_ : Fleet) : WarmAct F → Prop
  | .single .. => False
  | _ => True

theorem mem_workerConfigOf {id : Nat} {s : Shape}
    (h : s ∈ (workerConfigOf config n id).trtWarmupShapes) : s ∈ config.trtWarmupShapes := by
  unfold workerConfigOf at h
  split at h
  · unfold shardShapes at h
    split at h
    · exact h
    · obtain ⟨p, hp, rfl⟩ := List.mem_map.mp h
      exact List.fst_mem_of_mem_zipIdx (List.mem_of_mem_filter hp)
  · exact h

/-- only shapes of the list are warmed at startup -/
theorem startup_warmed {p : Fleet} (h : Reach (fleetStep (F := F) config n) StartupAct Fleet.start p) :
    ∀ s ∈ p.warmed, s ∈ config.trtWarmupShapes := by
  refine h.invariant (I := fun p => ∀ s ∈ p.warmed, s ∈ config.trtWarmupShapes)
    (fun s hs => by cases hs) fun q a q' hq hc hs => ?_
  cases a with
  | startup id host session runs =>
    dsimp only [fleetStep] at hs
    split at hs
    · cases hs
      intro s hm
      rcases List.mem_append.mp hm with hm | hm
      · exact hq s hm
      · exact mem_workerConfigOf ((trtPrewarm_spec session host _ runs).1 s hm).1
    · cases hs
  | single id shape host session runs => exact hc.elim
  | raise id =>
    obtain ⟨v, -, rfl⟩ := Option.map_eq_some_iff.mp hs
    exact hq

/-- the shard of a worker, for every pool size -/
theorem workerConfigOf_shapes (hep : config.ep = .tensorRt) (k : Nat) :
    (workerConfigOf config n k).trtWarmupShapes = shardShapes config.trtWarmupShapes k n := by
  unfold workerConfigOf
  split
  · rfl
  · rename_i hc
    by_cases hn : n ≤ 1
    · rw [shardShapes, if_pos hn]
    · have hnil : config.trtWarmupShapes = [] := by
        by_contra hne
        exact hc ⟨hep, by omega, hne⟩
      rw [hnil, shardShapes, if_neg hn]
      rfl

variable (F config) in
/-- **Sharded warmup covers the grid.**  The shards partition the warmup list; the workers have devices
of their own; and in every run of the startup prewarms, whatever fails, the ceiling never falls, is the
longest sequence that ran once all are done, and the longest of the list as soon as that one ran. -/
theorem sharded_warmup_covers (hep : config.ep = .tensorRt) (hn : 1 ≤ n) :
    (∀ k < n, (workerConfigOf config n k).trtWarmupShapes =
        (shardPositions config.trtWarmupShapes.length k n).filterMap fun i => config.trtWarmupShapes[i]?) ∧
    (∀ i < config.trtWarmupShapes.length,
      ∃! k, k < n ∧ i ∈ shardPositions config.trtWarmupShapes.length k n) ∧
    (∀ k < n, (shardPositions config.trtWarmupShapes.length k n).Pairwise (· < ·) ∧
      ∀ j < n, (shardPositions config.trtWarmupShapes.length j n).length ≤
        (shardPositions config.trtWarmupShapes.length k n).length + 1) ∧
    (∀ ep ≠ EpSelection.cpu, ∀ workers gpuCount, gpuCount < 2 ^ 32 →
      ∀ i < Startup.poolSize workers ep gpuCount, ∀ j < Startup.poolSize workers ep gpuCount,
        deviceId i gpuCount = deviceId j gpuCount → i = j) ∧
    ∀ p, Reach (fleetStep (F := F) config n) StartupAct Fleet.start p →
      (∀ p', Reach (fleetStep (F := F) config n) StartupAct p p' → p.ceiling ≤ p'.ceiling) ∧
      (p.Settled n → p.ceiling = topSeq p.warmed ∧
        ((∃ s ∈ p.warmed, s.2 = topSeq config.trtWarmupShapes) →
          p.ceiling = topSeq config.trtWarmupShapes)) := by
  refine ⟨fun k hk => ?_, fun i hi => shard_covers hn hi,
    fun k hk => ⟨shardPositions_sorted _ _ _, fun j hj => length_shard_le hj hk⟩,
    fun ep hep workers gpuCount hg i hi j hj h => deviceId_inj hep hg hi hj h,
    fun p hp => ⟨fun p' hp' => ?_, fun hs => ?_⟩⟩
  · rw [workerConfigOf_shapes hep k, shardShapes_eq _ hk]
  · exact fleetRun_ceiling (hp'.mono fun _ _ _ => trivial)
  · have hceil := ceiling_eq_of_settled (hp.mono fun _ _ _ => trivial) hs
    refine ⟨hceil, ?_⟩
    rintro ⟨s, hs, htop⟩
    rw [hceil]
    -- what ran is in the list, and the longest of the list is in what ran
    apply le_antisymm
    · apply top_le
      intro a ha
      obtain ⟨t, ht, rfl⟩ := List.mem_map.mp ha
      exact le_top (List.mem_map_of_mem (startup_warmed hp t ht))
    · rw [← htop]
      exact le_top (List.mem_map_of_mem hs)

end

/-- three shapes on two GPUs: each worker warms its shard, and the ceiling reaches the longest -/
theorem sharded_warmup_covers_twoGpus :
    let config : WorkerConfig := ⟨.tensorRt, .fp16, 5, false, false, true, 4, [(1, 2), (1, 4), (2, 2)], false⟩
    ∃ p, Reach (fleetStep (F := Int) config 2) StartupAct Fleet.start p ∧ p.ceiling = 4 := by
  intro config
  have hwarm : ∃ p, Reach (fleetStep (F := Int) config 2) StartupAct Fleet.start p ∧
      (p.warmed = [(1, 2), (2, 2), (1, 4)] ∧ p.due 0 = none ∧ p.due 1 = none ∧ p.ceiling = 4) := by
    refine Reach.exists_of_run [.startup 0 bareHost echoSession [], .startup 1 bareHost echoSession [],
      .raise 1, .raise 0] ?_ (by decide +kernel)
    intro s a ha
    simp only [List.mem_cons, List.not_mem_nil, or_false] at ha
    rcases ha with rfl | rfl | rfl | rfl <;> trivial
  obtain ⟨p, hp, hw, h0, h1, -⟩ := hwarm
  have hrun := (sharded_warmup_covers Int config rfl (show 1 ≤ 2 by decide)).2.2.2.2
  have hset : p.Settled 2 := by
    intro id hid
    rcases (show id = 0 ∨ id = 1 by omega) with rfl | rfl
    · exact h0
    · exact h1
  refine ⟨p, hp, ?_⟩
  rw [((hrun p hp).2 hset).2 ⟨(1, 4), by rw [hw]; decide, by decide⟩]
  decide

end EmbedServer
