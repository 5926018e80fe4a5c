import EmbedServer.Lib.F64
import EmbedServer.Probe.Cache
import EmbedServer.Startup.Bootstrap
import EmbedServer.Worker.Retry

/-!
# The environment (`config.rs`, `sysinfo.rs`, `lib.rs`)

`Config.fromLookup` reads every setting through a lookup of variable names; the settings of startup are
kept here.  A cost model has float coefficients at this point, since `BGE_M3_COST_MODEL_A` and `_B` may
be any float.

* `FloatCostModel.exact`   the rational cost model with the same costs (`chunkCost_exact`), which the
                           packer and startup compute with;
* `Machine.startupConfig`, `Machine.world`   the settings and the world of a startup in an environment.
-/

namespace EmbedServer

/-! ## cost models with float coefficients -/

/-- `CostModel` of `binpack.rs` -/
structure FloatCostModel where
  a : F64
  b : F64
  maxWorkspaceBytes : Nat
deriving DecidableEq, Repr

namespace FloatCostModel

def conservative (maxWorkspaceBytes : Nat) : FloatCostModel :=
  ⟨.fin CostModel.conservativeA, .fin CostModel.conservativeB, maxWorkspaceBytes⟩

/-- the two products are exact, where the source rounds each to a double before the cast: the costs differ
in the last place of a double (`a` and `b` of `0.3` and `1` make `103` of the shape `(1, 10)` there, `102`
here), and agree where the products are doubles, as for whole coefficients and products below `2^53` -/
def chunkCost (cm : FloatCostModel) (count maxSeq : Nat) : Nat :=
  let n := count * maxSeq
  let linear := (cm.a * .fin n).toNat u128Max
  let quad := (cm.b * .fin n * .fin maxSeq).toNat u128Max
  min (linear + quad) u128Max

def fits (cm : FloatCostModel) (count maxSeq : Nat) : Bool :=
  decide (cm.chunkCost count maxSeq ≤ cm.maxWorkspaceBytes)

/-- the copy a retry packs with -/
def halved (cm : FloatCostModel) : FloatCostModel :=
  { cm with maxWorkspaceBytes := max (cm.maxWorkspaceBytes / 2) (1024 * 1024) }

/-- the rational cost model with the same costs -/
def exact (cm : FloatCostModel) : CostModel :=
  ⟨cm.a.stand u128Max, cm.b.stand u128Max, cm.maxWorkspaceBytes⟩

theorem chunkCost_exact (cm : FloatCostModel) (count maxSeq : Nat) :
    cm.chunkCost count maxSeq = cm.exact.chunkCost count maxSeq := by
  unfold chunkCost
  dsimp only
  rw [F64.toNat_mul, F64.toNat_mul_mul]
  rfl

theorem fits_exact (cm : FloatCostModel) (count maxSeq : Nat) :
    cm.fits count maxSeq = cm.exact.fits count maxSeq := by
  unfold fits
  rw [chunkCost_exact]
  rfl

theorem halved_exact (cm : FloatCostModel) : cm.halved.exact = cm.exact.halved := rfl

theorem conservative_exact (n : Nat) : (conservative n).exact = CostModel.conservative n := rfl

end FloatCostModel

/-! ## the settings of startup -/

/-- the environment; a value that is not UTF-8 counts as unset -/
abbrev Lookup := String → Option String

section
variable (lookup : Lookup)

def usizeVar (name : String) : Option Nat := (lookup name).bind (parseUnsigned usizeMax)

def f64Var (name : String) : Option F64 := (lookup name).bind parseF64

/-- `1`, `true` or `yes` -/
def flagVar (name : String) : Bool := (lookup name).any fun v => v == "1" || v == "true" || v == "yes"

def modelMaxSeq : Nat := 8192

/-- 10 GiB -/
def defaultGpuVramBudgetBytes : Nat := 10 * 1024 * 1024 * 1024

/-- the ceiling of an explicit cost model -/
def declaredWorkspace : Nat :=
  (usizeVar lookup "BGE_M3_AVAILABLE_MEMORY_BYTES").getD CostModel.defaultMaxWorkspace

/-- the workspace of a token budget is the exact product; the source rounds the budget and the product to
doubles, which differs from `2^53` bytes on -/
def resolveCostModelOverride (maxSeqLength : Nat) : Option FloatCostModel :=
  if flagVar lookup "BGE_M3_DISABLE_AUTO_BUDGET" then some (.conservative (declaredWorkspace lookup))
  else
    match usizeVar lookup "BGE_M3_TOKEN_BUDGET" with
    | some tokenBudget =>
      let costPerPosition := CostModel.conservativeA + CostModel.conservativeB * maxSeqLength
      some (.conservative (castUsize (tokenBudget * costPerPosition)))
    | none =>
      match lookup "BGE_M3_COST_MODEL_A", lookup "BGE_M3_COST_MODEL_B" with
      | some aStr, some bStr =>
        match parseF64 aStr, parseF64 bStr with
        | some a, some b => some ⟨a, b, declaredWorkspace lookup⟩
        | _, _ => none
      | _, _ => none

/-- `procGpus` counts the entries of the driver's directory -/
def detectGpuCount (overrideVal procGpus : Option Nat) : Nat :=
  match overrideVal with
  | some n => max n 1
  | none => procGpus.getD 1

structure Config where
  workers : Nat
  maxSeqLength : Nat
  modelVariant : ModelVariant
  memorySafetyFactor : F64
  costModelOverride : Option FloatCostModel
  ep : EpSelection
  gpuVramBudgetBytes : Option Nat
  gpuCount : Nat
deriving DecidableEq

def Config.fromLookup (procGpus : Option Nat) : Config :=
  let workers := max ((usizeVar lookup "BGE_M3_WORKERS").getD 2) 1
  let maxSeqLength :=
    let raw := (usizeVar lookup "BGE_M3_MAX_SEQ_LENGTH").getD modelMaxSeq
    if raw = 0 ∨ raw > modelMaxSeq then modelMaxSeq else raw
  let modelVariant := match lookup "BGE_M3_MODEL" with
    | some "fp32" => .fp32
    | some "int8" => .int8
    | _ => .fp16
  -- the float literals `0.7`, `0.1` and `1.0`
  let memorySafetyFactor := ((f64Var lookup "BGE_M3_MEMORY_SAFETY_FACTOR").getD (F64.ofRat (7 / 10))).clamp
    ((F64.ofRat (1 / 10)).stand 0) 1
  let ep := match lookup "BGE_M3_EP" with
    | some "cuda" => .cuda
    | some "tensorrt" => .tensorRt
    | _ => .cpu
  let gpuVramBudgetBytes := usizeVar lookup "BGE_M3_GPU_VRAM_BUDGET_BYTES"
  let costModelOverride := if ep = .cpu then resolveCostModelOverride lookup maxSeqLength
    else some (.conservative (gpuVramBudgetBytes.getD defaultGpuVramBudgetBytes))
  let gpuCount := detectGpuCount (usizeVar lookup "BGE_M3_GPU_COUNT") procGpus
  ⟨workers, maxSeqLength, modelVariant, memorySafetyFactor, costModelOverride, ep, gpuVramBudgetBytes, gpuCount⟩

/-- the memory reading; `cgroup` and `hostRam` are what the later steps of the chain find -/
def detectAvailableMemory (cgroup hostRam : Option Nat) : Nat :=
  match usizeVar lookup "BGE_M3_AVAILABLE_MEMORY_BYTES" with
  | some bytes => bytes
  | none =>
    match cgroup with
    | some bytes => bytes
    | none => hostRam.getD (4 * 1024 * 1024 * 1024)

end

/-! ## startup in an environment -/

def ModelVariant.display : ModelVariant → String
  | .fp32 => "fp32"
  | .fp16 => "fp16"
  | .int8 => "int8"

/-- what a startup finds on its machine, besides the environment -/
structure Machine where
  procGpus : Option Nat
  cgroup : Option Nat
  hostRam : Option Nat
  build : Build
  /-- content of `probe-coefficients.json` -/
  file : Option ProbeCache
  init : Startup.InitResult
  modelRssPerWorker : Nat
  probe : ProbeEnv
  dense : Except AnyError Unit
  sparse : Except AnyError Unit

section
variable (lookup : Lookup) (machine : Machine)

def Machine.config : Config := Config.fromLookup lookup machine.procGpus

/-- a NaN safety factor gives a share of no bytes, as the factor `0` does -/
def Machine.startupConfig : Startup.StartupConfig where
  workers := (machine.config lookup).workers
  workers_pos := le_max_right _ _
  ep := (machine.config lookup).ep
  gpuCount := (machine.config lookup).gpuCount
  maxSeqLength := (machine.config lookup).maxSeqLength
  memorySafetyFactor := (machine.config lookup).memorySafetyFactor.stand 0
  costModelOverride := (machine.config lookup).costModelOverride.map FloatCostModel.exact
  disableProbeCache := flagVar lookup "BGE_M3_DISABLE_PROBE_CACHE"

def Machine.world : Startup.World where
  init := machine.init
  availableBytes := detectAvailableMemory lookup machine.cgroup machine.hostRam
  modelRssPerWorker := machine.modelRssPerWorker
  cached := tryLoadProbeCache machine.build machine.file (machine.config lookup).modelVariant.display
    (machine.config lookup).maxSeqLength
  probe := machine.probe
  dense := machine.dense
  sparse := machine.sparse

end

end EmbedServer
