import EmbedServer.Embed.Math
import EmbedServer.Lib.Decimal
import EmbedServer.WarmupShapes

/-!
# All settings (`config.rs`)

`Config` has the settings that size the pool and its budget; `Settings` has the other fields too.  A
variable that is unset or has no value of its kind takes its default, so nothing but half a TLS pair stops
the server here.

* `Settings.fromEnv`       reads and validates;
* `Settings.WellFormed`    what is known of the result, field by field;
* `Settings.environment`   an environment that asks for given settings;
* `settings_range`         the settings that environments give are the well-formed ones.
-/

namespace EmbedServer

/-- `count_nvidia_gpus_from_proc`, with the number of entries read -/
def countNvidiaGpusFromProc (entries : Option Nat) : Option Nat := entries.filter fun count => 0 < count

/-- `Config` of `config.rs` -/
@[ext]
structure Settings extends Config where
  cacheDir : String
  bindAddr : String
  tlsCertPath : Option String
  tlsKeyPath : Option String
  intraThreads : Nat
  maxBatch : Nat
  /-- seconds -/
  idleTimeout : Option Nat
  heartbeatSecs : Nat
  trtMaxWorkspaceBytes : Option Nat
  gpuMemLimitBytes : Option Nat
  adaptiveWarmupEnabled : Bool
  enginePropagationEnabled : Bool
  adaptiveWarmupQuietSecs : Nat
  adaptiveWarmupMaxShapesPerHour : Nat
  trtWarmupShapes : List Shape
  warmupOnly : Bool
  prewarmStrict : Bool
  maxBodyBytes : Nat
  circuitBreakerThreshold : Nat
  trtInbandJitGuardEnabled : Bool
  trtInbandJitGuardSeq : Nat
deriving DecidableEq

section
variable (lookup : Lookup)

def unsignedVar (limit : Nat) (name : String) : Option Nat := (lookup name).bind (parseUnsigned limit)

/-- `0`, `false` or `no` -/
def disabledVar (name : String) : Bool := (lookup name).any fun v => v == "0" || v == "false" || v == "no"

/-- `0` or `1` -/
def bitVar (name : String) : Option Bool :=
  (lookup name).bind fun v => if v == "0" then some false else if v == "1" then some true else none

/-- `entries` counts the directory of the driver -/
def Settings.fromLookup (entries : Option Nat) : Settings where
  toConfig := Config.fromLookup lookup (countNvidiaGpusFromProc entries)
  cacheDir := (lookup "BGE_M3_CACHE_DIR").getD "/cache"
  bindAddr := (lookup "BGE_M3_BIND").getD "0.0.0.0:8081"
  tlsCertPath := lookup "BGE_M3_TLS_CERT_PATH"
  tlsKeyPath := lookup "BGE_M3_TLS_KEY_PATH"
  intraThreads := max ((usizeVar lookup "BGE_M3_INTRA_THREADS").getD 1) 1
  maxBatch := max ((usizeVar lookup "BGE_M3_MAX_BATCH").getD 256) 1
  idleTimeout :=
    let secs := (unsignedVar lookup u64Max "BGE_M3_IDLE_TIMEOUT_SECS").getD 300
    if secs > 0 then some secs else none
  heartbeatSecs := (unsignedVar lookup u64Max "BGE_M3_HEARTBEAT_SECS").getD 60
  trtMaxWorkspaceBytes := usizeVar lookup "BGE_M3_TRT_MAX_WORKSPACE_BYTES"
  gpuMemLimitBytes := usizeVar lookup "BGE_M3_GPU_MEM_LIMIT_BYTES"
  adaptiveWarmupEnabled := flagVar lookup "BGE_M3_ADAPTIVE_WARMUP_ENABLED"
  enginePropagationEnabled := (bitVar lookup "BGE_M3_ENGINE_PROPAGATION_ENABLED").getD
    (flagVar lookup "BGE_M3_ADAPTIVE_WARMUP_ENABLED")
  adaptiveWarmupQuietSecs := (unsignedVar lookup u64Max "BGE_M3_ADAPTIVE_WARMUP_QUIET_SECS").getD 3
  adaptiveWarmupMaxShapesPerHour :=
    (unsignedVar lookup Startup.u32Max "BGE_M3_ADAPTIVE_WARMUP_MAX_SHAPES_PER_HOUR").getD 12
  trtWarmupShapes := EmbedServer.trtWarmupShapes lookup
  warmupOnly := flagVar lookup "BGE_M3_WARMUP_ONLY"
  prewarmStrict := !disabledVar lookup "BGE_M3_PREWARM_STRICT"
  maxBodyBytes := (usizeVar lookup "BGE_M3_MAX_BODY_BYTES").getD 33554432
  circuitBreakerThreshold := max ((usizeVar lookup "BGE_M3_CIRCUIT_BREAKER_THRESHOLD").getD 5) 1
  trtInbandJitGuardEnabled := !disabledVar lookup "BGE_M3_TRT_INBAND_JIT_GUARD"
  trtInbandJitGuardSeq := max ((usizeVar lookup "BGE_M3_TRT_INBAND_JIT_GUARD_SEQ").getD 4096) 1

def Settings.validate (c : Settings) : Except String Unit :=
  match c.tlsCertPath, c.tlsKeyPath with
  | some _, none | none, some _ => .error ("TLS misconfiguration: BGE_M3_TLS_CERT_PATH and " ++
      "BGE_M3_TLS_KEY_PATH must both be set or both be absent")
  | _, _ => .ok ()

def Settings.fromEnv (entries : Option Nat) : Except String Settings := do
  let cfg := Settings.fromLookup lookup entries
  cfg.validate
  return cfg

end

/-! ## well-formed settings -/

/-- coefficients that are doubles, and a ceiling that is a `usize` -/
def FloatCostModel.InRange (cm : FloatCostModel) : Prop :=
  cm.a.IsDouble ∧ cm.b.IsDouble ∧ cm.maxWorkspaceBytes ≤ usizeMax

/-- a `usize` that is not zero -/
def Count (n : Nat) : Prop := 1 ≤ n ∧ n ≤ usizeMax

/-- a NaN, or a double from `0.1` to `1.0` -/
def SafetyFactor (x : F64) : Prop :=
  x = .nan ∨ ∃ q, x = .fin q ∧ x.IsDouble ∧ (F64.ofRat (1 / 10)).stand 0 ≤ q ∧ q ≤ 1

structure Settings.WellFormed (entries : Option Nat) (c : Settings) : Prop where
  workers : Count c.workers
  maxSeqLength : 1 ≤ c.maxSeqLength ∧ c.maxSeqLength ≤ modelMaxSeq
  memorySafetyFactor : SafetyFactor c.memorySafetyFactor
  /-- the probe is bypassed on a GPU -/
  costModelGpu : c.ep ≠ .cpu →
    c.costModelOverride = some (.conservative (c.gpuVramBudgetBytes.getD defaultGpuVramBudgetBytes))
  costModelCpu : ∀ cm ∈ c.costModelOverride, cm.InRange
  gpuVramBudgetBytes : ∀ n ∈ c.gpuVramBudgetBytes, n ≤ usizeMax
  gpuCount : 1 ≤ c.gpuCount ∧ (c.gpuCount ≤ usizeMax ∨ entries = some c.gpuCount)
  tls : c.tlsCertPath.isSome = c.tlsKeyPath.isSome
  intraThreads : Count c.intraThreads
  maxBatch : Count c.maxBatch
  idleTimeout : ∀ n ∈ c.idleTimeout, 1 ≤ n ∧ n ≤ u64Max
  heartbeatSecs : c.heartbeatSecs ≤ u64Max
  trtMaxWorkspaceBytes : ∀ n ∈ c.trtMaxWorkspaceBytes, n ≤ usizeMax
  gpuMemLimitBytes : ∀ n ∈ c.gpuMemLimitBytes, n ≤ usizeMax
  adaptiveWarmupQuietSecs : c.adaptiveWarmupQuietSecs ≤ u64Max
  adaptiveWarmupMaxShapesPerHour : c.adaptiveWarmupMaxShapesPerHour ≤ Startup.u32Max
  trtWarmupShapes : c.trtWarmupShapes ≠ [] ∧ ∀ s ∈ c.trtWarmupShapes, s.1 ≤ usizeMax ∧ s.2 ≤ usizeMax
  maxBodyBytes : c.maxBodyBytes ≤ usizeMax
  circuitBreakerThreshold : Count c.circuitBreakerThreshold
  trtInbandJitGuardSeq : Count c.trtInbandJitGuardSeq

section
variable {lookup : Lookup} {entries : Option Nat} {c : Settings}

theorem unsignedVar_le {limit n : Nat} {name : String} (h : n ∈ unsignedVar lookup limit name) :
    n ≤ limit := by
  obtain ⟨s, -, hs⟩ := Option.bind_eq_some_iff.mp h
  exact parseUnsigned_le hs

theorem unsignedVar_getD_le {limit d : Nat} {name : String} (hd : d ≤ limit) :
    (unsignedVar lookup limit name).getD d ≤ limit := by
  cases h : unsignedVar lookup limit name with
  | none => exact hd
  | some n => exact unsignedVar_le h

theorem count_of_usizeVar {d : Nat} {name : String} (hd : d ≤ usizeMax) :
    Count (max ((usizeVar lookup name).getD d) 1) :=
  ⟨le_max_right _ _, max_le (unsignedVar_getD_le hd) (by decide)⟩

theorem conservative_inRange {n : Nat} (h : n ≤ usizeMax) : (FloatCostModel.conservative n).InRange :=
  ⟨show (F64.fin CostModel.conservativeA).IsDouble by decide +kernel,
    show (F64.fin CostModel.conservativeB).IsDouble by decide +kernel, h⟩

theorem resolve_inRange {maxSeqLength : Nat} {cm : FloatCostModel}
    (h : resolveCostModelOverride lookup maxSeqLength = some cm) : cm.InRange := by
  have hdeclared : declaredWorkspace lookup ≤ usizeMax := unsignedVar_getD_le (by decide)
  unfold resolveCostModelOverride at h
  split at h
  · cases h
    exact conservative_inRange hdeclared
  · split at h
    · cases h
      exact conservative_inRange (min_le_right _ _)
    · split at h
      · split at h
        · rename_i ha hb
          cases h
          exact ⟨parseF64_range.mp ⟨_, ha⟩, parseF64_range.mp ⟨_, hb⟩, hdeclared⟩
        · cases h
      · cases h

theorem clamp_safetyFactor {x : F64} (h : x.IsDouble) :
    SafetyFactor (x.clamp ((F64.ofRat (1 / 10)).stand 0) 1) := by
  have hdouble : (x.clamp ((F64.ofRat (1 / 10)).stand 0) 1).IsDouble :=
    h.clamp (by decide +kernel) (by decide +kernel)
  have hle : (F64.ofRat (1 / 10)).stand 0 ≤ 1 := by decide +kernel
  cases x with
  | nan => exact .inl rfl
  | inf neg =>
    cases neg with
    | false => exact .inr ⟨_, rfl, hdouble, hle, le_refl _⟩
    | true => exact .inr ⟨_, rfl, hdouble, le_refl _, hle⟩
  | fin q => exact .inr ⟨_, rfl, hdouble, le_min (le_max_right _ _) hle, min_le_right _ _⟩

theorem f64Var_isDouble {name : String} :
    ((f64Var lookup name).getD (F64.ofRat (7 / 10))).IsDouble := by
  cases h : f64Var lookup name with
  | none => exact F64.ofRat_isDouble _
  | some x =>
    obtain ⟨s, -, hs⟩ := Option.bind_eq_some_iff.mp h
    exact parseF64_range.mp ⟨s, hs⟩

theorem gpuCount_range : 1 ≤ (Config.fromLookup lookup (countNvidiaGpusFromProc entries)).gpuCount ∧
    ((Config.fromLookup lookup (countNvidiaGpusFromProc entries)).gpuCount ≤ usizeMax ∨
      entries = some (Config.fromLookup lookup (countNvidiaGpusFromProc entries)).gpuCount) := by
  show 1 ≤ detectGpuCount _ _ ∧ (detectGpuCount _ _ ≤ usizeMax ∨ entries = some (detectGpuCount _ _))
  unfold detectGpuCount
  split
  · rename_i n hn
    exact ⟨le_max_right _ _, .inl (max_le (unsignedVar_le hn) (by decide))⟩
  · cases hproc : countNvidiaGpusFromProc entries with
    | none => exact ⟨le_refl _, .inl (by decide)⟩
    | some count =>
      obtain ⟨hentries, hpos⟩ := Option.filter_eq_some_iff.mp hproc
      exact ⟨of_decide_eq_true hpos, .inr hentries⟩

theorem fromLookup_trtWarmupShapes :
    (Settings.fromLookup lookup entries).trtWarmupShapes = trtWarmupShapes lookup := by
  unfold Settings.fromLookup
  rfl

theorem warmupShapes_range : trtWarmupShapes lookup ≠ [] ∧
    ∀ s ∈ trtWarmupShapes lookup, s.1 ≤ usizeMax ∧ s.2 ≤ usizeMax := by
  have hdefault : defaultTrtWarmupShapes ≠ [] ∧
      ∀ s ∈ defaultTrtWarmupShapes, s.1 ≤ usizeMax ∧ s.2 ≤ usizeMax := by decide
  unfold trtWarmupShapes
  cases lookup "BGE_M3_TRT_WARMUP_SHAPES" with
  | none => exact hdefault
  | some val =>
    rw [parseTrtWarmupShapes_some]
    split
    · exact hdefault
    · rename_i hne
      refine ⟨fun h => hne (List.isEmpty_iff.mpr h), fun s hs => ?_⟩
      obtain ⟨token, -, htoken⟩ := List.mem_filterMap.mp hs
      obtain ⟨batch, seq, -, hb, hq⟩ := warmupToken_eq_some.mp htoken
      exact ⟨hb.le, hq.le⟩

/-- what is read is well formed as soon as it is validated -/
theorem fromLookup_wellFormed (htls : (lookup "BGE_M3_TLS_CERT_PATH").isSome =
    (lookup "BGE_M3_TLS_KEY_PATH").isSome) : (Settings.fromLookup lookup entries).WellFormed entries where
  workers := count_of_usizeVar (by decide)
  maxSeqLength := by
    show 1 ≤ ite _ _ _ ∧ ite _ _ _ ≤ modelMaxSeq
    split
    · decide
    · rename_i h
      omega
  memorySafetyFactor := clamp_safetyFactor f64Var_isDouble
  costModelGpu := by
    intro hep
    exact if_neg hep
  costModelCpu := by
    intro cm hcm
    by_cases hep : (Config.fromLookup lookup (countNvidiaGpusFromProc entries)).ep = .cpu
    · exact resolve_inRange ((if_pos hep).symm.trans hcm)
    · cases (if_neg hep).symm.trans hcm
      exact conservative_inRange (unsignedVar_getD_le (by decide))
  gpuVramBudgetBytes := fun n hn => unsignedVar_le hn
  gpuCount := gpuCount_range
  tls := htls
  intraThreads := count_of_usizeVar (by decide)
  maxBatch := count_of_usizeVar (by decide)
  idleTimeout := by
    intro n hn
    obtain ⟨hpos, hsome⟩ := Option.ite_none_right_eq_some.mp hn
    cases hsome
    exact ⟨hpos, unsignedVar_getD_le (by decide)⟩
  heartbeatSecs := unsignedVar_getD_le (by decide)
  trtMaxWorkspaceBytes := fun n hn => unsignedVar_le hn
  gpuMemLimitBytes := fun n hn => unsignedVar_le hn
  adaptiveWarmupQuietSecs := unsignedVar_getD_le (by decide)
  adaptiveWarmupMaxShapesPerHour := unsignedVar_getD_le (by decide)
  trtWarmupShapes := warmupShapes_range
  maxBodyBytes := unsignedVar_getD_le (by decide)
  circuitBreakerThreshold := count_of_usizeVar (by decide)
  trtInbandJitGuardSeq := count_of_usizeVar (by decide)

theorem validate_ok : c.validate = .ok () ↔ c.tlsCertPath.isSome = c.tlsKeyPath.isSome := by
  unfold Settings.validate
  cases c.tlsCertPath <;> cases c.tlsKeyPath <;> simp

theorem fromEnv_eq : Settings.fromEnv lookup entries =
    (Settings.fromLookup lookup entries).validate.map fun _ => Settings.fromLookup lookup entries := by
  unfold Settings.fromEnv
  dsimp only
  cases (Settings.fromLookup lookup entries).validate <;> rfl

theorem fromEnv_ok : Settings.fromEnv lookup entries = .ok c ↔ c = Settings.fromLookup lookup entries ∧
    (lookup "BGE_M3_TLS_CERT_PATH").isSome = (lookup "BGE_M3_TLS_KEY_PATH").isSome := by
  have htls : (Settings.fromLookup lookup entries).validate = .ok () ↔
      (lookup "BGE_M3_TLS_CERT_PATH").isSome = (lookup "BGE_M3_TLS_KEY_PATH").isSome := validate_ok
  rw [fromEnv_eq, ← htls]
  cases (Settings.fromLookup lookup entries).validate with
  | ok u => simp [Except.map, eq_comm]
  | error e => simp [Except.map]

end

/-! ## an environment for given settings -/

def EpSelection.display : EpSelection → String
  | .cpu => "cpu"
  | .cuda => "cuda"
  | .tensorRt => "tensorrt"

def bit (b : Bool) : String := if b then "1" else "0"

/-- explicit coefficients stand for the cost model, whichever variables gave it -/
def Settings.environment (c : Settings) : Lookup
  | "BGE_M3_CACHE_DIR" => some c.cacheDir
  | "BGE_M3_BIND" => some c.bindAddr
  | "BGE_M3_TLS_CERT_PATH" => c.tlsCertPath
  | "BGE_M3_TLS_KEY_PATH" => c.tlsKeyPath
  | "BGE_M3_WORKERS" => some (toString c.workers)
  | "BGE_M3_INTRA_THREADS" => some (toString c.intraThreads)
  | "BGE_M3_MAX_BATCH" => some (toString c.maxBatch)
  | "BGE_M3_MAX_SEQ_LENGTH" => some (toString c.maxSeqLength)
  | "BGE_M3_IDLE_TIMEOUT_SECS" => some (toString (c.idleTimeout.getD 0))
  | "BGE_M3_MODEL" => some c.modelVariant.display
  | "BGE_M3_MEMORY_SAFETY_FACTOR" => some c.memorySafetyFactor.print
  | "BGE_M3_COST_MODEL_A" => c.costModelOverride.map fun cm => cm.a.print
  | "BGE_M3_COST_MODEL_B" => c.costModelOverride.map fun cm => cm.b.print
  | "BGE_M3_AVAILABLE_MEMORY_BYTES" => c.costModelOverride.map fun cm => toString cm.maxWorkspaceBytes
  | "BGE_M3_HEARTBEAT_SECS" => some (toString c.heartbeatSecs)
  | "BGE_M3_EP" => some c.ep.display
  | "BGE_M3_GPU_VRAM_BUDGET_BYTES" => c.gpuVramBudgetBytes.map toString
  | "BGE_M3_TRT_MAX_WORKSPACE_BYTES" => c.trtMaxWorkspaceBytes.map toString
  | "BGE_M3_GPU_MEM_LIMIT_BYTES" => c.gpuMemLimitBytes.map toString
  | "BGE_M3_ADAPTIVE_WARMUP_ENABLED" => some (bit c.adaptiveWarmupEnabled)
  | "BGE_M3_ENGINE_PROPAGATION_ENABLED" => some (bit c.enginePropagationEnabled)
  | "BGE_M3_ADAPTIVE_WARMUP_QUIET_SECS" => some (toString c.adaptiveWarmupQuietSecs)
  | "BGE_M3_ADAPTIVE_WARMUP_MAX_SHAPES_PER_HOUR" => some (toString c.adaptiveWarmupMaxShapesPerHour)
  | "BGE_M3_GPU_COUNT" => if c.gpuCount ≤ usizeMax then some (toString c.gpuCount) else none
  | "BGE_M3_TRT_WARMUP_SHAPES" =>
    some (String.ofList ([','].intercalate (c.trtWarmupShapes.map printShape)))
  | "BGE_M3_MAX_BODY_BYTES" => some (toString c.maxBodyBytes)
  | "BGE_M3_CIRCUIT_BREAKER_THRESHOLD" => some (toString c.circuitBreakerThreshold)
  | "BGE_M3_TRT_INBAND_JIT_GUARD" => some (bit c.trtInbandJitGuardEnabled)
  | "BGE_M3_TRT_INBAND_JIT_GUARD_SEQ" => some (toString c.trtInbandJitGuardSeq)
  | "BGE_M3_WARMUP_ONLY" => some (bit c.warmupOnly)
  | "BGE_M3_PREWARM_STRICT" => some (bit c.prewarmStrict)
  | _ => none

attribute [ext] Config

section
variable {entries : Option Nat} {c : Settings}

theorem usizeVar_toString {lookup : Lookup} {limit n : Nat} {name : String}
    (hl : lookup name = some (toString n)) (h : n ≤ limit) : unsignedVar lookup limit name = some n := by
  unfold unsignedVar
  rw [hl]
  exact parseUnsigned_toString h

theorem count_environment {lookup : Lookup} {d n : Nat} {name : String}
    (hl : lookup name = some (toString n)) (h : Count n) : max ((usizeVar lookup name).getD d) 1 = n := by
  have hvar : usizeVar lookup name = some n := usizeVar_toString hl h.2
  rw [hvar]
  exact max_eq_left h.1

theorem optional_environment {lookup : Lookup} {limit : Nat} {o : Option Nat} {name : String}
    (hl : lookup name = o.map toString) (h : ∀ n ∈ o, n ≤ limit) : unsignedVar lookup limit name = o := by
  cases o with
  | none =>
    unfold unsignedVar
    rw [hl]
    rfl
  | some n => exact usizeVar_toString hl (h n rfl)

theorem flagVar_bit {lookup : Lookup} {b : Bool} {name : String} (hl : lookup name = some (bit b)) :
    flagVar lookup name = b := by
  unfold flagVar
  rw [hl]
  cases b <;> decide

theorem disabledVar_bit {lookup : Lookup} {b : Bool} {name : String} (hl : lookup name = some (bit b)) :
    (!disabledVar lookup name) = b := by
  unfold disabledVar
  rw [hl]
  cases b <;> decide

theorem bitVar_bit {lookup : Lookup} {b : Bool} {name : String} (hl : lookup name = some (bit b)) :
    bitVar lookup name = some b := by
  unfold bitVar
  rw [hl]
  cases b <;> decide

theorem f64Var_print {lookup : Lookup} {x : F64} {name : String} (hl : lookup name = some x.print)
    (h : x.IsDouble) : f64Var lookup name = some x := by
  unfold f64Var
  rw [hl]
  exact parseF64_print h

/-- a printed grid is read back -/
theorem filterMap_printShape {shapes : List Shape} (h : ∀ s ∈ shapes, s.1 ≤ usizeMax ∧ s.2 ≤ usizeMax) :
    (shapes.map printShape).filterMap warmupToken = shapes := by
  induction shapes with
  | nil => rfl
  | cons s shapes ih =>
    obtain ⟨hb, hq⟩ := h s List.mem_cons_self
    have hs : warmupToken (printShape s) = some s := by
      have hpad := warmupToken_print ⟨[], s, [], by simp, by simp, hb, hq⟩
      rwa [PaddedShape.print, List.append_nil, List.nil_append] at hpad
    rw [List.map_cons, List.filterMap_cons_some hs, ih fun t ht => h t (List.mem_cons_of_mem _ ht)]

theorem comma_not_mem_printShape (s : Shape) : ',' ∉ printShape s := by
  intro h
  rcases mem_printShape h with h | h
  · exact absurd h (by decide)
  · exact absurd h (by decide)

theorem warmupShapes_environment (h : c.WellFormed entries) :
    trtWarmupShapes c.environment = c.trtWarmupShapes := by
  obtain ⟨hne, hle⟩ := h.trtWarmupShapes
  show parseTrtWarmupShapes
    (some (String.ofList ([','].intercalate (c.trtWarmupShapes.map printShape)))) = _
  rw [parseTrtWarmupShapes_join, filterMap_printShape hle, if_neg]
  · exact fun hnil => hne (List.isEmpty_iff.mp hnil)
  · intro token htoken
    obtain ⟨s, -, rfl⟩ := List.mem_map.mp htoken
    exact comma_not_mem_printShape s

theorem resolve_environment (h : c.WellFormed entries) :
    resolveCostModelOverride c.environment c.maxSeqLength = c.costModelOverride := by
  have hflag : flagVar c.environment "BGE_M3_DISABLE_AUTO_BUDGET" = false := rfl
  have htoken : usizeVar c.environment "BGE_M3_TOKEN_BUDGET" = none := rfl
  have ha : c.environment "BGE_M3_COST_MODEL_A" = c.costModelOverride.map fun cm => cm.a.print := rfl
  have hb : c.environment "BGE_M3_COST_MODEL_B" = c.costModelOverride.map fun cm => cm.b.print := rfl
  unfold resolveCostModelOverride
  rw [hflag, htoken, ha, hb]
  cases hcm : c.costModelOverride with
  | none => rfl
  | some cm =>
    obtain ⟨hda, hdb, hle⟩ := h.costModelCpu cm hcm
    have hws : declaredWorkspace c.environment = cm.maxWorkspaceBytes := by
      have hvar : usizeVar c.environment "BGE_M3_AVAILABLE_MEMORY_BYTES" = some cm.maxWorkspaceBytes :=
        usizeVar_toString
          (congrArg (Option.map fun m : FloatCostModel => toString m.maxWorkspaceBytes) hcm) hle
      rw [declaredWorkspace, hvar]
      rfl
    dsimp only [Option.map_some]
    rw [parseF64_print hda, parseF64_print hdb, hws]
    rfl

theorem clamp_of_safetyFactor {x : F64} (h : SafetyFactor x) :
    x.clamp ((F64.ofRat (1 / 10)).stand 0) 1 = x := by
  rcases h with rfl | ⟨q, rfl, -, hlo, hhi⟩
  · rfl
  · show F64.fin (min (max q _) 1) = .fin q
    rw [max_eq_left hlo, min_eq_left hhi]

theorem SafetyFactor.isDouble {x : F64} (h : SafetyFactor x) : x.IsDouble := by
  rcases h with rfl | ⟨q, -, hd, -, -⟩
  · trivial
  · exact hd

theorem gpuCount_environment (h : c.WellFormed entries) :
    detectGpuCount (usizeVar c.environment "BGE_M3_GPU_COUNT") (countNvidiaGpusFromProc entries) =
      c.gpuCount := by
  have henv : c.environment "BGE_M3_GPU_COUNT" =
      if c.gpuCount ≤ usizeMax then some (toString c.gpuCount) else none := rfl
  obtain ⟨hpos, hcount⟩ := h.gpuCount
  by_cases hle : c.gpuCount ≤ usizeMax
  · rw [if_pos hle] at henv
    have hvar : usizeVar c.environment "BGE_M3_GPU_COUNT" = some c.gpuCount := usizeVar_toString henv hle
    rw [hvar]
    exact max_eq_left hpos
  · -- more devices than a numeral can say are counted
    rw [if_neg hle] at henv
    have hvar : usizeVar c.environment "BGE_M3_GPU_COUNT" = none := by
      rw [usizeVar, henv]
      rfl
    have hproc : countNvidiaGpusFromProc entries = some c.gpuCount :=
      Option.filter_eq_some_iff.mpr ⟨hcount.resolve_left hle, decide_eq_true hpos⟩
    rw [hvar, hproc]
    rfl

theorem config_environment (h : c.WellFormed entries) :
    Config.fromLookup c.environment (countNvidiaGpusFromProc entries) = c.toConfig := by
  generalize hcfg : Config.fromLookup c.environment (countNvidiaGpusFromProc entries) = cfg
  have hseq : cfg.maxSeqLength = c.maxSeqLength := by
    have hvar : usizeVar c.environment "BGE_M3_MAX_SEQ_LENGTH" = some c.maxSeqLength :=
      usizeVar_toString rfl (h.maxSeqLength.2.trans (by decide))
    obtain ⟨hpos, hle⟩ := h.maxSeqLength
    rw [← hcfg]
    show ite _ _ _ = _
    rw [hvar]
    exact if_neg (by dsimp only [Option.getD_some]; omega)
  have hep : cfg.ep = c.ep := by
    have henv : c.environment "BGE_M3_EP" = some c.ep.display := rfl
    rw [← hcfg]
    unfold Config.fromLookup
    dsimp only
    rw [henv]
    cases c.ep <;> rfl
  have hvariant : cfg.modelVariant = c.modelVariant := by
    have henv : c.environment "BGE_M3_MODEL" = some c.modelVariant.display := rfl
    rw [← hcfg]
    unfold Config.fromLookup
    dsimp only
    rw [henv]
    cases c.modelVariant <;> rfl
  have hvram : cfg.gpuVramBudgetBytes = c.gpuVramBudgetBytes := by
    rw [← hcfg]
    exact optional_environment rfl h.gpuVramBudgetBytes
  have hsafety : cfg.memorySafetyFactor = c.memorySafetyFactor := by
    have hvar : f64Var c.environment "BGE_M3_MEMORY_SAFETY_FACTOR" = some c.memorySafetyFactor :=
      f64Var_print rfl h.memorySafetyFactor.isDouble
    rw [← hcfg]
    show F64.clamp (Option.getD _ _) _ _ = _
    rw [hvar]
    exact clamp_of_safetyFactor h.memorySafetyFactor
  have hmodel : cfg.costModelOverride = c.costModelOverride := by
    have hdef : cfg.costModelOverride =
        if cfg.ep = .cpu then resolveCostModelOverride c.environment cfg.maxSeqLength
        else some (.conservative (cfg.gpuVramBudgetBytes.getD defaultGpuVramBudgetBytes)) := by
      rw [← hcfg]
      rfl
    rw [hdef, hep, hseq, hvram]
    split
    · exact resolve_environment h
    · rename_i hgpu
      exact (h.costModelGpu hgpu).symm
  apply Config.ext
  case workers =>
    rw [← hcfg]
    exact count_environment rfl h.workers
  case maxSeqLength => exact hseq
  case modelVariant => exact hvariant
  case memorySafetyFactor => exact hsafety
  case costModelOverride => exact hmodel
  case ep => exact hep
  case gpuVramBudgetBytes => exact hvram
  case gpuCount =>
    rw [← hcfg]
    exact gpuCount_environment h

theorem idleTimeout_environment (h : c.WellFormed entries) :
    (Settings.fromLookup c.environment entries).idleTimeout = c.idleTimeout := by
  have henv : c.environment "BGE_M3_IDLE_TIMEOUT_SECS" = some (toString (c.idleTimeout.getD 0)) := rfl
  show ite _ _ _ = _
  cases hidle : c.idleTimeout with
  | none =>
    rw [hidle] at henv
    rw [usizeVar_toString henv (Nat.zero_le _)]
    rfl
  | some n =>
    obtain ⟨hpos, hle⟩ := h.idleTimeout n hidle
    rw [hidle] at henv
    rw [usizeVar_toString henv hle]
    exact if_pos hpos

/-- an environment written for settings gives these -/
theorem fromLookup_environment (h : c.WellFormed entries) :
    Settings.fromLookup c.environment entries = c := by
  have hconfig := config_environment h
  have hget {limit d n : Nat} {name : String} (hl : c.environment name = some (toString n))
      (hle : n ≤ limit) : (unsignedVar c.environment limit name).getD d = n := by
    rw [usizeVar_toString hl hle]
    rfl
  apply Settings.ext
  case workers => exact congrArg Config.workers hconfig
  case maxSeqLength => exact congrArg Config.maxSeqLength hconfig
  case modelVariant => exact congrArg Config.modelVariant hconfig
  case memorySafetyFactor => exact congrArg Config.memorySafetyFactor hconfig
  case costModelOverride => exact congrArg Config.costModelOverride hconfig
  case ep => exact congrArg Config.ep hconfig
  case gpuVramBudgetBytes => exact congrArg Config.gpuVramBudgetBytes hconfig
  case gpuCount => exact congrArg Config.gpuCount hconfig
  case cacheDir => rfl
  case bindAddr => rfl
  case tlsCertPath => rfl
  case tlsKeyPath => rfl
  case intraThreads => exact count_environment rfl h.intraThreads
  case maxBatch => exact count_environment rfl h.maxBatch
  case idleTimeout => exact idleTimeout_environment h
  case heartbeatSecs => exact hget rfl h.heartbeatSecs
  case trtMaxWorkspaceBytes => exact optional_environment rfl h.trtMaxWorkspaceBytes
  case gpuMemLimitBytes => exact optional_environment rfl h.gpuMemLimitBytes
  case adaptiveWarmupEnabled => exact flagVar_bit rfl
  case enginePropagationEnabled => exact congrArg (Option.getD · _) (bitVar_bit rfl)
  case adaptiveWarmupQuietSecs => exact hget rfl h.adaptiveWarmupQuietSecs
  case adaptiveWarmupMaxShapesPerHour => exact hget rfl h.adaptiveWarmupMaxShapesPerHour
  case trtWarmupShapes =>
    rw [fromLookup_trtWarmupShapes]
    exact warmupShapes_environment h
  case warmupOnly => exact flagVar_bit rfl
  case prewarmStrict => exact disabledVar_bit rfl
  case maxBodyBytes => exact hget rfl h.maxBodyBytes
  case circuitBreakerThreshold => exact count_environment rfl h.circuitBreakerThreshold
  case trtInbandJitGuardEnabled => exact disabledVar_bit rfl
  case trtInbandJitGuardSeq => exact count_environment rfl h.trtInbandJitGuardSeq

/-- **The settings that environments give.**  What `from_env` accepts is well formed: counts are at least
one, the sequence length is one of the model, the grid is not empty, a GPU bypasses the probe.  Any
well-formed settings have an environment that gives exactly these.  The only error is half a TLS pair. -/
theorem settings_range (entries : Option Nat) :
    (∀ lookup c, Settings.fromEnv lookup entries = .ok c → c.WellFormed entries) ∧
    (∀ c : Settings, c.WellFormed entries → Settings.fromEnv c.environment entries = .ok c) ∧
    ∀ lookup : Lookup, (∃ e, Settings.fromEnv lookup entries = .error e) ↔
      ((lookup "BGE_M3_TLS_CERT_PATH").isSome ≠ (lookup "BGE_M3_TLS_KEY_PATH").isSome) := by
  refine ⟨?_, ?_, ?_⟩
  · intro lookup c h
    obtain ⟨rfl, htls⟩ := fromEnv_ok.mp h
    exact fromLookup_wellFormed htls
  · intro c h
    exact fromEnv_ok.mpr ⟨(fromLookup_environment h).symm, h.tls⟩
  · intro lookup
    have hok : (∃ c, Settings.fromEnv lookup entries = .ok c) ↔
        (lookup "BGE_M3_TLS_CERT_PATH").isSome = (lookup "BGE_M3_TLS_KEY_PATH").isSome :=
      ⟨fun ⟨_, h⟩ => (fromEnv_ok.mp h).2, fun htls => ⟨_, fromEnv_ok.mpr ⟨rfl, htls⟩⟩⟩
    rw [ne_eq, ← hok]
    cases Settings.fromEnv lookup entries with
    | ok c => simp
    | error e => simp

end

end EmbedServer
