import EmbedServer.Embed.Routes

/-!
# Error texts, the halved-budget retry and inference outcomes (`worker/trt_retry.rs`, `worker/guard.rs`)

Three texts decide what becomes of a failed request: `isTrtJitOom` looks at the outermost text of the
error, `isTrtEngineBuildFatal` at the whole chain, and a guard refusal is found by its type.
-/

namespace EmbedServer

/-- `CHUNK_CACHE_HIT_THRESHOLD_MS` -/
def chunkCacheHitThresholdMs : Nat := 5000

def isTrtJitOom (e : AnyError) : Bool :=
  let lowercase := toLowercase e.display
  containsStr lowercase "user allocator error"
    || (containsStr lowercase "could not find any implementation"
        && (containsStr lowercase "workspace" || containsStr lowercase "alloc"))
    || (containsStr lowercase "failed to create engine"
        && (containsStr lowercase "workspace" || containsStr lowercase "alloc"
          || containsStr lowercase "memory" || containsStr lowercase "oom"
          || containsStr lowercase "tactic"))

def isTrtEngineBuildFatal (e : AnyError) : Bool :=
  let lowercase := toLowercase e.displayAlt
  containsStr lowercase "failed to build engine"
    || containsStr lowercase "failed to create engine from network"

/-- half the workspace budget, at least 1 MiB -/
def CostModel.halved (cm : CostModel) : CostModel :=
  { cm with maxWorkspaceBytes := max (cm.maxWorkspaceBytes / 2) (1024 * 1024) }

/-- one call, and a second one under the halved budget after a JIT workspace overflow -/
def embedWithTrtRetry {σ α : Type} (embedFn : CostModel → Exec σ AnyError α) (baseCm : CostModel) :
    Exec σ AnyError α := fun s =>
  match embedFn baseCm s with
  | (.err e, s') => if isTrtJitOom e then embedFn baseCm.halved s' else (.err e, s')
  | r => r

/-! ## outcomes -/

inductive InferenceOutcome where
  | ok
  | failure
  | trtFatal
  | circuitBreak
  | rejected
deriving DecidableEq, Repr

def classifyInferenceOutcome (trtFatal guardRejected isErr : Bool)
    (consecutiveFailures circuitBreakerThreshold : Nat) : InferenceOutcome :=
  if trtFatal then .trtFatal
  else if guardRejected then .rejected
  else if isErr then
    if consecutiveFailures + 1 ≥ circuitBreakerThreshold then .circuitBreak else .failure
  else .ok

def nextConsecutiveFailures (outcome : InferenceOutcome) (consecutiveFailures : Nat) : Nat :=
  match outcome with
  | .ok | .circuitBreak => 0
  | .failure => consecutiveFailures + 1
  | .trtFatal | .rejected => consecutiveFailures

def shouldUnloadOnOutcome (outcome : InferenceOutcome) : Bool := outcome == .circuitBreak

/-- classification of a finished embed call -/
def outcomeOf {α : Type} (result : Except AnyError α) (consecutiveFailures threshold : Nat) :
    InferenceOutcome :=
  match result with
  | .ok _ => classifyInferenceOutcome false false false consecutiveFailures threshold
  | .error e => classifyInferenceOutcome (isTrtEngineBuildFatal e) (isTrtShapeRejected e) true
      consecutiveFailures threshold

/-! ## the text of a refusal -/

/-- the fixed parts of the refusal text, before, between and after its numbers -/
def rejectionParts (lead : String) : List (List String) :=
  [[lead, "refusing in-band TensorRT ", "JIT for chunk (batch="],
    [", seq="],
    ["): seq is at/above ", "the guard threshold ("],
    [") and exceeds the pool's ", "warmed engine coverage ", "(max warmed seq="],
    ["). Issuing this run ", "risks a pathological ", "autotuner allocation that ",
      "can crash the worker. ", "The request is retriable ", "once warmup coverage extends."]]

/-- a pattern without digits that is in none of the fixed parts -/
def absent (lead p : String) : Bool :=
  noDigit p && (rejectionParts lead).all fun part => !decide (p.toList <:+: part.flatMap lowerChars)

/-- such a pattern is not in the text, whatever the numbers are -/
theorem not_contains_rejection (r : TrtJitRejection) (lead : String) {p : String}
    (h : absent lead p = true) : containsStr (toLowercase (lead ++ r.display)) p = false := by
  unfold absent at h
  rw [Bool.and_eq_true] at h
  obtain ⟨hp, hparts⟩ := h
  simp only [rejectionParts, List.all_cons, List.all_nil, Bool.and_true, Bool.and_eq_true,
    Bool.not_eq_true', decide_eq_false_iff_not] at hparts
  obtain ⟨h1, h2, h3, h4, h5⟩ := hparts
  have hno := not_infix_num r.warmedSeqCeiling hp (not_infix_num r.guardSeq hp
    (not_infix_num r.seq hp (not_infix_num r.batch hp h1 h2) h3) h4) h5
  simp only [List.flatMap_cons, List.flatMap_nil, List.append_nil, List.append_assoc] at hno
  rw [containsStr, decide_eq_false_iff_not, toList_toLowercase]
  unfold TrtJitRejection.display
  -- the literals stay apart: joined, they would no longer be the parts above
  simp only [lowerChars_append, -String.reduceAppend]
  simp only [lowerChars_num, List.append_assoc]
  exact hno

/-- the context texts of the three routes -/
def routeContexts : List String := ["Dense embed error", "Sparse embed error", "Dual embed error"]

/-- none of the searched patterns is in a fixed part of a refusal, alone or under a route's context -/
theorem patterns_absent :
    ((["user allocator error", "could not find any implementation", "failed to create engine"].all
      fun p => absent "" p) &&
    routeContexts.all fun t => absent (t ++ ": ") "failed to build engine" &&
      absent (t ++ ": ") "failed to create engine from network") = true := by
  decide +kernel

/-- **A refusal is never taken for a JIT workspace overflow**, whatever numbers it prints. -/
theorem isTrtJitOom_rejection (r : TrtJitRejection) : isTrtJitOom (.ofRejection r) = false := by
  obtain ⟨h, -⟩ := Bool.and_eq_true_iff.mp patterns_absent
  simp only [List.all_cons, List.all_nil, Bool.and_true, Bool.and_eq_true] at h
  obtain ⟨h1, h2, h3⟩ := h
  have hnot : ∀ p, absent "" p = true →
      containsStr (toLowercase (AnyError.ofRejection r).display) p = false := by
    intro p hp
    have h := not_contains_rejection r "" hp
    rwa [String.empty_append] at h
  unfold isTrtJitOom
  dsimp only
  rw [hnot _ h1, hnot _ h2, hnot _ h3]
  rfl

/-- **A refusal is never taken for a fatal engine build**, under the context of any route. -/
theorem isTrtEngineBuildFatal_rejection (r : TrtJitRejection) {text : String}
    (ht : text ∈ routeContexts) : isTrtEngineBuildFatal ((AnyError.ofRejection r).context text) = false := by
  have e : ((AnyError.ofRejection r).context text).displayAlt = (text ++ ": ") ++ r.display := by
    simp [AnyError.displayAlt, AnyError.context, AnyError.ofRejection, RootCause.display]
  obtain ⟨-, h⟩ := Bool.and_eq_true_iff.mp patterns_absent
  obtain ⟨h1, h2⟩ := Bool.and_eq_true_iff.mp (List.all_eq_true.mp h text ht)
  unfold isTrtEngineBuildFatal
  rw [e]
  dsimp only
  rw [not_contains_rejection r _ h1, not_contains_rejection r _ h2]
  rfl

theorem isTrtShapeRejected_rejection (r : TrtJitRejection) (text : String) :
    isTrtShapeRejected ((AnyError.ofRejection r).context text) = true :=
  (isTrtShapeRejected_iff _).mpr ⟨r, rfl⟩

end EmbedServer
