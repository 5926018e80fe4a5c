import EmbedServer.Probe.Corpus
import EmbedServer.Probe.Fit
import EmbedServer.Trt.Prewarm
import Mathlib.Data.List.Sort

/-!
# The shape sweep of the startup probe (`probe/runner.rs`, `probe/validate.rs`)

The replies of the pool, the RSS readings and the corpus file come from outside.  The shapes
submitted to the pool are recorded, in order.
-/

namespace EmbedServer

def probeShapes : List Shape := [(1, 64), (4, 64), (1, 256), (1, 1024), (1, 2048), (1, 4096)]

/-- what the sweep reads -/
structure ProbeEnv where
  /-- texts of the corpus file, `none` if it cannot be read -/
  fixture : Option (List String)
  /-- `read_process_rss_bytes` before the shape at the given place of the sweep -/
  rss : Nat → Option Nat
  /-- reply to the submission with the given number; number 0 is the arena warm-up -/
  reply : Nat → Except AnyError ProbeResult

/-- two `i64` arrays of shape `(1, max_seq)` -/
def validateMaxSeqShape (maxSeq : Nat) : Outcome Empty Unit :=
  if maxSeq * 8 ≤ isizeMax then .ok () else .panic "capacity overflow"

/-- the static shapes and `(1, max_seq)`, within range, by ascending token count -/
def sweepShapes (maxSeq : Nat) : List Shape :=
  let shapes := if probeShapes.any (fun s => s.2 == maxSeq) then probeShapes
    else probeShapes ++ [(1, maxSeq)]
  (shapes.filter fun s => s.2 ≤ maxSeq).insertionSort fun s t => s.1 * s.2 ≤ t.1 * t.2

structure Sweep where
  data : List DataPoint
  shapesSkipped : Nat
  shapesErrored : Nat
  submitted : List Shape

/-- `chunk_cost(batch, seq) as usize` -/
def CostModel.chunkCostUsize (cm : CostModel) (batch seq : Nat) : Nat := cm.chunkCost batch seq % 2 ^ 64

/-- the absolute-RSS guard, against a reading of the process RSS -/
def breachesCgroup (conservative : CostModel) (cgroupLimitBytes currentRss : Nat) (shape : Shape) : Bool :=
  let estimatedCost := conservative.chunkCostUsize shape.1 shape.2
  let headroom := cgroupLimitBytes / 8
  let rssLimit := cgroupLimitBytes - headroom
  let projected := min (currentRss + min (estimatedCost * 4) usizeMax) usizeMax
  decide (projected > rssLimit)

def sweepStep (env : ProbeEnv) (corpusTexts : List String) (conservative : CostModel)
    (cgroupLimitBytes : Nat) (st : Sweep) (shape : Shape × Nat) : Outcome Empty Sweep := do
  let (s, i) := shape
  if !conservative.fits s.1 s.2 then return { st with shapesSkipped := st.shapesSkipped + 1 }
  if cgroupLimitBytes > 0 && breachesCgroup conservative cgroupLimitBytes ((env.rss i).getD 0) s then
    return { st with shapesSkipped := st.shapesSkipped + 1 }
  let _texts ← synthesizeTexts corpusTexts s.1 s.2
  let st' := { st with submitted := st.submitted ++ [s] }
  match env.reply st.submitted.length with
  | .ok r => return { st' with data := st.data ++ [⟨s.1, s.2, r.rssAfter - r.rssBefore⟩] }
  | .error _ => return { st' with shapesErrored := st.shapesErrored + 1 }

/-- the coefficients of a finished sweep -/
def sweepResult (data : List DataPoint) : Rat × Rat :=
  if data.isEmpty then (CostModel.conservativeA, CostModel.conservativeB)
  else if data.all fun dp => dp.rssDelta == 0 then (CostModel.conservativeA, CostModel.conservativeB)
  else (fitCostModel data).getD (CostModel.conservativeA, CostModel.conservativeB)

def runProbe (env : ProbeEnv) (maxSeq rssCeiling cgroupLimitBytes : Nat) :
    Outcome Empty ((Rat × Rat) × List Shape) := do
  validateMaxSeqShape maxSeq
  let shapes := sweepShapes maxSeq
  let conservative := CostModel.conservative rssCeiling
  let corpusTexts := loadProbeTexts env.fixture
  let _warmupTexts ← synthesizeTexts corpusTexts 1 64
  -- the reply to the warm-up is only logged
  let st ← shapes.zipIdx.foldlM (sweepStep env corpusTexts conservative cgroupLimitBytes)
    ⟨[], 0, 0, [(1, 64)]⟩
  pure (sweepResult st.data, st.submitted)

end EmbedServer
