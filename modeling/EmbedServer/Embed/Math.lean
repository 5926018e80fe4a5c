import Mathlib.Algebra.BigOperators.Group.List.Basic
import Mathlib.Algebra.Order.Ring.Nat
import EmbedServer.Lib.Outcome
import EmbedServer.Lib.Segment

/-!
# Dense and sparse math helpers (`embedder/math.rs`, `embedder/types.rs`)

`f32` is an arbitrary type `F` with uninterpreted operations (`F32Ops F`): nothing below
depends on rounding.  `HashMap<usize, f32>` is an association list; its key order never shows, since
`sparse_maxpool` sorts the keys.
-/

namespace EmbedServer

/-- the `f32` operations the pipeline uses; `dot` is ndarray's dot product -/
class F32Ops (F : Type) where
  zero : F
  add : F → F → F
  mul : F → F → F
  div : F → F → F
  max : F → F → F
  sqrt : F → F
  gt : F → F → Bool
  dot : List F → List F → F

/-- `weights::sparse_linear()` -/
structure SparseLinear (F : Type) where
  weight : List F
  bias : F

structure SparseEmbedding (F : Type) where
  indices : List Nat
  values : List F
deriving DecidableEq, Repr

structure DualEmbedding (F : Type) where
  dense : List F
  sparse : SparseEmbedding F
deriving DecidableEq, Repr

/-- CLS, PAD, SEP/EOS, UNK -/
def specialTokens : List Nat := [0, 1, 2, 3]

section
variable {F : Type} [F32Ops F]
open F32Ops

def normalizeL2 (vec : List F) : List F :=
  let norm := sqrt ((vec.map fun x => mul x x).foldl add zero)
  if gt norm zero then vec.map fun x => div x norm else vec

def sparseProject (hidden : List F) (linear : SparseLinear F) : F :=
  F32Ops.max (add (dot hidden linear.weight) linear.bias) zero

/-- `entry(k).and_modify(|w| *w = w.max(score)).or_insert(score)` -/
def bump (weights : List (Nat × F)) (k : Nat) (score : F) : List (Nat × F) :=
  match weights with
  | [] => [(k, score)]
  | (k', w) :: rest =>
    if k' = k then (k', F32Ops.max w score) :: rest else (k', w) :: bump rest k score

/-- one position of the pooling loop -/
def poolStep {ε : Type} (mask : List Nat) (scores : List F) (weights : List (Nat × F)) (p : Nat × Nat) :
    Outcome ε (List (Nat × F)) := do
  let (tokenId, j) := p
  let m ← Outcome.index mask j
  if m = 0 then pure weights
  else if specialTokens.contains tokenId then pure weights
  else
    let score ← Outcome.index scores j
    if gt score zero then pure (bump weights tokenId score) else pure weights

def sparseMaxpool {ε : Type} (ids mask : List Nat) (scores : List F) :
    Outcome ε (List Nat × List F) := do
  let weights ← ids.zipIdx.foldlM (poolStep mask scores) []
  let indices := (weights.map Prod.fst).insertionSort (· ≤ ·)
  let values ← indices.mapM fun k => Outcome.expect "no entry found for key" (weights.lookup k)
  pure (indices, values)

end

/-! ## token-length statistics -/

structure SeqLenDistribution where
  min : Nat
  max : Nat
  mean : Nat
  p95 : Nat
deriving DecidableEq, Repr

def seqLenDistribution (lens : List Nat) : SeqLenDistribution :=
  if lens.isEmpty then ⟨0, 0, 0, 0⟩
  else
    let sorted := lens.insertionSort (· ≤ ·)
    let p95Idx := sorted.length * 95 / 100
    { min := lens.min?.getD 0
      max := lens.max?.getD 0
      mean := lens.sum / lens.length
      p95 := sorted.getD (Nat.min p95Idx (sorted.length - 1)) 0 }

structure EmbedStats where
  chunks : Nat
  maxChunkSeq : Nat
  totalTokenPositions : Nat
  tokenizeMs : Nat
  inferenceMs : Nat
  seqLenMin : Nat
  seqLenMax : Nat
  seqLenMean : Nat
  seqLenP95 : Nat
deriving DecidableEq, Repr

/-- `u64::MAX` -/
def u64Max : Nat := 2 ^ 64 - 1

/-- `u64::try_from(ms).unwrap_or(u64::MAX)` -/
def toU64 (ms : Nat) : Nat := min ms u64Max

/-- `u64::saturating_add` -/
def satAddU64 (x y : Nat) : Nat := min (x + y) u64Max

/-! ## pooling never panics -/

section
variable {F : Type} [F32Ops F] {ε : Type} {mask : List Nat} {scores : List F}

theorem poolStep_eq {j m : Nat} {score : F} (hm : mask[j]? = some m) (hs : scores[j]? = some score)
    (weights : List (Nat × F)) (tokenId : Nat) :
    (poolStep mask scores weights (tokenId, j) : Outcome ε _) = .ok
      (if m ≠ 0 ∧ tokenId ∉ specialTokens ∧ F32Ops.gt score F32Ops.zero = true then
        bump weights tokenId score
      else weights) := by
  simp only [poolStep]
  rw [Outcome.index_ok hm, Outcome.bind_ok]
  by_cases hzero : m = 0
  · rw [if_pos hzero, if_neg fun h => h.1 hzero]
    rfl
  · rw [if_neg hzero]
    by_cases hspecial : tokenId ∈ specialTokens
    · rw [if_pos (List.contains_iff_mem.mpr hspecial), if_neg fun h => h.2.1 hspecial]
      rfl
    · rw [if_neg fun h => hspecial (List.contains_iff_mem.mp h), Outcome.index_ok hs, Outcome.bind_ok]
      by_cases hpos : F32Ops.gt score F32Ops.zero = true
      · rw [if_pos hpos, if_pos ⟨hzero, hspecial, hpos⟩]
        rfl
      · rw [if_neg hpos, if_neg fun h => hpos h.2.2]
        rfl

omit [F32Ops F] in
theorem lookup_of_mem_keys {w : List (Nat × F)} {k : Nat} (h : k ∈ w.map Prod.fst) :
    ∃ v, w.lookup k = some v := by
  induction w with
  | nil => simp at h
  | cons p w ih =>
    obtain ⟨k', v⟩ := p
    by_cases hk : k = k'
    · exact ⟨v, by rw [List.lookup_cons, hk]; simp⟩
    · rw [List.map_cons, List.mem_cons] at h
      obtain ⟨u, hu⟩ := ih (h.resolve_left hk)
      exact ⟨u, by rw [List.lookup_cons, beq_false_of_ne hk]; exact hu⟩

/-- the keys in order, and the weight of each -/
theorem sparseMaxpool_of_weights {ids : List Nat} {w : List (Nat × F)}
    (hw : (ids.zipIdx.foldlM (poolStep mask scores) [] : Outcome ε _) = .ok w) :
    (sparseMaxpool ids mask scores : Outcome ε _) =
      .ok ((w.map Prod.fst).insertionSort (· ≤ ·),
        ((w.map Prod.fst).insertionSort (· ≤ ·)).map fun k => (w.lookup k).getD F32Ops.zero) := by
  have hv : ∀ k ∈ (w.map Prod.fst).insertionSort (· ≤ ·),
      (Outcome.expect "no entry found for key" (w.lookup k) : Outcome ε F) =
        .ok ((w.lookup k).getD F32Ops.zero) := by
    intro k hk
    obtain ⟨v, hv⟩ := lookup_of_mem_keys ((List.mem_insertionSort _).mp hk)
    rw [hv]
    rfl
  unfold sparseMaxpool
  rw [hw, Outcome.bind_ok]
  dsimp only
  rw [Outcome.mapM_ok hv]
  rfl

/-- every round of the loop finds its mask entry and its score -/
theorem poolStep_loop {ids : List Nat} (hm : mask.length = ids.length) (hs : scores.length = ids.length)
    (I : List (Nat × Nat) → List (Nat × F) → Prop) (h0 : I [] [])
    (hstep : ∀ pre w tokenId j m score, mask[j]? = some m → scores[j]? = some score → I pre w →
      I (pre ++ [(tokenId, j)])
        (if m ≠ 0 ∧ tokenId ∉ specialTokens ∧ F32Ops.gt score F32Ops.zero = true then bump w tokenId score
          else w)) :
    ∃ w, (ids.zipIdx.foldlM (poolStep mask scores) [] : Outcome ε _) = .ok w ∧ I ids.zipIdx w := by
  apply Outcome.foldlM_ok I ids.zipIdx ?_ [] h0
  rintro pre ⟨tokenId, j⟩ post w hl hI
  have hj : j < ids.length := by
    have hmem : (tokenId, j) ∈ ids.zipIdx := by rw [hl]; simp
    exact (List.snd_lt_add_of_mem_zipIdx hmem).trans_eq (Nat.zero_add _)
  have hmask := List.getElem?_eq_getElem (hj.trans_eq hm.symm)
  have hscore := List.getElem?_eq_getElem (hj.trans_eq hs.symm)
  exact ⟨_, poolStep_eq hmask hscore w tokenId, hstep pre w tokenId j _ _ hmask hscore hI⟩

/-- with one mask entry and one score per id the pooling returns -/
theorem sparseMaxpool_ok {ids : List Nat} (hm : mask.length = ids.length)
    (hs : scores.length = ids.length) :
    ∃ r, (sparseMaxpool ids mask scores : Outcome ε _) = .ok r := by
  obtain ⟨w, hw, -⟩ := poolStep_loop (ε := ε) hm hs (fun _ _ => True) trivial fun _ _ _ _ _ _ _ _ _ => trivial
  exact ⟨_, sparseMaxpool_of_weights hw⟩

end
end EmbedServer
