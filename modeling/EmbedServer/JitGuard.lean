import EmbedServer.Lib.Outcome
import EmbedServer.Binpack

/-!
# The in-band TensorRT JIT admission guard (`jit_guard.rs`)

`guardChunks` walks the chunks in order and refuses at the first one whose longest text is at or
above `guardSeq` and above the warmed ceiling.  On the chunks of `binPack` the verdict depends on the
text lengths alone (`guardChunks_binPack`), whatever the cost model made of them.
-/

namespace EmbedServer

structure TrtJitRejection where
  batch : Nat
  seq : Nat
  guardSeq : Nat
  warmedSeqCeiling : Nat
deriving DecidableEq, Repr

/-- `impl Display for TrtJitRejection` -/
def TrtJitRejection.display (r : TrtJitRejection) : String :=
  "refusing in-band TensorRT " ++ "JIT for chunk (batch=" ++ toString r.batch ++ ", seq=" ++
  toString r.seq ++ "): seq is at/above " ++ "the guard threshold (" ++ toString r.guardSeq ++
  ") and exceeds the pool's " ++ "warmed engine coverage " ++ "(max warmed seq=" ++
  toString r.warmedSeqCeiling ++ "). Issuing this run " ++ "risks a pathological " ++
  "autotuner allocation that " ++ "can crash the worker. " ++ "The request is retriable " ++
  "once warmup coverage extends."

structure TrtJitGuard where
  guardSeq : Nat
  warmedSeqCeiling : Nat
deriving DecidableEq, Repr

namespace TrtJitGuard

/-- the sequence length is dangerous and not covered -/
def refuses (g : TrtJitGuard) (seq : Nat) : Bool :=
  decide (seq ≥ g.guardSeq) && decide (seq > g.warmedSeqCeiling)

/-- `admit` -/
def admitShape (g : TrtJitGuard) (batch seq : Nat) : Except TrtJitRejection Unit :=
  if g.refuses seq then
    .error { batch, seq, guardSeq := g.guardSeq, warmedSeqCeiling := g.warmedSeqCeiling }
  else .ok ()

theorem refuses_iff (g : TrtJitGuard) (seq : Nat) :
    g.refuses seq = true ↔ g.guardSeq ≤ seq ∧ g.warmedSeqCeiling < seq := by
  simp [refuses]

end TrtJitGuard

/-- one chunk of `guard_chunks` -/
def guardChunk (g : TrtJitGuard) (seqLens chunk : List Nat) : Outcome TrtJitRejection Unit := do
  let seqs ← chunk.mapM (Outcome.index seqLens)
  let chunkSeq := seqs.max?.getD 0
  Outcome.ofExcept id (g.admitShape chunk.length chunkSeq)

def guardChunks (guard : Option TrtJitGuard) (chunks : List (List Nat)) (seqLens : List Nat) :
    Outcome TrtJitRejection Unit :=
  match guard with
  | none => .ok ()
  | some g => chunks.foldlM (fun _ chunk => guardChunk g seqLens chunk) ()

/-! ## the verdict -/

section
variable (g : TrtJitGuard) (lens : List Nat)

/-- what the refusal of a chunk reports -/
def rejectionOf (chunk : List Nat) : TrtJitRejection :=
  ⟨chunk.length, chunkSeq lens chunk, g.guardSeq, g.warmedSeqCeiling⟩

theorem mapM_index {ε : Type} {l c : List Nat} (h : ∀ i ∈ c, i < l.length) :
    (c.mapM (Outcome.index l) : Outcome ε (List Nat)) = .ok (c.map (seqAt l)) := by
  refine Outcome.mapM_ok fun i hi => Outcome.index_ok ?_
  rw [seqAt_of_lt (h i hi), List.getElem?_eq_getElem (h i hi)]

theorem guardChunk_eq {c : List Nat} (h : ∀ i ∈ c, i < lens.length) :
    guardChunk g lens c =
      if g.refuses (chunkSeq lens c) then .err (rejectionOf g lens c) else .ok () := by
  have e : guardChunk g lens c = Outcome.ofExcept id (g.admitShape c.length (chunkSeq lens c)) := by
    unfold guardChunk
    rw [mapM_index h, Outcome.bind_ok]
    rfl
  rw [e, TrtJitGuard.admitShape]
  split <;> rfl

/-- the first refused chunk decides -/
theorem guardChunks_eq {chunks : List (List Nat)} (h : ∀ c ∈ chunks, ∀ i ∈ c, i < lens.length) :
    guardChunks (some g) chunks lens =
      match chunks.find? fun c => g.refuses (chunkSeq lens c) with
      | none => .ok ()
      | some c => .err (rejectionOf g lens c) := by
  show chunks.foldlM (fun _ c => guardChunk g lens c) () = _
  induction chunks with
  | nil => rfl
  | cons c cs ih =>
    have ih' := ih fun c' hc' => h c' (List.mem_cons_of_mem _ hc')
    rw [List.foldlM_cons, guardChunk_eq g lens (h c List.mem_cons_self), List.find?_cons]
    cases g.refuses (chunkSeq lens c) with
    | true => rfl
    | false => exact ih'

/-- a chunk is refused exactly when one of its texts is -/
theorem refuses_chunkSeq {c : List Nat} (hne : c ≠ []) :
    g.refuses (chunkSeq lens c) = true ↔ ∃ i ∈ c, g.refuses (seqAt lens i) = true := by
  constructor
  · intro h
    obtain ⟨i, hi, e⟩ := List.mem_map.mp
      (top_mem (l := c.map (seqAt lens)) (by simpa using hne))
    exact ⟨i, hi, by rw [e]; exact h⟩
  · rintro ⟨i, hi, h⟩
    rw [TrtJitGuard.refuses_iff] at h ⊢
    have hle : seqAt lens i ≤ chunkSeq lens c := le_top (List.mem_map_of_mem hi)
    omega

variable (S : UnstableSort) (cm : CostModel)

/-- some text is dangerous and uncovered -/
def Uncovered (lens : List Nat) : Prop := ∃ l ∈ lens, g.guardSeq ≤ l ∧ g.warmedSeqCeiling < l

theorem exists_seqAt_iff (P : Nat → Prop) :
    (∃ i < lens.length, P (seqAt lens i)) ↔ ∃ l ∈ lens, P l := by
  constructor
  · rintro ⟨i, hi, h⟩
    refine ⟨lens[i], List.getElem_mem hi, ?_⟩
    rwa [seqAt_of_lt hi] at h
  · rintro ⟨l, hl, h⟩
    obtain ⟨i, hi, rfl⟩ := List.getElem_of_mem hl
    exact ⟨i, hi, by rwa [seqAt_of_lt hi]⟩

/-- some chunk of the packing is refused exactly when some text is dangerous and uncovered -/
theorem exists_refused_iff :
    (∃ c ∈ binPack S lens cm, g.refuses (chunkSeq lens c) = true) ↔ Uncovered g lens := by
  rw [Uncovered, ← exists_seqAt_iff lens fun l => g.guardSeq ≤ l ∧ g.warmedSeqCeiling < l]
  constructor
  · rintro ⟨c, hc, h⟩
    obtain ⟨i, hi, h'⟩ := (refuses_chunkSeq g lens (binPack_ne_nil hc)).mp h
    exact ⟨i, binPack_lt hc hi, (g.refuses_iff _).mp h'⟩
  · rintro ⟨i, hi, h⟩
    have hmem : i ∈ (binPack S lens cm).flatten :=
      (binPack_perm S lens cm).mem_iff.mpr (List.mem_range.mpr hi)
    obtain ⟨c, hc, hic⟩ := List.mem_flatten.mp hmem
    exact ⟨c, hc, (refuses_chunkSeq g lens (binPack_ne_nil hc)).mpr ⟨i, hic, (g.refuses_iff _).mpr h⟩⟩

/-- **The verdict on a packed request**: a refusal of one of its chunks if some text is dangerous
and uncovered, admission otherwise. -/
theorem guardChunks_binPack :
    (Uncovered g lens → ∃ c ∈ binPack S lens cm,
      guardChunks (some g) (binPack S lens cm) lens = .err (rejectionOf g lens c)) ∧
    (¬ Uncovered g lens → guardChunks (some g) (binPack S lens cm) lens = .ok ()) := by
  rw [guardChunks_eq g lens fun c hc i hi => binPack_lt hc hi]
  constructor
  · intro hu
    obtain ⟨c, hc, h⟩ := (exists_refused_iff g lens S cm).mpr hu
    cases hf : (binPack S lens cm).find? fun c => g.refuses (chunkSeq lens c) with
    | none => exact absurd h (List.find?_eq_none.mp hf c hc)
    | some d => exact ⟨d, List.mem_of_find?_eq_some hf, rfl⟩
  · intro hu
    cases hf : (binPack S lens cm).find? fun c => g.refuses (chunkSeq lens c) with
    | none => rfl
    | some d =>
      have hd : g.refuses (chunkSeq lens d) = true := by simpa using List.find?_some hf
      exact absurd ((exists_refused_iff g lens S cm).mp ⟨d, List.mem_of_find?_eq_some hf, hd⟩) hu

end
end EmbedServer
