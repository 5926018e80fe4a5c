import EmbedServer.Embed.Routes
import EmbedServer.Lib.Scatter

/-!
# Pad, run, extract, scatter: the loop the three routes share

A `Route` is what a route does with the outputs of one chunk: `rows outs` extracts its tensors and
returns the value of every row.  `Route.chunk` is the chunk loop over such a route; the loops of
`embed_dense`, `embed_sparse` and `embed_both` are instances of it (`denseChunk_eq`, `sparseChunk_eq`,
`bothChunk_eq`).

* `padOf`, `arraysOf`   padded length and input arrays of a chunk;
* `runsFrom`            the `session.run()` calls of a chunk list with their replies, in order;
* `Route.chunks_ok`     if every row value computes, the loop returns, its trace is the arrays of
                        the chunks, every slot holds the value of its row in its chunk, and no other
                        slot is touched.
-/

namespace EmbedServer

/-- row values of one chunk: batch length, then (original index, position in the chunk) -/
structure Route (F β : Type) where
  rows : Outputs F → Outcome AnyError (Nat → Nat × Nat → Outcome AnyError β)

section
variable {F β : Type} [F32Ops F]

/-- one chunk of a route -/
def Route.chunk (R : Route F β) (m : Models F) (encodings : List Encoding) (seqLens : List Nat)
    (st : LoopState β) (chunk : List Nat) : Exec Trace AnyError (LoopState β) := do
  let seqs ← Exec.lift (chunk.mapM (Outcome.index seqLens))
  let chunkMax := max (seqs.max?.getD 1) 1
  let arrays ← Exec.lift (buildChunkArrays encodings chunk chunkMax)
  Exec.lift (tensorRef arrays.ids)
  Exec.lift (tensorRef arrays.mask)
  let (outputs, elapsed) ← runSession m.session arrays
  let rows ← Exec.lift (R.rows outputs)
  let slots ← Exec.lift (scatter (rows arrays.ids.nrows) st.slots chunk.zipIdx)
  pure { slots, maxChunkSeq := max st.maxChunkSeq chunkMax
         inferenceMs := satAddU64 st.inferenceMs (toU64 elapsed) }

def denseRoute (variant : ModelVariant) : Route F (List F) where
  rows outs := do
    let emb ← denseEmb variant outs
    pure fun batchLen p => do
      Outcome.debugAssert (p.2 < batchLen) "chunk_pos must be within batch"
      denseVec emb p.2

def sparseRoute (linear : SparseLinear F) (encodings : List Encoding) (variant : ModelVariant) :
    Route F (Option (SparseEmbedding F)) where
  rows outs := do
    let emb ← tokenEmb variant outs
    pure fun _ p => do
      let enc ← Outcome.index encodings p.1
      let sparse ← sparseVec linear emb enc p.2
      pure (some sparse)

def bothRoute (linear : SparseLinear F) (encodings : List Encoding) (variant : ModelVariant) :
    Route F (Option (DualEmbedding F)) where
  rows outs := do
    let embs ← bothEmb variant outs
    pure fun _ p => do
      let dense ← denseVec embs.1 p.2
      let enc ← Outcome.index encodings p.1
      let sparse ← sparseVec linear embs.2 enc p.2
      pure (some { dense, sparse })

theorem denseStore_eq (batchLen : Nat) (emb : Nd F) :
    denseStore batchLen emb = fun slots p => (do
      Outcome.debugAssert (p.2 < batchLen) "chunk_pos must be within batch"
      denseVec emb p.2) >>= Outcome.store slots p.1 := by
  funext slots p
  rw [bind_assoc]
  rfl

theorem sparseStore_eq (linear : SparseLinear F) (encs : List Encoding) (emb : Nd F) :
    sparseStore linear encs emb = fun slots p => (do
      let enc ← Outcome.index encs p.1
      let sparse ← sparseVec linear emb enc p.2
      pure (some sparse)) >>= Outcome.store slots p.1 := by
  funext slots p
  simp only [bind_assoc, pure_bind]
  rfl

theorem bothStore_eq (linear : SparseLinear F) (encs : List Encoding) (embs : Nd F × Nd F) :
    bothStore linear encs embs = fun slots p => (do
      let dense ← denseVec embs.1 p.2
      let enc ← Outcome.index encs p.1
      let sparse ← sparseVec linear embs.2 enc p.2
      pure (some { dense, sparse })) >>= Outcome.store slots p.1 := by
  funext slots p
  simp only [bind_assoc, pure_bind]
  rfl

theorem denseChunk_eq (m : Models F) (variant : ModelVariant) (encs : List Encoding)
    (lens : List Nat) :
    denseChunk m variant encs lens = (denseRoute variant).chunk m encs lens := by
  funext st c
  simp only [denseChunk, Route.chunk, denseRoute, Exec.lift_bind, bind_assoc, Outcome.pure_eq,
    Exec.lift_ok_bind, scatter, denseStore_eq]

theorem sparseChunk_eq (m : Models F) (variant : ModelVariant) (encs : List Encoding)
    (lens : List Nat) :
    sparseChunk m variant encs lens = (sparseRoute m.linear encs variant).chunk m encs lens := by
  funext st c
  simp only [sparseChunk, Route.chunk, sparseRoute, Exec.lift_bind, bind_assoc, Outcome.pure_eq,
    Exec.lift_ok_bind, scatter, sparseStore_eq]

theorem bothChunk_eq (m : Models F) (variant : ModelVariant) (encs : List Encoding)
    (lens : List Nat) :
    bothChunk m variant encs lens = (bothRoute m.linear encs variant).chunk m encs lens := by
  funext st c
  simp only [bothChunk, Route.chunk, bothRoute, Exec.lift_bind, bind_assoc, Outcome.pure_eq,
    Exec.lift_ok_bind, scatter, bothStore_eq]

end

/-! ## one chunk -/

section
variable {F β : Type}

/-- token lengths of the encodings -/
def seqLens (encs : List Encoding) : List Nat := encs.map fun e => e.ids.length

/-- padded length of a chunk -/
def padOf (encs : List Encoding) (c : List Nat) : Nat := max (chunkSeq (seqLens encs) c) 1

/-- input arrays of a chunk -/
def arraysOf (encs : List Encoding) (c : List Nat) : ChunkArrays :=
  match buildChunkArrays encs c (padOf encs c) with
  | .ok x => x
  | _ => ⟨⟨[0], [], rfl⟩, ⟨[0], [], rfl⟩⟩

/-- a chunk the packer can produce: not empty, indices in range -/
structure Seated (encs : List Encoding) (c : List Nat) : Prop where
  ne : c ≠ []
  lt : ∀ i ∈ c, i < encs.length

theorem seated_of_mem {S : UnstableSort} {encs : List Encoding} {cm : CostModel} {c : List Nat}
    (h : c ∈ binPack S (seqLens encs) cm) : Seated encs c := by
  refine ⟨binPack_ne_nil h, fun i hi => ?_⟩
  have hlt := binPack_lt h hi
  rwa [seqLens, List.length_map] at hlt

theorem seqAt_seqLens {encs : List Encoding} {i : Nat} {e : Encoding} (h : encs[i]? = some e) :
    seqAt (seqLens encs) i = e.ids.length := by
  rw [seqAt, List.getD_eq_getElem?_getD, seqLens, List.getElem?_map, h]
  rfl

variable {encs : List Encoding} {c : List Nat}

theorem Seated.holds (h : Seated encs c) : Holds encs (padOf encs c) c := by
  intro i hi
  have he := List.getElem?_eq_getElem (h.lt i hi)
  have hle : seqAt (seqLens encs) i ≤ chunkSeq (seqLens encs) c := le_top (List.mem_map_of_mem hi)
  rw [seqAt_seqLens he] at hle
  exact ⟨_, he, hle.trans (le_max_left _ _)⟩

theorem Seated.build (h : Seated encs c) :
    buildChunkArrays encs c (padOf encs c) = .ok (arraysOf encs c) := by
  obtain ⟨x, hx, -⟩ := buildChunkArrays_ok h.holds
  rw [arraysOf, hx]

theorem Seated.shapes (h : Seated encs c) :
    (arraysOf encs c).ids.shape = [c.length, padOf encs c] ∧
    (arraysOf encs c).ids.data = (paddedIds encs (padOf encs c) c).flatten ∧
    (arraysOf encs c).mask.shape = [c.length, padOf encs c] ∧
    (arraysOf encs c).mask.data = (paddedMask encs (padOf encs c) c).flatten := by
  obtain ⟨x, hx, hrest⟩ := buildChunkArrays_ok h.holds
  have e := h.build
  rw [hx] at e
  cases e
  exact hrest

theorem tensorRef_ok {a : Nd Int} {b s : Nat} (h : a.shape = [b, s]) (hb : b ≠ 0) (hs : s ≠ 0) :
    tensorRef a = .ok () := by
  rw [tensorRef, h, if_neg]
  simpa using ⟨hb.symm, hs.symm⟩

/-- a chunk of the packer is padded and run as one input; what is left to fail is the run and the
extraction of its rows -/
theorem Route.chunk_eq (R : Route F β) (m : Models F) (h : Seated encs c) (st : LoopState β) :
    R.chunk m encs (seqLens encs) st c = (do
      let (outputs, elapsed) ← runSession m.session (arraysOf encs c)
      let rows ← Exec.lift (R.rows outputs)
      let slots ← Exec.lift (scatter (rows c.length) st.slots c.zipIdx)
      pure { slots, maxChunkSeq := max st.maxChunkSeq (padOf encs c)
             inferenceMs := satAddU64 st.inferenceMs (toU64 elapsed) }) := by
  obtain ⟨hids, -, hmask, -⟩ := h.shapes
  have hne : c.length ≠ 0 := fun e => h.ne (List.length_eq_zero_iff.mp e)
  have hpad : padOf encs c ≠ 0 := by unfold padOf; omega
  have hmap : (c.map (seqAt (seqLens encs))) ≠ [] := by simpa using h.ne
  have hseq : ∀ i ∈ c, i < (seqLens encs).length := by
    intro i hi
    rw [seqLens, List.length_map]
    exact h.lt i hi
  have hmax : max ((c.map (seqAt (seqLens encs))).max?.getD 1) 1 = padOf encs c := by
    rw [getD_max? hmap]
    rfl
  unfold Route.chunk
  simp only [mapM_index hseq, Exec.lift_ok_bind, hmax, h.build, tensorRef_ok hids hne hpad,
    tensorRef_ok hmask hne hpad, Nd.nrows, hids, List.headD_cons]

/-! ## the chunks of a request, one after the other -/

/-- the runs of a chunk list on a session that has run `h` before: each chunk with its reply -/
def runsOf (session : Session F) (encs : List Encoding) :
    Trace → List (List Nat) → List (List Nat × RunReply F)
  | _, [] => []
  | h, c :: cs =>
    (c, session.run h (arraysOf encs c)) :: runsOf session encs (h ++ [arraysOf encs c]) cs

theorem runsOf_fst (session : Session F) (encs : List Encoding) (h : Trace) (cs : List (List Nat)) :
    (runsOf session encs h cs).map Prod.fst = cs := by
  induction cs generalizing h with
  | nil => rfl
  | cons c cs ih => rw [runsOf, List.map_cons, ih]

/-- what a route computes for the pair `p` (original index, position) of a run -/
def Route.value (R : Route F β) (q : List Nat × RunReply F) (p : Nat × Nat) : Outcome AnyError β := do
  let outs ← Outcome.ofExcept ortErr q.2.outputs
  let rows ← R.rows outs
  rows q.1.length p

theorem Route.value_eq_ok {R : Route F β} {q : List Nat × RunReply F} {p : Nat × Nat} {v : β} :
    R.value q p = .ok v ↔ ∃ outs rows, q.2.outputs = .ok outs ∧ R.rows outs = .ok rows ∧
      rows q.1.length p = .ok v := by
  unfold Route.value
  cases ho : q.2.outputs with
  | error e => simp [Outcome.ofExcept]
  | ok outs => simp [Outcome.ofExcept, Outcome.bind_eq_ok]

/-- total inference time of some runs, added to `ms` -/
def sumMs (ms : Nat) (qs : List (List Nat × RunReply F)) : Nat :=
  qs.foldl (fun ms q => satAddU64 ms (toU64 q.2.elapsedMs)) ms

/-- one chunk whose rows all compute -/
theorem Route.chunk_ok (R : Route F β) (m : Models F) (hc : Seated encs c) (hnd : c.Nodup)
    {st : LoopState β} (hlt : ∀ i ∈ c, i < st.slots.length) {h : Trace} {q : List Nat × RunReply F}
    (hq : q = (c, m.session.run h (arraysOf encs c)))
    (hv : ∀ p ∈ c.zipIdx, ∃ v, R.value q p = .ok v) :
    ∃ slots', R.chunk m encs (seqLens encs) st c h =
        (.ok ⟨slots', max st.maxChunkSeq (padOf encs c),
          satAddU64 st.inferenceMs (toU64 q.2.elapsedMs)⟩, h ++ [arraysOf encs c]) ∧
      slots'.length = st.slots.length ∧
      (∀ i, i ∉ c → slots'[i]? = st.slots[i]?) ∧
      (∀ p ∈ c.zipIdx, ∀ v, R.value q p = .ok v → slots'[p.1]? = some v) := by
  subst hq
  -- some row exists, so the run and the extraction went through
  obtain ⟨outs, rows, ho, hr⟩ : ∃ outs rows,
      (m.session.run h (arraysOf encs c)).outputs = .ok outs ∧ R.rows outs = .ok rows := by
    obtain ⟨p, hp⟩ := List.exists_mem_of_ne_nil c.zipIdx (by simpa using hc.ne)
    obtain ⟨v, hpv⟩ := hv p hp
    obtain ⟨outs, rows, ho, hr, -⟩ := Route.value_eq_ok.mp hpv
    exact ⟨outs, rows, ho, hr⟩
  have hval : ∀ p, R.value (c, m.session.run h (arraysOf encs c)) p = rows c.length p := by
    intro p
    simp [Route.value, ho, hr, Outcome.ofExcept]
  have hfst : c.zipIdx.map Prod.fst = c := List.zipIdx_map_fst 0 c
  obtain ⟨slots', h1, h2, h3, h4⟩ := @scatter_ok _ _ (rows c.length) c.zipIdx st.slots
    (fun p hp => hlt p.1 (by rw [← hfst]; exact List.mem_map_of_mem hp))
    (by rw [hfst]; exact hnd)
    (fun p hp => by rw [← hval p]; exact hv p hp)
  refine ⟨slots', ?_, h2, ?_, ?_⟩
  · rw [R.chunk_eq m hc st]
    have hrun : runSession m.session (arraysOf encs c) h =
        (.ok (outs, (m.session.run h (arraysOf encs c)).elapsedMs), h ++ [arraysOf encs c]) := by
      simp [runSession, ho]
    rw [Exec.bind_of_ok _ hrun]
    simp only [hr, h1, Exec.lift_ok_bind, Exec.pure_apply]
  · intro i hi
    exact h3 i (by rw [hfst]; exact hi)
  · intro p hp v hpv
    exact h4 p hp v (by rw [← hval p]; exact hpv)

/-- **The chunk loop**: if every row value computes, the loop returns, the runs are the arrays of
the chunks in order, every slot named by a chunk holds the value of its row, and no other slot is
touched. -/
theorem Route.chunks_ok (R : Route F β) (m : Models F) {chunks : List (List Nat)}
    (hc : ∀ c ∈ chunks, Seated encs c) (hnd : chunks.flatten.Nodup) (st : LoopState β)
    (hlt : ∀ i ∈ chunks.flatten, i < st.slots.length) (h : Trace)
    (hv : ∀ q ∈ runsOf m.session encs h chunks, ∀ p ∈ q.1.zipIdx, ∃ v, R.value q p = .ok v) :
    ∃ slots', chunks.foldlM (R.chunk m encs (seqLens encs)) st h =
        (.ok ⟨slots', max st.maxChunkSeq (top (chunks.map (padOf encs))),
          sumMs st.inferenceMs (runsOf m.session encs h chunks)⟩, h ++ chunks.map (arraysOf encs)) ∧
      slots'.length = st.slots.length ∧
      (∀ i, i ∉ chunks.flatten → slots'[i]? = st.slots[i]?) ∧
      (∀ q ∈ runsOf m.session encs h chunks, ∀ p ∈ q.1.zipIdx, ∀ v, R.value q p = .ok v →
        slots'[p.1]? = some v) := by
  induction chunks generalizing st h with
  | nil => exact ⟨st.slots, by simp [sumMs, runsOf], rfl, fun _ _ => rfl, by simp [runsOf]⟩
  | cons c cs ih =>
    rw [List.flatten_cons] at hnd hlt
    obtain ⟨hndc, hndcs, hdisj⟩ := List.nodup_append.mp hnd
    obtain ⟨s1, hrun, hlen, hframe, hset⟩ := R.chunk_ok m (hc c List.mem_cons_self) hndc
      (fun i hi => hlt i (List.mem_append_left _ hi)) rfl (hv _ List.mem_cons_self)
    obtain ⟨s2, hrun2, hlen2, hframe2, hset2⟩ := ih (fun c' hc' => hc c' (List.mem_cons_of_mem _ hc'))
      hndcs ⟨s1, _, _⟩ (fun i hi => (hlt i (List.mem_append_right _ hi)).trans_eq hlen.symm)
      (h ++ [arraysOf encs c]) (fun q hq => hv q (List.mem_cons_of_mem _ hq))
    refine ⟨s2, ?_, hlen2.trans hlen, ?_, ?_⟩
    · rw [List.foldlM_cons, Exec.bind_of_ok _ hrun, hrun2]
      simp [sumMs, runsOf, max_assoc]
    · intro i hi
      rw [List.flatten_cons, List.mem_append, not_or] at hi
      rw [hframe2 i hi.2, hframe i hi.1]
    · intro q hq p hp v hpv
      rcases List.mem_cons.mp hq with rfl | hq
      -- a slot of the first chunk is not named by a later one
      · have hp1 : p.1 ∈ c := by
          rw [← List.zipIdx_map_fst 0 c]
          exact List.mem_map_of_mem hp
        rw [hframe2 p.1 fun hmem => hdisj p.1 hp1 p.1 hmem rfl]
        exact hset p hp v hpv
      · exact hset2 q hq p hp v hpv

end
end EmbedServer
