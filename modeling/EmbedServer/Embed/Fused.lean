import EmbedServer.Embed.Locality

/-!
# The fused route agrees with the two separate ones

On a deterministic session the loops of `embed_both`, `embed_dense` and `embed_sparse` are run side
by side.  `Alike` is what stays true of the three: they return together with slots that pair up, or
the same `session.run()` fails in all of them, or a tensor of the outputs is missing or malformed
and the fused route fails as the separate route does that reads this tensor.
-/

set_option linter.unusedSectionVars false

namespace EmbedServer

section
variable {F : Type} [F32Ops F]

/-! ## one chunk, after its run -/

/-- extract the rows of the outputs and scatter them -/
def Route.fill {β : Type} (R : Route F β) (outs : Outputs F) (slots : List β) (c : List Nat) :
    Outcome AnyError (List β) := do
  let rows ← R.rows outs
  scatter (rows c.length) slots c.zipIdx

/-- a fused slot from a dense and a sparse one -/
def pairSlot (d : List F) (s : Option (SparseEmbedding F)) : Option (DualEmbedding F) :=
  s.map fun s => { dense := d, sparse := s }

theorem fill_joint (linear : SparseLinear F) (encs : List Encoding) (variant : ModelVariant)
    (outs : Outputs F) (c : List Nat) {ds : List (List F)} {ss : List (Option (SparseEmbedding F))}
    {bs : List (Option (DualEmbedding F))} (h : Zipped pairSlot ds ss bs) :
    Outcome.Joint (Zipped pairSlot) ((denseRoute variant).fill outs ds c)
      ((sparseRoute linear encs variant).fill outs ss c)
      ((bothRoute linear encs variant).fill outs bs c) := by
  simp only [Route.fill, denseRoute, sparseRoute, bothRoute, bothEmb_eq, bind_assoc, pure_bind]
  have hpair := Outcome.joint_pair (denseEmb variant outs) (tokenEmb variant outs) Prod.mk
  have hbind := hpair.bind (Q := Zipped (pairSlot (F := F)))
    (f := fun d => scatter (fun p => do
      Outcome.debugAssert (p.2 < c.length) "chunk_pos must be within batch"
      denseVec d p.2) ds c.zipIdx)
    (g := fun t => scatter (fun p => do
      let enc ← Outcome.index encs p.1
      let sparse ← sparseVec linear t enc p.2
      pure (some sparse)) ss c.zipIdx)
    (k := fun e => scatter (fun p => do
      let dense ← denseVec e.1 p.2
      let enc ← Outcome.index encs p.1
      let sparse ← sparseVec linear e.2 enc p.2
      pure (some { dense, sparse })) bs c.zipIdx) (by
    rintro d t _ rfl
    refine scatter_joint (fun p hp => ?_) h
    have hlt : p.2 < c.length := by simpa using List.snd_lt_of_mem_zipIdx hp
    simp [Outcome.debugAssert_pos _ hlt, pairSlot])
  simpa only [bind_assoc, pure_bind] using hbind

variable {β : Type} {m : Models F} {encs : List Encoding} {c : List Nat}

theorem Route.chunk_of_error (R : Route F β) (hc : Seated encs c) (st : LoopState β) {h : Trace}
    {msg : String} (ho : (m.session.run h (arraysOf encs c)).outputs = .error msg) :
    R.chunk m encs (seqLens encs) st c h = (.err (ortErr msg), h ++ [arraysOf encs c]) := by
  rw [R.chunk_eq m hc st]
  refine Exec.bind_of_err _ ?_
  simp [runSession, ho]

theorem Route.chunk_of_ok (R : Route F β) (hc : Seated encs c) (st : LoopState β) {h : Trace}
    {outs : Outputs F} (ho : (m.session.run h (arraysOf encs c)).outputs = .ok outs) :
    ∃ ms, R.chunk m encs (seqLens encs) st c h =
      (R.fill outs st.slots c >>= fun slots => .ok ⟨slots, max st.maxChunkSeq (padOf encs c), ms⟩,
        h ++ [arraysOf encs c]) := by
  have hrun : runSession m.session (arraysOf encs c) h =
      (.ok (outs, (m.session.run h (arraysOf encs c)).elapsedMs), h ++ [arraysOf encs c]) := by
    simp [runSession, ho]
  refine ⟨satAddU64 st.inferenceMs (toU64 (m.session.run h (arraysOf encs c)).elapsedMs), ?_⟩
  rw [R.chunk_eq m hc st, Exec.bind_of_ok _ hrun, Route.fill]
  dsimp only
  cases hr : R.rows outs with
  | err e => rfl
  | panic msg => rfl
  | ok rows =>
    rw [Exec.lift_ok_bind, Outcome.bind_ok]
    cases hs : scatter (rows c.length) st.slots c.zipIdx with
    | err e => rfl
    | panic msg => rfl
    | ok slots => rfl

/-! ## the three loops side by side -/

/-- results and traces of the fused, the dense and the sparse call on a session with outputs `f` -/
inductive Alike {α γ δ : Type} (f : ChunkArrays → Except String (Outputs F)) (P : α → γ → δ → Prop)
    (hB hD hS : Trace) :
    Outcome AnyError δ × Trace → Outcome AnyError α × Trace → Outcome AnyError γ × Trace → Prop
  /-- all return -/
  | ok {d : α} {s : γ} {b : δ} (xs : Trace) (hxs : ∀ x ∈ xs, ∃ outs, f x = .ok outs) (h : P d s b) :
      Alike f P hB hD hS (.ok b, hB ++ xs) (.ok d, hD ++ xs) (.ok s, hS ++ xs)
  /-- all fail with the error of the same run, the first that fails -/
  | run (xs : Trace) (hxs : ∀ x ∈ xs, ∃ outs, f x = .ok outs) {x : ChunkArrays} {msg : String}
      (hx : f x = .error msg) :
      Alike f P hB hD hS (.err (ortErr msg), hB ++ (xs ++ [x])) (.err (ortErr msg), hD ++ (xs ++ [x]))
        (.err (ortErr msg), hS ++ (xs ++ [x]))
  /-- the runs succeed, and a row of the last one cannot be read -/
  | row (xs : Trace) (hne : xs ≠ []) (hxs : ∀ x ∈ xs, ∃ outs, f x = .ok outs) {b : Outcome AnyError δ}
      {rD : Outcome AnyError α × Trace} {rS : Outcome AnyError γ × Trace}
      (h : Outcome.SameFailure b rD.1 ∨ Outcome.SameFailure b rS.1) :
      Alike f P hB hD hS (b, hB ++ xs) rD rS

/-- runs that all succeed may be moved from the histories into the runs of the call -/
theorem Alike.after {α γ δ : Type} {f : ChunkArrays → Except String (Outputs F)} {P : α → γ → δ → Prop}
    {hB hD hS xs : Trace} {rB : Outcome AnyError δ × Trace} {rD : Outcome AnyError α × Trace}
    {rS : Outcome AnyError γ × Trace} (hxs : ∀ x ∈ xs, ∃ outs, f x = .ok outs)
    (h : Alike f P (hB ++ xs) (hD ++ xs) (hS ++ xs) rB rD rS) : Alike f P hB hD hS rB rD rS := by
  have happ : ∀ {ys : Trace}, (∀ x ∈ ys, ∃ outs, f x = .ok outs) →
      ∀ x ∈ xs ++ ys, ∃ outs, f x = .ok outs :=
    fun hys x hx => (List.mem_append.mp hx).elim (hxs x) (hys x)
  cases h with
  | ok ys hys h =>
    simp only [List.append_assoc]
    exact .ok (xs ++ ys) (happ hys) h
  | run ys hys hx =>
    simp only [List.append_assoc]
    rw [← List.append_assoc xs ys]
    exact .run (xs ++ ys) (happ hys) hx
  | row ys hne hys h =>
    rw [List.append_assoc]
    exact .row (xs ++ ys) (by simp [hne]) (happ hys) h

/-- the calls that follow change nothing about a failure -/
theorem Alike.bind_row {α γ δ α' γ' δ' : Type} {f : ChunkArrays → Except String (Outputs F)}
    {Q : α' → γ' → δ' → Prop} {hB hD hS xs : Trace} (hne : xs ≠ [])
    (hxs : ∀ x ∈ xs, ∃ outs, f x = .ok outs) {b : Outcome AnyError δ} {eB : Exec Trace AnyError δ}
    {eD : Exec Trace AnyError α} {eS : Exec Trace AnyError γ} (heB : eB hB = (b, hB ++ xs))
    (h : Outcome.SameFailure b (eD hD).1 ∨ Outcome.SameFailure b (eS hS).1)
    (kB : δ → Exec Trace AnyError δ') (kD : α → Exec Trace AnyError α') (kS : γ → Exec Trace AnyError γ') :
    Alike f Q hB hD hS ((eB >>= kB) hB) ((eD >>= kD) hD) ((eS >>= kS) hS) := by
  have hfail : ∀ {ζ ζ' : Type} {e : Exec Trace AnyError ζ} (k : ζ → Exec Trace AnyError ζ') (t : Trace),
      Outcome.SameFailure b (e t).1 → ∃ b' : Outcome AnyError δ',
        (eB >>= kB) hB = (b', hB ++ xs) ∧ Outcome.SameFailure b' ((e >>= k) t).1 := by
    intro ζ ζ' e k t hs
    obtain ⟨o, t', he⟩ : ∃ o t', e t = (o, t') := ⟨_, _, rfl⟩
    rw [he] at hs
    cases hs with
    | err x => exact ⟨_, Exec.bind_of_err _ heB, by rw [Exec.bind_of_err _ he]; exact .err x⟩
    | panic x => exact ⟨_, Exec.bind_of_panic _ heB, by rw [Exec.bind_of_panic _ he]; exact .panic x⟩
  rcases h with h | h
  · obtain ⟨b', hb', hs⟩ := hfail kD hD h
    rw [hb']
    exact .row xs hne hxs (.inl hs)
  · obtain ⟨b', hb', hs⟩ := hfail kS hS h
    rw [hb']
    exact .row xs hne hxs (.inr hs)

/-- loop states of the three routes -/
structure Paired (d : LoopState (List F)) (s : LoopState (Option (SparseEmbedding F)))
    (b : LoopState (Option (DualEmbedding F))) : Prop where
  slots : Zipped pairSlot d.slots s.slots b.slots
  dense_seq : b.maxChunkSeq = d.maxChunkSeq
  sparse_seq : b.maxChunkSeq = s.maxChunkSeq

variable {f : ChunkArrays → Except String (Outputs F)}
  (hf : ∀ h x, (m.session.run h x).outputs = f x) (variant : ModelVariant)
include hf

theorem chunk_alike (hc : Seated encs c) {d : LoopState (List F)}
    {s : LoopState (Option (SparseEmbedding F))} {b : LoopState (Option (DualEmbedding F))}
    (h : Paired d s b) (hB hD hS : Trace) :
    Alike f Paired hB hD hS ((bothRoute m.linear encs variant).chunk m encs (seqLens encs) b c hB)
      ((denseRoute variant).chunk m encs (seqLens encs) d c hD)
      ((sparseRoute m.linear encs variant).chunk m encs (seqLens encs) s c hS) := by
  cases ho : f (arraysOf encs c) with
  | error msg =>
    rw [Route.chunk_of_error _ hc b ((hf _ _).trans ho), Route.chunk_of_error _ hc d ((hf _ _).trans ho),
      Route.chunk_of_error _ hc s ((hf _ _).trans ho)]
    exact .run [] (by simp) ho
  | ok outs =>
    obtain ⟨mb, hb⟩ := (bothRoute m.linear encs variant).chunk_of_ok hc b ((hf hB _).trans ho)
    obtain ⟨md, hd⟩ := (denseRoute variant).chunk_of_ok hc d ((hf hD _).trans ho)
    obtain ⟨ms, hs⟩ := (sparseRoute m.linear encs variant).chunk_of_ok hc s ((hf hS _).trans ho)
    rw [hb, hd, hs]
    have hxs : ∀ x ∈ [arraysOf encs c], ∃ outs, f x = .ok outs := by simp [ho]
    have hj := (fill_joint m.linear encs variant outs c h.slots).bind (Q := Paired)
      (f := fun slots => .ok ⟨slots, max d.maxChunkSeq (padOf encs c), md⟩)
      (g := fun slots => .ok ⟨slots, max s.maxChunkSeq (padOf encs c), ms⟩)
      (k := fun slots => .ok ⟨slots, max b.maxChunkSeq (padOf encs c), mb⟩)
      (fun _ _ _ hz => .ok ⟨hz, by rw [h.dense_seq], by rw [h.sparse_seq]⟩)
    generalize ((denseRoute variant).fill outs d.slots c >>= _) = rd at hj ⊢
    generalize ((sparseRoute m.linear encs variant).fill outs s.slots c >>= _) = rs at hj ⊢
    generalize ((bothRoute m.linear encs variant).fill outs b.slots c >>= _) = rb at hj ⊢
    cases hj with
    | ok hp => exact .ok _ hxs hp
    | left hsame => exact .row _ (by simp) hxs (.inl hsame)
    | right hsame => exact .row _ (by simp) hxs (.inr hsame)

theorem chunks_alike {chunks : List (List Nat)} (hc : ∀ c ∈ chunks, Seated encs c)
    {d : LoopState (List F)} {s : LoopState (Option (SparseEmbedding F))}
    {b : LoopState (Option (DualEmbedding F))} (h : Paired d s b) (hB hD hS : Trace) :
    Alike f Paired hB hD hS
      (chunks.foldlM ((bothRoute m.linear encs variant).chunk m encs (seqLens encs)) b hB)
      (chunks.foldlM ((denseRoute variant).chunk m encs (seqLens encs)) d hD)
      (chunks.foldlM ((sparseRoute m.linear encs variant).chunk m encs (seqLens encs)) s hS) := by
  induction chunks generalizing d s b hB hD hS with
  | nil =>
    have hk : Alike f Paired hB hD hS _ _ _ := .ok [] (by simp) h
    simpa using hk
  | cons c cs ih =>
    have h1 := chunk_alike hf variant (hc c List.mem_cons_self) h hB hD hS
    rw [List.foldlM_cons, List.foldlM_cons, List.foldlM_cons]
    generalize hb : (bothRoute m.linear encs variant).chunk m encs (seqLens encs) b c hB = rb at h1
    generalize hd : (denseRoute variant).chunk m encs (seqLens encs) d c hD = rd at h1
    generalize hs : (sparseRoute m.linear encs variant).chunk m encs (seqLens encs) s c hS = rs at h1
    cases h1 with
    | @ok d1 s1 b1 xs hxs h1 =>
      rw [Exec.bind_of_ok _ hb, Exec.bind_of_ok _ hd, Exec.bind_of_ok _ hs]
      exact (ih (fun c' hc' => hc c' (List.mem_cons_of_mem _ hc')) h1 (hB ++ xs) (hD ++ xs)
        (hS ++ xs)).after hxs
    | run xs hxs hx =>
      rw [Exec.bind_of_err _ hb, Exec.bind_of_err _ hd, Exec.bind_of_err _ hs]
      exact .run xs hxs hx
    | row xs hne hxs hsame =>
      rw [← hd, ← hs] at hsame
      exact .bind_row hne hxs hb hsame _ _ _

omit hf

/-! ## whole calls -/

/-- the closing `expect`s: the fused slots are full exactly when the sparse ones are -/
theorem mapM_expect_pair (msg : String) {ds : List (List F)} {ss : List (Option (SparseEmbedding F))}
    (hlen : ds.length = ss.length) :
    (∃ vs, (ss.mapM (Outcome.expect msg) : Outcome AnyError _) = .ok vs ∧ ds.length = vs.length ∧
      ((List.zipWith pairSlot ds ss).mapM (Outcome.expect msg) : Outcome AnyError _) =
        .ok (List.zipWith DualEmbedding.mk ds vs)) ∨
    ((ss.mapM (Outcome.expect msg) : Outcome AnyError _) = .panic msg ∧
      ((List.zipWith pairSlot ds ss).mapM (Outcome.expect msg) : Outcome AnyError _) = .panic msg) := by
  induction ss generalizing ds with
  | nil => exact .inl ⟨[], rfl, hlen, by simp⟩
  | cons s ss ih =>
    cases ds with
    | nil => simp at hlen
    | cons d ds =>
      rw [List.zipWith_cons_cons, List.mapM_cons, List.mapM_cons]
      cases s with
      | none => exact .inr ⟨rfl, rfl⟩
      | some s =>
        rcases ih (by simpa using hlen) with ⟨vs, h1, h2, h3⟩ | ⟨h1, h2⟩
        · refine .inl ⟨s :: vs, ?_, by simp [h2], ?_⟩
          · rw [Outcome.expect_some, Outcome.bind_ok, h1]
            rfl
          · rw [h3]
            rfl
        · refine .inr ⟨?_, ?_⟩
          · rw [Outcome.expect_some, Outcome.bind_ok, h1]
            rfl
          · rw [h2]
            rfl

/-- statistics without the wall-clock times -/
def EmbedStats.counts (s : EmbedStats) : EmbedStats := { s with tokenizeMs := 0, inferenceMs := 0 }

/-- results of the three calls when all return -/
structure SameResults (d : List (List F) × EmbedStats) (s : List (SparseEmbedding F) × EmbedStats)
    (b : List (DualEmbedding F) × EmbedStats) : Prop where
  length : d.1.length = s.1.length
  pairs : b.1 = List.zipWith DualEmbedding.mk d.1 s.1
  dense_counts : b.2.counts = d.2.counts
  sparse_counts : b.2.counts = s.2.counts

/-- the request fails before any run: it cannot be tokenized, or the guard refuses a chunk -/
def FailsEarly (m : Models F) (texts : List String) (cm : CostModel) (guard : Option TrtJitGuard)
    (e : AnyError) : Prop :=
  tokenizeNoPad m.tokenizer texts = .err e ∨
  ∃ encs r, tokenizeNoPad m.tokenizer texts = .ok encs ∧
    guardChunks guard (chunksOf m cm encs) (seqLens encs) = .err r ∧ e = .ofRejection r

/-- how the three calls end, one case each -/
inductive Ends (f : ChunkArrays → Except String (Outputs F)) (m : Models F) (texts : List String)
    (cm : CostModel) (guard : Option TrtJitGuard) (hB hD hS : Trace) :
    Outcome AnyError (List (DualEmbedding F) × EmbedStats) × Trace →
    Outcome AnyError (List (List F) × EmbedStats) × Trace →
    Outcome AnyError (List (SparseEmbedding F) × EmbedStats) × Trace → Prop
  | early {e : AnyError} (h : FailsEarly m texts cm guard e) :
      Ends f m texts cm guard hB hD hS (.err e, hB) (.err e, hD) (.err e, hS)
  | loop {rB rD rS} (h : Alike f SameResults hB hD hS rB rD rS) :
      Ends f m texts cm guard hB hD hS rB rD rS
  | panic {msg : String} {tB : Trace} {rD} {tS : Trace} :
      Ends f m texts cm guard hB hD hS (.panic msg, tB) rD (.panic msg, tS)

include hf in
theorem embed_ends (texts : List String) (cm : CostModel) (guard : Option TrtJitGuard)
    (hB hD hS : Trace) :
    Ends f m texts cm guard hB hD hS (embedBoth m texts cm variant guard hB)
      (embedDense m texts cm variant guard hD) (embedSparse m texts cm variant guard hS) := by
  unfold embedBoth embedDense embedSparse
  cases ht : tokenizeNoPad m.tokenizer texts with
  | err e => exact .early (.inl ht)
  | panic msg => exact .panic
  | ok encs =>
    have hlens : (encs.map fun e => e.ids.length) = seqLens encs := rfl
    have hchunks : binPack m.sort (seqLens encs) cm = chunksOf m cm encs := rfl
    simp only [Exec.lift_ok_bind, hlens, hchunks]
    cases hg : guardChunks guard (chunksOf m cm encs) (seqLens encs) with
    | err r => exact .early (.inr ⟨encs, r, ht, hg, rfl⟩)
    | panic msg => exact .panic
    | ok _ =>
      simp only [Outcome.mapErr_ok, Exec.lift_ok_bind, bothChunk_eq, denseChunk_eq, sparseChunk_eq]
      have hp : Paired (⟨List.replicate texts.length [], 0, 0⟩ : LoopState (List F))
          ⟨List.replicate texts.length none, 0, 0⟩ ⟨List.replicate texts.length none, 0, 0⟩ :=
        ⟨⟨by simp, by simp [List.zipWith_replicate', pairSlot]⟩, rfl, rfl⟩
      have hl := chunks_alike hf variant (fun c (hc : c ∈ chunksOf m cm encs) => seated_of_mem hc) hp
        hB hD hS
      generalize hb : List.foldlM ((bothRoute m.linear encs variant).chunk m encs (seqLens encs)) _
        (chunksOf m cm encs) hB = rb at hl
      generalize hd : List.foldlM ((denseRoute variant).chunk m encs (seqLens encs)) _
        (chunksOf m cm encs) hD = rd at hl
      generalize hs : List.foldlM ((sparseRoute m.linear encs variant).chunk m encs (seqLens encs)) _
        (chunksOf m cm encs) hS = rs at hl
      cases hl with
      | @ok d s b xs hxs hp =>
        rw [Exec.bind_of_ok _ hb, Exec.bind_of_ok _ hd, Exec.bind_of_ok _ hs]
        obtain ⟨⟨hlen, hz⟩, hsd, hss⟩ := hp
        rw [hz]
        rcases mapM_expect_pair "every slot must be filled" hlen with ⟨vs, h1, h2, h3⟩ | ⟨h1, h2⟩
        · simp only [h1, h3, Exec.lift_ok_bind]
          refine .loop (.ok xs hxs ⟨h2, rfl, ?_, ?_⟩)
          · simp [EmbedStats.counts, embedStats, hsd]
          · simp [EmbedStats.counts, embedStats, hss]
        · simp only [h1, h2]
          exact .panic
      | run xs hxs hx =>
        rw [Exec.bind_of_err _ hb, Exec.bind_of_err _ hd, Exec.bind_of_err _ hs]
        exact .loop (.run xs hxs hx)
      | row xs hne hxs hsame =>
        rw [← hd, ← hs] at hsame
        exact .loop (.bind_row hne hxs hb hsame _ _ _)

include hf in
/-- **The fused route agrees with the separate ones** on a deterministic session, whatever was run on
it before.  It returns exactly when both do, with the pairs of their results and the same counts.  If
it fails, then before any run and so do they, or with the error of the first run that fails and so do
they, or on outputs that cannot be read and so does one of them. -/
theorem embedBoth_agrees (texts : List String) (cm : CostModel) (guard : Option TrtJitGuard)
    (hB hD hS : Trace) :
    ((∃ r, (embedBoth m texts cm variant guard hB).1 = .ok r) ↔
      (∃ r, (embedDense m texts cm variant guard hD).1 = .ok r) ∧
      ∃ r, (embedSparse m texts cm variant guard hS).1 = .ok r) ∧
    (∀ b d s, (embedBoth m texts cm variant guard hB).1 = .ok b →
      (embedDense m texts cm variant guard hD).1 = .ok d →
      (embedSparse m texts cm variant guard hS).1 = .ok s →
      d.1.length = s.1.length ∧ b.1 = List.zipWith DualEmbedding.mk d.1 s.1 ∧
      b.2.counts = d.2.counts ∧ b.2.counts = s.2.counts) ∧
    (∀ e, (embedBoth m texts cm variant guard hB).1 = .err e →
      (FailsEarly m texts cm guard e ∧ embedBoth m texts cm variant guard hB = (.err e, hB) ∧
        embedDense m texts cm variant guard hD = (.err e, hD) ∧
        embedSparse m texts cm variant guard hS = (.err e, hS)) ∨
      (∃ xs x msg, (∀ y ∈ xs, ∃ outs, f y = .ok outs) ∧ f x = .error msg ∧ e = ortErr msg ∧
        embedBoth m texts cm variant guard hB = (.err e, hB ++ (xs ++ [x])) ∧
        embedDense m texts cm variant guard hD = (.err e, hD ++ (xs ++ [x])) ∧
        embedSparse m texts cm variant guard hS = (.err e, hS ++ (xs ++ [x]))) ∨
      (∃ xs, xs ≠ [] ∧ (∀ y ∈ xs, ∃ outs, f y = .ok outs) ∧
        (embedBoth m texts cm variant guard hB).2 = hB ++ xs ∧
        ((embedDense m texts cm variant guard hD).1 = .err e ∨
          (embedSparse m texts cm variant guard hS).1 = .err e))) ∧
    (∀ msg, (embedBoth m texts cm variant guard hB).1 = .panic msg →
      (embedDense m texts cm variant guard hD).1 = .panic msg ∨
      (embedSparse m texts cm variant guard hS).1 = .panic msg) := by
  have h := embed_ends hf variant texts cm guard hB hD hS
  generalize embedBoth m texts cm variant guard hB = B at h ⊢
  generalize embedDense m texts cm variant guard hD = D at h ⊢
  generalize embedSparse m texts cm variant guard hS = S at h ⊢
  cases h with
  | early he =>
    refine ⟨by simp, by simp, ?_, by simp⟩
    rintro e' heq
    cases heq
    exact .inl ⟨he, rfl, rfl, rfl⟩
  | panic => exact ⟨by simp, by simp, by simp, by simp⟩
  | loop h =>
    cases h with
    | ok xs hxs hr =>
      refine ⟨by simp, ?_, by simp, by simp⟩
      rintro _ _ _ ⟨⟩ ⟨⟩ ⟨⟩
      exact ⟨hr.length, hr.pairs, hr.dense_counts, hr.sparse_counts⟩
    | @run xs hxs x msg hx =>
      refine ⟨by simp, by simp, ?_, by simp⟩
      rintro e' heq
      cases heq
      exact .inr (.inl ⟨xs, x, msg, hxs, hx, rfl, rfl, rfl, rfl⟩)
    | row xs hne hxs hsame =>
      rcases hsame with hsame | hsame
      · generalize D.1 = d at hsame ⊢
        cases hsame with
        | err e =>
          refine ⟨by simp, by simp, ?_, by simp⟩
          rintro e' heq
          cases heq
          exact .inr (.inr ⟨xs, hne, hxs, rfl, .inl rfl⟩)
        | panic msg => exact ⟨by simp, by simp, by simp, by simp⟩
      · generalize S.1 = s at hsame ⊢
        cases hsame with
        | err e =>
          refine ⟨by simp, by simp, ?_, by simp⟩
          rintro e' heq
          cases heq
          exact .inr (.inr ⟨xs, hne, hxs, rfl, .inr rfl⟩)
        | panic msg => exact ⟨by simp, by simp, by simp, by simp⟩

end

/-- two texts on a session that shows each token back -/
theorem embedBoth_agrees_echo :
    ∃ b, (embedBoth echoModels ["lorem", "a"] ⟨1, 1, 100⟩ .fp32 none []).1 = .ok b := by
  have h := (embedBoth_agrees (m := echoModels) (f := fun x => (echoSession.run [] x).outputs)
    (fun _ _ => rfl) .fp32 ["lorem", "a"] ⟨1, 1, 100⟩ none [] [] []).1
  obtain ⟨ds, hd, -⟩ := embedDense_ok (echo_completes ["lorem", "a"] ⟨1, 1, 100⟩ .fp32 [])
  obtain ⟨ss, hs, -⟩ := embedSparse_ok (echo_completes ["lorem", "a"] ⟨1, 1, 100⟩ .fp32 [])
  exact h.mpr ⟨⟨_, by rw [hd]⟩, ⟨_, by rw [hs]⟩⟩

end EmbedServer
