import EmbedServer.Embed.Pipeline

/-!
# Every result comes from the row of its text

A request that no guard refuses and whose runs succeed returns one result per text, and result `i` is
computed from the one output row that belongs to text `i`.

* `SeatOf`         the run and the row of a text, unique;
* `Shaped`         the documented shapes of a model's outputs;
* `Completes`      tokenized, admitted, and every run succeeded;
* `embedDense_ok`, `embedSparse_ok`, `embedBoth_ok`   what the three routes then return.
-/

set_option linter.unusedSectionVars false

namespace EmbedServer

/-! ## seats -/

/-- text `i` is at position `p` of group `k`, and nowhere else -/
def SeatOf (chunks : List (List Nat)) (i k p : Nat) : Prop :=
  ∀ k' p', (∃ chunk, chunks[k']? = some chunk ∧ chunk[p']? = some i) ↔ k' = k ∧ p' = p

theorem exists_seat {chunks : List (List Nat)} {n : Nat} (hp : chunks.flatten.Perm (List.range n))
    {i : Nat} (hi : i < n) : ∃ k p chunk, SeatOf chunks i k p ∧ chunks[k]? = some chunk ∧ chunk[p]? = some i := by
  have hnd := (hp.nodup_iff.mpr List.nodup_range)
  obtain ⟨hin, hdisj⟩ := List.nodup_flatten.mp hnd
  obtain ⟨chunk, hc, hic⟩ := List.mem_flatten.mp (hp.mem_iff.mpr (List.mem_range.mpr hi))
  obtain ⟨k, hk⟩ := List.mem_iff_getElem?.mp hc
  obtain ⟨p, hpc⟩ := List.mem_iff_getElem?.mp hic
  refine ⟨k, p, chunk, fun k' p' => ⟨?_, ?_⟩, hk, hpc⟩
  · rintro ⟨c', hk', hp'⟩
    have hkk : k' = k := by
      by_contra hne
      obtain ⟨h1, e1⟩ := List.getElem?_eq_some_iff.mp hk'
      obtain ⟨h2, e2⟩ := List.getElem?_eq_some_iff.mp hk
      have hic' : i ∈ c' := List.mem_of_getElem? hp'
      rcases Nat.lt_or_gt_of_ne hne with hlt | hlt
      · have hd := List.pairwise_iff_getElem.mp hdisj k' k h1 h2 hlt
        rw [e1, e2] at hd
        exact hd hic' hic
      · have hd := List.pairwise_iff_getElem.mp hdisj k k' h2 h1 hlt
        rw [e1, e2] at hd
        exact hd hic hic'
    subst hkk
    rw [hk] at hk'
    cases hk'
    have hlt := (List.getElem?_eq_some_iff.mp hp').1
    exact ⟨rfl, (List.getElem?_inj hlt (hin chunk hc)).mp (hp'.trans hpc.symm)⟩
  · rintro ⟨rfl, rfl⟩
    exact ⟨chunk, hk, hpc⟩

section
variable {F : Type} [F32Ops F]

/-! ## rows -/

/-- documented outputs: `[batch, hidden]` pooled and `[batch, seq, hidden]` per token -/
def Shaped (variant : ModelVariant) (outs : Outputs F) (b s : Nat) : Prop :=
  match variant with
  | .fp32 => ∃ d t hidden, outs "sentence_embedding" = some (.ok d) ∧ d.shape = [b, hidden] ∧
      outs "token_embeddings" = some (.ok t) ∧ t.shape = [b, s, hidden]
  | .fp16 | .int8 => ∃ t hidden, outs "last_hidden_state" = some (.ok t) ∧ t.shape = [b, s, hidden]

/-- dense value of row `p` -/
def denseRow (variant : ModelVariant) (outs : Outputs F) (p : Nat) : Outcome AnyError (List F) := do
  let emb ← denseEmb variant outs
  denseVec emb p

/-- sparse value of row `p`, the text's encoding being `enc` -/
def sparseRow (linear : SparseLinear F) (variant : ModelVariant) (outs : Outputs F) (enc : Encoding)
    (p : Nat) : Outcome AnyError (SparseEmbedding F) := do
  let emb ← tokenEmb variant outs
  sparseVec linear emb enc p

theorem tensor_ok {outs : Outputs F} {name : String} {a : Nd F} (h : outs name = some (.ok a)) :
    tensor outs name = .ok a := by
  rw [tensor, h]
  rfl

/-- the tensors of well-shaped outputs -/
theorem Shaped.embs {variant : ModelVariant} {outs : Outputs F} {b s : Nat}
    (h : Shaped variant outs b s) (hs : 0 < s) :
    ∃ d t hidden, denseEmb variant outs = .ok d ∧ d.shape = [b, hidden] ∧
      tokenEmb variant outs = .ok t ∧ t.shape = [b, s, hidden] ∧ bothEmb variant outs = .ok (d, t) := by
  have hcls : ∀ t hidden, outs "last_hidden_state" = some (.ok t) → t.shape = [b, s, hidden] →
      ∃ d : Nd F, tensor outs "last_hidden_state" = .ok t ∧
        (t.indexAxis 1 0 : Outcome AnyError (Nd F)) = .ok d ∧ d.shape = [b, hidden] := by
    intro t hidden ht hsh
    have h1 : t.shape[1]? = some s := by rw [hsh]; rfl
    obtain ⟨d, hd, hds, -⟩ := Nd.indexAxis_ok (ε := AnyError) t 1 h1 hs
    exact ⟨d, tensor_ok ht, hd, by rw [hds, hsh]; rfl⟩
  cases variant with
  | fp32 =>
    obtain ⟨d, t, hidden, hd, hds, ht, hts⟩ := h
    refine ⟨d, t, hidden, tensor_ok hd, hds, tensor_ok ht, hts, ?_⟩
    simp [bothEmb, tensor_ok hd, tensor_ok ht]
  | fp16 =>
    obtain ⟨t, hidden, ht, hts⟩ := h
    obtain ⟨d, h1, h2, h3⟩ := hcls t hidden ht hts
    refine ⟨d, t, hidden, ?_, h3, h1, hts, ?_⟩
    · simp [denseEmb, h1, h2]
    · simp [bothEmb, h1, h2]
  | int8 =>
    obtain ⟨t, hidden, ht, hts⟩ := h
    obtain ⟨d, h1, h2, h3⟩ := hcls t hidden ht hts
    refine ⟨d, t, hidden, ?_, h3, h1, hts, ?_⟩
    · simp [denseEmb, h1, h2]
    · simp [bothEmb, h1, h2]

theorem bothEmb_eq (variant : ModelVariant) (outs : Outputs F) :
    bothEmb variant outs = (do
      let d ← denseEmb variant outs
      let t ← tokenEmb variant outs
      pure (d, t)) := by
  cases variant with
  | fp32 => rfl
  | fp16 => cases h : tensor outs "last_hidden_state" <;> simp [bothEmb, denseEmb, tokenEmb, h]
  | int8 => cases h : tensor outs "last_hidden_state" <;> simp [bothEmb, denseEmb, tokenEmb, h]

theorem denseRoute_row {variant : ModelVariant} {outs : Outputs F}
    {rows : Nat → Nat × Nat → Outcome AnyError (List F)}
    (h : (denseRoute variant).rows outs = .ok rows) {b p : Nat} (hp : p < b) (i : Nat) :
    rows b (i, p) = denseRow variant outs p := by
  obtain ⟨d, hd, hr⟩ := Outcome.bind_eq_ok.mp h
  cases hr
  simp [denseRow, hd, Outcome.debugAssert_pos _ hp]

theorem sparseRoute_row {linear : SparseLinear F} {encs : List Encoding} {variant : ModelVariant}
    {outs : Outputs F} {rows : Nat → Nat × Nat → Outcome AnyError (Option (SparseEmbedding F))}
    (h : (sparseRoute linear encs variant).rows outs = .ok rows) {i : Nat} {enc : Encoding}
    (he : encs[i]? = some enc) (b p : Nat) :
    rows b (i, p) = (do
      let sparse ← sparseRow linear variant outs enc p
      pure (some sparse)) := by
  obtain ⟨t, ht, hr⟩ := Outcome.bind_eq_ok.mp h
  cases hr
  simp [sparseRow, ht, Outcome.index_ok he]

theorem bothRoute_row {linear : SparseLinear F} {encs : List Encoding} {variant : ModelVariant}
    {outs : Outputs F} {rows : Nat → Nat × Nat → Outcome AnyError (Option (DualEmbedding F))}
    (h : (bothRoute linear encs variant).rows outs = .ok rows) {i : Nat} {enc : Encoding}
    (he : encs[i]? = some enc) (b p : Nat) :
    rows b (i, p) = (do
      let dense ← denseRow variant outs p
      let sparse ← sparseRow linear variant outs enc p
      pure (some { dense, sparse })) := by
  obtain ⟨⟨d, t⟩, hdt, hr⟩ := Outcome.bind_eq_ok.mp h
  cases hr
  rw [bothEmb_eq] at hdt
  obtain ⟨d', hd, hdt⟩ := Outcome.bind_eq_ok.mp hdt
  obtain ⟨t', ht, hdt⟩ := Outcome.bind_eq_ok.mp hdt
  cases hdt
  simp [denseRow, sparseRow, hd, ht, Outcome.index_ok he]

theorem denseVec_ok {d : Nd F} {b hidden p : Nat} (hd : d.shape = [b, hidden]) (hp : p < b) :
    denseVec d p = .ok (normalizeL2 (block hidden p d.data)) := by
  obtain ⟨r, hr, -, hdata⟩ := Nd.indexAxis_zero (ε := AnyError) hd hp
  rw [denseVec, hr, Outcome.bind_ok, hdata]
  simp

/-- vector of token `j` in row `p` of a `[batch, seq, hidden]` array -/
def tokenVec (t : Nd F) (s hidden p j : Nat) : List F := block hidden j (block (s * hidden) p t.data)

theorem sparseVec_eq (linear : SparseLinear F) {t : Nd F} {b s hidden p : Nat} {enc : Encoding}
    (ht : t.shape = [b, s, hidden]) (hp : p < b) (hs : enc.ids.length ≤ s) :
    sparseVec linear t enc p = (do
      let (indices, values) ← sparseMaxpool enc.ids enc.mask
        ((List.range enc.ids.length).map fun j => sparseProject (tokenVec t s hidden p j) linear)
      pure { indices, values }) := by
  obtain ⟨r, hr, hrs, hrd⟩ := Nd.indexAxis_zero (ε := AnyError) ht hp
  have hscore : ∀ j ∈ List.range enc.ids.length,
      (do let v ← r.indexAxis 0 j
          pure (sparseProject v.data linear) : Outcome AnyError F) =
        .ok (sparseProject (tokenVec t s hidden p j) linear) := by
    intro j hj
    obtain ⟨v, hv, -, hvd⟩ := Nd.indexAxis_zero (ε := AnyError) hrs
      ((List.mem_range.mp hj).trans_le hs)
    rw [hv, Outcome.bind_ok, hvd, hrd, Outcome.pure_eq]
    simp [tokenVec]
  rw [sparseVec, hr, Outcome.bind_ok, Outcome.mapM_ok hscore, Outcome.bind_ok]

theorem sparseVec_ok (linear : SparseLinear F) {t : Nd F} {b s hidden p : Nat} {enc : Encoding}
    (ht : t.shape = [b, s, hidden]) (hp : p < b) (hs : enc.ids.length ≤ s) :
    ∃ v, sparseVec linear t enc p = .ok v := by
  rw [sparseVec_eq linear ht hp hs]
  have hlen : ((List.range enc.ids.length).map fun j =>
      sparseProject (tokenVec t s hidden p j) linear).length = enc.ids.length := by simp
  obtain ⟨r, hr⟩ := sparseMaxpool_ok (ε := AnyError) enc.mask_len hlen
  rw [hr]
  exact ⟨_, rfl⟩

/-! ## a request that completes -/

/-- chunks of a tokenized request -/
def chunksOf (m : Models F) (cm : CostModel) (encs : List Encoding) : List (List Nat) :=
  binPack m.sort (seqLens encs) cm

/-- the texts are tokenized, the guard admits, no run fails, and outputs have the documented shapes -/
structure Completes (m : Models F) (texts : List String) (cm : CostModel) (variant : ModelVariant)
    (guard : Option TrtJitGuard) (h : Trace) (encs : List Encoding) : Prop where
  tokenized : m.tokenizer.encodeBatchFast texts = .ok encs
  admitted : guardChunks guard (chunksOf m cm encs) (seqLens encs) = .ok ()
  runs : ∀ q ∈ runsOf m.session encs h (chunksOf m cm encs),
    ∃ outs, q.2.outputs = .ok outs ∧ Shaped variant outs q.1.length (padOf encs q.1)

/-- `n` results, the `i`-th computed from the row of text `i` in the one run that contains it -/
def FromSeats {γ : Type} (runs : List (List Nat × RunReply F)) (n : Nat)
    (row : Outputs F → Nat → Nat → Outcome AnyError γ) (results : List γ) : Prop :=
  results.length = n ∧ ∀ i < n, ∃ k p q outs v, SeatOf (runs.map Prod.fst) i k p ∧
    runs[k]? = some q ∧ q.2.outputs = .ok outs ∧ row outs i p = .ok v ∧ results[i]? = some v

section
variable {m : Models F} {texts : List String} {cm : CostModel} {variant : ModelVariant}
  {guard : Option TrtJitGuard} {h : Trace} {encs : List Encoding}

theorem Completes.one_each (hc : Completes m texts cm variant guard h encs) :
    encs.length = texts.length :=
  m.tokenizer.one_each hc.tokenized

/-- the chunk loop of a route whose rows compute on well-shaped outputs -/
theorem Route.fromSeats {β : Type} (R : Route F β) (row : Outputs F → Nat → Nat → Outcome AnyError β)
    (hrow : ∀ outs chunk, Seated encs chunk → Shaped variant outs chunk.length (padOf encs chunk) →
      ∃ rows, R.rows outs = .ok rows ∧
        ∀ i p, chunk[p]? = some i → rows chunk.length (i, p) = row outs i p ∧ ∃ v, row outs i p = .ok v)
    (hc : Completes m texts cm variant guard h encs) (init : β) :
    ∃ slots', (chunksOf m cm encs).foldlM (R.chunk m encs (seqLens encs))
        ⟨List.replicate texts.length init, 0, 0⟩ h =
        (.ok ⟨slots', top ((chunksOf m cm encs).map (padOf encs)),
          sumMs 0 (runsOf m.session encs h (chunksOf m cm encs))⟩,
          h ++ (chunksOf m cm encs).map (arraysOf encs)) ∧
      FromSeats (runsOf m.session encs h (chunksOf m cm encs)) texts.length row slots' := by
  have hperm := binPack_perm m.sort (seqLens encs) cm
  have hn : (seqLens encs).length = texts.length := by rw [seqLens, List.length_map, hc.one_each]
  rw [hn] at hperm
  -- every row of every run has its value
  have hval : ∀ q ∈ runsOf m.session encs h (chunksOf m cm encs), ∀ i p, q.1[p]? = some i →
      ∃ outs v, q.2.outputs = .ok outs ∧ row outs i p = .ok v ∧ R.value q (i, p) = .ok v := by
    intro q hq i p hp
    have hmem := List.mem_map_of_mem (f := Prod.fst) hq
    rw [runsOf_fst] at hmem
    obtain ⟨outs, ho, hsh⟩ := hc.runs q hq
    obtain ⟨rows, hr, hrows⟩ := hrow outs q.1 (seated_of_mem hmem) hsh
    obtain ⟨heq, v, hv⟩ := hrows i p hp
    exact ⟨outs, v, ho, hv, Route.value_eq_ok.mpr ⟨outs, rows, ho, hr, heq.trans hv⟩⟩
  obtain ⟨slots', hrun, hlen, -, hset⟩ := R.chunks_ok m
    (fun c (hmem : c ∈ chunksOf m cm encs) => seated_of_mem hmem) (hperm.nodup_iff.mpr List.nodup_range)
    ⟨List.replicate texts.length init, 0, 0⟩ (fun i hi => by simpa using hperm.mem_iff.mp hi) h
    (fun q hq p hp => by
      obtain ⟨-, v, -, -, hv⟩ := hval q hq p.1 p.2 (List.mem_zipIdx_iff_getElem?.mp hp)
      exact ⟨v, hv⟩)
  rw [Nat.zero_max] at hrun
  refine ⟨slots', hrun, by simpa using hlen, fun i hi => ?_⟩
  obtain ⟨k, p, c, hseat, hk, hp⟩ := exists_seat hperm hi
  rw [← runsOf_fst m.session encs h (binPack m.sort (seqLens encs) cm)] at hk hseat
  rw [List.getElem?_map, Option.map_eq_some_iff] at hk
  obtain ⟨q, hq, rfl⟩ := hk
  have hmem := List.mem_of_getElem? hq
  obtain ⟨outs, v, ho, hv, hqv⟩ := hval q hmem i p hp
  exact ⟨k, p, q, outs, v, hseat, hq, ho, hv,
    hset q hmem (i, p) (List.mem_zipIdx_iff_getElem?.mpr hp) v hqv⟩

/-- the closing `expect`s of a route with optional slots -/
theorem FromSeats.expect {γ : Type} {runs : List (List Nat × RunReply F)} {n : Nat}
    {row : Outputs F → Nat → Nat → Outcome AnyError γ} {slots : List (Option γ)}
    (hs : FromSeats runs n (fun outs i p => row outs i p >>= fun v => pure (some v)) slots) :
    ∃ vs, (slots.mapM (Outcome.expect "every slot must be filled") : Outcome AnyError _) = .ok vs ∧
      FromSeats runs n row vs := by
  obtain ⟨hlen, hseats⟩ := hs
  have hfull : ∀ i < n, ∃ k p q outs v, SeatOf (runs.map Prod.fst) i k p ∧ runs[k]? = some q ∧
      q.2.outputs = .ok outs ∧ row outs i p = .ok v ∧ slots[i]? = some (some v) := by
    intro i hi
    obtain ⟨k, p, q, outs, v, hseat, hq, ho, hv, hsl⟩ := hseats i hi
    obtain ⟨w, hw, e⟩ := Outcome.bind_eq_ok.mp hv
    cases e
    exact ⟨k, p, q, outs, w, hseat, hq, ho, hw, hsl⟩
  obtain ⟨vs, hvs, hmap⟩ := Outcome.mapM_expect (ε := AnyError) "every slot must be filled"
    (fun i (hi : i < slots.length) => by
      obtain ⟨-, -, -, -, v, -, -, -, -, hsl⟩ := hfull i (hi.trans_eq hlen)
      exact ⟨v, hsl⟩)
  refine ⟨vs, hvs, by rw [← hlen, hmap, List.length_map], fun i hi => ?_⟩
  obtain ⟨k, p, q, outs, v, hseat, hq, ho, hv, hsl⟩ := hfull i hi
  rw [hmap, List.getElem?_map, Option.map_eq_some_iff] at hsl
  obtain ⟨w, hw, e⟩ := hsl
  cases e
  exact ⟨k, p, q, outs, v, hseat, hq, ho, hv, hw⟩

/-- everything before the chunk loop goes through -/
theorem Completes.prelude {γ : Type} (hc : Completes m texts cm variant guard h encs)
    (k : List Encoding → Exec Trace AnyError γ) :
    (do
      let encodings ← Exec.lift (tokenizeNoPad m.tokenizer texts)
      Exec.lift ((guardChunks guard (chunksOf m cm encodings) (seqLens encodings)).mapErr
        AnyError.ofRejection)
      k encodings) = k encs := by
  rw [tokenizeNoPad, hc.tokenized]
  show (Exec.lift _ >>= fun _ => k encs) = k encs
  rw [hc.admitted]
  rfl

/-! ## the three routes -/

/-- row values of well-shaped outputs -/
theorem Shaped.rows_ok {outs : Outputs F} {chunk : List Nat}
    (hsh : Shaped variant outs chunk.length (padOf encs chunk)) (hcs : Seated encs chunk) (linear : SparseLinear F)
    {i p : Nat} (hp : chunk[p]? = some i) :
    ∃ enc d v, encs[i]? = some enc ∧ denseRow variant outs p = .ok d ∧
      sparseRow linear variant outs enc p = .ok v := by
  obtain ⟨d, t, hidden, hd, hds, ht, hts, -⟩ := hsh.embs (by unfold padOf; omega)
  obtain ⟨enc, he, hle⟩ := hcs.holds i (List.mem_of_getElem? hp)
  have hlt := (List.getElem?_eq_some_iff.mp hp).1
  obtain ⟨v, hv⟩ := sparseVec_ok linear hts hlt hle
  refine ⟨enc, normalizeL2 (block hidden p d.data), v, he, ?_, ?_⟩
  · rw [denseRow, hd]
    exact denseVec_ok hds hlt
  · rw [sparseRow, ht]
    exact hv

/-- sparse value of text `i` in row `p` -/
def sparseSeat (linear : SparseLinear F) (encs : List Encoding) (variant : ModelVariant)
    (outs : Outputs F) (i p : Nat) : Outcome AnyError (SparseEmbedding F) := do
  let enc ← Outcome.index encs i
  sparseRow linear variant outs enc p

/-- both values of text `i` in row `p` -/
def bothSeat (linear : SparseLinear F) (encs : List Encoding) (variant : ModelVariant)
    (outs : Outputs F) (i p : Nat) : Outcome AnyError (DualEmbedding F) := do
  let dense ← denseRow variant outs p
  let sparse ← sparseSeat linear encs variant outs i p
  pure { dense, sparse }

/-- statistics of a completed request -/
def statsOf (m : Models F) (texts : List String) (cm : CostModel) (encs : List Encoding) (h : Trace) :
    EmbedStats :=
  embedStats m.tokenizer texts (seqLens encs) (chunksOf m cm encs)
    (top ((chunksOf m cm encs).map (padOf encs)))
    (sumMs 0 (runsOf m.session encs h (chunksOf m cm encs)))

theorem embedDense_ok (hc : Completes m texts cm variant guard h encs) :
    ∃ ds, embedDense m texts cm variant guard h =
        (.ok (ds, statsOf m texts cm encs h), h ++ (chunksOf m cm encs).map (arraysOf encs)) ∧
      FromSeats (runsOf m.session encs h (chunksOf m cm encs)) texts.length
        (fun outs _ p => denseRow variant outs p) ds := by
  obtain ⟨ds, hrun, hseats⟩ := (denseRoute variant).fromSeats
    (fun outs _ p => denseRow variant outs p) (by
      intro outs c hcs hsh
      obtain ⟨d, t, hidden, hd, -⟩ := hsh.embs (by unfold padOf; omega)
      obtain ⟨rows, hr⟩ : ∃ rows, (denseRoute variant).rows outs = .ok rows := by
        simp [denseRoute, hd]
      refine ⟨rows, hr, fun i p hp => ⟨denseRoute_row hr (List.getElem?_eq_some_iff.mp hp).1 i, ?_⟩⟩
      obtain ⟨-, v, -, -, hv, -⟩ := hsh.rows_ok hcs m.linear hp
      exact ⟨v, hv⟩) hc []
  refine ⟨ds, ?_, hseats⟩
  refine (congrFun (hc.prelude _) h).trans ?_
  rw [denseChunk_eq]
  exact Exec.bind_of_ok _ hrun

theorem embedSparse_ok (hc : Completes m texts cm variant guard h encs) :
    ∃ ss, embedSparse m texts cm variant guard h =
        (.ok (ss, statsOf m texts cm encs h), h ++ (chunksOf m cm encs).map (arraysOf encs)) ∧
      FromSeats (runsOf m.session encs h (chunksOf m cm encs)) texts.length
        (sparseSeat m.linear encs variant) ss := by
  obtain ⟨slots, hrun, hseats⟩ := (sparseRoute m.linear encs variant).fromSeats
    (fun outs i p => sparseSeat m.linear encs variant outs i p >>= fun v => pure (some v)) (by
      intro outs c hcs hsh
      obtain ⟨d, t, hidden, -, -, ht, -⟩ := hsh.embs (by unfold padOf; omega)
      obtain ⟨rows, hr⟩ : ∃ rows, (sparseRoute m.linear encs variant).rows outs = .ok rows := by
        simp [sparseRoute, ht]
      refine ⟨rows, hr, fun i p hp => ?_⟩
      obtain ⟨enc, -, v, he, -, hv⟩ := hsh.rows_ok hcs m.linear hp
      rw [sparseRoute_row hr he, sparseSeat, Outcome.index_ok he, Outcome.bind_ok, hv]
      exact ⟨rfl, some v, rfl⟩) hc none
  obtain ⟨ss, hss, hseats⟩ := hseats.expect
  refine ⟨ss, ?_, hseats⟩
  refine (congrFun (hc.prelude _) h).trans ?_
  rw [sparseChunk_eq]
  refine (Exec.bind_of_ok _ hrun).trans ?_
  simp only [hss, Exec.lift_ok_bind]
  rfl

theorem embedBoth_ok (hc : Completes m texts cm variant guard h encs) :
    ∃ bs, embedBoth m texts cm variant guard h =
        (.ok (bs, statsOf m texts cm encs h), h ++ (chunksOf m cm encs).map (arraysOf encs)) ∧
      FromSeats (runsOf m.session encs h (chunksOf m cm encs)) texts.length
        (bothSeat m.linear encs variant) bs := by
  obtain ⟨slots, hrun, hseats⟩ := (bothRoute m.linear encs variant).fromSeats
    (fun outs i p => bothSeat m.linear encs variant outs i p >>= fun v => pure (some v)) (by
      intro outs c hcs hsh
      obtain ⟨d, t, hidden, -, -, -, -, hdt⟩ := hsh.embs (by unfold padOf; omega)
      obtain ⟨rows, hr⟩ : ∃ rows, (bothRoute m.linear encs variant).rows outs = .ok rows := by
        simp [bothRoute, hdt]
      refine ⟨rows, hr, fun i p hp => ?_⟩
      obtain ⟨enc, u, v, he, hu, hv⟩ := hsh.rows_ok hcs m.linear hp
      rw [bothRoute_row hr he, bothSeat, sparseSeat, Outcome.index_ok he, Outcome.bind_ok, hu, hv]
      exact ⟨rfl, some ⟨u, v⟩, rfl⟩) hc none
  obtain ⟨bs, hbs, hseats⟩ := hseats.expect
  refine ⟨bs, ?_, hseats⟩
  refine (congrFun (hc.prelude _) h).trans ?_
  rw [bothChunk_eq]
  refine (Exec.bind_of_ok _ hrun).trans ?_
  simp only [hbs, Exec.lift_ok_bind]
  rfl

end
end
end EmbedServer
