import EmbedServer.Embed.Batching

/-!
# A row-local session makes batching invisible

`RowLocal` is what is assumed of the runtime: the outputs of a row at its unmasked positions depend
on the unmasked tokens of that row only, not on the other rows, the padding or the runs before.
Then a result depends on its own encoding only (`denseRow_local`, `sparseRow_local`), so a text gets
the same embedding in every batch and under every cost model.
-/

set_option linter.unusedSectionVars false

namespace EmbedServer

section
variable {F : Type} [F32Ops F]

/-! ## what is assumed of the session -/

/-- unmasked tokens of row `r`, each with its position -/
def unmasked (x : ChunkArrays) (r : Nat) : List (Int × Nat) :=
  let s := x.ids.shape.getD 1 0
  (((block s r x.ids.data).zip (block s r x.mask.data)).zipIdx.filter fun p => p.1.2 != 0).map
    fun p => (p.1.1, p.2)

/-- token vector at row `r`, position `j` of the outputs -/
def tokenOut (variant : ModelVariant) (outs : Outputs F) (r j : Nat) : Outcome AnyError (List F) := do
  let t ← tokenEmb variant outs
  let row ← t.indexAxis 0 r
  let v ← row.indexAxis 0 j
  pure v.data

/-- pooled vector of row `r` of the outputs -/
def sentenceOut (outs : Outputs F) (r : Nat) : Outcome AnyError (List F) := do
  let d ← tensor outs "sentence_embedding"
  let row ← d.indexAxis 0 r
  pure row.data

/-- rows with the same unmasked tokens get the same outputs at their unmasked positions -/
structure RowLocal (variant : ModelVariant) (session : Session F) : Prop where
  tokens : ∀ {h h' x x' outs outs' r r'}, (session.run h x).outputs = .ok outs →
    (session.run h' x').outputs = .ok outs' → unmasked x r = unmasked x' r' →
    ∀ p ∈ unmasked x r, tokenOut variant outs r p.2 = tokenOut variant outs' r' p.2
  sentence : variant = .fp32 → ∀ {h h' x x' outs outs' r r'}, (session.run h x).outputs = .ok outs →
    (session.run h' x').outputs = .ok outs' → unmasked x r = unmasked x' r' → unmasked x r ≠ [] →
    sentenceOut outs r = sentenceOut outs' r'

/-- not empty, and nothing masked before padding -/
structure Encoding.Plain (enc : Encoding) : Prop where
  ne : enc.ids ≠ []
  ones : ∀ b ∈ enc.mask, b = 1

/-! ## a padded row shows its own tokens only -/

theorem zip_padRow {padTo : Nat} {enc : Encoding} :
    (padRow padTo 1 enc.ids).zip (padRow padTo 0 enc.mask) =
      (enc.ids.map Int.ofNat).zip (enc.mask.map Int.ofNat) ++
        List.replicate (padTo - enc.ids.length) (1, 0) := by
  unfold padRow
  rw [enc.mask_len, List.zip_append (by simp [enc.mask_len]), List.zip_replicate']

theorem filter_ones (l : List Int) (n : Nat) :
    (((l.zip (List.replicate l.length 1)).zipIdx n).filter fun p => p.1.2 != (0 : Int)).map
      (fun p => (p.1.1, p.2)) = l.zipIdx n := by
  induction l generalizing n with
  | nil => rfl
  | cons a l ih =>
    rw [List.length_cons, List.replicate_succ, List.zip_cons_cons, List.zipIdx_cons,
      List.filter_cons_of_pos (by simp), List.map_cons, ih, List.zipIdx_cons]

theorem filter_padding (k n : Nat) :
    ((List.replicate k ((1, 0) : Int × Int)).zipIdx n).filter (fun p => p.1.2 != 0) = [] := by
  rw [List.filter_eq_nil_iff]
  intro p hp
  rw [(List.mem_replicate.mp (List.fst_mem_of_mem_zipIdx hp)).2]
  simp

theorem unmasked_arraysOf {encs : List Encoding} {chunk : List Nat} (hc : Seated encs chunk) {p i : Nat}
    {enc : Encoding} (hp : chunk[p]? = some i) (he : encs[i]? = some enc) (hpl : enc.Plain) :
    unmasked (arraysOf encs chunk) p = (enc.ids.map Int.ofNat).zipIdx := by
  obtain ⟨h1, h2, h3, h4⟩ := hc.shapes
  have hone : enc.mask.map Int.ofNat = List.replicate enc.ids.length 1 := by
    rw [List.eq_replicate_iff.mpr ⟨enc.mask_len, hpl.ones⟩]
    simp
  unfold unmasked
  simp only [h1, h2, h4, List.getD_cons_succ, List.getD_cons_zero]
  rw [paddedIds_row hc.holds hp he, paddedMask_row hc.holds hp he, zip_padRow, hone,
    List.zipIdx_append, List.filter_append, List.map_append, filter_padding, List.map_nil,
    List.append_nil]
  have hlen : enc.ids.length = (enc.ids.map Int.ofNat).length := by simp
  rw [hlen]
  exact filter_ones _ 0

/-! ## vectors of well-shaped outputs -/

variable {variant : ModelVariant} {outs outs' : Outputs F}

theorem tokenOut_eq {t : Nd F} {b s hidden r j : Nat} (ht : tokenEmb variant outs = .ok t)
    (hts : t.shape = [b, s, hidden]) (hr : r < b) (hj : j < s) :
    tokenOut variant outs r j = .ok (tokenVec t s hidden r j) := by
  obtain ⟨row, hrow, hrs, hrd⟩ := Nd.indexAxis_zero (ε := AnyError) hts hr
  obtain ⟨v, hv, -, hvd⟩ := Nd.indexAxis_zero (ε := AnyError) hrs hj
  rw [tokenOut, ht, Outcome.bind_ok, hrow, Outcome.bind_ok, hv, Outcome.bind_ok, hvd, hrd,
    Outcome.pure_eq]
  simp [tokenVec]

/-- the first token of every row, then row `r` of those: the first token of row `r` -/
theorem firstToken_row {t d : Nd F} {b s hidden r : Nat} (hts : t.shape = [b, s, hidden]) (hr : r < b)
    (hs : 0 < s) (hd : (t.indexAxis 1 0 : Outcome AnyError (Nd F)) = .ok d) :
    d.shape = [b, hidden] ∧ block hidden r d.data = tokenVec t s hidden r 0 := by
  have h1 : t.shape[1]? = some s := by rw [hts]; rfl
  obtain ⟨d', hd', hds, hdd⟩ := Nd.indexAxis_ok (ε := AnyError) t 1 h1 hs
  rw [hd] at hd'
  cases hd'
  have hlen : t.data.length = b * s * hidden := by
    rw [t.size_eq, hts]
    simp [Nat.mul_assoc]
  refine ⟨by rw [hds, hts]; rfl, ?_⟩
  rw [hdd, hts]
  show block hidden r ((List.range [b].prod).flatMap fun o => block [hidden].prod (o * s + 0) t.data) = _
  rw [List.prod_singleton, List.prod_singleton, List.flatMap_def]
  have hrows : ∀ x ∈ (List.range b).map (fun o => block hidden (o * s + 0) t.data), x.length = hidden := by
    intro x hx
    obtain ⟨o, ho, rfl⟩ := List.mem_map.mp hx
    have hle := Nat.mul_le_mul_right s (show o + 1 ≤ b from List.mem_range.mp ho)
    rw [Nat.succ_mul] at hle
    exact length_block hlen (by omega)
  rw [block_flatten hrows (x := block hidden (r * s + 0) t.data) (by simp [hr])]
  have hle : hidden ≤ s * hidden := Nat.le_mul_of_pos_left hidden hs
  simp [tokenVec, block, List.take_take, Nat.min_eq_left hle, Nat.mul_assoc]

/-- dense value of a row, from the vectors the session gives it -/
theorem denseRow_eq {b s r : Nat} (hsh : Shaped variant outs b s) (hr : r < b) (hs : 0 < s) :
    denseRow variant outs r =
      (if variant = .fp32 then sentenceOut outs r else tokenOut variant outs r 0) >>=
        fun v => pure (normalizeL2 v) := by
  have hcls : ∀ {t : Nd F} {hidden : Nat}, tokenEmb variant outs = .ok t → t.shape = [b, s, hidden] →
      (t.indexAxis 1 0 >>= fun d => denseVec d r) =
        tokenOut variant outs r 0 >>= fun v => pure (normalizeL2 v) := by
    intro t hidden ht hts
    have h1 : t.shape[1]? = some s := by rw [hts]; rfl
    obtain ⟨d, hd, -⟩ := Nd.indexAxis_ok (ε := AnyError) t 1 h1 hs
    obtain ⟨hds, hdata⟩ := firstToken_row hts hr hs hd
    rw [hd, Outcome.bind_ok, denseVec_ok hds hr, tokenOut_eq ht hts hr hs, hdata]
    rfl
  cases variant with
  | fp32 =>
    rw [if_pos rfl]
    simp only [denseRow, denseEmb, sentenceOut, denseVec, bind_assoc, pure_bind]
  | fp16 =>
    obtain ⟨t, hidden, ht, hts⟩ := hsh
    rw [if_neg (by decide), ← hcls (tensor_ok ht) hts]
    simp only [denseRow, denseEmb, tensor_ok ht, Outcome.bind_ok]
  | int8 =>
    obtain ⟨t, hidden, ht, hts⟩ := hsh
    rw [if_neg (by decide), ← hcls (tensor_ok ht) hts]
    simp only [denseRow, denseEmb, tensor_ok ht, Outcome.bind_ok]

/-! ## a result depends on its own encoding only -/

/-- row `r` of the outputs of some run is the row of the text with encoding `enc` -/
def RowOf (session : Session F) (variant : ModelVariant) (enc : Encoding) (outs : Outputs F) (r : Nat) :
    Prop :=
  ∃ h x b s, (session.run h x).outputs = .ok outs ∧ Shaped variant outs b s ∧ r < b ∧ 0 < s ∧
    enc.ids.length ≤ s ∧ unmasked x r = (enc.ids.map Int.ofNat).zipIdx

section
variable {session : Session F} {enc : Encoding} {r r' : Nat}

theorem denseRow_local (hl : RowLocal variant session) (hpl : enc.Plain)
    (h : RowOf session variant enc outs r) (h' : RowOf session variant enc outs' r') :
    denseRow variant outs r = denseRow variant outs' r' := by
  obtain ⟨_, x, b, s, ho, hsh, hr, hs, -, hu⟩ := h
  obtain ⟨_, x', b', s', ho', hsh', hr', hs', -, hu'⟩ := h'
  rw [denseRow_eq hsh hr hs, denseRow_eq hsh' hr' hs']
  obtain ⟨a, rest, hids⟩ := List.exists_cons_of_ne_nil hpl.ne
  split
  · rename_i hv
    rw [hl.sentence hv ho ho' (hu.trans hu'.symm) (by rw [hu, hids]; simp)]
  · have hmem : (Int.ofNat a, 0) ∈ unmasked x r := by rw [hu, hids]; simp
    rw [hl.tokens ho ho' (hu.trans hu'.symm) _ hmem]

theorem sparseRow_local (hl : RowLocal variant session) (linear : SparseLinear F)
    (h : RowOf session variant enc outs r) (h' : RowOf session variant enc outs' r') :
    sparseRow linear variant outs enc r = sparseRow linear variant outs' enc r' := by
  obtain ⟨_, x, b, s, ho, hsh, hr, hs, hle, hu⟩ := h
  obtain ⟨_, x', b', s', ho', hsh', hr', hs', hle', hu'⟩ := h'
  obtain ⟨-, t, hidden, -, -, ht, hts, -⟩ := hsh.embs hs
  obtain ⟨-, t', hidden', -, -, ht', hts', -⟩ := hsh'.embs hs'
  -- the scores agree token by token
  have htok : ∀ j ∈ List.range enc.ids.length, tokenVec t s hidden r j = tokenVec t' s' hidden' r' j := by
    intro j hj
    have hlt := List.mem_range.mp hj
    have hmem : (Int.ofNat enc.ids[j], j) ∈ unmasked x r := by
      rw [hu, List.mem_zipIdx_iff_getElem?]
      simp [hlt]
    have e := hl.tokens ho ho' (hu.trans hu'.symm) _ hmem
    rw [tokenOut_eq ht hts hr (hlt.trans_le hle), tokenOut_eq ht' hts' hr' (hlt.trans_le hle')] at e
    exact Outcome.ok.inj e
  have hscore : ((List.range enc.ids.length).map fun j => sparseProject (tokenVec t s hidden r j) linear) =
      (List.range enc.ids.length).map fun j => sparseProject (tokenVec t' s' hidden' r' j) linear :=
    List.map_congr_left fun j hj => by rw [htok j hj]
  rw [sparseRow, ht, Outcome.bind_ok, sparseRow, ht', Outcome.bind_ok, sparseVec_eq linear hts hr hle,
    sparseVec_eq linear hts' hr' hle', hscore]

end

/-! ## two requests -/

theorem mem_runsOf {session : Session F} {encs : List Encoding} {h : Trace} {cs : List (List Nat)}
    {q : List Nat × RunReply F} (hq : q ∈ runsOf session encs h cs) :
    q.1 ∈ cs ∧ ∃ h', q.2 = session.run h' (arraysOf encs q.1) := by
  induction cs generalizing h with
  | nil => simp [runsOf] at hq
  | cons c cs ih =>
    rcases List.mem_cons.mp hq with rfl | hq
    · exact ⟨List.mem_cons_self, h, rfl⟩
    · exact ⟨List.mem_cons_of_mem _ (ih hq).1, (ih hq).2⟩

section
variable {m : Models F} {texts texts' : List String} {cm cm' : CostModel}
  {guard guard' : Option TrtJitGuard} {h h' : Trace} {encs encs' : List Encoding}

/-- the seat of text `i` shows the tokens of encoding `i` -/
theorem FromSeats.rowOf {γ : Type} {row : Outputs F → Nat → Nat → Outcome AnyError γ}
    {results : List γ} (hc : Completes m texts cm variant guard h encs)
    (hf : FromSeats (runsOf m.session encs h (chunksOf m cm encs)) texts.length row results)
    {i : Nat} {enc : Encoding} (hi : encs[i]? = some enc) (hpl : enc.Plain) :
    ∃ outs p v, RowOf m.session variant enc outs p ∧ row outs i p = .ok v ∧ results[i]? = some v := by
  have hlt : i < texts.length := by
    rw [← hc.one_each]
    exact (List.getElem?_eq_some_iff.mp hi).1
  obtain ⟨k, p, q, outs, v, hseat, hq, ho, hv, hres⟩ := hf.2 i hlt
  have hmem := List.mem_of_getElem? hq
  obtain ⟨hchunk, h1, hrun⟩ := mem_runsOf hmem
  have hp : q.1[p]? = some i := by
    obtain ⟨c, hk, hp⟩ := (hseat k p).mpr ⟨rfl, rfl⟩
    rw [List.getElem?_map, hq] at hk
    cases hk
    exact hp
  have hcs : Seated encs q.1 := seated_of_mem hchunk
  obtain ⟨e, he, hle⟩ := hcs.holds i (List.mem_of_getElem? hp)
  rw [hi] at he
  cases he
  obtain ⟨outs', ho', hsh⟩ := hc.runs q hmem
  rw [ho] at ho'
  cases ho'
  rw [hrun] at ho
  exact ⟨outs, p, v, ⟨h1, _, _, _, ho, hsh, (List.getElem?_eq_some_iff.mp hp).1,
    by unfold padOf; omega, hle, unmasked_arraysOf hcs hp hi hpl⟩, hv, hres⟩

/-- results of two requests at texts with the same encoding -/
theorem FromSeats.agree {γ : Type} {row row' : Outputs F → Nat → Nat → Outcome AnyError γ}
    {results results' : List γ} (hc : Completes m texts cm variant guard h encs)
    (hc' : Completes m texts' cm' variant guard' h' encs')
    (hf : FromSeats (runsOf m.session encs h (chunksOf m cm encs)) texts.length row results)
    (hf' : FromSeats (runsOf m.session encs' h' (chunksOf m cm' encs')) texts'.length row' results')
    {i i' : Nat} {enc : Encoding} (hi : encs[i]? = some enc) (hi' : encs'[i']? = some enc)
    (hpl : enc.Plain)
    (hrow : ∀ outs outs' p p', RowOf m.session variant enc outs p →
      RowOf m.session variant enc outs' p' → row outs i p = row' outs' i' p') :
    results[i]? = results'[i']? := by
  obtain ⟨outs, p, v, hr, hv, hres⟩ := hf.rowOf hc hi hpl
  obtain ⟨outs', p', v', hr', hv', hres'⟩ := hf'.rowOf hc' hi' hpl
  have e := hrow outs outs' p p' hr hr'
  rw [hv, hv'] at e
  cases e
  rw [hres, hres']

/-- results of a call that returned -/
def results {γ : Type} (r : Outcome AnyError (List γ × EmbedStats) × Trace) : List γ :=
  match r.1 with
  | .ok (xs, _) => xs
  | _ => []

/-- texts with the same encoding get the same results in any two completed requests -/
theorem results_agree (hl : RowLocal variant m.session) (hc : Completes m texts cm variant guard h encs)
    (hc' : Completes m texts' cm' variant guard' h' encs') {i i' : Nat} {enc : Encoding}
    (hi : encs[i]? = some enc) (hi' : encs'[i']? = some enc) (hpl : enc.Plain) :
    (results (embedDense m texts cm variant guard h))[i]? =
      (results (embedDense m texts' cm' variant guard' h'))[i']? ∧
    (results (embedSparse m texts cm variant guard h))[i]? =
      (results (embedSparse m texts' cm' variant guard' h'))[i']? ∧
    (results (embedBoth m texts cm variant guard h))[i]? =
      (results (embedBoth m texts' cm' variant guard' h'))[i']? := by
  have hsparse : ∀ outs outs' p p', RowOf m.session variant enc outs p →
      RowOf m.session variant enc outs' p' →
      sparseSeat m.linear encs variant outs i p = sparseSeat m.linear encs' variant outs' i' p' := by
    intro outs outs' p p' hr hr'
    rw [sparseSeat, Outcome.index_ok hi, Outcome.bind_ok, sparseSeat, Outcome.index_ok hi',
      Outcome.bind_ok]
    exact sparseRow_local hl m.linear hr hr'
  refine ⟨?_, ?_, ?_⟩
  · obtain ⟨ds, hd, hf⟩ := embedDense_ok hc
    obtain ⟨ds', hd', hf'⟩ := embedDense_ok hc'
    rw [hd, hd']
    exact hf.agree hc hc' hf' hi hi' hpl fun _ _ _ _ hr hr' => denseRow_local hl hpl hr hr'
  · obtain ⟨ss, hs, hf⟩ := embedSparse_ok hc
    obtain ⟨ss', hs', hf'⟩ := embedSparse_ok hc'
    rw [hs, hs']
    exact hf.agree hc hc' hf' hi hi' hpl hsparse
  · obtain ⟨bs, hb, hf⟩ := embedBoth_ok hc
    obtain ⟨bs', hb', hf'⟩ := embedBoth_ok hc'
    rw [hb, hb']
    refine hf.agree hc hc' hf' hi hi' hpl fun outs outs' p p' hr hr' => ?_
    rw [bothSeat, bothSeat, denseRow_local hl hpl hr hr', hsparse outs outs' p p' hr hr']

theorem length_results (hc : Completes m texts cm variant guard h encs) :
    (results (embedDense m texts cm variant guard h)).length = texts.length ∧
    (results (embedSparse m texts cm variant guard h)).length = texts.length ∧
    (results (embedBoth m texts cm variant guard h)).length = texts.length := by
  obtain ⟨ds, hd, hfd⟩ := embedDense_ok hc
  obtain ⟨ss, hs, hfs⟩ := embedSparse_ok hc
  obtain ⟨bs, hb, hfb⟩ := embedBoth_ok hc
  rw [hd, hs, hb]
  exact ⟨hfd.1, hfs.1, hfb.1⟩

/-- **Batching is invisible.**  A request that is tokenized, admitted and whose runs succeed returns
one result per text on every route, each from the one row that belongs to its text, and no chunk's
arrays are refused.  On a row-local session the results are those of the texts embedded alone, and
the same under every cost model. -/
theorem batching_invisible (hc : Completes m texts cm variant guard h encs) :
    (∃ ds ss bs stats,
      embedDense m texts cm variant guard h =
        (.ok (ds, stats), h ++ (chunksOf m cm encs).map (arraysOf encs)) ∧
      embedSparse m texts cm variant guard h =
        (.ok (ss, stats), h ++ (chunksOf m cm encs).map (arraysOf encs)) ∧
      embedBoth m texts cm variant guard h =
        (.ok (bs, stats), h ++ (chunksOf m cm encs).map (arraysOf encs)) ∧
      FromSeats (runsOf m.session encs h (chunksOf m cm encs)) texts.length
        (fun outs _ p => denseRow variant outs p) ds ∧
      FromSeats (runsOf m.session encs h (chunksOf m cm encs)) texts.length
        (sparseSeat m.linear encs variant) ss ∧
      FromSeats (runsOf m.session encs h (chunksOf m cm encs)) texts.length
        (bothSeat m.linear encs variant) bs) ∧
    (∀ c ∈ chunksOf m cm encs, ∃ x, buildChunkArrays encs c (padOf encs c) = .ok x) ∧
    (RowLocal variant m.session → (∀ enc ∈ encs, enc.Plain) →
      (∀ (i : Nat) text enc cm' guard' h', texts[i]? = some text → encs[i]? = some enc →
        Completes m [text] cm' variant guard' h' [enc] →
        (results (embedDense m texts cm variant guard h))[i]? =
          (results (embedDense m [text] cm' variant guard' h'))[0]? ∧
        (results (embedSparse m texts cm variant guard h))[i]? =
          (results (embedSparse m [text] cm' variant guard' h'))[0]? ∧
        (results (embedBoth m texts cm variant guard h))[i]? =
          (results (embedBoth m [text] cm' variant guard' h'))[0]?) ∧
      ∀ cm' guard' h', Completes m texts cm' variant guard' h' encs →
        results (embedDense m texts cm variant guard h) =
          results (embedDense m texts cm' variant guard' h') ∧
        results (embedSparse m texts cm variant guard h) =
          results (embedSparse m texts cm' variant guard' h') ∧
        results (embedBoth m texts cm variant guard h) =
          results (embedBoth m texts cm' variant guard' h')) := by
  refine ⟨?_, ?_, fun hl hpl => ⟨?_, ?_⟩⟩
  · obtain ⟨ds, hd, hfd⟩ := embedDense_ok hc
    obtain ⟨ss, hs, hfs⟩ := embedSparse_ok hc
    obtain ⟨bs, hb, hfb⟩ := embedBoth_ok hc
    exact ⟨ds, ss, bs, statsOf m texts cm encs h, hd, hs, hb, hfd, hfs, hfb⟩
  · intro c hmem
    have hcs : Seated encs c := seated_of_mem hmem
    exact ⟨arraysOf encs c, hcs.build⟩
  · intro i text enc cm' guard' h' _ hi hc'
    exact results_agree hl hc hc' hi rfl (hpl enc (List.mem_of_getElem? hi))
  · intro cm' guard' h' hc'
    have hat : ∀ i < texts.length, _ := fun i hi =>
      have he := List.getElem?_eq_getElem (hi.trans_eq hc.one_each.symm)
      results_agree hl hc hc' he he (hpl _ (List.mem_of_getElem? he))
    obtain ⟨hd, hs, hb⟩ := length_results hc
    obtain ⟨hd', hs', hb'⟩ := length_results hc'
    refine ⟨List.ext_getElem?' fun i hi => (hat i ?_).1, List.ext_getElem?' fun i hi => (hat i ?_).2.1,
      List.ext_getElem?' fun i hi => (hat i ?_).2.2⟩
    · rwa [hd, hd', max_self] at hi
    · rwa [hs, hs', max_self] at hi
    · rwa [hb, hb', max_self] at hi

end
end

/-! ## a session that shows each token back -/

/-- exact integers in place of floats -/
instance : F32Ops Int where
  zero := 0
  add := (· + ·)
  mul := (· * ·)
  div := (· / ·)
  max := max
  sqrt x := Nat.sqrt x.toNat
  gt a b := decide (b < a)
  dot a b := (List.zipWith (· * ·) a b).sum

/-- token vectors are the token ids -/
def echoTokens (x : ChunkArrays) : Nd Int :=
  ⟨x.ids.shape ++ [1], x.ids.data, by simp [x.ids.size_eq]⟩

/-- the pooled vector is the first unmasked token id -/
def echoSentence (x : ChunkArrays) : Nd Int :=
  ⟨[x.ids.nrows, 1], (List.range x.ids.nrows).map fun r => ((unmasked x r).map Prod.fst).headD 0, by simp⟩

def echoOutputs (x : ChunkArrays) : Outputs Int := fun name =>
  if name = "sentence_embedding" then some (.ok (echoSentence x))
  else if name = "token_embeddings" ∨ name = "last_hidden_state" then some (.ok (echoTokens x))
  else none

def echoSession : Session Int where
  run _ x :=
    { outputs := if x.ids.shape.length = 2 then .ok (echoOutputs x) else .error "Invalid rank for input"
      elapsedMs := 7 }

theorem echo_outputs {h : Trace} {x : ChunkArrays} {outs : Outputs Int}
    (ho : (echoSession.run h x).outputs = .ok outs) :
    outs = echoOutputs x ∧ ∃ b s, x.ids.shape = [b, s] := by
  unfold echoSession at ho
  dsimp only at ho
  split at ho
  · rename_i hsh
    cases ho
    exact ⟨rfl, List.length_eq_two.mp hsh⟩
  · cases ho

theorem echo_shaped {h : Trace} {x : ChunkArrays} {b s : Nat} (hx : x.ids.shape = [b, s])
    (variant : ModelVariant) :
    ∃ outs, (echoSession.run h x).outputs = .ok outs ∧ Shaped variant outs b s := by
  refine ⟨echoOutputs x, by simp [echoSession, hx], ?_⟩
  cases variant with
  | fp32 => exact ⟨echoSentence x, echoTokens x, 1, rfl, by simp [echoSentence, Nd.nrows, hx], rfl,
      by simp [echoTokens, hx]⟩
  | fp16 => exact ⟨echoTokens x, 1, rfl, by simp [echoTokens, hx]⟩
  | int8 => exact ⟨echoTokens x, 1, rfl, by simp [echoTokens, hx]⟩

theorem echo_tokenOut {x : ChunkArrays} {b s r : Nat} (hx : x.ids.shape = [b, s])
    (variant : ModelVariant) {p : Int × Nat} (hp : p ∈ unmasked x r) :
    r < b ∧ tokenOut variant (echoOutputs x) r p.2 = .ok [p.1] := by
  have hs : x.ids.shape.getD 1 0 = s := by rw [hx]; rfl
  -- the token is where it says it is
  obtain ⟨hj, hget⟩ : p.2 < s ∧ x.ids.data[r * s + p.2]? = some p.1 := by
    unfold unmasked at hp
    dsimp only at hp
    rw [hs] at hp
    obtain ⟨⟨⟨a, k⟩, j⟩, hq, rfl⟩ := List.mem_map.mp hp
    have hz := List.mem_zipIdx_iff_getElem?.mp (List.mem_filter.mp hq).1
    have ha := (List.getElem?_zip_eq_some.mp hz).1
    unfold block at ha
    rw [List.getElem?_take] at ha
    split at ha
    · rename_i hj
      rw [List.getElem?_drop] at ha
      exact ⟨hj, ha⟩
    · cases ha
  have hlen : x.ids.data.length = b * s := by rw [x.ids.size_eq, hx]; simp
  have hlt := (List.getElem?_eq_some_iff.mp hget).1
  have hr : r < b := by
    by_contra hge
    have := Nat.mul_le_mul_right s (Nat.le_of_not_lt hge)
    omega
  refine ⟨hr, ?_⟩
  have ht : tokenEmb variant (echoOutputs x) = .ok (echoTokens x) := by
    cases variant <;> exact tensor_ok rfl
  have hts : (echoTokens x).shape = [b, s, 1] := by simp [echoTokens, hx]
  have hd : (echoTokens x).data = x.ids.data := rfl
  rw [tokenOut_eq ht hts hr hj, tokenVec, hd]
  congr 1
  refine List.ext_getElem? fun k => ?_
  cases k with
  | zero => simp [block, List.getElem?_drop, hj, hget]
  | succ k => simp [block]

theorem echo_rowLocal (variant : ModelVariant) : RowLocal variant echoSession where
  tokens {h h' x x' outs outs' r r'} ho ho' hu p hp := by
    obtain ⟨rfl, b, s, hx⟩ := echo_outputs ho
    obtain ⟨rfl, b', s', hx'⟩ := echo_outputs ho'
    rw [(echo_tokenOut hx variant hp).2, (echo_tokenOut hx' variant (by rw [← hu]; exact hp)).2]
  sentence {_ h h' x x' outs outs' r r'} ho ho' hu hne := by
    obtain ⟨rfl, b, s, hx⟩ := echo_outputs ho
    obtain ⟨rfl, b', s', hx'⟩ := echo_outputs ho'
    obtain ⟨p, hp⟩ := List.exists_mem_of_ne_nil _ hne
    have hsent : ∀ {y : ChunkArrays} {c t k : Nat}, y.ids.shape = [c, t] → p ∈ unmasked y k →
        sentenceOut (echoOutputs y) k = .ok [((unmasked y k).map Prod.fst).headD 0] := by
      intro y c t k hy hpk
      have hk := (echo_tokenOut hy variant hpk).1
      have hsh : (echoSentence y).shape = [c, 1] := by simp [echoSentence, Nd.nrows, hy]
      obtain ⟨row, hrow, -, hdata⟩ := Nd.indexAxis_zero (ε := AnyError) hsh hk
      have ht : tensor (echoOutputs y) "sentence_embedding" = .ok (echoSentence y) := tensor_ok rfl
      rw [sentenceOut, ht, Outcome.bind_ok, hrow, Outcome.bind_ok, hdata, Outcome.pure_eq]
      congr 1
      refine List.ext_getElem? fun j => ?_
      cases j with
      | zero => simp [block, echoSentence, Nd.nrows, hy, hk]
      | succ j => simp [block]
    rw [hsent hx hp, hsent hx' (by rw [← hu]; exact hp), hu]

/-- a character tokenizer: `<s>`, one id per character, `</s>` -/
def charEncoding (text : String) : Encoding where
  ids := 0 :: (text.toList.map Char.toNat ++ [2])
  mask := List.replicate (text.toList.length + 2) 1
  mask_len := by simp

def charTokenizer : Tokenizer where
  encodeBatchFast texts := .ok (texts.map charEncoding)
  one_each h := by
    cases h
    rw [List.length_map]
  elapsedMs texts := texts.length

def echoModels : Models Int := ⟨echoSession, charTokenizer, ⟨[1], 0⟩, .insertion⟩

theorem echo_completes (texts : List String) (cm : CostModel) (variant : ModelVariant) (h : Trace) :
    Completes echoModels texts cm variant none h (texts.map charEncoding) where
  tokenized := rfl
  admitted := rfl
  runs q hq := by
    obtain ⟨hmem, h', hrun⟩ := mem_runsOf hq
    have hcs : Seated (texts.map charEncoding) q.1 := seated_of_mem hmem
    rw [hrun]
    exact echo_shaped hcs.shapes.1 variant

/-- three texts under a budget that splits them, against the second text alone -/
theorem batching_invisible_echo :
    (results (embedBoth echoModels ["lorem", "a", "ipsum dolor"] ⟨1, 1, 100⟩ .fp16 none []))[1]? =
      (results (embedBoth echoModels ["a"] ⟨0, 0, 0⟩ .fp16 none []))[0]? :=
  ((batching_invisible (echo_completes ["lorem", "a", "ipsum dolor"] ⟨1, 1, 100⟩ .fp16 [])).2.2
    (echo_rowLocal .fp16) (by
      intro enc henc
      obtain ⟨text, -, rfl⟩ := List.mem_map.mp henc
      exact ⟨by simp [charEncoding], fun b hb => List.eq_of_mem_replicate hb⟩)).1
    1 "a" (charEncoding "a") ⟨0, 0, 0⟩ none [] rfl rfl (echo_completes ["a"] ⟨0, 0, 0⟩ .fp16 []) |>.2.2

end EmbedServer
