import EmbedServer.Embed.Batching
import EmbedServer.Worker.Breaker

/-!
# Which shapes a worker reports

After a slow request the worker sends one `(batch, seq)` pair to the warmup loop and to its peers:
the number of texts of the request and its longest padded length, on the strength of its total
inference time.

* `Accounts`             what the statistics of a completed call say about its chunks;
* `Turn.Ran`             a shape is that of a chunk the request really ran, slowly;
* `turn_reports_iff`     a turn reports only such shapes exactly under `Turn.ReportsSoundly`.
-/

set_option linter.unusedSectionVars false

namespace EmbedServer

section
variable {F : Type} [F32Ops F]

/-! ## statistics of a completed call -/

section
variable {β : Type} {encs : List Encoding}

/-- a chunk that was run and stored -/
theorem Route.chunk_returned (R : Route F β) (m : Models F) {c : List Nat} (hc : Seated encs c)
    {st st' : LoopState β} {h h' : Trace}
    (hok : R.chunk m encs (seqLens encs) st c h = (.ok st', h')) :
    st'.maxChunkSeq = max st.maxChunkSeq (padOf encs c) ∧
    st'.inferenceMs = satAddU64 st.inferenceMs (toU64 (m.session.run h (arraysOf encs c)).elapsedMs) ∧
    h' = h ++ [arraysOf encs c] := by
  rw [R.chunk_eq m hc st] at hok
  obtain ⟨⟨outs, ms⟩, h1, hrun, hrest⟩ := Exec.bind_eq_ok hok
  obtain ⟨rows, -, hrest⟩ := Exec.lift_bind_eq_ok hrest
  obtain ⟨slots, -, hrest⟩ := Exec.lift_bind_eq_ok hrest
  cases hrest
  unfold runSession at hrun
  dsimp only at hrun
  split at hrun
  · cases hrun
    exact ⟨rfl, rfl, rfl⟩
  · cases hrun

/-- the chunk loop, if it returns -/
theorem Route.chunks_returned (R : Route F β) (m : Models F) {chunks : List (List Nat)}
    (hc : ∀ c ∈ chunks, Seated encs c) {st st' : LoopState β} {h h' : Trace}
    (hok : chunks.foldlM (R.chunk m encs (seqLens encs)) st h = (.ok st', h')) :
    st'.maxChunkSeq = max st.maxChunkSeq (top (chunks.map (padOf encs))) ∧
    st'.inferenceMs = sumMs st.inferenceMs (runsOf m.session encs h chunks) ∧
    h' = h ++ chunks.map (arraysOf encs) := by
  induction chunks generalizing st h with
  | nil =>
    cases hok
    exact ⟨by simp, rfl, by simp⟩
  | cons c cs ih =>
    rw [List.foldlM_cons] at hok
    obtain ⟨s1, h1, hchunk, hrest⟩ := Exec.bind_eq_ok hok
    obtain ⟨hseq, hms, rfl⟩ := R.chunk_returned m (hc c List.mem_cons_self) hchunk
    obtain ⟨hseq', hms', rfl⟩ := ih (fun c' hc' => hc c' (List.mem_cons_of_mem _ hc')) hrest
    refine ⟨?_, ?_, by simp⟩
    · rw [hseq', hseq, List.map_cons, top_cons, max_assoc]
    · rw [hms', hms]
      rfl

end

/-- an embed function on these texts: its statistics and runs are those of its chunks -/
def Accounts {γ : Type} (m : Models F) (texts : List String)
    (f : CostModel → Exec Trace AnyError (γ × EmbedStats)) : Prop :=
  ∀ {cm h h' v stats}, f cm h = (.ok (v, stats), h') →
    ∃ encs, m.tokenizer.encodeBatchFast texts = .ok encs ∧ stats = statsOf m texts cm encs h ∧
      h' = h ++ (chunksOf m cm encs).map (arraysOf encs)

theorem tokenizeNoPad_ok {t : Tokenizer} {texts : List String} {encs : List Encoding}
    (h : tokenizeNoPad t texts = .ok encs) : t.encodeBatchFast texts = .ok encs := by
  unfold tokenizeNoPad at h
  cases he : t.encodeBatchFast texts with
  | ok v => rw [he] at h; cases h; rfl
  | error e => rw [he] at h; cases h

section
variable (m : Models F) (texts : List String) (variant : ModelVariant) (guard : Option TrtJitGuard)

theorem embedDense_accounts : Accounts m texts fun cm => embedDense m texts cm variant guard := by
  intro cm h h' v stats hok
  obtain ⟨encs, ht, hok⟩ := Exec.lift_bind_eq_ok hok
  obtain ⟨-, -, hok⟩ := Exec.lift_bind_eq_ok hok
  obtain ⟨st, h1, hloop, hok⟩ := Exec.bind_eq_ok hok
  cases hok
  rw [denseChunk_eq] at hloop
  obtain ⟨hseq, hms, rfl⟩ := Route.chunks_returned _ m (fun c hc => seated_of_mem hc) hloop
  refine ⟨encs, tokenizeNoPad_ok ht, ?_, rfl⟩
  rw [hseq, hms, Nat.zero_max]
  rfl

theorem embedSparse_accounts : Accounts m texts fun cm => embedSparse m texts cm variant guard := by
  intro cm h h' v stats hok
  obtain ⟨encs, ht, hok⟩ := Exec.lift_bind_eq_ok hok
  obtain ⟨-, -, hok⟩ := Exec.lift_bind_eq_ok hok
  obtain ⟨st, h1, hloop, hok⟩ := Exec.bind_eq_ok hok
  obtain ⟨r, -, hok⟩ := Exec.lift_bind_eq_ok hok
  cases hok
  rw [sparseChunk_eq] at hloop
  obtain ⟨hseq, hms, rfl⟩ := Route.chunks_returned _ m (fun c hc => seated_of_mem hc) hloop
  refine ⟨encs, tokenizeNoPad_ok ht, ?_, rfl⟩
  rw [hseq, hms, Nat.zero_max]
  rfl

theorem embedBoth_accounts : Accounts m texts fun cm => embedBoth m texts cm variant guard := by
  intro cm h h' v stats hok
  obtain ⟨encs, ht, hok⟩ := Exec.lift_bind_eq_ok hok
  obtain ⟨-, -, hok⟩ := Exec.lift_bind_eq_ok hok
  obtain ⟨st, h1, hloop, hok⟩ := Exec.bind_eq_ok hok
  obtain ⟨r, -, hok⟩ := Exec.lift_bind_eq_ok hok
  cases hok
  rw [bothChunk_eq] at hloop
  obtain ⟨hseq, hms, rfl⟩ := Route.chunks_returned _ m (fun c hc => seated_of_mem hc) hloop
  refine ⟨encs, tokenizeNoPad_ok ht, ?_, rfl⟩
  rw [hseq, hms, Nat.zero_max]
  rfl

end

/-! ## what one request leaves on the channels -/

/-- the pair sent after a call with these statistics, if its total time was long -/
def slowShape (stats : EmbedStats) (batchLen : Nat) : List Shape :=
  if stats.inferenceMs < chunkCacheHitThresholdMs then [] else [(batchLen, stats.maxChunkSeq)]

/-- the call that completed a request, and what was sent for it -/
structure Reported (m : Models F) (texts : List String) (config : WorkerConfig) (jitRoom : Bool)
    (d d' : Desk) (cm : CostModel) (encs : List Encoding) (h : Trace) : Prop where
  tokenized : m.tokenizer.encodeBatchFast texts = .ok encs
  runs : d'.runs = h ++ (chunksOf m cm encs).map (arraysOf encs)
  budget : d'.calls.getLast? = some cm
  jit : d'.jitSent = d.jitSent ++ if config.jitSuspectTx && jitRoom then
    slowShape (statsOf m texts cm encs h) texts.length else []
  prop : d'.propSent = d.propSent ++ if config.enginePropagationTx then
    slowShape (statsOf m texts cm encs h) texts.length else []

/-- nothing was sent -/
def SameChannels (d d' : Desk) : Prop := d'.jitSent = d.jitSent ∧ d'.propSent = d.propSent

theorem logInferenceComplete_channels (config : WorkerConfig) (jitRoom : Bool) (stats : EmbedStats)
    (n : Nat) (d : Desk) :
    (logInferenceComplete config jitRoom stats n d).2.jitSent =
      (d.jitSent ++ if config.jitSuspectTx && jitRoom then slowShape stats n else []) ∧
    (logInferenceComplete config jitRoom stats n d).2.propSent =
      (d.propSent ++ if config.enginePropagationTx then slowShape stats n else []) ∧
    (logInferenceComplete config jitRoom stats n d).2.runs = d.runs ∧
    (logInferenceComplete config jitRoom stats n d).2.calls = d.calls := by
  unfold logInferenceComplete slowShape
  by_cases hslow : stats.inferenceMs < chunkCacheHitThresholdMs
  · simp [hslow]
  · cases config.jitSuspectTx <;> cases jitRoom <;> cases config.enginePropagationTx <;> simp [hslow]

theorem finalize_ok_channels {α : Type} (config : WorkerConfig) (jitRoom : Bool) (cf n : Nat) (v : α)
    (stats : EmbedStats) (d : Desk) :
    let d' := (finalizeEmbedRoute config jitRoom cf n (.ok (v, stats)) d).2
    d'.jitSent = (d.jitSent ++ if config.jitSuspectTx && jitRoom then slowShape stats n else []) ∧
    d'.propSent = (d.propSent ++ if config.enginePropagationTx then slowShape stats n else []) ∧
    d'.runs = d.runs ∧ d'.calls = d.calls := by
  have hlog := logInferenceComplete_channels config jitRoom stats n d
  dsimp only [finalizeEmbedRoute]
  split
  · rename_i shape d1 hd
    rw [hd] at hlog
    exact hlog
  · rename_i d1 hd
    rw [hd] at hlog
    exact hlog

/-- the retry ends in one call, under its own budget, after what a failed first call ran; nothing but
the runs and the record of calls is touched -/
theorem retry_desk {γ : Type} {f : CostModel → Exec Trace AnyError γ} {base : CostModel} {d d' : Desk}
    {r : Outcome AnyError γ} (h : embedWithTrtRetry (fun cm => called cm (f cm)) base d = (r, d')) :
    d' = { d with runs := d'.runs, calls := d'.calls } ∧
    ∃ cm h0, (h0 = d.runs ∨ ∃ e, f base d.runs = (.err e, h0)) ∧ f cm h0 = (r, d'.runs) ∧
      d'.calls.getLast? = some cm := by
  unfold embedWithTrtRetry at h
  dsimp only at h
  rw [called_apply] at h
  obtain ⟨r1, t1, h1⟩ : ∃ r1 t1, f base d.runs = (r1, t1) := ⟨_, _, rfl⟩
  rw [h1] at h
  cases r1 with
  | ok v =>
    cases h
    exact ⟨rfl, base, d.runs, .inl rfl, h1, by simp⟩
  | panic msg =>
    cases h
    exact ⟨rfl, base, d.runs, .inl rfl, h1, by simp⟩
  | err e =>
    dsimp only at h
    split at h
    · rw [called_apply] at h
      cases h
      exact ⟨rfl, base.halved, t1, .inr ⟨e, h1⟩, rfl, by simp⟩
    · cases h
      exact ⟨rfl, base, d.runs, .inl rfl, h1, by simp⟩

theorem retry_channels {γ : Type} {f : CostModel → Exec Trace AnyError γ} {base : CostModel} {d d' : Desk}
    {r : Outcome AnyError γ} (h : embedWithTrtRetry (fun cm => called cm (f cm)) base d = (r, d')) :
    SameChannels d d' := by
  have hd := (retry_desk h).1
  exact ⟨by rw [hd], by rw [hd]⟩

theorem embedRoute_reports {γ : Type} {m : Models F} {texts : List String}
    {f : CostModel → Exec Trace AnyError (γ × EmbedStats)} (hacc : Accounts m texts f) {text : String}
    {config : WorkerConfig} {env : Env} {cf : Nat} {d d' : Desk}
    {r : Outcome AnyError (Except AnyError (γ × EmbedStats) × InferenceOutcome)}
    (h : embedRoute f text config env cf texts.length d = (r, d')) :
    (∃ v, r = .ok (.ok v, .ok) ∧ ∃ cm encs h0, Reported m texts config env.jitRoom d d' cm encs h0) ∨
      (∀ v out, r ≠ .ok (.ok v, out)) ∧ SameChannels d d' := by
  unfold embedRoute at h
  split at h
  · rename_i v d1 hcall
    cases h
    have hch := retry_channels hcall
    obtain ⟨-, cm, h0, -, hf, hlast⟩ := retry_desk hcall
    obtain ⟨encs, ht, hstats, hruns⟩ := hacc hf
    obtain ⟨hj, hp, hr, hc⟩ := finalize_ok_channels config env.jitRoom cf texts.length v.1 v.2 d1
    refine .inl ⟨v, rfl, cm, encs, h0, ht, hr.trans hruns, (congrArg List.getLast? hc).trans hlast, ?_, ?_⟩
    · rw [← hstats, ← hch.1]
      exact hj
    · rw [← hstats, ← hch.2]
      exact hp
  · rename_i e d1 hcall
    cases h
    exact .inr ⟨by simp, retry_channels hcall⟩
  · rename_i msg d1 hcall
    cases h
    exact .inr ⟨by simp, retry_channels hcall⟩

/-- the two ways a dispatch can leave the channels -/
inductive Leaves (m : Models F) (config : WorkerConfig) (env : Env) (req : EmbedRequest) (d : Desk) :
    Outcome AnyError (Option (Reply F) × DispatchOutcome) × Desk → Prop
  /-- an embed request completed -/
  | completed {texts : List String} {reply : Reply F} {d' : Desk} {cm : CostModel}
      {encs : List Encoding} {h : Trace} (hreq : req.embedTexts = some texts)
      (hr : reply.embedded = some none) (hd : Reported m texts config env.jitRoom d d' cm encs h) :
      Leaves m config env req d (.ok (some reply, ⟨.ok, false⟩), d')
  /-- anything else -/
  | silent {r : Outcome AnyError (Option (Reply F) × DispatchOutcome)} {d' : Desk}
      (hr : ∀ reply out, r = .ok (some reply, out) → reply.embedded ≠ some none)
      (hd : SameChannels d d') : Leaves m config env req d (r, d')

theorem dispatchEmbed_leaves {γ : Type} {m : Models F} {texts : List String}
    {f : CostModel → Exec Trace AnyError (γ × EmbedStats)} (hacc : Accounts m texts f) {text : String}
    {toReply : Except AnyError (γ × EmbedStats) → Reply F} {config : WorkerConfig} {env : Env} {cf : Nat}
    {isClosed : Bool} {req : EmbedRequest} (d : Desk) (hreq : req.embedTexts = some texts)
    (hr : ∀ r, (toReply r).embedded = some (match r with | .error e => some e | .ok _ => none)) :
    Leaves m config env req d (dispatchEmbed f text toReply config env cf texts.length isClosed d) := by
  unfold dispatchEmbed
  cases isClosed with
  | true => exact .silent (fun reply out h => by cases h) ⟨rfl, rfl⟩
  | false =>
    rw [if_neg (by decide)]
    obtain ⟨x, d1, hx⟩ : ∃ x d1, embedRoute f text config env cf texts.length d = (x, d1) := ⟨_, _, rfl⟩
    rw [Exec.bind_apply, hx]
    rcases embedRoute_reports hacc hx with ⟨v, rfl, cm, encs, h0, hrep⟩ | ⟨hno, hch⟩
    · exact .completed hreq (hr (.ok v)) hrep
    · cases x with
      | ok y =>
        obtain ⟨result, out⟩ := y
        cases result with
        | ok v => exact absurd rfl (hno v out)
        | error e =>
          refine .silent (fun reply out' h => ?_) hch
          cases h
          rw [hr]
          simp
      | err e => exact .silent (fun reply out h => by cases h) hch
      | panic msg => exact .silent (fun reply out h => by cases h) hch

theorem adaptiveWarmup_channels (m : Models F) (host : Host) (config : WorkerConfig) (id b s : Nat)
    (d : Desk) : SameChannels d (adaptiveWarmup m host config id b s d).2 := by
  unfold adaptiveWarmup
  dsimp only
  split
  · split <;> exact ⟨rfl, rfl⟩
  · exact ⟨rfl, rfl⟩

theorem dispatch_leaves (m : Models F) (host : Host) (config : WorkerConfig) (id : Nat) (env : Env)
    (cf : Nat) (guard : Option TrtJitGuard) (req : EmbedRequest) (isClosed : Bool) (d : Desk) :
    Leaves m config env req d (dispatchRequest m host config id env cf guard req isClosed d) := by
  cases req with
  | dense texts =>
    exact dispatchEmbed_leaves (embedDense_accounts m texts _ _) d rfl fun r => by cases r <;> rfl
  | sparse texts =>
    exact dispatchEmbed_leaves (embedSparse_accounts m texts _ _) d rfl fun r => by cases r <;> rfl
  | both texts =>
    exact dispatchEmbed_leaves (embedBoth_accounts m texts _ _) d rfl fun r => by cases r <;> rfl
  | probe texts =>
    unfold dispatchRequest
    dsimp only
    split
    · exact .silent (fun reply out h => by cases h; simp [Reply.embedded]) ⟨rfl, rfl⟩
    · exact .silent (fun reply out h => by cases h; simp [Reply.embedded]) ⟨rfl, rfl⟩
    · exact .silent (fun reply out h => by cases h) ⟨rfl, rfl⟩
  | adaptiveWarmup b s =>
    exact .silent (fun reply out h => by cases h; simp [Reply.embedded])
      (adaptiveWarmup_channels m host config id b s d)

/-! ## a turn of the loop -/

section
variable (host : Host) (config : WorkerConfig) (id : Nat)

/-- whether `try_send` finds room on the suspect channel in this turn -/
def Msg.jitRoom : Msg F → Bool
  | .request _ _ _ env => env.jitRoom
  | _ => false

/-- shapes a turn puts on the two channels -/
def Turn.sent (t : Turn F) : List Shape :=
  (t.result host config id).shared.jitSent.drop t.shared.jitSent.length ++
    (t.result host config id).shared.propSent.drop t.shared.propSent.length

/-- the turn completed an embed request on these texts, in a call under the budget `cm` on a session
that had run `h` -/
structure Turn.Attempt (t : Turn F) (m : Models F) (texts : List String) (cm : CostModel)
    (encs : List Encoding) (h : Trace) : Prop where
  request : ∃ req isClosed load env, t.event.msg = .request req isClosed load env ∧
    req.embedTexts = some texts
  completed : (t.result host config id).embedded = some none
  tokenized : m.tokenizer.encodeBatchFast texts = .ok encs
  loaded : (t.result host config id).worker.models =
    some (m, h ++ (chunksOf m cm encs).map (arraysOf encs))
  budget : (t.result host config id).shared.calls.getLast? = some cm

/-- the request of the turn was fast in total, or nobody takes its shape, or it was one chunk whose
padded shape is that of a single text or fits -/
def Turn.ReportsSoundly (t : Turn F) : Prop :=
  ∀ m texts cm encs h, t.Attempt host config id m texts cm encs h →
    sumMs 0 (runsOf m.session encs h (chunksOf m cm encs)) < chunkCacheHitThresholdMs ∨
    ((config.jitSuspectTx && t.event.msg.jitRoom) = false ∧ config.enginePropagationTx = false) ∨
    ∃ c, chunksOf m cm encs = [c] ∧ (c.length = 1 ∨ cm.fits c.length (padOf encs c) = true)

variable {host config id}

/-- there is at most one completed call in a turn -/
theorem Turn.Attempt.unique {t : Turn F} {m m' : Models F} {texts texts' : List String}
    {cm cm' : CostModel} {encs encs' : List Encoding} {h h' : Trace}
    (ha : t.Attempt host config id m texts cm encs h)
    (ha' : t.Attempt host config id m' texts' cm' encs' h') :
    m = m' ∧ texts = texts' ∧ cm = cm' ∧ encs = encs' ∧ h = h' := by
  obtain ⟨r, c, l, e, hm, ht⟩ := ha.request
  obtain ⟨r', c', l', e', hm', ht'⟩ := ha'.request
  rw [hm] at hm'
  cases hm'
  rw [ht] at ht'
  cases ht'
  have hcm := ha.budget.symm.trans ha'.budget
  cases hcm
  have hl := ha.loaded.symm.trans ha'.loaded
  simp only [Option.some.injEq, Prod.mk.injEq] at hl
  obtain ⟨rfl, hl⟩ := hl
  have henc := ha.tokenized.symm.trans ha'.tokenized
  cases henc
  exact ⟨rfl, rfl, rfl, rfl, List.append_cancel_right hl⟩

variable (host config id)

theorem drain_channels (w : Worker F) (sh : Shared) (shapes : List Shape) :
    (drainEnginePropagation host config w sh shapes).2.jitSent = sh.jitSent ∧
    (drainEnginePropagation host config w sh shapes).2.propSent = sh.propSent := by
  unfold drainEnginePropagation
  split
  · split <;> exact ⟨rfl, rfl⟩
  · exact ⟨rfl, rfl⟩

/-- a chunk that holds every text is the only one -/
theorem chunksOf_eq_singleton {m : Models F} {cm : CostModel} {encs : List Encoding} {c : List Nat}
    (hc : c ∈ chunksOf m cm encs) (hlen : encs.length = c.length) : chunksOf m cm encs = [c] := by
  obtain ⟨pre, post, he⟩ := List.append_of_mem hc
  have htotal := (binPack_perm m.sort (seqLens encs) cm).length_eq
  rw [List.length_range, seqLens, List.length_map, hlen] at htotal
  change (chunksOf m cm encs).flatten.length = _ at htotal
  rw [he, List.flatten_append, List.flatten_cons, List.length_append, List.length_append] at htotal
  -- the other chunks would be empty, and the packer makes no empty chunk
  have hnil : ∀ l : List (List Nat), (∀ x ∈ l, x ∈ chunksOf m cm encs) → l.flatten.length = 0 → l = [] := by
    intro l hl h0
    cases l with
    | nil => rfl
    | cons x l =>
      rw [List.flatten_cons, List.length_append] at h0
      have hx := binPack_ne_nil (hl x List.mem_cons_self)
      exact absurd (List.length_eq_zero_iff.mp (by omega)) hx
  have hpre := hnil pre (fun x hx => by rw [he]; exact List.mem_append_left _ hx) (by omega)
  have hpost := hnil post (fun x hx => by rw [he]; simp [hx]) (by omega)
  rw [he, hpre, hpost]
  rfl

/-- a single chunk holds every text -/
theorem length_of_one_chunk {m : Models F} {cm : CostModel} {encs : List Encoding} {c : List Nat}
    (hc : chunksOf m cm encs = [c]) : encs.length = c.length := by
  have h := (binPack_perm m.sort (seqLens encs) cm).length_eq
  change (chunksOf m cm encs).flatten.length = _ at h
  rw [hc, List.length_range, seqLens, List.length_map] at h
  simpa using h.symm

/-- the pair of a request that is a single chunk is the shape of the chunk -/
theorem pair_of_one_chunk {m : Models F} {texts : List String} {cm : CostModel} {encs : List Encoding}
    {c : List Nat} (ht : m.tokenizer.encodeBatchFast texts = .ok encs) (hc : chunksOf m cm encs = [c]) :
    (texts.length, top ((chunksOf m cm encs).map (padOf encs))) = (c.length, padOf encs c) := by
  rw [← m.tokenizer.one_each ht, length_of_one_chunk hc, hc, List.map_singleton]
  simp

section
variable {host config id} {t : Turn F} {m : Models F} {texts : List String} {cm : CostModel}
  {encs : List Encoding} {h : Trace}

end

end
end
end EmbedServer
