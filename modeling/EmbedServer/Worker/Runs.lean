import EmbedServer.Lib.Log
import EmbedServer.Worker.Report

/-!
# What a request runs on the session, and what it marks as warmed

A session only ever gains runs.  An embed request that completes has run all its chunks successfully;
if it took long in total and the propagation channel is open, it marks one pair in `warmed_local`.

* `Runs`             a call that only adds runs, all of them successful if it returns;
* `trtPrewarm_one`   a pre-warm of one shape is one dummy run;
* `dispatch_marks`   the runs of a dispatched request, and the pair it marks.
-/

set_option linter.unusedSectionVars false

namespace EmbedServer

section
variable {F : Type}

/-- `session.run()` on `x`, after the runs `h`, comes back with outputs -/
def Session.succeeds (session : Session F) (h : Trace) (x : ChunkArrays) : Bool :=
  (session.run h x).outputs.isOk

/-- `(batch, seq)` of an input -/
def ChunkArrays.size (x : ChunkArrays) : Shape := (x.ids.shape.headD 0, x.ids.shape.getD 1 0)

/-- the shapes among these runs that were run successfully, and meet `p` -/
def Session.shapesWhere (session : Session F) (p : Trace → ChunkArrays → Bool) (h runs : Trace) :
    List Shape :=
  collect (fun h x => if session.succeeds h x && p h x then some x.size else none) h runs

/-- the shapes a session has run successfully -/
def Session.shapesRun (session : Session F) (runs : Trace) : List Shape :=
  session.shapesWhere (fun _ _ => true) [] runs

theorem Session.shapesRun_append (session : Session F) (h l : Trace) :
    session.shapesRun (h ++ l) = session.shapesRun h ++ session.shapesWhere (fun _ _ => true) h l := by
  unfold Session.shapesRun Session.shapesWhere
  rw [collect_append, List.nil_append]

/-- runs that all succeeded are all among the shapes run -/
theorem Session.shapesWhere_all {session : Session F} {h l : Trace}
    (hl : Along (fun h x => session.succeeds h x = true) h l) :
    session.shapesWhere (fun _ _ => true) h l = l.map ChunkArrays.size := by
  refine collect_eq_map (fun h x hx => ?_) hl
  rw [hx]
  rfl

theorem size_arraysOf {encs : List Encoding} {c : List Nat} (hc : Seated encs c) :
    (arraysOf encs c).size = (c.length, padOf encs c) := by
  unfold ChunkArrays.size
  rw [hc.shapes.1]
  rfl

/-! ## calls that run the session -/

/-- the call appends to the runs; if it returns, all of them succeeded -/
def Runs {ε α : Type} (session : Session F) (x : Exec Trace ε α) : Prop :=
  Exec.Logs (fun h y => session.succeeds h y = true) x

theorem runSession_runs (session : Session F) (x : ChunkArrays) : Runs session (runSession session x) := by
  intro h r h' hx
  unfold runSession at hx
  dsimp only at hx
  split at hx
  · rename_i outs ho
    cases hx
    refine ⟨[x], rfl, fun _ => ⟨?_, trivial⟩⟩
    show (session.run h x).outputs.isOk = true
    rw [ho]
    rfl
  · cases hx
    exact ⟨[x], rfl, fun hok => by cases hok⟩

variable [F32Ops F]

theorem Route.chunk_runs {β : Type} (R : Route F β) (m : Models F) (encs : List Encoding) (lens : List Nat)
    (st : LoopState β) (c : List Nat) : Runs m.session (R.chunk m encs lens st c) := by
  refine (Exec.logs_lift _).bind fun _ => (Exec.logs_lift _).bind fun arrays => ?_
  refine (Exec.logs_lift _).bind fun _ => (Exec.logs_lift _).bind fun _ => ?_
  refine (runSession_runs m.session arrays).bind fun _ => ?_
  exact (Exec.logs_lift _).bind fun _ => (Exec.logs_lift _).bind fun _ => Exec.logs_pure _

section
variable (m : Models F) (texts : List String) (cm : CostModel) (variant : ModelVariant)
  (guard : Option TrtJitGuard)

theorem embedDense_runs : Runs m.session (embedDense m texts cm variant guard) := by
  refine (Exec.logs_lift _).bind fun encs => (Exec.logs_lift _).bind fun _ => ?_
  rw [denseChunk_eq]
  exact (Exec.logs_foldlM (Route.chunk_runs _ m encs _) _ _).bind fun _ => Exec.logs_pure _

theorem embedSparse_runs : Runs m.session (embedSparse m texts cm variant guard) := by
  refine (Exec.logs_lift _).bind fun encs => (Exec.logs_lift _).bind fun _ => ?_
  rw [sparseChunk_eq]
  refine (Exec.logs_foldlM (Route.chunk_runs _ m encs _) _ _).bind fun _ => ?_
  exact (Exec.logs_lift _).bind fun _ => Exec.logs_pure _

theorem embedBoth_runs : Runs m.session (embedBoth m texts cm variant guard) := by
  refine (Exec.logs_lift _).bind fun encs => (Exec.logs_lift _).bind fun _ => ?_
  rw [bothChunk_eq]
  refine (Exec.logs_foldlM (Route.chunk_runs _ m encs _) _ _).bind fun _ => ?_
  exact (Exec.logs_lift _).bind fun _ => Exec.logs_pure _

end

theorem probeRunDense_runs (session : Session F) (host : Host) (x : ChunkArrays) :
    Runs session (probeRunDense session host x) := by
  intro h r h' hx
  unfold probeRunDense at hx
  dsimp only at hx
  split at hx
  · split at hx
    · rename_i v h1 hrun
      cases hx
      obtain ⟨l, hl, hok⟩ := runSession_runs session x h _ _ hrun
      exact ⟨l, hl, fun _ => hok rfl⟩
    · rename_i e h1 hrun
      cases hx
      exact runSession_runs session x h _ _ hrun
    · rename_i msg h1 hrun
      cases hx
      exact runSession_runs session x h _ _ hrun
  all_goals
    cases hx
    exact ⟨[], by simp, fun hok => by cases hok⟩

/-! ## a pre-warm of one shape -/

section
variable (session : Session F) (host : Host) (shape : Shape) (h : Trace)

theorem runWarmupShape_trace : (runWarmupShape session host shape h).2 =
    (probeRunDense session host (warmupArrays shape.1 shape.2) h).2 := by
  unfold runWarmupShape
  dsimp only
  split
  · rename_i hr
    rw [hr]
  · rename_i hr
    rw [hr]

theorem coverageCheckShapes_one : coverageCheckShapes [shape] = [shape] := by
  simp [coverageCheckShapes]

/-- one dummy run, whether or not engine files are on disk -/
theorem trtPrewarm_one : (trtPrewarm session host [shape] h).2 =
    (probeRunDense session host (warmupArrays shape.1 shape.2) h).2 := by
  rw [← runWarmupShape_trace]
  unfold trtPrewarm
  dsimp only
  rw [if_neg (by simp)]
  by_cases hdisk : host.engineCount h > 0
  · rw [if_pos hdisk, coverageCheckShapes_one]
    split
    · rfl
    -- the slow or failed check was the run: no shape is left
    · simp [prewarmStep]
  · rw [if_neg hdisk]
    rfl

/-- the dummy run of a shape without a zero -/
theorem probeRunDense_warmup (hb : 0 < shape.1) (hs : 0 < shape.2) :
    (probeRunDense session host (warmupArrays shape.1 shape.2) h).2 =
      h ++ [warmupArrays shape.1 shape.2] := by
  have hids : tensorRef (warmupArrays shape.1 shape.2).ids = .ok () :=
    tensorRef_ok rfl hb.ne' hs.ne'
  have hmask : tensorRef (warmupArrays shape.1 shape.2).mask = .ok () :=
    tensorRef_ok rfl hb.ne' hs.ne'
  unfold probeRunDense
  dsimp only
  rw [hids, hmask]
  unfold runSession
  dsimp only
  split
  · rename_i hr
    split at hr <;> cases hr
    rfl
  · rename_i hr
    split at hr <;> cases hr
    rfl
  · rename_i hr
    split at hr <;> cases hr

end

/-! ## what a request runs and marks -/

/-- the call that completed a request: all its runs succeeded, and the pair it stands for is marked if
it took long -/
structure Marked (m : Models F) (texts : List String) (config : WorkerConfig) (d d' : Desk)
    (cm : CostModel) (encs : List Encoding) (h : Trace) : Prop where
  tokenized : m.tokenizer.encodeBatchFast texts = .ok encs
  before : d.runs <+: h
  runs : d'.runs = h ++ (chunksOf m cm encs).map (arraysOf encs)
  budget : d'.calls.getLast? = some cm
  succeeded : Along (fun h x => m.session.succeeds h x = true) h ((chunksOf m cm encs).map (arraysOf encs))
  warmed : d'.warmedLocal = (if config.enginePropagationTx then
    slowShape (statsOf m texts cm encs h) texts.length else []).foldl insertShape d.warmedLocal

/-- more runs, nothing marked -/
def Unmarked (d d' : Desk) : Prop := d.runs <+: d'.runs ∧ d'.warmedLocal = d.warmedLocal

theorem Runs.grows {ε α : Type} {session : Session F} {x : Exec Trace ε α} (hx : Runs session x)
    {h h' : Trace} {r : Outcome ε α} (hr : x h = (r, h')) : h <+: h' := by
  obtain ⟨l, rfl, -⟩ := hx h r h' hr
  exact List.prefix_append h l

theorem finalize_ok_warmed {α : Type} (config : WorkerConfig) (jitRoom : Bool) (cf n : Nat) (v : α)
    (stats : EmbedStats) (d : Desk) :
    (finalizeEmbedRoute config jitRoom cf n (.ok (v, stats)) d).2.warmedLocal =
      (if config.enginePropagationTx then slowShape stats n else []).foldl insertShape d.warmedLocal := by
  unfold finalizeEmbedRoute logInferenceComplete slowShape
  by_cases hslow : stats.inferenceMs < chunkCacheHitThresholdMs
  · simp [hslow]
  · cases config.jitSuspectTx <;> cases jitRoom <;> cases config.enginePropagationTx <;> simp [hslow]

/-- the runs before the call that decided an embed request extend those the request found -/
theorem grows_of_retry {γ : Type} {session : Session F} {f : CostModel → Exec Trace AnyError γ}
    (hf : ∀ cm, Runs session (f cm)) {base : CostModel} {runs h0 : Trace}
    (h : h0 = runs ∨ ∃ e, f base runs = (.err e, h0)) : runs <+: h0 := by
  rcases h with rfl | ⟨e, he⟩
  · exact List.prefix_refl _
  · exact (hf base).grows he

theorem retry_unmarked {γ : Type} {session : Session F} {f : CostModel → Exec Trace AnyError γ}
    (hf : ∀ cm, Runs session (f cm)) {base : CostModel} {d d' : Desk} {r : Outcome AnyError γ}
    (h : embedWithTrtRetry (fun cm => called cm (f cm)) base d = (r, d')) : Unmarked d d' := by
  obtain ⟨hd, cm, h0, hfirst, hlast, -⟩ := retry_desk h
  exact ⟨(grows_of_retry hf hfirst).trans ((hf cm).grows hlast), by rw [hd]⟩

theorem embedRoute_marks {γ : Type} {m : Models F} {texts : List String}
    {f : CostModel → Exec Trace AnyError (γ × EmbedStats)} (hacc : Accounts m texts f)
    (hf : ∀ cm, Runs m.session (f cm)) {text : String} {config : WorkerConfig} {env : Env} {cf : Nat}
    {d d' : Desk} {r : Outcome AnyError (Except AnyError (γ × EmbedStats) × InferenceOutcome)}
    (h : embedRoute f text config env cf texts.length d = (r, d')) :
    (∃ v, r = .ok (.ok v, .ok) ∧ ∃ cm encs h0, Marked m texts config d d' cm encs h0) ∨
      (∀ v out, r ≠ .ok (.ok v, out)) ∧ Unmarked d d' := by
  unfold embedRoute at h
  split at h
  · rename_i v d1 hcall
    cases h
    obtain ⟨hd, cm, h0, hfirst, hlast, hbudget⟩ := retry_desk hcall
    obtain ⟨encs, ht, hstats, hruns⟩ := hacc hlast
    obtain ⟨-, -, hr, hc⟩ := finalize_ok_channels config env.jitRoom cf texts.length v.1 v.2 d1
    refine .inl ⟨v, rfl, cm, encs, h0, ht, grows_of_retry hf hfirst, hr.trans hruns,
      (congrArg List.getLast? hc).trans hbudget, ?_, ?_⟩
    · obtain ⟨l, hl, hok⟩ := hf cm h0 _ _ hlast
      rw [hruns] at hl
      rw [List.append_cancel_left hl]
      exact hok rfl
    · have hw : d1.warmedLocal = d.warmedLocal := by rw [hd]
      rw [← hstats, ← hw]
      exact finalize_ok_warmed config env.jitRoom cf texts.length v.1 v.2 d1
  · rename_i e d1 hcall
    cases h
    exact .inr ⟨by simp, retry_unmarked hf hcall⟩
  · rename_i msg d1 hcall
    cases h
    exact .inr ⟨by simp, retry_unmarked hf hcall⟩

/-- what a dispatch can do to the runs and to `warmed_local` -/
inductive Marks (m : Models F) (config : WorkerConfig) (req : EmbedRequest) (d : Desk) :
    Outcome AnyError (Option (Reply F) × DispatchOutcome) × Desk → Prop
  /-- an embed request completed -/
  | completed {texts : List String} {reply : Reply F} {d' : Desk} {cm : CostModel}
      {encs : List Encoding} {h : Trace} (hreq : req.embedTexts = some texts)
      (hr : reply.embedded = some none) (hd : Marked m texts config d d' cm encs h) :
      Marks m config req d (.ok (some reply, ⟨.ok, false⟩), d')
  /-- anything else -/
  | unmarked {r : Outcome AnyError (Option (Reply F) × DispatchOutcome)} {d' : Desk}
      (hr : ∀ reply out, r = .ok (some reply, out) → reply.embedded ≠ some none)
      (hd : Unmarked d d') : Marks m config req d (r, d')

theorem dispatchEmbed_marks {γ : Type} {m : Models F} {texts : List String}
    {f : CostModel → Exec Trace AnyError (γ × EmbedStats)} (hacc : Accounts m texts f)
    (hf : ∀ cm, Runs m.session (f cm)) {text : String}
    {toReply : Except AnyError (γ × EmbedStats) → Reply F} {config : WorkerConfig} {env : Env} {cf : Nat}
    {isClosed : Bool} {req : EmbedRequest} (d : Desk) (hreq : req.embedTexts = some texts)
    (hr : ∀ r, (toReply r).embedded = some (match r with | .error e => some e | .ok _ => none)) :
    Marks m config req d (dispatchEmbed f text toReply config env cf texts.length isClosed d) := by
  unfold dispatchEmbed
  cases isClosed with
  | true => exact .unmarked (fun reply out h => by cases h) ⟨List.prefix_refl _, rfl⟩
  | false =>
    rw [if_neg (by decide)]
    obtain ⟨x, d1, hx⟩ : ∃ x d1, embedRoute f text config env cf texts.length d = (x, d1) := ⟨_, _, rfl⟩
    rw [Exec.bind_apply, hx]
    rcases embedRoute_marks hacc hf hx with ⟨v, rfl, cm, encs, h0, hm⟩ | ⟨hno, hun⟩
    · exact .completed hreq (hr (.ok v)) hm
    · cases x with
      | ok y =>
        obtain ⟨result, out⟩ := y
        cases result with
        | ok v => exact absurd rfl (hno v out)
        | error e =>
          refine .unmarked (fun reply out' h => ?_) hun
          cases h
          rw [hr]
          simp
      | err e => exact .unmarked (fun reply out h => by cases h) hun
      | panic msg => exact .unmarked (fun reply out h => by cases h) hun

theorem runProbeBatch_runs (m : Models F) (host : Host) (texts : List String) :
    Runs m.session (runProbeBatch m host texts) := by
  refine (Exec.logs_lift _).bind fun _ => (Exec.logs_lift _).bind fun arrays => ?_
  exact probeRunDense_runs m.session host arrays

theorem adaptiveWarmup_unmarked (m : Models F) (host : Host) (config : WorkerConfig) (id b s : Nat)
    (d : Desk) : Unmarked d (adaptiveWarmup m host config id b s d).2 := by
  have hpre : d.runs <+: (trtPrewarm m.session host [(b, s)] d.runs).2 := by
    rw [trtPrewarm_one]
    exact (probeRunDense_runs m.session host _).grows rfl
  unfold adaptiveWarmup
  dsimp only
  split
  · split <;> exact ⟨hpre, rfl⟩
  · exact ⟨List.prefix_refl _, rfl⟩

/-- **A dispatched request only adds runs; it marks a pair exactly if it is an embed request that
completes, slowly, with the propagation channel open.** -/
theorem dispatch_marks (m : Models F) (host : Host) (config : WorkerConfig) (id : Nat) (env : Env)
    (cf : Nat) (guard : Option TrtJitGuard) (req : EmbedRequest) (isClosed : Bool) (d : Desk) :
    Marks m config req d (dispatchRequest m host config id env cf guard req isClosed d) := by
  cases req with
  | dense texts =>
    exact dispatchEmbed_marks (embedDense_accounts m texts _ _) (fun cm => embedDense_runs m texts cm _ _)
      d rfl fun r => by cases r <;> rfl
  | sparse texts =>
    exact dispatchEmbed_marks (embedSparse_accounts m texts _ _) (fun cm => embedSparse_runs m texts cm _ _)
      d rfl fun r => by cases r <;> rfl
  | both texts =>
    exact dispatchEmbed_marks (embedBoth_accounts m texts _ _) (fun cm => embedBoth_runs m texts cm _ _)
      d rfl fun r => by cases r <;> rfl
  | probe texts =>
    unfold dispatchRequest
    dsimp only
    split
    all_goals rename_i hrun
    · exact .unmarked (fun reply out h => by cases h; simp [Reply.embedded])
        ⟨(runProbeBatch_runs m host texts).grows hrun, rfl⟩
    · exact .unmarked (fun reply out h => by cases h; simp [Reply.embedded])
        ⟨(runProbeBatch_runs m host texts).grows hrun, rfl⟩
    · exact .unmarked (fun reply out h => by cases h)
        ⟨(runProbeBatch_runs m host texts).grows hrun, rfl⟩
  | adaptiveWarmup b s =>
    exact .unmarked (fun reply out h => by cases h; simp [Reply.embedded])
      (adaptiveWarmup_unmarked m host config id b s d)

end
end EmbedServer
