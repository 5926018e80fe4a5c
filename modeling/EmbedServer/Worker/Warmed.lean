import EmbedServer.Worker.Feedback
import EmbedServer.Worker.Runs

/-!
# The shapes a worker takes for warmed

`warmed_local` is meant to hold the shapes this worker has warmed in its current session: a drain skips
them.  It is written after a slow embed request and for every shape drained, and lives as long as the
thread, through every unload and reload.

The worker is followed step by step, one drained notification or one message at a time.  `own` records
what the set should spare it: the shapes it compiled for a request on the session it holds.  Which runs
make TensorRT build an engine is a parameter.

* `turn_tracked`                 a turn of the request loop is such steps;
* `warmed_local_tracks_session`  in a run whose steps all meet `KeepsBooks`, the set holds shapes the
                                 session has run, and the worker's own shapes are never run again;
* `warmed_local_goes_stale`      without it, neither holds.
-/

set_option linter.unusedSectionVars false

namespace EmbedServer

/-- a worker, and the shapes it compiled for requests on the session it holds -/
structure Tracked (F : Type) where
  worker : Worker F
  own : List Shape

inductive TrackedAct (F : Type) where
  /-- one notification is taken off the propagation channel -/
  | notify (sh : Shared) (shape : Shape)
  /-- the blocking receive comes back -/
  | message (sh : Shared) (msg : Msg F)

section
variable {F : Type} [F32Ops F] (host : Host) (config : WorkerConfig) (id : Nat)
  (compiles : Session F → Trace → ChunkArrays → Bool)

/-- the models and their runs when the request of a message is dispatched -/
def dispatchedOn (w : Worker F) (sh : Shared) : Msg F → Option (Models F × Trace)
  | .request _ _ load _ =>
    match ensureModels host w sh load with
    | .ok (m, runs, _) => some (m, runs)
    | .error _ => none
  | _ => none

/-- the shapes compiled for the request of a message, unless the session is gone after it -/
def compiledFor (w : Worker F) (sh : Shared) (msg : Msg F) : List Shape :=
  match dispatchedOn host w sh msg, (handleMsg host config id w sh msg).worker.models with
  | some (m, start), some (_, runs) =>
    m.session.shapesWhere (compiles m.session) start (runs.drop start.length)
  | _, _ => []

def trackedStep (t : Tracked F) : TrackedAct F → Option (Tracked F)
  | .notify sh shape =>
    some { t with worker := (drainEnginePropagation host config t.worker sh [shape]).1 }
  | .message sh msg =>
    let it := handleMsg host config id t.worker sh msg
    if it.next = .again then
      some {
        worker := it.worker
        -- a new session starts without shapes of its own
        own := (if t.worker.models.isSome && it.worker.models.isSome then t.own else []) ++
          compiledFor host config id compiles t.worker sh msg }
    else none

/-- a worker at the top of its request loop, with the runs of its startup -/
def entering (m : Models F) (runs : Trace) : Tracked F := ⟨⟨some (m, runs), 0, []⟩, []⟩

/-! ## the loop of the source -/

theorem drain_nil (w : Worker F) (sh : Shared) :
    drainEnginePropagation host config w sh [] = (w, sh) := by
  obtain ⟨models, cf, warmed⟩ := w
  cases models with
  | none => rfl
  | some p =>
    unfold drainEnginePropagation
    dsimp only
    split <;> rfl

theorem drain_cons (w : Worker F) (sh : Shared) (shape : Shape) (shapes : List Shape) :
    drainEnginePropagation host config w sh (shape :: shapes) =
      drainEnginePropagation host config (drainEnginePropagation host config w sh [shape]).1
        (drainEnginePropagation host config w sh [shape]).2 shapes := by
  obtain ⟨models, cf, warmed⟩ := w
  cases models with
  | none => rfl
  | some p =>
    unfold drainEnginePropagation
    dsimp only
    by_cases hon : config.ep = .tensorRt ∧ config.enginePropagationTx = true
    · rw [if_pos hon, if_pos hon]
      dsimp only
      rw [if_pos hon]
      rfl
    · rw [if_neg hon, if_neg hon]
      dsimp only
      rw [if_neg hon]

/-- a turn without notifications is its message -/
theorem turn_message (w : Worker F) (sh : Shared) (msg : Msg F) :
    Turn.result host config id ⟨w, sh, ⟨[], msg⟩⟩ = handleMsg host config id w sh msg := by
  unfold Turn.result iteration
  rw [drain_nil]

theorem drain_tracked (t : Tracked F) (sh : Shared) (shapes : List Shape) :
    Reachable (trackedStep host config id compiles) t
      { t with worker := (drainEnginePropagation host config t.worker sh shapes).1 } := by
  induction shapes generalizing t sh with
  | nil =>
    rw [drain_nil]
    exact .refl
  | cons shape shapes ih =>
    rw [drain_cons]
    have hstep : trackedStep host config id compiles t (.notify sh shape) =
        some { t with worker := (drainEnginePropagation host config t.worker sh [shape]).1 } := rfl
    exact (Reach.single trivial hstep).trans (ih _ _)

/-- **A turn of the request loop after which it goes on is a run of steps.** -/
theorem turn_tracked (t : Turn F) (own : List Shape) (h : (t.result host config id).next = .again) :
    ∃ u, Reachable (trackedStep host config id compiles) ⟨t.before, own⟩ u ∧
      u.worker = (t.result host config id).worker := by
  have hdrain := drain_tracked host config id compiles ⟨t.before, own⟩ t.shared t.event.drained
  have hstep : ∃ own', trackedStep host config id compiles
      ⟨(drainEnginePropagation host config t.before t.shared t.event.drained).1, own⟩
      (.message (drainEnginePropagation host config t.before t.shared t.event.drained).2 t.event.msg) =
      some ⟨(t.result host config id).worker, own'⟩ := ⟨_, if_pos h⟩
  obtain ⟨own', hstep⟩ := hstep
  exact ⟨_, hdrain.trans (Reach.single trivial hstep), rfl⟩

/-! ## what the set is for, and when it does it -/

/-- `warmed_local` describes the session the worker holds -/
structure TracksSession (t : Tracked F) : Prop where
  /-- every shape in it was run successfully on that session -/
  ran : ∀ m runs, t.worker.models = some (m, runs) →
    ∀ s ∈ t.worker.warmedLocal, s ∈ m.session.shapesRun runs
  /-- notifications of shapes the worker compiled itself make no difference to a drain -/
  spared : ∀ sh shapes, drainEnginePropagation host config t.worker sh shapes =
    drainEnginePropagation host config t.worker sh (shapes.filter fun s => !t.own.contains s)
  /-- a notification is skipped only if the session has run its shape -/
  skipped : ∀ m runs ceiling shape, t.worker.models = some (m, runs) →
    drainStep host m ⟨runs, t.worker.warmedLocal, ceiling⟩ shape = ⟨runs, t.worker.warmedLocal, ceiling⟩ →
    shape ∈ m.session.shapesRun runs

/-- a shape drained for the first time is run, and its run succeeds -/
def NotifyKeeps (w : Worker F) (shape : Shape) : Prop :=
  config.ep = .tensorRt → config.enginePropagationTx = true →
    ∀ m runs, w.models = some (m, runs) → shape ∉ w.warmedLocal →
      0 < shape.1 ∧ 0 < shape.2 ∧ m.session.succeeds runs (warmupArrays shape.1 shape.2) = true

/-- the completed embed call of a message, if it took long in total -/
structure SlowCall (w : Worker F) (sh : Shared) (msg : Msg F) (m : Models F) (texts : List String)
    (cm : CostModel) (encs : List Encoding) (h : Trace) : Prop where
  attempt : Turn.Attempt host config id ⟨w, sh, ⟨[], msg⟩⟩ m texts cm encs h
  slow : chunkCacheHitThresholdMs ≤ sumMs 0 (runsOf m.session encs h (chunksOf m cm encs))

structure MessageKeeps (w : Worker F) (sh : Shared) (msg : Msg F) : Prop where
  /-- a reload finds no shape marked, or only that of its own priming run -/
  reload : w.models = none → ∀ req isClosed m env, msg = .request req isClosed (.ok m) env →
    ∀ s ∈ w.warmedLocal, s = (1, 8) ∧ m.session.succeeds [] (warmupArrays 1 8) = true
  /-- a slow call is a single chunk, or the pair it marks is marked already -/
  marks : config.enginePropagationTx = true → ∀ m texts cm encs h,
    SlowCall host config id w sh msg m texts cm encs h → (∃ c, chunksOf m cm encs = [c]) ∨
      (texts.length, top ((chunksOf m cm encs).map (padOf encs))) ∈ w.warmedLocal
  /-- what is compiled for the request is marked already, or is the single chunk of a slow call -/
  compiled : config.enginePropagationTx = true → ∀ s ∈ compiledFor host config id compiles w sh msg,
    s ∈ w.warmedLocal ∨ ∃ m texts cm encs h c, SlowCall host config id w sh msg m texts cm encs h ∧
      chunksOf m cm encs = [c] ∧ s = (c.length, padOf encs c)

/-- the condition on a step -/
def KeepsBooks (t : Tracked F) : TrackedAct F → Prop
  | .notify _ shape => NotifyKeeps config t.worker shape
  | .message sh msg => MessageKeeps host config id compiles t.worker sh msg

/-- the invariant -/
structure Booked (t : Tracked F) : Prop where
  ran : ∀ m runs, t.worker.models = some (m, runs) →
    ∀ s ∈ t.worker.warmedLocal, s ∈ m.session.shapesRun runs
  own : config.enginePropagationTx = true → ∀ s ∈ t.own, s ∈ t.worker.warmedLocal

variable {host config id compiles}

theorem mem_insertShape {set : List Shape} {s t : Shape} : t ∈ insertShape set s ↔ t ∈ set ∨ t = s := by
  unfold insertShape
  split
  · rename_i h
    constructor
    · exact .inl
    · rintro (h' | rfl)
      · exact h'
      · exact List.contains_iff_mem.mp h
  · rw [List.mem_append, List.mem_singleton]

/-! ### a drain of marked shapes -/

theorem drainStep_of_mem {m : Models F} {st : DrainState} {shape : Shape} (h : shape ∈ st.warmedLocal) :
    drainStep host m st shape = st := if_pos (List.contains_iff_mem.mpr h)

theorem mem_drainStep {m : Models F} {st : DrainState} {shape s : Shape} :
    s ∈ (drainStep host m st shape).warmedLocal ↔ s ∈ st.warmedLocal ∨ s = shape := by
  unfold drainStep
  split
  · rename_i h
    constructor
    · exact .inl
    · rintro (h' | rfl)
      · exact h'
      · exact List.contains_iff_mem.mp h
  · exact mem_insertShape

/-- a notification that changes nothing is of a marked shape -/
theorem mem_of_drainStep_eq {m : Models F} {st : DrainState} {shape : Shape}
    (h : drainStep host m st shape = st) : shape ∈ st.warmedLocal := by
  rw [← h]
  exact mem_drainStep.mpr (.inr rfl)

theorem drain_fold_filter {m : Models F} {own : List Shape} (shapes : List Shape) (st : DrainState)
    (h : ∀ s ∈ own, s ∈ st.warmedLocal) :
    shapes.foldl (drainStep host m) st =
      (shapes.filter fun s => !own.contains s).foldl (drainStep host m) st := by
  induction shapes generalizing st with
  | nil => rfl
  | cons shape shapes ih =>
    by_cases hown : own.contains shape = true
    · have hmem := h shape (List.contains_iff_mem.mp hown)
      rw [List.foldl_cons, drainStep_of_mem hmem, List.filter_cons_of_neg (by simpa using hown)]
      exact ih st h
    · rw [List.filter_cons_of_pos (by simpa using hown), List.foldl_cons, List.foldl_cons]
      exact ih _ fun s hs => mem_drainStep.mpr (.inl (h s hs))

theorem Booked.spared {t : Tracked F} (hb : Booked config t) (sh : Shared) (shapes : List Shape) :
    drainEnginePropagation host config t.worker sh shapes =
      drainEnginePropagation host config t.worker sh (shapes.filter fun s => !t.own.contains s) := by
  unfold drainEnginePropagation
  split
  · split
    · rename_i hon
      rw [drain_fold_filter shapes _ (hb.own hon.2)]
    · rfl
  · rfl

theorem Booked.tracksSession {t : Tracked F} (hb : Booked config t) : TracksSession host config t :=
  ⟨hb.ran, hb.spared, fun m runs _ shape hm h => hb.ran m runs hm shape (mem_of_drainStep_eq h)⟩

/-! ### the steps -/

/-- the dummy run of a shape, if it succeeds, is among the runs -/
theorem mem_shapesRun_prewarm {session : Session F} {runs : Trace} {shape : Shape} (hb : 0 < shape.1)
    (hs : 0 < shape.2) (hok : session.succeeds runs (warmupArrays shape.1 shape.2) = true) :
    shape ∈ session.shapesRun (probeRunDense session host (warmupArrays shape.1 shape.2) runs).2 := by
  have hall : Along (fun h x => session.succeeds h x = true) runs [warmupArrays shape.1 shape.2] :=
    ⟨hok, trivial⟩
  rw [probeRunDense_warmup session host shape runs hb hs, Session.shapesRun_append, List.mem_append,
    Session.shapesWhere_all hall]
  exact .inr (List.mem_singleton.mpr rfl)

theorem mem_shapesRun_of_grows {session : Session F} {runs runs' : Trace} {s : Shape} (h : runs <+: runs')
    (hs : s ∈ session.shapesRun runs) : s ∈ session.shapesRun runs' := by
  obtain ⟨l, rfl⟩ := h
  rw [Session.shapesRun_append]
  exact List.mem_append_left _ hs

theorem notify_booked {t : Tracked F} {sh : Shared} {shape : Shape} (hb : Booked config t)
    (hc : NotifyKeeps config t.worker shape) :
    Booked config { t with worker := (drainEnginePropagation host config t.worker sh [shape]).1 } := by
  unfold drainEnginePropagation
  split
  · rename_i m runs hm
    split
    · rename_i hon
      by_cases hmem : shape ∈ t.worker.warmedLocal
      · rw [List.foldl_cons, drainStep_of_mem hmem]
        refine ⟨fun m' runs' h => ?_, hb.own⟩
        cases h
        exact hb.ran m runs hm
      · obtain ⟨hpos, hpos', hok⟩ := hc hon.1 hon.2 m runs hm hmem
        have hruns : (drainStep host m ⟨runs, t.worker.warmedLocal, sh.ceiling⟩ shape).runs =
            (probeRunDense m.session host (warmupArrays shape.1 shape.2) runs).2 := by
          unfold drainStep
          rw [if_neg (by simpa using hmem)]
          exact trtPrewarm_one m.session host shape runs
        refine ⟨fun m' runs' h s hs => ?_, fun htx s hs => ?_⟩
        · simp only [List.foldl_cons, List.foldl_nil, Option.some.injEq, Prod.mk.injEq] at h hs
          obtain ⟨rfl, rfl⟩ := h
          rw [hruns]
          rcases mem_drainStep.mp hs with h | rfl
          · exact mem_shapesRun_of_grows ((probeRunDense_runs m.session host _).grows rfl)
              (hb.ran m runs hm s h)
          · exact mem_shapesRun_prewarm hpos hpos' hok
        · exact mem_drainStep.mpr (.inl (hb.own htx s hs))
    · exact hb
  · exact hb

/-- what a message did on a session with the runs `start`, if the session is still there after it -/
inductive Iteration.Serves (it : Iteration F) (config : WorkerConfig) (w : Worker F) (msg : Msg F)
    (m : Models F) (start runs : Trace) : Prop
  /-- an embed request completed -/
  | completed {req : EmbedRequest} {isClosed : Bool} {load : Except String (Models F)} {env : Env}
      {texts : List String} {cm : CostModel} {encs : List Encoding} {h : Trace}
      (hmsg : msg = .request req isClosed load env) (hreq : req.embedTexts = some texts)
      (hemb : it.embedded = some none) (ht : m.tokenizer.encodeBatchFast texts = .ok encs)
      (hbudget : it.shared.calls.getLast? = some cm) (hstart : start <+: h)
      (hruns : runs = h ++ (chunksOf m cm encs).map (arraysOf encs))
      (hok : Along (fun h x => m.session.succeeds h x = true) h ((chunksOf m cm encs).map (arraysOf encs)))
      (hw : it.worker.warmedLocal = (if config.enginePropagationTx then
        slowShape (statsOf m texts cm encs h) texts.length else []).foldl insertShape w.warmedLocal)
  /-- anything else -/
  | other (hemb : it.embedded ≠ some none) (hstart : start <+: runs)
      (hw : it.worker.warmedLocal = w.warmedLocal)

theorem serve_serves {m m' : Models F} {start runs : Trace} {w : Worker F} {sh : Shared}
    {req : EmbedRequest} {isClosed : Bool} {load : Except String (Models F)} {env : Env}
    (h : (serve host config id m start w sh req isClosed env).worker.models = some (m', runs)) :
    m' = m ∧ (serve host config id m start w sh req isClosed env).Serves config w
      (.request req isClosed load env) m start runs := by
  have hmarks := dispatch_marks m host config id env w.consecutiveFailures
    (buildShapeGuard config sh.ceiling) req isClosed (deskOf start w sh)
  unfold serve at h ⊢
  generalize dispatchRequest m host config id env w.consecutiveFailures
    (buildShapeGuard config sh.ceiling) req isClosed (deskOf start w sh) = x at hmarks h ⊢
  cases hmarks with
  | @completed texts reply d' cm encs h0 hreq hr hd =>
    have hk := afterDispatch_keeps m w sh (some reply) ⟨.ok, false⟩ d'
    obtain ⟨rfl, rfl⟩ := hk.models_eq h
    refine ⟨rfl, .completed rfl hreq ?_ hd.tokenized ?_ hd.before hd.runs hd.succeeded ?_⟩
    · rw [hk.embedded]
      exact hr
    · rw [hk.calls]
      exact hd.budget
    · rw [hk.warmedLocal]
      exact hd.warmed
  | @unmarked r d' hr hd =>
    cases r with
    | ok v =>
      obtain ⟨reply, out⟩ := v
      have hk := afterDispatch_keeps m w sh reply out d'
      obtain ⟨rfl, rfl⟩ := hk.models_eq h
      refine ⟨rfl, .other ?_ hd.1 (hk.warmedLocal.trans hd.2)⟩
      dsimp only
      rw [hk.embedded]
      cases reply with
      | none => simp
      | some reply => exact hr reply out rfl
    | err e =>
      cases h
      exact ⟨rfl, .other (by simp) hd.1 hd.2⟩
    | panic msg =>
      cases h
      exact ⟨rfl, .other (by simp) hd.1 hd.2⟩

/-- a message that leaves the worker with a session and in its loop was a request, dispatched on it -/
theorem handleMsg_serves {w : Worker F} {sh : Shared} {msg : Msg F} {m : Models F} {runs : Trace}
    (hnext : (handleMsg host config id w sh msg).next = .again)
    (h : (handleMsg host config id w sh msg).worker.models = some (m, runs)) :
    ∃ start, dispatchedOn host w sh msg = some (m, start) ∧
      (handleMsg host config id w sh msg).Serves config w msg m start runs := by
  cases msg with
  | elapsed => cases h
  | closed => cases hnext
  | request req isClosed load env =>
    unfold handleMsg dispatchedOn at *
    dsimp only at *
    cases hens : ensureModels host w sh load with
    | ok p =>
      obtain ⟨m0, start, sh'⟩ := p
      rw [hens] at h
      obtain ⟨rfl, hs⟩ := serve_serves h
      exact ⟨start, rfl, hs⟩
    | error e =>
      rw [hens] at h
      unfold ensureModels at hens
      rw [h] at hens
      cases hens

/-- the set after a completed call -/
theorem mem_marked {tx : Bool} {stats : EmbedStats} {n : Nat} {set : List Shape} {s : Shape} :
    s ∈ (if tx then slowShape stats n else []).foldl insertShape set ↔
      s ∈ set ∨ tx = true ∧ chunkCacheHitThresholdMs ≤ stats.inferenceMs ∧ s = (n, stats.maxChunkSeq) := by
  unfold slowShape
  cases tx with
  | false => simp
  | true =>
    by_cases hslow : stats.inferenceMs < chunkCacheHitThresholdMs
    · simp [hslow, Nat.not_le.mpr hslow]
    · simp [hslow, Nat.le_of_not_lt hslow, mem_insertShape]

/-- marked shapes were run on the session a request is dispatched on: it is the one the worker had, or
new and primed -/
theorem Booked.ran_on_start {t : Tracked F} {sh : Shared} {msg : Msg F} {m : Models F} {start : Trace}
    (hb : Booked config t) (hc : MessageKeeps host config id compiles t.worker sh msg)
    (h : dispatchedOn host t.worker sh msg = some (m, start)) :
    ∀ s ∈ t.worker.warmedLocal, s ∈ m.session.shapesRun start := by
  cases msg with
  | elapsed => cases h
  | closed => cases h
  | request req isClosed load env =>
    unfold dispatchedOn ensureModels at h
    cases hm : t.worker.models with
    | some p =>
      rw [hm] at h
      cases h
      exact hb.ran _ _ hm
    | none =>
      rw [hm] at h
      cases load with
      | error e => cases h
      | ok m0 =>
        cases h
        intro s hs
        obtain ⟨rfl, hok⟩ := hc.reload hm req isClosed m env rfl s hs
        exact mem_shapesRun_prewarm (by decide) (by decide) hok

section
variable {w : Worker F} {sh : Shared} {msg : Msg F} {m : Models F} {start runs : Trace}

/-- no message takes a mark back -/
theorem Iteration.Serves.grows {it : Iteration F} (h : it.Serves config w msg m start runs) {s : Shape}
    (hs : s ∈ w.warmedLocal) : s ∈ it.worker.warmedLocal := by
  cases h with
  | completed hmsg hreq hemb ht hbudget hstart hruns hok hw =>
    rw [hw]
    exact mem_marked.mpr (.inl hs)
  | other hemb hstart hw =>
    rw [hw]
    exact hs

/-- the completed call, as an attempt of the turn -/
theorem attempt_of_completed {req : EmbedRequest} {isClosed : Bool} {load : Except String (Models F)}
    {env : Env} {texts : List String} {cm : CostModel} {encs : List Encoding} {h : Trace}
    (hmsg : msg = .request req isClosed load env) (hreq : req.embedTexts = some texts)
    (hemb : (handleMsg host config id w sh msg).embedded = some none)
    (ht : m.tokenizer.encodeBatchFast texts = .ok encs)
    (hbudget : (handleMsg host config id w sh msg).shared.calls.getLast? = some cm)
    (hm : (handleMsg host config id w sh msg).worker.models =
      some (m, h ++ (chunksOf m cm encs).map (arraysOf encs))) :
    Turn.Attempt host config id ⟨w, sh, ⟨[], msg⟩⟩ m texts cm encs h := by
  refine ⟨⟨req, isClosed, load, env, hmsg, hreq⟩, ?_, ht, ?_, ?_⟩
  · rw [turn_message]
    exact hemb
  · rw [turn_message]
    exact hm
  · rw [turn_message]
    exact hbudget

/-- after a message every marked shape was run on the session -/
theorem Iteration.Serves.ran
    (hs : (handleMsg host config id w sh msg).Serves config w msg m start runs)
    (hm : (handleMsg host config id w sh msg).worker.models = some (m, runs))
    (hc : MessageKeeps host config id compiles w sh msg)
    (hstart : ∀ s ∈ w.warmedLocal, s ∈ m.session.shapesRun start) :
    ∀ s ∈ (handleMsg host config id w sh msg).worker.warmedLocal, s ∈ m.session.shapesRun runs := by
  intro s hmem
  cases hs with
  | other hemb hpre hw =>
    rw [hw] at hmem
    exact mem_shapesRun_of_grows hpre (hstart s hmem)
  | @completed req isClosed load env texts cm encs h hmsg hreq hemb ht hbudget hpre hruns hok hw =>
    subst hruns
    have hgrow : start <+: h ++ (chunksOf m cm encs).map (arraysOf encs) :=
      hpre.trans (List.prefix_append _ _)
    rw [hw] at hmem
    rcases mem_marked.mp hmem with hold | ⟨htx, hslow, rfl⟩
    · exact mem_shapesRun_of_grows hgrow (hstart s hold)
    · have ha := attempt_of_completed hmsg hreq hemb ht hbudget hm
      rcases hc.marks htx m texts cm encs h ⟨ha, hslow⟩ with ⟨c, hone⟩ | hold
      -- the only chunk was run, and its run succeeded
      · have hmem : c ∈ chunksOf m cm encs := by
          rw [hone]
          exact List.mem_singleton.mpr rfl
        have hseat : Seated encs c := seated_of_mem hmem
        rw [Session.shapesRun_append, List.mem_append, Session.shapesWhere_all hok]
        refine .inr ?_
        show (texts.length, top ((chunksOf m cm encs).map (padOf encs))) ∈ _
        rw [pair_of_one_chunk ht hone, hone, ← size_arraysOf hseat]
        exact List.mem_singleton.mpr rfl
      · exact mem_shapesRun_of_grows hgrow (hstart _ hold)

/-- after a message every shape compiled for it is marked -/
theorem Iteration.Serves.own
    (hs : (handleMsg host config id w sh msg).Serves config w msg m start runs)
    (hm : (handleMsg host config id w sh msg).worker.models = some (m, runs))
    (hc : MessageKeeps host config id compiles w sh msg) (htx : config.enginePropagationTx = true)
    {s : Shape} (hmem : s ∈ compiledFor host config id compiles w sh msg) :
    s ∈ (handleMsg host config id w sh msg).worker.warmedLocal := by
  rcases hc.compiled htx s hmem with hold | ⟨m', texts', cm', encs', h', c, hcall, hone, rfl⟩
  · exact hs.grows hold
  · cases hs with
    | other hemb =>
      have hdone := hcall.attempt.completed
      rw [turn_message] at hdone
      exact absurd hdone hemb
    | @completed req isClosed load env texts cm encs h hmsg hreq hemb ht hbudget hpre hruns hok hw =>
      subst hruns
      have ha := attempt_of_completed hmsg hreq hemb ht hbudget hm
      obtain ⟨rfl, rfl, rfl, rfl, rfl⟩ := ha.unique hcall.attempt
      rw [hw]
      refine mem_marked.mpr (.inr ⟨htx, hcall.slow, ?_⟩)
      exact (pair_of_one_chunk ht hone).symm

end

/-- a mark that is new after a message is that of its slow call -/
theorem slowCall_of_marked {w : Worker F} {sh : Shared} {msg : Msg F} {m : Models F} {runs : Trace}
    {s : Shape} (hnext : (handleMsg host config id w sh msg).next = .again)
    (hm : (handleMsg host config id w sh msg).worker.models = some (m, runs))
    (hmark : s ∈ (handleMsg host config id w sh msg).worker.warmedLocal) (hnew : s ∉ w.warmedLocal) :
    ∃ texts cm encs h, SlowCall host config id w sh msg m texts cm encs h ∧
      s = (texts.length, top ((chunksOf m cm encs).map (padOf encs))) := by
  obtain ⟨start, -, hserves⟩ := handleMsg_serves hnext hm
  cases hserves with
  | other hemb hpre hw =>
    rw [hw] at hmark
    exact absurd hmark hnew
  | @completed req isClosed load env texts cm encs h hmsg hreq hemb ht hbudget hpre hruns hok hw =>
    subst hruns
    rw [hw] at hmark
    rcases mem_marked.mp hmark with hold | ⟨-, hslow, hpair⟩
    · exact absurd hold hnew
    · exact ⟨texts, cm, encs, h, ⟨attempt_of_completed hmsg hreq hemb ht hbudget hm, hslow⟩, hpair⟩

theorem message_booked {t t' : Tracked F} {sh : Shared} {msg : Msg F} (hb : Booked config t)
    (hc : MessageKeeps host config id compiles t.worker sh msg)
    (hs : trackedStep host config id compiles t (.message sh msg) = some t') : Booked config t' := by
  dsimp only [trackedStep] at hs
  split at hs
  · rename_i hnext
    cases hs
    cases hm : (handleMsg host config id t.worker sh msg).worker.models with
    | none =>
      refine ⟨fun m runs h => ?_, fun htx s hs => ?_⟩
      · rw [hm] at h
        cases h
      · simp [hm, compiledFor] at hs
    | some p =>
      obtain ⟨m, runs⟩ := p
      obtain ⟨start, hstart, hserves⟩ := handleMsg_serves hnext hm
      refine ⟨fun m' runs' h => ?_, fun htx s hs => ?_⟩
      · rw [hm] at h
        cases h
        exact hserves.ran hm hc (hb.ran_on_start hc hstart)
      · rcases List.mem_append.mp hs with hs | hs
        · split at hs
          · exact hserves.grows (hb.own htx s hs)
          · cases hs
        · exact hserves.own hm hc htx hs
  · cases hs

theorem tracked_booked {t t' : Tracked F} {a : TrackedAct F} (hb : Booked config t)
    (hc : KeepsBooks host config id compiles t a) (hs : trackedStep host config id compiles t a = some t') :
    Booked config t' := by
  cases a with
  | notify sh shape =>
    cases hs
    exact notify_booked hb hc
  | message sh msg => exact message_booked hb hc hs

variable (host config id compiles) in
/-- **In every run from the top of the request loop whose steps all keep the books, `warmed_local` holds
only shapes run on the session at hand, spares the worker its own shapes, and skips no other.** -/
theorem warmed_local_tracks_session (m : Models F) (runs : Trace) {t : Tracked F}
    (h : Reach (trackedStep host config id compiles) (KeepsBooks host config id compiles)
      (entering m runs) t) : TracksSession host config t := by
  have h0 : Booked config (entering m runs) := by
    refine ⟨fun _ _ _ s hs => ?_, fun _ s hs => ?_⟩
    · cases hs
    · cases hs
  exact (h.invariant h0 fun _ _ _ hb hc hs => tracked_booked hb hc hs).tracksSession

end

/-! ## a peer's shape, and a set that outlives its session -/

/-- a run that takes as long as a compilation: the worker's own measure -/
def slowRun {F : Type} (session : Session F) (h : Trace) (x : ChunkArrays) : Bool :=
  decide (chunkCacheHitThresholdMs ≤ (session.run h x).elapsedMs)

/-- a dense request for one text -/
def oneText (load : Except String (Models Int)) : Msg Int :=
  .request (.dense ["a"]) false load ⟨⟨1, 1, 2⟩, true⟩

/-- a request of one text keeps the books of a loaded worker if the shapes it compiles are marked after
it -/
theorem messageKeeps_oneText {w : Worker Int} {sh : Shared} {load : Except String (Models Int)}
    (hm : w.models.isSome = true)
    (hnext : (handleMsg bareHost reporting 0 w sh (oneText load)).next = .again)
    (hafter : (handleMsg bareHost reporting 0 w sh (oneText load)).worker.models.isSome = true)
    (hall : (compiledFor bareHost reporting 0 slowRun w sh (oneText load)).all
      (handleMsg bareHost reporting 0 w sh (oneText load)).worker.warmedLocal.contains = true) :
    MessageKeeps bareHost reporting 0 slowRun w sh (oneText load) := by
  have hone : ∀ m texts cm encs h, SlowCall bareHost reporting 0 w sh (oneText load) m texts cm encs h →
      ∃ c, chunksOf m cm encs = [c] := by
    intro m texts cm encs h hcall
    have hsound : Turn.ReportsSoundly bareHost reporting 0 ⟨w, sh, ⟨[], oneText load⟩⟩ := by
      refine reportsSoundly_of_one_text "a" ?_
      intro req isClosed load' env hmsg
      cases hmsg
      rfl
    rcases hsound m texts cm encs h hcall.attempt with hfast | ⟨-, htx⟩ | ⟨c, hc, -⟩
    · exact absurd hcall.slow (Nat.not_le.mpr hfast)
    · cases htx
    · exact ⟨c, hc⟩
  refine ⟨fun hnone => ?_, fun _ m texts cm encs h hcall => .inl (hone m texts cm encs h hcall),
    fun _ s hs => ?_⟩
  · rw [hnone] at hm
    cases hm
  · by_cases hold : s ∈ w.warmedLocal
    · exact .inl hold
    · have hmark := List.contains_iff_mem.mp (List.all_eq_true.mp hall s hs)
      obtain ⟨⟨m, runs⟩, hruns⟩ := Option.isSome_iff_exists.mp hafter
      obtain ⟨texts, cm, encs, h, hcall, rfl⟩ := slowCall_of_marked hnext hruns hmark hold
      obtain ⟨c, hc⟩ := hone m texts cm encs h hcall
      exact .inr ⟨m, texts, cm, encs, h, c, hcall, hc, pair_of_one_chunk hcall.attempt.tokenized hc⟩

/-- a peer announces `(2, 4)` and a slow request runs `(1, 3)`: both are marked, the second is the worker's
own -/
theorem warmed_local_tracks_session_peer :
    ∃ t, Reach (trackedStep bareHost reporting 0 slowRun) (KeepsBooks bareHost reporting 0 slowRun)
      (entering (slowModels 6000) []) t ∧ t.own = [(1, 3)] ∧ t.worker.warmedLocal = [(2, 4), (1, 3)] ∧
      TracksSession bareHost reporting t := by
  obtain ⟨w, hw⟩ : ∃ w, w = (drainEnginePropagation bareHost reporting
    (entering (slowModels 6000) []).worker quietShared [(2, 4)]).1 := ⟨_, rfl⟩
  have hnotify : Reach (trackedStep bareHost reporting 0 slowRun) (KeepsBooks bareHost reporting 0 slowRun)
      (entering (slowModels 6000) []) ⟨w, []⟩ := by
    refine Reach.single (a := .notify quietShared (2, 4)) ?_ (by rw [hw]; rfl)
    rintro - - m runs hm -
    cases hm
    exact ⟨by decide, by decide, rfl⟩
  have hstep : (trackedStep bareHost reporting 0 slowRun ⟨w, []⟩
      (.message quietShared (oneText (.error "not needed")))).map (fun t => (t.own, t.worker.warmedLocal)) =
      some ([(1, 3)], [(2, 4), (1, 3)]) := by
    rw [hw]
    decide +kernel
  obtain ⟨t, ht, hend⟩ := Option.map_eq_some_iff.mp hstep
  obtain ⟨hown, hmarked⟩ := Prod.mk.inj hend
  have hreach : Reach (trackedStep bareHost reporting 0 slowRun) (KeepsBooks bareHost reporting 0 slowRun)
      (entering (slowModels 6000) []) t := by
    refine .tail hnotify ?_ ht
    refine messageKeeps_oneText ?_ ?_ ?_ ?_
    all_goals
      rw [hw]
      decide +kernel
  exact ⟨t, hreach, hown, hmarked, warmed_local_tracks_session bareHost reporting 0 slowRun _ _ hreach⟩

/-- **A slow request marks `(1, 3)`; the worker idles out, and a warmup of `(4, 16)` reloads it.  Now
`(1, 3)` is marked though the new session never ran it, and a broadcast of `(4, 16)`, which the worker
has just compiled, is run again.** -/
theorem warmed_local_goes_stale :
    ∃ t, Reachable (trackedStep bareHost reporting 0 slowRun) (entering (slowModels 6000) []) t ∧
      (∃ m runs, t.worker.models = some (m, runs) ∧ (1, 3) ∈ t.worker.warmedLocal ∧
        (1, 3) ∉ m.session.shapesRun runs) ∧
      (4, 16) ∈ t.own ∧
      (drainEnginePropagation bareHost reporting t.worker quietShared [(4, 16)]).1.models.map
        (fun p => p.2.length) ≠ t.worker.models.map (fun p => p.2.length) ∧
      ¬ TracksSession bareHost reporting t := by
  have hrun : ∃ t, Reachable (trackedStep bareHost reporting 0 slowRun) (entering (slowModels 6000) []) t ∧
      ((t.worker.models.any fun p => t.worker.warmedLocal.contains (1, 3) &&
        !(p.1.session.shapesRun p.2).contains (1, 3)) = true ∧ (4, 16) ∈ t.own ∧
      (drainEnginePropagation bareHost reporting t.worker quietShared [(4, 16)]).1.models.map
        (fun p => p.2.length) ≠ t.worker.models.map (fun p => p.2.length)) :=
    Reach.exists_of_run
      [.message quietShared (oneText (.error "not needed")), .message quietShared .elapsed,
        .message quietShared (.request (.adaptiveWarmup 4 16) false (.ok (slowModels 6000))
          ⟨⟨1, 1, 2⟩, true⟩)] (fun _ _ _ => trivial) (by decide +kernel)
  obtain ⟨t, hreach, hstale, hown, hagain⟩ := hrun
  obtain ⟨⟨m, runs⟩, hm, hs⟩ := (Option.any_eq_true _ _).mp hstale
  obtain ⟨hin, hout⟩ := Bool.and_eq_true_iff.mp hs
  have hin' : (1, 3) ∈ t.worker.warmedLocal := List.contains_iff_mem.mp hin
  have hout' : (1, 3) ∉ m.session.shapesRun runs := by simpa using hout
  refine ⟨t, hreach, ⟨m, runs, hm, hin', hout'⟩, hown, hagain, fun htracks => ?_⟩
  exact hout' (htracks.ran m runs hm _ hin')

end EmbedServer
