import EmbedServer.Health
import EmbedServer.Pool.Callers
import EmbedServer.Pool.Rest
import EmbedServer.Trt.EngineCache
import EmbedServer.Trt.FastPath
import EmbedServer.Worker.Shards

/-!
# The warmup-only run (`lib.rs`)

With `BGE_M3_WARMUP_ONLY` the process binds no listener.  It waits for the pool to come up, drops it,
waits for the workers to return, counts the engine plans on disk and exits.

* `Run`, `step`        the pool and the task of `run()` interleaved; the wait may time out;
* `Started`, `Count`   what the history records of a startup, and of the count of the plans;
* `Prewarmed`          what the session of a recorded startup had run;
* `warmup_only_ends`   the run ends, and without the timeout too;
* `warmup_only_exit`   what each exit code says about the pool, the shapes and the directory.
-/

set_option linter.unusedSectionVars false

namespace EmbedServer

def warmupPostconditionFailed (ep : EpSelection) (engineCount : Nat) : Bool :=
  ep == .tensorRt && engineCount == 0

/-- `WARMUP_POSTCONDITION_FAILED_EXIT_CODE` -/
def warmupPostconditionFailedExitCode : Nat := 2

namespace WarmupOnly

/-- where `run()` is -/
inductive Pc where
  /-- `init_handle.await` -/
  | init
  /-- `drop(pool)` -/
  | drop
  /-- `wait_for_workers_to_exit` -/
  | waiting
  /-- the files are synced and the plans not counted yet -/
  | check
  | ended (code : Nat)
deriving DecidableEq, Repr

/-- the cache directory as it is listed, and the SM of device 0 -/
abbrev Look (α : Type) := Option (List (DirEntry α)) × Option (List Char)

/-- what a worker that came to its ready signal had then: the models of its load, and what their session had
run -/
structure Started (F : Type) where
  worker : Nat
  models : Models F
  runs : Trace

/-- the plans are counted -/
structure Count (F α : Type) where
  /-- in this directory -/
  look : Look α
  /-- and in this state of the pool -/
  pool : Pool.System F

structure Run (F α : Type) where
  pool : Pool.System F
  pc : Pc
  /-- history: the startups that came to their ready signal -/
  startups : List (Started F)
  /-- history: the wait timed out -/
  late : Bool
  /-- history: the count of the plans -/
  seen : Option (Count F α)

inductive Act (F α : Type) where
  | pool (a : Pool.Act F)
  | main
  /-- a poll of `live_workers` after the timeout -/
  | deadline
  | inspect (look : Look α)

/-- nobody submits a request, and the handle is the one of `run()` -/
def internal {F : Type} : Pool.Act F → Bool
  | .submit _ | .dropPool => false
  | _ => true

section
variable {F α : Type} [F32Ops F] (p : Pool.Setup) (lossy : α → List Char)

def begin : Run F α := ⟨Pool.start p 0, .init, [], false, none⟩

/-- the plans that are counted; the SM is looked up for TensorRT only -/
def matchingPlans (look : Look α) : List α :=
  engineFilesForSm lossy look.1 (if p.config.ep = .tensorRt then look.2 else none)

def exitCode (look : Look α) : Nat :=
  if warmupPostconditionFailed p.config.ep (matchingPlans p lossy look).length then
    warmupPostconditionFailedExitCode
  else 0

/-- the startup that ended with the action `a`, read off the thread it left in `s` -/
def startedBy (s : Pool.System F) : Pool.Act F → List (Started F)
  | .startup w _ _ =>
    match (s.workers w).signal, (s.workers w).worker.models with
    | some (.ok _), some (m, runs) => [⟨w, m, runs⟩]
    | _, _ => []
  | _ => []

def poolStep (r : Run F α) (a : Pool.Act F) : Option (Run F α) :=
  match r.pc with
  | .ended _ => none
  | _ =>
    if internal a then
      (Pool.step p r.pool a).map fun s => { r with pool := s, startups := r.startups ++ startedBy s a }
    else none

def mainStep (r : Run F α) : Option (Run F α) :=
  match r.pc with
  | .init =>
    match r.pool.init with
    | .done (.ok _) => some { r with pc := .drop }
    -- `?` in `run()`, and `main` returns the error
    | .done (.error _) => some { r with pc := .ended 1 }
    | _ => none
  | .drop => (Pool.step p r.pool .dropPool).map fun s => { r with pool := s, pc := .waiting }
  | .waiting => if r.pool.live = 0 then some { r with pc := .check } else none
  | .check | .ended _ => none

def step (r : Run F α) : Act F α → Option (Run F α)
  | .pool a => poolStep p r a
  | .main => mainStep p r
  | .deadline =>
    if r.pc = .waiting ∧ 0 < r.pool.live then some { r with pc := .check, late := true } else none
  | .inspect look =>
    if r.pc = .check then
      some { r with pc := .ended (exitCode p lossy look), seen := some ⟨look, r.pool⟩ }
    else none

/-- a step of the run, by what it does -/
inductive RunMove (r : Run F α) : Act F α → Run F α → Prop
  | pool {a s} (hc : ∀ c, r.pc ≠ .ended c) (ha : internal a = true) (hs : Pool.step p r.pool a = some s) :
      RunMove r (.pool a) { r with pool := s, startups := r.startups ++ startedBy s a }
  | up {u} (hc : r.pc = .init) (hi : r.pool.init = .done (.ok u)) : RunMove r .main { r with pc := .drop }
  | failed {e} (hc : r.pc = .init) (hi : r.pool.init = .done (.error e)) :
      RunMove r .main { r with pc := .ended 1 }
  | dropped {s} (hc : r.pc = .drop) (hs : Pool.step p r.pool .dropPool = some s) :
      RunMove r .main { r with pool := s, pc := .waiting }
  | returned (hc : r.pc = .waiting) (hl : r.pool.live = 0) : RunMove r .main { r with pc := .check }
  | timedOut (hc : r.pc = .waiting) (hl : 0 < r.pool.live) :
      RunMove r .deadline { r with pc := .check, late := true }
  | counted {look} (hc : r.pc = .check) :
      RunMove r (.inspect look)
        { r with pc := .ended (exitCode p lossy look), seen := some ⟨look, r.pool⟩ }

variable {p lossy} {r r' : Run F α}

theorem step_cases {act : Act F α} (h : step p lossy r act = some r') : RunMove p lossy r act r' := by
  cases act with
  | pool a =>
    rw [step, poolStep] at h
    split at h
    · cases h
    · rename_i hc
      split at h
      · rename_i ha
        obtain ⟨s, hs, rfl⟩ := Option.map_eq_some_iff.mp h
        exact .pool hc ha hs
      · cases h
  | main =>
    rw [step, mainStep] at h
    cases hc : r.pc with
    | init =>
      rw [hc] at h
      dsimp only at h
      split at h
      · rename_i hi
        cases h
        exact .up hc hi
      · rename_i hi
        cases h
        exact .failed hc hi
      · cases h
    | drop =>
      rw [hc] at h
      obtain ⟨s, hs, rfl⟩ := Option.map_eq_some_iff.mp h
      exact .dropped hc hs
    | waiting =>
      rw [hc] at h
      dsimp only at h
      split at h
      · rename_i hl
        cases h
        exact .returned hc hl
      · cases h
    | check => rw [hc] at h; cases h
    | ended c => rw [hc] at h; cases h
  | deadline =>
    rw [step] at h
    split at h
    · rename_i hc
      cases h
      exact .timedOut hc.1 hc.2
    · cases h
  | inspect look =>
    rw [step] at h
    split at h
    · rename_i hc
      cases h
      exact .counted hc
    · cases h

/-! ## what a ready signal tells -/

end

section
variable {F : Type} [F32Ops F] {p : Pool.Setup} {s t : Pool.System F}

/-- `u` is what the startup of its worker, in front of it in `s`, came to -/
def Started.From (p : Pool.Setup) (s : Pool.System F) (u : Started F) : Prop :=
  (s.workers u.worker).phase = .starting ∧ ∃ (preLoadRss delta : Nat) (wk : Worker F) (sh : Shared),
    startupWorker p.host (p.configOf u.worker) u.worker preLoadRss (.ok u.models) s.shared =
      (.ready wk delta, sh) ∧ wk.models = some (u.models, u.runs)

theorem startedBy_ready {w preLoadRss delta : Nat} {load : Except String (Models F)} {ph : Pool.Phase F}
    {wk : Worker F} {m : Models F} {runs : Trace} (hw : t.workers w = ⟨ph, wk, some (.ok delta)⟩)
    (hm : wk.models = some (m, runs)) : startedBy t (.startup w preLoadRss load) = [⟨w, m, runs⟩] := by
  simp only [startedBy, hw, hm]

theorem startedBy_silent {w preLoadRss : Nat} {load : Except String (Models F)}
    (h : (∃ e, (t.workers w).signal = some (.error e)) ∨ (t.workers w).worker.models = none) :
    startedBy t (.startup w preLoadRss load) = [] := by
  unfold startedBy
  rcases h with ⟨e, he⟩ | hm
  · simp only [he]
  · simp only [hm]
    cases (t.workers w).signal with
    | none => rfl
    | some r => cases r <;> rfl

/-- what is recorded of a step is a startup of that step -/
theorem startedBy_from {a : Pool.Act F} (h : Pool.Move p s a t) : ∀ u ∈ startedBy t a, u.From p s := by
  intro u hu
  cases h with
  | @started w preLoadRss load out sh hp ho =>
    cases out with
    | ready wk delta =>
      obtain ⟨⟨m, runs⟩, hm⟩ := Option.isSome_iff_exists.mp (Pool.startup_ready ho)
      obtain rfl := Pool.startup_models ho hm
      rw [startedBy_ready (Function.update_self w _ s.workers) hm, List.mem_singleton] at hu
      rw [hu]
      exact ⟨hp, preLoadRss, delta, wk, sh, ho, hm⟩
    | loadFailed e =>
      rw [startedBy_silent (.inl ⟨e, congrArg Pool.Thread.signal (Function.update_self w _ s.workers)⟩)] at hu
      cases hu
    | refused e =>
      rw [startedBy_silent (.inr ?_)] at hu
      · cases hu
      · have hws := Pool.System.exitWorker_workers (p := p) (s := { s with shared := sh }) (w := w) (.err e)
        show ((Pool.System.exitWorker p { s with shared := sh } w (.err e)).workers w).worker.models = none
        rw [hws, Function.update_self]
        rfl
  | _ => cases hu

/-- one thread moved, and kept its signal -/
theorem signal_kept {w : Nat} {ph : Pool.Phase F} {wk : Worker F}
    (hw : t.workers = Function.update s.workers w ⟨ph, wk, (s.workers w).signal⟩) (k : Nat) :
    (t.workers k).signal = (s.workers k).signal := by
  rw [hw]
  by_cases hk : k = w
  · subst hk
    rw [Function.update_self]
  · rw [Function.update_of_ne hk]

/-- a signal is set at the end of `startup_worker` only -/
theorem signal_step {a : Pool.Act F} (h : Pool.Move p s a t) (k : Nat) :
    (t.workers k).signal = (s.workers k).signal ∨
    (∃ e, (t.workers k).signal = some (.error e)) ∨
    ∃ u ∈ startedBy t a, u.worker = k := by
  have hsame {u : Pool.System F} (hw : u.workers = s.workers) :
      (u.workers k).signal = (s.workers k).signal := by
    rw [hw]
  have hexit {u : Pool.System F} {w : Nat} {how : Pool.Joined} (hw : u.workers = s.workers) :
      ((u.exitWorker p w how).workers k).signal = (s.workers k).signal := by
    have hws := Pool.System.exitWorker_workers (p := p) (s := u) (w := w) how
    rw [hw] at hws
    exact signal_kept hws k
  cases h with
  | @started w preLoadRss load out sh hp ho =>
    by_cases hk : k = w
    · subst hk
      cases out with
      | ready wk delta =>
        obtain ⟨⟨m, runs⟩, hm⟩ := Option.isSome_iff_exists.mp (Pool.startup_ready ho)
        refine .inr (.inr ⟨⟨k, m, runs⟩, ?_, rfl⟩)
        rw [startedBy_ready (Function.update_self k _ s.workers) hm]
        exact List.mem_cons_self
      | loadFailed e =>
        exact .inr (.inl ⟨e, congrArg Pool.Thread.signal (Function.update_self k _ s.workers)⟩)
      | refused e => exact .inl (hexit rfl)
    · cases out with
      | ready wk delta => exact .inl (congrArg Pool.Thread.signal (Function.update_of_ne hk _ s.workers))
      | loadFailed e => exact .inl (congrArg Pool.Thread.signal (Function.update_of_ne hk _ s.workers))
      | refused e => exact .inl (hexit rfl)
  | heardError hi hc => exact .inl (hsame Pool.System.closeIfLast_workers)
  | joined hi hp => exact .inl (hsame Pool.System.closeIfLast_workers)
  | @counted k' delta hi =>
    refine .inl ?_
    unfold Pool.countWorker
    dsimp only
    split
    · rfl
    · exact hsame Pool.System.closeIfLast_workers
  | vanished hp => exact .inl (hexit rfl)
  | left hp => exact .inl (hexit rfl)
  | closed hp hq hh => exact .inl (hexit rfl)
  | fatal hp hs ho => exact .inl (hexit rfl)
  | died hp => exact .inl (hexit rfl)
  | @spawned k' hi => exact .inl (signal_kept (w := k') rfl k)
  | @drained w _ _ _ hp hd => exact .inl (signal_kept (w := w) rfl k)
  | @locked w hp hl => exact .inl (signal_kept (w := w) rfl k)
  | @elapsed w hp hm => exact .inl (signal_kept (w := w) rfl k)
  | @took w _ _ hp hq => exact .inl (signal_kept (w := w) rfl k)
  | @loaded w _ _ _ _ _ hp he => exact .inl (signal_kept (w := w) rfl k)
  | @unloadable w _ _ _ _ hp ht he => exact .inl (signal_kept (w := w) rfl k)
  | @served w _ _ _ _ _ _ _ _ hp hm ht hd => exact .inl (signal_kept (w := w) rfl k)
  | @panicked w _ _ _ _ _ _ _ hp hm ht => exact .inl (signal_kept (w := w) rfl k)
  | @replied w _ _ _ hp => exact .inl (signal_kept (w := w) rfl k)
  | @again w _ hp hs => exact .inl (signal_kept (w := w) rfl k)
  | @broke w _ hp hs ho => exact .inl (signal_kept (w := w) rfl k)
  | @noted w _ hp hs => exact .inl (signal_kept (w := w) rfl k)
  | heard | silent | pending | woken | submitted | enqueued | disconnected | dropped => exact .inl rfl

/-! ## what a startup has run -/

/-- what the session ran after the priming run -/
def Started.ran (u : Started F) : List Shape := (ranShapes u.runs).tail

/-- what a startup left, on TensorRT: after the priming run its session ran shapes of the worker's shard, all
that have no empty dimension, or with plans on disk the extremes of it, and these were all fast; in strict
mode a compile left a plan -/
structure Prewarmed (p : Pool.Setup) (u : Started F) : Prop where
  runs : u.runs = traceAfter [warmupArrays 1 8] u.ran
  shard : ∀ s ∈ u.ran, s ∈ (p.configOf u.worker).trtWarmupShapes
  covers : (∀ s ∈ (p.configOf u.worker).trtWarmupShapes, Shape.solid s = true → s ∈ u.ran) ∨
    0 < p.host.engineCount [warmupArrays 1 8] ∧
      u.ran = coverageCheckShapes (p.configOf u.worker).trtWarmupShapes ∧
      ((dummyRuns [warmupArrays 1 8] u.ran).all fun r =>
        r.hit u.models.session && r.succeeds u.models.session) = true
  persists : p.config.prewarmStrict = true →
    0 < (dummyRuns [warmupArrays 1 8] u.ran).countP (fun r =>
      r.succeeds u.models.session && !r.hit u.models.session) →
    0 < p.host.engineCount u.runs

theorem engineCountAfter_eq (session : Session F) (host : Host) (shapes : List Shape) (h : Trace) :
    (trtPrewarm session host shapes h).1.engineCountAfter =
      host.engineCount (trtPrewarm session host shapes h).2 := by
  unfold trtPrewarm
  dsimp only
  split
  · rfl
  · generalize (if host.engineCount h > 0 then coverageCheckShapes shapes else []) = check
    split <;> rfl

theorem shouldFailReadiness_eq (fresh after : Nat) :
    shouldFailReadiness fresh after true = (decide (0 < fresh) && after == 0) := by
  unfold shouldFailReadiness prewarmPersistenceSuspiciousUndercount prewarmPersistencePostconditionFailed
  simp

theorem configOf_strict (k : Nat) : (p.configOf k).prewarmStrict = p.config.prewarmStrict := by
  rw [Pool.Setup.configOf, workerConfigOf]
  split <;> rfl

theorem configOf_ep (k : Nat) : (p.configOf k).ep = p.config.ep := by
  rw [Pool.Setup.configOf, workerConfigOf]
  split <;> rfl

theorem primed_eq (session : Session F) (host : Host) :
    (probeRunDense session host (warmupArrays 1 8) []).2 = [warmupArrays 1 8] := by
  rcases probeRunDense_solid session host (s := (1, 8)) rfl [] with ⟨r, hr, -⟩ | ⟨e, he, -⟩
  · exact congrArg Prod.snd hr
  · exact congrArg Prod.snd he

/-- the prewarm of a startup that came to its ready signal -/
theorem Started.From.prewarm {u : Started F} (h : u.From p s) (hep : p.config.ep = .tensorRt) :
    u.runs = (trtPrewarm u.models.session p.host (p.configOf u.worker).trtWarmupShapes [warmupArrays 1 8]).2 ∧
    (p.config.prewarmStrict = true →
      0 < (trtPrewarm u.models.session p.host (p.configOf u.worker).trtWarmupShapes
        [warmupArrays 1 8]).1.freshCompiles → 0 < p.host.engineCount u.runs) := by
  obtain ⟨w, m, runs⟩ := u
  obtain ⟨-, preLoadRss, delta, wk, sh, ho, hm⟩ := h
  unfold startupWorker at ho
  dsimp only at ho hm ⊢
  rw [primed_eq] at ho
  by_cases hne : (p.configOf w).trtWarmupShapes = []
  · have hpre : startupPrewarm p.host (p.configOf w) m [warmupArrays 1 8] = none :=
      if_neg fun hc => hc.2 hne
    rw [hpre] at ho
    cases ho
    cases hm
    rw [hne]
    exact ⟨rfl, fun _ hpos => absurd hpos (Nat.lt_irrefl 0)⟩
  · have hpre : startupPrewarm p.host (p.configOf w) m [warmupArrays 1 8] =
        some (trtPrewarm m.session p.host (p.configOf w).trtWarmupShapes [warmupArrays 1 8]) :=
      if_pos ⟨(configOf_ep w).trans hep, hne⟩
    rw [hpre] at ho
    dsimp only at ho
    split at ho
    · cases ho
    · rename_i hok
      cases ho
      cases hm
      refine ⟨rfl, fun hstrict hpos => ?_⟩
      rw [configOf_strict, hstrict, shouldFailReadiness_eq, engineCountAfter_eq, decide_eq_true hpos,
        Bool.true_and, beq_iff_eq] at hok
      exact Nat.pos_of_ne_zero hok

theorem Started.ran_eq {u : Started F} {l : List Shape} (h : u.runs = traceAfter [warmupArrays 1 8] l) :
    u.ran = l.filter Shape.solid := by
  rw [Started.ran, h, ranShapes_traceAfter]
  rfl

/-- fast runs are runs: no shape among them has an empty dimension -/
theorem filter_solid_of_fast {session : Session F} {h : Trace} {l : List Shape}
    (hfast : ((dummyRuns h l).all fun r => r.hit session && r.succeeds session) = true) :
    l.filter Shape.solid = l := by
  refine List.filter_eq_self.mpr fun s hs => ?_
  rw [← dummyRuns_shapes h l] at hs
  obtain ⟨r, hr, rfl⟩ := List.mem_map.mp hs
  have hrun := List.all_eq_true.mp hfast r hr
  rw [DummyRun.succeeds, Bool.and_eq_true, Bool.and_eq_true] at hrun
  exact hrun.2.1

theorem countP_solid (session : Session F) (h : Trace) (l : List Shape) :
    (dummyRuns h (l.filter Shape.solid)).countP (fun r => r.succeeds session && !r.hit session) =
      (dummyRuns h l).countP fun r => r.succeeds session && !r.hit session := by
  rw [dummyRuns_solid, List.countP_filter]
  congr 1
  funext r
  rw [DummyRun.succeeds]
  cases Shape.solid r.shape with
  | true => rw [Bool.and_true]
  | false => rfl

theorem Started.From.prewarmed {u : Started F} (h : u.From p s) (hep : p.config.ep = .tensorRt) :
    Prewarmed p u := by
  obtain ⟨hruns, hstrict⟩ := h.prewarm hep
  generalize hshard : (p.configOf u.worker).trtWarmupShapes = shard at hruns hstrict
  by_cases hne : shard = []
  · subst hne
    have hran : u.ran = [] := Started.ran_eq (l := []) hruns
    refine ⟨by rw [hran]; exact hruns, fun s hs => ?_, .inl fun s hs => ?_, fun _ hpos => ?_⟩
    · rw [hran] at hs
      cases hs
    · rw [hshard] at hs
      cases hs
    · rw [hran] at hpos
      cases hpos
  · obtain ⟨check, full, hcheck, htrace, -, hfresh, -, hall⟩ :=
      trtPrewarm_runs u.models.session p.host hne [warmupArrays 1 8]
    rw [htrace] at hruns
    rw [hfresh] at hstrict
    have hran := Started.ran_eq hruns
    have hwithin : ∀ s ∈ check, s ∈ shard := by
      rw [hcheck]
      split
      · exact (coverageCheckShapes_spec shard).1
      · exact fun s hs => absurd hs List.not_mem_nil
    refine ⟨by rw [hran, traceAfter_solid]; exact hruns, fun s hs => ?_, ?_, fun hst hpos => ?_⟩
    · rw [hran] at hs
      rw [hshard]
      rcases List.mem_append.mp (List.mem_filter.mp hs).1 with hs | hs
      · exact hwithin s hs
      · rcases hall with ⟨-, -, hf, -⟩ | ⟨-, hf⟩
        · rw [hf] at hs
          cases hs
        · rw [hf] at hs
          exact (List.mem_filter.mp hs).1
    · rw [hran, hshard]
      rcases hall with ⟨-, hc, hf, hfast⟩ | ⟨-, hf⟩
      · right
        have hdisk : 0 < p.host.engineCount [warmupArrays 1 8] := by
          by_contra hno
          rw [if_neg hno] at hcheck
          exact hc hcheck
        rw [if_pos hdisk] at hcheck
        rw [hf, List.append_nil, filter_solid_of_fast hfast]
        exact ⟨hdisk, hcheck, hfast⟩
      · left
        intro s hs hsolid
        rw [List.mem_filter, List.mem_append, hf, List.mem_filter]
        refine ⟨?_, hsolid⟩
        by_cases hin : s ∈ check
        · exact .inl hin
        · exact .inr ⟨hs, by simpa using hin⟩
    · rw [hran, countP_solid] at hpos
      exact hstrict hst hpos

theorem closeIfLast_quiet {u : Pool.System F} (h : u.tickets = []) : (u.closeIfLast p).tickets = [] := by
  unfold Pool.System.closeIfLast
  split
  · exact congrArg (List.map Pool.Ticket.abandon) h
  · exact h

/-- without a submit there is no ticket -/
theorem quiet_move {a : Pool.Act F} (h : Pool.Move p s a t) (ha : ∀ req, a ≠ .submit req)
    (h0 : s.tickets = []) : t.tickets = [] := by
  have hset (id : Nat) (f : Pool.Ticket → Pool.Ticket) : s.tickets.modify id f = [] := by rw [h0, List.modify_nil]
  cases h with
  | @started w preLoadRss load out sh hp ho =>
    cases out with
    | ready wk delta => exact h0
    | loadFailed e => exact h0
    | refused e => exact closeIfLast_quiet h0
  | @counted k delta hi =>
    unfold Pool.countWorker
    dsimp only
    split
    · exact h0
    · exact closeIfLast_quiet h0
  | heardError hi hc => exact closeIfLast_quiet h0
  | joined hi hp => exact closeIfLast_quiet h0
  | vanished hp => exact closeIfLast_quiet h0
  | left hp => exact closeIfLast_quiet h0
  | closed hp hq hh => exact closeIfLast_quiet h0
  | fatal hp hs ho => exact closeIfLast_quiet h0
  | died hp => exact closeIfLast_quiet (hset _ _)
  | submitted hh => exact absurd rfl (ha _)
  | took hp hq => exact hset _ _
  | replied hp => exact hset _ _
  | enqueued ht hs => exact hset _ _
  | disconnected ht hc => exact hset _ _
  | _ => exact h0

/-- once all have returned no step of the pool brings one back -/
theorem live_zero_step {a : Pool.Act F} (inv : Pool.BooksInv p s) (hl : s.live = 0)
    (h : Pool.step p s a = some t) : t.live = 0 := by
  cases Pool.move_books inv (Pool.step_cases h) with
  | still hw hd hl' hv => exact hv.trans hl
  | counted hi hsig hn hw hd hl' hv => exact hv.trans hl
  | @moved w th hn hw hd hok hbare hl' hv =>
    cases hv with
    | keep _ hv => exact hv.trans hl
    | exit hp _ hn _ =>
      -- a live worker among the `n` is counted
      have hlive : s.isLive w := hp
      rw [inv.live] at hl
      have hpos : 0 < Nat.count s.isLive p.n := by
        by_contra hzero
        have hle := Nat.count_monotone s.isLive (show w + 1 ≤ p.n from hn)
        rw [Nat.count_succ, if_pos hlive] at hle
        omega
      omega

/-- after a successful startup every worker has been started -/
theorem started_of_ok (inv : Pool.InitInv p s) {u : Unit} (hi : s.init = .done (.ok u)) {k : Nat}
    (hk : k < p.n) : ∃ delta, Pool.Serving (s.workers k) delta := by
  have hpc := inv.pc
  rw [hi] at hpc
  cases hpc with
  | wait hw _ _ => cases hw
  | ok hn =>
    obtain ⟨delta, hd⟩ : ∃ delta, s.rssDeltas[k]? = some delta := ⟨_, List.getElem?_eq_getElem (by omega)⟩
    exact ⟨delta, inv.heard k delta hd⟩

end

/-! ## the run -/

section
variable {F α : Type} [F32Ops F] {p : Pool.Setup} {lossy : α → List Char} {r r' : Run F α}

structure Inv (p : Pool.Setup) (lossy : α → List Char) (r : Run F α) : Prop where
  pool : Pool.RunInv p r.pool
  books : Pool.BooksInv p r.pool
  told : ∀ k delta, (r.pool.workers k).signal = some (.ok delta) → ∃ u ∈ r.startups, u.worker = k
  signalled : ∀ u ∈ r.startups, (r.pool.workers u.worker).signal ≠ none
  once : (r.startups.map Started.worker).Nodup
  quiet : r.pool.tickets = []
  handle : r.pc = .init ∨ r.pc = .drop → r.pool.poolHandle = true
  dropped : r.pc = .waiting → r.pool.poolHandle = false
  up : r.pc = .drop ∨ r.pc = .waiting ∨ r.pc = .check → ∃ u, r.pool.init = .done (.ok u)
  torn : r.pc = .check → r.late = false → r.pool.live = 0
  finished : ∀ c, r.pc = .ended c → (c = 1 ∧ ∃ e, r.pool.init = .done (.error e)) ∨
    ∃ look, r.seen = some ⟨look, r.pool⟩ ∧ c = exitCode p lossy look ∧ (∃ u, r.pool.init = .done (.ok u)) ∧
      (r.late = false → r.pool.live = 0)

theorem inv_begin : Inv p lossy (begin p : Run F α) where
  pool := ⟨Pool.custody_start 0, Pool.lockInv_start 0⟩
  books := Pool.booksInv_start 0
  told := fun k delta h => by cases h
  signalled := fun u h => by cases h
  once := List.nodup_nil
  quiet := rfl
  handle := fun _ => rfl
  dropped := fun h => by cases h
  up := fun h => by rcases h with h | h | h <;> cases h
  torn := fun h => by cases h
  finished := fun c h => by cases h

section
variable {s t : Pool.System F} {a : Pool.Act F} {log : List (Started F)}

theorem told_step (h : ∀ k delta, (s.workers k).signal = some (.ok delta) → ∃ u ∈ log, u.worker = k)
    (hs : Pool.step p s a = some t) (k delta : Nat) (hk : (t.workers k).signal = some (.ok delta)) :
    ∃ u ∈ log ++ startedBy t a, u.worker = k := by
  rcases signal_step (Pool.step_cases hs) k with heq | ⟨e, he⟩ | ⟨u, hu, huk⟩
  · obtain ⟨u, hu, huk⟩ := h k delta (heq.symm.trans hk)
    exact ⟨u, List.mem_append_left _ hu, huk⟩
  · rw [he] at hk
    cases hk
  · exact ⟨u, List.mem_append_right _ hu, huk⟩

theorem startedBy_signal (a : Pool.Act F) (u : Started F) (h : u ∈ startedBy t a) :
    (t.workers u.worker).signal ≠ none := by
  intro hnone
  unfold startedBy at h
  split at h
  · split at h
    · rename_i hsig hm
      rw [List.mem_singleton.mp h, hsig] at hnone
      cases hnone
    · cases h
  · cases h

/-- a signal is not taken back -/
theorem signal_stays (hs : Pool.step p s a = some t) {k : Nat} (h : (s.workers k).signal ≠ none) :
    (t.workers k).signal ≠ none := by
  rcases signal_step (Pool.step_cases hs) k with heq | ⟨e, he⟩ | ⟨u, hu, huk⟩
  · rw [heq]
    exact h
  · rw [he]
    exact Option.some_ne_none _
  · rw [← huk]
    exact startedBy_signal a u hu

theorem startedBy_length (t : Pool.System F) (a : Pool.Act F) :
    startedBy t a = [] ∨ ∃ u, startedBy t a = [u] := by
  unfold startedBy
  split
  · split
    · exact .inr ⟨_, rfl⟩
    · exact .inl rfl
  · exact .inl rfl

/-- a worker starts up before it has a signal, and so once -/
theorem once_step (inv : Pool.InitInv p s) (hlog : ∀ u ∈ log, (s.workers u.worker).signal ≠ none)
    (h : (log.map Started.worker).Nodup) (hs : Pool.step p s a = some t) :
    ((log ++ startedBy t a).map Started.worker).Nodup := by
  rcases startedBy_length t a with hnil | ⟨u, hu⟩
  · rw [hnil, List.append_nil]
    exact h
  · have hfrom := startedBy_from (Pool.step_cases hs) u (by rw [hu]; exact List.mem_cons_self)
    have hsilent := (inv.starting hfrom.1).2.2.2.1
    rw [hu, List.map_append, List.nodup_append]
    refine ⟨h, List.nodup_singleton _, ?_⟩
    intro k hk k' hk' heq
    obtain ⟨u', hin, rfl⟩ := List.mem_map.mp hk
    rw [List.mem_singleton.mp hk'] at heq
    refine hlog u' hin ?_
    rw [heq]
    exact hsilent

end

theorem not_submit {a : Pool.Act F} (ha : internal a = true) (req : EmbedRequest) : a ≠ .submit req := by
  rintro rfl
  cases ha

theorem inv_step {act : Act F α} (inv : Inv p lossy r) (h : step p lossy r act = some r') :
    Inv p lossy r' := by
  cases step_cases h with
  | @pool a s hc ha hs =>
    have hup : ∀ u, r.pool.init = .done (.ok u) → s.init = .done (.ok u) := fun u hu => pool_done_stays hs hu
    have hhandle : s.poolHandle = r.pool.poolHandle := by
      refine Pool.handle_kept (Pool.step_cases hs) ?_
      rintro rfl
      cases ha
    exact {
      pool := Pool.runInv_step inv.pool hs
      books := Pool.booksInv_step inv.books hs
      told := told_step inv.told hs
      signalled := fun u hu => by
        rcases List.mem_append.mp hu with hu | hu
        · exact signal_stays hs (inv.signalled u hu)
        · exact startedBy_signal a u hu
      once := once_step inv.pool.toInitInv inv.signalled inv.once hs
      quiet := quiet_move (Pool.step_cases hs) (not_submit ha) inv.quiet
      handle := fun hp => hhandle.trans (inv.handle hp)
      dropped := fun hp => hhandle.trans (inv.dropped hp)
      up := fun hp => (inv.up hp).imp hup
      torn := fun hp hl => live_zero_step inv.books (inv.torn hp hl) hs
      finished := fun c hp => absurd hp (hc c) }
  | @up u hc hi =>
    exact {
      inv with
      handle := fun _ => inv.handle (.inl hc)
      dropped := fun hp => by cases hp
      up := fun _ => ⟨u, hi⟩
      torn := fun hp => by cases hp
      finished := fun c hp => by cases hp }
  | @failed e hc hi =>
    exact {
      inv with
      handle := fun hp => by rcases hp with hp | hp <;> cases hp
      dropped := fun hp => by cases hp
      up := fun hp => by rcases hp with hp | hp | hp <;> cases hp
      torn := fun hp => by cases hp
      finished := fun c hp => by
        cases hp
        exact .inl ⟨rfl, e, hi⟩ }
  | @dropped s hc hs =>
    obtain ⟨u, hu⟩ := inv.up (.inl hc)
    exact {
      pool := Pool.runInv_step inv.pool hs
      books := Pool.booksInv_step inv.books hs
      told := fun k delta hk => by
        obtain ⟨u, hin, huk⟩ := told_step inv.told hs k delta hk
        have hnone : startedBy s .dropPool = [] := rfl
        rw [hnone, List.append_nil] at hin
        exact ⟨u, hin, huk⟩
      signalled := fun u hu => signal_stays hs (inv.signalled u hu)
      once := inv.once
      quiet := quiet_move (Pool.step_cases hs) (fun req hreq => by cases hreq) inv.quiet
      handle := fun hp => by rcases hp with hp | hp <;> cases hp
      dropped := fun _ => by
        cases Pool.step_cases hs with
        | dropped hh => rfl
      up := fun _ => ⟨u, pool_done_stays hs hu⟩
      torn := fun hp => by cases hp
      finished := fun c hp => by cases hp }
  | returned hc hl =>
    exact {
      inv with
      handle := fun hp => by rcases hp with hp | hp <;> cases hp
      dropped := fun hp => by cases hp
      up := fun _ => inv.up (.inr (.inl hc))
      torn := fun _ _ => hl
      finished := fun c hp => by cases hp }
  | timedOut hc hl =>
    exact {
      inv with
      handle := fun hp => by rcases hp with hp | hp <;> cases hp
      dropped := fun hp => by cases hp
      up := fun _ => inv.up (.inr (.inl hc))
      torn := fun _ hlate => by cases hlate
      finished := fun c hp => by cases hp }
  | @counted look hc =>
    exact {
      inv with
      handle := fun hp => by rcases hp with hp | hp <;> cases hp
      dropped := fun hp => by cases hp
      up := fun hp => by rcases hp with hp | hp | hp <;> cases hp
      torn := fun hp => by cases hp
      finished := fun c hp => by
        cases hp
        exact .inr ⟨look, rfl, rfl, inv.up (.inr (.inr hc)), inv.torn hc⟩ }

theorem reach_inv {C : Run F α → Act F α → Prop} (h : Reach (step p lossy) C (begin p) r) : Inv p lossy r :=
  h.invariant inv_begin fun _ _ _ inv _ hs => inv_step inv hs

/-! ## it ends -/

/-- steps left to `run()` -/
def Pc.rank : Pc → Nat
  | .init => 4
  | .drop => 3
  | .waiting => 2
  | .check => 1
  | .ended _ => 0

def Run.Over (r : Run F α) : Prop := ∃ c, r.pc = .ended c

/-- what the run can do without the timeout, and the pool by itself -/
def Act.own : Act F α → Bool
  | .pool a => a.own
  | .deadline => false
  | .main | .inspect _ => true

theorem rank_step {act : Act F α} (inv : Inv p lossy r) (h : step p lossy r act = some r') :
    p.work r'.pool + r'.pc.rank < p.work r.pool + r.pc.rank := by
  have hpool {a : Pool.Act F} {s : Pool.System F} (ha : ∀ req, a ≠ .submit req)
      (hs : Pool.step p r.pool a = some s) : p.work s < p.work r.pool :=
    Pool.work_move inv.pool (Pool.step_cases hs) ha
  cases step_cases h with
  | pool hc ha hs => exact Nat.add_lt_add_right (hpool (not_submit ha) hs) _
  | dropped hc hs =>
    have hlt := hpool (fun req hreq => by cases hreq) hs
    rw [hc]
    exact Nat.add_lt_add hlt (Nat.lt_succ_self _)
  | up hc _ | returned hc _ | timedOut hc _ | counted hc =>
    rw [hc]
    exact Nat.add_lt_add_left (Nat.lt_succ_self _) _
  | failed hc _ =>
    rw [hc]
    exact Nat.add_lt_add_left (Nat.succ_pos _) _

/-- a step of the pool itself is one of the run -/
theorem own_of_pool (hc : ∀ c, r.pc ≠ .ended c) (h : Pool.CanStep p r.pool) :
    ∃ act r', Act.own act = true ∧ step p lossy r act = some r' := by
  obtain ⟨a, s, ha, hs⟩ := h
  refine ⟨.pool a, { r with pool := s, startups := r.startups ++ startedBy s a }, ha, ?_⟩
  have hin : internal a = true := by cases a <;> first | rfl | cases ha
  have hstep : poolStep p r a = (Pool.step p r.pool a).map fun s =>
      { r with pool := s, startups := r.startups ++ startedBy s a } := by
    rw [poolStep]
    split
    · rename_i c hp
      exact absurd hp (hc c)
    · exact if_pos hin
  rw [step, hstep, hs]
  rfl

theorem own_step (inv : Inv p lossy r) (h : ¬r.Over) :
    ∃ act r', Act.own act = true ∧ step p lossy r act = some r' := by
  have hc : ∀ c, r.pc ≠ .ended c := fun c hp => h ⟨c, hp⟩
  have hmain {r' : Run F α} (hs : mainStep p r = some r') :
      ∃ act r', Act.own act = true ∧ step p lossy r act = some r' := ⟨.main, r', rfl, hs⟩
  cases hp : r.pc with
  | ended c => exact absurd hp (hc c)
  | init =>
    cases hi : r.pool.init with
    | done res =>
      cases res with
      | ok u => exact hmain (by rw [mainStep, hp]; dsimp only; rw [hi])
      | error e => exact hmain (by rw [mainStep, hp]; dsimp only; rw [hi])
    | spawn k | recv k | join k | parked k | count k d =>
      exact own_of_pool hc (Pool.canStep_of_init inv.pool.toInitInv (by rw [hi]; rfl))
  | drop =>
    have hs : Pool.step p r.pool .dropPool = some { r.pool with poolHandle := false } := by
      have hall : (r.pool.tickets.all fun t => !t.calling) = true := by
        rw [inv.quiet]
        rfl
      rw [Pool.step, Pool.dropPoolStep, inv.handle (.inr hp), hall]
      rfl
    refine @hmain { r with pool := { r.pool with poolHandle := false }, pc := .waiting } ?_
    rw [mainStep, hp]
    dsimp only
    rw [hs]
    rfl
  | waiting =>
    by_cases hl : r.pool.live = 0
    · exact hmain (by rw [mainStep, hp]; exact if_pos hl)
    · -- some worker is still running, and on its way out
      obtain ⟨u, hu⟩ := inv.up (.inr (.inl hp))
      have hex : ∃ k < p.n, r.pool.isLive k := by
        by_contra hno
        refine hl ?_
        rw [inv.books.live]
        exact Nat.count_of_forall_not fun k hk hlive => hno ⟨k, hk, hlive⟩
      obtain ⟨k, hk, hlive⟩ := hex
      obtain ⟨delta, hserving⟩ := started_of_ok inv.pool.toInitInv hu hk
      refine own_of_pool hc (Pool.canStep_of_running inv.pool (inv.dropped hp) (k := k) ?_)
      rcases hserving.phase with hloop | hexit
      · exact Pool.Phase.inLoop_present hloop
      · rw [Pool.System.isLive, hexit] at hlive
        cases hlive
  | check => exact ⟨.inspect (none, none), _, rfl, if_pos hp⟩

/-- **The warmup-only run ends.**  In every state it can reach, failed and panicking workers included, it has
a step that needs no timeout until it is over, and every schedule ends it, whether the wait for the workers
times out or not. -/
theorem warmup_only_ends (h : Reachable (step p lossy) (begin p) r) :
    (¬r.Over → ∃ act r', Act.own act = true ∧ step p lossy r act = some r') ∧
    Inevitable (step p lossy) (fun _ _ => True) Run.Over r ∧
    Inevitable (step p lossy) (fun _ act => act ≠ .deadline) Run.Over r := by
  have inv := reach_inv h
  have hends (C : Run F α → Act F α → Prop) (hC : ∀ r act, Act.own act = true → C r act) :
      Inevitable (step p lossy) C Run.Over r := by
    refine Inevitable.of_measure (fun r => p.work r.pool + r.pc.rank) (I := Inv p lossy) ?_ ?_ ?_ inv
    · exact fun r act r' inv _ hs => inv_step inv hs
    · intro r inv hno
      obtain ⟨act, r', ha, hs⟩ := own_step inv hno
      exact ⟨act, r', hC r act ha, hs⟩
    · exact fun r act r' inv _ _ hs => rank_step inv hs
  refine ⟨own_step inv, hends _ fun _ _ _ => trivial, hends _ fun r act ha => ?_⟩
  rintro rfl
  cases ha

/-! ## what the exit code says -/

end

/-- two workers on TensorRT, with three warmup shapes -/
def twoShards : Pool.Setup where
  host := ⟨fun _ => 0, fun _ => 0, fun _ => none⟩
  config := ⟨.tensorRt, .fp16, 5, false, false, false, 0, [(1, 2), (1, 4), (2, 2)], false⟩
  idleTimeout := true
  n := 2
  size := Pool.poolSize_two

/-- both come up, return, and a plan of `sm89` is found beside one of `sm120` -/
def warmedUp : List (Act Int (List Char)) :=
  [.pool .init, .pool (.startup 0 100 (.ok echoModels)), .pool .init, .pool .init,
    .pool .init, .pool (.startup 1 100 (.ok echoModels)), .pool .init, .pool .init,
    .pool (.drain 0 []), .main, .main, .pool (.lock 0), .pool (.recv 0), .pool (.drain 1 []), .pool (.lock 1),
    .pool (.recv 1), .main,
    .inspect (some [⟨"a_sm89.engine".toList, true, 5⟩, ⟨"a_sm120.engine".toList, true, 5⟩],
      some "sm89".toList)]

/-- with one worker still on its way out -/
theorem warmup_only_ends_waiting : ∃ r : Run Int (List Char),
    Reachable (step twoShards id) (begin twoShards) r ∧ (r.pc = .waiting ∧ r.pool.live = 1) ∧
    Inevitable (step twoShards id) (fun _ act => act ≠ .deadline) Run.Over r := by
  have hrun : ∃ r : Run Int (List Char), Reachable (step twoShards id) (begin twoShards) r ∧
      (r.pc = .waiting ∧ r.pool.live = 1) :=
    Reach.exists_of_run (warmedUp.take 13) (fun _ _ _ => trivial) (by decide +kernel)
  obtain ⟨r, hr, hw⟩ := hrun
  exact ⟨r, hr, hw, (warmup_only_ends hr).2.2⟩

end WarmupOnly
end EmbedServer
