import EmbedServer.Lib.Hull
import EmbedServer.Lib.Transition
import EmbedServer.Worker.Report
import EmbedServer.Worker.Startup

/-!
# What the warmed ceiling says about the engine profile (`jit_guard.rs`)

The pool keeps one number, the longest sequence any worker ran successfully in a prewarm.  The engine
profile has two coordinates: it is made of boxes of `(batch, seq)` around the shapes that ran.

`Fleet` is the ceiling with the shapes behind it.  A prewarm of a shard at startup, or of a single
shape (propagated or adaptive), and the `fetch_max` that follows it are two steps, so the workers may
interleave between them.

* `startup_is_run`, `turn_is_run`   the startup of a worker and every turn of its loop move the ceiling
                                    as some run of the fleet does;
* `guard_covers_iff`                the chunks the guard admits are inside the profile exactly if the
                                    shapes that ran flank them in batch and from below in sequence.
-/

set_option linter.unusedSectionVars false

namespace EmbedServer

/-- the ceiling, and where it comes from -/
structure Fleet where
  /-- `warmed_seq_ceiling` -/
  ceiling : Nat
  /-- shapes some worker prewarmed successfully -/
  warmed : List Shape
  /-- argument of the `fetch_max` a worker has yet to make -/
  due : Nat → Option Nat

inductive WarmAct (F : Type) where
  /-- the worker prewarms its shard -/
  | startup (id : Nat) (host : Host) (session : Session F) (runs : Trace)
  /-- the worker prewarms one shape -/
  | single (id : Nat) (shape : Shape) (host : Host) (session : Session F) (runs : Trace)
  /-- its `fetch_max` -/
  | raise (id : Nat)

namespace Fleet

def start : Fleet := ⟨0, [], fun _ => none⟩

/-- after a prewarm -/
def ran (p : Fleet) (id : Nat) (stats : PrewarmStats) (v : Option Nat) : Fleet :=
  { p with warmed := p.warmed ++ stats.okShapes, due := Function.update p.due id v }

/-- after a `fetch_max` -/
def raised (p : Fleet) (id v : Nat) : Fleet :=
  { p with ceiling := max p.ceiling v, due := Function.update p.due id none }

end Fleet

section
variable {F : Type} [F32Ops F] (config : WorkerConfig) (n : Nat)

def fleetStep (p : Fleet) : WarmAct F → Option Fleet
  | .startup id host session runs =>
    let shapes := (workerConfigOf config n id).trtWarmupShapes
    if config.ep = .tensorRt ∧ shapes ≠ [] ∧ id < n ∧ p.due id = none then
      let stats := (trtPrewarm session host shapes runs).1
      some (p.ran id stats (some stats.maxWarmedSeq))
    else none
  | .single id shape host session runs =>
    if config.ep = .tensorRt ∧ id < n ∧ p.due id = none then
      let stats := (trtPrewarm session host [shape] runs).1
      some (p.ran id stats (singleRaise shape stats))
    else none
  | .raise id => (p.due id).map (p.raised id)

/-- a run of the pool, as far as the ceiling sees it -/
abbrev FleetRun (F : Type) [F32Ops F] (config : WorkerConfig) (n : Nat) : Fleet → Fleet → Prop :=
  Reachable (fleetStep (F := F) config n)

/-! ## the workers move the ceiling as the fleet does -/

/-- some run takes the ceiling from `p` to `c`, and leaves no `fetch_max` open that was not -/
def Climbs (F : Type) [F32Ops F] (config : WorkerConfig) (n : Nat) (p : Fleet) (c : Nat) : Prop :=
  ∃ p', FleetRun F config n p p' ∧ p'.ceiling = c ∧ p'.due = p.due

variable {config n}

theorem Climbs.refl (p : Fleet) : Climbs F config n p p.ceiling := ⟨p, .refl, rfl, rfl⟩

/-- a prewarm and its `fetch_max` -/
theorem climbs_of_ran {p : Fleet} {id : Nat} {a : WarmAct F} {stats : PrewarmStats} {v : Option Nat}
    (hs : fleetStep config n p a = some (p.ran id stats v)) (hdue : p.due id = none) :
    Climbs F config n p (fetchMax p.ceiling v) := by
  have h1 : FleetRun F config n p (p.ran id stats v) := Reach.single trivial hs
  cases v with
  | none => exact ⟨_, h1, rfl, by rw [Fleet.ran, ← hdue]; exact Function.update_eq_self id p.due⟩
  | some v =>
    have h2 : fleetStep config n (p.ran id stats (some v)) (.raise id : WarmAct F) =
        some ((p.ran id stats (some v)).raised id v) := by
      simp [fleetStep, Fleet.ran]
    refine ⟨_, h1.tail trivial h2, rfl, ?_⟩
    show Function.update (Function.update p.due id (some v)) id none = p.due
    rw [Function.update_idem, ← hdue, Function.update_eq_self]

theorem single_climbs {p : Fleet} {id : Nat} (hep : config.ep = .tensorRt) (hid : id < n)
    (hdue : p.due id = none) (shape : Shape) (host : Host) (session : Session F) (runs : Trace) :
    Climbs F config n p
      (fetchMax p.ceiling (singleRaise shape (trtPrewarm session host [shape] runs).1)) :=
  climbs_of_ran (a := .single id shape host session runs) (if_pos ⟨hep, hid, hdue⟩) hdue

theorem drain_climbs {id : Nat} (hep : config.ep = .tensorRt) (hid : id < n) (host : Host) (m : Models F)
    (shapes : List Shape) {p : Fleet} {st : DrainState} (hp : p.ceiling = st.ceiling)
    (hdue : p.due id = none) :
    Climbs F config n p (shapes.foldl (drainStep host m) st).ceiling := by
  induction shapes generalizing p st with
  | nil => exact ⟨p, .refl, hp, rfl⟩
  | cons shape shapes ih =>
    have hstep : Climbs F config n p (drainStep host m st shape).ceiling := by
      rw [drainStep_ceiling, ← hp]
      split
      · exact .refl p
      · exact single_climbs hep hid hdue shape host m.session st.runs
    obtain ⟨p1, hrun1, hc1, hdue1⟩ := hstep
    obtain ⟨p2, hrun2, hc2, hdue2⟩ := ih hc1 (by rw [hdue1]; exact hdue)
    exact ⟨p2, hrun1.trans hrun2, hc2, hdue2.trans hdue1⟩

theorem serve_climbs {id : Nat} (hid : id < n) {wc : WorkerConfig} (hwc : wc.ep = config.ep) (host : Host)
    (m : Models F) (runs : Trace) (w : Worker F) (sh : Shared) (req : EmbedRequest) (isClosed : Bool)
    (env : Env) {p : Fleet} (hp : p.ceiling = sh.ceiling) (hdue : p.due id = none) :
    Climbs F config n p (serve host wc id m runs w sh req isClosed env).shared.ceiling := by
  rw [serve_ceiling]
  cases req with
  | adaptiveWarmup batch seq =>
    dsimp only
    rw [adaptiveWarmup_ceiling, hwc]
    split
    · rename_i hep
      have h := single_climbs (F := F) hep hid hdue (batch, seq) host m.session runs
      rwa [hp] at h
    · exact ⟨p, .refl, hp, rfl⟩
  | dense texts | sparse texts | both texts | probe texts => exact ⟨p, .refl, hp, rfl⟩

theorem workerConfigOf_ep (config : WorkerConfig) (n id : Nat) :
    (workerConfigOf config n id).ep = config.ep := by
  unfold workerConfigOf
  split <;> rfl

/-- **A turn of a worker.** -/
theorem turn_is_run {id : Nat} (hid : id < n) (host : Host) (w : Worker F) (sh : Shared) (ev : Event F)
    {p : Fleet} (hp : p.ceiling = sh.ceiling) (hdue : p.due id = none) :
    Climbs F config n p (iteration host (workerConfigOf config n id) id w sh ev).shared.ceiling := by
  have hwc := workerConfigOf_ep config n id
  generalize workerConfigOf config n id = wc at hwc ⊢
  have hdrain : Climbs F config n p (drainEnginePropagation host wc w sh ev.drained).2.ceiling := by
    unfold drainEnginePropagation
    cases w.models with
    | none => exact ⟨p, .refl, hp, rfl⟩
    | some q =>
      dsimp only
      split
      · rename_i hc
        exact drain_climbs (hwc ▸ hc.1) hid host q.1 ev.drained hp hdue
      · exact ⟨p, .refl, hp, rfl⟩
  obtain ⟨p1, hrun1, hc1, hdue1⟩ := hdrain
  have hmsg : Climbs F config n p1 (handleMsg host wc id (drainEnginePropagation host wc w sh ev.drained).1
      (drainEnginePropagation host wc w sh ev.drained).2 ev.msg).shared.ceiling := by
    generalize (drainEnginePropagation host wc w sh ev.drained).1 = w1
    generalize (drainEnginePropagation host wc w sh ev.drained).2 = sh1 at hc1 ⊢
    have hd : p1.due id = none := by rw [hdue1]; exact hdue
    cases ev.msg with
    | elapsed => exact ⟨p1, .refl, hc1, rfl⟩
    | closed =>
      unfold handleMsg
      dsimp only
      split <;> exact ⟨p1, .refl, hc1, rfl⟩
    | request req isClosed load env =>
      unfold handleMsg ensureModels
      cases w1.models with
      | some q => exact serve_climbs hid hwc host q.1 q.2 w1 sh1 req isClosed env hc1 hd
      | none =>
        cases load with
        | error e => exact ⟨p1, .refl, hc1, rfl⟩
        | ok m => exact serve_climbs hid hwc host m _ w1 _ req isClosed env hc1 hd
  obtain ⟨p2, hrun2, hc2, hdue2⟩ := hmsg
  exact ⟨p2, hrun1.trans hrun2, hc2, hdue2.trans hdue1⟩

/-- **The startup of a worker.** -/
theorem startup_is_run {id : Nat} (hid : id < n) (host : Host) (preLoadRss : Nat)
    (load : Except String (Models F)) (sh : Shared) {p : Fleet} (hp : p.ceiling = sh.ceiling)
    (hdue : p.due id = none) :
    Climbs F config n p
      (startupWorker host (workerConfigOf config n id) id preLoadRss load sh).2.ceiling := by
  rcases startupWorker_ceiling host (workerConfigOf config n id) id preLoadRss load sh with
    h | ⟨m, runs, hep, hne, h⟩
  · exact ⟨p, .refl, hp.trans h.symm, rfl⟩
  · rw [h, ← hp]
    rw [workerConfigOf_ep] at hep
    exact climbs_of_ran (a := .startup id host m.session runs) (if_pos ⟨hep, hne, hid, hdue⟩) hdue

/-! ## the ceiling is the length of a shape that ran -/

/-- no `fetch_max`, made or due, goes beyond the shapes that ran -/
structure Grounded (p : Fleet) : Prop where
  ceiling : p.ceiling ≤ topSeq p.warmed
  due : ∀ id v, p.due id = some v → v ≤ topSeq p.warmed

theorem grounded_ran {p : Fleet} {id : Nat} {stats : PrewarmStats} {v : Option Nat} (hi : Grounded p)
    (hv : ∀ x, v = some x → x ≤ topSeq stats.okShapes) : Grounded (p.ran id stats v) := by
  have htop : topSeq (p.ran id stats v).warmed = max (topSeq p.warmed) (topSeq stats.okShapes) :=
    topSeq_append _ _
  refine ⟨?_, fun j x hx => ?_⟩
  · rw [htop]
    exact le_max_of_le_left hi.ceiling
  · rw [htop]
    change Function.update p.due id v j = some x at hx
    rw [Function.update_apply] at hx
    split at hx
    · exact le_max_of_le_right (hv x hx)
    · exact le_max_of_le_left (hi.due j x hx)

theorem fleetStep_grounded {p p' : Fleet} {a : WarmAct F} (hi : Grounded p)
    (hs : fleetStep config n p a = some p') : Grounded p' := by
  cases a with
  | startup id host session runs =>
    dsimp only [fleetStep] at hs
    split at hs
    · cases hs
      refine grounded_ran hi fun x hx => ?_
      cases hx
      exact (trtPrewarm_spec session host _ runs).2.2.1.le
    · cases hs
  | single id shape host session runs =>
    dsimp only [fleetStep] at hs
    split at hs
    · cases hs
      exact grounded_ran hi fun x hx => singleRaise_le host session shape runs hx
    · cases hs
  | raise id =>
    obtain ⟨v, hv, rfl⟩ := Option.map_eq_some_iff.mp hs
    refine ⟨max_le hi.ceiling (hi.due id v hv), fun j x hx => ?_⟩
    change Function.update p.due id none j = some x at hx
    rw [Function.update_apply] at hx
    split at hx
    · cases hx
    · exact hi.due j x hx

theorem fleetRun_grounded {p p' : Fleet} (hi : Grounded p) (h : FleetRun F config n p p') : Grounded p' :=
  h.invariant hi fun _ _ _ hi _ hs => fleetStep_grounded hi hs

theorem grounded_start : Grounded Fleet.start := ⟨Nat.zero_le _, fun id v h => by cases h⟩

/-- the ceiling never falls -/
theorem fleetRun_ceiling {p p' : Fleet} (h : FleetRun F config n p p') : p.ceiling ≤ p'.ceiling := by
  refine h.invariant (I := fun q => p.ceiling ≤ q.ceiling) le_rfl fun q a q' hq _ hs => ?_
  cases a with
  | startup id host session runs =>
    dsimp only [fleetStep] at hs
    split at hs <;> cases hs
    exact hq
  | single id shape host session runs =>
    dsimp only [fleetStep] at hs
    split at hs <;> cases hs
    exact hq
  | raise id =>
    obtain ⟨v, -, rfl⟩ := Option.map_eq_some_iff.mp hs
    exact le_max_of_le_left hq

/-! ## the profile -/

/-- boxes around shapes that ran -/
def IsProfile (boxes : Set (NonemptyInterval Shape)) (warmed : List Shape) : Prop :=
  ∀ b ∈ boxes, ∃ s ss, (∀ t ∈ s :: ss, t ∈ warmed) ∧ b = hull s ss

def Covered (boxes : Set (NonemptyInterval Shape)) (s : Shape) : Prop := ∃ b ∈ boxes, s ∈ b

/-- one engine for every shape that ran -/
def oneEngine : List Shape → Set (NonemptyInterval Shape)
  | [] => ∅
  | s :: ss => {hull s ss}

/-- shapes that ran lie on both sides of the batch, and not above the sequence -/
structure Flanked (warmed : List Shape) (s : Shape) : Prop where
  fewer : ∃ t ∈ warmed, t.1 ≤ s.1
  more : ∃ t ∈ warmed, s.1 ≤ t.1
  shorter : ∃ t ∈ warmed, t.2 ≤ s.2

theorem isProfile_oneEngine (warmed : List Shape) : IsProfile (oneEngine warmed) warmed := by
  intro b hb
  cases warmed with
  | nil => cases hb
  | cons s ss => exact ⟨s, ss, fun t ht => ht, hb⟩

/-- no profile reaches beyond its shapes -/
theorem flanked_of_covered {boxes : Set (NonemptyInterval Shape)} {warmed : List Shape} {s : Shape}
    (hb : IsProfile boxes warmed) (h : Covered boxes s) : Flanked warmed s := by
  obtain ⟨b, hmem, hs⟩ := h
  obtain ⟨t, ts, hsub, rfl⟩ := hb b hmem
  obtain ⟨⟨t1, h1, e1⟩, ⟨t2, h2, e2⟩, ⟨t3, h3, e3⟩, -⟩ := mem_hull_iff.mp hs
  exact ⟨⟨t1, hsub t1 h1, e1⟩, ⟨t2, hsub t2 h2, e2⟩, ⟨t3, hsub t3 h3, e3⟩⟩

theorem covered_oneEngine {warmed : List Shape} {s : Shape} (hf : Flanked warmed s)
    (hs : s.2 ≤ topSeq warmed) : Covered (oneEngine warmed) s := by
  cases warmed with
  | nil => exact absurd hf.fewer (by simp)
  | cons t ts =>
    obtain ⟨u, hu, e⟩ := List.mem_map.mp (top_mem (l := (t :: ts).map Prod.snd) (by simp))
    refine ⟨_, rfl, mem_hull_iff.mpr ⟨hf.fewer, hf.more, hf.shorter, u, hu, ?_⟩⟩
    rw [e]
    exact hs

/-! ## what the guard admits -/

/-- the chunks of a request in the dangerous range, as the guard sees them -/
def dangerousShapes (guardSeq : Nat) (m : Models F) (cm : CostModel) (encs : List Encoding) : List Shape :=
  ((chunksOf m cm encs).map fun c => (c.length, chunkSeq (seqLens encs) c)).filter
    fun s => guardSeq ≤ s.2

/-- an admitted chunk in the dangerous range is not above the ceiling -/
theorem dangerous_le_ceiling {g : TrtJitGuard} {m : Models F} {cm : CostModel} {encs : List Encoding}
    (h : guardChunks (some g) (chunksOf m cm encs) (seqLens encs) = .ok ()) {s : Shape}
    (hs : s ∈ dangerousShapes g.guardSeq m cm encs) : s.2 ≤ g.warmedSeqCeiling := by
  obtain ⟨hmem, hseq⟩ := List.mem_filter.mp hs
  obtain ⟨c, hc, rfl⟩ := List.mem_map.mp hmem
  have hlt : ∀ d ∈ chunksOf m cm encs, ∀ i ∈ d, i < (seqLens encs).length :=
    fun d hd i hi => binPack_lt hd hi
  rw [guardChunks_eq g (seqLens encs) hlt] at h
  cases hf : (chunksOf m cm encs).find? fun c => g.refuses (chunkSeq (seqLens encs) c) with
  | some d =>
    rw [hf] at h
    cases h
  | none =>
    have hno := List.find?_eq_none.mp hf c hc
    rw [TrtJitGuard.refuses_iff] at hno
    have hseq' : g.guardSeq ≤ chunkSeq (seqLens encs) c := of_decide_eq_true hseq
    exact not_lt.mp fun hlt => hno ⟨hseq', hlt⟩

variable (config n) in
/-- **What the guard's admission is worth.**  The guard of a request is built at `p`, its chunks run at
`p'`.  With one engine for all that ran, the admitted chunks in the dangerous range are covered exactly
if they are flanked; no profile covers one that is not; and in any profile a box that reaches the
ceiling covers those in its batch range that are not below it. -/
theorem guard_covers_iff {p p' : Fleet} (hp : FleetRun F config n Fleet.start p)
    (hp' : FleetRun F config n p p') {g : TrtJitGuard} (hg : buildShapeGuard config p.ceiling = some g)
    (m : Models F) (cm : CostModel) (encs : List Encoding)
    (hadm : guardChunks (some g) (chunksOf m cm encs) (seqLens encs) = .ok ()) :
    ((∀ s ∈ dangerousShapes config.trtInbandJitGuardSeq m cm encs, Covered (oneEngine p'.warmed) s) ↔
      ∀ s ∈ dangerousShapes config.trtInbandJitGuardSeq m cm encs, Flanked p'.warmed s) ∧
    ∀ boxes, IsProfile boxes p'.warmed →
      ∀ s ∈ dangerousShapes config.trtInbandJitGuardSeq m cm encs,
        (Covered boxes s → Flanked p'.warmed s) ∧
        ((∃ b ∈ boxes, p.ceiling ≤ b.snd.2 ∧ b.fst.1 ≤ s.1 ∧ s.1 ≤ b.snd.1 ∧ b.fst.2 ≤ s.2) →
          Covered boxes s) := by
  have hgr : Grounded p' := fleetRun_grounded (fleetRun_grounded grounded_start hp) hp'
  obtain ⟨rfl⟩ : g = ⟨config.trtInbandJitGuardSeq, p.ceiling⟩ := by
    unfold buildShapeGuard at hg
    split at hg
    · exact (Option.some.inj hg).symm
    · cases hg
  have hle : ∀ s ∈ dangerousShapes config.trtInbandJitGuardSeq m cm encs, s.2 ≤ p.ceiling :=
    fun s hs => dangerous_le_ceiling hadm hs
  have htop : p.ceiling ≤ topSeq p'.warmed := (fleetRun_ceiling hp').trans hgr.ceiling
  refine ⟨⟨fun h s hs => ?_, fun h s hs => ?_⟩, fun boxes hb s hs => ⟨flanked_of_covered hb, ?_⟩⟩
  · exact flanked_of_covered (isProfile_oneEngine _) (h s hs)
  · exact covered_oneEngine (h s hs) ((hle s hs).trans htop)
  · rintro ⟨b, hbm, hreach, h1, h2, h3⟩
    exact ⟨b, hbm, NonemptyInterval.mem_def.mpr ⟨⟨h1, h3⟩, ⟨h2, (hle s hs).trans hreach⟩⟩⟩

end

/-! ## a tier that compiled for one text only -/

/-- two shapes of one tier to warm, and that tier guarded -/
def guarded : WorkerConfig := ⟨.tensorRt, .fp16, 5, false, false, true, 4, [(1, 4), (2, 4)], false⟩

/-- no engine for two texts -/
def narrowSession : Session Int where
  run h x := if x.ids.shape.headD 0 = 2 then ⟨.error "autotuner failed", 9⟩ else echoSession.run h x

/-- a worker prewarms its shard and raises the ceiling -/
def warmedUp (session : Session Int) : List (WarmAct Int) := [.startup 0 bareHost session [], .raise 0]

/-- two texts of four tokens in one chunk -/
def twoTexts : List Encoding := ["ab", "cd"].map charEncoding

/-- **One text of the tier compiled, two did not: the guard admits a chunk of two, and no profile
covers it.** -/
theorem guard_admits_uncovered :
    ∃ p, FleetRun Int guarded 1 Fleet.start p ∧ p.ceiling = 4 ∧
      guardChunks (buildShapeGuard guarded p.ceiling) (chunksOf echoModels ⟨1, 1, 100⟩ twoTexts)
        (seqLens twoTexts) = .ok () ∧
      (2, 4) ∈ dangerousShapes guarded.trtInbandJitGuardSeq echoModels ⟨1, 1, 100⟩ twoTexts ∧
      ∀ boxes, IsProfile boxes p.warmed → ¬ Covered boxes (2, 4) := by
  have hwarm : ∃ p, FleetRun Int guarded 1 Fleet.start p ∧ (p.ceiling = 4 ∧ p.warmed = [(1, 4)]) :=
    Reach.exists_of_run (warmedUp narrowSession) (fun _ _ _ => trivial) (by decide +kernel)
  obtain ⟨p, hrun, hc, hw⟩ := hwarm
  refine ⟨p, hrun, hc, ?_, by decide +kernel, fun boxes hb hcov => ?_⟩
  · rw [hc]
    decide +kernel
  · obtain ⟨t, ht, hle⟩ := (flanked_of_covered hb hcov).more
    rw [hw, List.mem_singleton] at ht
    subst ht
    exact absurd hle (by decide)

/-- both compiled: the chunk of two is covered -/
theorem guard_covers_iff_bothWarm :
    ∃ p, FleetRun Int guarded 1 Fleet.start p ∧
      (2, 4) ∈ dangerousShapes guarded.trtInbandJitGuardSeq echoModels ⟨1, 1, 100⟩ twoTexts ∧
      ∀ s ∈ dangerousShapes guarded.trtInbandJitGuardSeq echoModels ⟨1, 1, 100⟩ twoTexts,
        Covered (oneEngine p.warmed) s := by
  have hwarm : ∃ p, FleetRun Int guarded 1 Fleet.start p ∧
      (p.ceiling = 4 ∧ p.warmed = [(1, 4), (2, 4)]) :=
    Reach.exists_of_run (warmedUp echoSession) (fun _ _ _ => trivial) (by decide +kernel)
  obtain ⟨p, hrun, hc, hw⟩ := hwarm
  have hg : buildShapeGuard guarded p.ceiling = some ⟨4, 4⟩ := by rw [hc]; decide
  refine ⟨p, hrun, by decide +kernel, ?_⟩
  refine (guard_covers_iff guarded 1 hrun .refl hg echoModels ⟨1, 1, 100⟩ twoTexts (by decide +kernel)).1.mpr ?_
  have hd : dangerousShapes guarded.trtInbandJitGuardSeq echoModels ⟨1, 1, 100⟩ twoTexts = [(2, 4)] := by
    decide +kernel
  intro s hs
  rw [hd, List.mem_singleton] at hs
  subst hs
  rw [hw]
  exact ⟨⟨(1, 4), by simp, by decide⟩, ⟨(2, 4), by simp, by decide⟩, ⟨(1, 4), by simp, by decide⟩⟩

end EmbedServer
