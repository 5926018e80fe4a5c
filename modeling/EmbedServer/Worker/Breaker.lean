import EmbedServer.Embed.Locality
import EmbedServer.Worker.Run

/-!
# The circuit breaker over whole runs of a worker

A run is a list of turns of the request loop, newest first.  `failuresSince` reads off the turns what
the failure counter should be: the counted failures since the last success or trip.  The counter is
that number, stays below the threshold and trips exactly at it, as long as no probe or adaptive warmup
is dispatched while failures are counted (`breaker_exact`); such a request resets the counter
although it runs no embed call (`warmup_forgets_failures`).
-/

set_option linter.unusedSectionVars false

namespace EmbedServer

section
variable {F : Type} [F32Ops F]

/-! ## what a turn shows -/

/-- an embed call succeeded -/
def Iteration.succeeded (it : Iteration F) : Bool :=
  match it.embedded with
  | some none => true
  | _ => false

/-- an embed call failed, neither refused nor fatal -/
def Iteration.failed (it : Iteration F) : Bool :=
  match it.embedded with
  | some (some e) => !isTrtEngineBuildFatal e && !isTrtShapeRejected e
  | _ => false

/-- the session was dropped after an embed call -/
def Iteration.tripped (it : Iteration F) : Bool := it.embedded.isSome && it.worker.models.isNone

/-- counted failures since the last success or trip, newest turn first -/
def failuresSince : List (Iteration F) → Nat
  | [] => 0
  | it :: older =>
    if it.succeeded || it.tripped then 0 else (if it.failed then 1 else 0) + failuresSince older

/-! ## one turn -/

variable (host : Host) (config : WorkerConfig) (id : Nat)

/-- how a turn moves the counter `n` to `n'`; `other` says that a probe or a warmup was dispatched -/
inductive Moves (config : WorkerConfig) (other : Prop) (n n' : Nat) (it : Iteration F) : Prop
  /-- nothing was dispatched, or the request was skipped -/
  | idle (ho : ¬ other) (he : it.embedded = none) (hn : n' = n)
  /-- no embed call, but the counter is reset -/
  | reset (ho : other) (he : it.embedded = none) (hn : n' = 0)
  /-- an embed call -/
  | call (ho : ¬ other) (err : Option AnyError) (he : it.embedded = some err)
      (hn : n' = nextConsecutiveFailures (outcomeOfCall err n config.circuitBreakerThreshold) n)
      (ht : it.worker.models = none ↔
        outcomeOfCall err n config.circuitBreakerThreshold = .circuitBreak)
  | panicked (he : it.embedded = none) (hn : n' = n) (hp : it.next = .panicked)

theorem afterDispatch_moves {m : Models F} {w : Worker F} {sh : Shared} {req : EmbedRequest}
    {isClosed : Bool} {d : Desk} {reply : Option (Reply F)} {out : DispatchOutcome}
    (h : Dispatched config w.consecutiveFailures req isClosed (.ok (reply, out))) :
    Moves config (req.embedTexts = none) w.consecutiveFailures
      (afterDispatch m w sh reply out d).worker.consecutiveFailures (afterDispatch m w sh reply out d) := by
  have hsome : req.embedTexts.isSome = true → ¬ req.embedTexts = none := by
    intro h1 h2
    rw [h2] at h1
    cases h1
  cases h with
  | skipped hreq hc => exact .idle (hsome hreq) rfl rfl
  | @called hreq hc reply err hr =>
    refine .call (hsome hreq) err (by rw [(afterDispatch_keeps ..).embedded, Option.bind_some, hr]) ?_ ?_
    · unfold afterDispatch
      simp only [Bool.false_eq_true, if_false]
      split
      · rfl
      · split <;> rfl
    · unfold afterDispatch
      simp only [Bool.false_eq_true, if_false]
      split
      · rename_i hf
        simp [hf]
      · split
        · rename_i hu
          simpa [shouldUnloadOnOutcome] using hu
        · rename_i hu
          simpa [shouldUnloadOnOutcome] using hu
  | @other hreq reply hr =>
    exact .reset hreq (by rw [(afterDispatch_keeps ..).embedded, Option.bind_some, hr]) rfl

theorem serve_moves (m : Models F) (runs : Trace) (w : Worker F) (sh : Shared) (req : EmbedRequest)
    (isClosed : Bool) (env : Env) :
    Moves config (req.embedTexts = none) w.consecutiveFailures
      (serve host config id m runs w sh req isClosed env).worker.consecutiveFailures
      (serve host config id m runs w sh req isClosed env) := by
  unfold serve
  have hd := dispatch_cases host config id m env w.consecutiveFailures
    (buildShapeGuard config sh.ceiling) req isClosed (deskOf runs w sh)
  split
  · rename_i reply out d heq
    rw [heq] at hd
    exact afterDispatch_moves config hd
  · exact .panicked rfl rfl rfl
  · exact .panicked rfl rfl rfl

/-- the turn dispatches a probe or a warmup on a session -/
def OtherDispatched (w : Worker F) (msg : Msg F) : Prop :=
  ∃ req isClosed load env, msg = .request req isClosed load env ∧ req.embedTexts = none ∧
    (w.models.isSome ∨ ∃ m, load = .ok m)

theorem handleMsg_moves (w : Worker F) (sh : Shared) (msg : Msg F) :
    Moves config (OtherDispatched w msg) w.consecutiveFailures
      (handleMsg host config id w sh msg).worker.consecutiveFailures
      (handleMsg host config id w sh msg) := by
  cases msg with
  | elapsed => exact .idle (by rintro ⟨_, _, _, _, h, -⟩; cases h) rfl rfl
  | closed => exact .idle (by rintro ⟨_, _, _, _, h, -⟩; cases h) rfl rfl
  | request req isClosed load env =>
    unfold handleMsg
    dsimp only
    cases hm : ensureModels host w sh load with
    | ok v =>
      obtain ⟨m, runs, sh'⟩ := v
      have hiff : (req.embedTexts = none) = OtherDispatched w (.request req isClosed load env) := by
        refine propext ⟨fun h => ⟨req, isClosed, load, env, rfl, h, ?_⟩, ?_⟩
        · unfold ensureModels at hm
          split at hm
          · rename_i p hp
            exact .inl (by rw [hp]; rfl)
          · split at hm
            · exact .inr ⟨_, rfl⟩
            · cases hm
        · rintro ⟨_, _, _, _, h, hreq, -⟩
          cases h
          exact hreq
      rw [← hiff]
      exact serve_moves host config id m runs w sh' req isClosed env
    | error e =>
      refine .idle ?_ rfl rfl
      rintro ⟨_, _, _, _, h, -, hav⟩
      cases h
      unfold ensureModels at hm
      split at hm
      · cases hm
      · rename_i hnone
        rcases hav with hav | ⟨m, rfl⟩
        · rw [hnone] at hav
          cases hav
        · cases hm

/-- draining changes neither the counter nor whether there is a session -/
theorem drain_counter (w : Worker F) (sh : Shared) (shapes : List Shape) :
    (drainEnginePropagation host config w sh shapes).1.consecutiveFailures = w.consecutiveFailures ∧
    (drainEnginePropagation host config w sh shapes).1.models.isSome = w.models.isSome := by
  unfold drainEnginePropagation
  split
  · rename_i m runs hm
    split
    · exact ⟨rfl, by rw [hm]; rfl⟩
    · exact ⟨rfl, rfl⟩
  · exact ⟨rfl, rfl⟩

theorem iteration_moves (w : Worker F) (sh : Shared) (ev : Event F) :
    Moves config (OtherDispatched w ev.msg) w.consecutiveFailures
      (iteration host config id w sh ev).worker.consecutiveFailures
      (iteration host config id w sh ev) := by
  obtain ⟨hcf, hm⟩ := drain_counter host config w sh ev.drained
  have h := handleMsg_moves host config id (drainEnginePropagation host config w sh ev.drained).1
    (drainEnginePropagation host config w sh ev.drained).2 ev.msg
  have hother : OtherDispatched (drainEnginePropagation host config w sh ev.drained).1 ev.msg =
      OtherDispatched w ev.msg := by
    unfold OtherDispatched
    rw [hm]
  rw [hother, hcf] at h
  exact h

/-! ## runs -/

/-- one turn: the worker and the shared state before it, and what it met -/
structure Turn (F : Type) where
  before : Worker F
  shared : Shared
  event : Event F

def Turn.result (t : Turn F) : Iteration F := iteration host config id t.before t.shared t.event

/-- the worker after some turns, newest first -/
def workerAfter (start : Worker F) : List (Turn F) → Worker F
  | [] => start
  | t :: _ => (t.result host config id).worker

/-- each turn starts where the one before it ended; what is shared may have changed in between -/
def IsRun (start : Worker F) : List (Turn F) → Prop
  | [] => True
  | t :: older => IsRun start older ∧ t.before = workerAfter host config id start older ∧
      ∀ u ∈ older.head?, (u.result host config id).next = .again

/-- the counter is the failures since the last success or trip, below the threshold; the latest turn
tripped exactly at the threshold, and left the counter alone if it made no embed call -/
def CountsExactly (start : Worker F) (ts : List (Turn F)) : Prop :=
  (workerAfter host config id start ts).consecutiveFailures =
    failuresSince (ts.map (Turn.result host config id)) ∧
  (workerAfter host config id start ts).consecutiveFailures < config.circuitBreakerThreshold ∧
  ∀ t older, ts = t :: older →
    ((t.result host config id).tripped = true ↔ (t.result host config id).failed = true ∧
      failuresSince (older.map (Turn.result host config id)) + 1 = config.circuitBreakerThreshold) ∧
    ((t.result host config id).embedded = none →
      (t.result host config id).worker.consecutiveFailures = t.before.consecutiveFailures)

/-- a probe or a warmup is dispatched while failures are counted -/
def Turn.Forgets (t : Turn F) : Prop :=
  0 < t.before.consecutiveFailures ∧ OtherDispatched t.before t.event.msg

/-- an embed call, by its error -/
theorem call_exact {it : Iteration F} {err : Option AnyError} {n T : Nat} (hn : n < T)
    (he : it.embedded = some err)
    (ht : it.worker.models = none ↔ outcomeOfCall err n T = .circuitBreak)
    (hw : it.worker.consecutiveFailures = nextConsecutiveFailures (outcomeOfCall err n T) n) :
    it.worker.consecutiveFailures < T ∧
    it.worker.consecutiveFailures =
      (if it.succeeded || it.tripped then 0 else (if it.failed then 1 else 0) + n) ∧
    (it.tripped = true ↔ it.failed = true ∧ n + 1 = T) := by
  have htrip : it.tripped = true ↔ outcomeOfCall err n T = .circuitBreak := by
    rw [← ht, Iteration.tripped, he]
    simp
  have htrip' : it.tripped = decide (outcomeOfCall err n T = .circuitBreak) := by
    rw [Bool.eq_iff_iff, htrip, decide_eq_true_eq]
  cases err with
  | none =>
    have hs : it.succeeded = true := by rw [Iteration.succeeded, he]
    have hf : it.failed = false := by rw [Iteration.failed, he]
    rw [hw, htrip', hs, hf]
    simp [outcomeOfCall, nextConsecutiveFailures]
    omega
  | some e =>
    have hs : it.succeeded = false := by rw [Iteration.succeeded, he]
    have hf : it.failed = (!isTrtEngineBuildFatal e && !isTrtShapeRejected e) := by
      rw [Iteration.failed, he]
    cases hfatal : isTrtEngineBuildFatal e with
    | true =>
      have ho : outcomeOfCall (some e) n T = .trtFatal := by
        simp [outcomeOfCall, classifyInferenceOutcome, hfatal]
      rw [hw, htrip', hs, hf, ho, hfatal]
      simp [nextConsecutiveFailures, hn]
    | false =>
      cases hrej : isTrtShapeRejected e with
      | true =>
        have ho : outcomeOfCall (some e) n T = .rejected := by
          simp [outcomeOfCall, classifyInferenceOutcome, hfatal, hrej]
        rw [hw, htrip', hs, hf, ho, hfatal, hrej]
        simp [nextConsecutiveFailures, hn]
      | false =>
        by_cases hT : n + 1 ≥ T
        · have ho : outcomeOfCall (some e) n T = .circuitBreak := by
            simp [outcomeOfCall, classifyInferenceOutcome, hfatal, hrej, hT]
          rw [hw, htrip', hs, hf, ho, hfatal, hrej]
          simp [nextConsecutiveFailures]
          omega
        · have ho : outcomeOfCall (some e) n T = .failure := by
            simp [outcomeOfCall, classifyInferenceOutcome, hfatal, hrej, hT]
          rw [hw, htrip', hs, hf, ho, hfatal, hrej]
          simp [nextConsecutiveFailures]
          omega

/-- one more turn -/
theorem countsExactly_cons {start : Worker F} {t : Turn F} {older : List (Turn F)}
    (h : CountsExactly host config id start older)
    (hb : t.before = workerAfter host config id start older) (hc : ¬ t.Forgets) :
    CountsExactly host config id start (t :: older) := by
  obtain ⟨hcount, hlt, -⟩ := h
  rw [← hb] at hcount hlt
  -- without an embed call the turn shows nothing and the counter stays
  have hidle : (t.result host config id).embedded = none →
      (t.result host config id).worker.consecutiveFailures = t.before.consecutiveFailures →
      CountsExactly host config id start (t :: older) := by
    intro he hn
    have hs : (t.result host config id).succeeded = false := by rw [Iteration.succeeded, he]
    have hf : (t.result host config id).failed = false := by rw [Iteration.failed, he]
    have htr : (t.result host config id).tripped = false := by rw [Iteration.tripped, he]; rfl
    refine ⟨?_, ?_, ?_⟩
    · rw [List.map_cons, failuresSince, hs, htr, hf]
      simpa [workerAfter, hn] using hcount
    · simpa [workerAfter, hn] using hlt
    · rintro _ _ ⟨⟩
      refine ⟨by simp [htr, hf], fun _ => hn⟩
  have hm := iteration_moves host config id t.before t.shared t.event
  change Moves config _ _ (t.result host config id).worker.consecutiveFailures
    (t.result host config id) at hm
  cases hm with
  | idle _ he hn => exact hidle he hn
  | panicked he hn _ => exact hidle he hn
  | reset ho he hn =>
    have h0 : t.before.consecutiveFailures = 0 := by
      by_contra hne
      exact hc ⟨Nat.pos_of_ne_zero hne, ho⟩
    exact hidle he (hn.trans h0.symm)
  | call _ err he hn ht =>
    obtain ⟨h1, h2, h3⟩ := call_exact hlt he ht hn
    refine ⟨?_, h1, ?_⟩
    · rw [List.map_cons, failuresSince, ← hcount]
      exact h2
    · rintro _ _ ⟨⟩
      refine ⟨by rw [← hcount]; exact h3, fun hnone => ?_⟩
      rw [he] at hnone
      cases hnone

/-- a turn that forgets and does not panic breaks the count -/
theorem not_countsExactly_cons {start : Worker F} {t : Turn F} {older : List (Turn F)}
    (hc : t.Forgets) (hp : (t.result host config id).next ≠ .panicked) :
    ¬ CountsExactly host config id start (t :: older) := by
  rintro ⟨-, -, hlast⟩
  obtain ⟨-, hkeep⟩ := hlast t older rfl
  have hm := iteration_moves host config id t.before t.shared t.event
  change Moves config _ _ (t.result host config id).worker.consecutiveFailures
    (t.result host config id) at hm
  cases hm with
  | idle ho _ _ => exact ho hc.2
  | call ho _ _ _ _ => exact ho hc.2
  | panicked _ _ h => exact hp h
  | reset _ he hn =>
    have := hkeep he
    have := hc.1
    omega

/-- **The breaker counts exactly, as long as no probe or warmup is dispatched while failures are
counted.**  In a run without such a turn the counter is exact after every turn; a turn of that kind
that does not panic leaves it wrong. -/
theorem breaker_exact (hT : 1 ≤ config.circuitBreakerThreshold) {start : Worker F}
    (h0 : start.consecutiveFailures = 0) {ts : List (Turn F)} (hr : IsRun host config id start ts) :
    ((∀ t ∈ ts, ¬ t.Forgets) → ∀ us, us <:+ ts → CountsExactly host config id start us) ∧
    (∀ t older, t :: older <:+ ts → t.Forgets → (t.result host config id).next ≠ .panicked →
      ¬ CountsExactly host config id start (t :: older)) := by
  refine ⟨fun hc => ?_, fun t older _ hf hp => not_countsExactly_cons host config id hf hp⟩
  induction ts with
  | nil =>
    intro us hus
    rw [List.suffix_nil.mp hus]
    refine ⟨by simp [workerAfter, failuresSince, h0], ?_, by simp⟩
    show start.consecutiveFailures < _
    omega
  | cons t older ih =>
    intro us hus
    obtain ⟨hr', hb, -⟩ := hr
    have ih' := ih hr' fun u hu => hc u (List.mem_cons_of_mem _ hu)
    rcases List.suffix_cons_iff.mp hus with rfl | hus
    · exact countsExactly_cons host config id (ih' older (List.suffix_refl _)) hb
        (hc t List.mem_cons_self)
    · exact ih' us hus

end

/-! ## a forgotten failure -/

/-- nothing on disk, no memory readings -/
def bareHost : Host := ⟨fun _ => 0, fun _ => 0, fun _ => none⟩

/-- a CPU worker that trips at the second failure -/
def twoStrikes : WorkerConfig := ⟨.cpu, .fp16, 2, false, false, false, 0, [], true⟩

/-- every run fails -/
def brokenModels : Models Int :=
  { echoModels with session := ⟨fun _ _ => ⟨.error "CUDA failure 700", 3⟩⟩ }

def freshWorker : Worker Int := ⟨some (brokenModels, []), 0, []⟩

def quietShared : Shared := ⟨1, 0, [], [], []⟩

/-- a dense request that fails -/
def failingTurn : Turn Int :=
  ⟨freshWorker, quietShared,
    ⟨[], .request (.dense ["a"]) false (.error "not needed") ⟨⟨1, 1, 100⟩, true⟩⟩⟩

/-- then an adaptive warmup -/
def warmupTurn : Turn Int :=
  ⟨(failingTurn.result bareHost twoStrikes 0).worker, quietShared,
    ⟨[], .request (.adaptiveWarmup 1 8) false (.error "not needed") ⟨⟨1, 1, 100⟩, true⟩⟩⟩

theorem failingTurn_counts :
    (failingTurn.result bareHost twoStrikes 0).worker.consecutiveFailures = 1 ∧
    (failingTurn.result bareHost twoStrikes 0).worker.models.isSome = true ∧
    (failingTurn.result bareHost twoStrikes 0).next = .again := by
  decide +kernel

/-- one failure, then a warmup: the counter is back at zero with the failure still standing -/
theorem warmup_forgets_failures :
    1 ≤ twoStrikes.circuitBreakerThreshold ∧ freshWorker.consecutiveFailures = 0 ∧
    IsRun bareHost twoStrikes 0 freshWorker [warmupTurn, failingTurn] ∧
    (workerAfter bareHost twoStrikes 0 freshWorker [warmupTurn, failingTurn]).consecutiveFailures = 0 ∧
    failuresSince [warmupTurn.result bareHost twoStrikes 0, failingTurn.result bareHost twoStrikes 0] = 1 ∧
    ¬ CountsExactly bareHost twoStrikes 0 freshWorker [warmupTurn, failingTurn] := by
  obtain ⟨h1, h2, h3⟩ := failingTurn_counts
  refine ⟨by decide, rfl, ⟨⟨trivial, rfl, by simp⟩, rfl, ?_⟩, by decide +kernel, by decide +kernel, ?_⟩
  · intro u hu
    cases hu
    exact h3
  · refine not_countsExactly_cons bareHost twoStrikes 0 ⟨?_, ?_⟩ (by decide +kernel)
    · unfold warmupTurn
      rw [h1]
      decide
    · exact ⟨_, _, _, _, rfl, rfl, .inl h2⟩

/-- the failing request alone is counted -/
theorem breaker_exact_failingTurn :
    CountsExactly bareHost twoStrikes 0 freshWorker [failingTurn] := by
  have hrun : IsRun bareHost twoStrikes 0 freshWorker [failingTurn] := ⟨trivial, rfl, by simp⟩
  refine (breaker_exact bareHost twoStrikes 0 (by decide) rfl hrun).1 ?_ _ (List.suffix_refl _)
  intro t ht hf
  rw [List.mem_singleton.mp ht] at hf
  exact absurd hf.1 (by decide)

end EmbedServer
