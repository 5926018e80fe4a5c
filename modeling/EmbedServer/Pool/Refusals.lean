import EmbedServer.Pool.Callers
import EmbedServer.Pool.Propagation
import EmbedServer.Worker.Refusal

/-!
# Refusals in a running pool (`jit_guard.rs`, `worker/run.rs`, `worker/dispatch.rs`)

The guard of a request is built from the ceiling of its moment, and the ceiling only grows.  So what some
worker covers once is refused by none later.

* `RefusalCause`, `dispatch_refusal` a refusal says that the guard saw an uncovered text;
* `ceiling_step`      no step lowers the ceiling;
* `Follows`           what a step can give a worker: models and a reply;
* `Grounded`          what a refusal rests on, in terms of the ceiling of an earlier state;
* `refusals_shrink`   over runs.
-/

set_option linter.unusedSectionVars false

namespace EmbedServer

section
variable {F : Type} [F32Ops F]

/-! ## where a refusal comes from -/

/-- what a refusal rests on -/
def RefusalCause (guard : Option TrtJitGuard) (t : Tokenizer) (texts : List String) : Prop :=
  ∃ g encs, guard = some g ∧ t.encodeBatchFast texts = .ok encs ∧ Uncovered g (seqLens encs)

open Outcome (errIn_ok errIn_err)

theorem errIn_tokenizeNoPad (t : Tokenizer) (texts : List String) :
    (tokenizeNoPad t texts).ErrIn NotRefusal := by
  unfold tokenizeNoPad
  cases t.encodeBatchFast texts with
  | ok encs => exact errIn_ok encs
  | error e => exact errIn_err (notRefusal_msg _)

section
variable {m : Models F} {texts : List String} {guard : Option TrtJitGuard}

/-- without a cause the guard lets every chunk pass -/
theorem guardChunks_pass (h : ¬RefusalCause guard m.tokenizer texts) {encs : List Encoding}
    (ht : tokenizeNoPad m.tokenizer texts = .ok encs) (cm : CostModel) :
    guardChunks guard (chunksOf m cm encs) (seqLens encs) = .ok () := by
  cases guard with
  | none => rfl
  | some g =>
    have hu : ¬Uncovered g (seqLens encs) := fun hu => h ⟨g, encs, rfl, tokenizeNoPad_ok ht, hu⟩
    exact (guardChunks_binPack g (seqLens encs) m.sort cm).2 hu

/-- tokenize, let the guard look, run: without a cause no error is a refusal -/
theorem lenient_prelude {γ : Type} {k : List Encoding → Exec Trace AnyError γ} (cm : CostModel)
    (hk : ∀ encs, (k encs).ErrIn NotRefusal) (h : ¬RefusalCause guard m.tokenizer texts) :
    (Exec.lift (tokenizeNoPad m.tokenizer texts) >>= fun encs =>
      Exec.lift ((guardChunks guard (chunksOf m cm encs) (seqLens encs)).mapErr AnyError.ofRejection) >>=
        fun _ => k encs).ErrIn NotRefusal := by
  refine Exec.errIn_lift_bind (errIn_tokenizeNoPad _ _) fun encs ht => ?_
  rw [guardChunks_pass h ht cm]
  exact hk encs

variable (variant : ModelVariant) (cm : CostModel) (h : ¬RefusalCause guard m.tokenizer texts)
include h

theorem embedDense_lenient : (embedDense m texts cm variant guard).ErrIn NotRefusal :=
  lenient_prelude cm (fun encs =>
    (Exec.errIn_foldlM (errIn_denseChunk m variant encs _) (chunksOf m cm encs) _).bind fun _ =>
      Exec.errIn_pure _) h

theorem embedSparse_lenient : (embedSparse m texts cm variant guard).ErrIn NotRefusal :=
  lenient_prelude cm (fun encs =>
    (Exec.errIn_foldlM (errIn_sparseChunk m variant encs _) (chunksOf m cm encs) _).bind fun _ =>
      (Exec.errIn_lift (Outcome.errIn_mapM (fun _ => Outcome.errIn_expect _ _) _)).bind fun _ =>
        Exec.errIn_pure _) h

theorem embedBoth_lenient : (embedBoth m texts cm variant guard).ErrIn NotRefusal :=
  lenient_prelude cm (fun encs =>
    (Exec.errIn_foldlM (errIn_bothChunk m variant encs _) (chunksOf m cm encs) _).bind fun _ =>
      (Exec.errIn_lift (Outcome.errIn_mapM (fun _ => Outcome.errIn_expect _ _) _)).bind fun _ =>
        Exec.errIn_pure _) h

end

theorem errIn_probeRunDense (session : Session F) (host : Host) (x : ChunkArrays) :
    (probeRunDense session host x).ErrIn NotRefusal := by
  intro s e s' h
  unfold probeRunDense at h
  dsimp only at h
  split at h
  · split at h
    · cases h
    · rename_i hr
      cases h
      exact errIn_runSession session x s _ _ hr
    · cases h
  · rename_i hm
    cases h
    exact errIn_tensorRef _ _ hm
  · cases h
  · rename_i hi
    cases h
    exact errIn_tensorRef _ _ hi
  · cases h

theorem errIn_runProbeBatch (m : Models F) (host : Host) (texts : List String) :
    (runProbeBatch m host texts).ErrIn NotRefusal :=
  (Exec.errIn_lift (errIn_tokenizeNoPad _ _)).bind fun _ =>
    (Exec.errIn_lift (errIn_buildChunkArrays _ _ _)).bind fun _ => errIn_probeRunDense _ _ _

theorem not_uncovered_nil (g : TrtJitGuard) : ¬Uncovered g [] := by
  intro hu
  obtain ⟨l, hl, -⟩ := hu
  cases hl

/-- a call whose errors are no refusals, under a guard that looks at nothing -/
theorem guardDecides_of_lenient {γ : Type} {f : CostModel → Exec Trace AnyError γ}
    (h : ∀ cm, (f cm).ErrIn NotRefusal) : GuardDecides ⟨0, 0⟩ [] f where
  refused hu := absurd hu (not_uncovered_nil _)
  admitted _ := h

section
variable {m : Models F} {host : Host} {config : WorkerConfig} {id cf : Nat} {env : Env}
  {guard : Option TrtJitGuard} {req : EmbedRequest} {isClosed : Bool} {d d' : Desk} {reply : Reply F}
  {out : DispatchOutcome} {e : AnyError}

theorem dispatchEmbed_refusal {γ : Type} {texts : List String}
    {f : CostModel → Exec Trace AnyError (γ × EmbedStats)} {text : String}
    {toReply : Except AnyError (γ × EmbedStats) → Reply F} {n : Nat}
    (hf : ¬RefusalCause guard m.tokenizer texts → ∀ cm, (f cm).ErrIn NotRefusal)
    (hr : ∀ r, (toReply r).error? = match r with | .error e => some e | .ok _ => none)
    (h : dispatchEmbed f text toReply config env cf n isClosed d = (.ok (some reply, out), d'))
    (he : reply.error? = some e) (hrej : isTrtShapeRejected e = true) :
    RefusalCause guard m.tokenizer texts := by
  by_contra hno
  cases isClosed with
  | true => cases h
  | false =>
    have hadm := dispatchEmbed_admitted config env cf n toReply (guardDecides_of_lenient (hf hno))
      (not_uncovered_nil _) text hr d h he
    rw [hadm] at hrej
    cases hrej

/-- **a refusal has a cause**: the request is an embed request, and its guard saw an uncovered text -/
theorem dispatch_refusal
    (h : dispatchRequest m host config id env cf guard req isClosed d = (.ok (some reply, out), d'))
    (he : reply.error? = some e) (hrej : isTrtShapeRejected e = true) :
    ∃ texts, req.embedTexts = some texts ∧ RefusalCause guard m.tokenizer texts := by
  cases req with
  | dense texts =>
    exact ⟨texts, rfl, dispatchEmbed_refusal (fun hno cm => embedDense_lenient _ cm hno)
      (fun r => by cases r <;> rfl) h he hrej⟩
  | sparse texts =>
    exact ⟨texts, rfl, dispatchEmbed_refusal (fun hno cm => embedSparse_lenient _ cm hno)
      (fun r => by cases r <;> rfl) h he hrej⟩
  | both texts =>
    exact ⟨texts, rfl, dispatchEmbed_refusal (fun hno cm => embedBoth_lenient _ cm hno)
      (fun r => by cases r <;> rfl) h he hrej⟩
  | probe texts =>
    unfold dispatchRequest at h
    dsimp only at h
    split at h
    · cases h
      cases he
    · rename_i e' runs hp
      cases h
      cases he
      have hno := errIn_runProbeBatch m host texts _ _ _ hp
      rw [NotRefusal, hrej] at hno
      cases hno
    · cases h
  | adaptiveWarmup b s =>
    unfold dispatchRequest adaptiveWarmup at h
    dsimp only at h
    split at h
    · split at h
      · cases h
        cases he
      · cases h
        cases he
        cases hrej
    · cases h
      cases he

end
end

namespace Pool

section
variable {F : Type} [F32Ops F]

/-! ## the ceiling only grows -/

theorem le_fetchMax (c : Nat) (v : Option Nat) : c ≤ fetchMax c v := by
  cases v with
  | none => exact Nat.le_refl c
  | some v => exact Nat.le_max_left c v

theorem startup_ceiling {host : Host} {config : WorkerConfig} {id preLoadRss : Nat}
    {load : Except String (Models F)} {sh sh' : Shared} {out : StartupOutcome F}
    (h : startupWorker host config id preLoadRss load sh = (out, sh')) : sh.ceiling ≤ sh'.ceiling := by
  have hc := startupWorker_ceiling host config id preLoadRss load sh
  rw [h] at hc
  rcases hc with hc | ⟨m, runs, -, -, hc⟩
  · exact Nat.le_of_eq hc.symm
  · have hc : sh'.ceiling = _ := hc
    rw [hc]
    exact le_fetchMax _ _

theorem drain_fold_ceiling (host : Host) (m : Models F) (shapes : List Shape) (st : DrainState) :
    st.ceiling ≤ (shapes.foldl (drainStep host m) st).ceiling := by
  induction shapes generalizing st with
  | nil => exact Nat.le_refl _
  | cons shape shapes ih =>
    rw [List.foldl_cons]
    refine Nat.le_trans ?_ (ih _)
    rw [drainStep_ceiling]
    split
    · exact Nat.le_refl _
    · exact le_fetchMax _ _

theorem drain_ceiling {host : Host} {config : WorkerConfig} {wk wk' : Worker F} {sh sh' : Shared}
    {shapes : List Shape} (h : drainEnginePropagation host config wk sh shapes = (wk', sh')) :
    sh.ceiling ≤ sh'.ceiling := by
  unfold drainEnginePropagation at h
  split at h
  · rename_i m runs hm
    split at h
    · cases h
      exact drain_fold_ceiling host m shapes ⟨runs, wk.warmedLocal, sh.ceiling⟩
    · cases h
      exact Nat.le_refl _
  · cases h
    exact Nat.le_refl _

theorem dispatch_ceiling_le (m : Models F) (host : Host) (config : WorkerConfig) (id : Nat) (env : Env)
    (cf : Nat) (guard : Option TrtJitGuard) (req : EmbedRequest) (isClosed : Bool) (d : Desk) :
    d.ceiling ≤ (dispatchRequest m host config id env cf guard req isClosed d).2.ceiling := by
  rw [dispatch_ceiling]
  cases req with
  | adaptiveWarmup batch seq =>
    dsimp only
    rw [adaptiveWarmup_ceiling]
    split
    · exact le_fetchMax _ _
    · exact Nat.le_refl _
  | dense texts => exact Nat.le_refl _
  | sparse texts => exact Nat.le_refl _
  | both texts => exact Nat.le_refl _
  | probe texts => exact Nat.le_refl _

variable {p : Setup} {s t : System F} {a : Act F}

theorem ceiling_step (h : step p s a = some t) : s.shared.ceiling ≤ t.shared.ceiling := by
  have exit {u : System F} {w : Nat} {how : Joined} (hu : s.shared.ceiling ≤ u.shared.ceiling) :
      s.shared.ceiling ≤ (u.exitWorker p w how).shared.ceiling := by
    rw [System.exitWorker, System.closeIfLast_shared]
    exact hu
  have done {u : System F} {r : Except AnyError Unit} (hu : s.shared.ceiling ≤ u.shared.ceiling) :
      s.shared.ceiling ≤ (u.finishInit p r).shared.ceiling := by
    rw [System.finishInit, System.closeIfLast_shared]
    exact hu
  have same : s.shared.ceiling ≤ s.shared.ceiling := Nat.le_refl _
  by_cases hdisp : ∃ w env, a = .dispatch w env
  · obtain ⟨w, env, rfl⟩ := hdisp
    obtain ⟨id, m, runs, tk, ph, hp, hm, hb, rfl⟩ := dispatch_eq h
    exact dispatch_ceiling_le m p.host (p.configOf w) w env (s.workers w).worker.consecutiveFailures
      (buildShapeGuard (p.configOf w) s.shared.ceiling) tk.req (!tk.isOpen)
      (deskOf runs (s.workers w).worker s.shared)
  · cases step_cases h with
    | @counted k delta hi =>
      unfold countWorker
      dsimp only
      split
      · exact same
      · exact done (u := { { s.addLoaded with rssDeltas := s.rssDeltas ++ [delta] } with
          modelRss := medianUsize (s.rssDeltas ++ [delta]) }) same
    | @heardError k e rest hi hc => exact done (u := { s with readyCh := rest }) same
    | joined hi hp => exact done same
    | @started w preLoadRss load out sh hp ho =>
      have hsh := startup_ceiling ho
      cases out with
      | ready wk delta => exact hsh
      | loadFailed e => exact hsh
      | refused e => exact exit (u := { s with shared := sh }) hsh
    | vanished hp => exact exit same
    | left hp => exact exit same
    | drained hp hd => exact drain_ceiling hd
    | @closed w hp hq hh =>
      refine exit (u := s.closing w) (Nat.le_of_eq ?_)
      unfold System.closing
      dsimp only
      split <;> rfl
    | @loaded w load id m runs sh hp he =>
      rcases ensureModels_ok he with ⟨-, rfl⟩ | ⟨-, rfl⟩
      · exact same
      · exact same
    | served hp hm ht hd => exact absurd ⟨_, _, rfl⟩ hdisp
    | panicked hp hm ht => exact absurd ⟨_, _, rfl⟩ hdisp
    | fatal hp hs ho => exact exit same
    | @died w id text hp => exact exit (u := s.setTicket id Ticket.finish) same
    | _ => exact same

/-! ## what a step can give a worker, and a client -/

/-- the models an action brings in -/
def Act.loads : Act F → Option (Models F)
  | .startup _ _ (.ok m) | .load _ (.ok m) => some m
  | _ => none

/-- `th` is what a step can leave of thread `k`: its models were its own or came in, and the reply in its
hand was there, is no refusal, or comes from the dispatch of this step -/
structure Follows (p : Setup) (s : System F) (a : Act F) (k : Nat) (th : Thread F) : Prop where
  held : ∀ m runs, th.worker.models = some (m, runs) →
    (∃ runs', (s.workers k).worker.models = some (m, runs')) ∨ a.loads = some m
  verdict : ∀ id r out, th.phase = .replying id (some r) out →
    (s.workers k).phase = .replying id (some r) out ∨ (∀ e, r.error? = some e → NotRefusal e) ∨
      ∃ m runs env tk d, (s.workers k).worker.models = some (m, runs) ∧ s.tickets[id]? = some tk ∧
        dispatchOn p s k m runs env tk = (.ok (some r, out), d)

theorem follows_self (k : Nat) : Follows p s a k (s.workers k) :=
  ⟨fun _ runs hm => .inl ⟨runs, hm⟩, fun _ _ _ hp => .inl hp⟩

theorem Follows.update {w : Nat} {th : Thread F} (h : Follows p s a w th) (k : Nat) :
    Follows p s a k (Function.update s.workers w th k) := by
  by_cases hk : k = w
  · subst hk
    rw [Function.update_self]
    exact h
  · rw [Function.update_of_ne hk]
    exact follows_self k

/-- a thread without a reply in hand, with the models it had or none -/
theorem follows_moved {w : Nat} {th : Thread F}
    (hm : ∀ m runs, th.worker.models = some (m, runs) →
      ∃ runs', (s.workers w).worker.models = some (m, runs'))
    (hp : ∀ id r out, th.phase ≠ .replying id r out) : Follows p s a w th :=
  ⟨fun m runs h => .inl (hm m runs h), fun id _ out h => absurd h (hp id _ out)⟩

theorem drain_models {host : Host} {config : WorkerConfig} {wk wk' : Worker F} {sh sh' : Shared}
    {shapes : List Shape} (h : drainEnginePropagation host config wk sh shapes = (wk', sh')) {m : Models F}
    {runs : Trace} (hm : wk'.models = some (m, runs)) : ∃ runs', wk.models = some (m, runs') := by
  unfold drainEnginePropagation at h
  split at h
  · rename_i m' runs' hw
    split at h
    · cases h
      cases hm
      exact ⟨runs', hw⟩
    · cases h
      exact ⟨runs, hm⟩
  · cases h
    exact ⟨runs, hm⟩

theorem ensureModels_models {host : Host} {wk : Worker F} {sh sh' : Shared}
    {load : Except String (Models F)} {m : Models F} {runs : Trace}
    (h : ensureModels host wk sh load = .ok (m, runs, sh')) :
    wk.models = some (m, runs) ∨ load = .ok m := by
  unfold ensureModels at h
  split at h
  · rename_i hm
    cases h
    exact .inl hm
  · split at h
    · cases h
      exact .inr rfl
    · cases h

/-- a failed load is no refusal -/
theorem loadError_notRefusal {host : Host} {wk : Worker F} {sh : Shared} {load : Except String (Models F)}
    {e : AnyError} (h : ensureModels host wk sh load = .error e) (req : EmbedRequest) (e' : AnyError)
    (he : (replyRequestLoadError req e : Reply F).error? = some e') : NotRefusal e' := by
  obtain ⟨text, rfl⟩ := ensureModels_error h
  cases req <;> cases he <;> exact notRefusal_msg _

theorem follows_step (h : step p s a = some t) (k : Nat) : Follows p s a k (t.workers k) := by
  -- one thread moved, and has nothing in hand
  have loop {w : Nat} {th : Thread F} {t : System F} (hw : t.workers = Function.update s.workers w th)
      (hm : ∀ m runs, th.worker.models = some (m, runs) →
        ∃ runs', (s.workers w).worker.models = some (m, runs'))
      (hp : ∀ id r out, th.phase ≠ .replying id r out) : Follows p s a k (t.workers k) := by
    rw [hw]
    exact (follows_moved hm hp).update k
  have still {t : System F} (hw : t.workers = s.workers) : Follows p s a k (t.workers k) := by
    rw [hw]
    exact follows_self k
  have own {w : Nat} (m : Models F) (runs : Trace) (h : (s.workers w).worker.models = some (m, runs)) :
      ∃ runs', (s.workers w).worker.models = some (m, runs') := ⟨runs, h⟩
  have gone {w : Nat} {wk : Worker F} (m : Models F) (runs : Trace)
      (h : wk.unloaded.models = some (m, runs)) :
      ∃ runs', (s.workers w).worker.models = some (m, runs') := by cases h
  have exit {w : Nat} {u : System F} {how : Joined} (hw : u.workers = s.workers) :
      Follows p s a k ((u.exitWorker p w how).workers k) := by
    have hws := System.exitWorker_workers (p := p) (s := u) (w := w) how
    rw [hw] at hws
    exact loop hws gone fun _ _ _ hp => by cases hp
  cases step_cases h with
  | @spawned k' hi => exact loop (w := k') rfl own fun _ _ _ hp => by cases hp
  | heardError hi hc => exact still System.closeIfLast_workers
  | joined hi hp => exact still System.closeIfLast_workers
  | @counted k' delta hi =>
    unfold countWorker
    dsimp only
    split
    · exact still rfl
    · exact still System.closeIfLast_workers
  | @started w preLoadRss load out sh hp ho =>
    cases out with
    | ready wk delta =>
      refine Follows.update (w := w) ⟨fun m runs hm => .inr ?_, fun _ _ _ hp => by cases hp⟩ k
      rw [startup_models ho hm]
      rfl
    | loadFailed e => exact loop (w := w) rfl own fun _ _ _ hp => by cases hp
    | refused e => exact exit (u := { s with shared := sh }) rfl
  | vanished hp => exact exit rfl
  | left hp => exact exit rfl
  | @drained w shapes wk sh hp hd =>
    exact loop (w := w) rfl (fun m runs hm => drain_models hd hm) fun _ _ _ hp => by cases hp
  | @locked w hp hl => exact loop (w := w) rfl own fun _ _ _ hp => by cases hp
  | @elapsed w hp hm => exact loop (w := w) rfl gone fun _ _ _ hp => by cases hp
  | @took w id rest hp hq => exact loop (w := w) rfl own fun _ _ _ hp => by cases hp
  | @closed w hp hq hh => exact exit (u := s.closing w) rfl
  | @loaded w load id m runs sh hp he =>
    refine Follows.update (w := w) ⟨fun m' runs' hm => ?_, fun _ _ _ hp => by cases hp⟩ k
    cases hm
    rcases ensureModels_models he with hm | rfl
    · exact .inl ⟨runs, hm⟩
    · exact .inr rfl
  | @unloadable w load id tk e hp ht he =>
    have hf : Follows p s (.load w load) w
        ⟨.replying id (some (replyRequestLoadError tk.req e)) ⟨.ok, true⟩, (s.workers w).worker,
          (s.workers w).signal⟩ := by
      refine ⟨fun m runs hm => .inl ⟨runs, hm⟩, fun id' r out hr => ?_⟩
      cases hr
      exact .inr (.inl (loadError_notRefusal he tk.req))
    exact hf.update k
  | @served w env id tk m runs reply out d hp hm ht hd =>
    refine Follows.update (w := w) ⟨fun m' runs' hm' => ?_, fun id' r out' hr => ?_⟩ k
    · cases hm'
      exact .inl ⟨runs, hm⟩
    · cases hr
      exact .inr (.inr ⟨m, runs, env, tk, d, hm, ht, hd⟩)
  | @panicked w env id tk text m runs d hp hm ht =>
    refine loop (w := w) rfl (fun m' runs' hm' => ?_) fun _ _ _ hp => by cases hp
    cases hm'
    exact ⟨runs, hm⟩
  | @replied w id reply out hp => exact loop (w := w) rfl own fun _ _ _ hp => by cases hp
  | @again w out hp hs => exact loop (w := w) rfl own fun _ _ _ hp => by cases hp
  | fatal hp hs ho => exact exit rfl
  | @broke w out hp hs ho => exact loop (w := w) rfl gone fun _ _ _ hp => by cases hp
  | @noted w out hp hs => exact loop (w := w) rfl own fun _ _ _ hp => by cases hp
  | @died w id text hp => exact exit (u := s.setTicket id Ticket.finish) rfl
  | heard hi hc => exact still rfl
  | silent hi hc => exact still rfl
  | pending hi hp => exact still rfl
  | woken hi hw => exact still rfl
  | submitted hh => exact still rfl
  | enqueued ht hs => exact still rfl
  | disconnected ht hc => exact still rfl
  | dropped hh => exact still rfl

theorem haul_replies {u : System F} (h : Haul s u) {id w : Nat} {r : Reply F}
    (hr : (id, w, r) ∈ u.replies) :
    (id, w, r) ∈ s.replies ∨ ∃ out, (s.workers w).phase = .replying id (some r) out := by
  cases h with
  | sent hp ht hq hk hre hw =>
    rw [hre] at hr
    rcases List.mem_append.mp hr with hr | hr
    · exact .inl hr
    · obtain ⟨r', rfl, hx⟩ := received_mem hr
      cases hx
      exact .inr ⟨_, hp⟩
  | still hw hb => exact .inl (hb.replies ▸ hr)
  | thread hw hb hx hh hre => exact .inl (hb.replies ▸ hr)
  | took hp hq ht hq' hk hre hw => exact .inl (hre ▸ hr)
  | lost hp ht hq hk hre hw => exact .inl (hre ▸ hr)
  | submitted ht hq hk hre hw => exact .inl (hre ▸ hr)
  | enqueued hg hs ht hq hk hre hw => exact .inl (hre ▸ hr)
  | disconnected hg hc ht hq hk hre hw => exact .inl (hre ▸ hr)

theorem replies_step (inv : Custody p s) (h : step p s a = some t) {id w : Nat} {r : Reply F}
    (hr : (id, w, r) ∈ t.replies) :
    (id, w, r) ∈ s.replies ∨ ∃ out, (s.workers w).phase = .replying id (some r) out := by
  obtain ⟨u, hu, -, hc⟩ := move_haul inv.toInitInv (step_cases h)
  refine haul_replies hu ?_
  rcases hc with ⟨rfl, -⟩ | rfl
  · exact hr
  · rw [System.closeIfLast_replies] at hr
    exact hr

/-! ## over runs -/

/-- every load brings the same tokenizer -/
def Tokenizes (tok : Tokenizer) (_ : System F) (a : Act F) : Prop :=
  ∀ m, a.loads = some m → m.tokenizer = tok

/-- the request of ticket `id` has a text in the dangerous range, longer than `c` -/
def Grounded (p : Setup) (tok : Tokenizer) (c : Nat) (s : System F) (id : Nat) : Prop :=
  p.config.ep = .tensorRt ∧ p.config.trtInbandJitGuardEnabled = true ∧
    ∃ tk texts encs, s.tickets[id]? = some tk ∧ tk.req.embedTexts = some texts ∧
      tok.encodeBatchFast texts = .ok encs ∧
      ∃ len ∈ seqLens encs, p.config.trtInbandJitGuardSeq ≤ len ∧ c < len

theorem buildShapeGuard_some {w c : Nat} {g : TrtJitGuard} (h : buildShapeGuard (p.configOf w) c = some g) :
    p.config.ep = .tensorRt ∧ p.config.trtInbandJitGuardEnabled = true ∧
      g = ⟨p.config.trtInbandJitGuardSeq, c⟩ := by
  -- a shard of the warmup shapes changes nothing the guard reads
  have hc : buildShapeGuard (p.configOf w) c = buildShapeGuard p.config c := by
    unfold Setup.configOf workerConfigOf
    split
    · rfl
    · rfl
  rw [hc, buildShapeGuard] at h
  split at h
  · rename_i hep
    exact ⟨hep.1, hep.2, (Option.some.inj h).symm⟩
  · cases h

/-- a refusal of this moment is grounded in the ceiling of this moment -/
theorem dispatch_grounded {tok : Tokenizer} {w id : Nat} {m : Models F} {runs : Trace} {env : Env}
    {tk : Ticket} {r : Reply F} {out : DispatchOutcome} {d : Desk} (hm : m.tokenizer = tok)
    (ht : s.tickets[id]? = some tk) (hd : dispatchOn p s w m runs env tk = (.ok (some r, out), d))
    {e : AnyError} (he : r.error? = some e) (hrej : isTrtShapeRejected e = true) :
    Grounded p tok s.shared.ceiling s id := by
  unfold dispatchOn at hd
  obtain ⟨texts, hreq, g, encs, hg, henc, len, hlen, hseq, hc⟩ := dispatch_refusal hd he hrej
  obtain ⟨hep, hon, rfl⟩ := buildShapeGuard_some hg
  rw [hm] at henc
  exact ⟨hep, hon, tk, texts, encs, ht, hreq, henc, len, hlen, hseq, hc⟩

theorem Grounded.step {tok : Tokenizer} {c id : Nat} (h : Grounded p tok c s id) (hk : Kept p s a t) :
    Grounded p tok c t id := by
  obtain ⟨hep, hon, tk, texts, encs, ht, hreq, henc⟩ := h
  obtain ⟨tk', ht', hgo⟩ := hk.tickets id tk ht
  refine ⟨hep, hon, tk', texts, encs, ht', ?_, henc⟩
  rw [hgo.req]
  exact hreq

theorem Grounded.lower {tok : Tokenizer} {c c' id : Nat} (h : Grounded p tok c s id) (hc : c' ≤ c) :
    Grounded p tok c' s id := by
  obtain ⟨hep, hon, tk, texts, encs, ht, hreq, henc, len, hlen, hseq, hlt⟩ := h
  exact ⟨hep, hon, tk, texts, encs, ht, hreq, henc, len, hlen, hseq, Nat.lt_of_le_of_lt hc hlt⟩

/-- the reply is no refusal, or it is grounded in `c` -/
def Reply.Founded (p : Setup) (tok : Tokenizer) (c : Nat) (s : System F) (id : Nat) (r : Reply F) : Prop :=
  ∀ e, r.error? = some e → isTrtShapeRejected e = true → Grounded p tok c s id

/-- from `s` on -/
structure FoundedInv (p : Setup) (tok : Tokenizer) (s t : System F) : Prop where
  custody : Custody p t
  ceiling : s.shared.ceiling ≤ t.shared.ceiling
  held : ∀ w m runs, (t.workers w).worker.models = some (m, runs) → m.tokenizer = tok
  hand : ∀ w id r out, (t.workers w).phase = .replying id (some r) out →
    (s.workers w).phase = .replying id (some r) out ∨ Reply.Founded p tok s.shared.ceiling t id r
  replies : ∀ id w r, (id, w, r) ∈ t.replies → (id, w, r) ∈ s.replies ∨
    (∃ out, (s.workers w).phase = .replying id (some r) out) ∨
      Reply.Founded p tok s.shared.ceiling t id r

theorem Reply.Founded.step {tok : Tokenizer} {c id : Nat} {r : Reply F} (h : Reply.Founded p tok c s id r)
    (hk : Kept p s a t) : Reply.Founded p tok c t id r :=
  fun e he hrej => (h e he hrej).step hk

theorem foundedInv_refl {tok : Tokenizer} (hc : Custody p s)
    (hm : ∀ w m runs, (s.workers w).worker.models = some (m, runs) → m.tokenizer = tok) :
    FoundedInv p tok s s :=
  ⟨hc, Nat.le_refl _, hm, fun _ _ _ _ h => .inl h, fun _ _ _ h => .inl h⟩

theorem foundedInv_step {tok : Tokenizer} {u : System F} (inv : FoundedInv p tok s t)
    (hl : Tokenizes tok t a) (h : step p t a = some u) : FoundedInv p tok s u := by
  have hk := kept_step inv.custody h
  refine ⟨custody_step inv.custody h, inv.ceiling.trans (ceiling_step h), fun w m runs hm => ?_,
    fun w id r out hp => ?_, fun id w r hr => ?_⟩
  · rcases (follows_step h w).held m runs hm with ⟨runs', hm'⟩ | hm'
    · exact inv.held w m runs' hm'
    · exact hl m hm'
  · rcases (follows_step h w).verdict id r out hp with hp' | hno | ⟨m, runs, env, tk, d, hm, ht, hd⟩
    · exact (inv.hand w id r out hp').imp_right fun hf => hf.step hk
    · refine .inr fun e he hrej => ?_
      have hno := hno e he
      rw [NotRefusal, hrej] at hno
      cases hno
    · refine .inr fun e he hrej => ?_
      have hg := dispatch_grounded (inv.held w m runs hm) ht hd he hrej
      exact (hg.lower inv.ceiling).step hk
  · rcases replies_step inv.custody h hr with hr' | ⟨out, hp⟩
    · exact (inv.replies id w r hr').imp_right fun hf => hf.imp_right fun hf => hf.step hk
    · rcases inv.hand w id r out hp with hp' | hf
      · exact .inr (.inl ⟨out, hp'⟩)
      · exact .inr (.inr (hf.step hk))

theorem reach_foundedInv {tok : Tokenizer} {c0 : Nat}
    (h : Reach (step p) (Tokenizes tok) (start p c0) s) : FoundedInv p tok (start p c0) s := by
  refine h.invariant ?_ fun _ _ _ inv hl hs => foundedInv_step inv hl hs
  exact foundedInv_refl (custody_start c0) fun _ _ _ hm => by cases hm

/-- **What is covered stays covered.**  In every run of the pool, from every state on: the ceiling does
not fall, and whoever receives a guard refusal whose reply was not ready in that state has sent an embed
request with a text in the dangerous range that is longer than the ceiling was there.  So a request that the
pool covers at some moment, and whose reply is not ready yet, is not refused by any worker at any later
time, whatever the workers load, unload or warm up. -/
theorem refusals_shrink (tok : Tokenizer) (c0 : Nat) (h : Reach (step p) (Tokenizes tok) (start p c0) s)
    (h' : Reach (step p) (Tokenizes tok) s t) :
    s.shared.ceiling ≤ t.shared.ceiling ∧
    ∀ id w r e, (id, w, r) ∈ t.replies → Reply.error? r = some e → isTrtShapeRejected e = true →
      (id, w, r) ∈ s.replies ∨ (∃ out, (s.workers w).phase = .replying id (some r) out) ∨
        Grounded p tok s.shared.ceiling t id := by
  have hs := reach_foundedInv h
  have ht : FoundedInv p tok s t :=
    h'.invariant (foundedInv_refl hs.custody hs.held) fun _ _ _ inv hl hs => foundedInv_step inv hl hs
  refine ⟨ht.ceiling, fun id w r e hr he hrej => ?_⟩
  exact (ht.replies id w r hr).imp_right fun hf => hf.imp_right fun hf => hf e he hrej

/-! ## a refusal of this moment -/

theorem phase_loaded {ph : Phase F} {id : Nat} (hb : ph.busy = 9) (hh : ph.handling = some id) :
    ph = .loaded id := by
  cases ph <;> cases hb
  cases hh
  rfl

/-- what the guard does not cover at the dispatch, the client finds refused -/
theorem dispatch_refuses {w id : Nat} {m : Models F} {runs : Trace} {tk : Ticket} {texts : List String}
    {encs : List Encoding} {g : TrtJitGuard} (hp : (s.workers w).phase = .loaded id)
    (hm : (s.workers w).worker.models = some (m, runs)) (ht : s.tickets[id]? = some tk)
    (ho : tk.isOpen = true) (hreq : tk.req.embedTexts = some texts)
    (henc : m.tokenizer.encodeBatchFast texts = .ok encs)
    (hg : buildShapeGuard (p.configOf w) s.shared.ceiling = some g) (hu : Uncovered g (seqLens encs))
    (env : Env) :
    ∃ t r e, [Act.dispatch w env, .reply w].foldlM (step p) s = some t ∧ (id, w, r) ∈ t.replies ∧
      Reply.error? r = some e ∧ isTrtShapeRejected e = true := by
  obtain ⟨r, e, hd, he, hrej⟩ := (dispatch_guarded p.host (p.configOf w) w env g
    (s.workers w).worker.consecutiveFailures (deskOf runs (s.workers w).worker s.shared) hreq henc).2.1 hu
  obtain ⟨d, hcall⟩ : ∃ d, dispatchOn p s w m runs env tk = (.ok (some r, ⟨.rejected, false⟩), d) := by
    unfold dispatchOn
    rw [hg, ho]
    exact ⟨_, hd⟩
  obtain ⟨u, hu⟩ : ∃ u, u = dispatched (s.handle id w (heldFor p s w m runs env tk)) w m d
      (.replying id (some r) ⟨.rejected, false⟩) := ⟨_, rfl⟩
  have hs : step p s (.dispatch w env) = some u := by
    rw [hu]
    simp only [step, dispatchStep, hp, hm, ht, hcall]
  have hph : (u.workers w).phase = .replying id (some r) ⟨.rejected, false⟩ := by
    rw [hu]
    exact congrArg Thread.phase (System.goOn_same _ _)
  have ht' : u.tickets[id]? = some tk := by
    rw [hu]
    exact ht
  obtain ⟨v, hv, -, -, -, hre⟩ := reply_end (p := p) hph
  refine ⟨v, r, e, foldlM_cons_of hs (foldlM_cons_of hv rfl), ?_, he, hrej⟩
  rw [hre, received_eq ht', if_pos ho]
  exact List.mem_append_right _ (List.mem_singleton_self _)

end

/-- one worker on TensorRT that refuses what is not warmed from two tokens on -/
def guardedSolo : Setup where
  host := ⟨fun _ => 0, fun _ => 0, fun _ => none⟩
  config := ⟨.tensorRt, .fp16, 5, false, false, true, 2, [], false⟩
  idleTimeout := true
  n := 1
  size := poolSize_one

/-- a text of five tokens in front of the dispatch, with nothing warmed -/
def longCall : List (Act Int) :=
  [.init, .startup 0 100 (.ok echoModels), .init, .init, .submit (.dense ["abc"]), .enqueue 0, .drain 0 [],
    .lock 0, .recv 0, .load 0 (.error "")]

/-- the one load that goes through brings `charTokenizer` -/
theorem longCall_tokenizes (s : System Int) : ∀ a ∈ longCall, Tokenizes charTokenizer s a := by
  intro a ha m hm
  have hload : m ∈ longCall.filterMap Act.loads := List.mem_filterMap.mpr ⟨a, ha, hm⟩
  have hone : longCall.filterMap Act.loads = [echoModels] := rfl
  rw [hone, List.mem_singleton] at hload
  rw [hload]
  rfl

theorem refusals_shrink_guarded : ∃ s t : System Int,
    Reach (step guardedSolo) (Tokenizes charTokenizer) (start guardedSolo 0) s ∧
    Reach (step guardedSolo) (Tokenizes charTokenizer) s t ∧
    ∃ r e, (0, 0, r) ∈ t.replies ∧ Reply.error? r = some e ∧ isTrtShapeRejected e = true ∧
      Grounded guardedSolo charTokenizer s.shared.ceiling t 0 := by
  have hrun : ∃ s : System Int,
      Reach (step guardedSolo) (Tokenizes charTokenizer) (start guardedSolo 0) s ∧
      (s.workers 0).phase.busy = 9 ∧ (s.workers 0).phase.handling = some 0 ∧
        s.tickets = [⟨.dense ["abc"], .taken, true⟩] ∧ s.shared.ceiling = 0 ∧ s.replies.length = 0 :=
    Reach.exists_of_run longCall longCall_tokenizes (by decide +kernel)
  obtain ⟨s, hs, hbusy, hhand, htk, hc, hlen⟩ := hrun
  have hp : (s.workers 0).phase = .loaded 0 := phase_loaded hbusy hhand
  have inv := reach_foundedInv hs
  obtain ⟨⟨m, runs⟩, hm⟩ := Option.isSome_iff_exists.mp ((reach_runInv hs).models 0 0 hp)
  have henc : m.tokenizer.encodeBatchFast ["abc"] = .ok [charEncoding "abc"] := by
    rw [inv.held 0 m runs hm]
    rfl
  have hg : buildShapeGuard (guardedSolo.configOf 0) s.shared.ceiling = some ⟨2, 0⟩ := by
    rw [hc]
    rfl
  have hu : Uncovered ⟨2, 0⟩ (seqLens [charEncoding "abc"]) :=
    ⟨5, by decide, by decide, by decide⟩
  obtain ⟨t, r, e, hrun, hr, he, hrej⟩ := dispatch_refuses (p := guardedSolo) hp hm
    (show s.tickets[0]? = some ⟨.dense ["abc"], .taken, true⟩ by rw [htk]; rfl) rfl rfl henc hg hu
    ⟨⟨1, 1, 100⟩, true⟩
  have ht : Reach (step guardedSolo) (Tokenizes charTokenizer) s t := by
    refine Reach.of_foldlM (fun _ a ha m hm => ?_) hrun
    rcases List.mem_cons.mp ha with rfl | ha
    · cases hm
    · rw [List.mem_singleton.mp ha] at hm
      cases hm
  refine ⟨s, t, hs, ht, r, e, hr, he, hrej, ?_⟩
  rcases (refusals_shrink charTokenizer 0 hs ht).2 0 0 r e hr he hrej with h | ⟨out, h⟩ | h
  · rw [List.eq_nil_of_length_eq_zero hlen] at h
    cases h
  · rw [hp] at h
    cases h
  · exact h

end Pool
end EmbedServer
