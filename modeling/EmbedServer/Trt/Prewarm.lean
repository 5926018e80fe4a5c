import EmbedServer.Embed.Session

/-!
# TensorRT pre-warming (`trt_warmup.rs`, `trt_warmup/runner.rs`, `worker/probe.rs`)

`trtPrewarm` runs a dummy batch for every shape of a list on the worker's own session.  When engine
files are already on disk it first runs the shapes at the extremes of the list, and skips the rest
if these were all fast.

* `trtPrewarm_spec`   `warmed` and `maxWarmedSeq` count exactly the shapes whose run succeeded, all of
                      them shapes of the list; a list found fully cached has its longest shape
                      among them.
-/

namespace EmbedServer

/-- `(batch, seq)` -/
abbrev Shape := Nat × Nat

/-- what a worker reads off the machine, at the time its session has run the given inputs -/
structure Host where
  /-- `count_engine_files_for_sm` -/
  engineCount : Trace → Nat
  /-- time of `fsync_cache_dir` -/
  fsyncMs : Trace → Nat
  /-- `read_process_rss_bytes` -/
  rss : Trace → Option Nat

/-! ## one dummy run -/

structure ProbeResult where
  rssBefore : Nat
  rssAfter : Nat
deriving DecidableEq, Repr

/-- zeros and ones of a shape -/
def warmupArrays (batch seq : Nat) : ChunkArrays where
  ids := ⟨[batch, seq], List.replicate (batch * seq) 0, by simp⟩
  mask := ⟨[batch, seq], List.replicate (batch * seq) 1, by simp⟩

section
variable {F : Type} (session : Session F) (host : Host)

def probeRunDense (x : ChunkArrays) : Exec Trace AnyError ProbeResult := fun h =>
  let rssBefore := (host.rss h).getD 0
  match tensorRef x.ids, tensorRef x.mask with
  | .ok _, .ok _ =>
    match runSession session x h with
    | (.ok _, h') => (.ok ⟨rssBefore, (host.rss h').getD rssBefore⟩, h')
    | (.err e, h') => (.err e, h')
    | (.panic msg, h') => (.panic msg, h')
  | .ok _, .err e => (.err e, h)
  | .ok _, .panic msg => (.panic msg, h)
  | .err e, _ => (.err e, h)
  | .panic msg, _ => (.panic msg, h)

/-- `CACHE_HIT_THRESHOLD_MS` -/
def cacheHitThresholdMs : Nat := 5000

structure ShapeRunResult where
  compileMs : Nat
  fsyncMs : Nat
  cacheHit : Bool
  succeeded : Bool
deriving DecidableEq, Repr

def runWarmupShape (shape : Shape) (h : Trace) : ShapeRunResult × Trace :=
  let x := warmupArrays shape.1 shape.2
  let compileMs := toU64 (session.run h x).elapsedMs
  let cacheHit := decide (compileMs < cacheHitThresholdMs)
  match probeRunDense session host x h with
  | (.ok _, h') => (⟨compileMs, toU64 (host.fsyncMs h'), cacheHit, true⟩, h')
  | (_, h') => (⟨compileMs, 0, cacheHit, false⟩, h')

/-! ## the shapes at the extremes, and shards -/

def coverageCheckShapes (shapes : List Shape) : List Shape :=
  match shapes with
  | [] => []
  | s :: rest =>
    let minBatch := rest.foldl (fun b t => min b t.1) s.1
    let maxBatch := rest.foldl (fun b t => max b t.1) s.1
    let minSeq := rest.foldl (fun b t => min b t.2) s.2
    let maxSeq := rest.foldl (fun b t => max b t.2) s.2
    let reps := [shapes.find? (fun t => t.1 == minBatch), shapes.find? (fun t => t.1 == maxBatch),
      shapes.find? (fun t => t.2 == minSeq), shapes.find? (fun t => t.2 == maxSeq)]
    (reps.filterMap id).foldl (fun result t => if result.contains t then result else result ++ [t]) []

def shardShapes (shapes : List Shape) (workerIndex workerCount : Nat) : List Shape :=
  if workerCount ≤ 1 then shapes
  else (shapes.zipIdx.filter fun p => p.2 % workerCount == workerIndex).map Prod.fst

/-! ## a whole list -/

structure PrewarmStats where
  warmed : Nat
  totalCompileMs : Nat
  totalFsyncMs : Nat
  fullyCached : Bool
  skipped : Nat
  freshCompiles : Nat
  engineCountDelta : Int
  engineCountBefore : Nat
  engineCountAfter : Nat
  maxWarmedSeq : Nat
  /-- the shapes counted by `warmed`; kept for the statements, the source has only the count -/
  okShapes : List Shape
deriving DecidableEq, Repr

/-- the running totals of both loops -/
structure PrewarmAcc where
  warmed : Nat
  freshCompiles : Nat
  totalCompileMs : Nat
  totalFsyncMs : Nat
  maxWarmedSeq : Nat
  allChecksFast : Bool
  okShapes : List Shape

/-- one shape; `check` in the loop over the extremes -/
def prewarmStep (check : Bool) (st : PrewarmAcc × Trace) (shape : Shape) : PrewarmAcc × Trace :=
  let (acc, h) := st
  let (r, h') := runWarmupShape session host shape h
  let acc :=
    if r.succeeded then
      { acc with
        warmed := acc.warmed + 1
        maxWarmedSeq := max acc.maxWarmedSeq shape.2
        totalCompileMs := satAddU64 acc.totalCompileMs r.compileMs
        totalFsyncMs := satAddU64 acc.totalFsyncMs r.fsyncMs
        freshCompiles := if r.cacheHit then acc.freshCompiles else acc.freshCompiles + 1
        okShapes := acc.okShapes ++ [shape] }
    else acc
  let acc := if check && (!r.cacheHit || !r.succeeded) then { acc with allChecksFast := false } else acc
  (acc, h')

/-- `i64::try_from(n).unwrap_or(i64::MAX)` -/
def toI64 (n : Nat) : Int := min n (2 ^ 63 - 1)

/-- the stats at the end of a loop -/
def PrewarmAcc.stats (acc : PrewarmAcc) (before after skipped : Nat) (fullyCached : Bool) :
    PrewarmStats where
  warmed := acc.warmed
  totalCompileMs := acc.totalCompileMs
  totalFsyncMs := acc.totalFsyncMs
  fullyCached := fullyCached
  skipped := skipped
  freshCompiles := acc.freshCompiles
  engineCountDelta := toI64 after - toI64 before
  engineCountBefore := before
  engineCountAfter := after
  maxWarmedSeq := acc.maxWarmedSeq
  okShapes := acc.okShapes

def trtPrewarm (warmupShapes : List Shape) (h : Trace) : PrewarmStats × Trace :=
  let before := host.engineCount h
  if warmupShapes.isEmpty then
    ((PrewarmAcc.mk 0 0 0 0 0 false []).stats before before 0 false, h)
  else
    let checkShapes := if before > 0 then coverageCheckShapes warmupShapes else []
    let (acc, h) := checkShapes.foldl (prewarmStep session host true)
      (⟨0, 0, 0, 0, 0, !checkShapes.isEmpty, []⟩, h)
    if acc.allChecksFast then
      (acc.stats before (host.engineCount h) (warmupShapes.length - checkShapes.length) true, h)
    else
      let rest := warmupShapes.filter fun s => !checkShapes.contains s
      let (acc, h) := rest.foldl (prewarmStep session host false) (acc, h)
      (acc.stats before (host.engineCount h) 0 false, h)

/-! ## what the stats say -/

/-- a dummy run of the shape succeeded, after some earlier runs -/
def RanOk (shape : Shape) : Prop :=
  ∃ h outs, (session.run h (warmupArrays shape.1 shape.2)).outputs = .ok outs

theorem ranOk_of_succeeded {shape : Shape} {h : Trace}
    (hs : (runWarmupShape session host shape h).1.succeeded = true) : RanOk session shape := by
  unfold runWarmupShape probeRunDense runSession at hs
  cases ho : (session.run h (warmupArrays shape.1 shape.2)).outputs with
  | ok outs => exact ⟨h, outs, ho⟩
  | error e =>
    simp only [ho] at hs
    split at hs <;> simp_all
    split at * <;> simp_all

/-- `acc'` adds the successful shapes `ok` to `acc` -/
structure Adds (acc acc' : PrewarmAcc) (ok : List Shape) : Prop where
  shapes : acc'.okShapes = acc.okShapes ++ ok
  warmed : acc'.warmed = acc.warmed + ok.length
  seq : acc'.maxWarmedSeq = max acc.maxWarmedSeq (top (ok.map Prod.snd))
  ran : ∀ s ∈ ok, RanOk session s

theorem prewarmStep_adds (check : Bool) (acc : PrewarmAcc) (h : Trace) (shape : Shape) :
    ∃ ok, ok.Sublist [shape] ∧ Adds session acc (prewarmStep session host check (acc, h) shape).1 ok ∧
      (check = true → (prewarmStep session host check (acc, h) shape).1.allChecksFast = true →
        acc.allChecksFast = true ∧ ok = [shape]) := by
  unfold prewarmStep
  dsimp only
  have hran : (runWarmupShape session host shape h).1.succeeded = true → RanOk session shape :=
    ranOk_of_succeeded session host
  generalize (runWarmupShape session host shape h).1 = r at hran ⊢
  obtain ⟨ms, fs, hit, succeeded⟩ := r
  cases succeeded with
  | true =>
    refine ⟨[shape], List.Sublist.refl _, ⟨?_, ?_, ?_, by simpa using hran rfl⟩, ?_⟩
    · cases check <;> cases hit <;> rfl
    · cases check <;> cases hit <;> rfl
    · cases check <;> cases hit <;> simp
    · rintro rfl
      cases hit <;> simp
  | false =>
    refine ⟨[], List.nil_sublist _, ⟨?_, ?_, ?_, by simp⟩, ?_⟩
    · cases check <;> simp
    · cases check <;> simp
    · cases check <;> simp
    · rintro rfl
      simp

theorem prewarmLoop_adds (check : Bool) (shapes : List Shape) (st : PrewarmAcc × Trace) :
    ∃ ok, ok.Sublist shapes ∧ Adds session st.1 (shapes.foldl (prewarmStep session host check) st).1 ok ∧
      (check = true → (shapes.foldl (prewarmStep session host check) st).1.allChecksFast = true →
        st.1.allChecksFast = true ∧ ok = shapes) := by
  induction shapes generalizing st with
  | nil => exact ⟨[], List.Sublist.refl _, ⟨by simp, by simp, by simp, by simp⟩, fun _ h => ⟨h, rfl⟩⟩
  | cons s shapes ih =>
    obtain ⟨ok1, hsub1, hadd1, hfast1⟩ := prewarmStep_adds session host check st.1 st.2 s
    obtain ⟨ok2, hsub2, hadd2, hfast2⟩ := ih (prewarmStep session host check st s)
    refine ⟨ok1 ++ ok2, hsub1.append hsub2, ⟨?_, ?_, ?_, ?_⟩, ?_⟩
    · rw [List.foldl_cons, hadd2.shapes, hadd1.shapes, List.append_assoc]
    · rw [List.foldl_cons, hadd2.warmed, hadd1.warmed, List.length_append, Nat.add_assoc]
    · rw [List.foldl_cons, hadd2.seq, hadd1.seq, List.map_append, top_append, max_assoc]
    · intro t ht
      rcases List.mem_append.mp ht with ht | ht
      · exact hadd1.ran t ht
      · exact hadd2.ran t ht
    · intro hc hf
      obtain ⟨h2, rfl⟩ := hfast2 hc hf
      obtain ⟨h1, rfl⟩ := hfast1 hc h2
      exact ⟨h1, rfl⟩

omit session host in
theorem foldl_max_seq (rest : List Shape) (n : Nat) :
    rest.foldl (fun b t => max b t.2) n = max n (top (rest.map Prod.snd)) := by
  induction rest generalizing n with
  | nil => simp
  | cons t rest ih => rw [List.foldl_cons, ih, List.map_cons, top_cons, max_assoc]

omit session host in
/-- dropping repeated entries keeps the members -/
theorem mem_dedup (l acc : List Shape) (t : Shape) :
    t ∈ l.foldl (fun result t => if result.contains t then result else result ++ [t]) acc ↔
      t ∈ acc ∨ t ∈ l := by
  induction l generalizing acc with
  | nil => simp
  | cons a l ih =>
    rw [List.foldl_cons, ih]
    by_cases ha : acc.contains a = true
    · rw [if_pos ha, List.mem_cons]
      have ha' : a ∈ acc := by simpa using ha
      constructor
      · rintro (h | h)
        · exact .inl h
        · exact .inr (.inr h)
      · rintro (h | rfl | h)
        · exact .inl h
        · exact .inl ha'
        · exact .inr h
    · rw [if_neg ha, List.mem_append, List.mem_singleton, List.mem_cons, or_assoc]

omit session host in
/-- the extremes are shapes of the list, and one of them is as long as any -/
theorem coverageCheckShapes_spec (shapes : List Shape) :
    (∀ t ∈ coverageCheckShapes shapes, t ∈ shapes) ∧
    top ((coverageCheckShapes shapes).map Prod.snd) = top (shapes.map Prod.snd) := by
  cases shapes with
  | nil => exact ⟨by simp [coverageCheckShapes], rfl⟩
  | cons s rest =>
    have hsub : ∀ t ∈ coverageCheckShapes (s :: rest), t ∈ s :: rest := by
      intro t ht
      unfold coverageCheckShapes at ht
      rw [mem_dedup, List.mem_filterMap] at ht
      rcases ht with ht | ⟨o, ho, rfl⟩
      · exact absurd ht List.not_mem_nil
      · simp only [List.mem_cons, List.not_mem_nil, or_false] at ho
        rcases ho with ho | ho | ho | ho <;> exact List.mem_of_find?_eq_some ho.symm
    refine ⟨hsub, Nat.le_antisymm (top_le fun a ha => ?_) ?_⟩
    · obtain ⟨t, ht, rfl⟩ := List.mem_map.mp ha
      exact le_top (List.mem_map_of_mem (hsub t ht))
    -- the representative of the longest sequence
    · have hmax : rest.foldl (fun b t => max b t.2) s.2 = top ((s :: rest).map Prod.snd) := by
        rw [foldl_max_seq, List.map_cons, top_cons]
      obtain ⟨u, hu, hseq⟩ := List.mem_map.mp (top_mem (l := (s :: rest).map Prod.snd) (by simp))
      cases hf : (s :: rest).find? (fun t => t.2 == rest.foldl (fun b t => max b t.2) s.2) with
      | none =>
        refine absurd (List.find?_eq_none.mp hf u hu) ?_
        simp [hmax, hseq]
      | some t =>
        have ht : t.2 = top ((s :: rest).map Prod.snd) := by
          have := List.find?_some hf
          rw [hmax] at this
          simpa using this
        rw [← ht]
        refine le_top (List.mem_map_of_mem ?_)
        unfold coverageCheckShapes
        rw [mem_dedup, List.mem_filterMap]
        exact .inr ⟨some t, by simp [hf], rfl⟩

/-- **What a pre-warm reports**: the successful shapes of its list, and the longest of them; a list
found fully cached is covered up to its longest shape. -/
theorem trtPrewarm_spec (shapes : List Shape) (h : Trace) :
    (∀ s ∈ (trtPrewarm session host shapes h).1.okShapes, s ∈ shapes ∧ RanOk session s) ∧
    (trtPrewarm session host shapes h).1.warmed = (trtPrewarm session host shapes h).1.okShapes.length ∧
    (trtPrewarm session host shapes h).1.maxWarmedSeq =
      top ((trtPrewarm session host shapes h).1.okShapes.map Prod.snd) ∧
    ((trtPrewarm session host shapes h).1.fullyCached = true →
      (trtPrewarm session host shapes h).1.okShapes ≠ [] ∧
      (trtPrewarm session host shapes h).1.maxWarmedSeq = top (shapes.map Prod.snd)) := by
  unfold trtPrewarm
  dsimp only
  split
  · simp [PrewarmAcc.stats]
  · generalize hcheck : (if host.engineCount h > 0 then coverageCheckShapes shapes else []) = check
    have hmem : ∀ t ∈ check, t ∈ shapes := by
      rw [← hcheck]
      split
      · exact (coverageCheckShapes_spec shapes).1
      · simp
    obtain ⟨ok, hsub, hadd, hfast⟩ := prewarmLoop_adds session host true check
      (⟨0, 0, 0, 0, 0, !check.isEmpty, []⟩, h)
    generalize check.foldl (prewarmStep session host true) _ = st at hadd hfast ⊢
    obtain ⟨h1, h2, h3, h4⟩ := hadd
    split
    · rename_i hf
      obtain ⟨hne, rfl⟩ := hfast rfl hf
      have hne' : ok ≠ [] := by simpa using hne
      simp only [PrewarmAcc.stats, h1, h2, h3, List.nil_append, Nat.zero_add, Nat.zero_max]
      refine ⟨fun s hs => ⟨hmem s hs, h4 s hs⟩, trivial, trivial, fun _ => ⟨hne', ?_⟩⟩
      split at hcheck
      · rw [← hcheck]
        exact (coverageCheckShapes_spec shapes).2
      · exact absurd hcheck.symm hne'
    · obtain ⟨ok', hsub', hadd', -⟩ := prewarmLoop_adds session host false
        (shapes.filter fun s => !check.contains s) st
      obtain ⟨h1', h2', h3', h4'⟩ := hadd'
      simp only [PrewarmAcc.stats, h1', h2', h3', h1, h2, h3, List.nil_append, Nat.zero_add,
        Nat.zero_max, List.length_append, List.map_append, top_append]
      refine ⟨fun s hs => ?_, trivial, trivial, by simp⟩
      rcases List.mem_append.mp hs with hs | hs
      · exact ⟨hmem s (hsub.subset hs), h4 s hs⟩
      · exact ⟨(List.mem_filter.mp (hsub'.subset hs)).1, h4' s hs⟩

/-- a single shape: warmed or found cached means its run succeeded -/
theorem trtPrewarm_single (shape : Shape) (h : Trace)
    (hok : (trtPrewarm session host [shape] h).1.warmed > 0 ∨
      (trtPrewarm session host [shape] h).1.fullyCached = true) :
    RanOk session shape ∧ shape ∈ (trtPrewarm session host [shape] h).1.okShapes ∧
      max (trtPrewarm session host [shape] h).1.maxWarmedSeq shape.2 = shape.2 := by
  obtain ⟨hmem, hlen, hseq, hfull⟩ := trtPrewarm_spec session host [shape] h
  have hne : (trtPrewarm session host [shape] h).1.okShapes ≠ [] := by
    rcases hok with hok | hok
    · rw [hlen] at hok
      exact List.ne_nil_of_length_pos hok
    · exact (hfull hok).1
  obtain ⟨s, hs⟩ := List.exists_mem_of_ne_nil _ hne
  obtain ⟨hs1, hran⟩ := hmem s hs
  rw [List.mem_singleton] at hs1
  subst hs1
  refine ⟨hran, hs, max_eq_right ?_⟩
  rw [hseq]
  refine top_le fun a ha => ?_
  obtain ⟨t, ht, rfl⟩ := List.mem_map.mp ha
  rw [List.mem_singleton.mp (hmem t ht).1]

end
end EmbedServer
