import EmbedServer.Lib.Hull
import EmbedServer.Worker.Runs

/-!
# The warm-cache shortcut of the pre-warm (`trt_warmup.rs`)

An engine profile is a box of shapes.  A session has the profile `BoxProfile` when a run is fast exactly
if its shape is in the box, and a successful run extends the box to its shape.

* `coverageCheckShapes_extremes`   on each side of every shape of the list, in each dimension, there is
                                   a representative;
* `trtPrewarm_runs`                the stats are counts of the dummy runs, in both phases;
* `prewarm_shortcut_sound`         a list found fully cached was covered from the start, and the runs
                                   have not changed the profile.
-/

namespace EmbedServer

/-! ## profiles -/

/-- the shapes an engine is built for; `none` before the first build -/
abbrev Profile := Option (NonemptyInterval Shape)

namespace Profile

def covers (p : Profile) (s : Shape) : Prop := ∃ b, p = some b ∧ s ∈ b

def extend (p : Profile) (s : Shape) : Profile :=
  match p with
  | none => some (NonemptyInterval.pure s)
  | some b => some (Box.extend b s)

instance (p : Profile) (s : Shape) : Decidable (p.covers s) :=
  match p with
  | none => .isFalse fun ⟨_, hb, _⟩ => nomatch hb
  | some b => decidable_of_iff (b.fst ≤ s ∧ s ≤ b.snd)
      ⟨fun h => ⟨b, rfl, h⟩, fun ⟨_, hb, h⟩ => Option.some.inj hb ▸ h⟩

/-- a shape inside changes nothing -/
theorem extend_of_covers {p : Profile} {s : Shape} (h : p.covers s) : p.extend s = p := by
  obtain ⟨b, rfl, hs⟩ := h
  have hle : NonemptyInterval.pure s ≤ b := by
    rw [NonemptyInterval.mem_def] at hs
    exact NonemptyInterval.le_def.mpr hs
  show some (b ⊔ NonemptyInterval.pure s) = some b
  rw [sup_eq_left.mpr hle]

/-- a box with a point on each side of `s` in each dimension holds `s` -/
theorem covers_of_extremes {p : Profile} {s t1 t2 t3 t4 : Shape} (h1 : p.covers t1) (h2 : p.covers t2)
    (h3 : p.covers t3) (h4 : p.covers t4) (e1 : t1.1 ≤ s.1) (e2 : s.1 ≤ t2.1) (e3 : t3.2 ≤ s.2)
    (e4 : s.2 ≤ t4.2) : p.covers s := by
  obtain ⟨b, rfl, m1⟩ := h1
  obtain ⟨b2, hb2, m2⟩ := h2
  obtain ⟨b3, hb3, m3⟩ := h3
  obtain ⟨b4, hb4, m4⟩ := h4
  cases hb2
  cases hb3
  cases hb4
  refine ⟨b, rfl, ?_⟩
  rw [NonemptyInterval.mem_def, Prod.le_def, Prod.le_def] at m1 m2 m3 m4 ⊢
  exact ⟨⟨m1.1.1.trans e1, m3.1.2.trans e3⟩, e2.trans m2.2.1, e4.trans m4.2.2⟩

end Profile

/-- the profile of a session along its runs -/
structure BoxProfile {F : Type} (session : Session F) where
  profile : Trace → Profile
  hit_iff : ∀ h (s : Shape), toU64 (session.run h (warmupArrays s.1 s.2)).elapsedMs < cacheHitThresholdMs ↔
    (profile h).covers s
  after : ∀ h (s : Shape), profile (h ++ [warmupArrays s.1 s.2]) =
    if session.succeeds h (warmupArrays s.1 s.2) then (profile h).extend s else profile h

/-- the profile after some runs, of which the given ones fail -/
def boxAfter (p : Profile) (fails : Trace → ChunkArrays → Bool) (h : Trace) : Profile :=
  (collect (fun h x => if fails h x then none else some x.size) [] h).foldl Profile.extend p

/-- a session that starts with the profile `p` and whose runs fail as told -/
def boxSession (p : Profile) (fails : Trace → ChunkArrays → Bool) (F : Type) : Session F where
  run h x :=
    { outputs := if fails h x then .error "TensorRT EP failed" else .ok fun _ => none
      elapsedMs := if (boxAfter p fails h).covers x.size then 0 else cacheHitThresholdMs }

section
variable (p : Profile) (fails : Trace → ChunkArrays → Bool) (F : Type)

theorem boxSession_hit_iff (h : Trace) (s : Shape) :
    toU64 ((boxSession p fails F).run h (warmupArrays s.1 s.2)).elapsedMs < cacheHitThresholdMs ↔
      (boxAfter p fails h).covers s := by
  show toU64 (if (boxAfter p fails h).covers s then 0 else cacheHitThresholdMs) < cacheHitThresholdMs ↔ _
  by_cases hc : (boxAfter p fails h).covers s
  · rw [if_pos hc]
    exact iff_of_true (by decide) hc
  · rw [if_neg hc]
    exact iff_of_false (by decide +kernel) hc

theorem boxSession_succeeds (h : Trace) (x : ChunkArrays) :
    (boxSession p fails F).succeeds h x = !fails h x := by
  unfold Session.succeeds boxSession
  dsimp only
  by_cases hf : fails h x = true
  · rw [if_pos hf, hf]
    rfl
  · rw [if_neg hf, Bool.eq_false_iff.mpr hf]
    rfl

theorem boxAfter_snoc (h : Trace) (s : Shape) :
    boxAfter p fails (h ++ [warmupArrays s.1 s.2]) =
      if (boxSession p fails F).succeeds h (warmupArrays s.1 s.2) then (boxAfter p fails h).extend s
      else boxAfter p fails h := by
  rw [boxSession_succeeds]
  unfold boxAfter
  rw [collect_append, List.foldl_append, List.nil_append, collect, collect_nil, List.append_nil]
  by_cases hf : fails h (warmupArrays s.1 s.2) = true
  · rw [if_pos hf, hf]
    rfl
  · rw [if_neg hf, Bool.eq_false_iff.mpr hf]
    rfl

/-- every initial profile and every pattern of failing runs is that of a session -/
def boxProfile : BoxProfile (boxSession p fails F) where
  profile := boxAfter p fails
  hit_iff := boxSession_hit_iff p fails F
  after := boxAfter_snoc p fails F

end

/-! ## the representatives -/

section
variable {op : Nat → Nat → Nat} {R : Nat → Nat → Prop} [IsTrans Nat R] [Std.Refl R]

/-- a minimum or a maximum of the list: `R` to every value, and one of them -/
theorem foldl_extreme (hpick : ∀ a b, op a b = a ∨ op a b = b) (hleft : ∀ a b, R (op a b) a)
    (hright : ∀ a b, R (op a b) b) (f : Shape → Nat) (rest : List Shape) (n : Nat) :
    R (rest.foldl (fun b t => op b (f t)) n) n ∧
    (∀ t ∈ rest, R (rest.foldl (fun b t => op b (f t)) n) (f t)) ∧
    (rest.foldl (fun b t => op b (f t)) n = n ∨ ∃ t ∈ rest, f t = rest.foldl (fun b t => op b (f t)) n) := by
  induction rest generalizing n with
  | nil => exact ⟨refl_of R n, by simp, .inl rfl⟩
  | cons a rest ih =>
    obtain ⟨h1, h2, h3⟩ := ih (op n (f a))
    rw [List.foldl_cons]
    refine ⟨trans_of R h1 (hleft _ _), ?_, ?_⟩
    · intro t ht
      rcases List.mem_cons.mp ht with rfl | ht
      · exact trans_of R h1 (hright _ _)
      · exact h2 t ht
    · rcases h3 with h3 | ⟨t, ht, h3⟩
      · rcases hpick n (f a) with hm | hm
        · exact .inl (h3.trans hm)
        · exact .inr ⟨a, List.mem_cons_self, (h3.trans hm).symm⟩
      · exact .inr ⟨t, List.mem_cons_of_mem _ ht, h3⟩

/-- the first shape with the extreme value -/
theorem find_extreme (hpick : ∀ a b, op a b = a ∨ op a b = b) (hleft : ∀ a b, R (op a b) a)
    (hright : ∀ a b, R (op a b) b) (f : Shape → Nat) (s : Shape) (rest : List Shape) :
    ∃ t, (s :: rest).find? (fun t => f t == rest.foldl (fun b t => op b (f t)) (f s)) = some t ∧
      ∀ u ∈ s :: rest, R (f t) (f u) := by
  obtain ⟨h1, h2, h3⟩ := foldl_extreme hpick hleft hright f rest (f s)
  have hsome : ∃ t ∈ s :: rest, f t = rest.foldl (fun b t => op b (f t)) (f s) := by
    rcases h3 with h3 | ⟨t, ht, h3⟩
    · exact ⟨s, List.mem_cons_self, h3.symm⟩
    · exact ⟨t, List.mem_cons_of_mem _ ht, h3⟩
  cases hf : (s :: rest).find? (fun t => f t == rest.foldl (fun b t => op b (f t)) (f s)) with
  | none =>
    obtain ⟨t, ht, heq⟩ := hsome
    exact absurd (beq_iff_eq.mpr heq) (List.find?_eq_none.mp hf t ht)
  | some t =>
    refine ⟨t, rfl, ?_⟩
    have heq : f t = rest.foldl (fun b t => op b (f t)) (f s) := by
      have hbeq := List.find?_some hf
      simpa using hbeq
    intro u hu
    rw [heq]
    rcases List.mem_cons.mp hu with rfl | hu
    · exact h1
    · exact h2 u hu

end

/-- **On each side of every shape there is a representative.** -/
theorem coverageCheckShapes_extremes {shapes : List Shape} {s : Shape} (hs : s ∈ shapes) :
    (∃ t ∈ coverageCheckShapes shapes, t.1 ≤ s.1) ∧ (∃ t ∈ coverageCheckShapes shapes, s.1 ≤ t.1) ∧
    (∃ t ∈ coverageCheckShapes shapes, t.2 ≤ s.2) ∧ ∃ t ∈ coverageCheckShapes shapes, s.2 ≤ t.2 := by
  cases shapes with
  | nil => cases hs
  | cons s0 rest =>
    have hmin := fun f => @find_extreme min (· ≤ ·) _ _ min_choice min_le_left min_le_right f s0 rest
    have hmax := fun f => @find_extreme max (· ≥ ·) _ _ max_choice le_max_left le_max_right f s0 rest
    obtain ⟨t1, f1, h1⟩ := hmin Prod.fst
    obtain ⟨t2, f2, h2⟩ := hmax Prod.fst
    obtain ⟨t3, f3, h3⟩ := hmin Prod.snd
    obtain ⟨t4, f4, h4⟩ := hmax Prod.snd
    have hmem : ∀ t, t ∈ coverageCheckShapes (s0 :: rest) ↔ t = t1 ∨ t = t2 ∨ t = t3 ∨ t = t4 := by
      intro t
      unfold coverageCheckShapes
      dsimp only
      rw [f1, f2, f3, f4, mem_dedup]
      simp
    refine ⟨⟨t1, (hmem t1).mpr (by simp), h1 s hs⟩, ⟨t2, (hmem t2).mpr (by simp), h2 s hs⟩,
      ⟨t3, (hmem t3).mpr (by simp), h3 s hs⟩, ⟨t4, (hmem t4).mpr (by simp), h4 s hs⟩⟩

/-- dropping repeated entries leaves none, and adds none -/
theorem dedup_nodup (l acc : List Shape) (h : acc.Nodup) :
    (l.foldl (fun result t => if result.contains t then result else result ++ [t]) acc).Nodup ∧
    (l.foldl (fun result t => if result.contains t then result else result ++ [t]) acc).length ≤
      acc.length + l.length := by
  induction l generalizing acc with
  | nil => exact ⟨h, Nat.le_refl _⟩
  | cons a l ih =>
    rw [List.foldl_cons]
    by_cases ha : acc.contains a = true
    · rw [if_pos ha]
      obtain ⟨h1, h2⟩ := ih acc h
      exact ⟨h1, h2.trans (by simp)⟩
    · rw [if_neg ha]
      have hnot : a ∉ acc := by simpa using ha
      obtain ⟨h1, h2⟩ := ih (acc ++ [a]) (List.nodup_append.mpr ⟨h, List.nodup_singleton a,
        fun x hx y hy e => hnot (by rw [← List.mem_singleton.mp hy, ← e]; exact hx)⟩)
      refine ⟨h1, h2.trans ?_⟩
      simp only [List.length_append, List.length_cons, List.length_nil]
      omega

theorem coverageCheckShapes_nodup (shapes : List Shape) :
    (coverageCheckShapes shapes).Nodup ∧ (coverageCheckShapes shapes).length ≤ 4 := by
  cases shapes with
  | nil => exact ⟨List.nodup_nil, by simp [coverageCheckShapes]⟩
  | cons s rest =>
    unfold coverageCheckShapes
    dsimp only
    refine ⟨(dedup_nodup _ [] List.nodup_nil).1, (dedup_nodup _ [] List.nodup_nil).2.trans ?_⟩
    rw [List.length_nil, Nat.zero_add]
    exact List.length_filterMap_le id _

/-! ## the dummy runs -/

/-- a dummy run of a shape, after the given inputs -/
structure DummyRun where
  shape : Shape
  before : Trace

/-- no empty dimension: the shape reaches the session -/
def Shape.solid (s : Shape) : Bool := decide (0 < s.1 ∧ 0 < s.2)

namespace DummyRun

def succeeds {F : Type} (session : Session F) (r : DummyRun) : Bool :=
  Shape.solid r.shape && session.succeeds r.before (warmupArrays r.shape.1 r.shape.2)

def hit {F : Type} (session : Session F) (r : DummyRun) : Bool :=
  decide (toU64 (session.run r.before (warmupArrays r.shape.1 r.shape.2)).elapsedMs < cacheHitThresholdMs)

def after (r : DummyRun) : Trace :=
  if Shape.solid r.shape then r.before ++ [warmupArrays r.shape.1 r.shape.2] else r.before

end DummyRun

/-- the runs of the shapes in turn -/
def dummyRuns (h : Trace) : List Shape → List DummyRun
  | [] => []
  | s :: shapes => ⟨s, h⟩ :: dummyRuns (DummyRun.after ⟨s, h⟩) shapes

/-- the inputs of the session after them -/
def traceAfter (h : Trace) (shapes : List Shape) : Trace :=
  shapes.foldl (fun h s => DummyRun.after ⟨s, h⟩) h

theorem dummyRuns_append (h : Trace) (l l' : List Shape) :
    dummyRuns h (l ++ l') = dummyRuns h l ++ dummyRuns (traceAfter h l) l' := by
  induction l generalizing h with
  | nil => rfl
  | cons s l ih =>
    rw [List.cons_append, dummyRuns, dummyRuns, ih, List.cons_append]
    rfl

theorem traceAfter_append (h : Trace) (l l' : List Shape) :
    traceAfter h (l ++ l') = traceAfter (traceAfter h l) l' := List.foldl_append

/-- the shape of an input -/
def inputShape (x : ChunkArrays) : Option Shape :=
  match x.ids.shape with
  | [batch, seq] => some (batch, seq)
  | _ => none

/-- the shapes of what a session has run -/
def ranShapes (h : Trace) : List Shape := h.filterMap inputShape

theorem ranShapes_traceAfter (h : Trace) (l : List Shape) :
    ranShapes (traceAfter h l) = ranShapes h ++ l.filter Shape.solid := by
  induction l generalizing h with
  | nil => exact (List.append_nil _).symm
  | cons s l ih =>
    show ranShapes (traceAfter (DummyRun.after ⟨s, h⟩) l) = _
    rw [ih, List.filter_cons, DummyRun.after]
    by_cases hs : Shape.solid s = true
    · rw [if_pos hs, if_pos hs, ranShapes, ranShapes, List.filterMap_append, List.append_assoc]
      rfl
    · rw [if_neg hs, if_neg hs]

/-- only solid shapes count -/
theorem traceAfter_solid (h : Trace) (l : List Shape) : traceAfter h (l.filter Shape.solid) = traceAfter h l := by
  induction l generalizing h with
  | nil => rfl
  | cons s l ih =>
    show _ = traceAfter (DummyRun.after ⟨s, h⟩) l
    rw [List.filter_cons]
    by_cases hs : Shape.solid s = true
    · rw [if_pos hs]
      exact ih _
    · have hafter : DummyRun.after ⟨s, h⟩ = h := if_neg hs
      rw [if_neg hs, hafter]
      exact ih h

theorem dummyRuns_solid (h : Trace) (l : List Shape) :
    dummyRuns h (l.filter Shape.solid) = (dummyRuns h l).filter fun r => Shape.solid r.shape := by
  induction l generalizing h with
  | nil => rfl
  | cons s l ih =>
    rw [dummyRuns, List.filter_cons, List.filter_cons]
    by_cases hs : Shape.solid s = true
    · rw [if_pos hs, if_pos hs, dummyRuns, ih]
    · have hafter : DummyRun.after ⟨s, h⟩ = h := if_neg hs
      rw [if_neg hs, if_neg hs, hafter, ih]

theorem dummyRuns_shapes (h : Trace) (l : List Shape) : (dummyRuns h l).map DummyRun.shape = l := by
  induction l generalizing h with
  | nil => rfl
  | cons s l ih => rw [dummyRuns, List.map_cons, ih]

section
variable {F : Type} (session : Session F) (host : Host)

/-- a shape with an empty dimension does not reach the session -/
theorem probeRunDense_empty {s : Shape} (hs : Shape.solid s = false) (h : Trace) :
    ∃ e, probeRunDense session host (warmupArrays s.1 s.2) h = (.err e, h) := by
  have hzero : ([s.1, s.2].contains 0) = true := by
    unfold Shape.solid at hs
    have hdim : ¬ (0 < s.1 ∧ 0 < s.2) := of_decide_eq_false hs
    rw [List.contains_iff_mem, List.mem_cons, List.mem_singleton]
    omega
  obtain ⟨e, hids⟩ : ∃ e, tensorRef (warmupArrays s.1 s.2).ids = .err e := ⟨_, if_pos hzero⟩
  refine ⟨e, ?_⟩
  unfold probeRunDense
  rw [hids]

theorem probeRunDense_solid {s : Shape} (hs : Shape.solid s = true) (h : Trace) :
    (∃ r, probeRunDense session host (warmupArrays s.1 s.2) h = (.ok r, h ++ [warmupArrays s.1 s.2]) ∧
      session.succeeds h (warmupArrays s.1 s.2) = true) ∨
    (∃ e, probeRunDense session host (warmupArrays s.1 s.2) h = (.err e, h ++ [warmupArrays s.1 s.2]) ∧
      session.succeeds h (warmupArrays s.1 s.2) = false) := by
  obtain ⟨hb, hq⟩ : 0 < s.1 ∧ 0 < s.2 := of_decide_eq_true hs
  have hids : tensorRef (warmupArrays s.1 s.2).ids = .ok () := tensorRef_ok rfl hb.ne' hq.ne'
  have hmask : tensorRef (warmupArrays s.1 s.2).mask = .ok () := tensorRef_ok rfl hb.ne' hq.ne'
  unfold probeRunDense Session.succeeds
  dsimp only
  rw [hids, hmask]
  unfold runSession
  dsimp only
  cases (session.run h (warmupArrays s.1 s.2)).outputs with
  | ok outs => exact .inl ⟨_, rfl, rfl⟩
  | error e => exact .inr ⟨_, rfl, rfl⟩

/-- what `runWarmupShape` does, as a dummy run -/
theorem runWarmupShape_eq (s : Shape) (h : Trace) :
    (runWarmupShape session host s h).1.succeeded = DummyRun.succeeds session ⟨s, h⟩ ∧
    (runWarmupShape session host s h).1.cacheHit = DummyRun.hit session ⟨s, h⟩ ∧
    (runWarmupShape session host s h).2 = DummyRun.after ⟨s, h⟩ := by
  unfold runWarmupShape DummyRun.succeeds DummyRun.hit DummyRun.after
  dsimp only
  cases hs : Shape.solid s with
  | false =>
    obtain ⟨e, he⟩ := probeRunDense_empty session host hs h
    rw [he]
    exact ⟨rfl, rfl, rfl⟩
  | true =>
    rcases probeRunDense_solid session host hs h with ⟨r, hr, hok⟩ | ⟨e, he, hok⟩
    · rw [hr, hok]
      exact ⟨rfl, rfl, rfl⟩
    · rw [he, hok]
      exact ⟨rfl, rfl, rfl⟩

/-- `acc'` adds the counts of the runs to `acc` -/
structure Tallies (acc acc' : PrewarmAcc) (runs : List DummyRun) : Prop where
  warmed : acc'.warmed = acc.warmed + runs.countP (DummyRun.succeeds session)
  fresh : acc'.freshCompiles =
    acc.freshCompiles + runs.countP fun r => r.succeeds session && !r.hit session
  seq : acc'.maxWarmedSeq =
    max acc.maxWarmedSeq (top ((runs.filter (DummyRun.succeeds session)).map fun r => r.shape.2))

theorem Tallies.nil (acc : PrewarmAcc) : Tallies session acc acc [] :=
  ⟨rfl, rfl, (Nat.max_zero _).symm⟩

theorem Tallies.trans {a b c : PrewarmAcc} {runs runs' : List DummyRun} (h : Tallies session a b runs)
    (h' : Tallies session b c runs') : Tallies session a c (runs ++ runs') := by
  refine ⟨?_, ?_, ?_⟩
  · rw [h'.warmed, h.warmed, List.countP_append, Nat.add_assoc]
  · rw [h'.fresh, h.fresh, List.countP_append, Nat.add_assoc]
  · rw [h'.seq, h.seq, List.filter_append, List.map_append, top_append, max_assoc]

theorem prewarmStep_tallies (check : Bool) (acc : PrewarmAcc) (h : Trace) (s : Shape) :
    Tallies session acc (prewarmStep session host check (acc, h) s).1 [⟨s, h⟩] ∧
    (prewarmStep session host check (acc, h) s).2 = DummyRun.after ⟨s, h⟩ ∧
    (prewarmStep session host true (acc, h) s).1.allChecksFast =
      (acc.allChecksFast && (DummyRun.hit session ⟨s, h⟩ && DummyRun.succeeds session ⟨s, h⟩)) := by
  obtain ⟨hok, hhit, hafter⟩ := runWarmupShape_eq session host s h
  unfold prewarmStep
  dsimp only
  refine ⟨?_, hafter, ?_⟩
  · rw [hok, hhit]
    refine ⟨?_, ?_, ?_⟩
    · cases hs : DummyRun.succeeds session ⟨s, h⟩ <;> cases check <;>
        cases DummyRun.hit session ⟨s, h⟩ <;> simp [hs]
    · cases hs : DummyRun.succeeds session ⟨s, h⟩ <;> cases check <;>
        cases ht : DummyRun.hit session ⟨s, h⟩ <;> simp [hs, ht]
    · cases hs : DummyRun.succeeds session ⟨s, h⟩ <;> cases check <;>
        cases DummyRun.hit session ⟨s, h⟩ <;> simp [hs]
  · rw [hok, hhit]
    cases DummyRun.succeeds session ⟨s, h⟩ <;> cases DummyRun.hit session ⟨s, h⟩ <;> simp

/-- both loops: the counts of their runs, and in the loop over the extremes whether all were fast -/
theorem prewarmLoop_tallies (check : Bool) (shapes : List Shape) (acc : PrewarmAcc) (h : Trace) :
    Tallies session acc (shapes.foldl (prewarmStep session host check) (acc, h)).1 (dummyRuns h shapes) ∧
    (shapes.foldl (prewarmStep session host check) (acc, h)).2 = traceAfter h shapes ∧
    (check = true → (shapes.foldl (prewarmStep session host check) (acc, h)).1.allChecksFast =
      (acc.allChecksFast && (dummyRuns h shapes).all fun r => r.hit session && r.succeeds session)) := by
  induction shapes generalizing acc h with
  | nil => exact ⟨Tallies.nil session acc, rfl, fun _ => (Bool.and_true _).symm⟩
  | cons s shapes ih =>
    obtain ⟨htally, hafter, hfast⟩ := prewarmStep_tallies session host check acc h s
    rw [List.foldl_cons, dummyRuns, ← List.singleton_append]
    have hpair : prewarmStep session host check (acc, h) s =
        ((prewarmStep session host check (acc, h) s).1, DummyRun.after ⟨s, h⟩) := by
      rw [← hafter]
    rw [hpair]
    obtain ⟨htally', hafter', hfast'⟩ := ih (prewarmStep session host check (acc, h) s).1
      (DummyRun.after ⟨s, h⟩)
    refine ⟨htally.trans session htally', hafter', ?_⟩
    rintro rfl
    rw [hfast' rfl, hfast, Bool.and_assoc]
    rfl

/-- the dummy runs of a pre-warm: the extremes if engine files are on disk, and the other shapes unless
all extremes were fast -/
theorem trtPrewarm_runs {shapes : List Shape} (hne : shapes ≠ []) (h : Trace) :
    ∃ check full, check = (if host.engineCount h > 0 then coverageCheckShapes shapes else []) ∧
      (trtPrewarm session host shapes h).2 = traceAfter h (check ++ full) ∧
      (trtPrewarm session host shapes h).1.warmed =
        (dummyRuns h (check ++ full)).countP (DummyRun.succeeds session) ∧
      (trtPrewarm session host shapes h).1.freshCompiles =
        (dummyRuns h (check ++ full)).countP (fun r => r.succeeds session && !r.hit session) ∧
      (trtPrewarm session host shapes h).1.maxWarmedSeq =
        top (((dummyRuns h (check ++ full)).filter (DummyRun.succeeds session)).map fun r => r.shape.2) ∧
      ((trtPrewarm session host shapes h).1.fullyCached = true ∧ check ≠ [] ∧ full = [] ∧
          ((dummyRuns h check).all fun r => r.hit session && r.succeeds session) = true ∨
        (trtPrewarm session host shapes h).1.fullyCached = false ∧
          full = shapes.filter fun s => !check.contains s) := by
  have hempty : ¬ shapes.isEmpty = true := by simpa using hne
  unfold trtPrewarm
  dsimp only
  rw [if_neg hempty]
  generalize (if host.engineCount h > 0 then coverageCheckShapes shapes else []) = check
  obtain ⟨htally, htrace, hfast⟩ := prewarmLoop_tallies session host true check
    ⟨0, 0, 0, 0, 0, !check.isEmpty, []⟩ h
  have hfast := hfast rfl
  generalize hst : check.foldl (prewarmStep session host true) _ = st at htally htrace hfast ⊢
  obtain ⟨acc, h1⟩ := st
  dsimp only at htally htrace hfast ⊢
  by_cases hall : acc.allChecksFast = true
  · rw [if_pos hall]
    rw [hall] at hfast
    obtain ⟨hcheck, hruns⟩ := Bool.and_eq_true_iff.mp hfast.symm
    refine ⟨check, [], rfl, ?_, ?_, ?_, ?_, .inl ⟨rfl, by simpa using hcheck, rfl, hruns⟩⟩
    · rw [List.append_nil]
      exact htrace
    · rw [List.append_nil]
      exact htally.warmed.trans (Nat.zero_add _)
    · rw [List.append_nil]
      exact htally.fresh.trans (Nat.zero_add _)
    · rw [List.append_nil]
      exact htally.seq.trans (Nat.zero_max _)
  · rw [if_neg hall]
    obtain ⟨htally', htrace', -⟩ := prewarmLoop_tallies session host false
      (shapes.filter fun s => !check.contains s) acc h1
    rw [htrace] at htally' htrace'
    have hboth := htally.trans session htally'
    rw [← dummyRuns_append] at hboth
    refine ⟨check, _, rfl, ?_, ?_, ?_, ?_, .inr ⟨rfl, rfl⟩⟩
    · rw [traceAfter_append, htrace]
      exact htrace'
    · rw [htrace]
      exact hboth.warmed.trans (Nat.zero_add _)
    · rw [htrace]
      exact hboth.fresh.trans (Nat.zero_add _)
    · rw [htrace]
      exact hboth.seq.trans (Nat.zero_max _)

end

/-! ## the shortcut -/

section
variable {F : Type} {session : Session F} (P : BoxProfile session)

/-- a run is a hit exactly if its shape is in the box at that moment -/
theorem BoxProfile.hit_eq (r : DummyRun) :
    r.hit session = decide ((P.profile r.before).covers r.shape) :=
  decide_eq_decide.mpr (P.hit_iff r.before r.shape)

/-- a fast and successful run leaves the box as it is -/
theorem BoxProfile.after_fast {s : Shape} {h : Trace} (hhit : DummyRun.hit session ⟨s, h⟩ = true)
    (hok : DummyRun.succeeds session ⟨s, h⟩ = true) :
    (P.profile h).covers s ∧ P.profile (DummyRun.after ⟨s, h⟩) = P.profile h := by
  have hcov : (P.profile h).covers s := by
    rw [P.hit_eq] at hhit
    exact of_decide_eq_true hhit
  obtain ⟨hsolid, hrun⟩ := Bool.and_eq_true_iff.mp hok
  have hrun : session.succeeds h (warmupArrays s.1 s.2) = true := hrun
  refine ⟨hcov, ?_⟩
  unfold DummyRun.after
  rw [if_pos hsolid, P.after h s, if_pos hrun]
  exact Profile.extend_of_covers hcov

/-- along runs that are all fast and successful the box never moves, so it held every one of the shapes
from the start -/
theorem BoxProfile.fast_runs (shapes : List Shape) (h : Trace)
    (hfast : ((dummyRuns h shapes).all fun r => r.hit session && r.succeeds session) = true) :
    (∀ s ∈ shapes, (P.profile h).covers s) ∧ P.profile (traceAfter h shapes) = P.profile h := by
  induction shapes generalizing h with
  | nil => exact ⟨fun s hs => absurd hs List.not_mem_nil, rfl⟩
  | cons s shapes ih =>
    rw [dummyRuns, List.all_cons, Bool.and_eq_true_iff, Bool.and_eq_true_iff] at hfast
    obtain ⟨⟨hhit, hok⟩, hrest⟩ := hfast
    obtain ⟨hcov, hsame⟩ := P.after_fast hhit hok
    obtain ⟨hcovs, hend⟩ := ih _ hrest
    rw [hsame] at hcovs hend
    refine ⟨?_, hend⟩
    intro t ht
    rcases List.mem_cons.mp ht with rfl | ht
    · exact hcov
    · exact hcovs t ht

/-- a box that holds the representatives holds the list -/
theorem covers_of_representatives {p : Profile} {shapes : List Shape}
    (h : ∀ t ∈ coverageCheckShapes shapes, p.covers t) : ∀ s ∈ shapes, p.covers s := by
  intro s hs
  obtain ⟨⟨t1, m1, e1⟩, ⟨t2, m2, e2⟩, ⟨t3, m3, e3⟩, t4, m4, e4⟩ := coverageCheckShapes_extremes hs
  exact Profile.covers_of_extremes (h t1 m1) (h t2 m2) (h t3 m3) (h t4 m4) e1 e2 e3 e4

/-- **The warm-cache shortcut is sound.**  At most four distinct shapes of the shard are checked.  A shard
reported fully cached was in the profile from the start, and the profile is unchanged; otherwise every
shape is attempted, none of the checked ones a second time, and the stats count the runs. -/
theorem prewarm_shortcut_sound (host : Host) (shard : List Shape) (hne : shard ≠ []) (h : Trace) :
    ((coverageCheckShapes shard).length ≤ 4 ∧ (coverageCheckShapes shard).Nodup ∧
      ∀ t ∈ coverageCheckShapes shard, t ∈ shard) ∧
    ((trtPrewarm session host shard h).1.fullyCached = true →
      (∀ s ∈ shard, (P.profile h).covers s) ∧
      P.profile (trtPrewarm session host shard h).2 = P.profile h) ∧
    ((trtPrewarm session host shard h).1.fullyCached = false →
      ∃ check full, check = (if host.engineCount h > 0 then coverageCheckShapes shard else []) ∧
        (trtPrewarm session host shard h).2 = traceAfter h (check ++ full) ∧
        (∀ s, s ∈ shard ↔ s ∈ check ++ full) ∧ (∀ s ∈ check, s ∉ full) ∧
        (trtPrewarm session host shard h).1.warmed =
          (dummyRuns h (check ++ full)).countP (DummyRun.succeeds session) ∧
        (trtPrewarm session host shard h).1.freshCompiles = (dummyRuns h (check ++ full)).countP
          (fun r => r.succeeds session && !decide ((P.profile r.before).covers r.shape)) ∧
        (trtPrewarm session host shard h).1.maxWarmedSeq =
          top (((dummyRuns h (check ++ full)).filter (DummyRun.succeeds session)).map fun r => r.shape.2)) := by
  obtain ⟨check, full, hcheck, htrace, hwarmed, hfresh, hseq, hcase⟩ :=
    trtPrewarm_runs session host hne h
  have hmem := (coverageCheckShapes_spec shard).1
  refine ⟨⟨(coverageCheckShapes_nodup shard).2, (coverageCheckShapes_nodup shard).1, hmem⟩, ?_, ?_⟩
  · intro hfull
    rcases hcase with ⟨-, hsome, rfl, hall⟩ | ⟨hnot, -⟩
    · obtain ⟨hcov, hsame⟩ := P.fast_runs check h hall
      rw [htrace, List.append_nil]
      refine ⟨covers_of_representatives ?_, hsame⟩
      by_cases hdisk : host.engineCount h > 0
      · rwa [hcheck, if_pos hdisk] at hcov
      · rw [if_neg hdisk] at hcheck
        exact absurd hcheck hsome
    · rw [hnot] at hfull
      cases hfull
  · intro hnot
    rcases hcase with ⟨hfull, -⟩ | ⟨-, hrest⟩
    · rw [hfull] at hnot
      cases hnot
    · have hsub : ∀ s ∈ check, s ∈ shard := by
        rw [hcheck]
        split
        · exact hmem
        · exact fun s hs => absurd hs List.not_mem_nil
      have hfull : ∀ s, s ∈ full ↔ s ∈ shard ∧ s ∉ check := by
        intro s
        rw [hrest, List.mem_filter]
        simp
      simp only [P.hit_eq] at hfresh
      refine ⟨check, full, hcheck, htrace, ?_, ?_, hwarmed, hfresh, hseq⟩
      · intro s
        rw [List.mem_append, hfull]
        constructor
        · intro hs
          by_cases hc : s ∈ check
          · exact .inl hc
          · exact .inr ⟨hs, hc⟩
        · rintro (hs | hs)
          · exact hsub s hs
          · exact hs.1
      · intro s hs hf
        exact ((hfull s).mp hf).2 hs

end

/-- engine files on disk -/
def warmHost : Host := ⟨fun _ => 1, fun _ => 0, fun _ => none⟩

/-- the profile of an engine built for shapes from `(1, 1)` to the given one -/
def upTo (s : Shape) : Profile := Profile.extend (Profile.extend none (1, 1)) s

/-- an L-shaped shard with a repeated shape: found cached with a profile that holds it, and run in full
with one that misses a side, where the third run fails -/
theorem prewarm_shortcut_sound_ell :
    (∀ s ∈ [(2, 1), (1, 3), (2, 1), (1, 1)], (boxAfter (upTo (2, 4)) (fun _ _ => false) []).covers s) ∧
    ∃ check full : List Shape, (∀ s, s ∈ [(2, 1), (1, 3), (2, 1), (1, 1)] ↔ s ∈ check ++ full) ∧
      ∀ s ∈ check, s ∉ full := by
  have hwarm := prewarm_shortcut_sound (boxProfile (upTo (2, 4)) (fun _ _ => false) Unit) warmHost
    [(2, 1), (1, 3), (2, 1), (1, 1)] (by decide) []
  have hcold := prewarm_shortcut_sound (boxProfile (upTo (1, 4)) (fun h _ => h.length == 2) Unit) warmHost
    [(2, 1), (1, 3), (2, 1), (1, 1)] (by decide) []
  obtain ⟨check, full, -, -, hall, hnot, -⟩ := hcold.2.2 (by decide +kernel)
  exact ⟨(hwarm.2.1 (by decide +kernel)).1, check, full, hall, hnot⟩

end EmbedServer
