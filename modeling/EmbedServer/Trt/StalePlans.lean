import Mathlib.Data.List.Perm.Basic
import EmbedServer.Trt.EngineCache

/-!
# What a sweep of the engine cache leaves (`gc_stale_sm_plans`)

The names are UTF-8 here, so a name and what `to_string_lossy` shows of it are the same.  Plans and
sidecars are told apart by how their names end; a plan's tag stands right before `.engine`.

* `PlanOf`, `SidecarOf`   what the two passes look for, as a description of the names;
* `sweeps_spec`           what a sweep takes, whatever the order of its two listings;
* `gc_exact`              the whole statement.
-/

namespace EmbedServer

/-! ## names -/

/-- `…_smNN.engine` -/
def PlanOf (tag : List Char) (name : String) : Prop :=
  IsSmTag tag ∧ ∃ pre, name.toList = pre ++ '_' :: tag ++ engineExt

/-- the plan's name with `.profile` or `.timing_cache` behind it -/
def SidecarOf (plan name : String) : Prop := ∃ s ∈ engineSideSuffixes, name.toList = plan.toList ++ s

theorem planTag_iff {e : DirEntry String} {tag : List Char} :
    planTag String.toList e = some tag ↔ e.isFile = true ∧ PlanOf tag e.fileName := by
  rw [planTag_eq_some]
  refine and_congr_right fun _ => ?_
  constructor
  · rintro ⟨stem, hname, htag⟩
    obtain ⟨hsm, pre, rfl⟩ := extractSmTag_eq_some htag
    exact ⟨hsm, pre, hname⟩
  · rintro ⟨hsm, pre, hname⟩
    exact ⟨_, hname, extractSmTag_append hsm pre⟩

theorem PlanOf.matchesSmSuffix {tag : List Char} {name : String} (h : PlanOf tag name) :
    matchesSmSuffix name.toList tag = true := by
  obtain ⟨-, pre, hname⟩ := h
  unfold EmbedServer.matchesSmSuffix
  rw [hname, List.isSuffixOf_iff_suffix]
  exact ⟨pre, by simp⟩

/-- a plan has one tag -/
theorem PlanOf.unique {tag tag' : List Char} {name : String} (h : PlanOf tag name) (h' : PlanOf tag' name) :
    tag' = tag :=
  matchesSmSuffix_unique h.1 h'.1 h.matchesSmSuffix h'.matchesSmSuffix

/-- stem and extension of a plan -/
theorem PlanOf.stem {e : DirEntry String} {tag : List Char} (h : PlanOf tag e.fileName) :
    e.fileName.toList = stemOf String.toList e ++ engineExt := by
  obtain ⟨-, pre, hname⟩ := h
  unfold stemOf
  rw [hname, stripTail_eq_some.mpr rfl]
  rfl

/-- a sidecar is named like no plan -/
theorem SidecarOf.not_plan {plan name : String} (h : SidecarOf plan name) (tag : List Char) :
    ¬ PlanOf tag name := by
  rintro ⟨-, pre, hname⟩
  obtain ⟨s, hs, hside⟩ := h
  exact engine_ne_side hs (hname.symm.trans hside)

/-- the name of a sidecar says whose it is -/
theorem SidecarOf.unique {plan plan' name : String} (h : SidecarOf plan name) (h' : SidecarOf plan' name) :
    plan = plan' := by
  obtain ⟨s, hs, hname⟩ := h
  obtain ⟨s', hs', hname'⟩ := h'
  exact String.toList_inj.mp (side_unique hs hs' (hname.symm.trans hname'))

/-! ## a directory -/

/-- files and subdirectories with distinct names -/
structure Directory where
  entries : List (DirEntry String)
  distinct : (entries.map (·.fileName)).Nodup

/-- what is left without the entries of these names -/
def Directory.without (dir : Directory) (names : List String) : Directory where
  entries := dir.entries.filter fun e => decide (e.fileName ∉ names)
  distinct := (List.filter_sublist.map _).nodup dir.distinct

/-- a sweep with the two listings in some order; the second shows what the first pass left -/
def Sweeps (dir : Directory) (currentSm : List Char) (succeeds : String → Bool) (st : GcSweep String) :
    Prop :=
  ∃ first second : List (DirEntry String), first.Perm dir.entries ∧
    second.Perm (dir.without
      (first.foldl (gcPlan String.toList currentSm succeeds) (.empty String)).removed).entries ∧
    st = gcStaleSmPlans String.toList (some first) (some second) succeeds succeeds currentSm

/-- a regular file, a plan with another tag, that could be removed -/
structure RemovedPlan (dir : Directory) (currentSm : List Char) (succeeds : String → Bool)
    (e : DirEntry String) : Prop where
  mem : e ∈ dir.entries
  isFile : e.isFile = true
  stale : ∃ tag, PlanOf tag e.fileName ∧ tag ≠ currentSm
  removed : succeeds e.fileName = true

/-- a regular file, the sidecar of a removed plan, that could be removed -/
structure RemovedSidecar (dir : Directory) (currentSm : List Char) (succeeds : String → Bool)
    (e : DirEntry String) : Prop where
  mem : e ∈ dir.entries
  isFile : e.isFile = true
  plan : ∃ p, RemovedPlan dir currentSm succeeds p ∧ SidecarOf p.fileName e.fileName
  removed : succeeds e.fileName = true

section
variable {dir : Directory} {currentSm : List Char} {succeeds : String → Bool} {st : GcSweep String}

theorem Directory.eq_of_fileName {e x : DirEntry String} (he : e ∈ dir.entries) (hx : x ∈ dir.entries)
    (h : e.fileName = x.fileName) : e = x :=
  List.inj_on_of_nodup_map dir.distinct he hx h

theorem Directory.mem_without {names : List String} {e : DirEntry String} :
    e ∈ (dir.without names).entries ↔ e ∈ dir.entries ∧ e.fileName ∉ names := by
  unfold Directory.without
  rw [List.mem_filter, decide_eq_true_iff]

theorem takesPlan_iff {e : DirEntry String} : takesPlan String.toList currentSm succeeds e = true ↔
    e.isFile = true ∧ (∃ tag, PlanOf tag e.fileName ∧ tag ≠ currentSm) ∧ succeeds e.fileName = true := by
  rw [takesPlan_eq_true]
  constructor
  · rintro ⟨⟨tag, htag, hother⟩, hok⟩
    obtain ⟨hfile, hplan⟩ := planTag_iff.mp htag
    exact ⟨hfile, ⟨tag, hplan, hother⟩, hok⟩
  · rintro ⟨hfile, ⟨tag, hplan, hother⟩, hok⟩
    exact ⟨⟨tag, planTag_iff.mpr ⟨hfile, hplan⟩, hother⟩, hok⟩

theorem takesSide_iff {plans : List (DirEntry String)} (hplans : ∀ p ∈ plans, ∃ tag, PlanOf tag p.fileName)
    {e : DirEntry String} : takesSide String.toList succeeds (plans.map (stemOf String.toList)) e = true ↔
      e.isFile = true ∧ (∃ p ∈ plans, SidecarOf p.fileName e.fileName) ∧ succeeds e.fileName = true := by
  rw [takesSide_eq_true]
  constructor
  · rintro ⟨⟨stem, hstem, hmem⟩, hok⟩
    obtain ⟨hfile, s, hs, hname⟩ := sideStem_eq_some.mp hstem
    obtain ⟨p, hp, rfl⟩ := List.mem_map.mp hmem
    obtain ⟨tag, htag⟩ := hplans p hp
    exact ⟨hfile, ⟨p, hp, s, hs, by rw [hname, htag.stem]⟩, hok⟩
  · rintro ⟨hfile, ⟨p, hp, s, hs, hname⟩, hok⟩
    obtain ⟨tag, htag⟩ := hplans p hp
    refine ⟨⟨stemOf String.toList p, sideStem_eq_some.mpr ⟨hfile, s, hs, ?_⟩, List.mem_map_of_mem hp⟩, hok⟩
    rw [hname, htag.stem]

/-- a part of a listing has distinct names -/
theorem Directory.nodup_filter {entries : List (DirEntry String)} (h : entries.Perm dir.entries)
    (p : DirEntry String → Bool) : ((entries.filter p).map (·.fileName)).Nodup := by
  have hall : (entries.map (·.fileName)).Nodup := (h.map _).nodup_iff.mpr dir.distinct
  exact (List.filter_sublist.map _).nodup hall

/-- which plans and which sidecars a sweep takes -/
theorem sweeps_spec (h : Sweeps dir currentSm succeeds st) : ∃ plans sides,
    SweepBooks String.toList plans sides st ∧
    (∀ e, e ∈ plans ↔ RemovedPlan dir currentSm succeeds e) ∧
    (∀ e, e ∈ sides ↔ RemovedSidecar dir currentSm succeeds e) ∧
    ((plans ++ sides).map (·.fileName)).Nodup := by
  obtain ⟨first, second, hfirst, hsecond, rfl⟩ := h
  have hpass := (sweepBooks_empty String.toList).planPass currentSm succeeds first
  rw [hpass.removed, List.nil_append, List.append_nil] at hsecond
  have hplan : ∀ e, e ∈ first.filter (takesPlan String.toList currentSm succeeds) ↔
      RemovedPlan dir currentSm succeeds e := by
    intro e
    rw [List.mem_filter, hfirst.mem_iff, takesPlan_iff]
    exact ⟨fun ⟨hm, hf, hs, hr⟩ => ⟨hm, hf, hs, hr⟩, fun h => ⟨h.mem, h.isFile, h.stale, h.removed⟩⟩
  have hnodup := Directory.nodup_filter hfirst (takesPlan String.toList currentSm succeeds)
  have hbooks := sweep_books String.toList currentSm succeeds succeeds first second
  generalize first.filter (takesPlan String.toList currentSm succeeds) = plans at hplan hsecond hnodup hbooks
  refine ⟨plans, _, hbooks, hplan, ?_, ?_⟩
  · intro e
    have htag : ∀ p ∈ plans, ∃ tag, PlanOf tag p.fileName := by
      intro p hp
      obtain ⟨tag, htag, -⟩ := ((hplan p).mp hp).stale
      exact ⟨tag, htag⟩
    rw [List.mem_filter, hsecond.mem_iff, Directory.mem_without, takesSide_iff htag]
    constructor
    · rintro ⟨⟨hm, -⟩, hfile, ⟨p, hp, hside⟩, hok⟩
      exact ⟨hm, hfile, ⟨p, (hplan p).mp hp, hside⟩, hok⟩
    · rintro ⟨hm, hfile, ⟨p, hp, hside⟩, hok⟩
      refine ⟨⟨hm, ?_⟩, hfile, ⟨p, (hplan p).mpr hp, hside⟩, hok⟩
      -- the second listing still shows it: the first pass removes plans only
      intro hgone
      obtain ⟨x, hx, hname⟩ := List.mem_map.mp hgone
      obtain ⟨tag, hx⟩ := htag x hx
      rw [hname] at hx
      exact hside.not_plan tag hx
  · rw [List.map_append, List.nodup_append]
    refine ⟨hnodup, Directory.nodup_filter hsecond _, ?_⟩
    rintro _ hp name hs rfl
    obtain ⟨e, he, hname⟩ := List.mem_map.mp hs
    have hleft := (Directory.mem_without.mp (hsecond.mem_iff.mp (List.mem_filter.mp he).1)).2
    rw [hname] at hleft
    exact hleft hp

/-- what is removed, by name -/
theorem Sweeps.mem_removed (h : Sweeps dir currentSm succeeds st) (name : String) : name ∈ st.removed ↔
    ∃ e, (RemovedPlan dir currentSm succeeds e ∨ RemovedSidecar dir currentSm succeeds e) ∧
      e.fileName = name := by
  obtain ⟨plans, sides, hbooks, hplan, hside, -⟩ := sweeps_spec h
  rw [hbooks.removed, List.mem_map]
  refine exists_congr fun e => ?_
  rw [List.mem_append, hplan, hside]

theorem Sweeps.nodup_removed (h : Sweeps dir currentSm succeeds st) : st.removed.Nodup := by
  obtain ⟨plans, sides, hbooks, -, -, hnodup⟩ := sweeps_spec h
  rw [hbooks.removed]
  exact hnodup

/-! ## what stays -/

/-- what no sweep touches -/
structure LeftInPlace (dir : Directory) (currentSm : List Char) (removed : List String) : Prop where
  subdirectories : ∀ e ∈ dir.entries, e.isFile = false → e.fileName ∉ removed
  current : ∀ plan, PlanOf currentSm plan → plan ∉ removed ∧ ∀ side, SidecarOf plan side → side ∉ removed
  keptPlan : ∀ plan, plan ∉ removed → ∀ side, SidecarOf plan side → side ∉ removed
  unrecognised : ∀ name, (∀ tag, ¬ PlanOf tag name) →
    (∀ tag plan, PlanOf tag plan → ¬ SidecarOf plan name) → name ∉ removed

/-- a removed sidecar has a removed plan -/
theorem Sweeps.plan_removed (h : Sweeps dir currentSm succeeds st) {plan side : String}
    (hside : SidecarOf plan side) (hm : side ∈ st.removed) : plan ∈ st.removed := by
  obtain ⟨e, he | he, rfl⟩ := (h.mem_removed side).mp hm
  · obtain ⟨tag, htag, -⟩ := he.stale
    exact absurd htag (hside.not_plan tag)
  · obtain ⟨p, hp, hside'⟩ := he.plan
    rw [hside.unique hside']
    exact (h.mem_removed _).mpr ⟨p, .inl hp, rfl⟩

theorem Sweeps.current_kept (h : Sweeps dir currentSm succeeds st) {plan : String}
    (hplan : PlanOf currentSm plan) : plan ∉ st.removed := by
  intro hm
  obtain ⟨e, he | he, rfl⟩ := (h.mem_removed plan).mp hm
  · obtain ⟨tag, htag, hother⟩ := he.stale
    exact hother (hplan.unique htag)
  · obtain ⟨p, -, hside⟩ := he.plan
    exact hside.not_plan currentSm hplan

theorem Sweeps.leftInPlace (h : Sweeps dir currentSm succeeds st) :
    LeftInPlace dir currentSm st.removed where
  subdirectories := by
    intro e he hsub hm
    obtain ⟨x, hx, hname⟩ := (h.mem_removed _).mp hm
    have hmem : x ∈ dir.entries ∧ x.isFile = true := by
      rcases hx with hx | hx
      · exact ⟨hx.mem, hx.isFile⟩
      · exact ⟨hx.mem, hx.isFile⟩
    rw [Directory.eq_of_fileName hmem.1 he hname, hsub] at hmem
    exact absurd hmem.2 Bool.false_ne_true
  current := by
    intro plan hplan
    refine ⟨h.current_kept hplan, ?_⟩
    intro side hside hm
    exact h.current_kept hplan (h.plan_removed hside hm)
  keptPlan := fun plan hkept side hside hm => hkept (h.plan_removed hside hm)
  unrecognised := by
    intro name hplan hside hm
    obtain ⟨e, he | he, rfl⟩ := (h.mem_removed name).mp hm
    · obtain ⟨tag, htag, -⟩ := he.stale
      exact hplan tag htag
    · obtain ⟨p, hp, hsideOf⟩ := he.plan
      obtain ⟨tag, htag, -⟩ := hp.stale
      exact hside tag p.fileName htag hsideOf

/-! ## what is counted -/

/-- the sizes of the entries with these names, together -/
def Directory.bytes (dir : Directory) (names : List String) : Nat :=
  ((dir.entries.filter fun e => decide (e.fileName ∈ names)).map (·.size)).sum

/-- the counts are those of the removed entries -/
structure CountsRemoved (dir : Directory) (removed : List String) (stats : GcStats) : Prop where
  plans : stats.plansDeleted = removed.countP fun name => engineExt.isSuffixOf name.toList
  bytes : dir.bytes removed < 2 ^ 64 → stats.bytesFreed = dir.bytes removed
  sms : ∀ tag, tag ∈ stats.otherSmsObserved ↔ ∃ name ∈ removed, PlanOf tag name

/-- the removed names, looked up in the directory -/
theorem Sweeps.bytesFreed_eq (h : Sweeps dir currentSm succeeds st) :
    st.stats.bytesFreed = min (dir.bytes st.removed) u64Max := by
  obtain ⟨plans, sides, hbooks, hplan, hside, hnodup⟩ := sweeps_spec h
  have hperm : (dir.entries.filter fun e => decide (e.fileName ∈ st.removed)).Perm (plans ++ sides) := by
    rw [List.perm_ext_iff_of_nodup (dir.distinct.of_map.filter _) hnodup.of_map]
    intro e
    rw [List.mem_filter, decide_eq_true_iff, h.mem_removed, List.mem_append, hplan, hside]
    constructor
    · rintro ⟨he, x, hx, hname⟩
      have hmem : x ∈ dir.entries := hx.elim (·.mem) (·.mem)
      rw [← Directory.eq_of_fileName hmem he hname]
      exact hx
    · intro he
      exact ⟨he.elim (·.mem) (·.mem), e, he, rfl⟩
  rw [hbooks.bytes, Directory.bytes, (hperm.map _).sum_eq]

theorem Sweeps.countsRemoved (h : Sweeps dir currentSm succeeds st) :
    CountsRemoved dir st.removed st.stats := by
  obtain ⟨plans, sides, hbooks, hplan, hside, -⟩ := sweeps_spec h
  refine ⟨?_, ?_, ?_⟩
  · have hengine : ∀ e ∈ plans, engineExt.isSuffixOf e.fileName.toList = true := by
      intro e he
      obtain ⟨tag, htag, -⟩ := ((hplan e).mp he).stale
      rw [htag.stem, List.isSuffixOf_iff_suffix]
      exact List.suffix_append _ _
    have hother : ∀ e ∈ sides, ¬ engineExt.isSuffixOf e.fileName.toList = true := by
      intro e he hsuffix
      obtain ⟨p, -, s, hs, hname⟩ := ((hside e).mp he).plan
      obtain ⟨stem, hstem⟩ := List.isSuffixOf_iff_suffix.mp hsuffix
      exact engine_ne_side hs (hstem.trans hname)
    rw [hbooks.count, hbooks.removed, List.countP_map, List.countP_append, Function.comp_def]
    rw [List.countP_eq_length.mpr hengine, List.countP_eq_zero.mpr hother, Nat.add_zero]
  · intro hfits
    have hmax : dir.bytes st.removed ≤ u64Max := by
      unfold u64Max
      omega
    rw [h.bytesFreed_eq, Nat.min_eq_left hmax]
  · intro tag
    rw [hbooks.sms]
    constructor
    · rintro ⟨e, he, rfl⟩
      obtain ⟨tag, htag, -⟩ := ((hplan e).mp he).stale
      have hsome : planTag String.toList e = some tag := planTag_iff.mpr ⟨((hplan e).mp he).isFile, htag⟩
      rw [hsome]
      exact ⟨e.fileName, (h.mem_removed _).mpr ⟨e, .inl ((hplan e).mp he), rfl⟩, htag⟩
    · rintro ⟨name, hm, htag⟩
      obtain ⟨e, he | he, rfl⟩ := (h.mem_removed name).mp hm
      · refine ⟨e, (hplan e).mpr he, ?_⟩
        rw [planTag_iff.mpr ⟨he.isFile, htag⟩]
        rfl
      · obtain ⟨p, -, hsideOf⟩ := he.plan
        exact absurd htag (hsideOf.not_plan tag)

/-- two sweeps that agree, up to the order in which they list things -/
structure SameSweep (st st' : GcSweep String) : Prop where
  removed : st.removed.Perm st'.removed
  count : st.stats.plansDeleted = st'.stats.plansDeleted
  bytes : st.stats.bytesFreed = st'.stats.bytesFreed
  sms : ∀ tag, tag ∈ st.stats.otherSmsObserved ↔ tag ∈ st'.stats.otherSmsObserved

theorem Sweeps.same {st' : GcSweep String} (h : Sweeps dir currentSm succeeds st)
    (h' : Sweeps dir currentSm succeeds st') : SameSweep st st' := by
  have hperm : st.removed.Perm st'.removed := by
    rw [List.perm_ext_iff_of_nodup h.nodup_removed h'.nodup_removed]
    intro name
    rw [h.mem_removed, h'.mem_removed]
  refine ⟨hperm, ?_, ?_, ?_⟩
  · rw [h.countsRemoved.plans, h'.countsRemoved.plans]
    exact hperm.countP_eq _
  · have hbytes : dir.bytes st.removed = dir.bytes st'.removed := by
      unfold Directory.bytes
      simp only [hperm.mem_iff]
    rw [h.bytesFreed_eq, h'.bytesFreed_eq, hbytes]
  · intro tag
    rw [h.countsRemoved.sms, h'.countsRemoved.sms]
    simp only [hperm.mem_iff]

/-- after a sweep in which every removal succeeds nothing stale is left -/
theorem Sweeps.again {succeeds' : String → Bool} {st' : GcSweep String}
    (h : Sweeps dir currentSm succeeds st) (hall : ∀ name, succeeds name = true)
    (h' : Sweeps (dir.without st.removed) currentSm succeeds' st') : st' = .empty String := by
  obtain ⟨plans, sides, hbooks, hplan, hside, -⟩ := sweeps_spec h'
  have hnoplan : ∀ e, ¬ RemovedPlan (dir.without st.removed) currentSm succeeds' e := by
    intro e he
    obtain ⟨hmem, hkept⟩ := Directory.mem_without.mp he.mem
    exact hkept ((h.mem_removed _).mpr ⟨e, .inl ⟨hmem, he.isFile, he.stale, hall _⟩, rfl⟩)
  have hplans : plans = [] := List.eq_nil_iff_forall_not_mem.mpr fun e he => hnoplan e ((hplan e).mp he)
  have hsides : sides = [] := by
    refine List.eq_nil_iff_forall_not_mem.mpr fun e he => ?_
    obtain ⟨p, hp, -⟩ := ((hside e).mp he).plan
    exact hnoplan p hp
  subst hplans hsides
  have hsms : st'.stats.otherSmsObserved = [] := by
    refine List.eq_nil_iff_forall_not_mem.mpr fun tag ht => ?_
    obtain ⟨e, he, -⟩ := (hbooks.sms tag).mp ht
    cases he
  obtain ⟨⟨count, bytes, sms⟩, deletions, removed⟩ := st'
  obtain ⟨hremoved, hdeletions, hcount, hbytes, -⟩ := hbooks
  cases hremoved
  cases hdeletions
  cases hcount
  cases hbytes
  cases hsms
  rfl

end

/-- **Stale-plan collection removes exactly what it should.**  For a directory with distinct names, listed
in any order in either pass, with any set of removals that fail: what is removed are the regular files that
are plans of another SM, and the sidecars of those plans, as far as their removal succeeded; plans of the
current SM and their sidecars, sidecars of plans that stay, names that are neither, and subdirectories are
left in place; the counts are those of the removed entries; another order gives the same; and after a sweep
without failures a second one removes nothing. -/
theorem gc_exact (dir : Directory) (currentSm : List Char) (succeeds : String → Bool) (st : GcSweep String)
    (h : Sweeps dir currentSm succeeds st) :
    (st.removed.Nodup ∧ ∀ name, name ∈ st.removed ↔
      ∃ e, (RemovedPlan dir currentSm succeeds e ∨ RemovedSidecar dir currentSm succeeds e) ∧
        e.fileName = name) ∧
    LeftInPlace dir currentSm st.removed ∧
    CountsRemoved dir st.removed st.stats ∧
    (∀ st', Sweeps dir currentSm succeeds st' → SameSweep st st') ∧
    ((∀ name, succeeds name = true) → ∀ succeeds' st', (∀ name, succeeds' name = true) →
      Sweeps (dir.without st.removed) currentSm succeeds' st' → st' = .empty String) := by
  refine ⟨⟨h.nodup_removed, h.mem_removed⟩, h.leftInPlace, h.countsRemoved, ?_, ?_⟩
  · exact fun st' h' => h.same h'
  · exact fun hall succeeds' st' _ h' => h.again hall h'

/-- two stale plans with their profiles, a current one, and a subdirectory that is named like a plan -/
def mixedCache : Directory where
  entries :=
    [⟨"a_sm75.engine", true, 3⟩, ⟨"a_sm75.engine.profile", true, 1⟩, ⟨"b_sm86.engine", true, 5⟩,
      ⟨"b_sm86.engine.profile", true, 2⟩, ⟨"b_sm89.engine", true, 7⟩, ⟨"c_sm70.engine", false, 0⟩]
  distinct := by decide +kernel

/-- the first plan cannot be removed, so its profile stays -/
theorem gc_exact_mixed : ∃ st, Sweeps mixedCache "sm89".toList (· != "a_sm75.engine") st ∧
    st.removed = ["b_sm86.engine", "b_sm86.engine.profile"] ∧ st.stats = ⟨1, 7, ["sm86".toList]⟩ ∧
    LeftInPlace mixedCache "sm89".toList st.removed ∧ CountsRemoved mixedCache st.removed st.stats := by
  have hrun := (⟨mixedCache.entries, _, .refl _, .refl _, rfl⟩ :
    Sweeps mixedCache "sm89".toList (· != "a_sm75.engine") _)
  refine ⟨_, hrun, by decide +kernel, by decide +kernel, ?_, ?_⟩
  · exact (gc_exact mixedCache "sm89".toList (· != "a_sm75.engine") _ hrun).2.1
  · exact (gc_exact mixedCache "sm89".toList (· != "a_sm75.engine") _ hrun).2.2.1

end EmbedServer
