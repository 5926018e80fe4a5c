import EmbedServer.Embed.Math
import EmbedServer.Lib.Text

/-!
# Which plans of the engine cache are whose (`trt_cache/enumerate.rs`, `trt_cache_gc.rs`, `sm_detect.rs`)

Counting anchors `_{sm}.engine` at the end of the file name; deleting looks for the last `_sm` of the
stem and reads the digits after it.  A directory entry is its raw name with what `lossy` shows of it.

* `matchesSmSuffix_iff`    for a tag `sm` + digits both see the same SM;
* `sweep_books`            a sweep takes the plans of the first listing, then the sidecars of the second;
* `counted_not_stale`      a plan that is counted for the SM is nothing a sweep for it removes;
* `sm_tags_agree`          the whole statement.
-/

namespace EmbedServer

/-! ## tags -/

/-- `sm` followed by one or more ASCII digits -/
def IsSmTag (tag : List Char) : Prop :=
  ∃ digits, digits ≠ [] ∧ (∀ c ∈ digits, c.isDigit = true) ∧ tag = 's' :: 'm' :: digits

def engineExt : List Char := ".engine".toList

def matchesSmSuffix (name sm : List Char) : Bool := ('_' :: (sm ++ engineExt)).isSuffixOf name

def extractSmTag (stem : List Char) : Option (List Char) :=
  match rfind "_sm".toList stem with
  | none => none
  | some idx =>
    let afterUnderscore := stem.drop (idx + 1)
    if afterUnderscore.length < 3 then none
    else
      let digits := afterUnderscore.drop 2
      if digits.isEmpty || !digits.all Char.isDigit then none else some afterUnderscore

/-- the first line that is not blank, `X.Y` with digits on both sides -/
def parseComputeCapability (stdout : List Char) : Option (List Char) := do
  let line ← (lines stdout).find? fun l => !(trim l).isEmpty
  let (major, minor) ← splitOnce '.' (trim line)
  if major.isEmpty || minor.isEmpty then none
  else if !major.all Char.isDigit || !minor.all Char.isDigit then none
  else some ('s' :: 'm' :: (major ++ minor))

theorem underscore_not_digit {digits : List Char} (h : ∀ c ∈ digits, c.isDigit = true) : '_' ∉ digits := by
  intro hm
  have hd := h '_' hm
  exact absurd hd (by decide)

/-- a stem that ends in `_` and a tag -/
theorem extractSmTag_append {tag : List Char} (ht : IsSmTag tag) (pre : List Char) :
    extractSmTag (pre ++ '_' :: tag) = some tag := by
  obtain ⟨digits, hne, hall, rfl⟩ := ht
  have hlast : rfind "_sm".toList (pre ++ '_' :: 's' :: 'm' :: digits) = some pre.length := by
    have hno : '_' ∉ ['s', 'm'] ++ digits := by
      simp [underscore_not_digit hall]
    exact rfind_append hno pre
  have hdrop : (pre ++ '_' :: 's' :: 'm' :: digits).drop (pre.length + 1) = 's' :: 'm' :: digits := by
    simp
  have hlen : 1 ≤ digits.length := List.length_pos_iff.mpr hne
  have hempty : digits.isEmpty = false := by simpa using hne
  have hdigits : digits.all Char.isDigit = true := List.all_eq_true.mpr hall
  unfold extractSmTag
  rw [hlast]
  dsimp only
  rw [hdrop, if_neg (by simp; omega)]
  simp [hempty, hdigits]

/-- what is extracted stands after an underscore at the end, and is a tag -/
theorem extractSmTag_eq_some {stem tag : List Char} (h : extractSmTag stem = some tag) :
    IsSmTag tag ∧ ∃ pre, stem = pre ++ '_' :: tag := by
  unfold extractSmTag at h
  cases hfind : rfind "_sm".toList stem with
  | none =>
    rw [hfind] at h
    cases h
  | some idx =>
    rw [hfind] at h
    dsimp only at h
    obtain ⟨rest, hrest⟩ := rfind_isPrefix hfind
    have hstem : stem = stem.take idx ++ '_' :: 's' :: 'm' :: rest := by
      conv_lhs => rw [← List.take_append_drop idx stem, ← hrest]
      rfl
    have hafter : stem.drop (idx + 1) = 's' :: 'm' :: rest := by
      rw [← List.tail_drop, ← hrest]
      rfl
    rw [hafter] at h
    split at h
    · cases h
    · split at h
      · cases h
      · rename_i hcheck
        cases h
        have hdigits : rest ≠ [] ∧ rest.all Char.isDigit = true := by
          simpa using hcheck
        exact ⟨⟨rest, hdigits.1, List.all_eq_true.mp hdigits.2, rfl⟩, _, hstem⟩

/-- **Counting and deleting read the same tag.** -/
theorem matchesSmSuffix_iff {tag : List Char} (ht : IsSmTag tag) (name : List Char) :
    matchesSmSuffix name tag = true ↔ ∃ stem, name = stem ++ engineExt ∧ extractSmTag stem = some tag := by
  unfold matchesSmSuffix
  rw [List.isSuffixOf_iff_suffix]
  constructor
  · rintro ⟨pre, rfl⟩
    refine ⟨pre ++ '_' :: tag, by simp, extractSmTag_append ht pre⟩
  · rintro ⟨stem, rfl, htag⟩
    obtain ⟨-, pre, rfl⟩ := extractSmTag_eq_some htag
    exact ⟨pre, by simp⟩

theorem matchesSmSuffix_unique {name tag tag' : List Char} (ht : IsSmTag tag) (ht' : IsSmTag tag')
    (h : matchesSmSuffix name tag = true) (h' : matchesSmSuffix name tag' = true) : tag' = tag := by
  obtain ⟨stem, hname, htag⟩ := (matchesSmSuffix_iff ht name).mp h
  obtain ⟨stem', hname', htag'⟩ := (matchesSmSuffix_iff ht' name).mp h'
  have hstem : stem' = stem := List.append_cancel_right (hname'.symm.trans hname)
  rw [hstem, htag] at htag'
  exact (Option.some.inj htag').symm

theorem parseComputeCapability_isSmTag {stdout tag : List Char} (h : parseComputeCapability stdout = some tag) :
    IsSmTag tag := by
  unfold parseComputeCapability at h
  obtain ⟨line, -, h⟩ := Option.bind_eq_some_iff.mp h
  obtain ⟨⟨major, minor⟩, -, h⟩ := Option.bind_eq_some_iff.mp h
  dsimp only at h
  split at h
  · cases h
  · rename_i hne
    split at h
    · cases h
    · rename_i hdig
      cases h
      have hmajor : major ≠ [] := by
        rintro rfl
        exact hne rfl
      have hall : major.all Char.isDigit = true ∧ minor.all Char.isDigit = true := by
        simpa using hdig
      refine ⟨major ++ minor, by simp [hmajor], ?_, rfl⟩
      intro c hc
      rcases List.mem_append.mp hc with hc | hc
      · exact List.all_eq_true.mp hall.1 c hc
      · exact List.all_eq_true.mp hall.2 c hc

/-! ## the cache directory -/

/-- one entry; the size is `0` where it cannot be read -/
structure DirEntry (α : Type) where
  fileName : α
  isFile : Bool
  size : Nat

structure GcStats where
  plansDeleted : Nat
  bytesFreed : Nat
  otherSmsObserved : List (List Char)
deriving DecidableEq, Repr

/-- a sweep: its counts, the stems of the deleted plans, and the files removed so far -/
structure GcSweep (α : Type) where
  stats : GcStats
  deletions : List (List Char)
  removed : List α

def GcSweep.empty (α : Type) : GcSweep α := ⟨⟨0, 0, []⟩, [], []⟩

def engineSideSuffixes : List (List Char) := [".profile".toList, ".timing_cache".toList]

/-- `str::strip_suffix` -/
def stripTail (tail cs : List Char) : Option (List Char) :=
  if tail.isSuffixOf cs then some (cs.take (cs.length - tail.length)) else none

section
variable {α : Type} (lossy : α → List Char)

/-- the plans of the directory that match the SM, all plans without one -/
def engineFilesForSm (dir : Option (List (DirEntry α))) (sm : Option (List Char)) : List α :=
  match dir with
  | none => []
  | some entries =>
    (entries.filter (·.isFile)).filterMap fun e =>
      let name := lossy e.fileName
      if !engineExt.isSuffixOf name then none
      else
        match sm with
        | some target => if !matchesSmSuffix name target then none else some e.fileName
        | none => some e.fileName

/-- the plan pass, for one entry -/
def gcPlan (currentSm : List Char) (remove : α → Bool) (st : GcSweep α) (e : DirEntry α) : GcSweep α :=
  if !e.isFile then st
  else
    match stripTail engineExt (lossy e.fileName) with
    | none => st
    | some stem =>
      match extractSmTag stem with
      | none => st
      | some planSm =>
        if planSm = currentSm then st
        else if remove e.fileName then
          { stats :=
              { plansDeleted := st.stats.plansDeleted + 1
                bytesFreed := satAddU64 st.stats.bytesFreed e.size
                otherSmsObserved :=
                  if planSm ∈ st.stats.otherSmsObserved then st.stats.otherSmsObserved
                  else st.stats.otherSmsObserved ++ [planSm] }
            deletions := st.deletions ++ [stem]
            removed := st.removed ++ [e.fileName] }
        else st

/-- the sidecar pass, for one entry -/
def gcSidecar (remove : α → Bool) (st : GcSweep α) (e : DirEntry α) : GcSweep α :=
  if !e.isFile then st
  else
    match engineSideSuffixes.findSome? fun s => stripTail s (lossy e.fileName) with
    | none => st
    | some withEngine =>
      match stripTail engineExt withEngine with
      | none => st
      | some stem =>
        if stem ∈ st.deletions ∧ remove e.fileName = true then
          { st with
            stats := { st.stats with bytesFreed := satAddU64 st.stats.bytesFreed e.size }
            removed := st.removed ++ [e.fileName] }
        else st

/-- both passes; the directory is listed again for the second -/
def gcStaleSmPlans (first second : Option (List (DirEntry α))) (removePlan removeSidecar : α → Bool)
    (currentSm : List Char) : GcSweep α :=
  match first with
  | none => .empty α
  | some entries =>
    let st := entries.foldl (gcPlan lossy currentSm removePlan) (.empty α)
    if st.deletions.isEmpty then st
    else
      match second with
      | none => st
      | some entries => entries.foldl (gcSidecar lossy removeSidecar) st

/-! ## one entry -/

/-- the tag of a regular file that is a plan -/
def planTag (e : DirEntry α) : Option (List Char) :=
  if e.isFile then (stripTail engineExt (lossy e.fileName)).bind extractSmTag else none

/-- the stem of the plan, for a regular file that is named like its sidecar -/
def sideStem (e : DirEntry α) : Option (List Char) :=
  if e.isFile then
    (engineSideSuffixes.findSome? fun s => stripTail s (lossy e.fileName)).bind (stripTail engineExt)
  else none

/-- the stem of a plan's name -/
def stemOf (e : DirEntry α) : List Char := (stripTail engineExt (lossy e.fileName)).getD []

/-- the plan pass removes this entry -/
def takesPlan (currentSm : List Char) (remove : α → Bool) (e : DirEntry α) : Bool :=
  (planTag lossy e).any (· != currentSm) && remove e.fileName

/-- the sidecar pass removes this entry, after the plans with these stems -/
def takesSide (remove : α → Bool) (stems : List (List Char)) (e : DirEntry α) : Bool :=
  (sideStem lossy e).any stems.contains && remove e.fileName

/-- the books after one more plan -/
def GcSweep.addPlan (st : GcSweep α) (e : DirEntry α) : GcSweep α :=
  { stats :=
      { plansDeleted := st.stats.plansDeleted + 1
        bytesFreed := satAddU64 st.stats.bytesFreed e.size
        otherSmsObserved :=
          if st.stats.otherSmsObserved.contains ((planTag lossy e).getD []) then st.stats.otherSmsObserved
          else st.stats.otherSmsObserved ++ [(planTag lossy e).getD []] }
    deletions := st.deletions ++ [stemOf lossy e]
    removed := st.removed ++ [e.fileName] }

/-- the books after one more sidecar -/
def GcSweep.addSide (st : GcSweep α) (e : DirEntry α) : GcSweep α :=
  { st with
    stats := { st.stats with bytesFreed := satAddU64 st.stats.bytesFreed e.size }
    removed := st.removed ++ [e.fileName] }

variable {lossy} {e : DirEntry α} {currentSm : List Char}

theorem stripTail_eq_some {tail cs rest : List Char} :
    stripTail tail cs = some rest ↔ cs = rest ++ tail := by
  unfold stripTail
  constructor
  · intro h
    split at h
    · rename_i hs
      obtain ⟨pre, rfl⟩ := List.isSuffixOf_iff_suffix.mp hs
      cases h
      simp
    · cases h
  · rintro rfl
    rw [if_pos (List.isSuffixOf_iff_suffix.mpr (List.suffix_append rest tail))]
    simp

/-- no ending is the end of another -/
theorem endings_apart : (∀ s ∈ engineSideSuffixes, ∀ s' ∈ engineSideSuffixes, s <:+ s' → s = s') ∧
    ∀ s ∈ engineSideSuffixes, ¬ s <:+ engineExt ∧ ¬ engineExt <:+ s := by
  decide +kernel

/-- a plan is no sidecar -/
theorem engine_ne_side {stem base s : List Char} (hs : s ∈ engineSideSuffixes) :
    stem ++ engineExt ≠ base ++ s := by
  intro h
  have hleft := List.suffix_append stem engineExt
  have hright : s <:+ stem ++ engineExt := by
    rw [h]
    exact List.suffix_append base s
  rcases List.suffix_or_suffix_of_suffix hleft hright with hsuffix | hsuffix
  · exact (endings_apart.2 s hs).2 hsuffix
  · exact (endings_apart.2 s hs).1 hsuffix

/-- the name of a sidecar says whose it is -/
theorem side_unique {base base' s s' : List Char} (hs : s ∈ engineSideSuffixes)
    (hs' : s' ∈ engineSideSuffixes) (h : base ++ s = base' ++ s') : base = base' := by
  have he : s = s' := by
    rcases List.suffix_or_suffix_of_suffix (List.suffix_append base s) (h ▸ List.suffix_append base' s')
      with hss | hss
    · exact endings_apart.1 s hs s' hs' hss
    · exact (endings_apart.1 s' hs' s hs hss).symm
  rw [he] at h
  exact List.append_cancel_right h

theorem findSome_side {cs base : List Char} :
    (engineSideSuffixes.findSome? fun s => stripTail s cs) = some base ↔
      ∃ s ∈ engineSideSuffixes, cs = base ++ s := by
  constructor
  · intro h
    obtain ⟨s, hs, hstrip⟩ := List.exists_of_findSome?_eq_some h
    exact ⟨s, hs, stripTail_eq_some.mp hstrip⟩
  · rintro ⟨s, hs, rfl⟩
    cases hfind : engineSideSuffixes.findSome? fun t => stripTail t (base ++ s) with
    | none =>
      have hno := List.findSome?_eq_none_iff.mp hfind s hs
      rw [stripTail_eq_some.mpr rfl] at hno
      cases hno
    | some base' =>
      obtain ⟨t, ht, hstrip⟩ := List.exists_of_findSome?_eq_some hfind
      rw [side_unique hs ht (stripTail_eq_some.mp hstrip)]

theorem planTag_eq_some {tag : List Char} : planTag lossy e = some tag ↔
    e.isFile = true ∧ ∃ stem, lossy e.fileName = stem ++ engineExt ∧ extractSmTag stem = some tag := by
  unfold planTag
  split
  · rename_i hfile
    rw [Option.bind_eq_some_iff]
    simp only [stripTail_eq_some]
    exact ⟨fun h => ⟨hfile, h⟩, fun h => h.2⟩
  · rename_i hfile
    constructor
    · intro h
      cases h
    · exact fun h => absurd h.1 hfile

theorem sideStem_eq_some {stem : List Char} : sideStem lossy e = some stem ↔
    e.isFile = true ∧ ∃ s ∈ engineSideSuffixes, lossy e.fileName = stem ++ engineExt ++ s := by
  unfold sideStem
  split
  · rename_i hfile
    rw [Option.bind_eq_some_iff]
    constructor
    · rintro ⟨base, hbase, hstem⟩
      obtain ⟨s, hs, hname⟩ := findSome_side.mp hbase
      rw [stripTail_eq_some.mp hstem] at hname
      exact ⟨hfile, s, hs, hname⟩
    · rintro ⟨-, s, hs, hname⟩
      exact ⟨_, findSome_side.mpr ⟨s, hs, hname⟩, stripTail_eq_some.mpr rfl⟩
  · rename_i hfile
    constructor
    · intro h
      cases h
    · exact fun h => absurd h.1 hfile

theorem takesPlan_eq_true {remove : α → Bool} : takesPlan lossy currentSm remove e = true ↔
    (∃ tag, planTag lossy e = some tag ∧ tag ≠ currentSm) ∧ remove e.fileName = true := by
  unfold takesPlan
  rw [Bool.and_eq_true, Option.any_eq_true]
  simp only [bne_iff_ne]

theorem takesSide_eq_true {remove : α → Bool} {stems : List (List Char)} :
    takesSide lossy remove stems e = true ↔
      (∃ stem, sideStem lossy e = some stem ∧ stem ∈ stems) ∧ remove e.fileName = true := by
  unfold takesSide
  rw [Bool.and_eq_true, Option.any_eq_true]
  simp only [List.contains_iff_mem]

theorem gcPlan_eq (remove : α → Bool) (st : GcSweep α) (e : DirEntry α) :
    gcPlan lossy currentSm remove st e =
      if takesPlan lossy currentSm remove e then st.addPlan lossy e else st := by
  have hleft : planTag lossy e = none → ¬ takesPlan lossy currentSm remove e = true := by
    intro h
    simp [takesPlan, h]
  unfold gcPlan
  split
  · rename_i hfile
    rw [if_neg (hleft (if_neg (by simpa using hfile)))]
  · rename_i hfile
    split
    · rename_i hstem
      rw [if_neg (hleft (by simp [planTag, hstem]))]
    · rename_i stem hstem
      split
      · rename_i htag
        rw [if_neg (hleft (by simp [planTag, hstem, htag]))]
      · rename_i planSm htag
        have hplan : planTag lossy e = some planSm := by
          simpa [planTag, hstem, htag] using hfile
        split
        · rename_i hcurrent
          rw [if_neg (by simp [takesPlan, hplan, hcurrent])]
        · rename_i hcurrent
          by_cases hok : remove e.fileName = true
          · have hstemOf : stemOf lossy e = stem := by simp [stemOf, hstem]
            have htake : takesPlan lossy currentSm remove e = true :=
              takesPlan_eq_true.mpr ⟨⟨planSm, hplan, hcurrent⟩, hok⟩
            rw [if_pos hok, if_pos htake, GcSweep.addPlan, hplan, hstemOf, Option.getD_some]
            simp only [List.contains_iff_mem]
          · rw [if_neg hok, if_neg (by simp [takesPlan, hok])]

theorem gcSidecar_eq (remove : α → Bool) (st : GcSweep α) (e : DirEntry α) :
    gcSidecar lossy remove st e = if takesSide lossy remove st.deletions e then st.addSide e else st := by
  have hleft : sideStem lossy e = none → ¬ takesSide lossy remove st.deletions e = true := by
    intro h
    simp [takesSide, h]
  unfold gcSidecar
  split
  · rename_i hfile
    rw [if_neg (hleft (if_neg (by simpa using hfile)))]
  · rename_i hfile
    split
    · rename_i hside
      rw [if_neg (hleft (by simp [sideStem, hside]))]
    · rename_i withEngine hside
      split
      · rename_i hstem
        rw [if_neg (hleft (by simp [sideStem, hside, hstem]))]
      · rename_i stem hstem
        have hsome : sideStem lossy e = some stem := by
          simpa [sideStem, hside, hstem] using hfile
        by_cases htake : stem ∈ st.deletions ∧ remove e.fileName = true
        · rw [if_pos htake, if_pos (by simpa [takesSide, hsome] using htake)]
          rfl
        · rw [if_neg htake, if_neg (by simpa [takesSide, hsome] using htake)]

/-! ## the books of a sweep -/

/-- a sweep that took these plans and then these sidecars -/
structure SweepBooks (lossy : α → List Char) (plans sides : List (DirEntry α)) (st : GcSweep α) : Prop where
  removed : st.removed = (plans ++ sides).map (·.fileName)
  deletions : st.deletions = plans.map (stemOf lossy)
  count : st.stats.plansDeleted = plans.length
  bytes : st.stats.bytesFreed = min ((plans ++ sides).map (·.size)).sum u64Max
  sms : ∀ tag, tag ∈ st.stats.otherSmsObserved ↔ ∃ e ∈ plans, (planTag lossy e).getD [] = tag

variable {plans sides : List (DirEntry α)} {st : GcSweep α}

theorem sweepBooks_empty (lossy : α → List Char) : SweepBooks lossy [] [] (GcSweep.empty α) where
  removed := rfl
  deletions := rfl
  count := rfl
  bytes := rfl
  sms := fun _ => ⟨fun h => absurd h List.not_mem_nil, fun ⟨_, he, _⟩ => absurd he List.not_mem_nil⟩

theorem SweepBooks.addPlan (h : SweepBooks lossy plans [] st) (e : DirEntry α) :
    SweepBooks lossy (plans ++ [e]) [] (st.addPlan lossy e) := by
  have hremoved := h.removed
  have hbytes := h.bytes
  rw [List.append_nil] at hremoved hbytes
  refine ⟨?_, ?_, ?_, ?_, ?_⟩
  · show st.removed ++ [e.fileName] = _
    rw [hremoved, List.append_nil, List.map_append]
    rfl
  · show st.deletions ++ [stemOf lossy e] = _
    rw [h.deletions, List.map_append]
    rfl
  · show st.stats.plansDeleted + 1 = _
    rw [h.count, List.length_append]
    rfl
  · show satAddU64 st.stats.bytesFreed e.size = _
    rw [hbytes, List.append_nil, List.map_append, List.sum_append]
    simp only [List.map_cons, List.map_nil, List.sum_cons, List.sum_nil, Nat.add_zero]
    unfold satAddU64
    omega
  · intro tag
    have hadd : tag ∈ (st.addPlan lossy e).stats.otherSmsObserved ↔
        tag ∈ st.stats.otherSmsObserved ∨ (planTag lossy e).getD [] = tag := by
      show tag ∈ (if st.stats.otherSmsObserved.contains ((planTag lossy e).getD []) then
        st.stats.otherSmsObserved else st.stats.otherSmsObserved ++ [(planTag lossy e).getD []]) ↔ _
      split
      · rename_i hseen
        constructor
        · exact .inl
        · rintro (ht | rfl)
          · exact ht
          · exact List.contains_iff_mem.mp hseen
      · rw [List.mem_append, List.mem_singleton, eq_comm]
    rw [hadd, h.sms]
    constructor
    · rintro (⟨x, hx, ht⟩ | ht)
      · exact ⟨x, List.mem_append_left _ hx, ht⟩
      · exact ⟨e, List.mem_append_right _ (List.mem_singleton.mpr rfl), ht⟩
    · rintro ⟨x, hx, ht⟩
      rcases List.mem_append.mp hx with hx | hx
      · exact .inl ⟨x, hx, ht⟩
      · rw [List.mem_singleton.mp hx] at ht
        exact .inr ht

theorem SweepBooks.addSide (h : SweepBooks lossy plans sides st) (e : DirEntry α) :
    SweepBooks lossy plans (sides ++ [e]) (st.addSide e) := by
  refine ⟨?_, h.deletions, h.count, ?_, h.sms⟩
  · show st.removed ++ [e.fileName] = _
    rw [← List.append_assoc, List.map_append, h.removed]
    rfl
  · show satAddU64 st.stats.bytesFreed e.size = _
    rw [← List.append_assoc, List.map_append, List.sum_append, h.bytes]
    simp only [List.map_cons, List.map_nil, List.sum_cons, List.sum_nil, Nat.add_zero]
    unfold satAddU64
    omega

variable (currentSm) (removePlan removeSidecar : α → Bool)

theorem SweepBooks.planPass (h : SweepBooks lossy plans [] st) (entries : List (DirEntry α)) :
    SweepBooks lossy (plans ++ entries.filter (takesPlan lossy currentSm removePlan)) []
      (entries.foldl (gcPlan lossy currentSm removePlan) st) := by
  induction entries generalizing plans st with
  | nil =>
    rw [List.filter_nil, List.append_nil]
    exact h
  | cons e entries ih =>
    rw [List.foldl_cons, gcPlan_eq]
    by_cases he : takesPlan lossy currentSm removePlan e = true
    · rw [if_pos he, List.filter_cons_of_pos he, List.append_cons]
      exact ih (h.addPlan e)
    · rw [if_neg he, List.filter_cons_of_neg he]
      exact ih h

theorem SweepBooks.sidePass (h : SweepBooks lossy plans sides st) (entries : List (DirEntry α)) :
    SweepBooks lossy plans
      (sides ++ entries.filter (takesSide lossy removeSidecar (plans.map (stemOf lossy))))
      (entries.foldl (gcSidecar lossy removeSidecar) st) := by
  induction entries generalizing sides st with
  | nil =>
    rw [List.filter_nil, List.append_nil]
    exact h
  | cons e entries ih =>
    rw [List.foldl_cons, gcSidecar_eq, h.deletions]
    by_cases he : takesSide lossy removeSidecar (plans.map (stemOf lossy)) e = true
    · rw [if_pos he, List.filter_cons_of_pos he, List.append_cons]
      exact ih (h.addSide e)
    · rw [if_neg he, List.filter_cons_of_neg he]
      exact ih h

variable (lossy) in
/-- the plans of the first listing, then the sidecars of the second; without a plan there is no second -/
theorem sweep_books (first second : List (DirEntry α)) :
    SweepBooks lossy (first.filter (takesPlan lossy currentSm removePlan))
      (second.filter (takesSide lossy removeSidecar
        ((first.filter (takesPlan lossy currentSm removePlan)).map (stemOf lossy))))
      (gcStaleSmPlans lossy (some first) (some second) removePlan removeSidecar currentSm) := by
  have hplans := (sweepBooks_empty lossy).planPass currentSm removePlan first
  rw [List.nil_append] at hplans
  unfold gcStaleSmPlans
  dsimp only
  split
  · rename_i hnone
    rw [hplans.deletions, List.isEmpty_iff] at hnone
    have hnoside : second.filter (takesSide lossy removeSidecar []) = [] := by
      rw [List.filter_eq_nil_iff]
      intro e _ he
      obtain ⟨⟨stem, -, hmem⟩, -⟩ := takesSide_eq_true.mp he
      cases hmem
    rw [hnone, hnoside]
    exact hplans
  · have hsides := hplans.sidePass removeSidecar second
    rw [List.nil_append] at hsides
    exact hsides

/-! ## what a sweep removes -/

/-- a plan of another SM, or a sidecar -/
def Stale (lossy : α → List Char) (currentSm : List Char) (file : α) : Prop :=
  (∃ stem tag, lossy file = stem ++ engineExt ∧ extractSmTag stem = some tag ∧ tag ≠ currentSm) ∨
  ∃ base, ∃ s ∈ engineSideSuffixes, lossy file = base ++ s

theorem gc_lists_stale (first second : List (DirEntry α)) :
    ∀ f ∈ (gcStaleSmPlans lossy (some first) (some second) removePlan removeSidecar currentSm).removed,
      Stale lossy currentSm f := by
  intro f hf
  rw [(sweep_books lossy currentSm removePlan removeSidecar first second).removed] at hf
  obtain ⟨e, he, rfl⟩ := List.mem_map.mp hf
  rcases List.mem_append.mp he with he | he
  · obtain ⟨⟨tag, htag, hother⟩, -⟩ := takesPlan_eq_true.mp (List.mem_filter.mp he).2
    obtain ⟨-, stem, hname, hstem⟩ := planTag_eq_some.mp htag
    exact .inl ⟨stem, tag, hname, hstem, hother⟩
  · obtain ⟨⟨stem, hstem, -⟩, -⟩ := takesSide_eq_true.mp (List.mem_filter.mp he).2
    obtain ⟨-, s, hs, hname⟩ := sideStem_eq_some.mp hstem
    exact .inr ⟨_, s, hs, hname⟩

theorem gc_removes_stale (first second : Option (List (DirEntry α))) :
    ∀ f ∈ (gcStaleSmPlans lossy first second removePlan removeSidecar currentSm).removed,
      Stale lossy currentSm f := by
  cases first with
  | none =>
    intro f hf
    cases hf
  | some entries =>
    cases second with
    -- a second listing that cannot be read is as good as an empty one
    | none => exact gc_lists_stale currentSm removePlan removeSidecar entries []
    | some entries' => exact gc_lists_stale currentSm removePlan removeSidecar entries entries'

variable {currentSm}

/-- a plan counted for the SM is neither a plan of another SM nor a sidecar -/
theorem counted_not_stale (ht : IsSmTag currentSm) {dir : Option (List (DirEntry α))} {f : α}
    (hf : f ∈ engineFilesForSm lossy dir (some currentSm)) : ¬ Stale lossy currentSm f := by
  have hmatch : matchesSmSuffix (lossy f) currentSm = true := by
    cases dir with
    | none => cases hf
    | some entries =>
      obtain ⟨e, -, he⟩ := List.mem_filterMap.mp hf
      dsimp only at he
      split at he
      · cases he
      · split at he
        · cases he
        · rename_i hm
          cases he
          simpa using hm
  obtain ⟨stem, hname, htag⟩ := (matchesSmSuffix_iff ht (lossy f)).mp hmatch
  rintro (⟨stem', tag, hname', htag', hother⟩ | ⟨base, s, hs, hname'⟩)
  · have hstem : stem' = stem := List.append_cancel_right (hname'.symm.trans hname)
    rw [hstem, htag] at htag'
    exact hother (Option.some.inj htag').symm
  · exact engine_ne_side hs (hname.symm.trans hname')

end

/-- **Counting and deleting agree on what a plan's SM is.**  For a tag `sm` + digits: the suffix test holds
exactly for the plans whose stem has this tag; no other tag matches the same name; a sweep for the SM
removes no plan counted for it, whatever the two listings show and whichever removals succeed; and what
the compute capability is parsed to is such a tag. -/
theorem sm_tags_agree {α : Type} (lossy : α → List Char) (tag : List Char) (ht : IsSmTag tag) :
    (∀ name, matchesSmSuffix name tag = true ↔
      ∃ stem, name = stem ++ engineExt ∧ extractSmTag stem = some tag) ∧
    (∀ name tag', IsSmTag tag' → matchesSmSuffix name tag = true → matchesSmSuffix name tag' = true →
      tag' = tag) ∧
    (∀ stdout sm, parseComputeCapability stdout = some sm → IsSmTag sm) ∧
    ∀ dir first second removePlan removeSidecar, ∀ f ∈ engineFilesForSm lossy dir (some tag),
      f ∉ (gcStaleSmPlans lossy first second removePlan removeSidecar tag).removed := by
  refine ⟨matchesSmSuffix_iff ht, ?_, ?_, ?_⟩
  · exact fun name tag' ht' h h' => matchesSmSuffix_unique ht ht' h h'
  · exact fun stdout sm h => parseComputeCapability_isSmTag h
  · intro dir first second removePlan removeSidecar f hf hremoved
    exact counted_not_stale ht hf (gc_removes_stale tag removePlan removeSidecar first second f hremoved)

/-- a plan whose tag begins with the tag asked for -/
theorem sm_tags_agree_sm12 :
    matchesSmSuffix "graph_sm120.engine".toList ['s', 'm', '1', '2'] = false := by
  have h := sm_tags_agree (fun name : List Char => name) ['s', 'm', '1', '2']
    ⟨['1', '2'], List.cons_ne_nil _ _, by simp, rfl⟩
  rw [← Bool.not_eq_true]
  intro hm
  have hother := h.2.1 _ ['s', 'm', '1', '2', '0'] ⟨['1', '2', '0'], List.cons_ne_nil _ _, by simp, rfl⟩ hm
    (by decide +kernel)
  simp at hother

end EmbedServer
