import EmbedServer.Config
import EmbedServer.Lib.Path
import EmbedServer.Lib.Text
import Mathlib.Data.List.Induction

/-!
# Memory limits of the container (`sysinfo.rs`)

The cgroup file system is what `memory.max` holds in every directory: `none` where it is absent or
unreadable.  `cgroupV2Walk` climbs from the process's cgroup to the mount point by `Path::parent`; each
round has one component less, so it ends.

* `climb_eq`             the walk looks at every level of the path, deepest first, and takes the first
                         numeric limit below 1 TiB;
* `cgroupV2Walk_deepest` so a reading is the deepest such limit.  It bounds nothing above its own level: a
                         smaller limit of an ancestor is not seen.
-/

namespace EmbedServer

inductive MemorySource where
  | override
  | cgroupV2
  | cgroupV1
  | hostRam
deriving DecidableEq, Repr

structure MemoryReading where
  availableBytes : Nat
  source : MemorySource
deriving DecidableEq, Repr

def oneTib : Nat := 1024 * 1024 * 1024 * 1024

/-! ## the walk -/

/-- a readable number in `memory.max` -/
def numericMax (raw : Option String) : Option Nat :=
  raw.bind fun text => parseUnsigned usizeMax (String.ofList (trim text.toList))

/-- the limit one level contributes: a number below 1 TiB -/
def limitOf (raw : Option String) : Option Nat :=
  match raw with
  | none => none
  | some text =>
    let trimmed := String.ofList (trim text.toList)
    if trimmed = "max" then none
    else
      match parseUnsigned usizeMax trimmed with
      | some bytes => if bytes < oneTib then some bytes else none
      | none => none

section
variable (memoryMax : List Component → Option String)

/-- the loop: read, stop at the mount point, go to the parent -/
def climb (fsRoot current : List Component) : Option Nat :=
  match limitOf (memoryMax current) with
  | some bytes => some bytes
  | none =>
    if current = fsRoot then none
    else
      match h : parentDir current with
      | some parent =>
        have := parentDir_length h
        climb fsRoot parent
      | none => none
termination_by current.length

/-- the path of the unified hierarchy, as the process's cgroup file gives it -/
def unifiedPath (content : String) : Option (List Char) :=
  (lines content.toList).findSome? (stripLead "0::".toList)

def cgroupV2Walk (cgroupFsRoot : String) (procSelfCgroup : Option String) : Option MemoryReading := do
  let content ← procSelfCgroup
  let cgroupRelPath ← unifiedPath content
  let cgroupDir := joinPath cgroupFsRoot.toList (cgroupRelPath.dropWhile (· == '/'))
  let bytes ← climb memoryMax (components cgroupFsRoot.toList) (components cgroupDir)
  some ⟨bytes, .cgroupV2⟩

/-- the v2 walk, then the v1 file -/
def cgroupMemory (procSelfCgroup limitInBytes : Option String) : Option MemoryReading :=
  match cgroupV2Walk memoryMax "/sys/fs/cgroup" procSelfCgroup with
  | some reading => some reading
  | none =>
    match numericMax limitInBytes with
    | some bytes => if bytes < oneTib then some ⟨bytes, .cgroupV1⟩ else none
    | none => none

/-! ## the levels -/

/-- the directories from the process's cgroup up to the mount point, deepest first -/
def levels (root rel : List Component) : List (List Component) := rel.inits.reverse.map (root ++ ·)

theorem levels_nil (root : List Component) : levels root [] = [root] := by
  simp [levels]

theorem levels_concat (root rel : List Component) (x : Component) :
    levels root (rel ++ [x]) = (root ++ (rel ++ [x])) :: levels root rel := by
  simp [levels, List.inits_append]

/-- the walk takes the first limit of the levels -/
theorem climb_eq {root rel : List Component} (hrel : Component.rootDir ∉ rel) :
    climb memoryMax root (root ++ rel) = (levels root rel).findSome? fun dir => limitOf (memoryMax dir) := by
  induction rel using List.reverseRecOn with
  | nil =>
    rw [climb, levels_nil, List.append_nil, List.findSome?_singleton]
    cases limitOf (memoryMax root) with
    | some bytes => rfl
    | none => simp
  | append_singleton rel x ih =>
    have hx : x ≠ .rootDir := fun h => hrel (by simp [h])
    have hparent : parentDir (root ++ (rel ++ [x])) = some (root ++ rel) := by
      rw [← List.append_assoc]
      exact parentDir_concat hx
    have hne : root ++ (rel ++ [x]) ≠ root := by simp
    rw [climb, levels_concat, List.findSome?_cons]
    cases limitOf (memoryMax (root ++ (rel ++ [x]))) with
    | some bytes => rfl
    | none =>
      dsimp only
      rw [if_neg hne]
      split
      · rename_i parent h
        rw [hparent] at h
        cases h
        exact ih fun h => hrel (List.mem_append_left _ h)
      · rename_i h
        rw [hparent] at h
        cases h

/-- a level contributes its number when that is below 1 TiB -/
theorem limitOf_eq_some {raw : Option String} {bytes : Nat} :
    limitOf raw = some bytes ↔ numericMax raw = some bytes ∧ bytes < oneTib := by
  cases raw with
  | none => simp [limitOf, numericMax]
  | some text =>
    unfold limitOf numericMax
    rw [Option.bind_some]
    dsimp only
    split
    · rename_i hmax
      rw [hmax]
      have hnone : parseUnsigned usizeMax "max" = none := by decide +kernel
      simp [hnone]
    · cases parseUnsigned usizeMax (String.ofList (trim text.toList)) with
      | none => simp
      | some n =>
        dsimp only
        split
        · rename_i hlt
          constructor
          · rintro ⟨rfl⟩
            exact ⟨rfl, hlt⟩
          · rintro ⟨⟨rfl⟩, -⟩
            rfl
        · rename_i hge
          constructor
          · intro h
            cases h
          · rintro ⟨⟨rfl⟩, hlt⟩
            exact absurd hlt hge

theorem limitOf_eq_none {raw : Option String} :
    limitOf raw = none ↔ ∀ n, numericMax raw = some n → oneTib ≤ n := by
  constructor
  · intro h n hn
    by_contra hlt
    have hsome := limitOf_eq_some.mpr ⟨hn, Nat.lt_of_not_le hlt⟩
    rw [h] at hsome
    cases hsome
  · intro h
    by_contra hne
    obtain ⟨bytes, hb⟩ := Option.ne_none_iff_exists'.mp hne
    obtain ⟨hn, hlt⟩ := limitOf_eq_some.mp hb
    exact absurd (h bytes hn) (Nat.not_le.mpr hlt)

/-- the levels of a request: the mount point and the relative path below it -/
def pathLevels (cgroupFsRoot : String) (rel : List Char) : List (List Component) :=
  levels (components cgroupFsRoot.toList) (relComponents cgroupFsRoot.toList (rel.dropWhile (· == '/')))

variable {memoryMax} in
theorem cgroupV2Walk_eq {cgroupFsRoot content : String} {rel : List Char} (h : unifiedPath content = some rel) :
    cgroupV2Walk memoryMax cgroupFsRoot (some content) =
      ((pathLevels cgroupFsRoot rel).findSome? fun dir => limitOf (memoryMax dir)).map
        fun bytes => ⟨bytes, .cgroupV2⟩ := by
  have hrel : (rel.dropWhile (· == '/')).head? ≠ some '/' := by
    intro hhead
    have hnot := List.head?_dropWhile_not (· == '/') rel
    rw [hhead] at hnot
    cases hnot
  unfold cgroupV2Walk pathLevels
  rw [Option.bind_eq_bind, Option.bind_some, h, Option.bind_eq_bind, Option.bind_some]
  dsimp only
  rw [components_join hrel, climb_eq memoryMax (rootDir_not_mem_rel hrel)]
  cases (levels _ _).findSome? fun dir => limitOf (memoryMax dir) with
  | none => rfl
  | some bytes => rfl

/-- **The walk finds the deepest limit.**  A reading is the number in `memory.max` of the deepest level with
one below 1 TiB; it is at most every number on the path exactly when no level above has a smaller one.
There is no reading exactly when no level has a number below 1 TiB. -/
theorem cgroupV2Walk_deepest (cgroupFsRoot content : String) (rel : List Char)
    (h : unifiedPath content = some rel) :
    (∀ reading, cgroupV2Walk memoryMax cgroupFsRoot (some content) = some reading →
      reading.source = .cgroupV2 ∧ reading.availableBytes < oneTib ∧
      ∃ below dir above, pathLevels cgroupFsRoot rel = below ++ dir :: above ∧
        numericMax (memoryMax dir) = some reading.availableBytes ∧
        (∀ d ∈ below, ∀ n, numericMax (memoryMax d) = some n → oneTib ≤ n) ∧
        ((∀ d ∈ pathLevels cgroupFsRoot rel, ∀ n, numericMax (memoryMax d) = some n →
            reading.availableBytes ≤ n) ↔
          ∀ d ∈ above, ∀ n, numericMax (memoryMax d) = some n → reading.availableBytes ≤ n)) ∧
    (cgroupV2Walk memoryMax cgroupFsRoot (some content) = none ↔
      ∀ d ∈ pathLevels cgroupFsRoot rel, ∀ n, numericMax (memoryMax d) = some n → oneTib ≤ n) := by
  rw [cgroupV2Walk_eq h]
  refine ⟨?_, ?_⟩
  · intro reading hread
    obtain ⟨bytes, hfind, rfl⟩ := Option.map_eq_some_iff.mp hread
    obtain ⟨below, dir, above, hlevels, hdir, hbelow⟩ := List.findSome?_eq_some_iff.mp hfind
    obtain ⟨hnum, hlt⟩ := limitOf_eq_some.mp hdir
    have hbelow' : ∀ d ∈ below, ∀ n, numericMax (memoryMax d) = some n → oneTib ≤ n :=
      fun d hd => limitOf_eq_none.mp (hbelow d hd)
    refine ⟨rfl, hlt, below, dir, above, hlevels, hnum, hbelow', ?_⟩
    rw [hlevels]
    constructor
    · intro hall d hd n hn
      exact hall d (by simp [hd]) n hn
    · intro habove d hd n hn
      rcases List.mem_append.mp hd with hd | hd
      · exact (Nat.le_of_lt hlt).trans (hbelow' d hd n hn)
      · rcases List.mem_cons.mp hd with rfl | hd
        · rw [hnum] at hn
          cases hn
          exact Nat.le_refl _
        · exact habove d hd n hn
  · rw [Option.map_eq_none_iff, List.findSome?_eq_none_iff]
    constructor
    · exact fun hall d hd => limitOf_eq_none.mp (hall d hd)
    · exact fun hall d hd => limitOf_eq_none.mpr (hall d hd)

end

/-- no limit anywhere, on a path with repeated slashes -/
theorem cgroupV2Walk_deepest_unlimited :
    cgroupV2Walk (fun _ => some "max\n") "/sys/fs/cgroup" (some "0::/a//b/\n") = none := by
  have hpath : unifiedPath "0::/a//b/\n" = some "/a//b/".toList := by decide +kernel
  have h := cgroupV2Walk_deepest (fun _ => some "max\n") "/sys/fs/cgroup" "0::/a//b/\n" "/a//b/".toList hpath
  refine h.2.mpr ?_
  intro d _ n hn
  have hmax : numericMax (some "max\n") = none := by decide +kernel
  rw [hmax] at hn
  cases hn

/-- 8 GiB for the container, 4 GiB for the slice above it -/
def tightSlice (dir : List Component) : Option String :=
  if dir = components "/sys/fs/cgroup/a/b".toList then some "8589934592\n"
  else if dir = components "/sys/fs/cgroup/a".toList then some "4294967296\n"
  else some "max\n"

/-- the walk reports 8 GiB where the kernel enforces 4 GiB -/
theorem cgroupV2Walk_misses_slice :
    cgroupV2Walk tightSlice "/sys/fs/cgroup" (some "0::/a/b\n") = some ⟨8589934592, .cgroupV2⟩ ∧
    ∃ dir ∈ pathLevels "/sys/fs/cgroup" "/a/b".toList, numericMax (tightSlice dir) = some 4294967296 := by
  have hpath : unifiedPath "0::/a/b\n" = some "/a/b".toList := by decide +kernel
  refine ⟨?_, components "/sys/fs/cgroup/a".toList, by decide +kernel, by decide +kernel⟩
  rw [cgroupV2Walk_eq hpath]
  decide +kernel

end EmbedServer
