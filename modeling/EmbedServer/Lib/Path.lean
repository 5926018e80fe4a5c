import Mathlib.Data.List.Infix

/-!
# Path texts and their components

Paths are compared and walked by their components: repeated and trailing slashes and inner dots do not
matter, `..` is kept as it is written.

* `components`       `Path::components`;
* `joinPath`         `Path::join` on the texts; `components_join`: it appends the components of the
                     relative path;
* `parentDir`        `Path::parent`: one component less (`parentDir_concat`).
-/

namespace EmbedServer

inductive Component where
  | rootDir
  | curDir
  | parentDir
  | normal (name : List Char)
deriving DecidableEq, Repr

def Component.ofName (name : List Char) : Component := if name = ['.', '.'] then .parentDir else .normal name

/-- the texts between the slashes -/
def pieces (cs : List Char) : List (List Char) := cs.splitOnP (· == '/')

/-- the names among them: neither empty nor a dot -/
def pathNames (cs : List Char) : List Component :=
  ((pieces cs).filter fun n => !(n.isEmpty || n == ['.'])).map Component.ofName

/-- what stands before the names: the root, or a dot -/
def leadingComponent (cs : List Char) : List Component :=
  if cs.head? = some '/' then [.rootDir] else if (pieces cs).head? = some ['.'] then [.curDir] else []

def components (cs : List Char) : List Component := leadingComponent cs ++ pathNames cs

/-- an absolute path replaces the base -/
def joinPath (base rel : List Char) : List Char :=
  if rel.head? = some '/' then rel
  else if base.isEmpty || base.getLast? == some '/' then base ++ rel
  else base ++ '/' :: rel

def parentDir (path : List Component) : Option (List Component) :=
  match path.getLast? with
  | none | some .rootDir => none
  | some _ => some path.dropLast

/-! ## joining -/

theorem pieces_append (xs ys : List Char) : pieces (xs ++ '/' :: ys) = pieces xs ++ pieces ys :=
  List.splitOnP_append_cons xs ys rfl

theorem pathNames_append (xs ys : List Char) : pathNames (xs ++ '/' :: ys) = pathNames xs ++ pathNames ys := by
  unfold pathNames
  rw [pieces_append, List.filter_append, List.map_append]

theorem pieces_head_append (xs ys : List Char) : (pieces (xs ++ '/' :: ys)).head? = (pieces xs).head? := by
  have hne : pieces xs ≠ [] := List.splitOnP_ne_nil _ xs
  rw [pieces_append, List.head?_append_of_ne_nil _ hne]

theorem leadingComponent_append {xs ys : List Char} (hne : xs ≠ []) :
    leadingComponent (xs ++ '/' :: ys) = leadingComponent xs := by
  unfold leadingComponent
  rw [List.head?_append_of_ne_nil _ hne, pieces_head_append]

/-- what a relative path adds to a base: its names, and a leading dot only where the base is empty -/
def relComponents (base rel : List Char) : List Component :=
  if base.isEmpty then components rel else pathNames rel

theorem components_join {base rel : List Char} (hrel : rel.head? ≠ some '/') :
    components (joinPath base rel) = components base ++ relComponents base rel := by
  by_cases hbase : base = []
  · subst hbase
    unfold joinPath relComponents
    rw [if_neg hrel]
    rfl
  unfold joinPath relComponents
  rw [if_neg hrel, if_neg (show ¬ base.isEmpty = true by simpa using hbase)]
  unfold components
  by_cases hlast : base.getLast? = some '/'
  · -- the base ends in a slash already
    obtain ⟨xs, rfl⟩ := List.getLast?_eq_some_iff.mp hlast
    have hnil : pathNames [] = [] := rfl
    have hlead : leadingComponent (xs ++ ['/'] ++ rel) = leadingComponent (xs ++ ['/']) := by
      cases xs with
      | nil => rfl
      | cons x xs =>
        rw [List.append_assoc, List.singleton_append, leadingComponent_append (List.cons_ne_nil _ _),
          leadingComponent_append (List.cons_ne_nil _ _)]
    rw [hlast, beq_self_eq_true, Bool.or_true, if_pos rfl, hlead, List.append_assoc xs, List.singleton_append,
      pathNames_append, pathNames_append, hnil, List.append_nil, List.append_assoc]
  · rw [if_neg (by simp [hbase, hlast]), leadingComponent_append hbase, pathNames_append, List.append_assoc]

theorem ofName_ne_rootDir (name : List Char) : Component.ofName name ≠ .rootDir := by
  unfold Component.ofName
  split
  · exact Component.noConfusion
  · exact Component.noConfusion

theorem rootDir_not_mem_pathNames (cs : List Char) : Component.rootDir ∉ pathNames cs := by
  intro h
  obtain ⟨name, -, e⟩ := List.mem_map.mp h
  exact ofName_ne_rootDir name e

theorem rootDir_not_mem_rel {base rel : List Char} (hrel : rel.head? ≠ some '/') :
    Component.rootDir ∉ relComponents base rel := by
  unfold relComponents components leadingComponent
  rw [if_neg hrel]
  split
  · intro h
    rcases List.mem_append.mp h with h | h
    · split at h
      · simp at h
      · simp at h
    · exact rootDir_not_mem_pathNames rel h
  · exact rootDir_not_mem_pathNames rel

/-! ## parents -/

theorem parentDir_concat {path : List Component} {x : Component} (hx : x ≠ .rootDir) :
    parentDir (path ++ [x]) = some path := by
  unfold parentDir
  rw [List.getLast?_concat, List.dropLast_concat]
  cases x with
  | rootDir => exact absurd rfl hx
  | curDir => rfl
  | parentDir => rfl
  | normal name => rfl

theorem parentDir_length {path p : List Component} (h : parentDir path = some p) : p.length < path.length := by
  unfold parentDir at h
  rcases List.eq_nil_or_concat path with rfl | ⟨init, x, rfl⟩
  · cases h
  · rw [List.concat_eq_append] at h ⊢
    rw [List.getLast?_concat, List.dropLast_concat] at h
    split at h
    · cases h
    · cases h
    · cases h
      simp

end EmbedServer
