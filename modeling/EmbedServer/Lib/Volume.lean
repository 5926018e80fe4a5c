import Mathlib.Logic.Function.Basic
import Mathlib.Data.List.Basic

/-!
# One directory of files

Names point to files by number; a process that has a file open holds the number, so it goes on writing
into that file when the name is moved or removed.

* `create_spec`   truncates the file at the name, or makes a new one there;
* `createNew`     the same, and fails where the name exists (`createNew_eq`);
* `writeAt`       bytes at an offset; a hole before it is filled;
* `rename`, `remove`   change names only, never the content of a file.
-/

namespace EmbedServer

structure Volume (ν β : Type) where
  entry : ν → Option Nat
  content : Nat → List β
  /-- number of the next new file -/
  next : Nat

namespace Volume

section
variable {ν β : Type} [DecidableEq ν] [Inhabited β] (v : Volume ν β)

/-- what a name shows -/
def file (n : ν) : Option (List β) := (v.entry n).map v.content

/-- open for writing: the file is created if there is none, and emptied if there is -/
def create (n : ν) : Nat × Volume ν β :=
  match v.entry n with
  | some i => (i, { v with content := Function.update v.content i [] })
  | none => (v.next, {
      entry := Function.update v.entry n (some v.next)
      content := Function.update v.content v.next []
      next := v.next + 1 })

/-- open a new file for writing; fails if the name exists -/
def createNew (n : ν) : Option (Nat × Volume ν β) := if (v.entry n).isSome then none else some (v.create n)

/-- the bytes from `offset` on replaced -/
def splice (old : List β) (offset : Nat) (bytes : List β) : List β :=
  old.take offset ++ List.replicate (offset - old.length) default ++ bytes ++ old.drop (offset + bytes.length)

def writeAt (i offset : Nat) (bytes : List β) : Volume ν β :=
  { v with content := Function.update v.content i (splice (v.content i) offset bytes) }

/-- the file at `n` is now at `m`; fails if there is none -/
def rename (n m : ν) : Option (Volume ν β) :=
  (v.entry n).map fun i => { v with entry := Function.update (Function.update v.entry m (some i)) n none }

def remove (n : ν) : Volume ν β := { v with entry := Function.update v.entry n none }

/-! ## what each call changes -/

omit [Inhabited β] in
theorem create_spec (n : ν) :
    (v.create n).2.entry n = some (v.create n).1 ∧
    (∀ m, m ≠ n → (v.create n).2.entry m = v.entry m) ∧
    (v.create n).2.content (v.create n).1 = [] ∧
    (∀ j, j ≠ (v.create n).1 → (v.create n).2.content j = v.content j) ∧
    v.next ≤ (v.create n).2.next ∧
    (v.entry n = some (v.create n).1 ∨ (v.create n).1 = v.next ∧ v.next < (v.create n).2.next) := by
  unfold create
  cases hn : v.entry n with
  | some i =>
    refine ⟨hn, fun m _ => rfl, Function.update_self .., ?_, Nat.le_refl _, .inl rfl⟩
    intro j hj
    exact Function.update_of_ne hj ..
  | none =>
    refine ⟨Function.update_self .., ?_, Function.update_self .., ?_, Nat.le_succ _, ?_⟩
    · intro m hm
      exact Function.update_of_ne hm ..
    · intro j hj
      exact Function.update_of_ne hj ..
    · exact .inr ⟨rfl, Nat.lt_succ_self _⟩

omit [Inhabited β] in
theorem createNew_eq {n : ν} {i : Nat} {v' : Volume ν β} (h : v.createNew n = some (i, v')) :
    v.entry n = none ∧ i = v.next ∧ v' = {
      entry := Function.update v.entry n (some v.next)
      content := Function.update v.content v.next []
      next := v.next + 1 } := by
  unfold createNew at h
  split at h
  · cases h
  · rename_i hn
    have hnone : v.entry n = none := Option.not_isSome_iff_eq_none.mp hn
    rw [create, hnone] at h
    cases h
    exact ⟨hnone, rfl, rfl⟩

omit [DecidableEq ν] in
theorem writeAt_content (i offset : Nat) (bytes : List β) :
    (v.writeAt i offset bytes).content i = splice (v.content i) offset bytes := Function.update_self ..

omit [DecidableEq ν] in
theorem writeAt_content_of_ne {i j : Nat} (h : j ≠ i) (offset : Nat) (bytes : List β) :
    (v.writeAt i offset bytes).content j = v.content j := Function.update_of_ne h ..

omit [Inhabited β] in
theorem rename_spec {n m : ν} {v' : Volume ν β} (hne : n ≠ m) (h : v.rename n m = some v') :
    v.entry n = v'.entry m ∧ (∃ i, v'.entry m = some i) ∧ v'.entry n = none ∧ v'.content = v.content ∧
      v'.next = v.next := by
  obtain ⟨i, hi, rfl⟩ := Option.map_eq_some_iff.mp h
  have hm : Function.update (Function.update v.entry m (some i)) n none m = some i := by
    rw [Function.update_of_ne hne.symm, Function.update_self]
  exact ⟨hi.trans hm.symm, ⟨i, hm⟩, Function.update_self .., rfl, rfl⟩

omit [Inhabited β] in
theorem remove_entry (n : ν) : (v.remove n).entry n = none := Function.update_self ..

omit [Inhabited β] in
theorem remove_entry_of_ne {n m : ν} (h : m ≠ n) : (v.remove n).entry m = v.entry m :=
  Function.update_of_ne h ..

/-- a file that holds the beginning of a text, and the next bytes of that text behind it -/
theorem splice_take (text : List β) {n k : Nat} (hn : n ≤ text.length) :
    splice (text.take n) n ((text.drop n).take k) = text.take (n + k) := by
  have hlen : (text.take n).length = n := List.length_take_of_le hn
  have hdrop : (text.take n).drop (n + ((text.drop n).take k).length) = [] := by
    apply List.drop_of_length_le
    omega
  unfold splice
  rw [hlen, Nat.sub_self, List.replicate_zero, List.append_nil, hdrop, List.append_nil, List.take_take,
    Nat.min_self, List.take_add]

end
end Volume
end EmbedServer
