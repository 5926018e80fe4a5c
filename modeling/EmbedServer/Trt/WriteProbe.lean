import EmbedServer.Lib.Transition
import EmbedServer.Lib.Volume
import Mathlib.Data.List.Infix

/-!
# The write probe (`trt_cache/inspect.rs`)

Every load of the models for TensorRT writes nine bytes to `.write_probe` in the engine cache directory,
reads them back and removes the file.  The name is fixed and the directory shared, so probes of several
workers and hosts may overlap; any call may fail and a process may die between two of them.

* `Dir.step`               one step of any probe;
* `write_probe_harmless`   no other file changes, and what is read back is a beginning of the nine bytes;
* `write_probe_removed`    when no probe is killed and no removal fails, none leaves the file behind;
* `write_probe_truthful`   probes that do not overlap report a failure exactly if a call of theirs failed;
* `write_probe_misled`     one that does may report a mismatch although every call succeeded.
-/

set_option linter.unusedSectionVars false

namespace EmbedServer.WriteProbe

/-- `PROBE_DATA` -/
def probeData : List UInt8 := "trt-probe".toList.map fun c => c.toNat.toUInt8

/-- `phase` of the error event -/
inductive Phase where
  | create
  | write
  | read
  | mismatch (bytesReadBack : Nat)
  | unlink
deriving DecidableEq, Repr

inductive Event where
  /-- `write probe failed` -/
  | failed (phase : Phase)
  /-- `write probe succeeded` -/
  | succeeded (bytesReadBack : Nat)
deriving DecidableEq, Repr

/-- where a call of `run_write_probe` is -/
inductive Pc where
  | idle
  /-- the stale file is removed, or not -/
  | create
  /-- in `write_all`: the open file and how much is written -/
  | writing (inode count : Nat)
  | written
  /-- in `read_to_end`: the open file and what is read of it -/
  | reading (inode : Nat) (buf : List UInt8)
  /-- the error is logged, the file not removed -/
  | cleanup (phase : Phase)
  /-- the bytes agree -/
  | unlink (bytesReadBack : Nat)
  | ended (log : List Event)
  | dead
deriving DecidableEq

/-- between the first call and the last -/
def Pc.underway : Pc → Bool
  | .idle | .ended _ | .dead => false
  | _ => true

/-- after some bytes are written -/
def Pc.wrote (inode count : Nat) : Pc :=
  if count < probeData.length then .writing inode count else .written

/-- behind `read_to_end` -/
def Pc.readBack (buf : List UInt8) : Pc :=
  if buf ≠ probeData then .cleanup (.mismatch buf.length) else .unlink buf.length

/-- a step of one call; `fault` where the system call fails, whatever the directory holds -/
inductive Act where
  | sweep (p : Nat) (fault : Bool)
  | create (p : Nat) (fault : Bool)
  | write (p k : Nat)
  | writeFails (p : Nat)
  | openFile (p : Nat) (fault : Bool)
  | read (p k : Nat)
  | readEnd (p : Nat)
  | readFails (p : Nat)
  | cleanup (p : Nat) (fault : Bool)
  | unlink (p : Nat) (fault : Bool)
  | die (p : Nat)

structure Dir (ν : Type) where
  volume : Volume ν UInt8
  probes : Nat → Pc
  /-- history: a system call of the probe failed -/
  faulted : Nat → Bool

section
variable {ν : Type} [DecidableEq ν] (name : ν)

namespace Dir

/-- probe `p` goes on to `pc` and leaves the volume at `v` -/
def go (s : Dir ν) (p : Nat) (v : Volume ν UInt8) (pc : Pc) (fault : Bool) : Dir ν where
  volume := v
  probes := Function.update s.probes p pc
  faulted := Function.update s.faulted p (s.faulted p || fault)

/-- `remove_file`, with its result dropped -/
def removed (s : Dir ν) (fault : Bool) : Volume ν UInt8 :=
  if fault then s.volume else s.volume.remove name

def step (s : Dir ν) : Act → Option (Dir ν)
  | .sweep p fault =>
    match s.probes p with
    -- `NotFound` is no fault
    | .idle => some (s.go p (s.removed name fault) .create (fault && (s.volume.entry name).isSome))
    | _ => none
  | .create p fault =>
    match s.probes p with
    | .create =>
      if fault then some (s.go p s.volume (.ended [.failed .create]) true)
      else
        match s.volume.createNew name with
        | some (i, v) => some (s.go p v (.writing i 0) false)
        | none => some (s.go p s.volume (.ended [.failed .create]) false)
    | _ => none
  | .write p k =>
    match s.probes p with
    | .writing i n =>
      if 0 < k ∧ n + k ≤ probeData.length then
        some (s.go p (s.volume.writeAt i n ((probeData.drop n).take k)) (.wrote i (n + k)) false)
      else none
    | _ => none
  | .writeFails p =>
    match s.probes p with
    | .writing _ _ => some (s.go p s.volume (.cleanup .write) true)
    | _ => none
  | .openFile p fault =>
    match s.probes p with
    | .written =>
      match fault, s.volume.entry name with
      | false, some i => some (s.go p s.volume (.reading i []) false)
      | _, _ => some (s.go p s.volume (.cleanup .read) fault)
    | _ => none
  | .read p k =>
    match s.probes p with
    | .reading i buf =>
      if 0 < k ∧ buf.length + k ≤ (s.volume.content i).length then
        some (s.go p s.volume (.reading i (buf ++ ((s.volume.content i).drop buf.length).take k)) false)
      else none
    | _ => none
  | .readEnd p =>
    match s.probes p with
    | .reading i buf =>
      if (s.volume.content i).length ≤ buf.length then some (s.go p s.volume (.readBack buf) false)
      else none
    | _ => none
  | .readFails p =>
    match s.probes p with
    | .reading _ _ => some (s.go p s.volume (.cleanup .read) true)
    | _ => none
  | .cleanup p fault =>
    match s.probes p with
    | .cleanup phase => some (s.go p (s.removed name fault) (.ended [.failed phase]) fault)
    | _ => none
  | .unlink p fault =>
    match s.probes p with
    | .unlink n =>
      if fault || (s.volume.entry name).isNone then
        some (s.go p s.volume (.ended [.succeeded n, .failed .unlink]) fault)
      else some (s.go p (s.volume.remove name) (.ended [.succeeded n]) false)
    | _ => none
  | .die p => if (s.probes p).underway then some (s.go p s.volume .dead false) else none

end Dir

/-- no probe has begun -/
def begin (v : Volume ν UInt8) : Dir ν := ⟨v, fun _ => .idle, fun _ => false⟩

/-! ## what a step does -/

/-- everything a step of probe `p` can do, with what its guards have checked -/
inductive Move (s : Dir ν) (p : Nat) : Act → Dir ν → Prop
  | swept {fault} (hp : s.probes p = .idle) : Move s p (.sweep p fault)
      (s.go p (s.removed name fault) .create (fault && (s.volume.entry name).isSome))
  | uncreated {fault} (hp : s.probes p = .create) (hf : fault = true ∨ (s.volume.entry name).isSome = true) :
      Move s p (.create p fault) (s.go p s.volume (.ended [.failed .create]) fault)
  | created {i v} (hp : s.probes p = .create) (hv : s.volume.createNew name = some (i, v)) :
      Move s p (.create p false) (s.go p v (.writing i 0) false)
  | wrote {i n k} (hp : s.probes p = .writing i n) (hk : n + k ≤ probeData.length) : Move s p (.write p k)
      (s.go p (s.volume.writeAt i n ((probeData.drop n).take k)) (.wrote i (n + k)) false)
  | unwritten {i n} (hp : s.probes p = .writing i n) :
      Move s p (.writeFails p) (s.go p s.volume (.cleanup .write) true)
  | opened {i} (hp : s.probes p = .written) (hi : s.volume.entry name = some i) :
      Move s p (.openFile p false) (s.go p s.volume (.reading i []) false)
  | unopened {fault} (hp : s.probes p = .written) (hf : fault = true ∨ s.volume.entry name = none) :
      Move s p (.openFile p fault) (s.go p s.volume (.cleanup .read) fault)
  | more {i k buf} (hp : s.probes p = .reading i buf) : Move s p (.read p k)
      (s.go p s.volume (.reading i (buf ++ ((s.volume.content i).drop buf.length).take k)) false)
  | readBack {i buf} (hp : s.probes p = .reading i buf) (hl : (s.volume.content i).length ≤ buf.length) :
      Move s p (.readEnd p) (s.go p s.volume (.readBack buf) false)
  | unread {i buf} (hp : s.probes p = .reading i buf) :
      Move s p (.readFails p) (s.go p s.volume (.cleanup .read) true)
  | cleaned {fault phase} (hp : s.probes p = .cleanup phase) :
      Move s p (.cleanup p fault) (s.go p (s.removed name fault) (.ended [.failed phase]) fault)
  | unlinked {n} (hp : s.probes p = .unlink n) :
      Move s p (.unlink p false) (s.go p (s.volume.remove name) (.ended [.succeeded n]) false)
  | linked {fault n} (hp : s.probes p = .unlink n) (hf : fault = true ∨ s.volume.entry name = none) :
      Move s p (.unlink p fault) (s.go p s.volume (.ended [.succeeded n, .failed .unlink]) fault)
  | died (hp : (s.probes p).underway = true) : Move s p (.die p) (s.go p s.volume .dead false)

variable {name} {s t : Dir ν}

theorem step_cases {act : Act} (h : s.step name act = some t) : ∃ p, Move name s p act t := by
  cases act with
  | sweep p fault =>
    refine ⟨p, ?_⟩
    unfold Dir.step at h
    dsimp only at h
    split at h
    · rename_i hp
      cases h
      exact .swept hp
    · cases h
  | create p fault =>
    refine ⟨p, ?_⟩
    unfold Dir.step at h
    dsimp only at h
    split at h
    · rename_i hp
      cases fault with
      | true =>
        cases h
        exact .uncreated hp (.inl rfl)
      | false =>
        rw [if_neg Bool.false_ne_true] at h
        split at h
        · rename_i i v hv
          cases h
          exact .created hp hv
        · rename_i hv
          cases h
          refine .uncreated hp (.inr ?_)
          by_contra hno
          rw [Volume.createNew, if_neg hno] at hv
          cases hv
    · cases h
  | write p k =>
    refine ⟨p, ?_⟩
    unfold Dir.step at h
    dsimp only at h
    split at h
    · rename_i hp
      split at h
      · rename_i hk
        cases h
        exact .wrote hp hk.2
      · cases h
    · cases h
  | writeFails p =>
    refine ⟨p, ?_⟩
    unfold Dir.step at h
    dsimp only at h
    split at h
    · rename_i hp
      cases h
      exact .unwritten hp
    · cases h
  | openFile p fault =>
    refine ⟨p, ?_⟩
    unfold Dir.step at h
    dsimp only at h
    split at h
    · rename_i hp
      cases fault with
      | true =>
        cases h
        exact .unopened hp (.inl rfl)
      | false =>
        cases hi : s.volume.entry name with
        | some i =>
          rw [hi] at h
          cases h
          exact .opened hp hi
        | none =>
          rw [hi] at h
          cases h
          exact .unopened hp (.inr hi)
    · cases h
  | read p k =>
    refine ⟨p, ?_⟩
    unfold Dir.step at h
    dsimp only at h
    split at h
    · rename_i hp
      split at h
      · cases h
        exact .more hp
      · cases h
    · cases h
  | readEnd p =>
    refine ⟨p, ?_⟩
    unfold Dir.step at h
    dsimp only at h
    split at h
    · rename_i hp
      split at h
      · rename_i hl
        cases h
        exact .readBack hp hl
      · cases h
    · cases h
  | readFails p =>
    refine ⟨p, ?_⟩
    unfold Dir.step at h
    dsimp only at h
    split at h
    · rename_i hp
      cases h
      exact .unread hp
    · cases h
  | cleanup p fault =>
    refine ⟨p, ?_⟩
    unfold Dir.step at h
    dsimp only at h
    split at h
    · rename_i hp
      cases h
      exact .cleaned hp
    · cases h
  | unlink p fault =>
    refine ⟨p, ?_⟩
    unfold Dir.step at h
    dsimp only at h
    split at h
    · rename_i hp
      split at h
      · rename_i hf
        cases h
        rw [Bool.or_eq_true, Option.isNone_iff_eq_none] at hf
        exact .linked hp hf
      · rename_i hf
        rw [Bool.or_eq_true, not_or] at hf
        cases h
        cases fault with
        | true => exact absurd rfl hf.1
        | false => exact .unlinked hp
    · cases h
  | die p =>
    refine ⟨p, ?_⟩
    unfold Dir.step at h
    dsimp only at h
    split at h
    · rename_i hp
      cases h
      exact .died hp
    · cases h

@[simp] theorem Dir.go_self (s : Dir ν) (p : Nat) (v : Volume ν UInt8) (pc : Pc) (fault : Bool) :
    (s.go p v pc fault).probes p = pc := Function.update_self ..

theorem Dir.go_of_ne (s : Dir ν) {p q : Nat} (h : q ≠ p) (v : Volume ν UInt8) (pc : Pc) (fault : Bool) :
    (s.go p v pc fault).probes q = s.probes q := Function.update_of_ne h ..

@[simp] theorem Dir.go_faulted_self (s : Dir ν) (p : Nat) (v : Volume ν UInt8) (pc : Pc) (fault : Bool) :
    (s.go p v pc fault).faulted p = (s.faulted p || fault) := Function.update_self ..

theorem Dir.go_faulted_of_ne (s : Dir ν) {p q : Nat} (h : q ≠ p) (v : Volume ν UInt8) (pc : Pc)
    (fault : Bool) : (s.go p v pc fault).faulted q = s.faulted q := Function.update_of_ne h ..

theorem Pc.wrote_eq_writing {i i' n n' : Nat} (h : Pc.wrote i n = .writing i' n') :
    i' = i ∧ n' = n ∧ n < probeData.length := by
  unfold wrote at h
  split at h
  · rename_i hn
    cases h
    exact ⟨rfl, rfl, hn⟩
  · cases h

/-! ## nothing else is touched -/

/-- what a probe knows about the file it has open -/
def Knows (v₀ v : Volume ν UInt8) : Pc → Prop
  | .writing i n => v₀.next ≤ i ∧ i < v.next ∧ v.content i = probeData.take n
  | .written => v₀.next < v.next
  | .reading i buf => v₀.next ≤ i ∧ i < v.next ∧ buf <+: v.content i
  | .cleanup phase => ∀ k, phase = .mismatch k → k < probeData.length
  | .ended log => ∀ k, .failed (.mismatch k) ∈ log → k < probeData.length
  | _ => True

/-- the files from before are as they were, and the others hold a beginning of the nine bytes -/
structure Harmless (name : ν) (v₀ : Volume ν UInt8) (s : Dir ν) : Prop where
  grow : v₀.next ≤ s.volume.next
  names : ∀ m, m ≠ name → s.volume.entry m = v₀.entry m
  old : ∀ j < v₀.next, s.volume.content j = v₀.content j
  fresh : v₀.next < s.volume.next → ∀ i, s.volume.entry name = some i → v₀.next ≤ i ∧ i < s.volume.next
  parts : ∀ i, v₀.next ≤ i → i < s.volume.next → s.volume.content i <+: probeData
  knows : ∀ p, Knows v₀ s.volume (s.probes p)
  one : ∀ p q i n m, s.probes p = .writing i n → s.probes q = .writing i m → p = q

/-- the volume changed, and no file the probe writes -/
theorem Knows.mono {v₀ v v' : Volume ν UInt8} {pc : Pc} (h : Knows v₀ v pc) (hnext : v.next ≤ v'.next)
    (hgrow : ∀ j, v₀.next ≤ j → j < v.next → v.content j <+: v'.content j)
    (hmine : ∀ i n, pc = .writing i n → v'.content i = v.content i) : Knows v₀ v' pc := by
  cases pc with
  | writing i n => exact ⟨h.1, Nat.lt_of_lt_of_le h.2.1 hnext, (hmine i n rfl).trans h.2.2⟩
  | written =>
    have hlt : v₀.next < v.next := h
    exact Nat.lt_of_lt_of_le hlt hnext
  | reading i buf => exact ⟨h.1, Nat.lt_of_lt_of_le h.2.1 hnext, h.2.2.trans (hgrow i h.1 h.2.1)⟩
  | _ => exact h

section
variable {v₀ : Volume ν UInt8} {p : Nat}

theorem Harmless.go (h : Harmless name v₀ s) {v : Volume ν UInt8} {pc : Pc} {fault : Bool}
    (hnext : s.volume.next ≤ v.next) (hnames : ∀ m, m ≠ name → v.entry m = s.volume.entry m)
    (hold : ∀ j < v₀.next, v.content j = s.volume.content j)
    (hfresh : v₀.next < v.next → ∀ i, v.entry name = some i → v₀.next ≤ i ∧ i < v.next)
    (hparts : ∀ i, v₀.next ≤ i → i < v.next → v.content i <+: probeData)
    (hgrow : ∀ j, v₀.next ≤ j → j < s.volume.next → s.volume.content j <+: v.content j)
    (hothers : ∀ q, q ≠ p → ∀ i n, s.probes q = .writing i n → v.content i = s.volume.content i)
    (hpc : Knows v₀ v pc)
    (hone : ∀ q, q ≠ p → ∀ i n m, pc = .writing i n → s.probes q ≠ .writing i m) :
    Harmless name v₀ (s.go p v pc fault) where
  grow := Nat.le_trans h.grow hnext
  names := fun m hm => (hnames m hm).trans (h.names m hm)
  old := fun j hj => (hold j hj).trans (h.old j hj)
  fresh := hfresh
  parts := hparts
  knows := fun q => by
    by_cases hq : q = p
    · rw [hq, Dir.go_self]
      exact hpc
    · rw [Dir.go_of_ne s hq]
      exact (h.knows q).mono hnext hgrow (hothers q hq)
  one := fun q q' i n m hqi hqi' => by
    by_cases hq : q = p
    · by_cases hq' : q' = p
      · exact hq.trans hq'.symm
      · rw [hq, Dir.go_self] at hqi
        rw [Dir.go_of_ne s hq'] at hqi'
        exact absurd hqi' (hone q' hq' i n m hqi)
    · rw [Dir.go_of_ne s hq] at hqi
      by_cases hq' : q' = p
      · rw [hq', Dir.go_self] at hqi'
        exact absurd hqi (hone q hq i m n hqi')
      · rw [Dir.go_of_ne s hq'] at hqi'
        exact h.one q q' i n m hqi hqi'

/-- no content changes, and no name but for a removal -/
theorem Harmless.keep (h : Harmless name v₀ s) {v : Volume ν UInt8} {pc : Pc} {fault : Bool}
    (hv : v = s.volume ∨ v = s.volume.remove name) (hpc : Knows v₀ s.volume pc)
    (hw : ∀ i n, pc ≠ .writing i n) : Harmless name v₀ (s.go p v pc fault) := by
  have hsame : v.content = s.volume.content ∧ v.next = s.volume.next := by
    rcases hv with rfl | rfl <;> exact ⟨rfl, rfl⟩
  have hentry : v.entry name = s.volume.entry name ∨ v.entry name = none := by
    rcases hv with rfl | rfl
    · exact .inl rfl
    · exact .inr (s.volume.remove_entry name)
  have hcontent (i : Nat) : v.content i = s.volume.content i := congrFun hsame.1 i
  have hprefix (i : Nat) : s.volume.content i <+: v.content i := by
    rw [hcontent]
  refine h.go (Nat.le_of_eq hsame.2.symm) (fun m hm => ?_) (fun j _ => hcontent j) (fun hlt i hi => ?_)
    (fun i hi hlt => ?_) (fun j _ _ => hprefix j) (fun q _ i n _ => hcontent i)
    (hpc.mono (Nat.le_of_eq hsame.2.symm) (fun j _ _ => hprefix j) fun i n he => absurd he (hw i n))
    fun q _ i n m he => absurd he (hw i n)
  · rcases hv with rfl | rfl
    · rfl
    · exact s.volume.remove_entry_of_ne hm
  · rw [hsame.2] at hlt ⊢
    rcases hentry with he | he
    · exact h.fresh hlt i (he.symm.trans hi)
    · cases he.symm.trans hi
  · rw [hcontent]
    exact h.parts i hi (hsame.2 ▸ hlt)

theorem Harmless.create (h : Harmless name v₀ s) {i : Nat} {v : Volume ν UInt8}
    (hv : s.volume.createNew name = some (i, v)) : Harmless name v₀ (s.go p v (.writing i 0) false) := by
  obtain ⟨hnone, rfl, rfl⟩ := s.volume.createNew_eq hv
  have hcontent {j : Nat} (hj : j < s.volume.next) :
      Function.update s.volume.content s.volume.next [] j = s.volume.content j :=
    Function.update_of_ne (Nat.ne_of_lt hj) ..
  have hgrow := h.grow
  refine h.go (Nat.le_succ _) (fun m hm => Function.update_of_ne hm ..) (fun j hj => hcontent (by omega))
    (fun _ i hi => ?_) (fun i hi hlt => ?_) (fun j _ hj => ?_) (fun q _ i n hq => ?_) ?_ ?_
  · have hi : Function.update s.volume.entry name (some s.volume.next) name = some i := hi
    rw [Function.update_self] at hi
    cases hi
    exact ⟨hgrow, Nat.lt_succ_self _⟩
  · by_cases hnew : i = s.volume.next
    · subst hnew
      show Function.update s.volume.content s.volume.next [] s.volume.next <+: probeData
      rw [Function.update_self]
      exact List.nil_prefix
    · have hlt : i < s.volume.next + 1 := hlt
      show Function.update s.volume.content s.volume.next [] i <+: probeData
      rw [hcontent (by omega)]
      exact h.parts i hi (by omega)
  · show s.volume.content j <+: Function.update s.volume.content s.volume.next [] j
    rw [hcontent hj]
  · have hknows := h.knows q
    rw [hq] at hknows
    exact hcontent hknows.2.1
  · exact ⟨hgrow, Nat.lt_succ_self _, Function.update_self ..⟩
  · -- the new file is nobody else's
    rintro q - i n m he hq
    cases he
    have hknows := h.knows q
    rw [hq] at hknows
    exact Nat.lt_irrefl _ hknows.2.1

theorem Harmless.write (h : Harmless name v₀ s) {i n k : Nat} (hp : s.probes p = .writing i n)
    (hk : n + k ≤ probeData.length) : Harmless name v₀
      (s.go p (s.volume.writeAt i n ((probeData.drop n).take k)) (.wrote i (n + k)) false) := by
  obtain ⟨hnew, hlt, hcontent⟩ : v₀.next ≤ i ∧ i < s.volume.next ∧ s.volume.content i = probeData.take n := by
    have hknows := h.knows p
    rw [hp] at hknows
    exact hknows
  have hafter : (s.volume.writeAt i n ((probeData.drop n).take k)).content i = probeData.take (n + k) := by
    rw [Volume.writeAt_content, hcontent]
    exact Volume.splice_take probeData (by omega)
  have hother {j : Nat} (hj : j ≠ i) :
      (s.volume.writeAt i n ((probeData.drop n).take k)).content j = s.volume.content j :=
    s.volume.writeAt_content_of_ne hj n _
  refine h.go (Nat.le_refl _) (fun m _ => rfl) (fun j hj => hother (by omega)) h.fresh (fun j hj hjlt => ?_)
    (fun j _ _ => ?_) (fun q hq j m hj => ?_) ?_ ?_
  · by_cases hji : j = i
    · rw [hji, hafter]
      exact List.take_prefix _ _
    · rw [hother hji]
      exact h.parts j hj hjlt
  · by_cases hji : j = i
    · rw [hji, hafter, hcontent, List.take_add]
      exact List.prefix_append _ _
    · rw [hother hji]
  · refine hother ?_
    rintro rfl
    exact hq (h.one q p j m n hj hp)
  · unfold Pc.wrote
    split
    · exact ⟨hnew, hlt, hafter⟩
    · exact Nat.lt_of_le_of_lt hnew hlt
  · intro q hq j a b he hj
    obtain ⟨rfl, -, -⟩ := Pc.wrote_eq_writing he
    exact hq (h.one q p j b n hj hp)

theorem removed_or (s : Dir ν) (fault : Bool) :
    s.removed name fault = s.volume ∨ s.removed name fault = s.volume.remove name := by
  cases fault with
  | true => exact .inl rfl
  | false => exact .inr rfl

theorem harmless_step {act : Act} (h : Harmless name v₀ s) (hs : s.step name act = some t) :
    Harmless name v₀ t := by
  obtain ⟨p, hm⟩ := step_cases hs
  have hknows := h.knows p
  cases hm with
  | @swept fault hp => exact h.keep (removed_or s fault) trivial fun i n he => by cases he
  | uncreated hp hf =>
    refine h.keep (.inl rfl) (fun k hk => ?_) fun i n he => by cases he
    rw [List.mem_singleton] at hk
    cases hk
  | created hp hv => exact h.create hv
  | wrote hp hk => exact h.write hp hk
  | unwritten hp => exact h.keep (.inl rfl) (fun k hk => by cases hk) fun i n he => by cases he
  | opened hp hi =>
    rw [hp] at hknows
    obtain ⟨hnew, hlt⟩ := h.fresh hknows _ hi
    exact h.keep (.inl rfl) ⟨hnew, hlt, List.nil_prefix⟩ fun i n he => by cases he
  | unopened hp hf => exact h.keep (.inl rfl) (fun k hk => by cases hk) fun i n he => by cases he
  | @more i k buf hp =>
    rw [hp] at hknows
    obtain ⟨hnew, hlt, rest, hrest⟩ := hknows
    refine h.keep (.inl rfl) ⟨hnew, hlt, ?_⟩ fun i n he => by cases he
    rw [← hrest, List.drop_left, List.prefix_append_right_inj]
    exact List.take_prefix _ _
  | @readBack i buf hp hl =>
    rw [hp] at hknows
    obtain ⟨hnew, hlt, hbuf⟩ := hknows
    have hread : buf <+: probeData := hbuf.trans (h.parts i hnew hlt)
    unfold Pc.readBack
    split
    · rename_i hne
      refine h.keep (.inl rfl) (fun k hk => ?_) fun i n he => by cases he
      cases hk
      -- a beginning of the nine bytes, and not all of them
      exact Nat.lt_of_le_of_ne hread.length_le fun he => hne (hread.eq_of_length he)
    · exact h.keep (.inl rfl) trivial fun i n he => by cases he
  | unread hp => exact h.keep (.inl rfl) (fun k hk => by cases hk) fun i n he => by cases he
  | @cleaned fault phase hp =>
    rw [hp] at hknows
    refine h.keep (removed_or s fault) (fun k hk => ?_) fun i n he => by cases he
    rw [List.mem_singleton] at hk
    cases hk
    exact hknows k rfl
  | unlinked hp =>
    refine h.keep (.inr rfl) (fun k hk => ?_) fun i n he => by cases he
    rw [List.mem_singleton] at hk
    cases hk
  | linked hp hf =>
    refine h.keep (.inl rfl) (fun k hk => ?_) fun i n he => by cases he
    rw [List.mem_cons, List.mem_singleton] at hk
    rcases hk with hk | hk <;> cases hk
  | died hp => exact h.keep (.inl rfl) trivial fun i n he => by cases he

theorem harmless_begin (name : ν) (v₀ : Volume ν UInt8) : Harmless name v₀ (begin v₀) where
  grow := Nat.le_refl _
  names := fun m _ => rfl
  old := fun j _ => rfl
  fresh := fun h => absurd h (Nat.lt_irrefl _)
  parts := fun i hi hlt => absurd hlt (Nat.not_lt.mpr hi)
  knows := fun p => trivial
  one := fun p q i n m h => by cases h

/-- **The write probe touches nothing else.**  In every run of any number of probes, with calls that fail
and processes that die, every other name shows what it showed, and what a probe reads back is a beginning
of the nine bytes, so that a mismatch is always a short read. -/
theorem write_probe_harmless (hv : ∀ m i, v₀.entry m = some i → i < v₀.next)
    (h : Reachable (Dir.step name) (begin v₀) s) :
    (∀ m, m ≠ name → s.volume.file m = v₀.file m) ∧
    (∀ p i buf, s.probes p = .reading i buf → buf <+: probeData) ∧
    ∀ p log k, s.probes p = .ended log → .failed (.mismatch k) ∈ log → k < 9 := by
  have inv : Harmless name v₀ s := h.invariant (harmless_begin name v₀) fun _ _ _ inv _ hs => harmless_step inv hs
  refine ⟨fun m hm => ?_, fun p i buf hp => ?_, fun p log k hp hk => ?_⟩
  · rw [Volume.file, Volume.file, inv.names m hm]
    cases hentry : v₀.entry m with
    | none => rfl
    | some i => exact congrArg some (inv.old i (hv m i hentry))
  · have hknows := inv.knows p
    rw [hp] at hknows
    exact hknows.2.2.trans (inv.parts i hknows.1 hknows.2.1)
  · have hknows := inv.knows p
    rw [hp] at hknows
    exact hknows k hk

/-! ## nothing is left behind -/

/-- it will remove the file -/
def Pc.owes : Pc → Bool
  | .writing _ _ | .written | .reading _ _ | .cleanup _ | .unlink _ => true
  | _ => false

theorem Pc.underway_of_owes {pc : Pc} (h : pc.owes = true) : pc.underway = true := by
  cases pc <;> first | rfl | cases h

/-- no removal fails, and no process dies -/
def Removes (_ : Dir ν) : Act → Prop
  | .sweep _ fault | .cleanup _ fault | .unlink _ fault => fault = false
  | .die _ => False
  | _ => True

/-- the file is there only before the first probe or while some probe owes its removal -/
def Owed (name : ν) (s : Dir ν) : Prop :=
  (∀ p, s.probes p = .idle) ∨ s.volume.entry name = none ∨ ∃ p, (s.probes p).owes = true

theorem Owed.go (h : Owed name s) {v : Volume ν UInt8} {pc : Pc} {fault : Bool} (hp : s.probes p ≠ .idle)
    (hv : v.entry name = s.volume.entry name) (hpc : pc.owes = true ∨ (s.probes p).owes = false) :
    Owed name (s.go p v pc fault) := by
  rcases h with h | h | ⟨q, hq⟩
  · exact absurd (h p) hp
  · exact .inr (.inl (hv.trans h))
  · refine .inr (.inr ?_)
    by_cases hqp : q = p
    · subst hqp
      refine ⟨q, ?_⟩
      rw [Dir.go_self]
      exact hpc.resolve_right fun hno => by rw [hq] at hno; cases hno
    · exact ⟨q, by rw [Dir.go_of_ne s hqp]; exact hq⟩

theorem owed_step {act : Act} (h : Owed name s) (hc : Removes s act) (hs : s.step name act = some t) :
    Owed name t := by
  obtain ⟨p, hm⟩ := step_cases hs
  have hkeep {pc pc' : Pc} {fault : Bool} (hp : s.probes p = pc) (hi : pc ≠ .idle)
      (hpc : pc'.owes = true ∨ pc.owes = false) : Owed name (s.go p s.volume pc' fault) :=
    h.go (by rw [hp]; exact hi) rfl (by rw [hp]; exact hpc)
  cases hm with
  | swept hp =>
    cases hc
    exact .inr (.inl (s.volume.remove_entry name))
  | uncreated hp hf => exact hkeep hp (fun he => by cases he) (.inr rfl)
  | created hp hv => exact .inr (.inr ⟨p, by rw [Dir.go_self]; rfl⟩)
  | wrote hp hk =>
    refine h.go (by rw [hp]; exact fun he => by cases he) rfl (.inl ?_)
    unfold Pc.wrote
    split <;> rfl
  | unwritten hp => exact hkeep hp (fun he => by cases he) (.inl rfl)
  | opened hp hi => exact hkeep hp (fun he => by cases he) (.inl rfl)
  | unopened hp hf => exact hkeep hp (fun he => by cases he) (.inl rfl)
  | more hp => exact hkeep hp (fun he => by cases he) (.inl rfl)
  | readBack hp hl =>
    refine hkeep hp (fun he => by cases he) (.inl ?_)
    unfold Pc.readBack
    split <;> rfl
  | unread hp => exact hkeep hp (fun he => by cases he) (.inl rfl)
  | cleaned hp =>
    cases hc
    exact .inr (.inl (s.volume.remove_entry name))
  | unlinked hp => exact .inr (.inl (s.volume.remove_entry name))
  | linked hp hf =>
    cases hc
    exact .inr (.inl (hf.resolve_left Bool.false_ne_true))
  | died hp => exact hc.elim

/-- **No probe file is left.**  Where no removal fails and no process dies, whatever else fails and however
the probes overlap, the file is gone once every probe that began has ended, a stale one of an earlier boot
too. -/
theorem write_probe_removed (h : Reach (Dir.step name) Removes (begin v₀) s)
    (hover : ∀ p, (s.probes p).underway = false) (hone : ∃ p, s.probes p ≠ .idle) :
    s.volume.entry name = none := by
  have inv : Owed name s := h.invariant (.inl fun _ => rfl) fun _ _ _ inv hc hs => owed_step inv hc hs
  rcases inv with hidle | hnone | ⟨p, hp⟩
  · obtain ⟨p, hne⟩ := hone
    exact absurd (hidle p) hne
  · exact hnone
  · have hup := hover p
    rw [Pc.underway_of_owes hp] at hup
    cases hup

/-! ## probes that do not overlap -/

/-- a probe begins only while no other is under way -/
def Solo (s : Dir ν) : Act → Prop
  | .sweep _ _ => ∀ q, (s.probes q).underway = false
  | _ => True

/-- the one under way has its own file at the name; `fault` is whether a call has failed -/
def Fine (name : ν) (v : Volume ν UInt8) (fault : Bool) : Pc → Prop
  | .idle => fault = false
  | .create => fault = (v.entry name).isSome
  | .writing i n => v.entry name = some i ∧ v.content i = probeData.take n ∧ fault = false
  | .written => ∃ i, v.entry name = some i ∧ v.content i = probeData ∧ fault = false
  | .reading i buf => v.entry name = some i ∧ v.content i = probeData ∧ buf <+: probeData ∧ fault = false
  | .cleanup _ => fault = true
  | .unlink n => (v.entry name).isSome = true ∧ n = 9 ∧ fault = false
  | .ended log => log = [.succeeded 9] ∧ fault = false ∨ (∃ phase, .failed phase ∈ log) ∧ fault = true
  | .dead => True

theorem Fine.rest {v v' : Volume ν UInt8} {fault : Bool} {pc : Pc} (h : Fine name v fault pc)
    (hpc : pc.underway = false) : Fine name v' fault pc := by
  cases pc <;> first | exact h | cases hpc

structure SoloInv (name : ν) (s : Dir ν) : Prop where
  one : ∀ p q, (s.probes p).underway = true → (s.probes q).underway = true → p = q
  fine : ∀ p, Fine name s.volume (s.faulted p) (s.probes p)

theorem SoloInv.go (h : SoloInv name s) {v : Volume ν UInt8} {pc : Pc} {fault : Bool}
    (hothers : ∀ q, q ≠ p → (s.probes q).underway = false)
    (hfine : Fine name v (s.faulted p || fault) pc) : SoloInv name (s.go p v pc fault) := by
  have hmine {q : Nat} (hq : ((s.go p v pc fault).probes q).underway = true) : q = p := by
    by_contra hne
    rw [Dir.go_of_ne s hne, hothers q hne] at hq
    cases hq
  refine ⟨fun q q' hq hq' => (hmine hq).trans (hmine hq').symm, fun q => ?_⟩
  by_cases hq : q = p
  · rw [hq, Dir.go_self, Dir.go_faulted_self]
    exact hfine
  · rw [Dir.go_of_ne s hq, Dir.go_faulted_of_ne s hq]
    exact (h.fine q).rest (hothers q hq)

theorem soloInv_step {act : Act} (h : SoloInv name s) (hc : Solo s act) (hs : s.step name act = some t) :
    SoloInv name t := by
  obtain ⟨p, hm⟩ := step_cases hs
  have hfine := h.fine p
  -- the others rest while this one is under way
  have hgo {v : Volume ν UInt8} {pc pc' : Pc} {fault : Bool} (hp : s.probes p = pc) (hup : pc.underway = true)
      (hpc : Fine name v (s.faulted p || fault) pc') : SoloInv name (s.go p v pc' fault) := by
    refine h.go (fun q hq => ?_) hpc
    by_contra hne
    exact hq (h.one q p (by simpa using hne) (by rw [hp]; exact hup))
  cases hm with
  | @swept fault hp =>
    rw [hp] at hfine
    have hfine : s.faulted p = false := hfine
    refine h.go (fun q _ => hc q) ?_
    rw [hfine, Bool.false_or]
    cases fault with
    | true => exact Bool.true_and _
    | false =>
      show (false && _) = ((s.volume.remove name).entry name).isSome
      rw [s.volume.remove_entry, Bool.false_and]
      rfl
  | uncreated hp hf =>
    rw [hp] at hfine
    have hfine : s.faulted p = (s.volume.entry name).isSome := hfine
    refine hgo hp rfl (.inr ⟨⟨_, List.mem_singleton_self _⟩, ?_⟩)
    rw [hfine, Bool.or_eq_true]
    exact hf.symm
  | created hp hv =>
    obtain ⟨hnone, rfl, rfl⟩ := s.volume.createNew_eq hv
    rw [hp] at hfine
    have hfine : s.faulted p = (s.volume.entry name).isSome := hfine
    refine hgo hp rfl ⟨Function.update_self .., Function.update_self .., ?_⟩
    rw [hfine, hnone]
    rfl
  | @wrote i n k hp hk =>
    rw [hp] at hfine
    obtain ⟨hentry, hcontent, hok⟩ := hfine
    have hafter : (s.volume.writeAt i n ((probeData.drop n).take k)).content i = probeData.take (n + k) := by
      rw [Volume.writeAt_content, hcontent]
      exact Volume.splice_take probeData (by omega)
    refine hgo hp rfl ?_
    rw [hok]
    unfold Pc.wrote
    split
    · exact ⟨hentry, hafter, rfl⟩
    · rename_i hall
      rw [List.take_of_length_le (Nat.not_lt.mp hall)] at hafter
      exact ⟨i, hentry, hafter, rfl⟩
  | unwritten hp => exact hgo hp rfl (Bool.or_true _)
  | opened hp hi =>
    rw [hp] at hfine
    obtain ⟨j, hentry, hcontent, hok⟩ := hfine
    cases hi.symm.trans hentry
    refine hgo hp rfl ⟨hi, hcontent, List.nil_prefix, ?_⟩
    rw [hok]
    rfl
  | unopened hp hf =>
    rw [hp] at hfine
    obtain ⟨j, hentry, -, -⟩ := hfine
    refine hgo hp rfl ?_
    -- its own file is there, so the call failed
    rcases hf with rfl | hnone
    · exact Bool.or_true _
    · cases hnone.symm.trans hentry
  | @more i k buf hp =>
    rw [hp] at hfine
    obtain ⟨hentry, hcontent, ⟨rest, hrest⟩, hok⟩ := hfine
    refine hgo hp rfl ⟨hentry, hcontent, ?_, by rw [hok]; rfl⟩
    rw [hcontent, ← hrest, List.drop_left, List.prefix_append_right_inj]
    exact List.take_prefix _ _
  | @readBack i buf hp hl =>
    rw [hp] at hfine
    obtain ⟨hentry, hcontent, hbuf, hok⟩ := hfine
    rw [hcontent] at hl
    have hall : buf = probeData := hbuf.eq_of_length_le hl
    refine hgo hp rfl ?_
    rw [Pc.readBack, if_neg (not_not.mpr hall), hok, hall]
    exact ⟨by rw [hentry]; rfl, rfl, rfl⟩
  | unread hp => exact hgo hp rfl (Bool.or_true _)
  | cleaned hp =>
    rw [hp] at hfine
    have hfine : s.faulted p = true := hfine
    refine hgo hp rfl (.inr ⟨⟨_, List.mem_singleton_self _⟩, ?_⟩)
    rw [hfine]
    rfl
  | unlinked hp =>
    rw [hp] at hfine
    obtain ⟨-, rfl, hok⟩ := hfine
    refine hgo hp rfl (.inl ⟨rfl, ?_⟩)
    rw [hok]
    rfl
  | linked hp hf =>
    rw [hp] at hfine
    obtain ⟨hsome, rfl, hok⟩ := hfine
    refine hgo hp rfl (.inr ⟨⟨.unlink, List.mem_cons_of_mem _ (List.mem_singleton_self _)⟩, ?_⟩)
    rcases hf with rfl | hnone
    · exact Bool.or_true _
    · rw [hnone] at hsome
      cases hsome
  | died hp => exact hgo rfl hp trivial

/-- **A lone probe tells the truth.**  Where probes do not overlap, one reports success, with all nine bytes
read back, exactly if none of its calls failed, and a failure otherwise, whatever earlier probes left. -/
theorem write_probe_truthful (h : Reach (Dir.step name) Solo (begin v₀) s) {log : List Event}
    (hp : s.probes p = .ended log) :
    (log = [.succeeded 9] ∧ s.faulted p = false) ∨ ((∃ phase, .failed phase ∈ log) ∧ s.faulted p = true) := by
  have hbegin : SoloInv name (begin v₀ : Dir ν) := ⟨fun _ _ hp => (by cases hp), fun _ => rfl⟩
  have inv : SoloInv name s := h.invariant hbegin fun _ _ _ inv hc hs => soloInv_step inv hc hs
  have hfine := inv.fine p
  rw [hp] at hfine
  exact hfine

end
end

/-! ## runs -/

/-- an engine plan and no probe file; `true` is the name of the probe -/
def onePlan : Volume Bool UInt8 := ⟨fun m => if m then none else some 0, fun _ => [7], 1⟩

theorem onePlan_bounded (m : Bool) (i : Nat) (h : onePlan.entry m = some i) : i < onePlan.next := by
  cases m with
  | true => cases h
  | false =>
    cases h
    exact Nat.one_pos

/-- what a probe does after it began, alone -/
def lone : List Act :=
  [.create 0 false, .write 0 4, .write 0 5, .openFile 0 false, .read 0 9, .readEnd 0, .unlink 0 false]

/-- probe `0` has written when `1` removes its file and creates another, which `0` reads while it is empty -/
def crossed : List Act :=
  [.sweep 0 false, .create 0 false, .write 0 9, .sweep 1 false, .create 1 false, .openFile 0 false,
    .readEnd 0, .cleanup 0 false]

/-- a probe whose calls all succeed reports a mismatch, and the plan is as it was -/
theorem write_probe_misled : ∃ s : Dir Bool, Reachable (Dir.step true) (begin onePlan) s ∧
    s.probes 0 = .ended [.failed (.mismatch 0)] ∧ s.faulted 0 = false ∧
    s.volume.file false = onePlan.file false := by
  have hrun : ∃ s : Dir Bool, Reachable (Dir.step true) (begin onePlan) s ∧
      (s.probes 0 = .ended [.failed (.mismatch 0)] ∧ s.faulted 0 = false) :=
    Reach.exists_of_run crossed (fun _ _ _ => trivial) (by decide +kernel)
  obtain ⟨s, hr, hlog, hok⟩ := hrun
  exact ⟨s, hr, hlog, hok, (write_probe_harmless onePlan_bounded hr).1 false (by decide)⟩

/-- the steps of probe `0` after it began -/
def OnlyZero (_ : Dir Bool) (act : Act) : Prop := act ∈ lone

theorem lone_run : ∃ s : Dir Bool,
    Reach (Dir.step true) OnlyZero ((begin onePlan).go 0 (onePlan.remove true) .create false) s ∧
    s.probes 0 = .ended [.succeeded 9] ∧ s.faulted 0 = false :=
  Reach.exists_of_run lone (fun _ a ha => ha) (by decide +kernel)

theorem begun {C : Dir Bool → Act → Prop} (hc : C (begin onePlan) (.sweep 0 false)) :
    Reach (Dir.step true) C (begin onePlan) ((begin onePlan).go 0 (onePlan.remove true) .create false) :=
  .single hc rfl

theorem write_probe_truthful_lone : ∃ s : Dir Bool, Reach (Dir.step true) Solo (begin onePlan) s ∧
    s.probes 0 = .ended [.succeeded 9] ∧
    (([.succeeded 9] : List Event) = [.succeeded 9] ∧ s.faulted 0 = false ∨
      (∃ phase, .failed phase ∈ ([.succeeded 9] : List Event)) ∧ s.faulted 0 = true) := by
  obtain ⟨s, hr, hlog, -⟩ := lone_run
  have hsolo : Reach (Dir.step true) Solo (begin onePlan) s := by
    refine (begun fun _ => rfl).trans (hr.mono fun t act ha => ?_)
    simp only [OnlyZero, lone, List.mem_cons, List.not_mem_nil, or_false] at ha
    rcases ha with rfl | rfl | rfl | rfl | rfl | rfl | rfl <;> trivial
  exact ⟨s, hsolo, hlog, write_probe_truthful hsolo hlog⟩

theorem write_probe_removed_lone : ∃ s : Dir Bool, Reach (Dir.step true) Removes (begin onePlan) s ∧
    s.probes 0 = .ended [.succeeded 9] ∧ s.volume.entry true = none := by
  obtain ⟨s, hr, hlog, -⟩ := lone_run
  have hremoves : Reach (Dir.step true) Removes (begin onePlan) s := by
    refine (begun rfl).trans (hr.mono fun t act ha => ?_)
    simp only [OnlyZero, lone, List.mem_cons, List.not_mem_nil, or_false] at ha
    rcases ha with rfl | rfl | rfl | rfl | rfl | rfl | rfl <;> trivial
  -- the other probes have not begun
  have hothers : ∀ q, q ≠ 0 → s.probes q = .idle := by
    refine hr.invariant (I := fun s => ∀ q, q ≠ 0 → s.probes q = .idle) (fun q hq => Dir.go_of_ne _ hq ..)
      fun t act u inv ha hs q hq => ?_
    obtain ⟨p, hm⟩ := step_cases hs
    simp only [OnlyZero, lone, List.mem_cons, List.not_mem_nil, or_false] at ha
    have hp : p = 0 := by
      rcases ha with rfl | rfl | rfl | rfl | rfl | rfl | rfl <;> cases hm <;> rfl
    subst hp
    have hkept : u.probes q = t.probes q := by cases hm <;> exact Dir.go_of_ne t hq ..
    exact hkept.trans (inv q hq)
  refine ⟨s, hremoves, hlog, write_probe_removed hremoves (fun p => ?_) ⟨0, ?_⟩⟩
  · by_cases hp : p = 0
    · rw [hp, hlog]
      rfl
    · rw [hothers p hp]
      rfl
  · rw [hlog]
    exact fun he => by cases he

end EmbedServer.WriteProbe
