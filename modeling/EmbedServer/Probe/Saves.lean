import EmbedServer.Lib.Transition
import EmbedServer.Lib.Volume
import EmbedServer.Probe.Cache

/-!
# Servers that share a cache directory (`probe/cache.rs`)

Every server saves its coefficients through the same two names: it creates `probe-coefficients.json.tmp`,
writes the document piece by piece, and renames the file to `probe-coefficients.json`.  A step may fail
and a process may die between any two steps.  A reader opens the final name and reads piece by piece.

* `CacheDir.step`        one step of any server;
* `Alone`                the temporary file is created only while no other save is between its own
                         `create` and its `rename`;
* `probeCache_atomic`    in every run whose steps are all `Alone`, the final name shows nothing or the
                         document of one completed save, only a completing save changes it, and a reader
                         gets the coefficients of a completed save for its own fingerprint;
* `probeCache_torn`      two saves that overlap can leave an empty file at the final name.
-/

namespace EmbedServer

/-! ## documents -/

/-- `serde_json` on a `ProbeCache`: what is printed reads back, the numbers up to the reading of floats -/
structure Json where
  toStringPretty : ProbeCache → Option (List UInt8)
  fromStr : List UInt8 → Option ProbeCache
  /-- a printed number as the parser reads it -/
  reread : Rat → Rat
  read_back : ∀ {cache text}, toStringPretty cache = some text →
    fromStr text = some { cache with a := reread cache.a, b := reread cache.b }

/-- the arguments of `save_probe_cache`, and the time of the call -/
structure SaveCall where
  build : Build
  modelVariant : String
  maxSeq : Nat
  now : Nat
  a : Rat
  b : Rat
deriving DecidableEq, Repr

def SaveCall.cache (k : SaveCall) : ProbeCache :=
  savedProbeCache k.build k.modelVariant k.maxSeq k.now k.a k.b

/-- a call with its document; a call that cannot be serialized touches no file -/
structure Save (json : Json) where
  call : SaveCall
  text : List UInt8
  pretty : json.toStringPretty call.cache = some text

/-- the arguments of `try_load_probe_cache` -/
structure LoadCall where
  build : Build
  modelVariant : String
  maxSeq : Nat
deriving DecidableEq, Repr

/-! ## the steps -/

inductive CacheFile where
  /-- `probe-coefficients.json` -/
  | final
  /-- `probe-coefficients.json.tmp` -/
  | tmp
deriving DecidableEq, Repr

inductive SaveState (json : Json) where
  /-- not saving: before the call, after it, or dead -/
  | idle
  /-- in `fs::write`: the open file and how much is written -/
  | writing (d : Save json) (inode count : Nat)
  /-- `fs::write` has returned -/
  | written (d : Save json)
  /-- the rename has failed -/
  | cleanup

/-- after some bytes are written: `write_all` ends with the last one -/
def SaveState.wrote {json : Json} (d : Save json) (inode count : Nat) : SaveState json :=
  if count < d.text.length then .writing d inode count else .written d

inductive LoadState where
  | idle
  /-- in `fs::read_to_string`: the open file and what is read of it -/
  | reading (q : LoadCall) (inode : Nat) (raw : List UInt8)
  | done (q : LoadCall) (result : Option (Rat × Rat))

structure CacheDir (json : Json) where
  volume : Volume CacheFile UInt8
  saves : Nat → SaveState json
  loads : Nat → LoadState
  /-- the saves whose rename went through, kept for the statements -/
  completed : List (Save json)

/-- a step of the save or load of one process; `ok` is false where the call fails -/
inductive CacheAct (json : Json) where
  | create (p : Nat) (d : Save json) (ok : Bool)
  | write (p k : Nat)
  | writeFails (p : Nat)
  | rename (p : Nat) (ok : Bool)
  | remove (p : Nat) (ok : Bool)
  | die (p : Nat)
  | openFinal (r : Nat) (q : LoadCall) (ok : Bool)
  | read (r k : Nat)
  | readEnd (r : Nat)
  | readFails (r : Nat)

section
variable {json : Json}

namespace CacheDir

def setSave (s : CacheDir json) (p : Nat) (st : SaveState json) : CacheDir json :=
  { s with saves := Function.update s.saves p st }

def setLoad (s : CacheDir json) (r : Nat) (st : LoadState) : CacheDir json :=
  { s with loads := Function.update s.loads r st }

/-- process `p` has opened the temporary file for `d` -/
def created (s : CacheDir json) (p : Nat) (d : Save json) : CacheDir json :=
  { s with volume := (s.volume.create .tmp).2 }.setSave p (.wrote d (s.volume.create .tmp).1 0)

/-- process `p` has written `k` bytes of `d` behind the first `n` -/
def wrotePiece (s : CacheDir json) (p : Nat) (d : Save json) (i n k : Nat) : CacheDir json :=
  { s with volume := s.volume.writeAt i n ((d.text.drop n).take k) }.setSave p (.wrote d i (n + k))

/-- process `p` has renamed the temporary file, which leaves `v` -/
def renamed (s : CacheDir json) (p : Nat) (d : Save json) (v : Volume CacheFile UInt8) : CacheDir json :=
  { s with volume := v, completed := s.completed ++ [d] }.setSave p .idle

def step (s : CacheDir json) : CacheAct json → Option (CacheDir json)
  | .create p d ok =>
    match s.saves p with
    | .idle => some (if ok then s.created p d else s)
    | _ => none
  | .write p k =>
    match s.saves p with
    | .writing d i n =>
      -- one `write(2)` takes any part of what is left
      if 0 < k ∧ n + k ≤ d.text.length then some (s.wrotePiece p d i n k) else none
    | _ => none
  | .writeFails p =>
    match s.saves p with
    -- returns without removing the temporary file
    | .writing _ _ _ => some (s.setSave p .idle)
    | _ => none
  | .rename p ok =>
    match s.saves p with
    | .written d =>
      if ok then (s.volume.rename .tmp .final).map (s.renamed p d)
      else some (s.setSave p .cleanup)
    | _ => none
  | .remove p ok =>
    match s.saves p with
    | .cleanup =>
      some ({ s with volume := if ok then s.volume.remove .tmp else s.volume }.setSave p .idle)
    | _ => none
  | .die p => some (s.setSave p .idle)
  | .openFinal r q ok =>
    match s.loads r with
    | .reading _ _ _ => none
    | _ =>
      match ok, s.volume.entry .final with
      | true, some i => some (s.setLoad r (.reading q i []))
      | _, _ => some (s.setLoad r (.done q none))
  | .read r k =>
    match s.loads r with
    | .reading q i raw =>
      if 0 < k ∧ raw.length + k ≤ (s.volume.content i).length then
        some (s.setLoad r (.reading q i (raw ++ ((s.volume.content i).drop raw.length).take k)))
      else none
    | _ => none
  | .readEnd r =>
    match s.loads r with
    | .reading q i raw =>
      if (s.volume.content i).length ≤ raw.length then
        some (s.setLoad r (.done q (tryLoadProbeCache q.build (json.fromStr raw) q.modelVariant q.maxSeq)))
      else none
    | _ => none
  | .readFails r =>
    match s.loads r with
    | .reading q _ _ => some (s.setLoad r (.done q none))
    | _ => none

end CacheDir

/-! ## what a step does -/

/-- between `create` and `rename` -/
def SaveState.underway : SaveState json → Bool
  | .writing _ _ _ | .written _ => true
  | .idle | .cleanup => false

/-- the temporary file is created only while no save is under way -/
def Alone (s : CacheDir json) : CacheAct json → Prop
  | .create _ _ true => ∀ q, (s.saves q).underway = false
  | _ => True

/-- what a load may turn to -/
inductive LoadStep (s : CacheDir json) (r : Nat) : LoadState → Prop
  | opened {q : LoadCall} {i : Nat} (h : s.volume.entry .final = some i) : LoadStep s r (.reading q i [])
  | more {q : LoadCall} {i k : Nat} {raw : List UInt8} (h : s.loads r = .reading q i raw) :
      LoadStep s r (.reading q i (raw ++ ((s.volume.content i).drop raw.length).take k))
  | ended {q : LoadCall} {i : Nat} {raw : List UInt8} (h : s.loads r = .reading q i raw)
      (hlen : (s.volume.content i).length ≤ raw.length) :
      LoadStep s r (.done q (tryLoadProbeCache q.build (json.fromStr raw) q.modelVariant q.maxSeq))
  | failed {q : LoadCall} : LoadStep s r (.done q none)

/-- everything a step can do, with what its guard has checked -/
inductive CacheMove (s : CacheDir json) (a : CacheAct json) : CacheDir json → Prop
  | created {p : Nat} {d : Save json} (ha : a = .create p d true) (hp : s.saves p = .idle) :
      CacheMove s a (s.created p d)
  | wrote {p i n k : Nat} {d : Save json} (hp : s.saves p = .writing d i n) (hk : n + k ≤ d.text.length) :
      CacheMove s a (s.wrotePiece p d i n k)
  | renamed {p : Nat} {d : Save json} {v : Volume CacheFile UInt8} (ha : a = .rename p true)
      (hp : s.saves p = .written d) (hv : s.volume.rename .tmp .final = some v) :
      CacheMove s a (s.renamed p d v)
  /-- a save ends or is given up; no content changes, and not the final name -/
  | parked {p : Nat} {st : SaveState json} {v : Volume CacheFile UInt8} (hst : st.underway = false)
      (hv : v = s.volume ∨ v = s.volume.remove .tmp) : CacheMove s a ({ s with volume := v }.setSave p st)
  | loaded {r : Nat} {st : LoadState} (h : LoadStep s r st) : CacheMove s a (s.setLoad r st)

theorem CacheDir.step_rename {s u : CacheDir json} {p : Nat} (h : s.step (.rename p true) = some u) :
    ∃ d v, s.saves p = .written d ∧ s.volume.rename .tmp .final = some v ∧ u = s.renamed p d v := by
  unfold step at h
  dsimp only at h
  split at h
  · rename_i d hp
    rw [if_pos rfl] at h
    obtain ⟨v, hv, rfl⟩ := Option.map_eq_some_iff.mp h
    exact ⟨d, v, hp, hv, rfl⟩
  · cases h

theorem CacheDir.step_cases {s u : CacheDir json} {a : CacheAct json} (h : s.step a = some u) :
    CacheMove s a u := by
  cases a with
  | create p d ok =>
    unfold step at h
    dsimp only at h
    split at h
    · rename_i hp
      cases ok with
      | true =>
        cases h
        exact .created rfl hp
      | false =>
        have hsame : s.setSave p .idle = s := by
          unfold setSave
          rw [← hp, Function.update_eq_self]
        cases h
        rw [if_neg Bool.false_ne_true]
        nth_rewrite 2 [← hsame]
        exact .parked rfl (.inl rfl)
    · cases h
  | write p k =>
    unfold step at h
    dsimp only at h
    split at h
    · rename_i d i n hp
      split at h
      · rename_i hk
        cases h
        exact .wrote hp hk.2
      · cases h
    · cases h
  | writeFails p =>
    unfold step at h
    dsimp only at h
    split at h
    · cases h
      exact .parked rfl (.inl rfl)
    · cases h
  | rename p ok =>
    cases ok with
    | true =>
      obtain ⟨d, v, hp, hv, rfl⟩ := step_rename h
      exact .renamed rfl hp hv
    | false =>
      unfold step at h
      dsimp only at h
      split at h
      · cases h
        exact .parked rfl (.inl rfl)
      · cases h
  | remove p ok =>
    unfold step at h
    dsimp only at h
    split at h
    · cases h
      refine .parked rfl ?_
      cases ok with
      | true => exact .inr rfl
      | false => exact .inl rfl
    · cases h
  | die p =>
    cases h
    exact .parked rfl (.inl rfl)
  | openFinal r q ok =>
    unfold step at h
    dsimp only at h
    split at h
    · cases h
    · split at h
      · rename_i i hi
        cases h
        exact .loaded (.opened hi)
      · cases h
        exact .loaded .failed
  | read r k =>
    unfold step at h
    dsimp only at h
    split at h
    · rename_i q i raw hr
      split at h
      · cases h
        exact .loaded (.more hr)
      · cases h
    · cases h
  | readEnd r =>
    unfold step at h
    dsimp only at h
    split at h
    · rename_i q i raw hr
      split at h
      · rename_i hlen
        cases h
        exact .loaded (.ended hr hlen)
      · cases h
    · cases h
  | readFails r =>
    unfold step at h
    dsimp only at h
    split at h
    · cases h
      exact .loaded .failed
    · cases h

/-! ## files that no longer change -/

theorem SaveState.wrote_eq_writing {d d' : Save json} {i i' n n' : Nat}
    (h : SaveState.wrote d i n = .writing d' i' n') : d' = d ∧ i' = i ∧ n' = n := by
  unfold wrote at h
  split at h
  · cases h
    exact ⟨rfl, rfl, rfl⟩
  · cases h

theorem SaveState.wrote_eq_written {d d' : Save json} {i n : Nat}
    (h : SaveState.wrote d i n = .written d') : d' = d ∧ d.text.length ≤ n := by
  unfold wrote at h
  split at h
  · cases h
  · rename_i hn
    cases h
    exact ⟨rfl, Nat.le_of_not_lt hn⟩

@[simp] theorem CacheDir.setSave_self (s : CacheDir json) (p : Nat) (st : SaveState json) :
    (s.setSave p st).saves p = st := Function.update_self ..

theorem CacheDir.setSave_of_ne (s : CacheDir json) {p q : Nat} (h : q ≠ p) (st : SaveState json) :
    (s.setSave p st).saves q = s.saves q := Function.update_of_ne h ..

/-- the document of a completed save, in a file that is not at the temporary name and that no process
has open for writing -/
structure Published (s : CacheDir json) (i : Nat) : Prop where
  old : i < s.volume.next
  moved : s.volume.entry .tmp ≠ some i
  unheld : ∀ p d n, s.saves p ≠ .writing d i n
  whole : ∃ d ∈ s.completed, s.volume.content i = d.text

theorem unheld_setSave {s : CacheDir json} {i p : Nat} {st : SaveState json}
    (h : ∀ p d n, s.saves p ≠ .writing d i n) (hst : ∀ d n, st ≠ .writing d i n) (q : Nat) (d : Save json)
    (n : Nat) : (s.setSave p st).saves q ≠ .writing d i n := by
  by_cases hq : q = p
  · subst hq
    rw [CacheDir.setSave_self]
    exact hst d n
  · rw [CacheDir.setSave_of_ne s hq]
    exact h q d n

/-- **A published file keeps its content**, whatever the processes do. -/
theorem Published.step {s u : CacheDir json} {a : CacheAct json} {i : Nat} (h : Published s i)
    (hs : s.step a = some u) : Published u i ∧ u.volume.content i = s.volume.content i := by
  obtain ⟨hold, hmoved, hunheld, dc, hdc, htext⟩ := h
  cases CacheDir.step_cases hs with
  | created ha hp =>
    obtain ⟨hentry, -, -, hcontent, hnext, hwhich⟩ := s.volume.create_spec .tmp
    have hne : i ≠ (s.volume.create .tmp).1 := by
      rcases hwhich with hw | ⟨hw, -⟩
      · intro he
        rw [he] at hmoved
        exact hmoved hw
      · omega
    have hsame : (s.volume.create .tmp).2.content i = s.volume.content i := hcontent i hne
    refine ⟨⟨Nat.lt_of_lt_of_le hold hnext, ?_, ?_, dc, hdc, hsame.trans htext⟩, hsame⟩
    · intro he
      exact hne (Option.some.inj (he.symm.trans hentry))
    · apply unheld_setSave hunheld
      intro d' n' hw
      exact hne (SaveState.wrote_eq_writing hw).2.1
  | @wrote p j n k d hp hk =>
    have hne : i ≠ j := by
      rintro rfl
      exact hunheld p d n hp
    have hsame := s.volume.writeAt_content_of_ne hne n ((d.text.drop n).take k)
    refine ⟨⟨hold, hmoved, ?_, dc, hdc, hsame.trans htext⟩, hsame⟩
    apply unheld_setSave hunheld
    intro d' n' hw
    exact hne (SaveState.wrote_eq_writing hw).2.1
  | @renamed p d v ha hp hv =>
    obtain ⟨-, -, hnone, hcontent, hnext⟩ := s.volume.rename_spec (by decide) hv
    have hsame : v.content i = s.volume.content i := by rw [hcontent]
    have hmem : dc ∈ s.completed ++ [d] := List.mem_append_left _ hdc
    refine ⟨⟨Nat.lt_of_lt_of_eq hold hnext.symm, ?_, ?_, dc, hmem, hsame.trans htext⟩, hsame⟩
    · intro he
      cases hnone.symm.trans he
    · apply unheld_setSave hunheld
      intro d' n' hw
      cases hw
  | @parked p st v hst hv =>
    have hcontent : v.content = s.volume.content ∧ v.next = s.volume.next := by
      rcases hv with rfl | rfl <;> exact ⟨rfl, rfl⟩
    have hsame : v.content i = s.volume.content i := by rw [hcontent.1]
    refine ⟨⟨Nat.lt_of_lt_of_eq hold hcontent.2.symm, ?_, ?_, dc, hdc, hsame.trans htext⟩, hsame⟩
    · rcases hv with rfl | rfl
      · exact hmoved
      · intro he
        cases (s.volume.remove_entry .tmp).symm.trans he
    · apply unheld_setSave hunheld
      rintro d' n' rfl
      cases hst
  | loaded h => exact ⟨⟨hold, hmoved, hunheld, dc, hdc, htext⟩, rfl⟩

/-! ## saves that do not overlap -/

/-- the save under way is the only one, and the temporary file is its own: it holds what is written -/
structure Held (s : CacheDir json) : Prop where
  bound : ∀ f i, s.volume.entry f = some i → i < s.volume.next
  one : ∀ p q, (s.saves p).underway = true → (s.saves q).underway = true → p = q
  writing : ∀ p d i n, s.saves p = .writing d i n → i < s.volume.next ∧
    (s.volume.entry .tmp = some i ∨ s.volume.entry .tmp = none) ∧ s.volume.content i = d.text.take n
  written : ∀ p d i, s.saves p = .written d → s.volume.entry .tmp = some i → s.volume.content i = d.text

/-- if no other save is under way, one that is under way after `setSave` is that one -/
theorem CacheDir.underway_setSave {t : CacheDir json} {p q : Nat} {st st' : SaveState json}
    (hothers : ∀ q, q ≠ p → (t.saves q).underway = false) (hst' : st'.underway = true)
    (hq : (t.setSave p st).saves q = st') : q = p ∧ st = st' := by
  by_cases hqp : q = p
  · subst hqp
    rw [CacheDir.setSave_self] at hq
    exact ⟨rfl, hq⟩
  · rw [CacheDir.setSave_of_ne _ hqp] at hq
    have hidle := hothers q hqp
    rw [hq, hst'] at hidle
    cases hidle

section
variable {s : CacheDir json}

theorem Held.create (h : Held s) (halone : ∀ q, (s.saves q).underway = false) (p : Nat) (d : Save json) :
    Held (s.created p d) := by
  obtain ⟨hentry, hother, hempty, -, hnext, hwhich⟩ := s.volume.create_spec .tmp
  have hnew : (s.volume.create .tmp).1 < (s.volume.create .tmp).2.next := by
    rcases hwhich with hw | ⟨hw, hlt⟩
    · exact Nat.lt_of_lt_of_le (h.bound .tmp _ hw) hnext
    · rwa [hw]
  -- nobody else is under way
  have hmine := fun q st => @CacheDir.underway_setSave json { s with volume := (s.volume.create .tmp).2 } p q
    (.wrote d (s.volume.create .tmp).1 0) st fun q _ => halone q
  refine ⟨?_, ?_, ?_, ?_⟩
  · intro f i hf
    cases f with
    | final => exact Nat.lt_of_lt_of_le (h.bound .final i ((hother .final (by decide)).symm.trans hf)) hnext
    | tmp =>
      cases hentry.symm.trans hf
      exact hnew
  · intro q q' hq hq'
    rw [(hmine q _ hq rfl).1, (hmine q' _ hq' rfl).1]
  · intro q d' i n hq
    obtain ⟨rfl, rfl, rfl⟩ := SaveState.wrote_eq_writing (hmine q _ rfl hq).2
    exact ⟨hnew, .inl hentry, hempty⟩
  · intro q d' i hq hi
    obtain ⟨rfl, hlen⟩ := SaveState.wrote_eq_written (hmine q _ rfl hq).2
    cases hentry.symm.trans hi
    rw [List.length_eq_zero_iff.mp (Nat.le_zero.mp hlen)]
    exact hempty

theorem Held.write (h : Held s) {p i n k : Nat} {d : Save json} (hp : s.saves p = .writing d i n)
    (hk : n + k ≤ d.text.length) : Held (s.wrotePiece p d i n k) := by
  obtain ⟨hold, htmp, hcontent⟩ := h.writing p d i n hp
  have hup : (s.saves p).underway = true := by rw [hp]; rfl
  have hothers : ∀ q, q ≠ p → (s.saves q).underway = false := by
    intro q hq
    rw [← Bool.not_eq_true]
    intro hup'
    exact hq (h.one q p hup' hup)
  have hnew : (s.volume.writeAt i n ((d.text.drop n).take k)).content i = d.text.take (n + k) := by
    rw [Volume.writeAt_content, hcontent]
    exact Volume.splice_take d.text (by omega)
  have hmine := fun q st => @CacheDir.underway_setSave json
    { s with volume := s.volume.writeAt i n ((d.text.drop n).take k) } p q (.wrote d i (n + k)) st hothers
  refine ⟨h.bound, ?_, ?_, ?_⟩
  · intro q q' hq hq'
    rw [(hmine q _ hq rfl).1, (hmine q' _ hq' rfl).1]
  · intro q d' i' n' hq
    obtain ⟨rfl, rfl, rfl⟩ := SaveState.wrote_eq_writing (hmine q _ rfl hq).2
    exact ⟨hold, htmp, hnew⟩
  · intro q d' j hq hj
    obtain ⟨rfl, hlen⟩ := SaveState.wrote_eq_written (hmine q _ rfl hq).2
    have hji : j = i := by
      rcases htmp with htmp | htmp
      · exact Option.some.inj (hj.symm.trans htmp)
      · cases hj.symm.trans htmp
    subst hji
    rw [List.take_of_length_le hlen] at hnew
    exact hnew

/-- a save that ends: the other processes see the same files, perhaps without the temporary name -/
theorem Held.park (h : Held s) {p : Nat} {st : SaveState json} (hst : st.underway = false)
    {v : Volume CacheFile UInt8} {completed : List (Save json)}
    (hbound : ∀ f i, v.entry f = some i → i < s.volume.next) (hcontent : v.content = s.volume.content)
    (hnext : v.next = s.volume.next) (htmp : v.entry .tmp = s.volume.entry .tmp ∨ v.entry .tmp = none) :
    Held ({ s with volume := v, completed := completed }.setSave p st) := by
  have hkept : ∀ q st', st'.underway = true →
      ({ s with volume := v, completed := completed }.setSave p st).saves q = st' → s.saves q = st' := by
    intro q st' hst' hq
    by_cases hqp : q = p
    · subst hqp
      rw [CacheDir.setSave_self] at hq
      rw [hq, hst'] at hst
      cases hst
    · rw [CacheDir.setSave_of_ne _ hqp] at hq
      exact hq
  refine ⟨?_, ?_, ?_, ?_⟩
  · intro f i hf
    exact Nat.lt_of_lt_of_eq (hbound f i hf) hnext.symm
  · intro q q' hq hq'
    have h1 := hkept q _ hq rfl
    have h2 := hkept q' _ hq' rfl
    rw [← h1] at hq
    rw [← h2] at hq'
    exact h.one q q' hq hq'
  · intro q d i n hq
    obtain ⟨hold, hw, hc⟩ := h.writing q d i n (hkept q _ rfl hq)
    refine ⟨Nat.lt_of_lt_of_eq hold hnext.symm, ?_, (congrFun hcontent i).trans hc⟩
    show v.entry .tmp = some i ∨ v.entry .tmp = none
    rcases htmp with htmp | htmp
    · rwa [htmp]
    · exact .inr htmp
  · intro q d i hq hi
    refine (congrFun hcontent i).trans (h.written q d i (hkept q _ rfl hq) ?_)
    rcases htmp with htmp | htmp
    · exact htmp.symm.trans hi
    · cases htmp.symm.trans hi

end

theorem Held.step {s u : CacheDir json} {a : CacheAct json} (h : Held s) (hc : Alone s a)
    (hs : s.step a = some u) : Held u := by
  cases CacheDir.step_cases hs with
  | created ha hp =>
    subst ha
    exact h.create hc _ _
  | wrote hp hk => exact h.write hp hk
  | renamed ha hp hv =>
    obtain ⟨hfinal, -, hnone, hcontent, hnext⟩ := s.volume.rename_spec (by decide) hv
    refine h.park rfl ?_ hcontent hnext (.inr hnone)
    intro f i hf
    cases f with
    | final => exact h.bound .tmp i (hfinal.trans hf)
    | tmp => cases hnone.symm.trans hf
  | parked hst hv =>
    rcases hv with rfl | rfl
    · exact h.park hst h.bound rfl rfl (.inl rfl)
    · refine h.park hst ?_ rfl rfl (.inr (s.volume.remove_entry .tmp))
      intro f i hf
      cases f with
      | final => exact h.bound .final i ((s.volume.remove_entry_of_ne (by decide)).symm.trans hf)
      | tmp => cases (s.volume.remove_entry .tmp).symm.trans hf
  | loaded hload => exact ⟨h.bound, h.one, h.writing, h.written⟩

/-! ## what readers see -/

/-- the coefficients are those of a completed save for the reader's own fingerprint -/
def Delivered (completed : List (Save json)) (q : LoadCall) (result : Option (Rat × Rat)) : Prop :=
  ∀ a b, result = some (a, b) → ∃ d ∈ completed,
    (d.call.cache.schemaVersion = 1 ∧ d.call.cache.serverVersion = q.build.version ∧
      d.call.cache.model = q.modelVariant ∧ d.call.cache.maxSeq = q.maxSeq ∧
      d.call.cache.arch = q.build.arch) ∧
    a = json.reread d.call.a ∧ b = json.reread d.call.b ∧ 0 < a ∧ 0 < b

structure Shown (s : CacheDir json) : Prop where
  final : ∀ i, s.volume.entry .final = some i → Published s i
  reading : ∀ r q i raw, s.loads r = .reading q i raw → Published s i ∧ raw <+: s.volume.content i
  done : ∀ r q result, s.loads r = .done q result → Delivered s.completed q result

/-- reading a whole document -/
theorem delivered_of_whole {completed : List (Save json)} {d : Save json} (hd : d ∈ completed)
    (q : LoadCall) : Delivered completed q
      (tryLoadProbeCache q.build (json.fromStr d.text) q.modelVariant q.maxSeq) := by
  intro a b hab
  obtain ⟨cache, hcache, hkey, ha, hb, hpos⟩ := tryLoadProbeCache_eq_some hab
  rw [json.read_back d.pretty] at hcache
  cases hcache
  exact ⟨d, hd, hkey, ha, hb, hpos⟩

theorem prefix_more {content raw : List UInt8} (h : raw <+: content) (k : Nat) :
    raw ++ (content.drop raw.length).take k <+: content := by
  obtain ⟨t, rfl⟩ := h
  rw [List.drop_left]
  exact (List.prefix_append_right_inj raw).mpr (List.take_prefix k t)

/-- a reader's step -/
theorem Shown.load {s : CacheDir json} (h : Shown s) {r : Nat} {st : LoadState} (hst : LoadStep s r st) :
    Shown (s.setLoad r st) := by
  have hkept : ∀ i, Published s i → Published (s.setLoad r st) i :=
    fun i hi => ⟨hi.old, hi.moved, hi.unheld, hi.whole⟩
  refine ⟨fun i hi => hkept i (h.final i hi), ?_, ?_⟩
  · intro r' q i raw hr'
    by_cases hr : r' = r
    · subst hr
      have hst' : st = .reading q i raw := (Function.update_self ..).symm.trans hr'
      cases hst with
      | opened hi =>
        cases hst'
        exact ⟨hkept i (h.final i hi), List.nil_prefix⟩
      | more hl =>
        cases hst'
        obtain ⟨hpub, hpre⟩ := h.reading _ _ _ _ hl
        exact ⟨hkept i hpub, prefix_more hpre _⟩
      | ended hl hlen => cases hst'
      | failed => cases hst'
    · obtain ⟨hpub, hpre⟩ := h.reading r' q i raw ((Function.update_of_ne hr ..).symm.trans hr')
      exact ⟨hkept i hpub, hpre⟩
  · intro r' q result hr'
    by_cases hr : r' = r
    · subst hr
      have hst' : st = .done q result := (Function.update_self ..).symm.trans hr'
      cases hst with
      | opened hi => cases hst'
      | more hl => cases hst'
      | ended hl hlen =>
        cases hst'
        obtain ⟨hpub, hpre⟩ := h.reading _ _ _ _ hl
        obtain ⟨d, hd, htext⟩ := hpub.whole
        rw [hpre.eq_of_length_le hlen, htext]
        exact delivered_of_whole hd q
      | failed =>
        cases hst'
        intro a b hab
        cases hab
    · exact h.done r' q result ((Function.update_of_ne hr ..).symm.trans hr')

/-- only a rename that goes through touches the final name -/
theorem CacheDir.step_final {s u : CacheDir json} {a : CacheAct json} (hs : s.step a = some u) :
    (∃ p, a = .rename p true) ∨ u.volume.entry .final = s.volume.entry .final := by
  cases CacheDir.step_cases hs with
  | created ha hp => exact .inr ((s.volume.create_spec .tmp).2.1 .final (by decide))
  | wrote hp hk => exact .inr rfl
  | renamed ha hp hv => exact .inl ⟨_, ha⟩
  | parked hst hv =>
    rcases hv with rfl | rfl
    · exact .inr rfl
    · exact .inr (s.volume.remove_entry_of_ne (by decide))
  | loaded h => exact .inr rfl

/-- a save that completes publishes its own document -/
theorem Held.publishes {s u : CacheDir json} (h : Held s) {p : Nat} (hs : s.step (.rename p true) = some u) :
    ∃ d, s.saves p = .written d ∧ u.volume.file .final = some d.text ∧
      ∀ i, u.volume.entry .final = some i → Published u i := by
  obtain ⟨d, v, hp, hv, rfl⟩ := CacheDir.step_rename hs
  obtain ⟨hfinal, ⟨i, hi⟩, hnone, hcontent, hnext⟩ := s.volume.rename_spec (by decide) hv
  have hup : (s.saves p).underway = true := by rw [hp]; rfl
  have htmp : s.volume.entry .tmp = some i := hfinal.trans hi
  have htext : v.content i = d.text := by
    rw [hcontent]
    exact h.written p d i hp htmp
  refine ⟨d, hp, ?_, ?_⟩
  · show (v.entry .final).map v.content = some d.text
    rw [hi, Option.map_some, htext]
  · intro j hj
    cases hi.symm.trans hj
    refine ⟨Nat.lt_of_lt_of_eq (h.bound .tmp i htmp) hnext.symm, ?_, ?_, d, ?_, htext⟩
    · intro he
      cases hnone.symm.trans he
    -- whoever still wrote into the file would be a second save under way
    · intro q d' n hq
      by_cases hqp : q = p
      · subst hqp
        unfold CacheDir.renamed at hq
        rw [CacheDir.setSave_self] at hq
        cases hq
      · unfold CacheDir.renamed at hq
        rw [CacheDir.setSave_of_ne _ hqp] at hq
        have hq' : s.saves q = .writing d' i n := hq
        refine hqp (h.one q p ?_ hup)
        rw [hq']
        rfl
    · exact List.mem_append_right _ List.mem_cons_self

theorem CacheDir.step_completed {s u : CacheDir json} {a : CacheAct json} (hs : s.step a = some u) :
    s.completed <+: u.completed := by
  cases CacheDir.step_cases hs with
  | renamed ha hp hv => exact List.prefix_append _ _
  | _ => exact List.prefix_refl _

/-- a step is a reader's, or leaves all readers as they are -/
theorem CacheDir.step_loads {s u : CacheDir json} {a : CacheAct json} (hs : s.step a = some u) :
    (∃ r st, LoadStep s r st ∧ u = s.setLoad r st) ∨ u.loads = s.loads := by
  cases CacheDir.step_cases hs with
  | loaded h => exact .inl ⟨_, _, h, rfl⟩
  | _ => exact .inr rfl

theorem Shown.step {s u : CacheDir json} {a : CacheAct json} (h : Shown s) (hheld : Held s)
    (hs : s.step a = some u) : Shown u := by
  rcases CacheDir.step_loads hs with ⟨r, st, hst, rfl⟩ | hloads
  · exact h.load hst
  · refine ⟨?_, ?_, ?_⟩
    · intro i hi
      rcases CacheDir.step_final hs with ⟨p, rfl⟩ | hfinal
      · obtain ⟨d, -, -, hpub⟩ := hheld.publishes hs
        exact hpub i hi
      · exact ((h.final i (hfinal.symm.trans hi)).step hs).1
    · intro r q i raw hr
      obtain ⟨hpub, hpre⟩ := h.reading r q i raw ((congrFun hloads r).symm.trans hr)
      obtain ⟨hpub', hsame⟩ := hpub.step hs
      rw [hsame]
      exact ⟨hpub', hpre⟩
    · intro r q result hr a b hab
      obtain ⟨d, hd, hrest⟩ := h.done r q result ((congrFun hloads r).symm.trans hr) a b hab
      exact ⟨d, (CacheDir.step_completed hs).subset hd, hrest⟩

/-! ## every run -/

/-- a directory before the servers start: the final name shows nothing or the document of an earlier save,
and the temporary name anything -/
structure Fresh (s : CacheDir json) : Prop where
  saves : ∀ p, s.saves p = .idle
  loads : ∀ r, s.loads r = .idle
  bound : ∀ f i, s.volume.entry f = some i → i < s.volume.next
  apart : ∀ i, s.volume.entry .final = some i → s.volume.entry .tmp ≠ some i
  final : ∀ text, s.volume.file .final = some text → ∃ d ∈ s.completed, text = d.text

theorem Fresh.held {s : CacheDir json} (h : Fresh s) : Held s := by
  refine ⟨h.bound, ?_, ?_, ?_⟩
  · intro p q hp
    rw [h.saves p] at hp
    cases hp
  · intro p d i n hp
    cases (h.saves p).symm.trans hp
  · intro p d i hp
    cases (h.saves p).symm.trans hp

theorem Fresh.shown {s : CacheDir json} (h : Fresh s) : Shown s := by
  refine ⟨?_, ?_, ?_⟩
  · intro i hi
    refine ⟨h.bound .final i hi, h.apart i hi, ?_, h.final _ ?_⟩
    · intro p d n hp
      cases (h.saves p).symm.trans hp
    · unfold Volume.file
      rw [hi, Option.map_some]
  · intro r q i raw hr
    cases (h.loads r).symm.trans hr
  · intro r q result hr
    cases (h.loads r).symm.trans hr

/-- **The probe cache is atomic while saves do not overlap.**  In every state of every run in which the
temporary file is created only while no other save is under way: the final name shows nothing or the
document of one completed save; a step that does not complete a save, failed or not, leaves it as it was,
and one that does puts its own document there; and a load that ends in coefficients has those of a
completed save for the reader's own fingerprint, both positive. -/
theorem probeCache_atomic {s0 s : CacheDir json} (h0 : Fresh s0) (hr : Reach CacheDir.step Alone s0 s) :
    (∀ text, s.volume.file .final = some text → ∃ d ∈ s.completed, text = d.text) ∧
    (∀ a u, s.step a = some u →
      (¬ ∃ p, a = .rename p true) → u.volume.file .final = s.volume.file .final) ∧
    (∀ p u, s.step (.rename p true) = some u →
      ∃ d, s.saves p = .written d ∧ u.volume.file .final = some d.text) ∧
    ∀ r q result, s.loads r = .done q result → Delivered s.completed q result := by
  obtain ⟨hheld, hshown⟩ : Held s ∧ Shown s := by
    refine hr.invariant (I := fun s => Held s ∧ Shown s) ⟨h0.held, h0.shown⟩ ?_
    rintro t a u ⟨hheld, hshown⟩ hc hs
    exact ⟨hheld.step hc hs, hshown.step hheld hs⟩
  refine ⟨?_, ?_, ?_, hshown.done⟩
  · intro text htext
    obtain ⟨i, hi, rfl⟩ := Option.map_eq_some_iff.mp htext
    exact (hshown.final i hi).whole
  · intro a u hs hnot
    have hentry := (CacheDir.step_final hs).resolve_left hnot
    unfold Volume.file
    rw [hentry]
    cases hi : s.volume.entry .final with
    | none => rfl
    | some i => rw [Option.map_some, Option.map_some, ((hshown.final i hi).step hs).2]
  · intro p u hs
    obtain ⟨d, hd, hfile, -⟩ := hheld.publishes hs
    exact ⟨d, hd, hfile⟩

end

/-! ## saves that overlap -/

/-- an empty directory -/
def emptyDir (json : Json) : CacheDir json :=
  ⟨⟨fun _ => none, fun _ => [], 0⟩, fun _ => .idle, fun _ => .idle, []⟩

theorem emptyDir_fresh (json : Json) : Fresh (emptyDir json) := by
  refine ⟨fun _ => rfl, fun _ => rfl, ?_, ?_, ?_⟩
  · intro f i hi
    cases hi
  · intro i hi
    cases hi
  · intro text htext
    cases htext

section
variable {json : Json} {s : CacheDir json} {p : Nat}

theorem CacheDir.step_create_ok (h : s.saves p = .idle) (d : Save json) :
    s.step (.create p d true) = some (s.created p d) := by
  unfold step
  dsimp only
  rw [h]
  rfl

theorem CacheDir.step_write_ok {d : Save json} {i n k : Nat} (h : s.saves p = .writing d i n)
    (hk : 0 < k ∧ n + k ≤ d.text.length) : s.step (.write p k) = some (s.wrotePiece p d i n k) := by
  unfold step
  dsimp only
  rw [h]
  exact if_pos hk

theorem CacheDir.step_rename_ok {d : Save json} {v : Volume CacheFile UInt8} (h : s.saves p = .written d)
    (hv : s.volume.rename .tmp .final = some v) : s.step (.rename p true) = some (s.renamed p d v) := by
  unfold step
  dsimp only
  rw [h, hv]
  rfl

end

/-- process 0 has written its document when process 1 creates the temporary file for its own; then
process 0 renames what is left of it -/
theorem overlap_torn {json : Json} (d : Save json) (hd : d.text ≠ []) :
    ∃ s, Reachable CacheDir.step (emptyDir json) s ∧ s.volume.file .final = some [] ∧ s.completed = [d] := by
  have hpos : 0 < d.text.length := List.length_pos_iff.mpr hd
  have hnew : SaveState.wrote d 0 0 = .writing d 0 0 := if_pos hpos
  have hlast : SaveState.wrote d 0 (0 + d.text.length) = .written d := if_neg (by omega)
  have r1 := Reach.single (C := fun _ _ => True) trivial
    (CacheDir.step_create_ok (s := emptyDir json) (p := 0) rfl d)
  have r2 := r1.tail trivial (CacheDir.step_write_ok (p := 0) (k := d.text.length) hnew ⟨hpos, by omega⟩)
  have r3 := r2.tail trivial (CacheDir.step_create_ok (p := 1) rfl d)
  have r4 := r3.tail trivial (CacheDir.step_rename_ok (p := 0) hlast rfl)
  exact ⟨_, r4, rfl, rfl⟩

/-! ## a document -/

def sampleCall : SaveCall := ⟨⟨"1.5.9", "x86_64"⟩, "fp16", 8192, 1767225600, 18432, 62 / 10⟩

/-- the document of `sampleCall`; 123 is the opening brace -/
def sampleText : List UInt8 :=
  123 :: ("\n  \"schema_version\": 1,\n  \"server_version\": \"1.5.9\",\n  \"model\": \"fp16\",\n" ++
    "  \"max_seq\": 8192,\n  \"arch\": \"x86_64\",\n  \"fitted_at_unix\": 1767225600,\n" ++
    "  \"a\": 18432.0,\n  \"b\": 6.2\n\x7d").toUTF8.toList

def samplePretty (cache : ProbeCache) : Option (List UInt8) :=
  if cache = sampleCall.cache then some sampleText else none

def sampleFromStr (text : List UInt8) : Option ProbeCache :=
  if text = sampleText then some sampleCall.cache else none

theorem sample_read_back {cache : ProbeCache} {text : List UInt8} (h : samplePretty cache = some text) :
    sampleFromStr text = some { cache with a := id cache.a, b := id cache.b } := by
  unfold samplePretty at h
  split at h
  · rename_i hcache
    cases h
    rw [hcache]
    exact if_pos rfl
  · cases h

/-- `serde_json` on the one document -/
def sampleJson : Json := ⟨samplePretty, sampleFromStr, id, sample_read_back⟩

theorem sample_pretty : sampleJson.toStringPretty sampleCall.cache = some sampleText := if_pos rfl

def sampleSave : Save sampleJson := ⟨sampleCall, sampleText, sample_pretty⟩

/-- one server saves its coefficients -/
theorem probeCache_atomic_one :
    ∃ s, Reach CacheDir.step Alone (emptyDir sampleJson) s ∧ s.volume.file .final = some sampleText ∧
      ∀ text, s.volume.file .final = some text → ∃ d ∈ s.completed, text = d.text := by
  have hpos : 0 < sampleText.length := List.length_pos_iff.mpr (List.cons_ne_nil _ _)
  have hnew : SaveState.wrote sampleSave 0 0 = .writing sampleSave 0 0 := if_pos hpos
  have hlast : SaveState.wrote sampleSave 0 (0 + sampleText.length) = .written sampleSave :=
    if_neg (by show ¬ 0 + sampleText.length < sampleText.length; omega)
  have r1 := Reach.single (C := Alone) (a := .create 0 sampleSave true) (fun _ => rfl)
    (CacheDir.step_create_ok (s := emptyDir sampleJson) (p := 0) rfl sampleSave)
  have r2 := r1.tail (show Alone _ (.write 0 sampleText.length) from trivial) (CacheDir.step_write_ok hnew
    ⟨hpos, by show 0 + sampleText.length ≤ sampleText.length; omega⟩)
  have r3 := r2.tail (show Alone _ (.rename 0 true) from trivial) (CacheDir.step_rename_ok hlast rfl)
  refine ⟨_, r3, ?_, (probeCache_atomic (emptyDir_fresh sampleJson) r3).1⟩
  have htext := Volume.splice_take (β := UInt8) sampleText (n := 0) (k := sampleText.length) (Nat.zero_le _)
  rw [Nat.zero_add, List.take_length] at htext
  exact congrArg some htext

/-- two servers save at the same time: the final name shows an empty file -/
theorem probeCache_torn :
    ¬ ∀ s, Reachable CacheDir.step (emptyDir sampleJson) s →
      ∀ text, s.volume.file .final = some text → ∃ d ∈ s.completed, text = d.text := by
  intro h
  obtain ⟨s, hr, hfile, hcompleted⟩ := overlap_torn sampleSave (List.cons_ne_nil _ _)
  obtain ⟨d, hd, htext⟩ := h s hr [] hfile
  rw [hcompleted, List.mem_singleton] at hd
  rw [hd] at htext
  cases htext

end EmbedServer
