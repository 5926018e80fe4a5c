import EmbedServer.Lib.Segment
import Mathlib.Data.Rat.Floor
import Mathlib.Algebra.Order.Field.Rat
import Mathlib.Tactic.Positivity

/-!
# The cost model and the length-sorted greedy bin-packer (`binpack.rs`)

The coefficients are exact rationals; the two float-to-`u128` casts of `chunk_cost` are kept as
separate truncations, each saturating as the cast does.

`binPack` is the source's scan with its running maximum.  It is the greedy segmentation of the
sorted index list (`binPack_eq_segment`), which gives what the callers rely on:

* `binPack_perm`     the chunks hold every index `0..n` exactly once;
* `binPack_ne_nil`   no chunk is empty;
* `binPack_fits`     a chunk is a single text or fits the budget;
* `binPack_within`   if a single text of `maxSeq` tokens fits, so does every chunk of texts up to `maxSeq`.
-/

namespace EmbedServer

/-- `u128::MAX` -/
def u128Max : Nat := 2 ^ 128 - 1

/-- `x as u128` for a float `x`: fraction dropped, negative values to `0`, saturating above -/
def castU128 (x : Rat) : Nat := min x.floor.toNat u128Max

structure CostModel where
  a : Rat
  b : Rat
  maxWorkspaceBytes : Nat
deriving DecidableEq, Repr

namespace CostModel

def conservativeA : Rat := 16384
def conservativeB : Rat := 8

/-- 2 GiB -/
def defaultMaxWorkspace : Nat := 2 * 1024 * 1024 * 1024

def conservative (maxWorkspaceBytes : Nat) : CostModel :=
  ⟨conservativeA, conservativeB, maxWorkspaceBytes⟩

def chunkCost (cm : CostModel) (count maxSeq : Nat) : Nat :=
  let n := count * maxSeq
  let linear := castU128 (cm.a * n)
  let quad := castU128 (cm.b * n * maxSeq)
  min (linear + quad) u128Max

def fits (cm : CostModel) (count maxSeq : Nat) : Bool :=
  decide (cm.chunkCost count maxSeq ≤ cm.maxWorkspaceBytes)

/-! ## how the cost grows -/

theorem castU128_mono {x y : Rat} (h : x ≤ y) : castU128 x ≤ castU128 y :=
  min_le_min_right _ (Int.toNat_le_toNat (Rat.floor_monotone h))

/-- larger coefficients cost more -/
theorem chunkCost_le_of_coeffs {cm cm' : CostModel} (ha : cm.a ≤ cm'.a) (hb : cm.b ≤ cm'.b)
    (count maxSeq : Nat) : cm.chunkCost count maxSeq ≤ cm'.chunkCost count maxSeq := by
  have hlinear : cm.a * (count * maxSeq : Nat) ≤ cm'.a * (count * maxSeq : Nat) := by gcongr
  have hquad : cm.b * (count * maxSeq : Nat) * maxSeq ≤ cm'.b * (count * maxSeq : Nat) * maxSeq := by
    gcongr
  exact min_le_min_right _ (Nat.add_le_add (castU128_mono hlinear) (castU128_mono hquad))

/-- more texts and longer texts cost more -/
theorem chunkCost_mono {cm : CostModel} (ha : 0 ≤ cm.a) (hb : 0 ≤ cm.b)
    {count count' maxSeq maxSeq' : Nat} (hc : count ≤ count') (hs : maxSeq ≤ maxSeq') :
    cm.chunkCost count maxSeq ≤ cm.chunkCost count' maxSeq' := by
  have hn : ((count * maxSeq : Nat) : Rat) ≤ (count' * maxSeq' : Nat) := by
    exact_mod_cast Nat.mul_le_mul hc hs
  have hs' : (maxSeq : Rat) ≤ maxSeq' := by exact_mod_cast hs
  have hlinear : cm.a * (count * maxSeq : Nat) ≤ cm.a * (count' * maxSeq' : Nat) := by gcongr
  have hquad : cm.b * (count * maxSeq : Nat) * maxSeq ≤ cm.b * (count' * maxSeq' : Nat) * maxSeq' := by
    gcongr
  exact min_le_min_right _ (Nat.add_le_add (castU128_mono hlinear) (castU128_mono hquad))

/-- a text with a token costs something -/
theorem chunkCost_pos {cm : CostModel} (ha : 1 ≤ cm.a) {count maxSeq : Nat} (hc : 1 ≤ count)
    (hs : 1 ≤ maxSeq) : 0 < cm.chunkCost count maxSeq := by
  have hn : (1 : Rat) ≤ (count * maxSeq : Nat) := by exact_mod_cast Nat.mul_le_mul hc hs
  have hlinear : (1 : Rat) ≤ cm.a * (count * maxSeq : Nat) := one_le_mul_of_one_le_of_one_le ha hn
  have hcast : 1 ≤ castU128 (cm.a * (count * maxSeq : Nat)) := castU128_mono hlinear
  have hmax : 1 ≤ u128Max := by decide
  exact le_min (hcast.trans (Nat.le_add_right _ _)) hmax

end CostModel

/-- `seq_lengths[i]`; the packer only asks for `i < n` -/
def seqAt (seqLengths : List Nat) (i : Nat) : Nat := seqLengths.getD i 0

theorem seqAt_of_lt {seqLengths : List Nat} {i : Nat} (h : i < seqLengths.length) :
    seqAt seqLengths i = seqLengths[i] := by
  rw [seqAt, List.getD_eq_getElem?_getD, List.getElem?_eq_getElem h]
  rfl

/-- longest sequence of a chunk -/
def chunkSeq (seqLengths : List Nat) (chunk : List Nat) : Nat := top (chunk.map (seqAt seqLengths))

structure PackState where
  chunks : List (List Nat)
  current : List Nat
  currentMaxSeq : Nat

/-- one round of the packing loop -/
def packStep (seqLengths : List Nat) (cm : CostModel) (st : PackState) (idx : Nat) : PackState :=
  let seq := seqAt seqLengths idx
  let newMax := max st.currentMaxSeq seq
  let newCount := st.current.length + 1
  if st.current.isEmpty || cm.fits newCount newMax then
    { st with current := st.current ++ [idx], currentMaxSeq := newMax }
  else
    { chunks := st.chunks ++ [st.current], current := [idx], currentMaxSeq := seq }

def binPack (S : UnstableSort) (seqLengths : List Nat) (cm : CostModel) : List (List Nat) :=
  if seqLengths.isEmpty then []
  else
    let sorted := S.byKey (seqAt seqLengths) (List.range seqLengths.length)
    let st := sorted.foldl (packStep seqLengths cm) ⟨[], [], 0⟩
    if st.current.isEmpty then st.chunks else st.chunks ++ [st.current]

/-! ## the packer is a greedy segmentation -/

section
variable (S : UnstableSort) (lens : List Nat) (cm : CostModel)

/-- the text `idx` may join the chunk `cur` -/
def joins (cur : List Nat) (idx : Nat) : Bool :=
  cm.fits (cur.length + 1) (max (chunkSeq lens cur) (seqAt lens idx))

theorem chunkSeq_snoc (c : List Nat) (i : Nat) :
    chunkSeq lens (c ++ [i]) = max (chunkSeq lens c) (seqAt lens i) := by
  simp [chunkSeq]

/-- the running maximum is the maximum of the open chunk -/
theorem packFold_eq (l : List Nat) (st : PackState) (s : Segs Nat) (hd : st.chunks = s.done)
    (hc : st.current = s.cur) (hm : st.currentMaxSeq = chunkSeq lens s.cur) :
    (l.foldl (packStep lens cm) st).chunks = (l.foldl (Segs.step (joins lens cm)) s).done ∧
    (l.foldl (packStep lens cm) st).current = (l.foldl (Segs.step (joins lens cm)) s).cur := by
  induction l generalizing st s with
  | nil => exact ⟨hd, hc⟩
  | cons i l ih =>
    rw [List.foldl_cons, List.foldl_cons]
    unfold packStep Segs.step
    simp only [hc, hm]
    have hj : cm.fits (s.cur.length + 1) (max (chunkSeq lens s.cur) (seqAt lens i)) =
        joins lens cm s.cur i := rfl
    rw [hj]
    split
    · exact ih _ _ hd rfl (chunkSeq_snoc lens s.cur i).symm
    · exact ih _ _ (by rw [hd]) rfl (by simp [chunkSeq])

theorem binPack_eq_segment :
    binPack S lens cm = segment (joins lens cm) (S.byKey (seqAt lens) (List.range lens.length)) := by
  unfold binPack
  by_cases h : lens = []
  · subst h
    rw [List.isEmpty_nil, if_pos rfl]
    have e := (S.perm (seqAt []) (List.range 0)).length_eq
    rw [List.length_range] at e
    rw [List.length_nil, List.length_eq_zero_iff.mp e]
    rfl
  · rw [if_neg (by simpa using h)]
    obtain ⟨h1, h2⟩ := packFold_eq lens cm (S.byKey (seqAt lens) (List.range lens.length))
      ⟨[], [], 0⟩ ⟨[], []⟩ rfl rfl rfl
    unfold segment Segs.close
    rw [← h1, ← h2]

theorem binPack_perm : (binPack S lens cm).flatten.Perm (List.range lens.length) := by
  rw [binPack_eq_segment, segment_flatten]
  exact S.perm _ _

variable {S lens cm} {c : List Nat}

theorem binPack_ne_nil (h : c ∈ binPack S lens cm) : c ≠ [] := by
  rw [binPack_eq_segment] at h
  exact segment_ne_nil _ h

theorem binPack_lt (h : c ∈ binPack S lens cm) {i : Nat} (hi : i ∈ c) : i < lens.length := by
  have h1 : i ∈ (binPack S lens cm).flatten := List.mem_flatten.mpr ⟨c, h, hi⟩
  exact List.mem_range.mp ((binPack_perm S lens cm).mem_iff.mp h1)

/-- a chunk is a single text or fits the budget -/
theorem binPack_fits (h : c ∈ binPack S lens cm) :
    c.length = 1 ∨ cm.fits c.length (chunkSeq lens c) = true := by
  have hne := binPack_ne_nil h
  rw [binPack_eq_segment] at h
  rcases List.eq_nil_or_concat c with rfl | ⟨pre, i, rfl⟩
  · exact absurd rfl hne
  · rw [List.concat_eq_append] at h ⊢
    by_cases hp : pre = []
    · subst hp
      exact Or.inl rfl
    · refine Or.inr ?_
      have hj := segment_adm _ h pre i [] rfl hp
      rw [chunkSeq_snoc, List.length_append]
      exact hj

theorem chunkSeq_le {maxSeq : Nat} (hl : ∀ l ∈ lens, l ≤ maxSeq) (h : c ∈ binPack S lens cm) :
    chunkSeq lens c ≤ maxSeq := by
  apply top_le
  intro l hmem
  obtain ⟨i, hi, rfl⟩ := List.mem_map.mp hmem
  rw [seqAt_of_lt (binPack_lt h hi)]
  exact hl _ (List.getElem_mem _)

/-- the chunk of a single text is the only one that can be over the budget -/
theorem binPack_within {maxSeq : Nat} (ha : 0 ≤ cm.a) (hb : 0 ≤ cm.b) (hfit : cm.fits 1 maxSeq = true)
    (hl : ∀ l ∈ lens, l ≤ maxSeq) (h : c ∈ binPack S lens cm) :
    cm.fits c.length (chunkSeq lens c) = true := by
  rcases binPack_fits h with hone | hmany
  · rw [hone]
    have hcost := CostModel.chunkCost_mono ha hb (le_refl 1) (chunkSeq_le hl h)
    exact decide_eq_true (hcost.trans (of_decide_eq_true hfit))
  · exact hmany

variable (S cm) in
/-- one text makes one chunk -/
theorem binPack_singleton (len : Nat) : binPack S [len] cm = [[0]] := by
  have hsorted : S.byKey (seqAt [len]) (List.range 1) = [0] := List.perm_singleton.mp (S.perm _ _)
  unfold binPack
  rw [List.length_singleton, hsorted]
  rfl

end
end EmbedServer
