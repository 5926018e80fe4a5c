import Mathlib.Data.List.Sort
import Mathlib.Data.List.Chain
import Mathlib.Data.List.Induction

/-!
# Unstable sorts, running maxima and one-pass greedy segmentation

* `UnstableSort`   a sort by key that may leave equal keys in any order;
* `top`            the maximum of a list of numbers, `0` on the empty list;
* `segment adm l`  cut `l` from left to right into groups: an element joins the open group when
                   the group is empty or `adm group element` allows it, otherwise it opens the
                   next one.  `segment_flatten`, `segment_ne_nil`, `segment_adm`: nothing is lost or
                   reordered, no group is empty, every element after a group's first was allowed;
                   `segment_refuses`: every group refused the first element of the next;
                   `segment_unique`: no other grouping of `l` has these properties.
-/

namespace EmbedServer

/-! ## sorting by key, ties in any order -/

/-- `sort_unstable_by_key`: sorted by the key, equal keys in an unspecified order -/
structure UnstableSort where
  byKey : (Nat → Nat) → List Nat → List Nat
  perm : ∀ key l, (byKey key l).Perm l
  sorted : ∀ key l, (byKey key l).Pairwise fun i j => key i ≤ key j

/-- the stable sort is one of them -/
def UnstableSort.insertion : UnstableSort where
  byKey key l := l.insertionSort fun i j => key i ≤ key j
  perm _ l := List.perm_insertionSort _ l
  sorted key l :=
    haveI : Std.Total fun i j : Nat => key i ≤ key j := ⟨fun _ _ => Nat.le_total _ _⟩
    haveI : IsTrans Nat fun i j => key i ≤ key j := ⟨fun _ _ _ => Nat.le_trans⟩
    List.pairwise_insertionSort _ l

/-! ## maxima -/

/-- `iter().max()`, `0` when there is none -/
def top (l : List Nat) : Nat := l.max?.getD 0

@[simp] theorem top_nil : top [] = 0 := rfl

@[simp] theorem top_cons (a : Nat) (l : List Nat) : top (a :: l) = max a (top l) := by
  unfold top
  rw [List.max?_cons]
  cases l.max? with
  | none => simp
  | some m => simp

@[simp] theorem top_append (l m : List Nat) : top (l ++ m) = max (top l) (top m) := by
  induction l with
  | nil => simp
  | cons a l ih => rw [List.cons_append, top_cons, ih, top_cons, max_assoc]

theorem le_top {l : List Nat} {a : Nat} (h : a ∈ l) : a ≤ top l := by
  induction l with
  | nil => exact absurd h List.not_mem_nil
  | cons b l ih =>
    rw [top_cons]
    rcases List.mem_cons.mp h with rfl | h
    · exact le_max_left _ _
    · exact (ih h).trans (le_max_right _ _)

theorem top_mem {l : List Nat} (h : l ≠ []) : top l ∈ l := by
  obtain ⟨m, hm⟩ : ∃ m, l.max? = some m := by
    cases hl : l.max? with
    | none => exact absurd (List.max?_eq_none_iff.mp hl) h
    | some m => exact ⟨m, rfl⟩
  unfold top
  rw [hm]
  exact List.max?_mem hm

theorem top_le {l : List Nat} {n : Nat} (h : ∀ a ∈ l, a ≤ n) : top l ≤ n := by
  by_cases hl : l = []
  · subst hl
    exact Nat.zero_le n
  · exact h _ (top_mem hl)

theorem getD_max? {l : List Nat} (h : l ≠ []) (d : Nat) : l.max?.getD d = top l := by
  unfold top
  cases hl : l.max? with
  | none => exact absurd (List.max?_eq_none_iff.mp hl) h
  | some m => rfl

/-! ## greedy segmentation -/

section
variable {α : Type} (adm : List α → α → Bool)

/-- finished groups and the open one -/
structure Segs (α : Type) where
  done : List (List α)
  cur : List α

/-- one element -/
def Segs.step (s : Segs α) (a : α) : Segs α :=
  if s.cur.isEmpty || adm s.cur a then { s with cur := s.cur ++ [a] }
  else { done := s.done ++ [s.cur], cur := [a] }

/-- the open group is closed at the end, unless it is empty -/
def Segs.close (s : Segs α) : List (List α) := if s.cur.isEmpty then s.done else s.done ++ [s.cur]

def segment (l : List α) : List (List α) := (l.foldl (Segs.step adm) ⟨[], []⟩).close

/-- every element after the first of the group was allowed by `adm` -/
def Grown (g : List α) : Prop := ∀ pre a post, g = pre ++ a :: post → pre ≠ [] → adm pre a = true

theorem grown_singleton (a : α) : Grown adm [a] := by
  intro pre b post h hne
  cases pre with
  | nil => exact absurd rfl hne
  | cons c pre => simp at h

theorem grown_snoc {g : List α} {a : α} (hg : Grown adm g) (ha : adm g a = true) :
    Grown adm (g ++ [a]) := by
  intro pre b post h hne
  rcases List.eq_nil_or_concat post with rfl | ⟨post', c, rfl⟩
  · obtain ⟨h1, h2⟩ := List.append_inj' h rfl
    cases h2
    rw [← h1]
    exact ha
  · have e : pre ++ b :: (post' ++ [c]) = (pre ++ b :: post') ++ [c] := by simp
    rw [List.concat_eq_append, e] at h
    exact hg pre b post' (List.append_inj' h rfl).1 hne

/-- what holds after the elements `seen` -/
structure Segs.Inv (seen : List α) (s : Segs α) : Prop where
  flat : s.done.flatten ++ s.cur = seen
  ne : ∀ g ∈ s.done, g ≠ []
  open_ne : s.cur = [] → s.done = []
  grown : ∀ g ∈ s.done, Grown adm g
  open_grown : Grown adm s.cur

theorem Segs.inv_step {seen : List α} {s : Segs α} (h : s.Inv adm seen) (a : α) :
    (s.step adm a).Inv adm (seen ++ [a]) := by
  unfold Segs.step
  by_cases hc : s.cur = []
  · have hd := h.open_ne hc
    have hs : seen = [] := by rw [← h.flat, hc, hd]; rfl
    rw [hc, List.isEmpty_nil, Bool.true_or, if_pos rfl, hs]
    exact ⟨by simp [hd], by simp [hd], by simp, by simp [hd], grown_singleton adm a⟩
  · have he : s.cur.isEmpty = false := by simpa using hc
    rw [he, Bool.false_or]
    split
    · rename_i ha
      exact ⟨by rw [← h.flat]; simp, h.ne, by simp, h.grown, grown_snoc adm h.open_grown ha⟩
    · refine ⟨by rw [← h.flat]; simp, ?_, by simp, ?_, grown_singleton adm a⟩
      · intro g hg
        rcases List.mem_append.mp hg with hg | hg
        · exact h.ne g hg
        · rw [List.mem_singleton.mp hg]
          exact hc
      · intro g hg
        rcases List.mem_append.mp hg with hg | hg
        · exact h.grown g hg
        · rw [List.mem_singleton.mp hg]
          exact h.open_grown

theorem Segs.inv_foldl (l : List α) : (l.foldl (Segs.step adm) ⟨[], []⟩).Inv adm l := by
  induction l using List.reverseRecOn with
  | nil => exact ⟨rfl, by simp, by simp, by simp, by intro p a q h; simp at h⟩
  | append_singleton l a ih =>
    rw [List.foldl_append]
    exact Segs.inv_step adm ih a

theorem Segs.mem_close {s : Segs α} {g : List α} (h : g ∈ s.close) :
    g ∈ s.done ∨ (g = s.cur ∧ s.cur ≠ []) := by
  unfold Segs.close at h
  by_cases hc : s.cur = []
  · rw [hc] at h
    exact Or.inl h
  · rw [if_neg (by simpa using hc)] at h
    rcases List.mem_append.mp h with h | h
    · exact Or.inl h
    · exact Or.inr ⟨List.mem_singleton.mp h, hc⟩

theorem segment_flatten (l : List α) : (segment adm l).flatten = l := by
  have h := (Segs.inv_foldl adm l).flat
  unfold segment Segs.close
  split
  · rename_i hc
    rw [List.isEmpty_iff.mp hc, List.append_nil] at h
    exact h
  · simpa using h

theorem segment_ne_nil {l g : List α} (h : g ∈ segment adm l) : g ≠ [] := by
  rcases Segs.mem_close h with h | ⟨rfl, hne⟩
  · exact (Segs.inv_foldl adm l).ne g h
  · exact hne

theorem segment_adm {l g : List α} (h : g ∈ segment adm l) : Grown adm g := by
  rcases Segs.mem_close h with h | ⟨rfl, _⟩
  · exact (Segs.inv_foldl adm l).grown g h
  · exact (Segs.inv_foldl adm l).open_grown

/-! ## neighbouring groups -/

/-- the next group begins with an element that `g` did not allow -/
def Refuses (g next : List α) : Prop := ∃ a, next.head? = some a ∧ adm g a = false

theorem Segs.refuses_step {seen : List α} {s : Segs α} (h : s.Inv adm seen)
    (hc : (s.done ++ [s.cur]).IsChain (Refuses adm)) (a : α) :
    ((s.step adm a).done ++ [(s.step adm a).cur]).IsChain (Refuses adm) := by
  unfold Segs.step
  by_cases he : s.cur = []
  · rw [he, List.isEmpty_nil, Bool.true_or, if_pos rfl, h.open_ne he]
    exact List.IsChain.singleton _
  · have he' : s.cur.isEmpty = false := by simpa using he
    rw [he', Bool.false_or]
    obtain ⟨hdone, -, hlast⟩ := List.isChain_append.mp hc
    split
    · -- the open group grows at its end: its head is the same
      refine List.isChain_append.mpr ⟨hdone, List.IsChain.singleton _, ?_⟩
      intro g hg next hnext
      obtain ⟨b, hb, hr⟩ := hlast g hg s.cur rfl
      cases hnext
      refine ⟨b, ?_, hr⟩
      rw [List.head?_append_of_ne_nil _ he]
      exact hb
    · rename_i ha
      refine List.isChain_append.mpr ⟨hc, List.IsChain.singleton _, ?_⟩
      intro g hg next hnext
      rw [List.getLast?_concat] at hg
      cases hg
      cases hnext
      exact ⟨a, rfl, Bool.eq_false_iff.mpr ha⟩

theorem Segs.refuses_foldl (l : List α) :
    ((l.foldl (Segs.step adm) ⟨[], []⟩).done ++ [(l.foldl (Segs.step adm) ⟨[], []⟩).cur]).IsChain
      (Refuses adm) := by
  induction l using List.reverseRecOn with
  | nil => exact List.IsChain.singleton _
  | append_singleton l a ih =>
    rw [List.foldl_append]
    exact Segs.refuses_step adm (Segs.inv_foldl adm l) ih a

theorem segment_refuses (l : List α) : (segment adm l).IsChain (Refuses adm) := by
  have h := Segs.refuses_foldl adm l
  unfold segment Segs.close
  split
  · exact (List.isChain_append.mp h).1
  · exact h

/-! ## the grouping is determined -/

/-- an open group takes in all it allows -/
theorem Segs.foldl_grown {done : List (List α)} {pre post : List α} (hpre : pre ≠ [])
    (h : Grown adm (pre ++ post)) : post.foldl (Segs.step adm) ⟨done, pre⟩ = ⟨done, pre ++ post⟩ := by
  induction post generalizing pre with
  | nil => rw [List.append_nil]; rfl
  | cons a post ih =>
    have hstep : Segs.step adm ⟨done, pre⟩ a = ⟨done, pre ++ [a]⟩ := by
      unfold Segs.step
      rw [h pre a post rfl hpre, Bool.or_true, if_pos rfl]
    have e : pre ++ a :: post = (pre ++ [a]) ++ post := by simp
    rw [List.foldl_cons, hstep, e]
    rw [e] at h
    exact ih (by simp) h

theorem Segs.foldl_groups {groups done : List (List α)} {cur : List α} (hcur : cur ≠ [])
    (hne : ∀ g ∈ groups, g ≠ []) (hg : ∀ g ∈ groups, Grown adm g)
    (hc : (cur :: groups).IsChain (Refuses adm)) :
    (groups.flatten.foldl (Segs.step adm) ⟨done, cur⟩).close = done ++ cur :: groups := by
  induction groups generalizing done cur with
  | nil =>
    show Segs.close ⟨done, cur⟩ = _
    unfold Segs.close
    rw [if_neg (by simpa using hcur)]
  | cons g groups ih =>
    obtain ⟨⟨a, ha, hr⟩, hc⟩ := List.isChain_cons_cons.mp hc
    obtain ⟨post, rfl⟩ := List.head?_eq_some_iff.mp ha
    have hopen : Segs.step adm ⟨done, cur⟩ a = ⟨done ++ [cur], [a]⟩ := by
      unfold Segs.step
      rw [hr, Bool.or_false, if_neg (by simpa using hcur)]
    have htake : post.foldl (Segs.step adm) ⟨done ++ [cur], [a]⟩ = ⟨done ++ [cur], a :: post⟩ :=
      Segs.foldl_grown adm (List.cons_ne_nil a []) (hg (a :: post) List.mem_cons_self)
    rw [List.flatten_cons, List.foldl_append, List.foldl_cons, hopen, htake,
      ih (List.cons_ne_nil a post) (fun g h => hne g (List.mem_cons_of_mem _ h))
        (fun g h => hg g (List.mem_cons_of_mem _ h)) hc]
    simp

/-- nonempty groups, each allowed and each refusing the head of the next, are the greedy ones -/
theorem segment_unique {l : List α} {groups : List (List α)} (hl : groups.flatten = l)
    (hne : ∀ g ∈ groups, g ≠ []) (hg : ∀ g ∈ groups, Grown adm g)
    (hc : groups.IsChain (Refuses adm)) : segment adm l = groups := by
  subst hl
  cases groups with
  | nil => rfl
  | cons g groups =>
    obtain ⟨a, post, rfl⟩ := List.exists_cons_of_ne_nil (hne g List.mem_cons_self)
    have hopen : Segs.step adm ⟨[], []⟩ a = ⟨[], [a]⟩ := rfl
    have htake : post.foldl (Segs.step adm) ⟨[], [a]⟩ = ⟨[], a :: post⟩ :=
      Segs.foldl_grown adm (List.cons_ne_nil a []) (hg (a :: post) List.mem_cons_self)
    unfold segment
    rw [List.flatten_cons, List.foldl_append, List.foldl_cons, hopen, htake,
      Segs.foldl_groups adm (List.cons_ne_nil a post) (fun g h => hne g (List.mem_cons_of_mem _ h))
        (fun g h => hg g (List.mem_cons_of_mem _ h)) hc]
    rfl

end

/-- grouping the images is grouping the elements -/
theorem segment_map {α β : Type} (adm : List β → β → Bool) (f : α → β) (l : List α) :
    segment adm (l.map f) = (segment (fun g a => adm (g.map f) (f a)) l).map (List.map f) := by
  apply segment_unique adm
  · rw [← List.map_flatten, segment_flatten]
  · intro g hg
    obtain ⟨g, hmem, rfl⟩ := List.mem_map.mp hg
    exact fun h => segment_ne_nil _ hmem (List.map_eq_nil_iff.mp h)
  · intro g hg pre a post e hpre
    obtain ⟨g, hmem, rfl⟩ := List.mem_map.mp hg
    obtain ⟨pre, rest, rfl, rfl, hrest⟩ := List.map_eq_append_iff.mp e
    obtain ⟨a, post, rfl, rfl, rfl⟩ := List.map_eq_cons_iff.mp hrest
    exact segment_adm _ hmem pre a post rfl fun h => hpre (by rw [h]; rfl)
  · refine (List.isChain_map (List.map f)).mpr ((segment_refuses _ l).imp ?_)
    rintro g next ⟨a, ha, hr⟩
    exact ⟨f a, by rw [List.head?_map, ha]; rfl, hr⟩

end EmbedServer
