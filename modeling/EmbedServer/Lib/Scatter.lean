import EmbedServer.Lib.Outcome

/-!
# Scattering computed values into indexed slots

`scatter f slots ps` computes `f p` for every pair `p` of the list, in order, and stores the value at
slot `p.1`.

* `scatter_ok`     every value computes, indices in range and distinct: the call returns, each slot
                   named in the list holds its value, and no other slot is touched.
-/

namespace EmbedServer

section
variable {ε β : Type}

def scatter (f : Nat × Nat → Outcome ε β) (slots : List β) (ps : List (Nat × Nat)) :
    Outcome ε (List β) :=
  ps.foldlM (fun slots p => do
    let v ← f p
    Outcome.store slots p.1 v) slots

theorem scatter_cons (f : Nat × Nat → Outcome ε β) (slots : List β) (p : Nat × Nat)
    (ps : List (Nat × Nat)) {v : β} (hv : f p = .ok v) (hp : p.1 < slots.length) :
    scatter f slots (p :: ps) = scatter f (slots.set p.1 v) ps := by
  show ((f p >>= _) >>= _) = _
  rw [hv, Outcome.bind_ok, Outcome.store_ok v hp, Outcome.bind_ok]
  rfl

theorem scatter_ok {f : Nat × Nat → Outcome ε β} {ps : List (Nat × Nat)} {slots : List β}
    (hlt : ∀ p ∈ ps, p.1 < slots.length) (hnd : (ps.map Prod.fst).Nodup)
    (hf : ∀ p ∈ ps, ∃ v, f p = .ok v) :
    ∃ slots', scatter f slots ps = .ok slots' ∧ slots'.length = slots.length ∧
      (∀ i, i ∉ ps.map Prod.fst → slots'[i]? = slots[i]?) ∧
      (∀ p ∈ ps, ∀ v, f p = .ok v → slots'[p.1]? = some v) := by
  induction ps generalizing slots with
  | nil => exact ⟨slots, rfl, rfl, fun _ _ => rfl, by simp⟩
  | cons p ps ih =>
    obtain ⟨v, hv⟩ := hf p List.mem_cons_self
    have hp := hlt p List.mem_cons_self
    have hnd' := List.nodup_cons.mp hnd
    obtain ⟨out, h1, h2, h3, h4⟩ := @ih (slots.set p.1 v)
      (fun q hq => by rw [List.length_set]; exact hlt q (List.mem_cons_of_mem _ hq)) hnd'.2
      (fun q hq => hf q (List.mem_cons_of_mem _ hq))
    refine ⟨out, by rw [scatter_cons f slots p ps hv hp]; exact h1, by rw [h2, List.length_set], ?_, ?_⟩
    · intro i hi
      rw [List.map_cons, List.mem_cons, not_or] at hi
      rw [h3 i hi.2, List.getElem?_set_ne (Ne.symm hi.1)]
    · intro q hq w hw
      rcases List.mem_cons.mp hq with rfl | hq
      -- the slot just written is not named again
      · rw [hv] at hw
        cases hw
        rw [h3 q.1 hnd'.1, List.getElem?_set_self hp]
      · exact h4 q hq w hw

theorem errIn_scatter {P : ε → Prop} {f : Nat × Nat → Outcome ε β} (hf : ∀ p, (f p).ErrIn P)
    (slots : List β) (ps : List (Nat × Nat)) : (scatter f slots ps).ErrIn P :=
  Outcome.errIn_foldlM (fun s p => (hf p).bind fun v => Outcome.errIn_store s p.1 v) ps slots

theorem set_zipWith {α γ δ : Type} (g : α → γ → δ) (l : List α) (r : List γ) (i : Nat) (a : α) (b : γ) :
    (List.zipWith g l r).set i (g a b) = List.zipWith g (l.set i a) (r.set i b) := by
  induction l generalizing r i with
  | nil => simp
  | cons x l ih =>
    cases r with
    | nil => simp
    | cons y r =>
      cases i with
      | zero => rfl
      | succ i =>
        rw [List.zipWith_cons_cons, List.set_cons_succ, ih]
        rfl

/-- slots that hold, pair by pair, what two other slot lists hold -/
def Zipped {α γ δ : Type} (g : α → γ → δ) (l : List α) (r : List γ) (lr : List δ) : Prop :=
  l.length = r.length ∧ lr = List.zipWith g l r

/-- two scatters along the same pairs, done in one go -/
theorem scatter_joint {α γ δ : Type} {g : α → γ → δ} {f1 : Nat × Nat → Outcome ε α}
    {f2 : Nat × Nat → Outcome ε γ} {f3 : Nat × Nat → Outcome ε δ} {ps : List (Nat × Nat)}
    (hf : ∀ p ∈ ps, f3 p = f1 p >>= fun x => f2 p >>= fun y => pure (g x y)) {l : List α} {r : List γ}
    {lr : List δ} (h : Zipped g l r lr) :
    Outcome.Joint (Zipped g) (scatter f1 l ps) (scatter f2 r ps) (scatter f3 lr ps) := by
  induction ps generalizing l r lr with
  | nil => exact .ok h
  | cons p ps ih =>
    unfold scatter
    rw [List.foldlM_cons, List.foldlM_cons, List.foldlM_cons, hf p List.mem_cons_self, bind_assoc,
      bind_assoc, bind_assoc]
    refine (Outcome.joint_pair (f1 p) (f2 p) g).bind ?_
    rintro x y _ rfl
    obtain ⟨hlen, rfl⟩ := h
    by_cases hp : p.1 < l.length
    · have h3 : p.1 < (List.zipWith g l r).length := by simp [← hlen, hp]
      rw [Outcome.store_ok x hp, Outcome.store_ok y (hlen ▸ hp), Outcome.store_ok (g x y) h3]
      exact ih (fun q hq => hf q (List.mem_cons_of_mem _ hq))
        ⟨by simp [hlen], set_zipWith g l r p.1 x y⟩
    · have h3 : ¬ p.1 < (List.zipWith g l r).length := by simp [← hlen, hp]
      rw [Outcome.store, Outcome.store, Outcome.store, if_neg hp, if_neg h3]
      exact .left (.panic _)

end
end EmbedServer
