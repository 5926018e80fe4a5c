import Mathlib.Tactic.Common

/-!
# Runs of a step function

A system is a function `step : σ → α → Option σ`, `none` where the action is not enabled.

* `Reach step C s t`   a run from `s` to `t`, every step of which meets the side condition `C`;
* `Reach.invariant`    what holds at the start and is kept by every such step holds in every state
                       reached;
* `Reach.project`      a run of a system is a run of its parts;
* `Reach.origin`       what a history says was written to it on the way;
* `Reach.exists_of_run` a concrete list of actions that goes through is a run;
* `Inevitable step C P s` every run from `s` that goes on as long as it can comes to `P`;
* `Inevitable.of_measure` a measure that every step lowers, and no dead end before `P`;
* `length_le_of_measure` such a measure bounds the length of a run.
-/

namespace EmbedServer

section
variable {σ α : Type} (step : σ → α → Option σ) (C : σ → α → Prop)

/-- states reached from `s` by enabled actions that meet `C` -/
inductive Reach (s : σ) : σ → Prop
  | refl : Reach s s
  | tail {t u : σ} {a : α} (h : Reach s t) (hc : C t a) (hs : step t a = some u) : Reach s u

variable {step C}

/-- invariant rule -/
theorem Reach.invariant {I : σ → Prop} {s t : σ} (h : Reach step C s t) (h0 : I s)
    (hstep : ∀ t a u, I t → C t a → step t a = some u → I u) : I t := by
  induction h with
  | refl => exact h0
  | tail _ hc hs ih => exact hstep _ _ _ ih hc hs

theorem Reach.single {s t : σ} {a : α} (hc : C s a) (hs : step s a = some t) : Reach step C s t :=
  .tail .refl hc hs

theorem Reach.trans {s t u : σ} (h : Reach step C s t) (h' : Reach step C t u) : Reach step C s u := by
  induction h' with
  | refl => exact h
  | tail _ hc hs ih => exact .tail ih hc hs

/-- a weaker side condition has more runs -/
theorem Reach.mono {D : σ → α → Prop} {s t : σ} (h : Reach step C s t) (hcd : ∀ s a, C s a → D s a) :
    Reach step D s t := by
  induction h with
  | refl => exact .refl
  | tail _ hc hs ih => exact .tail ih (hcd _ _ hc) hs

/-- a part of the state, whose own runs these are -/
theorem Reach.project {τ β : Type} {step' : τ → β → Option τ} {D : τ → β → Prop} {f : σ → τ} {s t : σ}
    (h : Reach step C s t)
    (hstep : ∀ t a u, C t a → step t a = some u → Reach step' D (f t) (f u)) : Reach step' D (f s) (f t) := by
  induction h with
  | refl => exact .refl
  | tail _ hc hs ih => exact ih.trans (hstep _ _ _ hc hs)

/-- a history: what it holds at the end, it held at the start or a state on the way has written -/
theorem Reach.origin {β : Type} {L : σ → List β} {W : σ → β → Prop} {s t : σ} (h : Reach step C s t)
    (hstep : ∀ t a u, step t a = some u → ∀ x ∈ L u, x ∈ L t ∨ W t x) {x : β} (hx : x ∈ L t) :
    x ∈ L s ∨ ∃ v, Reach step C s v ∧ Reach step C v t ∧ W v x := by
  induction h with
  | refl => exact .inl hx
  | @tail t u a h hc hs ih =>
    rcases hstep _ _ _ hs x hx with hold | hnew
    · rcases ih hold with h0 | ⟨v, hv, hvt, hw⟩
      · exact .inl h0
      · exact .inr ⟨v, hv, .tail hvt hc hs, hw⟩
    · exact .inr ⟨t, h, .single hc hs, hnew⟩

/-- any run, without a side condition -/
abbrev Reachable (step : σ → α → Option σ) : σ → σ → Prop := Reach step fun _ _ => True

/-- one action more in front of a list that goes through -/
theorem foldlM_cons_of {s t u : σ} {a : α} {as : List α} (hs : step s a = some t)
    (h : as.foldlM step t = some u) : (a :: as).foldlM step s = some u := by
  rw [List.foldlM_cons, hs]
  exact h

theorem Reach.of_foldlM {s t : σ} {as : List α} (hC : ∀ s, ∀ a ∈ as, C s a)
    (h : as.foldlM step s = some t) : Reach step C s t := by
  induction as generalizing s with
  | nil =>
    rw [List.foldlM_nil] at h
    cases h
    exact .refl
  | cons a as ih =>
    rw [List.foldlM_cons] at h
    cases hs : step s a with
    | none => rw [hs] at h; cases h
    | some u =>
      rw [hs] at h
      have h1 := ih (fun s a ha => hC s a (List.mem_cons_of_mem _ ha)) h
      exact (Reach.single (hC s a List.mem_cons_self) hs).trans h1

/-- a list of actions that goes through and ends in `P` -/
theorem Reach.exists_of_run {P : σ → Prop} [DecidablePred P] {s : σ} (as : List α)
    (hC : ∀ s, ∀ a ∈ as, C s a) (h : (as.foldlM step s).any (fun t => decide (P t)) = true) :
    ∃ t, Reach step C s t ∧ P t := by
  cases ht : as.foldlM step s with
  | none => rw [ht] at h; cases h
  | some t =>
    rw [ht] at h
    exact ⟨t, .of_foldlM hC ht, of_decide_eq_true h⟩

/-- no run that meets `C` can avoid `P`, nor end before it -/
inductive Inevitable (step : σ → α → Option σ) (C : σ → α → Prop) (P : σ → Prop) : σ → Prop
  | now {s : σ} (h : P s) : Inevitable step C P s
  | later {s : σ} (hex : ∃ a t, C s a ∧ step s a = some t)
      (hall : ∀ a t, C s a → step s a = some t → Inevitable step C P t) : Inevitable step C P s

theorem Inevitable.of_measure {I P : σ → Prop} (μ : σ → Nat)
    (hI : ∀ s a t, I s → C s a → step s a = some t → I t)
    (hex : ∀ s, I s → ¬P s → ∃ a t, C s a ∧ step s a = some t)
    (hlt : ∀ s a t, I s → ¬P s → C s a → step s a = some t → μ t < μ s) {s : σ} (h : I s) :
    Inevitable step C P s := by
  induction hm : μ s using Nat.strongRecOn generalizing s with
  | ind m ih =>
    by_cases hP : P s
    · exact .now hP
    · refine .later (hex s h hP) fun a t hc hs => ?_
      have hdec := hlt s a t h hP hc hs
      rw [hm] at hdec
      exact ih (μ t) hdec (hI s a t h hc hs) rfl

theorem length_le_of_measure {I : σ → Prop} (μ : σ → Nat)
    (hI : ∀ s a t, I s → C s a → step s a = some t → I t)
    (hlt : ∀ s a t, I s → C s a → step s a = some t → μ t < μ s) {s t : σ} {as : List α} (h : I s)
    (hC : ∀ s, ∀ a ∈ as, C s a) (hrun : as.foldlM step s = some t) : as.length + μ t ≤ μ s := by
  induction as generalizing s with
  | nil =>
    rw [List.foldlM_nil] at hrun
    cases hrun
    exact Nat.le_of_eq (Nat.zero_add _)
  | cons a as ih =>
    rw [List.foldlM_cons] at hrun
    cases hs : step s a with
    | none => rw [hs] at hrun; cases hrun
    | some u =>
      rw [hs] at hrun
      have ha := hC s a List.mem_cons_self
      have hrest := ih (hI s a u h ha hs) (fun s b hb => hC s b (List.mem_cons_of_mem _ hb)) hrun
      have hfirst := hlt s a u h ha hs
      rw [List.length_cons]
      omega

end
end EmbedServer
