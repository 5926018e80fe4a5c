import EmbedServer.Lib.Outcome

/-!
# Calls that append to a log

The state of a call is a list of events, and the call may only add to it.  What an event means can
depend on the events before it, so a property of events is a predicate on (events before, event).

* `Along P h l`       every event of `l`, appended after `h`, satisfies `P`;
* `collect f h l`     the values `f` reads off these events;
* `Exec.Logs P x`     `x` only appends, and if it returns, all it appended satisfies `P`.
-/

namespace EmbedServer

section
variable {τ β : Type}

/-- each event of the list satisfies `P` after the events before it -/
def Along (P : List τ → τ → Prop) : List τ → List τ → Prop
  | _, [] => True
  | h, a :: l => P h a ∧ Along P (h ++ [a]) l

theorem along_append {P : List τ → τ → Prop} {h l l' : List τ} :
    Along P h (l ++ l') ↔ Along P h l ∧ Along P (h ++ l) l' := by
  induction l generalizing h with
  | nil => simp [Along]
  | cons a l ih => simp [Along, ih, and_assoc]

/-- values read off the events of the list -/
def collect (f : List τ → τ → Option β) : List τ → List τ → List β
  | _, [] => []
  | h, a :: l => (f h a).toList ++ collect f (h ++ [a]) l

@[simp] theorem collect_nil (f : List τ → τ → Option β) (h : List τ) : collect f h [] = [] := rfl

theorem collect_append (f : List τ → τ → Option β) (h l l' : List τ) :
    collect f h (l ++ l') = collect f h l ++ collect f (h ++ l) l' := by
  induction l generalizing h with
  | nil => simp
  | cons a l ih => simp [collect, ih]

/-- events that all satisfy `P` all give their value -/
theorem collect_eq_map {P : List τ → τ → Prop} {f : List τ → τ → Option β} {g : τ → β}
    (hf : ∀ h a, P h a → f h a = some (g a)) {h l : List τ} (hl : Along P h l) :
    collect f h l = l.map g := by
  induction l generalizing h with
  | nil => rfl
  | cons a l ih =>
    rw [collect, hf h a hl.1, ih hl.2]
    rfl

end

namespace Exec
variable {τ ε α β γ : Type}

/-- the call only appends; if it returns, what it appended satisfies `P` -/
def Logs (P : List τ → τ → Prop) (x : Exec (List τ) ε α) : Prop :=
  ∀ h r h', x h = (r, h') → ∃ l, h' = h ++ l ∧ (r.isOk = true → Along P h l)

section
variable {P : List τ → τ → Prop}

theorem logs_pure (a : α) : Logs P (pure a : Exec (List τ) ε α) := by
  intro h r h' hx
  cases hx
  exact ⟨[], by simp, fun _ => trivial⟩

theorem logs_lift (x : Outcome ε α) : Logs P (lift x : Exec (List τ) ε α) := by
  intro h r h' hx
  cases hx
  exact ⟨[], by simp, fun _ => trivial⟩

theorem Logs.bind {x : Exec (List τ) ε α} {f : α → Exec (List τ) ε β} (hx : Logs P x)
    (hf : ∀ a, Logs P (f a)) : Logs P (x >>= f) := by
  intro h r h' hr
  obtain ⟨r1, h1, h1eq⟩ : ∃ r1 h1, x h = (r1, h1) := ⟨_, _, rfl⟩
  obtain ⟨l1, hl1, hok1⟩ := hx h r1 h1 h1eq
  rw [bind_apply, h1eq] at hr
  cases r1 with
  | ok a =>
    obtain ⟨l2, rfl, hok2⟩ := hf a h1 r h' hr
    refine ⟨l1 ++ l2, by rw [hl1, List.append_assoc], fun hok => ?_⟩
    rw [along_append]
    exact ⟨hok1 rfl, by rw [← hl1]; exact hok2 hok⟩
  | err e =>
    cases hr
    exact ⟨l1, hl1, fun hok => by cases hok⟩
  | panic msg =>
    cases hr
    exact ⟨l1, hl1, fun hok => by cases hok⟩

theorem logs_foldlM {f : β → γ → Exec (List τ) ε β} (hf : ∀ b c, Logs P (f b c)) (cs : List γ) (b : β) :
    Logs P (cs.foldlM f b) := by
  induction cs generalizing b with
  | nil => exact logs_pure b
  | cons c cs ih =>
    rw [List.foldlM_cons]
    exact (hf b c).bind ih

end
end Exec
end EmbedServer
