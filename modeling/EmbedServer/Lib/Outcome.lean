import Mathlib.Tactic.Common

/-!
# Outcomes with panics, and stateful runs of them

`Outcome ε α` is what a call of fallible Rust code comes back with: a value, an `Err`, or a panic.
`Exec σ ε α` threads a state `σ` through such calls; the state survives an `Err` and a panic, so
what was done before the failure is still visible after it.

* `Outcome.index`, `Outcome.store`   indexing and indexed assignment (a panic out of range);
* `Outcome.foldlM_ok`                a loop whose every round succeeds under an invariant succeeds;
* `Outcome.mapM_ok`                  the same for a `map … collect`;
* `Exec.bind_apply`, `Exec.bind_of_*` how runs compose.
-/

namespace EmbedServer

/-- value, `Err`, or panic of a Rust call -/
inductive Outcome (ε α : Type) where
  | ok (a : α)
  | err (e : ε)
  | panic (msg : String)
deriving DecidableEq, Repr

namespace Outcome
variable {ε ε' α β γ σ : Type}

def bind (x : Outcome ε α) (f : α → Outcome ε β) : Outcome ε β :=
  match x with
  | .ok a => f a
  | .err e => .err e
  | .panic m => .panic m

instance : Monad (Outcome ε) where
  pure := .ok
  bind := bind

/-- `Result::map_err` -/
def mapErr (f : ε → ε') : Outcome ε α → Outcome ε' α
  | .ok a => .ok a
  | .err e => .err (f e)
  | .panic m => .panic m

/-- `?` on a plain `Result` -/
def ofExcept (f : ε' → ε) : Except ε' α → Outcome ε α
  | .ok a => .ok a
  | .error e => .err (f e)

/-- `Option::expect` -/
def expect (msg : String) : Option α → Outcome ε α
  | some a => .ok a
  | none => .panic msg

/-- `xs[i]` -/
def index (l : List α) (i : Nat) : Outcome ε α := expect "index out of bounds" l[i]?

/-- `xs[i] = v` -/
def store (l : List α) (i : Nat) (v : α) : Outcome ε (List α) :=
  if i < l.length then .ok (l.set i v) else .panic "index out of bounds"

/-- `debug_assert!` -/
def debugAssert (c : Prop) [Decidable c] (msg : String) : Outcome ε Unit :=
  if c then .ok () else .panic msg

def isOk : Outcome ε α → Bool
  | .ok _ => true
  | _ => false

@[simp] theorem pure_eq (a : α) : (pure a : Outcome ε α) = .ok a := rfl
@[simp] theorem bind_ok (a : α) (f : α → Outcome ε β) : (Outcome.ok a >>= f) = f a := rfl
@[simp] theorem bind_err (e : ε) (f : α → Outcome ε β) : (Outcome.err e >>= f) = .err e := rfl
@[simp] theorem bind_panic (m : String) (f : α → Outcome ε β) :
    (Outcome.panic m >>= f) = .panic m := rfl

instance : LawfulMonad (Outcome ε) :=
  LawfulMonad.mk' (Outcome ε) (fun x => by cases x <;> rfl) (fun _ _ => rfl)
    (fun x _ _ => by cases x <;> rfl)

theorem bind_eq_ok {x : Outcome ε α} {f : α → Outcome ε β} {b : β} :
    (x >>= f) = .ok b ↔ ∃ a, x = .ok a ∧ f a = .ok b := by
  cases x <;> simp

@[simp] theorem mapErr_ok (f : ε → ε') (a : α) : (Outcome.ok a).mapErr f = .ok a := rfl

@[simp] theorem expect_some (msg : String) (a : α) : (expect msg (some a) : Outcome ε α) = .ok a := rfl

@[simp] theorem debugAssert_pos {c : Prop} [Decidable c] (msg : String) (h : c) :
    (debugAssert c msg : Outcome ε Unit) = .ok () := if_pos h

theorem index_ok {l : List α} {i : Nat} {a : α} (h : l[i]? = some a) :
    (index l i : Outcome ε α) = .ok a := by
  unfold index
  rw [h]
  rfl

theorem store_ok {l : List α} {i : Nat} (v : α) (h : i < l.length) :
    (store l i v : Outcome ε (List α)) = .ok (l.set i v) := if_pos h

/-- a loop whose every round succeeds and extends the invariant from the rounds done so far -/
theorem foldlM_ok {f : σ → α → Outcome ε σ} (I : List α → σ → Prop) (l : List α)
    (hstep : ∀ pre a post s, l = pre ++ a :: post → I pre s → ∃ s', f s a = .ok s' ∧ I (pre ++ [a]) s')
    (s : σ) (h0 : I [] s) : ∃ s', l.foldlM f s = .ok s' ∧ I l s' := by
  suffices H : ∀ post pre s, l = pre ++ post → I pre s → ∃ s', post.foldlM f s = .ok s' ∧ I l s' from
    H l [] s rfl h0
  intro post
  induction post with
  | nil =>
    intro pre s hl hI
    rw [List.append_nil] at hl
    subst hl
    exact ⟨s, rfl, hI⟩
  | cons a post ih =>
    intro pre s hl hI
    obtain ⟨s1, h1, hI1⟩ := hstep pre a post s hl hI
    obtain ⟨s2, h2, hI2⟩ := ih (pre ++ [a]) s1 (by rw [hl]; simp) hI1
    refine ⟨s2, ?_, hI2⟩
    rw [List.foldlM_cons, h1, bind_ok, h2]

/-- two calls fail in the same way -/
inductive SameFailure : Outcome ε α → Outcome ε β → Prop
  | err (e : ε) : SameFailure (.err e) (.err e)
  | panic (m : String) : SameFailure (.panic m) (.panic m)

/-- `c` is what `a` and `b` done in one go come to: related values of both, or the failure of one -/
inductive Joint (P : α → β → γ → Prop) : Outcome ε α → Outcome ε β → Outcome ε γ → Prop
  | ok {x : α} {y : β} {z : γ} (h : P x y z) : Joint P (.ok x) (.ok y) (.ok z)
  | left {a : Outcome ε α} {b : Outcome ε β} {c : Outcome ε γ} (h : SameFailure c a) : Joint P a b c
  | right {a : Outcome ε α} {b : Outcome ε β} {c : Outcome ε γ} (h : SameFailure c b) : Joint P a b c

/-- one value after the other, then both -/
theorem joint_pair (a : Outcome ε α) (b : Outcome ε β) (g : α → β → γ) :
    Joint (fun x y z => z = g x y) a b (a >>= fun x => b >>= fun y => pure (g x y)) := by
  cases a with
  | ok x =>
    cases b with
    | ok y => exact .ok rfl
    | err e => exact .right (.err e)
    | panic m => exact .right (.panic m)
  | err e => exact .left (.err e)
  | panic m => exact .left (.panic m)

theorem SameFailure.bind {a : Outcome ε α} {c : Outcome ε γ} (h : SameFailure c a)
    (f : α → Outcome ε σ) {δ : Type} (g : γ → Outcome ε δ) : SameFailure (c >>= g) (a >>= f) := by
  cases h with
  | err e => exact .err e
  | panic m => exact .panic m

theorem Joint.bind {δ α' β' : Type} {P : α → β → γ → Prop} {Q : α' → β' → δ → Prop} {a : Outcome ε α}
    {b : Outcome ε β} {c : Outcome ε γ} (h : Joint P a b c) {f : α → Outcome ε α'}
    {g : β → Outcome ε β'} {k : γ → Outcome ε δ} (hk : ∀ x y z, P x y z → Joint Q (f x) (g y) (k z)) :
    Joint Q (a >>= f) (b >>= g) (c >>= k) := by
  cases h with
  | ok h => exact hk _ _ _ h
  | left h => exact .left (h.bind f k)
  | right h => exact .right (h.bind g k)

theorem mapM_ok {f : α → Outcome ε β} {g : α → β} {l : List α} (h : ∀ a ∈ l, f a = .ok (g a)) :
    l.mapM f = .ok (l.map g) := by
  induction l with
  | nil => rfl
  | cons a l ih =>
    rw [List.mapM_cons, h a List.mem_cons_self, ih fun b hb => h b (List.mem_cons_of_mem _ hb)]
    rfl

/-- what it returns is what the calls returned -/
theorem getElem?_of_mapM {f : α → Outcome ε β} {l : List α} {bs : List β} (h : l.mapM f = .ok bs) :
    bs.length = l.length ∧ ∀ (i : Nat) (b : β), bs[i]? = some b → ∃ a, l[i]? = some a ∧ f a = .ok b := by
  induction l generalizing bs with
  | nil =>
    cases h
    exact ⟨rfl, fun i b hb => by cases hb⟩
  | cons a l ih =>
    simp only [List.mapM_cons, bind_eq_ok, pure_eq] at h
    obtain ⟨b, hb, cs, hcs, h⟩ := h
    cases h
    obtain ⟨hlen, hget⟩ := ih hcs
    refine ⟨by rw [List.length_cons, List.length_cons, hlen], ?_⟩
    intro i c hc
    cases i with
    | zero =>
      cases hc
      exact ⟨a, rfl, hb⟩
    | succ i => exact hget i c hc

/-- `expect` on every slot, when no slot is empty -/
theorem mapM_expect (msg : String) {slots : List (Option α)}
    (h : ∀ i < slots.length, ∃ v, slots[i]? = some (some v)) :
    ∃ vs : List α, slots.mapM (expect msg) = (.ok vs : Outcome ε (List α)) ∧ slots = vs.map some := by
  induction slots with
  | nil => exact ⟨[], rfl, rfl⟩
  | cons s slots ih =>
    obtain ⟨v, hv⟩ := h 0 (by simp)
    obtain ⟨vs, h1, h2⟩ := ih fun i hi => h (i + 1) (by simpa using hi)
    rw [List.getElem?_cons_zero, Option.some.injEq] at hv
    subst hv
    refine ⟨v :: vs, ?_, by rw [h2]; rfl⟩
    rw [List.mapM_cons, expect_some, bind_ok, h1]
    rfl

/-! ### values of a loop -/

theorem foldlM_invariant {I : σ → Prop} {f : σ → α → Outcome ε σ}
    (hf : ∀ s a t, I s → f s a = .ok t → I t) {l : List α} {s t : σ} (h : l.foldlM f s = .ok t) (hs : I s) :
    I t := by
  induction l generalizing s with
  | nil =>
    rw [List.foldlM_nil] at h
    cases h
    exact hs
  | cons a l ih =>
    rw [List.foldlM_cons] at h
    cases hx : f s a with
    | ok u =>
      rw [hx] at h
      exact ih h (hf s a u hs hx)
    | err e => rw [hx] at h; cases h
    | panic m => rw [hx] at h; cases h

theorem length_store {l l' : List α} {i : Nat} {v : α} (h : (store l i v : Outcome ε (List α)) = .ok l') :
    l'.length = l.length := by
  unfold store at h
  split at h
  · cases h
    exact List.length_set
  · cases h

/-! ### which errors a call can return -/

/-- every error of the call satisfies `P` -/
def ErrIn (P : ε → Prop) (x : Outcome ε α) : Prop := ∀ e, x = .err e → P e

section
variable {P : ε → Prop}

theorem errIn_ok (a : α) : ErrIn P (.ok a : Outcome ε α) := fun _ h => by cases h
theorem errIn_panic (m : String) : ErrIn P (.panic m : Outcome ε α) := fun _ h => by cases h

theorem errIn_err {e : ε} (h : P e) : ErrIn P (.err e : Outcome ε α) := by
  intro e' he
  cases he
  exact h

theorem ErrIn.bind {x : Outcome ε α} {f : α → Outcome ε β} (hx : ErrIn P x) (hf : ∀ a, ErrIn P (f a)) :
    ErrIn P (x >>= f) := by
  cases x with
  | ok a => exact hf a
  | err e => exact errIn_err (hx e rfl)
  | panic m => exact errIn_panic m

theorem errIn_foldlM {f : σ → α → Outcome ε σ} (hf : ∀ s a, ErrIn P (f s a)) (l : List α) (s : σ) :
    ErrIn P (l.foldlM f s) := by
  induction l generalizing s with
  | nil => exact errIn_ok s
  | cons a l ih =>
    rw [List.foldlM_cons]
    exact (hf s a).bind ih

theorem errIn_mapM {f : α → Outcome ε β} (hf : ∀ a, ErrIn P (f a)) (l : List α) :
    ErrIn P (l.mapM f) := by
  induction l with
  | nil => exact errIn_ok []
  | cons a l ih =>
    rw [List.mapM_cons]
    exact (hf a).bind fun _ => ih.bind fun _ => errIn_ok _

theorem errIn_expect (msg : String) (o : Option α) : ErrIn P (expect msg o) := by
  cases o with
  | none => exact errIn_panic msg
  | some a => exact errIn_ok a

theorem errIn_index (l : List α) (i : Nat) : ErrIn P (index l i) := errIn_expect _ _

theorem errIn_store (l : List α) (i : Nat) (v : α) : ErrIn P (store l i v) := by
  unfold store
  split
  · exact errIn_ok _
  · exact errIn_panic _

theorem errIn_debugAssert (c : Prop) [Decidable c] (msg : String) : ErrIn P (debugAssert c msg) := by
  unfold debugAssert
  split
  · exact errIn_ok _
  · exact errIn_panic _

end
end Outcome

/-! ## stateful runs -/

/-- a run that reads and updates a state, also when it fails -/
def Exec (σ ε α : Type) : Type := σ → Outcome ε α × σ

namespace Exec
variable {σ ε α β γ : Type}

def bind (x : Exec σ ε α) (f : α → Exec σ ε β) : Exec σ ε β := fun s =>
  match x s with
  | (.ok a, s') => f a s'
  | (.err e, s') => (.err e, s')
  | (.panic m, s') => (.panic m, s')

instance : Monad (Exec σ ε) where
  pure a := fun s => (.ok a, s)
  bind := bind

/-- code that does not touch the state -/
def lift (x : Outcome ε α) : Exec σ ε α := fun s => (x, s)

@[simp] theorem pure_apply (a : α) (s : σ) : (pure a : Exec σ ε α) s = (.ok a, s) := rfl
@[simp] theorem lift_apply (x : Outcome ε α) (s : σ) : lift x s = (x, s) := rfl

theorem bind_apply (x : Exec σ ε α) (f : α → Exec σ ε β) (s : σ) :
    (x >>= f) s = match x s with
      | (.ok a, s') => f a s'
      | (.err e, s') => (.err e, s')
      | (.panic m, s') => (.panic m, s') := rfl

instance : LawfulMonad (Exec σ ε) :=
  LawfulMonad.mk' (Exec σ ε)
    (fun x => funext fun s => by
      show (x >>= pure) s = x s
      rw [bind_apply]
      split <;> simp_all)
    (fun _ _ => rfl)
    (fun x f g => funext fun s => by
      simp only [bind_apply]
      rcases x s with ⟨_ | _ | _, s'⟩ <;> rfl)

theorem lift_bind (x : Outcome ε α) (f : α → Outcome ε β) :
    (lift (x >>= f) : Exec σ ε β) = lift x >>= fun a => lift (f a) := by
  funext s
  cases x <;> rfl

theorem bind_of_ok {x : Exec σ ε α} {s s' : σ} {a : α} (f : α → Exec σ ε β)
    (h : x s = (.ok a, s')) : (x >>= f) s = f a s' := by
  rw [bind_apply, h]

/-- a run that returns went through its first part -/
theorem bind_eq_ok {x : Exec σ ε α} {f : α → Exec σ ε β} {s t : σ} {b : β}
    (h : (x >>= f) s = (.ok b, t)) : ∃ a s', x s = (.ok a, s') ∧ f a s' = (.ok b, t) := by
  obtain ⟨r, s', hr⟩ : ∃ r s', x s = (r, s') := ⟨_, _, rfl⟩
  rw [bind_apply, hr] at h
  cases r with
  | ok a => exact ⟨a, s', hr, h⟩
  | err e => cases h
  | panic m => cases h

theorem lift_bind_eq_ok {x : Outcome ε α} {f : α → Exec σ ε β} {s t : σ} {b : β}
    (h : (lift x >>= f) s = (.ok b, t)) : ∃ a, x = .ok a ∧ f a s = (.ok b, t) := by
  obtain ⟨a, s', hx, hf⟩ := bind_eq_ok h
  cases hx
  exact ⟨a, rfl, hf⟩

theorem bind_of_err {x : Exec σ ε α} {s s' : σ} {e : ε} (f : α → Exec σ ε β)
    (h : x s = (.err e, s')) : (x >>= f) s = (.err e, s') := by
  rw [bind_apply, h]

theorem bind_of_panic {x : Exec σ ε α} {s s' : σ} {m : String} (f : α → Exec σ ε β)
    (h : x s = (.panic m, s')) : (x >>= f) s = (.panic m, s') := by
  rw [bind_apply, h]

@[simp] theorem lift_ok_bind (a : α) (f : α → Exec σ ε β) :
    ((lift (.ok a) : Exec σ ε α) >>= f) = f a := rfl

@[simp] theorem lift_err_bind (e : ε) (f : α → Exec σ ε β) :
    ((lift (.err e) : Exec σ ε α) >>= f) = lift (.err e) := rfl

/-- every error of the run satisfies `P`, from any state -/
def ErrIn (P : ε → Prop) (x : Exec σ ε α) : Prop := ∀ s e s', x s = (.err e, s') → P e

theorem errIn_pure {P : ε → Prop} (a : α) : ErrIn P (pure a : Exec σ ε α) := by
  intro s e s' h
  cases h

theorem errIn_lift {P : ε → Prop} {x : Outcome ε α} (h : x.ErrIn P) : ErrIn P (lift x : Exec σ ε α) := by
  intro s e s' he
  exact h e (congrArg Prod.fst he)

theorem ErrIn.bind {P : ε → Prop} {x : Exec σ ε α} {f : α → Exec σ ε β} (hx : ErrIn P x)
    (hf : ∀ a, ErrIn P (f a)) : ErrIn P (x >>= f) := by
  intro s e s' h
  obtain ⟨r, t, hr⟩ : ∃ r t, x s = (r, t) := ⟨_, _, rfl⟩
  rw [bind_apply, hr] at h
  cases r with
  | ok a => exact hf a t e s' h
  | err e' =>
    cases h
    exact hx s e s' hr
  | panic m => cases h

theorem errIn_lift_bind {P : ε → Prop} {x : Outcome ε α} {f : α → Exec σ ε β} (hx : x.ErrIn P)
    (hf : ∀ a, x = .ok a → ErrIn P (f a)) : ErrIn P (lift x >>= f) := by
  cases x with
  | ok a => exact hf a rfl
  | err e => exact errIn_lift (Outcome.errIn_err (hx e rfl))
  | panic m => exact errIn_lift (Outcome.errIn_panic m)

theorem errIn_foldlM {τ : Type} {P : ε → Prop} {f : τ → α → Exec σ ε τ} (hf : ∀ t a, ErrIn P (f t a))
    (l : List α) (t : τ) : ErrIn P (l.foldlM f t) := by
  induction l generalizing t with
  | nil => exact errIn_pure t
  | cons a l ih =>
    rw [List.foldlM_cons]
    exact (hf t a).bind ih

/-- every value the run returns satisfies `P`, from any state -/
def OkIn (P : α → Prop) (x : Exec σ ε α) : Prop := ∀ s a s', x s = (.ok a, s') → P a

theorem okIn_pure {P : α → Prop} {a : α} (h : P a) : OkIn P (pure a : Exec σ ε α) := by
  intro s b s' he
  cases he
  exact h

theorem OkIn.bind {P : α → Prop} {Q : β → Prop} {x : Exec σ ε α} {f : α → Exec σ ε β} (hx : OkIn P x)
    (hf : ∀ a, P a → OkIn Q (f a)) : OkIn Q (x >>= f) := by
  intro s b s' h
  obtain ⟨a, t, ha, hb⟩ := bind_eq_ok h
  exact hf a (hx s a t ha) t b s' hb

/-- a part of a run that nothing is asked of -/
theorem okIn_after {Q : β → Prop} {x : Exec σ ε α} {f : α → Exec σ ε β} (hf : ∀ a, OkIn Q (f a)) :
    OkIn Q (x >>= f) := OkIn.bind (P := fun _ => True) (fun _ _ _ _ => trivial) fun a _ => hf a

theorem okIn_lift {P : α → Prop} {x : Outcome ε α} (h : ∀ a, x = .ok a → P a) :
    OkIn P (lift x : Exec σ ε α) := by
  intro s a s' he
  exact h a (congrArg Prod.fst he)

theorem okIn_foldlM {τ : Type} {I : τ → Prop} {f : τ → α → Exec σ ε τ} (hf : ∀ t a, I t → OkIn I (f t a))
    (l : List α) {t : τ} (h : I t) : OkIn I (l.foldlM f t) := by
  induction l generalizing t with
  | nil => exact okIn_pure h
  | cons a l ih =>
    rw [List.foldlM_cons]
    exact (hf t a h).bind fun u hu => ih hu

@[simp] theorem lift_panic_bind (m : String) (f : α → Exec σ ε β) :
    ((lift (.panic m) : Exec σ ε α) >>= f) = lift (.panic m) := rfl

end Exec
end EmbedServer
