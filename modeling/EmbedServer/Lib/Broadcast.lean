import Mathlib.Data.List.Basic

/-!
# A broadcast channel that overwrites

The channel keeps the last `capacity` of what was sent; every receiver has a position of its own.  One
that has fallen further behind is told by how much, and goes on with the oldest that is kept.

* `Receiver.tryRecv`   one attempt to receive;
* `Receiver.Sound`     what was received and what was missed are the messages passed, each once and in
                       order, and only overwritten ones are missed;
* `Sound.send`, `Sound.tryRecv`   it survives both operations.
-/

namespace EmbedServer

/-- `start` is where it subscribed, `heard` the positions received, `missed` the sum of the lags -/
structure Receiver where
  start : Nat
  next : Nat
  heard : List Nat
  missed : Nat
deriving DecidableEq, Repr

inductive TryRecv (β : Type) where
  | received (x : β)
  | lagged (n : Nat)
  | empty
deriving DecidableEq, Repr

namespace Receiver

section
variable {β : Type} (capacity : Nat) (sent : List β) (r : Receiver)

def subscribe : Receiver := ⟨sent.length, sent.length, [], 0⟩

def tryRecv : TryRecv β × Receiver :=
  let oldest := sent.length - capacity
  if r.next < oldest then
    (.lagged (oldest - r.next), { r with next := oldest, missed := r.missed + (oldest - r.next) })
  else
    match sent[r.next]? with
    | some x => (.received x, { r with next := r.next + 1, heard := r.heard ++ [r.next] })
    | none => (.empty, r)

structure Sound : Prop where
  started : r.start ≤ r.next
  bounded : r.next ≤ sent.length
  ordered : r.heard.Pairwise (· < ·)
  range : ∀ j ∈ r.heard, r.start ≤ j ∧ j < r.next
  counted : r.heard.length + r.missed = r.next - r.start
  overwritten : ∀ j, r.start ≤ j → j < r.next → j ∉ r.heard → j + capacity < sent.length

variable {capacity sent r}

theorem sound_subscribe : Sound capacity sent (subscribe sent) where
  started := Nat.le_refl _
  bounded := Nat.le_refl _
  ordered := .nil
  range := fun _ h => absurd h List.not_mem_nil
  counted := (Nat.sub_self _).symm
  overwritten := fun _ h h' => absurd h' (Nat.not_lt.mpr h)

theorem Sound.send (h : Sound capacity sent r) (more : List β) : Sound capacity (sent ++ more) r := by
  have hlen : sent.length ≤ (sent ++ more).length := by
    rw [List.length_append]
    exact Nat.le_add_right _ _
  exact {
    h with
    bounded := Nat.le_trans h.bounded hlen
    overwritten := fun j hj hlt hno => Nat.lt_of_lt_of_le (h.overwritten j hj hlt hno) hlen }

/-- what one attempt comes back with -/
inductive Attempt (capacity : Nat) (sent : List β) (r : Receiver) : TryRecv β × Receiver → Prop
  | received {x} (hx : sent[r.next]? = some x) :
      Attempt capacity sent r (.received x, { r with next := r.next + 1, heard := r.heard ++ [r.next] })
  | lagged (hlt : r.next < sent.length - capacity) :
      Attempt capacity sent r (.lagged (sent.length - capacity - r.next), { r with
        next := sent.length - capacity, missed := r.missed + (sent.length - capacity - r.next) })
  | empty (hle : sent.length ≤ r.next) : Attempt capacity sent r (.empty, r)

variable (capacity sent r) in
theorem tryRecv_cases : Attempt capacity sent r (tryRecv capacity sent r) := by
  unfold tryRecv
  dsimp only
  split
  · rename_i hlt
    exact .lagged hlt
  · split
    · rename_i x hx
      exact .received hx
    · rename_i hx
      exact .empty (List.getElem?_eq_none_iff.mp hx)

theorem Sound.tryRecv (h : Sound capacity sent r) : Sound capacity sent (r.tryRecv capacity sent).2 := by
  have hc := tryRecv_cases capacity sent r
  have hstarted := h.started
  have hcounted := h.counted
  generalize r.tryRecv capacity sent = res at hc
  cases hc with
  | received hx =>
    have hlt : r.next < sent.length := (List.getElem?_eq_some_iff.mp hx).1
    refine ⟨by dsimp only; omega, hlt, ?_, fun j hj => ?_, ?_, fun j hj hlt hno => ?_⟩
    · refine List.pairwise_append.mpr ⟨h.ordered, List.pairwise_singleton _ _, fun j hj k hk => ?_⟩
      rw [List.mem_singleton.mp hk]
      exact (h.range j hj).2
    · rcases List.mem_append.mp hj with hj | hj
      · have hr := h.range j hj
        exact ⟨hr.1, Nat.lt_succ_of_lt hr.2⟩
      · rw [List.mem_singleton.mp hj]
        exact ⟨hstarted, Nat.lt_succ_self _⟩
    · rw [List.length_append, List.length_singleton]
      dsimp only
      omega
    · rw [List.mem_append, not_or, List.mem_singleton] at hno
      dsimp only at hlt
      exact h.overwritten j hj (by omega) hno.1
  | lagged hlt =>
    refine ⟨by dsimp only; omega, by dsimp only; omega, h.ordered, fun j hj => ?_, by dsimp only; omega,
      fun j hj hjlt hno => ?_⟩
    · have hr := h.range j hj
      exact ⟨hr.1, by dsimp only; omega⟩
    · dsimp only at hjlt
      omega
  | empty hle => exact h

/-- a drain is over when nothing is left -/
theorem Sound.empty (h : Sound capacity sent r) {r' : Receiver} (he : r.tryRecv capacity sent = (.empty, r')) :
    r' = r ∧ r.next = sent.length := by
  have hc := tryRecv_cases capacity sent r
  rw [he] at hc
  cases hc with
  | empty hle => exact ⟨rfl, Nat.le_antisymm h.bounded hle⟩

end
end Receiver
end EmbedServer
