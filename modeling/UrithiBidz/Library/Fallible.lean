import Mathlib.Tactic.Common

/-!
# Computations that stop at a failed check

A procedure that checks its arguments one after the other and then produces its
result is a chain of `Except` computations. The lemmas here say when such a chain
*succeeds*: a bind does when both halves do, a check does when its condition holds,
an unwrapping does when there is something to unwrap. With them as simp lemmas,
asking what a procedure did when it returned is asking which of its conditions held.
-/

namespace Except

variable {ε α β : Type}

theorem bind_eq_ok_iff {x : Except ε α} {f : α → Except ε β} {b : β} :
    x >>= f = .ok b ↔ ∃ a, x = .ok a ∧ f a = .ok b := by
  constructor
  · intro h
    cases x with
    | error e => cases h
    | ok a => exact ⟨a, rfl, h⟩
  · rintro ⟨a, rfl, h⟩
    exact h

theorem pure_eq_ok_iff {a b : α} : (pure a : Except ε α) = .ok b ↔ a = b :=
  ⟨fun h => Except.ok.inj h, fun h => h ▸ rfl⟩

end Except

variable {α : Type}

/-- Go on if the condition holds, stop with the message otherwise. -/
def ensure (p : Prop) [Decidable p] (message : String) : Except String Unit :=
  if p then .ok () else .error message

/-- The value of an option, or stop with the message. -/
def unwrapOr (message : String) : Option α → Except String α
  | some a => .ok a
  | none => .error message

theorem ensure_eq_ok_iff {p : Prop} [Decidable p] {message : String} {u : Unit} :
    ensure p message = .ok u ↔ p := by
  unfold ensure
  split <;> simp_all

theorem unwrapOr_eq_ok_iff {message : String} {o : Option α} {a : α} :
    unwrapOr message o = .ok a ↔ o = some a := by
  cases o <;> simp [unwrapOr]

theorem ensure_bind_eq_ok_iff {p : Prop} [Decidable p] {message : String}
    {f : Unit → Except String α} {a : α} :
    ensure p message >>= f = .ok a ↔ p ∧ f () = .ok a := by
  rw [Except.bind_eq_ok_iff]
  simp only [ensure_eq_ok_iff]
  exact ⟨fun ⟨_, hp, h⟩ => ⟨hp, h⟩, fun ⟨hp, h⟩ => ⟨(), hp, h⟩⟩

theorem unwrapOr_bind_eq_ok_iff {β : Type} {message : String} {o : Option α}
    {f : α → Except String β} {b : β} :
    unwrapOr message o >>= f = .ok b ↔ ∃ a, o = some a ∧ f a = .ok b := by
  rw [Except.bind_eq_ok_iff]
  simp [unwrapOr_eq_ok_iff]
