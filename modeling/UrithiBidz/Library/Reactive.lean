import Mathlib.Data.Nat.Basic
import Mathlib.Order.Monotone.Defs
import UrithiBidz.Library.History

/-!
# Components that draw themselves

A component keeps its values by reference, and draws itself from them. Once it is drawn it follows
up: whatever depends on a value that has been replaced since it last did is run, and may replace
values in turn, so that the component is drawn again.

A `Cell` is a value kept by reference, as how often it was replaced, and what it holds. What was
replaced more often comes later, and this is an order. `Component.Moves` says how a component goes
on: it is drawn, it follows up, or something else happens to its values.

The one result is about a component that replaces what it depends on. If following up a call always
replaces a value which the call depends on, then whatever was last followed up for a call is out of
date (`Component.Behind`). So as long as there is a call the component is not at rest
(`Component.Behind.not_atRest`).
-/

/-! ### Values kept by reference -/

variable {α : Type*}

/-- A value kept by reference: how often it has been replaced, and what it holds. -/
structure Cell (α : Type*) where
  version : ℕ
  value : α

namespace Cell

/-- A value that has not been replaced. -/
def first (a : α) : Cell α := ⟨0, a⟩

/-- Replace a value. -/
def set (c : Cell α) (a : α) : Cell α := ⟨c.version + 1, a⟩

/-- Replace a value by one made of it. If there is none, it is left as it is. -/
def amend (f : α → α) (c : Cell (Option α)) : Cell (Option α) :=
  match c.value with
  | some a => c.set (some (f a))
  | none => c

instance : PartialOrder (Cell α) where
  le c d := c = d ∨ c.version < d.version
  lt c d := c.version < d.version
  le_refl _ := Or.inl rfl
  le_trans := by
    rintro a b c (rfl | hab) (rfl | hbc)
    · exact Or.inl rfl
    · exact Or.inr hbc
    · exact Or.inr hab
    · exact Or.inr (hab.trans hbc)
  le_antisymm := by
    rintro a b (rfl | hab) (hba | hba)
    · rfl
    · rfl
    · exact hba.symm
    · exact absurd hba hab.asymm
  lt_iff_le_not_ge := by
    intro a b
    constructor
    · intro hab
      refine ⟨Or.inr hab, ?_⟩
      rintro (rfl | hba)
      · exact lt_irrefl _ hab
      · exact hab.asymm hba
    · rintro ⟨rfl | hab, hba⟩
      · exact absurd (Or.inl rfl) hba
      · exact hab

theorem lt_set (c : Cell α) (a : α) : c < c.set a := Nat.lt_succ_self c.version

@[simp] theorem value_amend (f : α → α) (c : Cell (Option α)) :
    (c.amend f).value = c.value.map f := by
  unfold amend
  rcases h : c.value with _ | a
  · simp [h]
  · rfl

theorem le_amend (f : α → α) (c : Cell (Option α)) : c ≤ c.amend f := by
  unfold amend
  rcases c.value with _ | a
  · exact le_refl c
  · exact (lt_set c _).le

theorem lt_amend (f : α → α) {c : Cell (Option α)} (h : c.value.isSome) : c < c.amend f := by
  unfold amend
  rcases hvalue : c.value with _ | a
  · rw [hvalue] at h
    cases h
  · exact lt_set c _

/-- A value has been replaced since the last time, or this is the first. -/
def Changed (before : Option (Cell α)) (c : Cell α) : Prop :=
  before.map version ≠ some c.version

instance (before : Option (Cell α)) (c : Cell α) : Decidable (c.Changed before) :=
  inferInstanceAs (Decidable (_ ≠ _))

theorem changed_none (c : Cell α) : c.Changed none := Option.some_ne_none _ ∘ Eq.symm

theorem changed_some_iff {c d : Cell α} (h : c ≤ d) : d.Changed (some c) ↔ c < d := by
  rcases h with rfl | hlt
  · simp [Changed]
  · exact iff_of_true (fun heq => hlt.ne (Option.some.inj heq)) hlt

end Cell

/-! ### Components -/

/-- A component: what it is drawn from, and how it follows up what was drawn, when it followed up
something else before, or nothing yet. -/
structure Component (σ V : Type*) where
  view : σ → V
  follows : Option V → V → σ → σ → Prop

/-- Where a component stands: its values, what is drawn and not followed up, and what was followed
up last. -/
structure Standing (σ V : Type*) where
  values : σ
  pending : Option V
  ran : Option V

namespace Component

variable {σ V β : Type*} {C : Component σ V} {outside : σ → σ → Prop} {s s' : Standing σ V}

variable (C outside) in
/-- **How a component goes on.** -/
inductive Moves : Standing σ V → Standing σ V → Prop
  /-- It is drawn, when nothing is left to follow up. -/
  | draw (s : Standing σ V) (h : s.pending = none) :
    Moves s { s with pending := some (C.view s.values) }
  /-- It follows up what was drawn. -/
  | follow (s : Standing σ V) {v : V} {values : σ} (h : s.pending = some v)
      (hf : C.follows s.ran v s.values values) : Moves s ⟨values, none, some v⟩
  /-- Something happens to its values. -/
  | other (s : Standing σ V) {values : σ} (h : outside s.values values) :
    Moves s { s with values := values }

/-- It is at rest: what it would be drawn from has been followed up. -/
def AtRest (C : Component σ V) (s : Standing σ V) : Prop :=
  s.pending = none ∧ s.ran = some (C.view s.values)

variable [Preorder V] {calls : V → Prop} {key : V → Cell β}

variable (C calls key) in
/-- **Out of date.** What was followed up for a call is no longer what the component is drawn from,
and has a value that was replaced since. -/
structure Behind (s : Standing σ V) : Prop where
  pending_le : ∀ v ∈ s.pending, v ≤ C.view s.values
  ran_le : ∀ u ∈ s.ran, u ≤ C.view s.values
  ran_le_pending : ∀ u ∈ s.ran, ∀ v ∈ s.pending, u ≤ v
  key_lt : ∀ u ∈ s.ran, calls u → key u < key (C.view s.values)
  key_lt_pending : ∀ u ∈ s.ran, calls u → ∀ v ∈ s.pending, key u < key v

theorem Behind.start (values : σ) : C.Behind calls key ⟨values, none, none⟩ := by
  constructor <;> intro _ h <;> cases h

variable (C outside calls key) in
/-- **A component that replaces what it depends on**: nothing goes back, and following up a call
replaces a value, at least if that value has been replaced since the last call. -/
structure Stirs : Prop where
  monotone : Monotone key
  other : ∀ a b, outside a b → C.view a ≤ C.view b
  follows : ∀ ran v a b, C.follows ran v a b → C.view a ≤ C.view b
  calls : ∀ ran v a b, C.follows ran v a b → v ≤ C.view a → calls v →
    (∀ u ∈ ran, u ≤ v ∧ (calls u → key u < key v)) → key v < key (C.view b)

/-- **It stays out of date**, whatever happens. -/
theorem Behind.moves (hC : C.Stirs outside calls key) (h : C.Behind calls key s)
    (hs : C.Moves outside s s') : C.Behind calls key s' := by
  cases hs with
  | draw hp =>
    refine ⟨?_, h.ran_le, ?_, h.key_lt, ?_⟩
    · rintro v ⟨⟩
      exact le_refl _
    · rintro u hu v ⟨⟩
      exact h.ran_le u hu
    · rintro u hu hcalls v ⟨⟩
      exact h.key_lt u hu hcalls
  | @follow v values hp hf =>
    have hle := h.pending_le v hp
    refine ⟨?_, ?_, ?_, ?_, ?_⟩
    · rintro _ ⟨⟩
    · rintro u ⟨⟩
      exact hle.trans (hC.follows _ _ _ _ hf)
    · rintro _ _ _ ⟨⟩
    · rintro u ⟨⟩ hcalls
      exact hC.calls _ _ _ _ hf hle hcalls fun u hu =>
        ⟨h.ran_le_pending u hu v hp, fun hcall => h.key_lt_pending u hu hcall v hp⟩
    · rintro _ _ _ _ ⟨⟩
  | @other values ho =>
    have hle := hC.other _ _ ho
    exact ⟨fun v hv => (h.pending_le v hv).trans hle, fun u hu => (h.ran_le u hu).trans hle,
      h.ran_le_pending, fun u hu hcalls => (h.key_lt u hu hcalls).trans_le (hC.monotone hle),
      h.key_lt_pending⟩

/-- **While there is a call there is no rest.** -/
theorem Behind.not_atRest (h : C.Behind calls key s) (hrest : C.AtRest s) :
    ¬calls (C.view s.values) :=
  fun hcalls => lt_irrefl _ (h.key_lt _ hrest.2 hcalls)

end Component
