import Mathlib.Data.List.Forall2
import UrithiBidz.Library.History

/-!
# A part of a system

Two ways to look at a part of a transition system, along whole histories.

The first is to follow it from outside. A view of the state that every step changes as its own
output tells is the fold of the outputs (`History.view_eq_foldl`): whoever sees all of them knows
the view, and need not see the state.

The second is to leave the rest out. If the steps that matter can be taken again in a second
system, from any state that looks the same, and the others do not change what the state looks
like, then every history can be repeated without the others (`History.purge`). With the system
itself as the second one, this is how one shows that the steps left out do not interfere with the
steps that stay.
-/

variable {σ α : Type}

namespace History

variable {init : σ → Prop} {step : σ → α → σ → Prop}

/-- **A view from outside.** What every step changes as its output tells is told by the outputs
of the whole history. -/
theorem view_eq_foldl {γ ε : Type} {view : σ → γ} {output : α → List ε} {tell : γ → ε → γ}
    {first : γ} (h₀ : ∀ s, init s → view s = first)
    (h₁ : ∀ tr s a s', History init step tr s → step s a s' →
      view s' = (output a).foldl tell (view s))
    {tr : List α} {s : σ} (h : History init step tr s) :
    view s = (tr.flatMap output).foldl tell first := by
  induction h with
  | start hs => exact h₀ _ hs
  | @snoc tr s s' a h hs ih =>
    rw [List.flatMap_append, List.foldl_append, ← ih, List.flatMap_singleton]
    exact h₁ tr s a s' h hs

/-- **Leaving steps out.** The steps that are kept can be taken again from every state that looks
the same, and those that are not change nothing of what it looks like. -/
theorem purge {τ β : Type} {init' : τ → Prop} {step' : τ → β → τ → Prop} {R : σ → τ → Prop}
    {L : α → β → Prop} (keep : α → Bool)
    (h₀ : ∀ s, init s → ∃ t, init' t ∧ R s t)
    (hkeep : ∀ tr s a s' t, History init step tr s → step s a s' → keep a = true → R s t →
      ∃ b t', step' t b t' ∧ L a b ∧ R s' t')
    (hdrop : ∀ tr s a s' t, History init step tr s → step s a s' → keep a = false → R s t →
      R s' t)
    {tr : List α} {s : σ} (h : History init step tr s) :
    ∃ tr' t, History init' step' tr' t ∧ List.Forall₂ L (tr.filter keep) tr' ∧ R s t := by
  induction h with
  | start hs =>
    obtain ⟨t, ht, hR⟩ := h₀ _ hs
    exact ⟨[], t, .start ht, .nil, hR⟩
  | @snoc tr s s' a h hs ih =>
    obtain ⟨tr', t, h', hL, hR⟩ := ih
    rw [List.filter_append]
    cases hk : keep a with
    | true =>
      obtain ⟨b, t', hb, hab, hR'⟩ := hkeep tr s a s' t h hs hk hR
      rw [List.filter_cons_of_pos hk, List.filter_nil]
      exact ⟨tr' ++ [b], t', h'.snoc hb, List.rel_append hL (.cons hab .nil), hR'⟩
    | false =>
      rw [List.filter_cons_of_neg (by simp [hk]), List.filter_nil, List.append_nil]
      exact ⟨tr', t, h', hL, hdrop tr s a s' t h hs hk hR⟩

end History
