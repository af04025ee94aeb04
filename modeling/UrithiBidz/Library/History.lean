import Mathlib.Data.List.Induction

/-!
# Histories of a labelled transition system

A system is given by the states it may start in and by a labelled step relation.
`History init step tr s` says that the system can take the steps labelled `tr`, in
that order, and be in the state `s` afterwards; the labels are the system's whole
past, so a property of a run is a property of its labels and of the state they led
to.

Three rules carry the inductions of a development. `History.invariant` is the usual
one, for a property of the past and the present together. `History.of_mem` goes back
to the moment a label was taken. `History.pairwise` orders the labels of a run: a
relation that every next step has to every step of the past before it holds of any
two labels of the run, the earlier one first. What is spent by being done, and stays so,
is done at most once (`History.once`). What has happened and was not undone is
`History.Since`, which tells what is on (`History.since_iff`). Two rules are about lengths:
a history runs out (`History.length_add_le`), or goes on (`History.exists_length_eq`).

If the steps can be computed, so can runs: `History.replay` plays a script, and what it
answers is a run (`History.of_replay`).
-/

variable {σ α : Type}

/-- The runs of a system: a list of labels, oldest first, and the state reached. -/
inductive History (init : σ → Prop) (step : σ → α → σ → Prop) : List α → σ → Prop
  /-- The empty run, in a state the system may start in. -/
  | start {s : σ} (h : init s) : History init step [] s
  /-- One more step. -/
  | snoc {tr : List α} {s s' : σ} {a : α} (h : History init step tr s) (hs : step s a s') :
      History init step (tr ++ [a]) s'

namespace History

variable {init : σ → Prop} {step : σ → α → σ → Prop}

/-- **Invariants.** A property of the past and the present that holds at the start
and survives every step of a run holds along every run. -/
theorem invariant {P : List α → σ → Prop} (h₀ : ∀ s, init s → P [] s)
    (h₁ : ∀ tr s a s', History init step tr s → P tr s → step s a s' → P (tr ++ [a]) s')
    {tr : List α} {s : σ} (h : History init step tr s) : P tr s := by
  induction h with
  | start h => exact h₀ _ h
  | snoc h hs ih => exact h₁ _ _ _ _ h ih hs

/-- **Going back to a step.** A label of a run was taken from a state that the run's
past before it reached. -/
theorem of_mem {tr : List α} {s : σ} (h : History init step tr s) {a : α} (ha : a ∈ tr) :
    ∃ past t t', History init step past t ∧ step t a t' ∧ past ++ [a] <+: tr := by
  induction h with
  | start _ => simp at ha
  | @snoc tr s s' b h hs ih =>
    rcases List.mem_append.mp ha with ha | ha
    · obtain ⟨past, t, t', hp, ht, hpre⟩ := ih ha
      exact ⟨past, t, t', hp, ht, hpre.trans (List.prefix_append _ _)⟩
    · obtain rfl : a = b := by simpa using ha
      exact ⟨tr, s, s', h, hs, List.prefix_refl _⟩

theorem of_snoc {tr : List α} {a : α} {s : σ} (h : History init step (tr ++ [a]) s) :
    ∃ t, History init step tr t ∧ step t a s := by
  generalize hlong : tr ++ [a] = long at h
  cases h with
  | start _ => simp at hlong
  | snoc h hs =>
    obtain ⟨rfl, rfl⟩ := List.concat_inj.mp (by simpa using hlong)
    exact ⟨_, h, hs⟩

/-- **Going on with a run.** A run from the state that another one reached continues it. -/
theorem append {tr later : List α} {s t : σ} (h : History init step tr s)
    (hlater : History (fun t' => t' = s) step later t) : History init step (tr ++ later) t := by
  induction hlater with
  | start heq =>
    rw [List.append_nil, heq]
    exact h
  | snoc _ hs ih =>
    rw [← List.append_assoc]
    exact ih.snoc hs

/-- **Cutting a run.** The first labels of a run are those of a run, and the others are
taken from the state that it reached. -/
theorem split {tr later : List α} {s : σ} (h : History init step (tr ++ later) s) :
    ∃ t, History init step tr t ∧ History (fun t' => t' = t) step later s := by
  induction later using List.reverseRecOn generalizing s with
  | nil =>
    rw [List.append_nil] at h
    exact ⟨s, h, .start rfl⟩
  | append_singleton later a ih =>
    rw [← List.append_assoc] at h
    obtain ⟨s', h, hs⟩ := h.of_snoc
    obtain ⟨t, hpast, hlater⟩ := ih h
    exact ⟨t, hpast, hlater.snoc hs⟩

/-- **Cutting a run at a step.** -/
theorem at_step {past later : List α} {a : α} {s : σ}
    (h : History init step (past ++ a :: later) s) : ∃ t t', History init step past t ∧
      step t a t' ∧ History (fun t'' => t'' = t') step later s := by
  rw [← List.singleton_append, ← List.append_assoc] at h
  obtain ⟨t', h, hlater⟩ := h.split
  obtain ⟨t, hpast, hs⟩ := h.of_snoc
  exact ⟨t, t', hpast, hs, hlater⟩

/-- **Ordering the steps of a run.** If every next step stands in a relation to all
the steps before it, any two steps of a run do, the earlier one first. -/
theorem pairwise {R : α → α → Prop}
    (hR : ∀ tr s a s', History init step tr s → step s a s' → ∀ b ∈ tr, R b a)
    {tr : List α} {s : σ} (h : History init step tr s) : tr.Pairwise R := by
  induction h with
  | start _ => exact List.Pairwise.nil
  | @snoc tr s s' a h hs ih =>
    refine List.pairwise_append.mpr ⟨ih, List.pairwise_singleton _ _, fun b hb c hc => ?_⟩
    obtain rfl : c = a := by simpa using hc
    exact hR tr s c s' h hs b hb

/-- **Conditions on the labels.** A run all of whose labels meet a condition is a run of the
system in which a step has to meet it. -/
theorem restrict {C : α → Prop} {tr : List α} {s : σ} (h : History init step tr s)
    (hC : ∀ a ∈ tr, C a) : History init (fun s a s' => C a ∧ step s a s') tr s := by
  induction h with
  | start h => exact .start h
  | @snoc tr s s' a h hs ih =>
    have hpast : ∀ b ∈ tr, C b := fun b hb => hC b (List.mem_append_left _ hb)
    exact .snoc (ih hpast) ⟨hC a (by simp), hs⟩

/-- A run of a system is a run of every system that can do more. -/
theorem mono {step' : σ → α → σ → Prop} (hstep : ∀ s a s', step s a s' → step' s a s')
    {tr : List α} {s : σ} (h : History init step tr s) : History init step' tr s := by
  induction h with
  | start h => exact .start h
  | snoc _ hs ih => exact .snoc ih (hstep _ _ _ hs)

/-! ### What happens once -/

/-- **Spending.** Something that is only done when it is not spent, that spends it, and that stays
spent, is done at most once. -/
theorem once {use : α → Prop} (spent : List α → σ → Prop) {tr : List α} {s : σ}
    (h : History init step tr s)
    (huse : ∀ past t a t', History init step past t → step t a t' → past ++ [a] <+: tr → use a →
      ¬spent past t ∧ spent (past ++ [a]) t')
    (hkeep : ∀ past t a t', History init step past t → step t a t' → past ++ [a] <+: tr →
      spent past t → spent (past ++ [a]) t') :
    tr.Pairwise fun a b => use a → ¬use b := by
  suffices hall : tr.Pairwise (fun a b => use a → ¬use b) ∧ ∀ a ∈ tr, use a → spent tr s from
    hall.1
  induction h with
  | start => exact ⟨.nil, fun a ha => absurd ha List.not_mem_nil⟩
  | @snoc past t t' b h hs ih =>
    have hpre : past <+: past ++ [b] := List.prefix_append past [b]
    obtain ⟨hpairs, hspent⟩ := ih
      (fun p u a u' hp ha hpast => huse p u a u' hp ha (hpast.trans hpre))
      (fun p u a u' hp ha hpast => hkeep p u a u' hp ha (hpast.trans hpre))
    constructor
    · refine List.pairwise_append.mpr ⟨hpairs, List.pairwise_singleton _ _, ?_⟩
      intro a ha c hc husea husec
      obtain rfl := List.mem_singleton.mp hc
      exact (huse past t c t' h hs (List.prefix_refl _) husec).1 (hspent a ha husea)
    · intro a ha husea
      rcases List.mem_append.mp ha with ha | ha
      · exact hkeep past t b t' h hs (List.prefix_refl _) (hspent a ha husea)
      · obtain rfl := List.mem_singleton.mp ha
        exact (huse past t a t' h hs (List.prefix_refl _) husea).2

/-! ### What has happened since -/

/-- A label of one kind was taken, and all labels since then are of another. -/
def Since (p q : α → Prop) (tr : List α) : Prop :=
  ∃ past a later, tr = past ++ a :: later ∧ p a ∧ ∀ b ∈ later, q b

theorem Since.now {p q : α → Prop} {a : α} (ha : p a) (tr : List α) : Since p q (tr ++ [a]) :=
  ⟨tr, a, [], rfl, ha, fun _ hb => absurd hb List.not_mem_nil⟩

theorem Since.snoc {p q : α → Prop} {tr : List α} (h : Since p q tr) {b : α} (hb : q b) :
    Since p q (tr ++ [b]) := by
  obtain ⟨past, a, later, rfl, ha, hlater⟩ := h
  refine ⟨past, a, later ++ [b], by rw [List.append_assoc, List.cons_append], ha, ?_⟩
  intro c hc
  rcases List.mem_append.mp hc with hc | hc
  · exact hlater c hc
  · rw [List.mem_singleton.mp hc]
    exact hb

theorem Since.imp {p p' q : α → Prop} (hp : ∀ a, p a → p' a) {tr : List α} (h : Since p q tr) :
    Since p' q tr := by
  obtain ⟨past, a, later, htr, ha, hlater⟩ := h
  exact ⟨past, a, later, htr, hp a ha, hlater⟩

theorem Since.nil {p q : α → Prop} : ¬Since p q [] := by
  rintro ⟨past, a, later, hnil, -⟩
  exact List.append_ne_nil_of_right_ne_nil past (List.cons_ne_nil a later) hnil.symm

/-- What has happened has just happened, or had happened before and nothing is in the way. -/
theorem since_concat_iff {p q : α → Prop} {tr : List α} {b : α} :
    Since p q (tr ++ [b]) ↔ p b ∨ (Since p q tr ∧ q b) := by
  constructor
  · rintro ⟨past, a, later, heq, ha, hlater⟩
    rcases later.eq_nil_or_concat with rfl | ⟨later, c, rfl⟩
    · obtain ⟨rfl, rfl⟩ := List.concat_inj.mp (by simpa using heq)
      exact Or.inl ha
    · rw [List.concat_eq_append, ← List.cons_append, ← List.append_assoc] at heq
      obtain ⟨rfl, hlast⟩ := List.append_inj' heq rfl
      obtain rfl := List.singleton_inj.mp hlast
      rw [List.concat_eq_append] at hlater
      exact Or.inr ⟨⟨past, a, later, rfl, ha, fun d hd => hlater d (List.mem_append_left _ hd)⟩,
        hlater b (List.mem_append_right _ (List.mem_singleton_self b))⟩
  · rintro (hb | ⟨hpast, hb⟩)
    · exact Since.now hb tr
    · exact hpast.snoc hb

/-- **What is on.** What some labels switch on, and all but some others leave on, is on exactly
if it has been switched on since. -/
theorem since_iff {P : σ → Prop} {p q : α → Prop} (h₀ : ∀ s, init s → ¬P s)
    (hstep : ∀ s a s', step s a s' → (P s' ↔ p a ∨ (P s ∧ q a)))
    {tr : List α} {s : σ} (h : History init step tr s) : P s ↔ Since p q tr := by
  induction h with
  | start hs => exact iff_of_false (h₀ _ hs) Since.nil
  | snoc _ hs ih => rw [hstep _ _ _ hs, since_concat_iff, ih]

/-! ### How long a history is -/

/-- **Running out.** If every step makes something smaller, a history is no longer than that. -/
theorem length_add_le (μ : σ → ℕ) {n : ℕ} (h₀ : ∀ s, init s → μ s ≤ n)
    (hstep : ∀ tr s a s', History init step tr s → step s a s' → μ s' < μ s)
    {tr : List α} {s : σ} (h : History init step tr s) : tr.length + μ s ≤ n := by
  induction h with
  | start hs =>
    rw [List.length_nil, Nat.zero_add]
    exact h₀ _ hs
  | @snoc tr s s' a h hs ih =>
    have hlt := hstep tr s a s' h hs
    rw [List.length_append, List.length_singleton]
    omega

/-- **Going on.** If a step is possible that keeps what makes a step possible, there are histories
of all lengths. -/
theorem exists_length_eq (I : σ → Prop) {s : σ} (hs : init s) (hI : I s)
    (hstep : ∀ tr s, History init step tr s → I s → ∃ a s', step s a s' ∧ I s') (n : ℕ) :
    ∃ tr s, History init step tr s ∧ I s ∧ tr.length = n := by
  induction n with
  | zero => exact ⟨[], s, .start hs, hI, rfl⟩
  | succ n ih =>
    obtain ⟨tr, t, h, ht, hlength⟩ := ih
    obtain ⟨a, t', hnext, ht'⟩ := hstep tr t h ht
    exact ⟨tr ++ [a], t', h.snoc hnext, ht', by rw [List.length_append, hlength]; rfl⟩

/-! ### Replays -/

variable {β : Type} {play : σ → β → Option (α × σ)}

/-- Play a script, as long as each of its entries can be played: the labels, and the state
reached. -/
def replay (play : σ → β → Option (α × σ)) : σ → List β → Option (List α × σ)
  | s, [] => some ([], s)
  | s, b :: script => (play s b).bind fun (a, s') =>
      (replay play s' script).map fun (tr, s'') => (a :: tr, s'')

theorem map_of_replay {f : α → β} (hplay : ∀ s b a s', play s b = some (a, s') → f a = b)
    {script : List β} {s s' : σ} {tr : List α} (hreplay : replay play s script = some (tr, s')) :
    tr.map f = script := by
  induction script generalizing s tr with
  | nil =>
    cases hreplay
    rfl
  | cons b script ih =>
    obtain ⟨⟨a, s₁⟩, hfirst, hrest⟩ := Option.bind_eq_some_iff.mp hreplay
    obtain ⟨⟨tr', s₂⟩, hreplay', heq⟩ := Option.map_eq_some_iff.mp hrest
    cases heq
    rw [List.map_cons, hplay s b a s₁ hfirst, ih hreplay']

/-- **A replay is a run**, if what can be played is a step. -/
theorem of_replay (hplay : ∀ s b a s', play s b = some (a, s') → step s a s') {script : List β}
    {s s' : σ} {past tr : List α} (h : History init step past s)
    (hreplay : replay play s script = some (tr, s')) : History init step (past ++ tr) s' := by
  induction script generalizing s past tr with
  | nil =>
    cases hreplay
    rw [List.append_nil]
    exact h
  | cons b script ih =>
    obtain ⟨⟨a, s₁⟩, hfirst, hrest⟩ := Option.bind_eq_some_iff.mp hreplay
    obtain ⟨⟨tr', s₂⟩, hreplay', heq⟩ := Option.map_eq_some_iff.mp hrest
    cases heq
    have hlong := ih (h.snoc (hplay s b a s₁ hfirst)) hreplay'
    rw [List.append_assoc] at hlong
    exact hlong

/-- **Runs by evaluation**: whatever is read off a replay is read off a run. -/
theorem exists_of_replay {γ : Type} (hplay : ∀ s b a s', play s b = some (a, s') → step s a s')
    {s : σ} (hs : init s) {script : List β} {f : List α × σ → γ} {v : γ}
    (h : (replay play s script).map f = some v) :
    ∃ tr s', History init step tr s' ∧ f (tr, s') = v := by
  obtain ⟨⟨tr, s'⟩, hreplay, hf⟩ := Option.map_eq_some_iff.mp h
  exact ⟨tr, s', of_replay hplay (.start hs) hreplay, hf⟩

end History
