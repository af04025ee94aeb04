import Mathlib.Data.List.Induction
import Mathlib.Data.List.Nodup

/-!
# Tables with a unique key

A table with a unique key, to which rows are added: a row whose key is taken is dropped, and
nothing else happens. `Dedup.storeAll` adds rows one after the other. The keys in the table stay
different, and what is in it is a sublist of what was added, so every row has been kept exactly
if no two of them share a key (`Dedup.storeAll_eq_iff`), and already their number tells
(`Dedup.length_storeAll_eq_iff`).
-/

namespace Dedup

variable {ρ κ : Type} [DecidableEq κ] (key : ρ → κ)

/-- Add a row, unless its key is taken. -/
def store (rows : List ρ) (row : ρ) : List ρ :=
  if key row ∈ rows.map key then rows else rows ++ [row]

/-- Add rows, one after the other. -/
def storeAll (rows : List ρ) (added : List ρ) : List ρ := added.foldl (store key) rows

variable {key} {rows added : List ρ} {row : ρ}

theorem store_of_mem (h : key row ∈ rows.map key) : store key rows row = rows := if_pos h

theorem store_of_notMem (h : key row ∉ rows.map key) : store key rows row = rows ++ [row] :=
  if_neg h

@[simp] theorem storeAll_nil : storeAll key rows [] = rows := rfl

theorem storeAll_snoc : storeAll key rows (added ++ [row]) =
    store key (storeAll key rows added) row := by
  rw [storeAll, List.foldl_append]
  rfl

/-- **The keys stay different.** -/
theorem nodup_storeAll (h : (rows.map key).Nodup) : ((storeAll key rows added).map key).Nodup := by
  induction added using List.reverseRecOn with
  | nil => exact h
  | append_singleton added row ih =>
    rw [storeAll_snoc]
    by_cases hmem : key row ∈ (storeAll key rows added).map key
    · rw [store_of_mem hmem]
      exact ih
    · rw [store_of_notMem hmem, List.map_append]
      exact ih.append (List.nodup_singleton _) (List.disjoint_singleton.mpr hmem)

theorem storeAll_sublist : (storeAll key rows added).Sublist (rows ++ added) := by
  induction added using List.reverseRecOn with
  | nil => simp
  | append_singleton added row ih =>
    rw [storeAll_snoc, ← List.append_assoc]
    by_cases hmem : key row ∈ (storeAll key rows added).map key
    · rw [store_of_mem hmem]
      exact ih.trans (List.sublist_append_left _ _)
    · rw [store_of_notMem hmem]
      exact ih.append (List.Sublist.refl _)

theorem storeAll_of_nodup (h : ((rows ++ added).map key).Nodup) :
    storeAll key rows added = rows ++ added := by
  induction added using List.reverseRecOn with
  | nil => simp
  | append_singleton added row ih =>
    rw [← List.append_assoc, List.map_append] at h
    obtain ⟨hpast, -, hnew⟩ := List.nodup_append'.mp h
    rw [storeAll_snoc, ih hpast, store_of_notMem, List.append_assoc]
    exact List.disjoint_singleton.mp hnew

/-- **Every row is kept exactly if no two share a key.** -/
theorem storeAll_eq_iff : storeAll key [] added = added ↔ (added.map key).Nodup := by
  constructor
  · intro h
    have hnodup : ((storeAll key [] added).map key).Nodup := nodup_storeAll List.nodup_nil
    rwa [h] at hnodup
  · intro h
    have hall : storeAll key [] added = [] ++ added := storeAll_of_nodup h
    exact hall

/-- **Their number tells.** -/
theorem length_storeAll_eq_iff :
    (storeAll key [] added).length = added.length ↔ (added.map key).Nodup := by
  rw [← storeAll_eq_iff]
  constructor
  · intro h
    have hsub : (storeAll key [] added).Sublist ([] ++ added) := storeAll_sublist
    exact hsub.eq_of_length h
  · exact congrArg List.length

end Dedup
