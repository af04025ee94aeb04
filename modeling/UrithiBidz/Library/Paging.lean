import Mathlib.Data.List.Basic
import Mathlib.Order.Lattice

/-!
# Reading a list page by page

A list in the order of some keys is read in pages: a page has the first so many entries from a
key on, and the next page starts from the last key that was read. Since an entry is asked for
by its key and not by its place, the last key is read again, so that none of its entries is
missed (`Paging.mem_page_or_le`).

This makes progress as long as there is more than one key in a page. If no key has as many
entries as a page, a full page leaves fewer entries from its last key on than from its first
(`Paging.remaining_lt`). If one has, a page that starts at it or before is full and ends at it or
before (`Paging.page_le`), and so does the next one.

Pages may be asked for by place as well: so many entries behind so many others. If the list grows in
front while it is read, entries come again, but those that were there at the start are not missed
(`Paging.Caught.complete`).
-/

namespace Paging

variable {α κ : Type*} [LinearOrder κ] {key : α → κ} {entries : List α} {start k : κ} {limit : ℕ}

/-- The first entries from a key on. -/
def page (key : α → κ) (entries : List α) (start : κ) (limit : ℕ) : List α :=
  (entries.filter fun e => start ≤ key e).take limit

/-- How many entries there are from a key on. -/
def remaining (key : α → κ) (entries : List α) (start : κ) : ℕ :=
  (entries.filter fun e => start ≤ key e).length

omit [LinearOrder κ] in
/-- What holds of all entries up to some point only, splits the list there. -/
theorem filter_append_filter_not {p : α → Prop} [DecidablePred p]
    (h : entries.Pairwise fun e e' => p e' → p e) :
    entries.filter (fun e => p e) ++ entries.filter (fun e => ¬p e) = entries := by
  induction entries with
  | nil => rfl
  | cons e entries ih =>
    obtain ⟨hfirst, hrest⟩ := List.pairwise_cons.mp h
    by_cases he : p e
    · rw [List.filter_cons_of_pos (by simpa using he),
        List.filter_cons_of_neg (by simpa using he), List.cons_append, ih hrest]
    · -- nor does it hold of those that follow
      have hno : ∀ e' ∈ e :: entries, ¬p e' :=
        List.forall_mem_cons.mpr ⟨he, fun e' he' hp => he (hfirst e' he' hp)⟩
      rw [List.filter_eq_nil_iff.mpr fun e' he' => by simpa using hno e' he',
        List.filter_eq_self.mpr fun e' he' => by simpa using hno e' he', List.nil_append]

theorem mem_of_mem_page {e : α} (h : e ∈ page key entries start limit) :
    e ∈ entries ∧ start ≤ key e := by
  obtain ⟨hmem, hle⟩ := List.mem_filter.mp (List.mem_of_mem_take h)
  exact ⟨hmem, of_decide_eq_true hle⟩

/-- A page that is not full has all there is. -/
theorem mem_page_of_short (hshort : (page key entries start limit).length < limit) {e : α}
    (he : e ∈ entries) (hle : start ≤ key e) : e ∈ page key entries start limit := by
  have hall : page key entries start limit = entries.filter fun e => start ≤ key e := by
    refine List.take_of_length_le ?_
    rw [page, List.length_take] at hshort
    omega
  rw [hall]
  exact List.mem_filter.mpr ⟨he, decide_eq_true hle⟩

section Sorted

variable (hsorted : entries.Pairwise fun e e' => key e ≤ key e')
include hsorted

/-- **No entry is missed**: one that is not on the page comes from the last of its keys on. -/
theorem mem_page_or_le {e : α} (he : e ∈ entries) (hle : start ≤ key e) :
    e ∈ page key entries start limit ∨ ∀ e' ∈ page key entries start limit, key e' ≤ key e := by
  have hfound : e ∈ entries.filter fun e => start ≤ key e :=
    List.mem_filter.mpr ⟨he, decide_eq_true hle⟩
  have hpairs := hsorted.filter fun e => decide (start ≤ key e)
  rw [← List.take_append_drop limit (entries.filter _)] at hfound hpairs
  rcases List.mem_append.mp hfound with hfound | hfound
  · exact Or.inl hfound
  · exact Or.inr fun e' he' => (List.pairwise_append.mp hpairs).2.2 e' he' e hfound

/-- **A key that fills a page is not passed.** -/
theorem page_le (hstart : start ≤ k) (hcrowd : limit ≤ entries.countP fun e => key e = k) :
    (page key entries start limit).length = limit ∧
      ∀ e ∈ page key entries start limit, key e ≤ k := by
  have hsplit := filter_append_filter_not (p := fun e => key e ≤ k)
    ((hsorted.filter fun e => decide (start ≤ key e)).imp fun hle hk => hle.trans hk)
  have hlength : limit ≤
      ((entries.filter fun e => start ≤ key e).filter fun e => key e ≤ k).length := by
    refine Nat.le_trans hcrowd ?_
    rw [List.filter_filter, ← List.countP_eq_length_filter]
    refine List.countP_mono_left fun e _ he => ?_
    obtain rfl : key e = k := of_decide_eq_true he
    simpa using hstart
  have hpage : page key entries start limit =
      ((entries.filter fun e => start ≤ key e).filter fun e => key e ≤ k).take limit := by
    rw [page, ← hsplit, List.take_append_of_le_length hlength, hsplit]
  rw [hpage]
  refine ⟨List.length_take_of_le hlength, fun e he => ?_⟩
  exact of_decide_eq_true (List.mem_filter.mp (List.mem_of_mem_take he)).2

end Sorted

/-- **A full page makes progress**, if no key fills it. -/
theorem remaining_lt (hfull : limit ≤ (page key entries start limit).length)
    (hstart : start ≤ k) (hle : ∀ e ∈ page key entries start limit, key e ≤ k)
    (hsparse : (entries.countP fun e => key e = k) < limit) :
    remaining key entries k < remaining key entries start := by
  -- the page has an entry before the key
  obtain ⟨e, he, hlt⟩ : ∃ e ∈ page key entries start limit, key e < k := by
    by_contra! hall
    have hcount : (page key entries start limit).countP (fun e => key e = k) =
        (page key entries start limit).length :=
      List.countP_eq_length.mpr fun e he => decide_eq_true ((hle e he).antisymm (hall e he))
    have hsub : (page key entries start limit).Sublist entries :=
      (List.take_sublist _ _).trans List.filter_sublist
    have hcount' := hsub.countP_le (p := fun e => key e = k)
    omega
  obtain ⟨hmem, hfrom⟩ := mem_of_mem_page he
  have hagain : entries.filter (fun e => k ≤ key e) =
      (entries.filter fun e => start ≤ key e).filter fun e => k ≤ key e := by
    rw [List.filter_filter]
    refine List.filter_congr fun e _ => ?_
    by_cases hk : k ≤ key e
    · simp [hk, hstart.trans hk]
    · simp [hk]
  rw [remaining, remaining, hagain, List.length_filter_lt_length_iff_exists]
  exact ⟨e, List.mem_filter.mpr ⟨hmem, decide_eq_true hfrom⟩, by simpa using hlt⟩

/-! ### By place -/

section Place

variable {first list fresh got : List α} {offset : ℕ}

/-- **Nothing is missed so far**: of the entries that were there first, those before a place have
been got. -/
def Caught (first list : List α) (offset : ℕ) (got : List α) : Prop :=
  ∀ e ∈ list.take offset, e ∈ first → e ∈ got

theorem Caught.zero (first list got : List α) : Caught first list 0 got := by
  intro e he
  rw [List.take_zero] at he
  exact absurd he List.not_mem_nil

/-- What is added in front pushes entries back, which come again. -/
theorem Caught.grow (h : Caught first list offset got) (hfresh : ∀ e ∈ fresh, e ∉ first) :
    Caught first (fresh ++ list) offset got := by
  intro e he hfirst
  rw [List.take_append] at he
  rcases List.mem_append.mp he with he | he
  · exact absurd hfirst (hfresh e (List.mem_of_mem_take he))
  · exact h e (List.take_subset_take_left list (Nat.sub_le _ _) he) hfirst

/-- One more page. -/
theorem Caught.page (h : Caught first list offset got) (limit : ℕ) :
    Caught first list (offset + limit) (got ++ (list.drop offset).take limit) := by
  intro e he hfirst
  rw [List.take_add] at he
  rcases List.mem_append.mp he with he | he
  · exact List.mem_append_left _ (h e he hfirst)
  · exact List.mem_append_right _ he

/-- **With a page that is not full, everything has been got** that was there first. -/
theorem Caught.complete (h : Caught first list offset got)
    (hshort : ((list.drop offset).take limit).length < limit) (hsub : first ⊆ list) :
    first ⊆ got ++ (list.drop offset).take limit := by
  intro e he
  refine h.page limit e ?_ he
  rw [List.length_take, List.length_drop] at hshort
  rw [List.take_of_length_le (by omega)]
  exact hsub he

end Place

end Paging
