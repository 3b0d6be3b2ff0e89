import Mathlib.Data.List.Destutter
import MemberRefs.Source.Span

/-!
# Sorting by place

Findings are sorted by where they start, and those that start at one place keep their order. Lists of
places are sorted by the places as a whole, and repetitions are erased.

* `pairwise_sorted`: the sorted list is in the order of the locations.
* `filter_sorted`: what starts at one location is the same list before and after.
* `Span.before_iff`: the strict order of spans.
* `eraseReps_eq_dedup`: in a sorted list nothing is left twice when repetitions are erased.
* `pairwise_sortedOnce`, `mem_sortedOnce`: sorted and without repetitions, a list is strictly increasing,
  and has the same elements.
* `Span.mem_sorted`: so it is with sorted lists of places.
-/

namespace MemberRefs

/-! ## 1. By the start -/

section Sorting

variable {α : Type} (start : α → Location)

theorem startsFirst_trans (a b c : α) (hab : decide (start a ≤ start b) = true)
    (hbc : decide (start b ≤ start c) = true) : decide (start a ≤ start c) = true :=
  decide_eq_true (Location.le_trans (of_decide_eq_true hab) (of_decide_eq_true hbc))

theorem startsFirst_total (a b : α) :
    (decide (start a ≤ start b) || decide (start b ≤ start a)) = true := by
  simpa using Location.le_total (start a) (start b)

/-- **The sorted list is in the order of the locations.** -/
theorem pairwise_sorted (xs : List α) :
    (xs.mergeSort fun a b => decide (start a ≤ start b)).Pairwise fun a b => start a ≤ start b :=
  (List.pairwise_mergeSort (startsFirst_trans start) (startsFirst_total start) xs).imp
    of_decide_eq_true

/-- What starts at one location is in order already, so sorting leaves it as it is found. -/
theorem filter_sublist_sorted (xs : List α) (place : Location) :
    (xs.filter fun a => decide (start a = place)).Sublist
      (xs.mergeSort fun a b => decide (start a ≤ start b)) := by
  refine List.sublist_mergeSort (startsFirst_trans start) (startsFirst_total start) ?_
    List.filter_sublist
  refine List.pairwise_filter.mpr (List.pairwise_of_forall fun a b ha hb => ?_)
  have hab : start a = start b := (of_decide_eq_true ha).trans (of_decide_eq_true hb).symm
  exact decide_eq_true (hab ▸ Location.le_refl _)

/-- **What starts at one location is the same list before and after sorting.** -/
theorem filter_sorted (xs : List α) (place : Location) :
    (xs.mergeSort fun a b => decide (start a ≤ start b)).filter
        (fun a => decide (start a = place)) =
      xs.filter fun a => decide (start a = place) := by
  have hsub := (filter_sublist_sorted start xs place).filter fun a => decide (start a = place)
  simp only [List.filter_filter, Bool.and_self] at hsub
  -- The sorted list has nothing more at this location, as it is a permutation.
  have hperm := (List.mergeSort_perm xs fun a b => decide (start a ≤ start b)).filter
    fun a => decide (start a = place)
  exact (hsub.eq_of_length hperm.length_eq.symm).symm

end Sorting

/-! ## 2. The order of spans -/

theorem Location.eq_iff {a b : Location} : a = b ↔ a.line = b.line ∧ a.column = b.column := by
  cases a; cases b; simp

namespace Span

variable {a b c : Span}

theorem eq_iff : a = b ↔ a.start = b.start ∧ a.stop = b.stop := by
  cases a; cases b; simp

theorem le_trans (hab : a ≤ b) (hbc : b ≤ c) : a ≤ c := by
  simp only [le_def, Location.lt_def, Location.le_def, Location.eq_iff] at *
  omega

theorem le_total (a b : Span) : a ≤ b ∨ b ≤ a := by
  simp only [le_def, Location.lt_def, Location.le_def, Location.eq_iff]
  omega

theorem le_antisymm (hab : a ≤ b) (hba : b ≤ a) : a = b := by
  simp only [le_def, Location.lt_def, Location.le_def, eq_iff, Location.eq_iff] at *
  omega

/-- One span comes before another: it starts before it, or at the same place and ends before it. -/
def Before (a b : Span) : Prop := a.start < b.start ∨ a.start = b.start ∧ a.stop < b.stop

theorem Before.trans (hab : a.Before b) (hbc : b.Before c) : a.Before c := by
  simp only [Before, Location.lt_def, Location.eq_iff] at *
  omega

theorem before_iff : a.Before b ↔ a ≤ b ∧ a ≠ b := by
  simp only [Before, le_def, Location.lt_def, Location.le_def, ne_eq, eq_iff, Location.eq_iff]
  omega

end Span

/-! ## 3. Without repetitions -/

section Repetitions

variable {α : Type} [DecidableEq α]

theorem eraseRepsBy_loop (a : α) : ∀ (as acc : List α),
    List.eraseRepsBy.loop (· == ·) a as acc = acc.reverse ++ as.destutter' (· ≠ ·) a
  | [], acc => by simp [List.eraseRepsBy.loop]
  | b :: as, acc => by
      by_cases hab : a = b
      · subst hab
        rw [List.destutter'_cons_neg _ (not_not.mpr rfl), ← eraseRepsBy_loop a as acc]
        simp [List.eraseRepsBy.loop]
      · rw [List.destutter'_cons_pos _ hab]
        have hne : (a == b) = false := beq_false_of_ne hab
        simp [List.eraseRepsBy.loop, hne, eraseRepsBy_loop b as (a :: acc)]

/-- Erasing repetitions leaves an element out when it is equal to the last one kept. -/
theorem eraseReps_eq_destutter : ∀ as : List α, as.eraseReps = as.destutter (· ≠ ·)
  | [] => rfl
  | a :: as => eraseRepsBy_loop a as []

/-- **In a sorted list nothing is left twice when repetitions are erased.** -/
theorem eraseReps_eq_dedup {r : α → α → Prop} (hanti : ∀ a b, r a b → r b a → a = b) {as : List α}
    (h : as.Pairwise r) : as.eraseReps = as.dedup := by
  have : Std.Antisymm r := ⟨hanti⟩
  rw [eraseReps_eq_destutter, h.destutter_eq_dedup]

variable {before : α → α → Bool}
  (htrans : ∀ a b c, before a b = true → before b c = true → before a c = true)
  (htotal : ∀ a b, (before a b || before b a) = true)
  (hanti : ∀ a b, before a b = true → before b a = true → a = b)

include htrans htotal hanti

theorem eraseReps_mergeSort (as : List α) :
    (as.mergeSort before).eraseReps = (as.mergeSort before).dedup :=
  eraseReps_eq_dedup hanti (List.pairwise_mergeSort htrans htotal as)

/-- **Sorted and without repetitions, a list is strictly increasing.** -/
theorem pairwise_sortedOnce (as : List α) :
    (as.mergeSort before).eraseReps.Pairwise fun a b => before a b = true ∧ a ≠ b := by
  rw [eraseReps_mergeSort htrans htotal hanti]
  exact ((List.pairwise_mergeSort htrans htotal as).sublist (List.dedup_sublist _)).and
    (List.nodup_dedup _)

/-- **It has the elements of the list.** -/
theorem mem_sortedOnce {as : List α} {a : α} : a ∈ (as.mergeSort before).eraseReps ↔ a ∈ as := by
  rw [eraseReps_mergeSort htrans htotal hanti, List.mem_dedup, List.mem_mergeSort]

end Repetitions

/-- Spans that are put in order stay the same ones. -/
theorem Span.mem_sorted {spans : List Span} {span : Span} : span ∈ sorted spans ↔ span ∈ spans := by
  refine mem_sortedOnce (fun a b c hab hbc => ?_) (fun a b => ?_) fun a b hab hba => ?_
  · exact decide_eq_true (Span.le_trans (of_decide_eq_true hab) (of_decide_eq_true hbc))
  · simpa using Span.le_total a b
  · exact Span.le_antisymm (of_decide_eq_true hab) (of_decide_eq_true hba)

end MemberRefs
