import Mathlib.Data.List.Nodup
import Mathlib.Logic.Equiv.Basic

/-!
# Rearranged lists

Two lists with the same elements at different places, and where each place of the first one is found in
the second one. The places are those of all numbers, so that a permutation of them need not know how long
the lists are; places behind the end go to places behind the end.

* `Rearranged.range_perm`: the places of the first list go to those of the second one.
* `exists_rearranged`: of two lists with the same elements the places can be matched.
-/

namespace MemberRefs

variable {α : Type} {l l' l'' : List α} {σ τ : Equiv.Perm Nat}

/-- What stands at a place of the first list stands in the second one where `σ` sends the place. -/
def Rearranged (σ : Equiv.Perm Nat) (l l' : List α) : Prop := ∀ i, l'[σ i]? = l[i]?

namespace Rearranged

theorem symm (h : Rearranged σ l l') : Rearranged σ.symm l' l := by
  intro i
  rw [← h (σ.symm i), Equiv.apply_symm_apply]

theorem trans (h : Rearranged σ l l') (h' : Rearranged τ l' l'') :
    Rearranged (σ.trans τ) l l'' := fun i => (h' (σ i)).trans (h i)

theorem lt_length_iff (h : Rearranged σ l l') {i : Nat} : σ i < l'.length ↔ i < l.length := by
  rw [← Nat.not_le, ← Nat.not_le, ← List.getElem?_eq_none_iff, h i, List.getElem?_eq_none_iff]

/-- **The places of the first list go to those of the second one.** -/
theorem range_perm (h : Rearranged σ l l') :
    ((List.range l.length).map σ).Perm (List.range l'.length) := by
  have hnodup : ((List.range l.length).map σ).Nodup :=
    (List.nodup_map_iff σ.injective).mpr List.nodup_range
  refine (List.perm_ext_iff_of_nodup hnodup List.nodup_range).mpr fun j => ?_
  rw [List.mem_map, List.mem_range]
  constructor
  · rintro ⟨i, hi, rfl⟩
    exact h.lt_length_iff.mpr (List.mem_range.mp hi)
  · intro hj
    rw [← σ.apply_symm_apply j, h.lt_length_iff] at hj
    exact ⟨σ.symm j, List.mem_range.mpr hj, σ.apply_symm_apply j⟩

end Rearranged

/-- A list is what stands at its places. -/
theorem filterMap_getElem?_range (l : List α) :
    (List.range l.length).filterMap (fun i => l[i]?) = l := by
  induction l with
  | nil => rfl
  | cons a l ih => simpa [List.range_succ_eq_map, List.filterMap_map, Function.comp_def] using ih

/-- Rearranged lists have the same elements. -/
theorem Rearranged.perm (h : Rearranged σ l l') : l.Perm l' := by
  have hplaces := h.range_perm.filterMap fun i => l'[i]?
  have hsame : (fun i => l'[i]?) ∘ σ = fun i => l[i]? := funext h
  rwa [filterMap_getElem?_range, List.filterMap_map, hsame, filterMap_getElem?_range] at hplaces

/-- The first place stays, and the places behind it are permuted. -/
def keepFirst (σ : Equiv.Perm Nat) : Equiv.Perm Nat where
  toFun
    | 0 => 0
    | i + 1 => σ i + 1
  invFun
    | 0 => 0
    | i + 1 => σ.symm i + 1
  left_inv := by
    rintro (_ | i)
    · rfl
    · exact congrArg Nat.succ (σ.symm_apply_apply i)
  right_inv := by
    rintro (_ | i)
    · rfl
    · exact congrArg Nat.succ (σ.apply_symm_apply i)

/-- **Of two lists with the same elements the places can be matched.** -/
theorem exists_rearranged (h : l.Perm l') : ∃ σ, Rearranged σ l l' := by
  induction h with
  | nil => exact ⟨Equiv.refl Nat, fun _ => rfl⟩
  | cons a _ ih =>
    obtain ⟨σ, hσ⟩ := ih
    refine ⟨keepFirst σ, fun i => ?_⟩
    cases i with
    | zero => rfl
    | succ i => exact hσ i
  | swap a b l =>
    refine ⟨Equiv.swap 0 1, fun i => ?_⟩
    match i with
    | 0 => rfl
    | 1 => rfl
    | i + 2 =>
      rw [Equiv.swap_apply_of_ne_of_ne (Nat.succ_ne_zero _) (by omega)]
      rfl
  | trans _ _ ih ih' =>
    obtain ⟨σ, hσ⟩ := ih
    obtain ⟨τ, hτ⟩ := ih'
    exact ⟨σ.trans τ, hσ.trans hτ⟩

end MemberRefs
