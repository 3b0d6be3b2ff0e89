import Mathlib.Data.List.Nodup
import MemberRefs.Json.Record
import MemberRefs.Proofs.Except

/-!
# Records that were written

A record is written as an object of all its fields, each key once, so every field is found again
(`fields?_obj`). How deep a value is nested is told by its parts (`depth_obj_le`, `depth_arr_le`). A
value that may be absent is read back when it is never written as `null` itself (`nullable_ofOption`).
-/

namespace MemberRefs.Json

/-! ## 1. Depth -/

theorem depthItems_le {items : List Json} {n : Nat} :
    depthItems items ≤ n ↔ ∀ item ∈ items, item.depth ≤ n := by
  induction items with
  | nil => exact iff_of_true (Nat.zero_le n) fun _ h => absurd h List.not_mem_nil
  | cons item items ih =>
    rw [depthItems, Nat.max_le, ih, List.forall_mem_cons]

theorem depthMembers_le {members : List (String × Json)} {n : Nat} :
    depthMembers members ≤ n ↔ ∀ member ∈ members, member.2.depth ≤ n := by
  induction members with
  | nil => exact iff_of_true (Nat.zero_le n) fun _ h => absurd h List.not_mem_nil
  | cons member members ih =>
    rw [depthMembers, Nat.max_le, ih, List.forall_mem_cons]

/-- **An array is one level deeper than its items.** -/
theorem depth_arr_le {items : List Json} {n : Nat} :
    (Json.arr items).depth ≤ n ↔ ∃ k, n = k + 1 ∧ ∀ item ∈ items, item.depth ≤ k := by
  rw [depth]
  constructor
  · intro h
    obtain ⟨k, rfl⟩ := Nat.exists_eq_add_of_lt h
    refine ⟨depthItems items + k, rfl, depthItems_le.mp (Nat.le_add_right _ k)⟩
  · rintro ⟨k, rfl, hitems⟩
    exact Nat.succ_le_succ (depthItems_le.mpr hitems)

/-- **An object is one level deeper than its members.** -/
theorem depth_obj_le {members : List (String × Json)} {n : Nat} :
    (Json.obj members).depth ≤ n ↔ ∃ k, n = k + 1 ∧ ∀ member ∈ members, member.2.depth ≤ k := by
  rw [depth]
  constructor
  · intro h
    obtain ⟨k, rfl⟩ := Nat.exists_eq_add_of_lt h
    refine ⟨depthMembers members + k, rfl, depthMembers_le.mp (Nat.le_add_right _ k)⟩
  · rintro ⟨k, rfl, hmembers⟩
    exact Nat.succ_le_succ (depthMembers_le.mpr hmembers)

/-! ## 2. Fields -/

/-- A key that occurs once leads to its value. -/
theorem field?_of_mem {members : List (String × Json)} (hnodup : (members.map Prod.fst).Nodup)
    {member : String × Json} (hmem : member ∈ members) :
    field? members member.1 = some (some member.2) := by
  have hfilter : members.filter (fun other => other.1 == member.1) = [member] := by
    obtain ⟨before, after, rfl⟩ := List.append_of_mem hmem
    rw [List.map_append, List.map_cons, List.nodup_middle, List.nodup_cons, List.mem_append] at hnodup
    obtain ⟨hnew, _⟩ := hnodup
    have hother : ∀ others : List (String × Json), member.1 ∉ others.map Prod.fst →
        others.filter (fun other => other.1 == member.1) = [] := by
      intro others hothers
      refine List.filter_eq_nil_iff.mpr fun other hmem heq => hothers ?_
      rw [← beq_iff_eq.mp heq]
      exact List.mem_map_of_mem hmem
    rw [List.filter_append, List.filter_cons, if_pos (beq_self_eq_true _),
      hother before fun h => hnew (Or.inl h), hother after fun h => hnew (Or.inr h)]
    rfl
  rw [field?, hfilter]

/-- **Every field of a written record is found.** -/
theorem fields?_obj {members : List (String × Json)} {names : List String}
    (hnames : members.map Prod.fst = names) (hnodup : names.Nodup) :
    fields? names (.obj members) = some (members.map fun member => some member.2) := by
  subst hnames
  rw [fields?, List.mapM_map]
  exact mapM_eq_pure_map fun member hmem => field?_of_mem hnodup hmem

/-! ## 3. Values that may be absent -/

theorem nullable_of_ne_null {α : Type} {read : Json → Option α} {json : Json} (h : json ≠ .null) :
    nullable read json = (read json).map some := by
  cases json with
  | null => exact absurd rfl h
  | bool _ | num _ | str _ | arr _ | obj _ | broken => rfl

/-- A value that may be absent reads back. -/
theorem nullable_ofOption {α : Type} {read : Json → Option α} {write : α → Json} {value : Option α}
    (hnull : ∀ a, write a ≠ .null) (hread : ∀ a, value = some a → read (write a) = some a) :
    nullable read (.ofOption (value.map write)) = some value := by
  cases value with
  | none => rfl
  | some a =>
    have ha : nullable read (write a) = some (some a) := by
      rw [nullable_of_ne_null (hnull a), hread a rfl]
      rfl
    exact ha

/-- A value that was read and is present was read from something. -/
theorem exists_of_nullable {α : Type} {read : Json → Option α} {json : Json} {a : α}
    (h : nullable read json = some (some a)) : read json = some a := by
  by_cases hnull : json = .null
  · subst hnull
    cases h
  · rw [nullable_of_ne_null hnull] at h
    obtain ⟨_, hread, heq⟩ := Option.map_eq_some_iff.mp h
    cases heq
    exact hread

/-! ## 4. Lists -/

/-- What a run over a list collects is what its steps give. -/
theorem forall_of_mapM_eq_some {α β : Type} {p : β → Prop} {f : α → Option β}
    (hf : ∀ a b, f a = some b → p b) : ∀ {as : List α} {bs : List β}, as.mapM f = some bs →
    ∀ b ∈ bs, p b
  | [], bs, h => by
      cases h
      exact fun _ hb => absurd hb List.not_mem_nil
  | a :: as, bs, h => by
      rw [List.mapM_cons] at h
      obtain ⟨b, hb, h⟩ := Option.bind_eq_some_iff.mp h
      obtain ⟨bs', hbs, h⟩ := Option.bind_eq_some_iff.mp h
      cases h
      exact List.forall_mem_cons.mpr ⟨hf a b hb, forall_of_mapM_eq_some hf hbs⟩

/-- A list reads back when each of its elements does. -/
theorem mapM_map_eq_some {α β : Type} {read : β → Option α} {write : α → β} {as : List α}
    (h : ∀ a ∈ as, read (write a) = some a) : (as.map write).mapM read = some as := by
  rw [List.mapM_map]
  exact (mapM_eq_pure_map h).trans (congrArg some (List.map_id as))

end MemberRefs.Json
