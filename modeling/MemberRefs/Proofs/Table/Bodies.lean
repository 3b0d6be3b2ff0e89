import Mathlib.Data.List.Basic
import MemberRefs.Tree.DeclRef

/-!
# Functions with a body

The functions of a unit that have a body, with their paths: the methods defined in their class and the
functions at the top level. Paths are in source order when their positions are.

* `mem_bodySites`: the list has exactly the functions with a body.
* `pairwise_bodySites`: it is in source order, so it has each of them once.
-/

namespace MemberRefs

/-! ## 1. The list -/

/-- The way from the top of the unit to a declaration, in numbers. -/
def DeclPath.position : DeclPath → List Nat
  | .top i => [i]
  | .member i j => [i, j]
  | .param func k | .variable func k => func.position ++ [k]

namespace SourceUnit

variable {unit : SourceUnit}

/-- A function with a body stands at the path. -/
def HasBody (unit : SourceUnit) (path : DeclPath) (f : FuncDecl) : Prop :=
  unit.decl? path = some (.ofFunc f) ∧ f.body.isSome = true

/-- The function with a body that a member of a class is, with its path. -/
def memberBody? (i : Nat) : MemberDecl × Nat → Option (DeclPath × FuncDecl)
  | (.field _, _) => none
  | (.method f, j) => if f.body.isSome then some (.member i j, f) else none

/-- The functions with a body that a top-level declaration holds, with their paths. -/
def bodiesAt : TopDecl × Nat → List (DeclPath × FuncDecl)
  | (.ofClass d, i) => d.members.zipIdx.filterMap (memberBody? i)
  | (.ofFunc f, i) => if f.body.isSome then [(.top i, f)] else []

/-- The functions with a body, with their paths. -/
def bodySites (unit : SourceUnit) : List (DeclPath × FuncDecl) := unit.decls.zipIdx.flatMap bodiesAt

theorem memberBody?_eq_some {i j : Nat} {member : MemberDecl} {path : DeclPath} {f : FuncDecl} :
    memberBody? i (member, j) = some (path, f) ↔
      member = .method f ∧ path = .member i j ∧ f.body.isSome = true := by
  cases member with
  | field _ => exact iff_of_false (fun h => by cases h) fun h => by cases h.1
  | method g =>
    rw [memberBody?]
    split
    · rename_i hbody
      constructor
      · intro h
        cases h
        exact ⟨rfl, rfl, hbody⟩
      · rintro ⟨heq, rfl, _⟩
        cases heq
        rfl
    · rename_i hbody
      refine iff_of_false (fun h => by cases h) ?_
      rintro ⟨heq, _, hbody'⟩
      cases heq
      exact hbody hbody'

/-- What a top-level declaration holds stands at its position or below it. -/
theorem mem_bodiesAt {decl : TopDecl} {i : Nat} {path : DeclPath} {f : FuncDecl} :
    (path, f) ∈ bodiesAt (decl, i) ↔ f.body.isSome = true ∧
      ((∃ d j, decl = .ofClass d ∧ d.members[j]? = some (.method f) ∧ path = .member i j) ∨
        decl = .ofFunc f ∧ path = .top i) := by
  cases decl with
  | ofClass d =>
    constructor
    · intro h
      obtain ⟨⟨member, j⟩, hmember, hsite⟩ := List.mem_filterMap.mp h
      obtain ⟨rfl, rfl, hbody⟩ := memberBody?_eq_some.mp hsite
      exact ⟨hbody, Or.inl ⟨d, j, rfl, List.mem_zipIdx_iff_getElem?.mp hmember, rfl⟩⟩
    · rintro ⟨hbody, ⟨d', j, heq, hmember, rfl⟩ | ⟨heq, _⟩⟩
      · cases heq
        refine List.mem_filterMap.mpr ⟨(.method f, j), List.mem_zipIdx_iff_getElem?.mpr hmember, ?_⟩
        exact memberBody?_eq_some.mpr ⟨rfl, rfl, hbody⟩
      · cases heq
  | ofFunc g =>
    rw [bodiesAt]
    split
    · rename_i hbody
      rw [List.mem_singleton]
      constructor
      · intro h
        cases h
        exact ⟨hbody, Or.inr ⟨rfl, rfl⟩⟩
      · rintro ⟨_, ⟨_, _, heq, _⟩ | ⟨heq, rfl⟩⟩
        · cases heq
        · cases heq
          rfl
    · rename_i hbody
      refine iff_of_false List.not_mem_nil ?_
      rintro ⟨hbody', ⟨_, _, heq, _⟩ | ⟨heq, _⟩⟩
      · cases heq
      · cases heq
        exact hbody hbody'

/-- **The functions with a body** are those at the paths of the unit that have one. -/
theorem mem_bodySites {path : DeclPath} {f : FuncDecl} :
    (path, f) ∈ unit.bodySites ↔ unit.HasBody path f := by
  have hsite : (path, f) ∈ unit.bodySites ↔
      ∃ decl i, unit.decls[i]? = some decl ∧ (path, f) ∈ bodiesAt (decl, i) := by
    simp only [bodySites, List.mem_flatMap, Prod.exists, List.mem_zipIdx_iff_getElem?]
  rw [hsite, HasBody]
  constructor
  · rintro ⟨decl, i, hdecl, hmem⟩
    obtain ⟨hbody, ⟨d, j, rfl, hmember, rfl⟩ | ⟨rfl, rfl⟩⟩ := mem_bodiesAt.mp hmem
    · exact ⟨by simp [decl?, hdecl, hmember, MemberDecl.toDecl], hbody⟩
    · exact ⟨by simp [decl?, hdecl], hbody⟩
  · rintro ⟨hpath, hbody⟩
    rcases path with i | ⟨i, j⟩ | ⟨func, k⟩ | ⟨func, k⟩
    · unfold decl? at hpath
      split at hpath
      · cases hpath
      · rename_i g hdecl
        cases hpath
        exact ⟨_, i, hdecl, mem_bodiesAt.mpr ⟨hbody, Or.inr ⟨rfl, rfl⟩⟩⟩
      · cases hpath
    · unfold decl? at hpath
      split at hpath
      · rename_i d hdecl
        obtain ⟨member, hmember, htoDecl⟩ := Option.map_eq_some_iff.mp hpath
        cases member with
        | field _ => cases htoDecl
        | method g =>
          cases htoDecl
          exact ⟨_, i, hdecl, mem_bodiesAt.mpr ⟨hbody, Or.inl ⟨d, j, rfl, hmember, rfl⟩⟩⟩
      · cases hpath
    -- neither a parameter nor a local variable is a function
    · unfold decl? at hpath
      split at hpath
      · obtain ⟨_, _, hparam⟩ := Option.map_eq_some_iff.mp hpath
        cases hparam
      · cases hpath
    · unfold decl? at hpath
      split at hpath
      · obtain ⟨_, _, hlocal⟩ := Option.map_eq_some_iff.mp hpath
        cases hlocal
      · cases hpath

/-! ## 2. Source order -/

/-- Places in a list are increasing. -/
theorem pairwise_zipIdx {α : Type} (as : List α) : as.zipIdx.Pairwise fun a b => a.2 < b.2 := by
  refine List.pairwise_map.mp ?_
  rw [List.zipIdx_map_snd]
  exact List.pairwise_lt_range'

/-- **The functions with a body are in source order.** -/
theorem pairwise_bodySites (unit : SourceUnit) :
    unit.bodySites.Pairwise fun a b => a.1.position < b.1.position := by
  refine List.pairwise_flatMap.mpr ⟨?_, (pairwise_zipIdx unit.decls).imp ?_⟩
  · rintro ⟨decl, i⟩ _
    cases decl with
    | ofClass d =>
      refine List.pairwise_filterMap.mpr ((pairwise_zipIdx d.members).imp fun hlt a ha b hb => ?_)
      obtain ⟨_, ha, _⟩ := memberBody?_eq_some.mp ha
      obtain ⟨_, hb, _⟩ := memberBody?_eq_some.mp hb
      rw [ha, hb]
      exact List.cons_lt_cons_iff.mpr (Or.inr ⟨rfl, List.cons_lt_cons_iff.mpr (Or.inl hlt)⟩)
    | ofFunc f =>
      rw [bodiesAt]
      split
      · exact List.pairwise_singleton _ _
      · exact List.Pairwise.nil
  · rintro ⟨decl, i⟩ ⟨decl', i'⟩ hlt ⟨path, f⟩ ha ⟨path', f'⟩ hb
    have hfirst : ∀ {decl : TopDecl} {i : Nat} {path : DeclPath} {f : FuncDecl},
        (path, f) ∈ bodiesAt (decl, i) → ∃ rest, path.position = i :: rest := by
      intro decl i path f hmem
      obtain ⟨_, ⟨_, j, _, _, rfl⟩ | ⟨_, rfl⟩⟩ := mem_bodiesAt.mp hmem
      · exact ⟨[j], rfl⟩
      · exact ⟨[], rfl⟩
    obtain ⟨rest, ha⟩ := hfirst ha
    obtain ⟨rest', hb⟩ := hfirst hb
    rw [ha, hb]
    exact List.cons_lt_cons_iff.mpr (Or.inl hlt)

end SourceUnit

end MemberRefs
