import Mathlib.Data.List.Perm.Basic
import Mathlib.Data.Prod.Basic
import MemberRefs.Proofs.Reorder.Renumbered
import MemberRefs.Proofs.Table.Acceptance
import MemberRefs.Proofs.Table.Bodies

/-!
# Units in another order

A unit whose top-level declarations are moved to other places satisfies the same conditions, and its
declarations are found at the moved paths. Where the declarations are moved decides which numbers classes,
members and functions get instead of their old ones (`Induced`).

* `SourceUnit.Accepted.of_perm`: the conditions on a unit do not depend on the order.
* `decl?_move`: a declaration is found at its moved path.
* `exists_induced`: there are such numbers, whatever the order is.
-/

namespace MemberRefs

open Relation

variable {unit unit' : SourceUnit} {π : Equiv.Perm Nat}

/-! ## 1. Conditions on a unit -/

namespace SourceUnit

theorem classes_perm (h : unit.decls.Perm unit'.decls) : unit.classes.Perm unit'.classes :=
  h.filterMap TopDecl.class?

theorem hasClass_iff (h : unit.decls.Perm unit'.decls) (name : String) :
    unit.HasClass name ↔ unit'.HasClass name := by
  unfold HasClass
  simp only [(classes_perm h).mem_iff]

theorem directBase_eq (h : unit.decls.Perm unit'.decls) : unit.DirectBase = unit'.DirectBase := by
  funext name base
  unfold DirectBase
  simp only [(classes_perm h).mem_iff]

theorem nodeCount_eq (h : unit.decls.Perm unit'.decls) : unit.nodeCount = unit'.nodeCount :=
  h.foldl_eq' (fun a _ b _ count => Nat.add_right_comm count a.nodeCount b.nodeCount) 0

/-- **The conditions on a unit do not depend on the order of its declarations.** -/
theorem Accepted.of_perm {options : Options} (h : unit.decls.Perm unit'.decls)
    (haccepted : unit.Accepted options) : unit'.Accepted options where
  size := nodeCount_eq h ▸ haccepted.size
  distinct := by
    have hnames := (classes_perm h).map fun c => c.name.val
    exact hnames.nodup_iff.mp haccepted.distinct
  known := fun c hc base hbase =>
    (hasClass_iff h base.val).mp (haccepted.known c ((classes_perm h).mem_iff.mpr hc) base hbase)
  noCycle := fun c hc hcycle =>
    haccepted.noCycle c ((classes_perm h).mem_iff.mpr hc) (directBase_eq h ▸ hcycle)
  linkable := fun decl hdecl f qualifier hf hq => by
    obtain ⟨c, hc, hname, hmatched⟩ := haccepted.linkable decl (h.mem_iff.mpr hdecl) f qualifier hf hq
    exact ⟨c, (classes_perm h).mem_iff.mp hc, hname, hmatched⟩

end SourceUnit

namespace SymbolTable

/-- **A unit has a table exactly when it has one in another order.** -/
theorem exists_build_iff (h : unit.decls.Perm unit'.decls) (options : Options) :
    (∃ table, build unit options = .ok table) ↔ ∃ table', build unit' options = .ok table' := by
  have hforward : ∀ {unit unit' : SourceUnit}, unit.decls.Perm unit'.decls →
      (∃ table, build unit options = .ok table) → ∃ table', build unit' options = .ok table' := by
    rintro unit unit' hperm ⟨table, htable⟩
    cases hbuild : build unit' options with
    | ok table' => exact ⟨table', rfl⟩
    | error e =>
      have haccepted := (accepted_of_build htable).of_perm hperm
      exact absurd haccepted (firstDefect_of_build hbuild).not_accepted
  exact ⟨hforward h, hforward h.symm⟩

end SymbolTable

/-! ## 2. Moved declarations -/

/-- **A declaration is found at its moved path.** -/
theorem decl?_move (h : Rearranged π unit.decls unit'.decls) (path : DeclPath) :
    unit'.decl? (path.move π) = unit.decl? path := by
  induction path with
  | top i => simp only [DeclPath.move, SourceUnit.decl?, h i]
  | member i j => simp only [DeclPath.move, SourceUnit.decl?, h i]
  | param func k ih => simp only [DeclPath.move, SourceUnit.decl?, ih]
  | «variable» func k ih => simp only [DeclPath.move, SourceUnit.decl?, ih]

/-! ## 3. Numbers by places -/

/-- The members of a unit with their paths, class by class. -/
def memberSites (unit : SourceUnit) : List (MemberDecl × DeclPath) :=
  (SymbolTable.declaredMembers unit).map fun info => (info.decl, info.path)

/-- **The numbers that a change of order induces**: classes, members and functions are numbered by their
    places, and these are known when it is known where the top-level declarations are moved. -/
structure Induced (r : Renumbering) (unit unit' : SourceUnit) : Prop where
  decls : Rearranged r.decls unit.decls unit'.decls
  classes : Rearranged r.classes ((SymbolTable.classPositions unit).map (Prod.map id r.decls))
    (SymbolTable.classPositions unit')
  members : Rearranged r.members ((memberSites unit).map (Prod.map id (DeclPath.move r.decls)))
    (memberSites unit')
  funcs : Rearranged r.funcs (unit.bodySites.map (Prod.map (DeclPath.move r.decls) id)) unit'.bodySites

/-- Moved elements are rearranged ones of another list, when they are the elements of that list. -/
theorem exists_rearranged_map {α : Type} {sites sites' : List α} {move : α → α}
    (hinjective : move.Injective) (hsurjective : move.Surjective) (hnodup : sites.Nodup)
    (hnodup' : sites'.Nodup) (hmem : ∀ a, move a ∈ sites' ↔ a ∈ sites) :
    ∃ σ, Rearranged σ (sites.map move) sites' := by
  refine exists_rearranged ((List.perm_ext_iff_of_nodup (hnodup.map hinjective) hnodup').mpr ?_)
  intro b
  obtain ⟨a, rfl⟩ := hsurjective b
  rw [List.mem_map_of_injective hinjective, hmem]

theorem mem_classPositions {c : ClassDecl} {i : Nat} :
    (c, i) ∈ SymbolTable.classPositions unit ↔ unit.decls[i]? = some (.ofClass c) := by
  refine ⟨SymbolTable.getElem?_of_mem_classPositions, fun hdecl => ?_⟩
  exact List.mem_filterMap.mpr ⟨(.ofClass c, i), List.mem_zipIdx_iff_getElem?.mpr hdecl, rfl⟩

theorem mem_memberSites {member : MemberDecl} {path : DeclPath} :
    (member, path) ∈ memberSites unit ↔
      ∃ i j c, path = .member i j ∧ unit.decls[i]? = some (.ofClass c) ∧
        c.members[j]? = some member := by
  constructor
  · intro hsite
    obtain ⟨info, hinfo, heq⟩ := List.mem_map.mp hsite
    cases heq
    obtain ⟨⟨⟨c, i⟩, owner⟩, hclass, hmember⟩ := List.mem_flatMap.mp hinfo
    obtain ⟨j, member, hj, rfl⟩ := SymbolTable.mem_membersIn.mp hmember
    exact ⟨i, j, c, rfl, mem_classPositions.mp (List.fst_mem_of_mem_zipIdx hclass), hj⟩
  · rintro ⟨i, j, c, rfl, hclass, hj⟩
    obtain ⟨owner, howner⟩ := List.getElem?_of_mem (mem_classPositions.mpr hclass)
    refine List.mem_map.mpr ⟨⟨owner, member, .member i j, []⟩, List.mem_flatMap.mpr ?_, rfl⟩
    exact ⟨((c, i), owner), List.mem_zipIdx_iff_getElem?.mpr howner,
      SymbolTable.mem_membersIn.mpr ⟨j, member, hj, rfl⟩⟩

theorem nodup_memberSites (unit : SourceUnit) : (memberSites unit).Nodup := by
  have hpaths := SymbolTable.nodup_map_path_declaredMembers unit
  refine List.Nodup.of_map Prod.snd ?_
  rwa [memberSites, List.map_map]

theorem mem_memberSites_move (h : Rearranged π unit.decls unit'.decls) {member : MemberDecl}
    {path : DeclPath} :
    (member, path.move π) ∈ memberSites unit' ↔ (member, path) ∈ memberSites unit := by
  rw [mem_memberSites, mem_memberSites]
  constructor
  · rintro ⟨i, j, c, hpath, hclass, hj⟩
    have hback : DeclPath.move π (.member (π.symm i) j) = .member i j :=
      congrArg (DeclPath.member · j) (π.apply_symm_apply i)
    obtain rfl := DeclPath.move_injective π (hpath.trans hback.symm)
    exact ⟨π.symm i, j, c, rfl, (h.symm i).trans hclass, hj⟩
  · rintro ⟨i, j, c, rfl, hclass, hj⟩
    exact ⟨π i, j, c, rfl, (h i).trans hclass, hj⟩

/-- **Every change of order induces new numbers.** -/
theorem exists_induced (h : Rearranged π unit.decls unit'.decls) :
    ∃ r : Renumbering, r.decls = π ∧ Induced r unit unit' := by
  have hpath := DeclPath.move_injective π
  have hpath' := DeclPath.move_surjective π
  obtain ⟨classes, hclasses⟩ : ∃ σ, Rearranged σ
      ((SymbolTable.classPositions unit).map (Prod.map id π)) (SymbolTable.classPositions unit') := by
    have hnodup : ∀ unit : SourceUnit, (SymbolTable.classPositions unit).Nodup := fun unit =>
      (SymbolTable.pairwise_classPositions unit).imp fun hne heq => hne (congrArg Prod.snd heq)
    refine exists_rearranged_map (Function.Injective.prodMap Function.injective_id π.injective)
      (Function.Surjective.prodMap Function.surjective_id π.surjective) (hnodup unit) (hnodup unit') ?_
    intro ⟨c, i⟩
    rw [Prod.map, mem_classPositions, mem_classPositions, h i, id_eq]
  obtain ⟨members, hmembers⟩ : ∃ σ, Rearranged σ
      ((memberSites unit).map (Prod.map id (DeclPath.move π))) (memberSites unit') := by
    refine exists_rearranged_map (Function.Injective.prodMap Function.injective_id hpath)
      (Function.Surjective.prodMap Function.surjective_id hpath') (nodup_memberSites unit)
      (nodup_memberSites unit') ?_
    exact fun ⟨member, path⟩ => mem_memberSites_move h
  obtain ⟨funcs, hfuncs⟩ : ∃ σ, Rearranged σ
      (unit.bodySites.map (Prod.map (DeclPath.move π) id)) unit'.bodySites := by
    have hnodup : ∀ unit : SourceUnit, unit.bodySites.Nodup := fun unit =>
      unit.pairwise_bodySites.imp fun hlt heq => absurd (heq ▸ hlt) (List.lt_irrefl _)
    refine exists_rearranged_map (Function.Injective.prodMap hpath Function.injective_id)
      (Function.Surjective.prodMap hpath' Function.surjective_id) (hnodup unit) (hnodup unit') ?_
    intro ⟨path, f⟩
    rw [Prod.map, SourceUnit.mem_bodySites, SourceUnit.mem_bodySites, SourceUnit.HasBody,
      SourceUnit.HasBody, decl?_move h, id_eq]
  exact ⟨⟨π, classes, members, funcs⟩, rfl, h, hclasses, hmembers, hfuncs⟩

end MemberRefs
