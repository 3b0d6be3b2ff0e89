import Mathlib.Data.List.Sigma
import MemberRefs.Proofs.Table.Built

/-!
# The declarations behind the numbers

A table speaks of classes and members by their numbers, a unit has them as declarations at paths. Here the
two are brought together.

* `map_memberDecl?_membersOf`: the numbers that a class lists lead to the members it declares, in order.
* `decl?_of_mem_declaredMembers`: the path of a member leads to its declaration.
* `nodup_map_path_declaredMembers`: no two members have one path.
-/

namespace MemberRefs.SymbolTable

variable {unit : SourceUnit} {options : Options} {table : SymbolTable}

/-! ## 1. Classes and the members they declare -/

/-- The declaration of a member. -/
def memberDecl? (table : SymbolTable) (m : MemberId) : Option MemberDecl :=
  (table.members[m]?).map MemberInfo.decl

theorem memberDecl?_withFuncs (table : SymbolTable) (owners : List (Option (ClassId × MemberId))) :
    (table.withFuncs owners).memberDecl? = table.memberDecl? := by
  funext m
  rw [memberDecl?, getElem?_members_withFuncs, Option.map_map]
  rfl

/-- The classes of a table are those of its unit, in order. -/
theorem map_decl_classes {bases : List (List ClassId)} (hlen : bases.length = unit.classes.length) :
    (ofClasses unit bases).classes.map ClassInfo.decl = unit.classes := by
  have hzip : (bases.zip (numberMembers 0 unit.classes)).length = unit.classes.length := by
    simp [hlen, length_numberMembers]
  rw [ofClasses, List.map_map]
  exact List.map_fst_zip (Nat.le_of_eq hzip.symm)

/-- What a class introduces are the members it declares, in order. -/
theorem map_decl_membersAt {c : ClassId} {decl : ClassDecl} (hc : unit.classes[c]? = some decl) :
    (membersAt unit c).map MemberInfo.decl = decl.members := by
  rw [← map_fst_classPositions, List.getElem?_map, Option.map_eq_some_iff] at hc
  obtain ⟨⟨decl, i⟩, hc, rfl⟩ := hc
  rw [membersAt, hc]
  calc (membersIn ((decl, i), c)).map MemberInfo.decl
      = decl.members.zipIdx.map Prod.fst := List.map_map
    _ = decl.members := List.zipIdx_map_fst 0 _

/-- The numbers of a class lead to the members it declares, before any function is known. -/
theorem map_memberDecl?_ofClasses {bases : List (List ClassId)}
    (hlen : bases.length = unit.classes.length) {c : ClassId} {decl : ClassDecl}
    (hc : unit.classes[c]? = some decl) :
    ((ofClasses unit bases).membersOf c).map (ofClasses unit bases).memberDecl? =
      decl.members.map some := by
  calc ((ofClasses unit bases).membersOf c).map (ofClasses unit bases).memberDecl?
      = (((ofClasses unit bases).membersOf c).map fun m => (declaredMembers unit)[m]?).map
          (Option.map MemberInfo.decl) := List.map_map.symm
    _ = ((membersAt unit c).map some).map (Option.map MemberInfo.decl) := by
        rw [(membersOf_leads hlen c).2]
    _ = ((membersAt unit c).map MemberInfo.decl).map some := by
        rw [List.map_map, List.map_map]
        rfl
    _ = decl.members.map some := by rw [map_decl_membersAt hc]

/-- **The numbers that a class lists lead to the members it declares**, in order. -/
theorem map_memberDecl?_membersOf (h : build unit options = .ok table) {c : ClassId}
    {info : ClassInfo} (hc : table.classes[c]? = some info) :
    (table.membersOf c).map table.memberDecl? = info.decl.members.map some := by
  obtain ⟨bases, owners, _, _, hlink, _, _, rfl⟩ := build_eq_ok h
  have hlen := length_of_linkBases hlink
  have hdecl : unit.classes[c]? = some info.decl := by
    rw [← map_decl_classes hlen, List.getElem?_map]
    exact congrArg (Option.map ClassInfo.decl) hc
  rw [memberDecl?_withFuncs]
  exact map_memberDecl?_ofClasses hlen hdecl

/-! ## 2. Paths of members -/

/-- A class stands at its position. -/
theorem getElem?_of_mem_classPositions {decl : ClassDecl} {i : Nat}
    (h : (decl, i) ∈ classPositions unit) : unit.decls[i]? = some (.ofClass decl) := by
  obtain ⟨⟨top, j⟩, htop, heq⟩ := List.mem_filterMap.mp h
  obtain ⟨decl', hclass, heq⟩ := Option.map_eq_some_iff.mp heq
  cases heq
  cases top with
  | ofClass d =>
    cases hclass
    exact List.mem_zipIdx_iff_getElem?.mp htop
  | ofFunc f => cases hclass

/-- The positions of classes are different ones. -/
theorem pairwise_classPositions (unit : SourceUnit) :
    (classPositions unit).Pairwise fun a b => a.2 ≠ b.2 := by
  have hpositions : unit.decls.zipIdx.Pairwise fun a b => a.2 ≠ b.2 :=
    List.pairwise_map.mp (List.nodup_zipIdx_map_snd unit.decls)
  refine List.pairwise_filterMap.mpr (hpositions.imp fun {a b} hne x hx y hy => ?_)
  obtain ⟨_, _, rfl⟩ := Option.map_eq_some_iff.mp hx
  obtain ⟨_, _, rfl⟩ := Option.map_eq_some_iff.mp hy
  exact hne

/-- What one class introduces: a member of it, at its place in the class. -/
theorem mem_membersIn {decl : ClassDecl} {i : Nat} {owner : ClassId} {info : MemberInfo} :
    info ∈ membersIn ((decl, i), owner) ↔
      ∃ j member, decl.members[j]? = some member ∧ info = ⟨owner, member, .member i j, []⟩ := by
  constructor
  · intro h
    obtain ⟨⟨member, j⟩, hmember, rfl⟩ := List.mem_map.mp h
    exact ⟨j, member, List.mem_zipIdx_iff_getElem?.mp hmember, rfl⟩
  · rintro ⟨j, member, hmember, rfl⟩
    exact List.mem_map.mpr ⟨(member, j), List.mem_zipIdx_iff_getElem?.mpr hmember, rfl⟩

/-- **The path of a member leads to its declaration**, in a class. -/
theorem decl?_of_mem_declaredMembers {info : MemberInfo} (h : info ∈ declaredMembers unit) :
    unit.decl? info.path = some info.decl.toDecl ∧ ∃ i j, info.path = .member i j := by
  obtain ⟨⟨⟨decl, i⟩, owner⟩, hcls, hinfo⟩ := List.mem_flatMap.mp h
  obtain ⟨j, member, hmember, rfl⟩ := mem_membersIn.mp hinfo
  have hpos : (decl, i) ∈ classPositions unit := List.fst_mem_of_mem_zipIdx hcls
  refine ⟨?_, i, j, rfl⟩
  simp [SourceUnit.decl?, getElem?_of_mem_classPositions hpos, hmember]

/-- **No two members have one path.** -/
theorem nodup_map_path_declaredMembers (unit : SourceUnit) :
    ((declaredMembers unit).map MemberInfo.path).Nodup := by
  have hclasses : (classPositions unit).zipIdx.Pairwise fun a b => a.1.2 ≠ b.1.2 := by
    have hfst : ((classPositions unit).zipIdx.map Prod.fst).Pairwise fun a b => a.2 ≠ b.2 := by
      rw [List.zipIdx_map_fst]
      exact pairwise_classPositions unit
    rwa [List.pairwise_map] at hfst
  have hdeclared : declaredMembers unit = (classPositions unit).zipIdx.flatMap membersIn := rfl
  rw [hdeclared, List.map_flatMap, List.nodup_flatMap]
  constructor
  · -- inside a class the places differ
    rintro ⟨⟨decl, i⟩, owner⟩ _
    have hplaces : decl.members.zipIdx.Pairwise fun a b => a.2 ≠ b.2 :=
      List.pairwise_map.mp (List.nodup_zipIdx_map_snd decl.members)
    refine List.pairwise_map.mpr (List.pairwise_map.mpr (hplaces.imp fun hne heq => hne ?_))
    exact (DeclPath.member.inj heq).2
  · -- of two classes the positions differ
    refine hclasses.imp fun {a b} hne => List.disjoint_left.mpr fun path ha hb => hne ?_
    obtain ⟨info, hinfo, rfl⟩ := List.mem_map.mp ha
    obtain ⟨info', hinfo', heq⟩ := List.mem_map.mp hb
    obtain ⟨j, member, _, rfl⟩ := mem_membersIn.mp hinfo
    obtain ⟨j', member', _, rfl⟩ := mem_membersIn.mp hinfo'
    exact (DeclPath.member.inj heq).1.symm

end MemberRefs.SymbolTable
