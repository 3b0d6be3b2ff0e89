import MemberRefs.Proofs.Table.Acceptance
import MemberRefs.Proofs.Table.Bodies
import MemberRefs.Proofs.Table.Targets

/-!
# What a table holds

A table is faithful to its unit (`Faithful`): its classes list every member once, its functions are
those of the unit that have a body, in source order, and each function at the top level with a qualifier
is a definition of one method, the first of the named class that it matches.

* `flatMap_membersOf`: the classes list all members.
* `forall₂_funcs`: what the entry of a function says of it.
* `mem_definitions_iff`: which declarations define a member.
* `faithful_of_build`: a table that was built is faithful to its unit.
-/

namespace MemberRefs

namespace SymbolTable

variable {unit : SourceUnit} {options : Options} {table : SymbolTable} {bases : List (List ClassId)}

/-! ## 1. What is expected of a table -/

/-- A member is a method that a function matches. -/
def IsMatch (table : SymbolTable) (f : FuncDecl) (m : MemberId) : Prop :=
  ∃ method, table.memberDecl? m = some (.method method) ∧ f.Matches method

/-- The first method that a function matches among those that the class of some name declares. -/
def FirstMatch (table : SymbolTable) (name : String) (f : FuncDecl) (m : MemberId) : Prop :=
  ∃ info ∈ table.classes, info.decl.name.val = name ∧ ∃ before after,
    info.members = before ++ m :: after ∧ table.IsMatch f m ∧ ∀ n ∈ before, ¬ table.IsMatch f n

/-- **What the entry of a function with a body says.** A function has a class and a member or neither of
    them. -/
inductive Describes (table : SymbolTable) : DeclPath × FuncDecl → FuncInfo → Prop
  | free {i : Nat} {f : FuncDecl} (unqualified : f.qualifier = none) :
      Describes table (.top i, f) ⟨f, none⟩
  | declared {i j : Nat} {f : FuncDecl} {m : MemberId} {info : MemberInfo}
      (member : table.members[m]? = some info) (decl : info.decl = .method f)
      (path : info.path = .member i j) :
      Describes table (.member i j, f) ⟨f, some (info.owner, m)⟩
  | defined {i : Nat} {f method : FuncDecl} {m : MemberId} {info : MemberInfo}
      (member : table.members[m]? = some info) (decl : info.decl = .method method)
      (isMatch : f.Matches method) (definition : ⟨f, .top i⟩ ∈ info.definitions) :
      Describes table (.top i, f) ⟨f, some (info.owner, m)⟩

/-- **The invariant of a table and its unit.** -/
structure Faithful (unit : SourceUnit) (table : SymbolTable) : Prop where
  /-- The classes list every member once. -/
  listed : table.classIds.flatMap table.membersOf = table.memberIds
  /-- The class of a member is the one that lists it. -/
  mem_membersOf : ∀ {c : ClassId} {m : MemberId}, m ∈ table.membersOf c ↔
    ∃ info, table.members[m]? = some info ∧ info.owner = c
  /-- The functions are those with a body, each once and in source order. -/
  funcs : ∃ sites : List (DeclPath × FuncDecl),
    (sites.Pairwise fun a b => a.1.position < b.1.position) ∧
      (∀ path f, (path, f) ∈ sites ↔ unit.HasBody path f) ∧
        List.Forall₂ table.Describes sites table.funcs
  /-- The definitions of a member are in source order, each once. -/
  sorted : ∀ {m : MemberId} {info : MemberInfo}, table.members[m]? = some info →
    info.definitions.Pairwise fun a b => a.path.position < b.path.position
  /-- The definitions of a method are the functions with a qualifier that match it first. -/
  mem_definitions : ∀ {m : MemberId} {info : MemberInfo} {d : Definition},
    table.members[m]? = some info → (d ∈ info.definitions ↔
      ∃ i qualifier, d.path = .top i ∧ unit.decls[i]? = some (.ofFunc d.decl) ∧
        d.decl.qualifier = some qualifier ∧ table.FirstMatch qualifier.val d.decl m)
  /-- A function with a qualifier is a definition of one member. -/
  defines_one : ∀ {i : Nat} {f : FuncDecl} {qualifier : SpannedName}, unit.decls[i]? = some (.ofFunc f) →
    f.qualifier = some qualifier →
      ∃! m : MemberId, ∃ info : MemberInfo, table.members[m]? = some info ∧ ⟨f, .top i⟩ ∈ info.definitions

/-! ## 2. Classes and members -/

/-- Numbers are given out without gaps. -/
theorem flatten_numberMembers : ∀ (classes : List (ClassDecl × Nat)) (next first : Nat),
    (numberMembers next (classes.map Prod.fst)).flatten =
      List.range' next ((classes.zipIdx first).flatMap membersIn).length
  | [], _, _ => rfl
  | (decl, i) :: classes, next, first => by
      have ih := flatten_numberMembers classes (next + decl.members.length) (first + 1)
      have hlen : (membersIn ((decl, i), first)).length = decl.members.length := by
        simp [membersIn]
      rw [List.map_cons, numberMembers, List.flatten_cons, ih, List.zipIdx_cons, List.flatMap_cons,
        List.length_append, hlen]
      exact List.range'_append_1

/-- A list is put together from what stands at its places. -/
theorem flatMap_range_getD {α : Type} (as : List (List α)) :
    ((List.range as.length).flatMap fun i => as[i]?.getD []) = as.flatten := by
  have hmap : ((List.range as.length).map fun i => as[i]?.getD []) = as := by
    refine List.ext_getElem (by simp) fun i hi _ => ?_
    have hlt : i < as.length := by simpa using hi
    simp [hlt]
  rw [List.flatMap_def, hmap]

/-- **The classes list every member once**, in order. -/
theorem flatMap_membersOf (hlen : bases.length = unit.classes.length) :
    (ofClasses unit bases).classIds.flatMap (ofClasses unit bases).membersOf =
      (ofClasses unit bases).memberIds := by
  have hcount : (ofClasses unit bases).classes.length = (numberMembers 0 unit.classes).length := by
    simp [ofClasses, length_numberMembers, hlen]
  have hmembers : (ofClasses unit bases).membersOf =
      fun c => (numberMembers 0 unit.classes)[c]?.getD [] := funext (membersOf_ofClasses hlen)
  have hflatten := flatten_numberMembers (classPositions unit) 0 0
  rw [map_fst_classPositions] at hflatten
  rw [classIds, hcount, hmembers, flatMap_range_getD, hflatten, memberIds, List.range_eq_range']
  rfl

theorem memberIds_withFuncs (table : SymbolTable) (owners : List (Option (ClassId × MemberId))) :
    (table.withFuncs owners).memberIds = table.memberIds := by
  simp [memberIds, withFuncs]

theorem listed_of_build (h : build unit options = .ok table) :
    table.classIds.flatMap table.membersOf = table.memberIds := by
  obtain ⟨bases, owners, _, _, hlink, _, _, rfl⟩ := build_eq_ok h
  rw [memberIds_withFuncs]
  exact flatMap_membersOf (length_of_linkBases hlink)

/-- **The class of a member is the one that lists it.** -/
theorem mem_membersOf_iff (h : build unit options = .ok table) {c : ClassId} {m : MemberId} :
    m ∈ table.membersOf c ↔ ∃ info, table.members[m]? = some info ∧ info.owner = c := by
  have hw := wellFormed_of_build h
  refine ⟨hw.owner_of_mem, ?_⟩
  rintro ⟨info, hm, rfl⟩
  -- some class lists the member, and its owner is that class
  have hlisted : m ∈ table.classIds.flatMap table.membersOf := by
    rw [listed_of_build h, memberIds, List.mem_range]
    exact (List.getElem?_eq_some_iff.mp hm).1
  obtain ⟨c, _, hc⟩ := List.mem_flatMap.mp hlisted
  obtain ⟨info', hm', rfl⟩ := hw.owner_of_mem hc
  rw [hm] at hm'
  cases hm'
  exact hc

/-! ## 3. Definitions -/

theorem memberDecl?_eq_some {m : MemberId} {decl : MemberDecl} :
    table.memberDecl? m = some decl ↔ ∃ info, table.members[m]? = some info ∧ info.decl = decl :=
  Option.map_eq_some_iff

/-- Where the names are different, a class is found by its name. -/
theorem classNamed?_eq_some (hlen : bases.length = unit.classes.length)
    (hdistinct : unit.DistinctClasses) {name : String} {c : ClassId} :
    (ofClasses unit bases).classNamed? name = some c ↔
      ∃ info, (ofClasses unit bases).classes[c]? = some info ∧ info.decl.name.val = name := by
  constructor
  · intro hc
    obtain ⟨hlt, hname, _⟩ := List.findIdx?_eq_some_iff_getElem.mp hc
    exact ⟨_, List.getElem?_eq_getElem hlt, beq_iff_eq.mp hname⟩
  · rintro ⟨info, hc, rfl⟩
    have hdecl : unit.classes[c]? = some info.decl := by
      rw [← map_decl_classes hlen, List.getElem?_map, hc]
      rfl
    rw [classNamed?_ofClasses hlen]
    exact classIndex?_name hdistinct hdecl

/-- What is found first among some members is what a function matches first. -/
theorem find?_definedBy_eq_some {f : FuncDecl} {ms : List MemberId} {m : MemberId} :
    ms.find? (table.definedBy f) = some m ↔ ∃ before after, ms = before ++ m :: after ∧
      table.IsMatch f m ∧ ∀ n ∈ before, ¬ table.IsMatch f n := by
  have hmatch : ∀ n, table.definedBy f n = true ↔ table.IsMatch f n := fun n => definedBy_iff
  simp only [List.find?_eq_some_iff_append, Bool.not_eq_true', ← Bool.not_eq_true, hmatch]
  constructor
  · rintro ⟨hm, before, after, hms, hbefore⟩
    exact ⟨before, after, hms, hm, hbefore⟩
  · rintro ⟨before, after, hms, hm, hbefore⟩
    exact ⟨hm, before, after, hms, hbefore⟩

/-- **The first match is what a definition is linked to.** -/
theorem firstMatch_iff (hlen : bases.length = unit.classes.length)
    (hdistinct : unit.DistinctClasses) {name : String} {f : FuncDecl} {m : MemberId} :
    (ofClasses unit bases).FirstMatch name f m ↔
      ∃ c, (ofClasses unit bases).classNamed? name = some c ∧
        ((ofClasses unit bases).membersOf c).find? ((ofClasses unit bases).definedBy f) = some m := by
  constructor
  · rintro ⟨info, hmem, hname, hsplit⟩
    obtain ⟨c, hc⟩ := List.getElem?_of_mem hmem
    refine ⟨c, (classNamed?_eq_some hlen hdistinct).mpr ⟨info, hc, hname⟩, ?_⟩
    rw [membersOf, hc]
    exact find?_definedBy_eq_some.mpr hsplit
  · rintro ⟨c, hnamed, hm⟩
    obtain ⟨info, hc, hname⟩ := (classNamed?_eq_some hlen hdistinct).mp hnamed
    rw [membersOf, hc] at hm
    exact ⟨info, List.mem_of_getElem? hc, hname, find?_definedBy_eq_some.mp hm⟩

/-- Functions change nothing about what they match. -/
theorem firstMatch_withFuncs (owners : List (Option (ClassId × MemberId))) :
    (table.withFuncs owners).FirstMatch = table.FirstMatch := by
  have hmatch : (table.withFuncs owners).IsMatch = table.IsMatch := by
    funext f m
    rw [IsMatch, memberDecl?_withFuncs, IsMatch]
  funext name f m
  rw [FirstMatch, hmatch, FirstMatch]
  rfl

/-- **What a top-level function is linked to**: nothing without a qualifier, else its first match. -/
theorem ownerOf_ofFunc_iff (hlen : bases.length = unit.classes.length)
    (hdistinct : unit.DistinctClasses) {f : FuncDecl} {m : MemberId} :
    (∃ c, (ofClasses unit bases).ownerOf (.ofFunc f) = .ok (some (c, m))) ↔
      ∃ qualifier, f.qualifier = some qualifier ∧
        (ofClasses unit bases).FirstMatch qualifier.val f m := by
  constructor
  · rintro ⟨c, hc⟩
    obtain ⟨_, qualifier, heq, hq, hnamed, hm⟩ := ownerOf_eq_some hc
    cases heq
    exact ⟨qualifier, hq, (firstMatch_iff hlen hdistinct).mpr ⟨c, hnamed, hm⟩⟩
  · rintro ⟨qualifier, hq, hfirst⟩
    obtain ⟨c, hnamed, hm⟩ := (firstMatch_iff hlen hdistinct).mp hfirst
    refine ⟨c, ?_⟩
    simp only [ownerOf, hq, linkDefinition, hnamed, hm]
    rfl

/-- **The definitions of a method** are the functions with a qualifier that match it first. -/
theorem mem_definitions_iff (h : build unit options = .ok table) {m : MemberId} {info : MemberInfo}
    {d : Definition} (hm : table.members[m]? = some info) : d ∈ info.definitions ↔
      ∃ i qualifier, d.path = .top i ∧ unit.decls[i]? = some (.ofFunc d.decl) ∧
        d.decl.qualifier = some qualifier ∧ table.FirstMatch qualifier.val d.decl m := by
  obtain ⟨bases, owners, _, hdistinct, hlink, _, howners, rfl⟩ := build_eq_ok h
  have hlen := length_of_linkBases hlink
  have hdistinct := distinctClasses_of_checkDistinct hdistinct
  obtain ⟨_, _, rfl⟩ := exists_of_getElem?_members hm
  rw [firstMatch_withFuncs, mem_definitionsOf]
  constructor
  · rintro ⟨i, c, howned, hpath⟩
    have howner := ownerOf_of_mem_zip howners (List.mem_of_getElem? howned)
    obtain ⟨qualifier, hq, hfirst⟩ := (ownerOf_ofFunc_iff hlen hdistinct).mp ⟨c, howner⟩
    exact ⟨i, qualifier, hpath, (List.getElem?_zip_eq_some.mp howned).1, hq, hfirst⟩
  · rintro ⟨i, qualifier, hpath, hdecl, hq, hfirst⟩
    obtain ⟨c, hc⟩ := (ownerOf_ofFunc_iff hlen hdistinct).mpr ⟨qualifier, hq, hfirst⟩
    obtain ⟨owner, howner, hok⟩ := getElem?_of_mapM_ok howners hdecl
    rw [hc] at hok
    cases hok
    exact ⟨i, c, List.getElem?_zip_eq_some.mpr ⟨hdecl, howner⟩, hpath⟩

/-- Each top-level declaration gives a definition at its own position or none. -/
theorem exists_definitionsOf_eq (m : MemberId) :
    ∃ define : (TopDecl × Option (ClassId × MemberId)) × Nat → Option Definition,
      (∀ owned, definitionsOf owned m = owned.zipIdx.filterMap define) ∧
        ∀ site d, define site = some d → d.path = .top site.2 := by
  refine ⟨_, fun _ => rfl, ?_⟩
  rintro ⟨⟨decl | f, owner | ⟨c, n⟩⟩, i⟩ d hd
  · cases hd
  · cases hd
  · cases hd
  · have hd' : (if n = m then some ⟨f, .top i⟩ else none) = some d := hd
    split at hd'
    · cases hd'
      rfl
    · cases hd'

/-- The definitions of a member are in source order. -/
theorem pairwise_definitionsOf (owned : List (TopDecl × Option (ClassId × MemberId))) (m : MemberId) :
    (definitionsOf owned m).Pairwise fun a b => a.path.position < b.path.position := by
  obtain ⟨define, hdefine, hpath⟩ := exists_definitionsOf_eq m
  rw [hdefine]
  refine List.pairwise_filterMap.mpr ((SourceUnit.pairwise_zipIdx owned).imp ?_)
  intro a b hlt d hd d' hd'
  rw [hpath a d hd, hpath b d' hd']
  exact List.cons_lt_cons_iff.mpr (Or.inl hlt)

section Linked

variable {owners : List (Option (ClassId × MemberId))} {i : Nat} {f : FuncDecl}

/-- A function that is linked to a member is among its definitions. -/
theorem exists_of_owner (hlen : bases.length = unit.classes.length)
    (howners : unit.decls.mapM (ofClasses unit bases).ownerOf = .ok owners) {c : ClassId}
    {m : MemberId} (hdecl : unit.decls[i]? = some (.ofFunc f))
    (howner : owners[i]? = some (some (c, m))) :
    ∃ info, ((ofClasses unit bases).withFuncs owners).members[m]? = some info ∧ info.owner = c ∧
      ⟨f, .top i⟩ ∈ info.definitions := by
  have howned : (unit.decls.zip owners)[i]? = some (.ofFunc f, some (c, m)) :=
    List.getElem?_zip_eq_some.mpr ⟨hdecl, howner⟩
  obtain ⟨_, _, heq, _, _, hm⟩ :=
    ownerOf_eq_some (ownerOf_of_mem_zip howners (List.mem_of_getElem? howned))
  cases heq
  obtain ⟨info, hinfo, hmem⟩ := exists_of_mem_membersOf hlen (List.mem_of_find?_eq_some hm)
  have hdeclared : (ofClasses unit bases).members[m]? = some info := hmem
  have howner : info.owner = c := owner_of_mem_membersAt hinfo
  rw [getElem?_members_withFuncs, hdeclared]
  exact ⟨_, rfl, howner, mem_definitionsOf.mpr ⟨i, c, howned, rfl⟩⟩

/-- A function with a qualifier is linked to a member. -/
theorem exists_owner (howners : unit.decls.mapM (ofClasses unit bases).ownerOf = .ok owners)
    {qualifier : SpannedName} (hdecl : unit.decls[i]? = some (.ofFunc f))
    (hq : f.qualifier = some qualifier) : ∃ c m, owners[i]? = some (some (c, m)) := by
  obtain ⟨owner, howner, hok⟩ := getElem?_of_mapM_ok howners hdecl
  simp only [ownerOf, hq] at hok
  obtain ⟨⟨c, m⟩, _, rfl⟩ := exists_of_map_eq_ok hok
  exact ⟨c, m, howner⟩

end Linked

/-- **A function with a qualifier is a definition of one member.** -/
theorem existsUnique_definition (h : build unit options = .ok table) {i : Nat} {f : FuncDecl}
    {qualifier : SpannedName} (hdecl : unit.decls[i]? = some (.ofFunc f))
    (hq : f.qualifier = some qualifier) : ∃! m : MemberId, ∃ info : MemberInfo,
      table.members[m]? = some info ∧ ⟨f, .top i⟩ ∈ info.definitions := by
  have hdefined : ∃ (m : MemberId) (info : MemberInfo), table.members[m]? = some info ∧
      ⟨f, .top i⟩ ∈ info.definitions := by
    obtain ⟨bases, owners, _, _, hlink, _, howners, rfl⟩ := build_eq_ok h
    obtain ⟨c, m, howner⟩ := exists_owner howners hdecl hq
    obtain ⟨info, hm, _, hd⟩ := exists_of_owner (length_of_linkBases hlink) howners hdecl howner
    exact ⟨m, info, hm, hd⟩
  obtain ⟨m, info, hm, hd⟩ := hdefined
  refine ⟨m, ⟨info, hm, hd⟩, ?_⟩
  rintro m' ⟨info', hm', hd'⟩
  exact definition_unique h hm' hm hd' hd rfl

/-! ## 4. Functions -/

section Functions

variable {owners : List (Option (ClassId × MemberId))}

/-- The members of a class stand beside their numbers. -/
theorem forall₂_membersOf (hlen : bases.length = unit.classes.length) {c : ClassId}
    {d : ClassDecl} {i : Nat} (hc : (classPositions unit)[c]? = some (d, i)) :
    List.Forall₂ (fun (member : MemberDecl × Nat) m =>
        (declaredMembers unit)[m]? = some ⟨c, member.1, .member i member.2, []⟩)
      d.members.zipIdx ((ofClasses unit bases).membersOf c) := by
  have hleads := (membersOf_leads hlen c).2
  rw [membersAt, hc] at hleads
  dsimp only [membersIn] at hleads
  rw [← List.forall₂_eq_eq_eq, List.forall₂_map_left_iff, List.map_map,
    List.forall₂_map_right_iff] at hleads
  exact hleads.flip

/-- The functions with a body of a class are described as the members that they are. -/
theorem forall₂_methodBodies (hlen : bases.length = unit.classes.length) {c : ClassId}
    {d : ClassDecl} {i : Nat} (hc : (classPositions unit)[c]? = some (d, i)) :
    List.Forall₂ ((ofClasses unit bases).withFuncs owners).Describes
      (SourceUnit.bodiesAt (.ofClass d, i)) ((ofClasses unit bases).methodBodies c) := by
  refine List.rel_filterMap ?_ (forall₂_membersOf hlen hc)
  rintro ⟨member, j⟩ m hm
  have hdeclared : (ofClasses unit bases).members[m]? = some ⟨c, member, .member i j, []⟩ := hm
  have hmethod : (ofClasses unit bases).method? m = member.method? := by
    rw [method?, hdeclared]
    rfl
  have hmember := getElem?_members_withFuncs (ofClasses unit bases) owners m
  rw [hdeclared] at hmember
  dsimp only
  rw [hmethod]
  cases member with
  | field _ => exact .none
  | method f =>
    rw [SourceUnit.memberBody?, MemberDecl.method?, Option.bind_some]
    split
    · exact .some (.declared hmember rfl rfl)
    · exact .none

/-- A top-level function is described as what it is linked to. -/
theorem describes_ofFunc (hlen : bases.length = unit.classes.length)
    (howners : unit.decls.mapM (ofClasses unit bases).ownerOf = .ok owners) {i : Nat} {f : FuncDecl}
    {owner : Option (ClassId × MemberId)} (hdecl : unit.decls[i]? = some (.ofFunc f))
    (howner : owners[i]? = some owner) :
    ((ofClasses unit bases).withFuncs owners).Describes (.top i, f) ⟨f, owner⟩ := by
  have howned : (unit.decls.zip owners)[i]? = some (.ofFunc f, owner) :=
    List.getElem?_zip_eq_some.mpr ⟨hdecl, howner⟩
  have hok := ownerOf_of_mem_zip howners (List.mem_of_getElem? howned)
  cases owner with
  | none =>
    refine .free ?_
    cases hq : f.qualifier with
    | none => rfl
    | some qualifier =>
      obtain ⟨c, m, hsome⟩ := exists_owner howners hdecl hq
      rw [howner] at hsome
      cases hsome
  | some owner =>
    obtain ⟨c, m⟩ := owner
    obtain ⟨info, hinfo, rfl, hd⟩ := exists_of_owner hlen howners hdecl howner
    obtain ⟨_, _, heq, _, _, hm⟩ := ownerOf_eq_some hok
    cases heq
    obtain ⟨method, hmethod, hmatches⟩ := definedBy_iff.mp (List.find?_some hm)
    rw [← memberDecl?_withFuncs _ owners, memberDecl?_eq_some] at hmethod
    obtain ⟨info', hinfo', hdecl'⟩ := hmethod
    rw [hinfo] at hinfo'
    cases hinfo'
    exact .defined hinfo hdecl' hmatches hd

/-- **The functions with a body of one declaration are described by their entries.** -/
theorem forall₂_bodies (hlen : bases.length = unit.classes.length)
    (hdistinct : unit.DistinctClasses)
    (howners : unit.decls.mapM (ofClasses unit bases).ownerOf = .ok owners) {i : Nat}
    {decl : TopDecl} {owner : Option (ClassId × MemberId)} (hdecl : unit.decls[i]? = some decl)
    (howner : owners[i]? = some owner) :
    List.Forall₂ ((ofClasses unit bases).withFuncs owners).Describes
      (SourceUnit.bodiesAt (decl, i)) ((ofClasses unit bases).bodies owner decl) := by
  cases decl with
  | ofClass d =>
    have hmem : (d, i) ∈ classPositions unit :=
      List.mem_filterMap.mpr ⟨(.ofClass d, i), List.mem_zipIdx_iff_getElem?.mpr hdecl, rfl⟩
    obtain ⟨c, hc⟩ := List.getElem?_of_mem hmem
    have hclass : unit.classes[c]? = some d := by
      rw [← map_fst_classPositions, List.getElem?_map, hc]
      rfl
    have hnamed : (ofClasses unit bases).classNamed? d.name.val = some c := by
      rw [classNamed?_ofClasses hlen]
      exact classIndex?_name hdistinct hclass
    rw [bodies, hnamed]
    exact forall₂_methodBodies hlen hc
  | ofFunc f =>
    rw [SourceUnit.bodiesAt, bodies]
    split
    · exact .cons (describes_ofFunc hlen howners hdecl howner) .nil
    · exact .nil

/-- **The functions of a table are those with a body**, in order. -/
theorem forall₂_funcs (h : build unit options = .ok table) :
    List.Forall₂ table.Describes unit.bodySites table.funcs := by
  obtain ⟨bases, owners, _, hdistinct, hlink, _, howners, rfl⟩ := build_eq_ok h
  have hlen := length_of_linkBases hlink
  have hdistinct := distinctClasses_of_checkDistinct hdistinct
  have hcount : owners.length = unit.decls.length := (mapM_ok howners).length_eq.symm
  have hdecls : List.Forall₂ (fun site owned => site.1 = owned.1 ∧
        unit.decls[site.2]? = some owned.1 ∧ owners[site.2]? = some owned.2)
      unit.decls.zipIdx (unit.decls.zip owners) :=
    List.forall₂_iff_get.mpr ⟨by simp [hcount], fun i _ _ => by simp⟩
  refine List.rel_flatMap hdecls ?_
  rintro ⟨decl, i⟩ ⟨_, owner⟩ ⟨rfl, hdecl, howner⟩
  exact forall₂_bodies hlen hdistinct howners hdecl howner

/-- A function of the table is the one with a body at the same place. -/
theorem exists_describes (h : build unit options = .ok table) {f : FuncId} {info : FuncInfo}
    (hf : table.funcs[f]? = some info) : ∃ path, unit.bodySites[f]? = some (path, info.decl) ∧
      table.Describes (path, info.decl) info := by
  have hfuncs := forall₂_funcs h
  have hlt : f < unit.bodySites.length := hfuncs.length_eq ▸ (List.getElem?_eq_some_iff.mp hf).1
  obtain ⟨⟨path, decl⟩, hsite⟩ : ∃ site, unit.bodySites[f]? = some site :=
    ⟨_, List.getElem?_eq_getElem hlt⟩
  have hzip : (unit.bodySites.zip table.funcs)[f]? = some ((path, decl), info) :=
    List.getElem?_zip_eq_some.mpr ⟨hsite, hf⟩
  have hdescribes := List.forall₂_zip hfuncs (List.mem_of_getElem? hzip)
  obtain rfl : info.decl = decl := by cases hdescribes <;> rfl
  exact ⟨path, hsite, hdescribes⟩

end Functions

/-! ## 5. The invariant -/

/-- **A table that was built is faithful to its unit**: its classes list the members, its functions are
    those with a body, and the functions with a qualifier define the methods that they match first. -/
theorem faithful_of_build (h : build unit options = .ok table) : Faithful unit table where
  listed := listed_of_build h
  mem_membersOf := mem_membersOf_iff h
  funcs := ⟨unit.bodySites, unit.pairwise_bodySites, fun _ _ => SourceUnit.mem_bodySites,
    forall₂_funcs h⟩
  sorted := fun hm => by
    obtain ⟨bases, owners, _, _, _, _, _, rfl⟩ := build_eq_ok h
    obtain ⟨_, _, rfl⟩ := exists_of_getElem?_members hm
    exact pairwise_definitionsOf _ _
  mem_definitions := mem_definitions_iff h
  defines_one := existsUnique_definition h

/-- A class that declares a method twice with one signature, a definition of it without a body, one with
    a body, and a function that is no method. -/
def definitionsUnit : SourceUnit :=
  bareUnit [.ofFunc (bareDefinition "Widget" "read" [] none),
    .ofClass { bareClass "Widget" [] [] with
      members := [.method (bareFunc "read" [] none), .method (bareFunc "read" [] (some []))] },
    .ofFunc (bareFunc "main" [] (some [])), .ofFunc (bareDefinition "Widget" "read" [] (some []))]

/-- The first of the two methods has both definitions; the second is a function through its own body. -/
theorem faithful_definitionsUnit : ∃ table, build definitionsUnit {} = .ok table ∧
    Faithful definitionsUnit table ∧
      table.members.map (fun info => info.definitions.map Definition.path) = [[.top 0, .top 3], []] ∧
        table.funcs.map FuncInfo.owner = [some (0, 1), none, some (0, 0)] :=
  ⟨_, rfl, @faithful_of_build definitionsUnit {} _ rfl, rfl, rfl⟩

end SymbolTable

end MemberRefs
