import MemberRefs.Proofs.Table.Linked

/-!
# The member that a declaration stands for

Declarations are told apart by their paths. A declaration of the unit stands for a member when it declares
the member in its class or is linked to it as a definition, and for one member only. No other declaration
stands for a member, and neither does a copy, which has no path.

* `decl?_path`, `decl?_definition`: what declares a member is a member of a class or a qualified function.
* `declaresAt_unique`: no path declares two members.
* `memberOf_of_declaresAt`, `memberOf_of_memberless`, `memberOf_copy`: which member a declaration gives.
-/

namespace MemberRefs

/-- A declaration that stands for no member: a class, a parameter, a local variable, or a function at the
    top level without a qualifier. -/
def DeclRef.Memberless (ref : DeclRef) : Prop :=
  match ref.decl with
  | .ofClass _ | .ofParam _ | .ofLocal _ => True
  | .ofField _ => False
  | .ofFunc f => (∃ i, ref.path = some (.top i)) ∧ f.qualifier = none

namespace SymbolTable

variable {unit : SourceUnit} {options : Options} {table : SymbolTable} {m m' : MemberId}
  {info info' : MemberInfo} {path : DeclPath}

/-! ## 1. Where members are declared and defined -/

/-- The members of a table are the declared ones, with the declarations linked to them. -/
theorem exists_of_getElem?_members {bases : List (List ClassId)}
    {owners : List (Option (ClassId × MemberId))}
    (hm : ((ofClasses unit bases).withFuncs owners).members[m]? = some info) :
    ∃ declared, (declaredMembers unit)[m]? = some declared ∧
      info = { declared with definitions := definitionsOf (unit.decls.zip owners) m } := by
  rw [getElem?_members_withFuncs] at hm
  obtain ⟨declared, hdeclared, rfl⟩ := Option.map_eq_some_iff.mp hm
  exact ⟨declared, hdeclared, rfl⟩

/-- The path of a member leads to its declaration, in a class. -/
theorem decl?_path (h : build unit options = .ok table) (hm : table.members[m]? = some info) :
    unit.decl? info.path = some info.decl.toDecl ∧ ∃ i j, info.path = .member i j := by
  obtain ⟨bases, owners, _, _, _, _, _, rfl⟩ := build_eq_ok h
  obtain ⟨declared, hdeclared, rfl⟩ := exists_of_getElem?_members hm
  have hpath := decl?_of_mem_declaredMembers (List.mem_of_getElem? hdeclared)
  exact hpath

/-- The path of a definition leads to it, a qualified function at the top level. -/
theorem decl?_definition (h : build unit options = .ok table) (hm : table.members[m]? = some info)
    {d : Definition} (hd : d ∈ info.definitions) :
    ∃ i, d.path = .top i ∧ unit.decls[i]? = some (.ofFunc d.decl) ∧
      d.decl.qualifier ≠ none := by
  obtain ⟨bases, owners, _, _, _, _, howners, rfl⟩ := build_eq_ok h
  obtain ⟨_, _, rfl⟩ := exists_of_getElem?_members hm
  obtain ⟨i, c, howned, hpath⟩ := mem_definitionsOf.mp hd
  obtain ⟨f, qualifier, hf, hq, _⟩ :=
    ownerOf_eq_some (ownerOf_of_mem_zip howners (List.mem_of_getElem? howned))
  cases hf
  exact ⟨i, hpath, (List.getElem?_zip_eq_some.mp howned).1, by rw [hq]; exact nofun⟩

/-- No two members have one path. -/
theorem path_unique (h : build unit options = .ok table) (hm : table.members[m]? = some info)
    (hm' : table.members[m']? = some info') (hpath : info.path = info'.path) : m = m' := by
  obtain ⟨bases, owners, _, _, _, _, _, rfl⟩ := build_eq_ok h
  obtain ⟨declared, hdeclared, rfl⟩ := exists_of_getElem?_members hm
  obtain ⟨declared', hdeclared', rfl⟩ := exists_of_getElem?_members hm'
  have hlt : m < ((declaredMembers unit).map MemberInfo.path).length := by
    rw [List.length_map]
    exact (List.getElem?_eq_some_iff.mp hdeclared).1
  refine (List.getElem?_inj hlt (nodup_map_path_declaredMembers unit)).mp ?_
  rw [List.getElem?_map, List.getElem?_map, hdeclared, hdeclared']
  exact congrArg some hpath

/-- No declaration defines two members. -/
theorem definition_unique (h : build unit options = .ok table) (hm : table.members[m]? = some info)
    (hm' : table.members[m']? = some info') {d d' : Definition} (hd : d ∈ info.definitions)
    (hd' : d' ∈ info'.definitions) (hpath : d.path = d'.path) : m = m' := by
  obtain ⟨bases, owners, _, _, _, _, _, rfl⟩ := build_eq_ok h
  obtain ⟨_, _, rfl⟩ := exists_of_getElem?_members hm
  obtain ⟨_, _, rfl⟩ := exists_of_getElem?_members hm'
  obtain ⟨i, c, howned, hi⟩ := mem_definitionsOf.mp hd
  obtain ⟨i', c', howned', hi'⟩ := mem_definitionsOf.mp hd'
  rw [hi, hi'] at hpath
  obtain rfl := DeclPath.top.inj hpath
  have howner := (Prod.mk.inj (Option.some.inj (howned.symm.trans howned'))).2
  exact (Prod.mk.inj (Option.some.inj howner)).2

theorem declaresAt_iff : declaresAt info path = true ↔
    info.path = path ∨ ∃ d ∈ info.definitions, d.path = path := by
  simp [declaresAt]

/-- **No path declares two members.** -/
theorem declaresAt_unique (h : build unit options = .ok table) (hm : table.members[m]? = some info)
    (hm' : table.members[m']? = some info') (hpath : declaresAt info path = true)
    (hpath' : declaresAt info' path = true) : m = m' := by
  -- a member declared in a class and a definition have paths of different kinds
  have hkind : ∀ {n n' : MemberId} {i i' : MemberInfo}, table.members[n]? = some i →
      table.members[n']? = some i' → ∀ d ∈ i'.definitions, i.path ≠ d.path := by
    intro n n' i i' hn hn' d hd heq
    obtain ⟨_, a, b, hmember⟩ := decl?_path h hn
    obtain ⟨k, htop, _⟩ := decl?_definition h hn' hd
    rw [hmember, htop] at heq
    cases heq
  rcases declaresAt_iff.mp hpath with hp | ⟨d, hd, hp⟩
  · rcases declaresAt_iff.mp hpath' with hp' | ⟨d', hd', hp'⟩
    · exact path_unique h hm hm' (hp.trans hp'.symm)
    · exact absurd (hp.trans hp'.symm) (hkind hm hm' d' hd')
  · rcases declaresAt_iff.mp hpath' with hp' | ⟨d', hd', hp'⟩
    · exact absurd (hp'.trans hp.symm) (hkind hm' hm d hd)
    · exact definition_unique h hm hm' hd hd' (hp.trans hp'.symm)

/-! ## 2. Which member a declaration gives -/

/-- The failure of a declaration that stands for no member. -/
def noMember (ref : DeclRef) : PlacedError := ⟨.invalidTarget ref.decl.shownName, ref.decl.extent⟩

/-- **A declaration at the path of a member or of a definition of it gives this member.** -/
theorem memberOf_of_declaresAt (h : build unit options = .ok table)
    (hm : table.members[m]? = some info) (hpath : declaresAt info path = true) (decl : Decl) :
    table.memberOf ⟨decl, some path⟩ = .ok m := by
  have hfound : table.members.findIdx? (declaresAt · path) = some m := by
    obtain ⟨hlt, hget⟩ := List.getElem?_eq_some_iff.mp hm
    refine List.findIdx?_eq_some_iff_getElem.mpr ⟨hlt, hget ▸ hpath, fun j hj hdeclares => ?_⟩
    have hj' := List.getElem?_eq_getElem (Nat.lt_trans hj hlt)
    exact absurd (declaresAt_unique h hj' hm hdeclares hpath) (Nat.ne_of_lt hj)
  simp only [memberOf, Option.bind_some, hfound]

/-- A path at which no member is declared or defined gives none. -/
theorem memberOf_of_not_declaresAt (ref : DeclRef)
    (hnone : ∀ path, ref.path = some path → ∀ info ∈ table.members, declaresAt info path = false) :
    table.memberOf ref = .error (noMember ref) := by
  have hfound : (ref.path.bind fun path => table.members.findIdx? (declaresAt · path)) = none := by
    cases hpath : ref.path with
    | none => rfl
    | some path => exact List.findIdx?_eq_none_iff.mpr (hnone path hpath)
  simp only [memberOf, hfound]
  rfl

/-- **A copy gives no member.** -/
theorem memberOf_copy (ref : DeclRef) : table.memberOf ref.copy = .error (noMember ref) :=
  memberOf_of_not_declaresAt ref.copy fun _ hpath => by cases hpath

/-- **A declaration of the unit that stands for no member gives none.** -/
theorem memberOf_of_memberless (h : build unit options = .ok table) {ref : DeclRef}
    (href : unit.declRef? path = some ref) (hless : ref.Memberless) :
    table.memberOf ref = .error (noMember ref) := by
  obtain ⟨decl, hdecl, rfl⟩ := Option.map_eq_some_iff.mp href
  refine memberOf_of_not_declaresAt _ fun path' hpath' info hinfo => ?_
  cases hpath'
  obtain ⟨m, hm⟩ := List.getElem?_of_mem hinfo
  refine Bool.eq_false_iff.mpr fun hdeclares => ?_
  rcases declaresAt_iff.mp hdeclares with rfl | ⟨d, hd, rfl⟩
  · obtain ⟨hmember, i, j, hpath⟩ := decl?_path h hm
    rw [hmember] at hdecl
    cases hdecl
    cases hmemberDecl : info.decl with
    | field d =>
      rw [hmemberDecl] at hless
      exact hless
    | method f =>
      rw [hmemberDecl, hpath] at hless
      obtain ⟨⟨_, htop⟩, _⟩ := hless
      cases htop
  · obtain ⟨i, hpath, hfunc, hqualified⟩ := decl?_definition h hm hd
    have hdecl' : unit.decl? d.path = some (.ofFunc d.decl) := by
      simp [hpath, SourceUnit.decl?, hfunc]
    rw [hdecl'] at hdecl
    cases hdecl
    exact hqualified hless.2

end SymbolTable

end MemberRefs
