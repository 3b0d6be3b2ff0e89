import MemberRefs.Proofs.Table.Layout

/-!
# Functions and what they define

A top-level function with a qualifier defines a method of the class that it names. A table keeps this
twice: with the function, when it has a body, and among the definitions of the method.

* `ownerOf_eq_some`: what a declaration is linked to is a method that its class declares.
* `mem_definitionsOf`: the definitions of a member are the declarations linked to it, with their paths.
* `classNamed?_of_owner`: the class of a function is the one that its table finds by its name.
-/

namespace MemberRefs.SymbolTable

variable {unit : SourceUnit} {options : Options} {table : SymbolTable}

/-! ## 1. What a declaration is linked to -/

theorem className_of_classNamed? {n : String} {c : ClassId} (h : table.classNamed? n = some c) :
    table.className c = n := by
  obtain ⟨hc, hname, _⟩ := List.findIdx?_eq_some_iff_getElem.mp h
  rw [className, List.getElem?_eq_getElem hc]
  exact beq_iff_eq.mp hname

theorem linkDefinition_eq_ok {qualifier : SpannedName} {f : FuncDecl} {c : ClassId} {m : MemberId}
    (h : table.linkDefinition qualifier f = .ok (c, m)) :
    table.classNamed? qualifier.val = some c ∧
      (table.membersOf c).find? (table.definedBy f) = some m := by
  unfold linkDefinition at h
  split at h
  · cases h
  · rename_i c' hc
    split at h
    · rename_i m' hm
      cases h
      exact ⟨hc, hm⟩
    · cases h

/-- **What a declaration is linked to**: only a qualified function is, to the first method it matches in
    the class it names. -/
theorem ownerOf_eq_some {decl : TopDecl} {c : ClassId} {m : MemberId}
    (h : table.ownerOf decl = .ok (some (c, m))) : ∃ f qualifier, decl = .ofFunc f ∧
      f.qualifier = some qualifier ∧ table.classNamed? qualifier.val = some c ∧
        (table.membersOf c).find? (table.definedBy f) = some m := by
  unfold ownerOf at h
  split at h
  · cases h
  · rename_i f
    split at h
    · cases h
    · rename_i qualifier hq
      obtain ⟨_, hlink, heq⟩ := exists_of_map_eq_ok h
      cases heq
      exact ⟨f, qualifier, rfl, hq, linkDefinition_eq_ok hlink⟩

/-- In a table the declarations of its unit stand beside what they are linked to. -/
theorem ownerOf_of_mem_zip {owners : List (Option (ClassId × MemberId))}
    (h : unit.decls.mapM table.ownerOf = .ok owners) {decl : TopDecl}
    {owner : Option (ClassId × MemberId)} (hmem : (decl, owner) ∈ unit.decls.zip owners) :
    table.ownerOf decl = .ok owner :=
  List.forall₂_zip (mapM_ok h) hmem

/-! ## 2. Definitions of a member -/

/-- **The definitions of a member are the declarations linked to it**, with their paths. -/
theorem mem_definitionsOf {owned : List (TopDecl × Option (ClassId × MemberId))} {m : MemberId}
    {d : Definition} : d ∈ definitionsOf owned m ↔
      ∃ i c, owned[i]? = some (.ofFunc d.decl, some (c, m)) ∧ d.path = .top i := by
  constructor
  · intro h
    obtain ⟨⟨⟨decl | f, owner | ⟨c, n⟩⟩, i⟩, hmem, hd⟩ := List.mem_filterMap.mp h
    · cases hd
    · cases hd
    · cases hd
    · have hd' : (if n = m then some ⟨f, .top i⟩ else none) = some d := hd
      split at hd'
      · rename_i hn
        cases hd'
        exact ⟨i, c, hn ▸ List.mem_zipIdx_iff_getElem?.mp hmem, rfl⟩
      · cases hd'
  · rintro ⟨i, c, hat, hpath⟩
    refine List.mem_filterMap.mpr ⟨⟨(.ofFunc d.decl, some (c, m)), i⟩,
      List.mem_zipIdx_iff_getElem?.mpr hat, ?_⟩
    simp [← hpath]

/-! ## 3. Functions with a body -/

/-- A function with a body is a method in its class, or the declaration itself with what it is linked
    to. -/
theorem owner_of_mem_bodies {owner : Option (ClassId × MemberId)} {decl : TopDecl} {info : FuncInfo}
    {c : ClassId} {m : MemberId} (h : info ∈ table.bodies owner decl)
    (howner : info.owner = some (c, m)) :
    (∃ n, table.classNamed? n = some c) ∨ owner = some (c, m) := by
  cases decl with
  | ofClass d =>
    cases hd : table.classNamed? d.name.val with
    | none => simp [bodies, hd] at h
    | some c' =>
      simp only [bodies, hd, methodBodies] at h
      obtain ⟨m', _, hm'⟩ := List.mem_filterMap.mp h
      obtain ⟨method, _, hinfo⟩ := Option.bind_eq_some_iff.mp hm'
      split at hinfo
      · cases hinfo
        cases howner
        exact Or.inl ⟨_, hd⟩
      · cases hinfo
  | ofFunc f =>
    simp only [bodies] at h
    split at h
    · cases List.mem_singleton.mp h
      exact Or.inr howner
    · exact absurd h List.not_mem_nil

/-- **The class of a function is the one that its table finds by its name.** -/
theorem classNamed?_of_owner (h : build unit options = .ok table) {f : FuncId} {info : FuncInfo}
    {c : ClassId} {m : MemberId} (hf : table.funcs[f]? = some info)
    (howner : info.owner = some (c, m)) : table.classNamed? (table.className c) = some c := by
  obtain ⟨bases, owners, _, _, _, _, howners, rfl⟩ := build_eq_ok h
  obtain ⟨⟨decl, owner⟩, hmem, hbody⟩ := List.mem_flatMap.mp (List.mem_of_getElem? hf)
  have hnamed : ∃ n, (ofClasses unit bases).classNamed? n = some c := by
    rcases owner_of_mem_bodies hbody howner with hnamed | rfl
    · exact hnamed
    · obtain ⟨_, qualifier, _, _, hc, _⟩ := ownerOf_eq_some (ownerOf_of_mem_zip howners hmem)
      exact ⟨_, hc⟩
  obtain ⟨n, hn⟩ := hnamed
  have hname : (ofClasses unit bases).className c = n := className_of_classNamed? hn
  exact (congrArg (ofClasses unit bases).classNamed? hname).trans hn

end MemberRefs.SymbolTable
