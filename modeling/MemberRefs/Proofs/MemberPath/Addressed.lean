import MemberRefs.Proofs.MemberPath.ReadsBack
import MemberRefs.Proofs.Table.Contents

/-!
# Addressing methods

A method can be addressed by the text of its class, its name and its signature, as a complaint about an
ambiguous path suggests it. The text is read as a path to the method itself, when the names are such as
paths have and no other method of the class has the same name and signature (`Addressable`). A single
parameter `void` is the one exception: it is written like no parameters.

* `lookupTarget_eq_ok_iff`: when a path leads to a member.
* `parse_methodText`: what the text of a method is read as.
* `lookupTarget_methodText`: when the text of a method leads to it.
-/

namespace MemberRefs

open MemberPath

namespace MemberPath

/-! ## 1. Names of methods -/

/-- The names of methods that a path can have: identifiers that do not begin with `operator`,
    destructors, operators spelled in symbols, the call operator and the allocation functions. -/
inductive MethodName : List Char → Prop
  | identifier {name : List Char} (identifier : IsIdentifier name)
      (noOperator : ¬ Name.operatorWord <+: name) : MethodName name
  | destructor {name : List Char} (identifier : IsIdentifier name) : MethodName ('~' :: name)
  | symbols {op : List Char} (ne_nil : op ≠ []) (symbols : ∀ c ∈ op, isSymbol c = true) :
      MethodName (Name.operatorWord ++ op)
  | call : MethodName (Name.operatorWord ++ ['(', ')'])
  | allocator {op : List Char} (mem : op ∈ allocators) :
      MethodName (Name.operatorWord ++ ' ' :: op)

namespace MethodName

variable {name : List Char}

theorem memberName (h : MethodName name) : MemberName name := by
  cases h with
  | identifier hname hoperator =>
    exact .plain hname fun op heq => absurd ⟨op, heq.symm⟩ hoperator
  | destructor hname => exact .destructor hname
  | symbols hne hop => exact .symbols hne hop
  | call => exact .call
  | allocator hop => exact .allocator hop

/-- The word `operator` alone is the name of no method. -/
theorem ne_operatorWord (h : MethodName name) : name ≠ Name.operatorWord := by
  cases h with
  | identifier _ hoperator => exact fun heq => hoperator ⟨[], by rw [heq, List.append_nil]⟩
  | destructor _ => exact fun heq => absurd (List.cons.inj heq).1 (by decide)
  | symbols hne _ => exact fun heq => hne (List.append_right_eq_self.mp heq)
  | call => decide
  | allocator _ => exact fun heq => absurd (List.append_right_eq_self.mp heq) (List.cons_ne_nil _ _)

/-- A blank behind `operator` is that of an allocation function. -/
theorem exists_allocator (h : MethodName name) (hblank : Name.operatorWord ++ [' '] <+: name) :
    ∃ op ∈ allocators, name = Name.operatorWord ++ ' ' :: op := by
  cases h with
  | identifier _ hoperator =>
    exact absurd ((List.prefix_append _ _).trans hblank) hoperator
  | destructor _ => exact absurd (List.cons_prefix_cons.mp hblank).1 (by decide)
  | symbols hne hop =>
    obtain ⟨c, cs, rfl⟩ := List.exists_cons_of_ne_nil hne
    have hc : ' ' = c := (List.cons_prefix_cons.mp ((List.prefix_append_right_inj _).mp hblank)).1
    have hsymbol := hop c List.mem_cons_self
    rw [← hc] at hsymbol
    exact absurd hsymbol (by decide)
  | call => exact absurd hblank (by decide)
  | allocator hop => exact ⟨_, hop, rfl⟩

end MethodName

end MemberPath

namespace SymbolTable

variable {unit : SourceUnit} {options : Options} {table : SymbolTable} {m : MemberId}
  {info : MemberInfo} {f : FuncDecl}

/-! ## 2. Where a path leads -/

/-- The name of a method is that of its declaration. -/
theorem name_of_method? (h : info.method? = some f) : f.name.val = info.name := by
  unfold MemberInfo.method? MemberInfo.name at *
  cases hdecl : info.decl with
  | field _ =>
    rw [hdecl] at h
    cases h
  | method _ =>
    rw [hdecl] at h
    cases h
    rfl

/-- **A path leads to a member** when this is the only one of the named class that is asked for. -/
theorem lookupTarget_eq_ok_iff {path : MemberPath} : table.lookupTarget path = .ok m ↔
    ∃ c, table.classNamed? path.owner = some c ∧
      (table.membersOf c).filter (table.matchesPath path) = [m] := by
  unfold lookupTarget
  cases table.classNamed? path.owner with
  | none => exact iff_of_false (fun h => by cases h) fun ⟨_, h, _⟩ => by cases h
  | some c =>
    simp only [Option.some.injEq, exists_eq_left']
    split
    · rename_i hnone
      rw [hnone]
      exact iff_of_false (fun h => by cases h) fun h => by cases h
    · rename_i n hone
      rw [hone]
      simp
    · rename_i hne hne'
      exact iff_of_false (fun h => by cases h) fun h => hne' m h

/-- Where the names are different, a class is found by its own name. -/
theorem classNamed?_name (h : build unit options = .ok table) {c : ClassId} {info : ClassInfo}
    (hc : table.classes[c]? = some info) : table.classNamed? info.decl.name.val = some c := by
  obtain ⟨bases, owners, _, hdistinct, hlink, _, _, rfl⟩ := build_eq_ok h
  have hnamed := (classNamed?_eq_some (length_of_linkBases hlink)
    (distinctClasses_of_checkDistinct hdistinct)).mpr ⟨info, hc, rfl⟩
  exact hnamed

/-- The class of a member lists it and is found by its name. -/
theorem classNamed?_owner (h : build unit options = .ok table)
    (hm : table.members[m]? = some info) :
    m ∈ table.membersOf info.owner ∧
      table.classNamed? (table.className info.owner) = some info.owner := by
  have hlisted : m ∈ table.membersOf info.owner := (mem_membersOf_iff h).mpr ⟨info, hm, rfl⟩
  refine ⟨hlisted, ?_⟩
  cases hc : table.classes[info.owner]? with
  | none =>
    rw [membersOf, hc] at hlisted
    exact absurd hlisted List.not_mem_nil
  | some cls =>
    rw [className, hc]
    exact classNamed?_name h hc

/-! ## 3. Methods and their texts -/

/-- A method as a path addresses it: class, name and signature. -/
def methodText (table : SymbolTable) (info : MemberInfo) (f : FuncDecl) : String :=
  table.className info.owner ++ "::" ++ f.name.val ++ f.signature.text

/-- **A method that can be told from all others by text**: its class and itself have names such as paths
    have, its parameter types are read from texts and have no lvalue reference directly inside a
    reference, and every other method of the class with the same name has another signature. -/
structure Addressable (table : SymbolTable) (m : MemberId) (info : MemberInfo) (f : FuncDecl) :
    Prop where
  member : table.members[m]? = some info
  method : info.decl = .method f
  owner : IsIdentifier (table.className info.owner).toList
  name : MethodName f.name.val.toList
  read : ∀ p ∈ f.params, ∃ text, Ty.parse text = .ok p.type
  refsApart : ∀ p ∈ f.params, p.type.refsApart = true
  differs : ∀ n ∈ table.membersOf info.owner, n ≠ m → ∀ other, table.method? n = some other →
    other.name.val = f.name.val → other.signature ≠ f.signature

namespace Addressable

theorem method?_eq (h : table.Addressable m info f) : table.method? m = some f := by
  rw [method?, h.member, Option.bind_some, MemberInfo.method?, h.method]
  rfl

theorem spelled (h : table.Addressable m info f) {type : Ty} (htype : type ∈ f.signature.params) :
    type.Spelled ∧ type.isConst = false ∧ type.refsApart = true := by
  obtain ⟨declared, hdeclared, rfl⟩ := List.mem_map.mp htype
  obtain ⟨p, hp, rfl⟩ := List.mem_map.mp hdeclared
  obtain ⟨text, htext⟩ := h.read p hp
  exact ⟨(Ty.spelled_of_ofChars? (Ty.parse_eq_ok.mp htext)).stripConst, Ty.isConst_stripConst _,
    Ty.refsApart_stripConst (h.refsApart p hp)⟩

end Addressable

/-- **What the text of a method is read as**: the path of its class, name and signature, where a single
    parameter `void` is taken for none. -/
theorem parse_methodText (h : table.Addressable m info f) :
    MemberPath.parse (table.methodText info f) =
      .ok ⟨table.className info.owner, f.name.val, some f.signature.reread⟩ := by
  have hparts : Parts ⟨table.className info.owner, f.name.val, some f.signature⟩ :=
    ⟨h.owner, h.name.memberName, fun s hs type htype => by
      cases hs
      exact ⟨(h.spelled htype).1, (h.spelled htype).2.1⟩⟩
  have hcall : f.name.val ≠ "operator" :=
    fun heq => h.name.ne_operatorWord (congrArg String.toList heq)
  have hparse := parse_text hparts h.name.exists_allocator fun hoperator => hcall hoperator.1
  rwa [MemberPath.text] at hparse

/-- Of the members of its class a method is the only one with its name and signature. -/
theorem filter_matchesPath (hbuild : build unit options = .ok table)
    (h : table.Addressable m info f) :
    (table.membersOf info.owner).filter
        (table.matchesPath ⟨table.className info.owner, f.name.val, some f.signature⟩) = [m] := by
  obtain ⟨hlisted, _⟩ := classNamed?_owner hbuild h.member
  have hnodup := (wellFormed_of_build hbuild).nodup_membersOf info.owner
  have hmatches : ∀ n ∈ table.membersOf info.owner, table.matchesPath
      ⟨table.className info.owner, f.name.val, some f.signature⟩ n = (n == m) := by
    intro n hn
    rw [Bool.eq_iff_iff, beq_iff_eq]
    constructor
    · intro hmatch
      obtain ⟨hname, hsignature⟩ := Bool.and_eq_true_iff.mp hmatch
      obtain ⟨other, hother, hsame⟩ := (Option.any_eq_true _ _).mp hsignature
      by_contra hne
      have hotherName : other.name.val = table.memberName n := by
        obtain ⟨info', hinfo', hmethod⟩ := Option.bind_eq_some_iff.mp hother
        rw [memberName, hinfo']
        exact name_of_method? hmethod
      exact h.differs n hn hne other hother (hotherName.trans (beq_iff_eq.mp hname))
        (beq_iff_eq.mp hsame)
    · rintro rfl
      have hname : table.memberName n = f.name.val := by
        rw [memberName, h.member]
        exact (name_of_method? (congrArg MemberDecl.method? h.method)).symm
      simp [matchesPath, hname, h.method?_eq]
  rw [List.filter_congr hmatches, List.filter_beq, List.count_eq_one_of_mem hnodup hlisted]
  rfl

/-- **The text of a method leads to it**: class, name and signature are read as a path, and the path
    leads to the method itself, unless its only parameter is `void`. -/
theorem lookupTarget_methodText (hbuild : build unit options = .ok table)
    (h : table.Addressable m info f) :
    ∃ path, MemberPath.parse (table.methodText info f) = .ok path ∧
      (table.lookupTarget path = .ok m ↔ f.signature.params ≠ [.named "void"]) := by
  refine ⟨_, parse_methodText h, ?_⟩
  obtain ⟨_, hnamed⟩ := classNamed?_owner hbuild h.member
  have hreread : f.signature.reread = f.signature ↔ f.signature.ReadsBack :=
    Signature.reread_eq_iff fun type htype => (h.spelled htype).1
  rw [lookupTarget_eq_ok_iff]
  simp only [hnamed, Option.some.injEq, exists_eq_left']
  constructor
  · intro hfound
    -- the member found has the signature that was asked for
    have hmem : m ∈ (table.membersOf info.owner).filter _ := hfound ▸ List.mem_singleton_self m
    have hmatch := (Bool.and_eq_true_iff.mp (List.mem_filter.mp hmem).2).2
    rw [h.method?_eq] at hmatch
    exact (hreread.mp (beq_iff_eq.mp hmatch).symm).2
  · intro hvoid
    rw [hreread.mpr ⟨fun type htype => (h.spelled htype).2.2, hvoid⟩]
    exact filter_matchesPath hbuild h

/-- A class with an index operator for objects and one for `const` objects. -/
def indexedUnit : SourceUnit :=
  bareUnit [.ofClass { bareClass "Row" [] ["size"] with
    members := [.method (bareFunc "operator[]" [.lref (.const (.named "Key"))] none),
      .method { bareFunc "operator[]" [.lref (.const (.named "Key"))] none with isConst := true }] }]

/-- The operator for `const` objects is addressed by its text. -/
theorem lookupTarget_indexedUnit : ∃ table info f, build indexedUnit {} = .ok table ∧
    table.Addressable 1 info f ∧ table.methodText info f = "Row::operator[](const Key&) const" ∧
      ∃ path, MemberPath.parse "Row::operator[](const Key&) const" = .ok path ∧
        table.lookupTarget path = .ok 1 := by
  have htable : ∃ table info f, build indexedUnit {} = .ok table ∧
      table.members[1]? = some info ∧ info.decl = .method f ∧ f.isConst = true ∧
      table.className info.owner = "Row" ∧ f.name.val = "operator[]" ∧
      f.params.map Param.type = [.lref (.const (.named "Key"))] ∧
      table.methodText info f = "Row::operator[](const Key&) const" ∧
      table.membersOf info.owner = [0, 1] ∧ (table.method? 0).all (fun g => !g.isConst) = true :=
    ⟨_, _, _, rfl, rfl, rfl, rfl, rfl, rfl, rfl, rfl, rfl, rfl⟩
  obtain ⟨table, info, f, h, hm, hmethod, hconst, howner, hname, hparams, htext, hmembers, hother⟩ :=
    htable
  have haddressable : table.Addressable 1 info f := by
    refine ⟨hm, hmethod, ?_, ?_, fun p hp => ?_, fun p hp => ?_, ?_⟩
    · rw [howner]
      exact ⟨_, _, rfl, by decide, List.all_eq_true.mp (by decide)⟩
    · rw [hname]
      exact @MethodName.symbols ['[', ']'] (by decide) (List.all_eq_true.mp (by decide))
    · have htype := hparams ▸ List.mem_map_of_mem (f := Param.type) hp
      rw [List.mem_singleton.mp htype]
      exact ⟨"const Key&", rfl⟩
    · have htype := hparams ▸ List.mem_map_of_mem (f := Param.type) hp
      rw [List.mem_singleton.mp htype]
      rfl
    · intro n hn hne other hother' _ hsame
      rw [hmembers] at hn
      obtain rfl : n = 0 := by simpa [hne] using hn
      rw [hother'] at hother
      have hsameConst : other.isConst = f.isConst := congrArg Signature.isConst hsame
      simp [hsameConst, hconst] at hother
  obtain ⟨path, hparse, hfound⟩ := lookupTarget_methodText h haddressable
  refine ⟨table, info, f, h, haddressable, htext, path, htext ▸ hparse, hfound.mpr ?_⟩
  intro hvoid
  have hsignature : f.signature.params = (f.params.map Param.type).map Ty.stripConst := rfl
  rw [hsignature, hparams] at hvoid
  cases hvoid

/-- A class with a method whose only parameter is a `const void`. -/
def constVoidUnit : SourceUnit :=
  bareUnit [.ofClass { bareClass "Row" [] [] with
    members := [.method (bareFunc "clear" [.const (.named "void")] none)] }]

/-- A class whose name begins with a letter that is not ASCII. -/
def accentedUnit : SourceUnit :=
  bareUnit [.ofClass { bareClass "Élan" [] [] with members := [.method (bareFunc "clear" [] none)] }]

/-- Two methods whose text does not lead to them: a single parameter `const void` is written like no
    parameters, and a class name begins with an ASCII letter or it is none. -/
theorem methodText_astray :
    (∃ table info f, build constVoidUnit {} = .ok table ∧ table.Addressable 0 info f ∧
      f.params.map Param.type ≠ [.named "void"] ∧ table.methodText info f = "Row::clear(void)" ∧
        ∃ path, MemberPath.parse "Row::clear(void)" = .ok path ∧
          table.lookupTarget path = .error (Error.invalidTarget "Row::clear()").unplaced) ∧
    ∃ table info f, build accentedUnit {} = .ok table ∧ table.members[0]? = some info ∧
      info.decl = .method f ∧ f.params = [] ∧ table.methodText info f = "Élan::clear()" ∧
        MemberPath.parse "Élan::clear()" = .error (Error.badMemberPath "Élan::clear()").unplaced := by
  constructor
  · refine ⟨_, _, _, rfl, ⟨rfl, rfl, ⟨_, _, rfl, by decide, List.all_eq_true.mp (by decide)⟩,
      ?_, ?_, ?_, ?_⟩, ?_, rfl, ⟨"Row", "clear", some ⟨[], false⟩⟩, by decide, rfl⟩
    · exact .identifier ⟨_, _, rfl, by decide, List.all_eq_true.mp (by decide)⟩ (by decide)
    · exact List.forall_mem_singleton.mpr ⟨"const void", rfl⟩
    · exact List.forall_mem_singleton.mpr rfl
    · exact List.forall_mem_singleton.mpr fun hne => absurd rfl hne
    · exact fun heq => by cases heq
  · exact ⟨_, _, _, rfl, rfl, rfl, rfl, rfl, by decide⟩

end SymbolTable

end MemberRefs
