import MemberRefs.Proofs.Resolve.Soundness

/-!
# Constness of objects

Naming a member asks twice whether the object is `const`: to select among the members that the name means,
and, for a field, to type the expression. The selection asks for the object that the member belongs to
(`objectConst`). For a qualified name this is `this` only in a method of the class written or of one that
derives from it. The type of a qualified name asks whether the function is `const`, and so misses where
the classes are not related.

* `resolveName_eq`: with which constness a name is selected, in each form of access.
* `type_of_found`: with which constness it is typed.
* `objectConst_qualified_iff`: when a qualified name belongs to a `const` object.
* `type_of_field`: when the two agree.
-/

namespace MemberRefs

open Relation

namespace SymbolTable

variable {table : SymbolTable} {scope : Scope} {e : Expr} {o : Occurrence} {m : MemberId}

/-! ## 1. Selecting -/

/-- Whether the object that a name belongs to is `const`, as the selection among members is told. -/
def objectConst (table : SymbolTable) (scope : Scope) : Expr → Bool
  | .ident _ _ => scope.isConst
  | .member _ base op _ =>
      (base.read table scope).type.any fun type => (objectType type op).toOption.any Ty.isConst
  | .qualified _ owner _ =>
      scope.isConst && (table.classNamed? owner.val).any fun c =>
        scope.owner.any fun own => table.derivesFrom own c
  | _ => false

/-- What a name means, in a call with arguments or without one, by the form in which it is written. -/
def resolveName (table : SymbolTable) (scope : Scope) (args : Option ArgTypes) :
    Expr → Except Unresolved Referent
  | .ident _ name => table.resolveBare scope name.val args
  | .member _ base op name =>
      match (base.read table scope).type with
      | some type => (table.resolveAccess type op name.val args).map .member
      | none => .error .unknownType
  | .qualified _ owner name => (table.resolveQualified scope owner.val name.val args).map .member
  | _ => .error .unknownType

/-- **A name is selected for the object that it belongs to**, among the members that it means in the class
    that it goes through. -/
theorem resolveName_eq {form : Access} {c : ClassId} {n : String} {ms : List MemberId}
    (hname : e.isName = true) (hway : GoesThrough table scope e form c n)
    (hfree : ∀ span name, e = .ident span name → scope.lookup name.val = none)
    (hms : table.lookupMember c n = .ok ms) (args : Option ArgTypes) :
    table.resolveName scope args e =
      (table.selectOverload n ms args (table.objectConst scope e)).map .member := by
  cases hway with
  | implicit hc => simp only [resolveName, resolveBare, hfree _ _ rfl, hc, hms, objectConst]
  | object htype hn hc =>
    obtain ⟨object, hobject, hn⟩ := hn.objectType_eq
    simp only [resolveName, objectConst, htype, resolveAccess, hobject, classOf_of_name? hn hc, hms,
      bind, Except.bind, Option.any_some, Except.toOption]
  | qualified hc =>
    simp only [resolveName, objectConst, resolveQualified, hc, hms, bind, Except.bind,
      Option.any_some]
  | unary | binary => cases hname

/-- **A qualified name belongs to a `const` object** in a `const` method of the class written, or of one
    that derives from it. -/
theorem objectConst_qualified_iff {span : Span} {owner name : SpannedName} :
    table.objectConst scope (.qualified span owner name) = true ↔
      scope.isConst = true ∧ ∃ own c, scope.owner = some own ∧
        table.classNamed? owner.val = some c ∧ Reaches table.bases own c := by
  simp only [objectConst, Bool.and_eq_true, Option.any_eq_true, derivesFrom_iff]
  constructor
  · rintro ⟨hconst, c, hc, own, howner, hderives⟩
    exact ⟨hconst, own, c, howner, hc, hderives⟩
  · rintro ⟨hconst, own, c, howner, hc, hderives⟩
    exact ⟨hconst, c, hc, own, howner, hderives⟩

/-! ## 2. Typing -/

/-- The constness by which an expression that names a field is typed. -/
def typedConst (table : SymbolTable) (scope : Scope) : Expr → Bool
  | .qualified _ _ _ => scope.isConst
  | e => table.objectConst scope e

theorem type_of_readIdent {name : SpannedName}
    (ho : .found o ∈ (table.readIdent scope name none).findings) (hm : o.referent = .member m) :
    (table.readIdent scope name none).type = table.memberType? m false scope.isConst := by
  obtain ⟨_, hres, rfl⟩ := found_of_readIdent ho
  cases hm
  rw [readIdent, hres]
  rfl

theorem type_of_readAccess {form : Access} {base : Option Ty} {op : AccessOp} {name : SpannedName}
    (ho : .found o ∈ (table.readAccess form base op name none).findings)
    (hm : o.referent = .member m) :
    (table.readAccess form base op name none).type = table.memberType? m false
      (base.any fun type => (objectType type op).toOption.any Ty.isConst) := by
  obtain ⟨type, object, _, rfl, hobject, hres, rfl⟩ := found_of_readAccess ho
  cases hm
  simp only [readAccess, hres, Option.any_some, hobject]
  rfl

theorem type_of_readQualified {owner name : SpannedName}
    (ho : .found o ∈ (table.readQualified scope owner name none).findings)
    (hm : o.referent = .member m) :
    (table.readQualified scope owner name none).type =
      table.memberType? m false scope.isConst := by
  obtain ⟨_, hres, rfl⟩ := found_of_readQualified ho
  cases hm
  rw [readQualified, hres]
  rfl

/-- **A name that is not called is typed as its member.** -/
theorem type_of_found (hname : e.isName = true) (ho : .found o ∈ Visit.findings table scope ⟨e, none⟩)
    (hm : o.referent = .member m) :
    (e.read table scope).type = table.memberType? m false (table.typedConst scope e) := by
  cases e with
  | ident span name => exact type_of_readIdent ho hm
  | member span base op name => exact type_of_readAccess ho hm
  | qualified span owner name => exact type_of_readQualified ho hm
  | _ => cases hname

/-- The type of an expression that names a field of an object. -/
theorem memberType?_field {member : MemberInfo} {field : FieldDecl} {objectConst : Bool}
    (hmember : table.members[m]? = some member) (hdecl : member.decl = .field field)
    (hstatic : field.isStatic = false) (href : field.type.isReference = false) :
    table.memberType? m false objectConst =
      some (if objectConst then field.type.asConst else field.type) := by
  simp [memberType?, hmember, MemberInfo.type?, MemberInfo.isStatic, hdecl, hstatic, href]

/-! ## 3. Agreement -/

/-- A name in a `const` function that is qualified by a class which the class of the function neither is
    nor derives from. -/
def Unrelated (table : SymbolTable) (scope : Scope) (e : Expr) : Prop :=
  ∃ span owner name, e = .qualified span owner name ∧ scope.isConst = true ∧
    ∀ own c, scope.owner = some own → table.classNamed? owner.val = some c →
      ¬ Reaches table.bases own c

/-- **Selection and type agree** except for names qualified by unrelated classes. -/
theorem typedConst_eq_iff :
    table.typedConst scope e = table.objectConst scope e ↔ ¬ table.Unrelated scope e := by
  cases e with
  | qualified span owner name =>
    have hiff := @objectConst_qualified_iff table scope span owner name
    constructor
    · rintro hsame ⟨_, _, _, heq, hconst, hapart⟩
      cases heq
      obtain ⟨_, own, c, howner, hc, hreaches⟩ := hiff.mp (hsame ▸ hconst)
      exact hapart own c howner hc hreaches
    · intro hrelated
      rw [Bool.eq_iff_iff, hiff]
      refine ⟨fun hconst => ⟨hconst, ?_⟩, fun h => h.1⟩
      by_contra hnone
      exact hrelated ⟨_, _, _, rfl, hconst, fun own c howner hc hreaches =>
        hnone ⟨own, c, howner, hc, hreaches⟩⟩
  | _ => exact iff_of_true rfl fun ⟨_, _, _, heq, _⟩ => nomatch heq

/-- In a scope of a function body a name that refers to a member is no variable. -/
theorem lookup_of_found (hscope : NoMembers scope) {name : SpannedName}
    (ho : .found o ∈ (table.readIdent scope name none).findings) (hm : o.referent = .member m) :
    scope.lookup name.val = none := by
  obtain ⟨referent, hres, rfl⟩ := found_of_readIdent ho
  cases hm
  rcases resolveBare_eq_ok hres with ⟨b, hb, href⟩ | ⟨hnone, _⟩
  · exact absurd href (hscope _ _ hb m)
  · exact hnone

/-- **The type of a field follows the object that was selected for**, unless the name is qualified by an
    unrelated class. Wherever an expression that is not called names a field of an object, whose type is no
    reference, a name in its place means, with any arguments, what is selected for an object of the
    constness `objectConst`. The type of the expression is that of the field, made `const` when this
    constness is true. A name qualified by an unrelated class has the type of the field made `const`,
    although its constness is false. For a qualified name the constness is true in a `const` method of the
    class written or of one that derives from it. -/
theorem type_of_field {unit : SourceUnit} {options : Options} (h : build unit options = .ok table)
    {info : FuncInfo} {f : FuncId} {enclosing : List (List Stmt)} {member : MemberInfo}
    {field : FieldDecl} (hname : e.isName = true)
    (ho : .found o ∈ Visit.findings table (info.scopeIn f enclosing) ⟨e, none⟩)
    (hm : o.referent = .member m) (hmember : table.members[m]? = some member)
    (hdecl : member.decl = .field field) (hstatic : field.isStatic = false)
    (href : field.type.isReference = false) :
    let scope := info.scopeIn f enclosing
    (∃ c n ms, GoesThrough table scope e o.access c n ∧ table.lookupMember c n = .ok ms ∧ m ∈ ms ∧
      ∀ args, table.resolveName scope args e =
        (table.selectOverload n ms args (table.objectConst scope e)).map .member) ∧
    (¬ table.Unrelated scope e → (e.read table scope).type =
      some (if table.objectConst scope e then field.type.asConst else field.type)) ∧
    (table.Unrelated scope e → table.objectConst scope e = false ∧
      (e.read table scope).type = some field.type.asConst) ∧
    ∀ span owner name, e = .qualified span owner name →
      (table.objectConst scope e = true ↔ scope.isConst = true ∧ ∃ own c, scope.owner = some own ∧
        table.classNamed? owner.val = some c ∧ Reaches table.bases own c) := by
  intro scope
  have hw := wellFormed_of_build h
  have hscope : NoMembers scope := noMembers_scopeIn info f enclosing
  have htype := type_of_found hname ho hm
  rw [memberType?_field hmember hdecl hstatic href] at htype
  refine ⟨?_, fun hrelated => ?_, fun hapart => ?_, ?_⟩
  · obtain ⟨c, n, ms, hway, hms, hmem⟩ := through_of_found hscope ho hm
    refine ⟨c, n, ms, hway, hms, hmem, fun args => resolveName_eq hname hway ?_ hms args⟩
    rintro span name rfl
    exact lookup_of_found hscope ho hm
  · rw [← typedConst_eq_iff.mpr hrelated]
    exact htype
  · have hdiffer := mt typedConst_eq_iff.mp (not_not.mpr hapart)
    obtain ⟨span, owner, name, rfl, hconst, _⟩ := hapart
    have htyped : table.typedConst scope (.qualified span owner name) = true := hconst
    rw [htyped] at hdiffer htype
    exact ⟨by simpa using hdiffer, htype⟩
  · rintro span owner name rfl
    exact objectConst_qualified_iff

/-- A class with a method `at` that is declared twice, the second time for `const` objects; a class with an
    object of it; and two classes, one of which derives from that one, each with a `const` method that
    calls `at` on this object. -/
def storedUnit : SourceUnit :=
  let access := bareFunc "at" [] none
  let stored : FieldDecl := ⟨bareName "cell", .named "Cell", false, Span.atStart⟩
  let object : Expr := .qualified Span.atStart (bareName "Row") (bareName "cell")
  let call : Expr := .call Span.atStart (.member Span.atStart object .dot (bareName "at")) []
  let reader : FuncDecl := { bareFunc "read" [] (some [.ret (some call)]) with isConst := true }
  bareUnit [.ofClass { bareClass "Cell" [] [] with
      members := [.method access, .method { access with isConst := true }] },
    .ofClass { bareClass "Row" [] [] with members := [.field stored] },
    .ofClass { bareClass "Head" ["Row"] [] with members := [.method reader] },
    .ofClass { bareClass "Other" [] [] with members := [.method reader] }]

/-- In the class that derives from `Row` the object is `const`, and so is its type. -/
theorem type_of_field_inherited : ∃ table info, build storedUnit {} = .ok table ∧
    table.funcs[0]? = some info ∧
    ((Expr.qualified Span.atStart (bareName "Row") (bareName "cell")).read table
      (info.scopeIn 0 [])).type = some (.const (.named "Cell")) := by
  have hbuilt : ∃ table info member field, build storedUnit {} = .ok table ∧
      table.funcs[0]? = some info ∧ table.members[2]? = some member ∧ member.decl = .field field ∧
      field.isStatic = false ∧ field.type = .named "Cell" ∧
      table.objectConst (info.scopeIn 0 [])
        (.qualified Span.atStart (bareName "Row") (bareName "cell")) = true ∧
      .found ⟨Span.atStart, .member 2, .qualified, none⟩ ∈ Visit.findings table (info.scopeIn 0 [])
        ⟨.qualified Span.atStart (bareName "Row") (bareName "cell"), none⟩ :=
    ⟨_, _, _, _, rfl, rfl, rfl, rfl, rfl, rfl, rfl, List.mem_singleton_self _⟩
  obtain ⟨table, info, member, field, h, hf, hmember, hdecl, hstatic, htype, hconst, hfound⟩ := hbuilt
  obtain ⟨_, hsame, hapart, _⟩ :=
    type_of_field h rfl hfound rfl hmember hdecl hstatic (by rw [htype]; rfl)
  have hrelated : ¬ table.Unrelated (info.scopeIn 0 [])
      (.qualified Span.atStart (bareName "Row") (bareName "cell")) := by
    intro hunrelated
    rw [(hapart hunrelated).1] at hconst
    cases hconst
  refine ⟨table, info, h, hf, ?_⟩
  rw [hsame hrelated, if_pos hconst, htype]
  rfl

/-- In the other class the object is not `const` and its type is, so that the method for `const` objects is
    called on it. -/
theorem type_of_field_elsewhere : ∃ table info, build storedUnit {} = .ok table ∧
    table.funcs[1]? = some info ∧
    .found ⟨Span.atStart, .member 2, .qualified, none⟩ ∈ Visit.findings table (info.scope 1)
      ⟨.qualified Span.atStart (bareName "Row") (bareName "cell"), none⟩ ∧
    table.objectConst (info.scope 1)
      (.qualified Span.atStart (bareName "Row") (bareName "cell")) = false ∧
    ((Expr.qualified Span.atStart (bareName "Row") (bareName "cell")).read table
      (info.scope 1)).type = some (.const (.named "Cell")) ∧
    table.resolveAccess (.named "Cell") .dot "at" (some []) = .ok 0 ∧
    ∃ o ∈ (table.resolve 1).occurrences, o.access = .object ∧ o.referent = .member 1 := by
  have hbuilt : ∃ table info, build storedUnit {} = .ok table ∧ table.funcs[1]? = some info ∧
      .found ⟨Span.atStart, .member 2, .qualified, none⟩ ∈ Visit.findings table (info.scope 1)
        ⟨.qualified Span.atStart (bareName "Row") (bareName "cell"), none⟩ ∧
      table.objectConst (info.scope 1)
        (.qualified Span.atStart (bareName "Row") (bareName "cell")) = false ∧
      ((Expr.qualified Span.atStart (bareName "Row") (bareName "cell")).read table
        (info.scope 1)).type = some (.const (.named "Cell")) ∧
      table.resolveAccess (.named "Cell") .dot "at" (some []) = .ok 0 ∧
      ∃ site ∈ Stmt.sites info.decl.statements,
        .found ⟨Span.atStart, .member 1, .object, some ⟨Span.atStart, []⟩⟩ ∈
          table.findingsAt info 1 site :=
    ⟨_, _, rfl, rfl, List.mem_singleton_self _, rfl, rfl, rfl, _,
      List.mem_cons_of_mem _ List.mem_cons_self, List.mem_singleton_self _⟩
  obtain ⟨table, info, h, hf, hfield, hconst, htype, haccess, hfound⟩ := hbuilt
  exact ⟨table, info, h, hf, hfield, hconst, htype, haccess, _, (mem_occurrences_iff hf).mpr hfound,
    rfl, rfl⟩

end SymbolTable

end MemberRefs
