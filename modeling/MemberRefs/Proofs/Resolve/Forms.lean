import MemberRefs.Proofs.Table.Ascent
import MemberRefs.Proofs.Resolve.Site
import MemberRefs.Proofs.Table.Linked
import MemberRefs.Proofs.Table.Overload

/-!
# The forms of a member name agree

A method can name a member `n` of its class `C` as `this->n`, as `(*this).n`, as `C::n` and, unless a
variable hides it, by the bare name. All of them mean the same: the members that the class has for the name
are looked up and one is selected, for an object that is `const` when the method is (`meaningIn`).

* `read_this`, `read_deref_this`: the types of `this` and of `*this`.
* `readAccess_eq`, `readQualified_eq`, `readIdent_eq`: each form reads a name by its meaning.
* `forms_agree`: the four forms at every place of a body, alone and called.
-/

namespace MemberRefs

/-! ## 1. Meanings -/

/-- What a name means as a member, with the type of an expression that is the name, or why it has no
    meaning. -/
abbrev Meaning := Except Unresolved (MemberId × Option Ty)

/-- The reading of a name by its meaning, in a form of access and perhaps as what is called. -/
def Reading.ofMeaning (form : Access) (name : SpannedName) (call : Option CallSite) :
    Meaning → Reading
  | .ok (m, type) => ⟨type, [.found ⟨name.span, .member m, form, call⟩]⟩
  | .error reason => .fail name.span reason

/-- Why a bare name has no meaning: a member that the class does not have is a name unknown in the
    scope. -/
def bareReason (name : String) : Unresolved → Unresolved
  | .noSuchMember _ _ => .unknownName name
  | reason => reason

/-- What a name means as a member of an object of the class `c`. -/
def SymbolTable.meaningIn (table : SymbolTable) (c : ClassId) (objectConst : Bool) (name : String)
    (args : Option ArgTypes) : Meaning := do
  let candidates ← table.lookupMember c name
  let m ← table.selectOverload name candidates args objectConst
  return (m, table.memberType? m args.isSome objectConst)

/-- An expression is read as a name in a form of access: alone, and as what is called, the findings of
    the arguments in front of its own. -/
structure Expr.ReadsAs (table : SymbolTable) (scope : Scope) (form : Access) (name : SpannedName)
    (meaning : Option ArgTypes → Meaning) (e : Expr) : Prop where
  alone : e.read table scope = .ofMeaning form name none (meaning none)
  called : ∀ span args, (Expr.call span e args).read table scope =
    (Reading.ofMeaning form name (some ⟨span, args.map Expr.span⟩)
      (meaning (some (Expr.readArgs table scope args).1))).behind (Expr.readArgs table scope args).2

variable {table : SymbolTable} {scope : Scope}

/-! ## 2. `this` and what it points to -/

/-- The type of the object that `this` points to in a method of the class `c`. -/
def SymbolTable.objectOf (table : SymbolTable) (scope : Scope) (c : ClassId) : Ty :=
  if scope.isConst then (Ty.named (table.className c)).asConst else .named (table.className c)

namespace SymbolTable

theorem isConst_objectOf (c : ClassId) : (table.objectOf scope c).isConst = scope.isConst := by
  unfold objectOf
  cases scope.isConst <;> rfl

theorem stripRefs_objectOf (c : ClassId) :
    (table.objectOf scope c).stripRefs = table.objectOf scope c := by
  unfold objectOf
  cases scope.isConst <;> rfl

theorem pointee?_objectOf (c : ClassId) : (table.objectOf scope c).pointee? = none := by
  unfold objectOf
  cases scope.isConst <;> rfl

theorem name?_objectOf (c : ClassId) :
    (table.objectOf scope c).name? = some (table.className c) := by
  unfold objectOf
  cases scope.isConst <;> rfl

theorem classOf_objectOf {c : ClassId} (hc : table.classNamed? (table.className c) = some c) :
    table.classOf (table.objectOf scope c) = .ok c := by
  rw [classOf, name?_objectOf, Option.bind_some, hc]

/-- In a method `this` points to an object of its class. -/
theorem read_this {c : ClassId} (hc : scope.owner = some c) (hs : scope.isStatic = false)
    (span : Span) :
    (Expr.thisPtr span).read table scope = ⟨some (.pointer (table.objectOf scope c)), []⟩ := by
  simp [Expr.read, readThis, thisType?, hs, hc, objectOf]

/-- In a method `*this` is an object of its class. -/
theorem read_deref_this {c : ClassId} (hc : scope.owner = some c) (hs : scope.isStatic = false)
    (span place inner : Span) :
    (Expr.unary span ⟨"*", place⟩ (.thisPtr inner)).read table scope =
      ⟨some (table.objectOf scope c), []⟩ := by
  rw [Expr.read, read_this hc hs]
  rfl

/-! ## 3. Single names -/

/-- A name behind `.` or `->` is read by its meaning in the class of the object. -/
theorem readAccess_eq {type object : Ty} {op : AccessOp} {c : ClassId}
    (hobject : objectType type op = .ok object) (hc : table.classOf object = .ok c) (form : Access)
    (name : SpannedName) (call : Option Call) :
    table.readAccess form (some type) op name call =
      .ofMeaning form name (call.map Call.site)
        (table.meaningIn c object.isConst name.val (call.map Call.args)) := by
  simp only [readAccess, resolveAccess, meaningIn, hobject, hc, bind, Except.bind, Option.isSome_map]
  cases table.lookupMember c name.val with
  | error reason => rfl
  | ok candidates =>
    simp only
    cases table.selectOverload name.val candidates (call.map Call.args) object.isConst with
    | error reason => rfl
    | ok m => rfl

/-- A qualified name is read by its meaning in the class written, in a method of that class. -/
theorem readQualified_eq {c : ClassId} {owner : SpannedName}
    (hc : table.classNamed? owner.val = some c) (hscope : scope.owner = some c)
    (hself : table.derivesFrom c c = true) (name : SpannedName) (call : Option Call) :
    table.readQualified scope owner name call =
      .ofMeaning .qualified name (call.map Call.site)
        (table.meaningIn c scope.isConst name.val (call.map Call.args)) := by
  simp only [readQualified, resolveQualified, meaningIn, hc, hscope, hself, Option.any_some,
    Bool.and_true, bind, Except.bind, Option.isSome_map]
  cases table.lookupMember c name.val with
  | error reason => rfl
  | ok candidates =>
    simp only
    cases table.selectOverload name.val candidates (call.map Call.args) scope.isConst with
    | error reason => rfl
    | ok m => rfl

/-- A bare name that no variable hides is read by its meaning in the class of the method. -/
theorem readIdent_eq {c : ClassId} (hscope : scope.owner = some c) {name : SpannedName}
    (hfree : scope.lookup name.val = none) (call : Option Call) :
    table.readIdent scope name call =
      .ofMeaning .implicit name (call.map Call.site)
        ((table.meaningIn c scope.isConst name.val (call.map Call.args)).mapError
          (bareReason name.val)) := by
  simp only [readIdent, resolveBare, meaningIn, hscope, hfree, bind, Except.bind,
    Option.isSome_map]
  cases table.lookupMember c name.val with
  | error reason => cases reason <;> rfl
  | ok candidates =>
    simp only
    cases hm : table.selectOverload name.val candidates (call.map Call.args) scope.isConst with
    | error reason =>
      rcases selectOverload_error hm with rfl | rfl
      · rfl
      · rfl
    | ok m => rfl

/-! ## 4. Whole expressions -/

variable {meaning : Option ArgTypes → Meaning} {form : Access} {name : SpannedName}

/-- A member of an object is read as its name, when nothing is found in the object itself. -/
theorem readsAs_member {base : Expr} {type : Ty} {op : AccessOp}
    (hbase : base.read table scope = ⟨some type, []⟩)
    (h : ∀ call : Option Call, table.readAccess (accessForm base op) (some type) op name call =
      .ofMeaning form name (call.map Call.site) (meaning (call.map Call.args))) (span : Span) :
    Expr.ReadsAs table scope form name meaning (.member span base op name) where
  alone := by
    rw [Expr.read, hbase]
    exact h none
  called callSpan args := by
    have hname := h (some ⟨⟨callSpan, args.map Expr.span⟩, (Expr.readArgs table scope args).1⟩)
    simp only [Expr.read, hbase, hname]
    rfl

theorem readsAs_qualified {owner : SpannedName}
    (h : ∀ call : Option Call, table.readQualified scope owner name call =
      .ofMeaning form name (call.map Call.site) (meaning (call.map Call.args))) (span : Span) :
    Expr.ReadsAs table scope form name meaning (.qualified span owner name) where
  alone := h none
  called callSpan args := by
    have hname := h (some ⟨⟨callSpan, args.map Expr.span⟩, (Expr.readArgs table scope args).1⟩)
    simp only [Expr.read, hname]
    rfl

theorem readsAs_ident
    (h : ∀ call : Option Call, table.readIdent scope name call =
      .ofMeaning form name (call.map Call.site) (meaning (call.map Call.args))) (span : Span) :
    Expr.ReadsAs table scope form name meaning (.ident span name) where
  alone := h none
  called callSpan args := by
    have hname := h (some ⟨⟨callSpan, args.map Expr.span⟩, (Expr.readArgs table scope args).1⟩)
    simp only [Expr.read, hname]
    rfl

/-- Every list of argument types is that of some arguments in which nothing is found: a literal has any
    type, and the call of a literal has none. -/
theorem exists_readArgs (table : SymbolTable) (scope : Scope) : ∀ types : ArgTypes,
    ∃ args, Expr.readArgs table scope args = (types, [])
  | [] => ⟨[], rfl⟩
  | type :: types => by
      obtain ⟨args, hargs⟩ := exists_readArgs table scope types
      cases type with
      | some t =>
        refine ⟨.literal Span.atStart t :: args, ?_⟩
        rw [Expr.readArgs, hargs]
        rfl
      | none =>
        refine ⟨.call Span.atStart (.literal Span.atStart (.named "int")) [] :: args, ?_⟩
        rw [Expr.readArgs, hargs]
        rfl

/-- **The forms of a member name agree.** In a function of the class `c` that is not static, at every
    place of the body, `this->n`, `(*this).n` and `C::n` are read by one meaning of the name, without a
    call and for every list of argument types: as the same member with the same type, or all with the
    same failure. A bare name that no variable hides is read by this meaning too, except that a member
    which the class does not have is an unknown name. -/
theorem forms_agree {unit : SourceUnit} {options : Options} {f : FuncId} {info : FuncInfo}
    {c : ClassId} (h : build unit options = .ok table) (hf : table.funcs[f]? = some info)
    (hc : (info.scope f).owner = some c) (hs : (info.scope f).isStatic = false)
    (enclosing : List (List Stmt)) (name : SpannedName) :
    let scope := info.scopeIn f enclosing
    let meaning := table.meaningIn c scope.isConst name.val
    (∀ span this, Expr.ReadsAs table scope .this name meaning
      (.member span (.thisPtr this) .arrow name)) ∧
    (∀ span deref star this, Expr.ReadsAs table scope .object name meaning
      (.member span (.unary deref ⟨"*", star⟩ (.thisPtr this)) .dot name)) ∧
    (∀ span place, Expr.ReadsAs table scope .qualified name meaning
      (.qualified span ⟨table.className c, place⟩ name)) ∧
    (firstBinder? info.decl enclosing name.val = none → ∀ span,
      Expr.ReadsAs table scope .implicit name
        (fun args => (meaning args).mapError (bareReason name.val)) (.ident span name)) ∧
    ∀ types, ∃ args, Expr.readArgs table scope args = (types, []) := by
  intro scope meaning
  have howner : scope.owner = some c := hc
  have hstatic : scope.isStatic = false := hs
  obtain ⟨⟨d, m⟩, hinfo, hd⟩ := Option.map_eq_some_iff.mp hc
  obtain rfl : d = c := hd
  have hnamed := classNamed?_of_owner h hf hinfo
  have hclass := @classOf_objectOf table scope d hnamed
  have hself : table.derivesFrom d d = true := derivesFrom_iff.mpr .refl
  refine ⟨fun span this => ?_, fun span deref star this => ?_, fun span place => ?_,
    fun hfree span => ?_, exists_readArgs table scope⟩
  · have hobject : objectType (.pointer (table.objectOf scope d)) .arrow =
        .ok (table.objectOf scope d) := congrArg Except.ok (stripRefs_objectOf d)
    refine readsAs_member (read_this howner hstatic this) (fun call => ?_) span
    rw [readAccess_eq hobject hclass, isConst_objectOf]
    rfl
  · have hobject : objectType (table.objectOf scope d) .dot = .ok (table.objectOf scope d) := by
      simp [objectType, stripRefs_objectOf, pointee?_objectOf]
    refine readsAs_member (read_deref_this howner hstatic deref star this) (fun call => ?_) span
    rw [readAccess_eq hobject hclass, isConst_objectOf]
    rfl
  · exact readsAs_qualified (readQualified_eq hnamed howner hself name) span
  · have hlookup : scope.lookup name.val = none := by
      rw [lookup_scopeIn, hfree, Option.map_none]
    exact readsAs_ident (readIdent_eq howner hlookup) span

/-- A class with a method `at` that is declared twice, the second time for `const` objects, and a `const`
    method with a body. -/
def overloadedUnit : SourceUnit :=
  let access := bareFunc "at" [.named "int"] none
  let reader : FuncDecl := { bareFunc "read" [] (some []) with isConst := true }
  bareUnit [.ofClass { bareClass "Widget" [] [] with
    members := [.method access, .method { access with isConst := true }, .method reader] }]

/-- In the `const` method `at` means the second of the two, however it is named. -/
theorem forms_overloadedUnit : ∃ table info, build overloadedUnit {} = .ok table ∧
    table.funcs[0]? = some info ∧ (info.scope 0).owner = some 0 ∧
    (info.scope 0).isStatic = false ∧ firstBinder? info.decl [] "at" = none ∧
    ∃ meaning : Option ArgTypes → Meaning,
      meaning (some [some (.named "int")]) = .ok (1, some (.named "int")) ∧
      ∀ span, Expr.ReadsAs table (info.scopeIn 0 []) .this (bareName "at") meaning
          (.member span (.thisPtr span) .arrow (bareName "at")) ∧
        Expr.ReadsAs table (info.scopeIn 0 []) .object (bareName "at") meaning
          (.member span (.unary span ⟨"*", span⟩ (.thisPtr span)) .dot (bareName "at")) ∧
        Expr.ReadsAs table (info.scopeIn 0 []) .qualified (bareName "at") meaning
          (.qualified span ⟨"Widget", span⟩ (bareName "at")) ∧
        Expr.ReadsAs table (info.scopeIn 0 []) .implicit (bareName "at")
          (fun args => (meaning args).mapError (bareReason "at")) (.ident span (bareName "at")) := by
  have hmethod : ∃ table info, build overloadedUnit {} = .ok table ∧
      table.funcs[0]? = some info ∧ (info.scope 0).owner = some 0 ∧
      (info.scope 0).isStatic = false ∧ firstBinder? info.decl [] "at" = none ∧
      table.className 0 = "Widget" ∧
      table.meaningIn 0 (info.scopeIn 0 []).isConst "at" (some [some (.named "int")]) =
        .ok (1, some (.named "int")) :=
    ⟨_, _, rfl, rfl, rfl, rfl, rfl, rfl, rfl⟩
  obtain ⟨table, info, h, hf, hc, hs, hfree, hname, hmeaning⟩ := hmethod
  obtain ⟨hthis, hobject, hqualified, hbare, _⟩ := forms_agree h hf hc hs [] (bareName "at")
  rw [hname] at hqualified
  exact ⟨table, info, h, hf, hc, hs, hfree, _, hmeaning, fun span =>
    ⟨hthis span span, hobject span span span span, hqualified span span, hbare hfree span⟩⟩

end SymbolTable

end MemberRefs
