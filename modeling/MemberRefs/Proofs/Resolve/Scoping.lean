import MemberRefs.Proofs.Resolve.Site
import MemberRefs.Proofs.Table.Built
import MemberRefs.Proofs.Table.Overload

/-!
# Lexical scoping

What a name means is said by the binders visible at its site. The first of them that has the name is what
the name refers to. A name that no binder has is looked up in the enclosing class, unless it is known to
mean a parameter or a local variable.

* `bareAt_findingsAt`: names written without qualification.
* `boundAt_findingsAt`: names known to mean a parameter, and names known to mean a local variable.
* `resolve_lexical`: every such name of every function body.
-/

namespace MemberRefs

/-- The call that a visit is part of, when what is visited names what is called. -/
def Visit.callSite? (v : Visit) : Option CallSite :=
  v.call.map fun (span, args) => ⟨span, args.map Expr.span⟩

theorem Visit.map_site_call? (table : SymbolTable) (scope : Scope) (v : Visit) :
    (v.call? table scope).map Call.site = v.callSite? := by
  rw [Visit.call?, Visit.callSite?, Option.map_map]
  rfl

namespace SymbolTable

variable {table : SymbolTable} {info : FuncInfo} {f : FuncId}

/-! ## 1. Names without a binder -/

/-- What may become of a bare name that only the members of the class `c` can give a meaning. -/
inductive ThroughClass (table : SymbolTable) (c : ClassId) (name : SpannedName)
    (call : Option CallSite) : Finding → Prop where
  /-- The name is one of the members that it means in the class. -/
  | member {ms : List MemberId} {m : MemberId} (hms : table.lookupMember c name.val = .ok ms)
      (hm : m ∈ ms) : ThroughClass table c name call (.found ⟨name.span, .member m, .implicit, call⟩)
  /-- The class has members of this name, but which one is meant cannot be said. -/
  | overloaded {ms : List MemberId} {reason : Unresolved}
      (hms : table.lookupMember c name.val = .ok ms)
      (hreason : reason = .noViableOverload name.val ∨ reason = .ambiguousOverload name.val) :
      ThroughClass table c name call (.missing ⟨reason, name.span⟩)
  /-- The class has no member of this name. -/
  | unknown {owner n : String} (h : table.lookupMember c name.val = .error (.noSuchMember owner n)) :
      ThroughClass table c name call (.missing ⟨.unknownName name.val, name.span⟩)
  /-- The members of this name cannot be found. -/
  | failed {reason : Unresolved} (h : table.lookupMember c name.val = .error reason)
      (hreason : ∀ owner n, reason ≠ .noSuchMember owner n) :
      ThroughClass table c name call (.missing ⟨reason, name.span⟩)

/-- A bare name that the scope does not bind is read through the class of the scope. -/
theorem readIdent_throughClass {scope : Scope} {c : ClassId} {name : SpannedName}
    (call : Option Call) (hname : scope.lookup name.val = none) (hc : scope.owner = some c) :
    ∃ x, (table.readIdent scope name call).findings = [x] ∧
      ThroughClass table c name (call.map Call.site) x := by
  unfold readIdent resolveBare
  rw [hname, hc]
  cases hms : table.lookupMember c name.val with
  | ok ms =>
    cases hm : table.selectOverload name.val ms (call.map Call.args) scope.isConst with
    | ok m =>
      simp only [hms, hm, Except.map]
      exact ⟨_, rfl, .member hms (mem_of_selectOverload hm)⟩
    | error reason =>
      simp only [hms, hm, Except.map]
      exact ⟨_, rfl, .overloaded hms (selectOverload_error hm)⟩
  | error reason =>
    by_cases hreason : ∃ owner n, reason = .noSuchMember owner n
    · obtain ⟨owner, n, rfl⟩ := hreason
      simp only [hms]
      exact ⟨_, rfl, .unknown hms⟩
    · simp only [hms]
      refine ⟨.missing ⟨reason, name.span⟩, ?_,
        .failed hms fun owner n he => hreason ⟨owner, n, he⟩⟩
      cases reason with
      | noSuchMember owner n => exact absurd ⟨owner, n, rfl⟩ hreason
      | _ => rfl

/-! ## 2. Names at a site -/

/-- Lexical scoping for a name written without qualification. -/
structure BareAt (table : SymbolTable) (info : FuncInfo) (f : FuncId) (site : Site)
    (name : SpannedName) (findings : List Finding) : Prop where
  /-- The first visible binder of the name is meant, and no member. -/
  of_binder : ∀ b, firstBinder? info.decl site.enclosing name.val = some b →
    findings = [.found ⟨name.span, b.referent f, .implicit, site.visit.callSite?⟩] ∧
      ∀ m, b.referent f ≠ .member m
  /-- Without a binder and outside of a class the name is unknown. -/
  of_noClass : firstBinder? info.decl site.enclosing name.val = none → info.owner = none →
    findings = [.missing ⟨.unknownName name.val, name.span⟩]
  /-- Without a binder the members of the class give the name its meaning. -/
  of_class : ∀ c k, firstBinder? info.decl site.enclosing name.val = none →
    info.owner = some (c, k) →
      ∃ x, findings = [x] ∧ ThroughClass table c name site.visit.callSite? x

/-- Lexical scoping for a name known to mean a parameter, or known to mean a local variable. -/
structure BoundAt (info : FuncInfo) (f : FuncId) (site : Site) (name : SpannedName) (param : Bool)
    (findings : List Finding) : Prop where
  /-- The first visible binder of the name is meant when it is of that kind. -/
  of_binder : ∀ b, firstBinder? info.decl site.enclosing name.val = some b → b.isParam = param →
    findings = [.found ⟨name.span, b.referent f, .implicit, none⟩]
  /-- A first visible binder of the other kind hides those behind it. -/
  of_otherKind : ∀ b, firstBinder? info.decl site.enclosing name.val = some b →
    b.isParam ≠ param → findings = [.missing ⟨.unboundLocal name.val, name.span⟩]
  /-- Without a binder the name is unbound, in a class as well. -/
  of_noBinder : firstBinder? info.decl site.enclosing name.val = none →
    findings = [.missing ⟨.unboundLocal name.val, name.span⟩]

/-- **A name written without qualification means its first visible binder**, or else a member. -/
theorem bareAt_findingsAt {site : Site} {span : Span} {name : SpannedName}
    (hnode : site.node = .ident span name) :
    BareAt table info f site name (table.findingsAt info f site) := by
  have hfindings : table.findingsAt info f site =
      (table.readIdent (info.scopeAt f site) name
        (site.visit.call? table (info.scopeAt f site))).findings := by
    have hvisit : site.visit.node = .ident span name := hnode
    simp only [findingsAt, Visit.findings, hvisit]
  have hlookup := @lookup_scopeAt info f site name.val
  have howner : (info.scopeAt f site).owner = info.owner.map Prod.fst := rfl
  rw [hfindings]
  refine ⟨fun b hb => ⟨?_, b.referent_ne_member f⟩, fun hnone hclass => ?_,
    fun c k hnone hclass => ?_⟩
  · rw [hb] at hlookup
    simp [readIdent, resolveBare, hlookup, Visit.map_site_call?]
  · rw [hnone] at hlookup
    rw [hclass] at howner
    simp [readIdent, resolveBare, hlookup, howner, Reading.fail]
  · rw [hnone] at hlookup
    rw [hclass] at howner
    rw [← Visit.map_site_call? table (info.scopeAt f site)]
    exact readIdent_throughClass _ hlookup howner

theorem boundAt_readBound (site : Site) (name : SpannedName) (param : Bool) :
    BoundAt info f site name param (readBound (info.scopeAt f site) name param).findings := by
  have hlookup := @lookup_scopeAt info f site name.val
  refine ⟨fun b hb hkind => ?_, fun b hb hkind => ?_, fun hnone => ?_⟩
  · rw [hb] at hlookup
    simp [readBound, hlookup, Binder.isParam_referent, hkind]
  · rw [hb] at hlookup
    simp [readBound, hlookup, Binder.isParam_referent, hkind, Reading.fail]
  · rw [hnone] at hlookup
    simp [readBound, hlookup, Reading.fail]

/-- **A name known to mean a parameter or a local variable means its first visible binder**, when this is
    of that kind. -/
theorem boundAt_findingsAt {site : Site} {span : Span} {name : SpannedName} :
    (site.node = .paramRef span name →
      BoundAt info f site name true (table.findingsAt info f site)) ∧
    (site.node = .localRef span name →
      BoundAt info f site name false (table.findingsAt info f site)) := by
  constructor
  · intro hnode
    have hvisit : site.visit.node = .paramRef span name := hnode
    simp only [findingsAt, Visit.findings, hvisit]
    exact boundAt_readBound site name true
  · intro hnode
    have hvisit : site.visit.node = .localRef span name := hnode
    simp only [findingsAt, Visit.findings, hvisit]
    exact boundAt_readBound site name false

/-! ## 3. Names of a function body -/

/-- **Lexical scoping.** The resolution of a function body is made of what is found at its sites, which
    are those of all its expressions. There a name without qualification, or one known to mean a
    parameter or a local variable, means the first visible binder that has it. -/
theorem resolve_lexical (hf : table.funcs[f]? = some info) :
    table.resolve f = .ofFindings f
      ((Stmt.sites info.decl.statements).flatMap (table.findingsAt info f)) ∧
    ((Stmt.sites info.decl.statements).map Site.node).Perm (Stmt.exprsWithin info.decl.statements) ∧
    ∀ site ∈ Stmt.sites info.decl.statements, ∀ span name,
      (site.node = .ident span name →
        BareAt table info f site name (table.findingsAt info f site)) ∧
      (site.node = .paramRef span name →
        BoundAt info f site name true (table.findingsAt info f site)) ∧
      (site.node = .localRef span name →
        BoundAt info f site name false (table.findingsAt info f site)) := by
  refine ⟨?_, map_node_sites_perm _, fun site _ span name =>
    ⟨bareAt_findingsAt, boundAt_findingsAt⟩⟩
  rw [resolve, findings_eq_flatMap_sites hf]

/-- A local variable `id` that starts as `id`. -/
def selfInitialized : LocalDecl :=
  ⟨bareName "id", .named "int", some (.ident Span.atStart (bareName "id")), Span.atStart⟩

/-- The body `int id = id;` of a method with a parameter `id`, in a class with a field `id`. -/
def shadowingUnit : SourceUnit :=
  let param : Param := ⟨some (bareName "id"), .named "int", false, Span.atStart⟩
  let method : FuncDecl :=
    { qualifier := none, name := bareName "get", params := [param], result := none, isConst := false,
      isStatic := false, isVirtual := false, body := some [.decl selfInitialized],
      extent := Span.atStart }
  let owner := bareClass "Widget" [] ["id"]
  bareUnit [.ofClass { owner with members := owner.members ++ [.method method] }]

/-- In its own initializer a local variable hides the parameter and the field of its name. -/
theorem resolve_shadowingUnit : ∃ table info site, build shadowingUnit {} = .ok table ∧
    table.funcs[0]? = some info ∧ site ∈ Stmt.sites info.decl.statements ∧
    site.node = .ident Span.atStart (bareName "id") ∧
    table.findingsAt info 0 site =
      [.found ⟨Span.atStart, .variable Span.atStart, .implicit, none⟩] := by
  refine ⟨_, _, _, rfl, rfl, List.mem_cons_self, rfl, ?_⟩
  refine ((((resolve_lexical ?_).2.2 _ ?_ Span.atStart (bareName "id")).1 ?_).of_binder
    (.variable selfInitialized) ?_).1
  · rfl
  · exact List.mem_cons_self
  · rfl
  · rfl

end SymbolTable

end MemberRefs
