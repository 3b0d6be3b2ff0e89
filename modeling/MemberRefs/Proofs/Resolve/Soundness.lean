import MemberRefs.Proofs.Resolve.Site
import MemberRefs.Proofs.Table.Lookup
import MemberRefs.Proofs.Table.Overload
import MemberRefs.Proofs.Ty.Layers

/-!
# References are to members of the class they go through

An expression that names a member goes through one class (`GoesThrough`), which the static type of its
object, the class written in front or the enclosing class decides. Whatever such an expression is recorded
to refer to is a member that the name written means in this class, and so a member of the class or of one
it derives from.

* `through_of_found`: what one visit finds, form by form.
* `GoesThrough.unique`: the class and the name are decided.
* `member_of_occurrence`: every occurrence of every function body.
-/

namespace MemberRefs

variable {table : SymbolTable} {scope : Scope}

/-! ## 1. The class that an expression goes through -/

/-- A type denotes objects of the class with a name: behind references and `const` it is that name, and
    for `->` a pointer to it is. -/
inductive Ty.Denotes : Ty → AccessOp → String → Prop where
  | dot {type : Ty} {n : String} (h : type.decay = .named n) : Denotes type .dot n
  | arrow {type pointee : Ty} {n : String} (h : type.decay = .pointer pointee)
      (hn : pointee.decay = .named n) : Denotes type .arrow n

/-- The class that an expression goes through to a member, in each form of access, and the name that the
    member has to have. -/
inductive GoesThrough (table : SymbolTable) (scope : Scope) :
    Expr → Access → ClassId → String → Prop where
  /-- A bare name goes through the class of the function. -/
  | implicit {span : Span} {name : SpannedName} {c : ClassId} (hc : scope.owner = some c) :
      GoesThrough table scope (.ident span name) .implicit c name.val
  /-- A name behind `.` or `->` goes through the class of the object. -/
  | object {span : Span} {base : Expr} {op : AccessOp} {name : SpannedName} {type : Ty} {n : String}
      {c : ClassId} (htype : (base.read table scope).type = some type) (hn : type.Denotes op n)
      (hc : table.classNamed? n = some c) :
      GoesThrough table scope (.member span base op name) (SymbolTable.accessForm base op) c name.val
  /-- A qualified name goes through the class that is written. -/
  | qualified {span : Span} {owner name : SpannedName} {c : ClassId}
      (hc : table.classNamed? owner.val = some c) :
      GoesThrough table scope (.qualified span owner name) .qualified c name.val
  /-- An operator in front of an operand goes through the class of the operand. -/
  | unary {span : Span} {op : SpannedName} {operand : Expr} {type : Ty} {n : String} {c : ClassId}
      (htype : (operand.read table scope).type = some type) (hn : type.decay = .named n)
      (hc : table.classNamed? n = some c) :
      GoesThrough table scope (.unary span op operand) .operator c ("operator" ++ op.val)
  /-- An operator between operands goes through the class of the left one. -/
  | binary {span : Span} {lhs rhs : Expr} {op : SpannedName} {type : Ty} {n : String} {c : ClassId}
      (htype : (lhs.read table scope).type = some type) (hn : type.decay = .named n)
      (hc : table.classNamed? n = some c) :
      GoesThrough table scope (.binary span lhs op rhs) .operator c ("operator" ++ op.val)

theorem Ty.Denotes.unique {type : Ty} {op : AccessOp} {n n' : String} (h : type.Denotes op n)
    (h' : type.Denotes op n') : n = n' := by
  cases h with
  | dot h =>
    cases h' with
    | dot h' => exact Ty.named.inj (h.symm.trans h')
  | arrow h hn =>
    cases h' with
    | arrow h' hn' =>
      have hp := Ty.pointer.inj (h.symm.trans h')
      subst hp
      exact Ty.named.inj (hn.symm.trans hn')

/-- **The class and the name are decided** by the expression and the form of the access. -/
theorem GoesThrough.unique {e : Expr} {form : Access} {c c' : ClassId} {n n' : String}
    (h : GoesThrough table scope e form c n) (h' : GoesThrough table scope e form c' n') :
    c' = c ∧ n' = n := by
  cases h with
  | implicit hc =>
    cases h' with
    | implicit hc' => exact ⟨Option.some.inj (hc'.symm.trans hc), rfl⟩
  | object htype hn hc =>
    cases h' with
    | object htype' hn' hc' =>
      cases htype.symm.trans htype'
      cases hn.unique hn'
      exact ⟨Option.some.inj (hc'.symm.trans hc), rfl⟩
  | qualified hc =>
    cases h' with
    | qualified hc' => exact ⟨Option.some.inj (hc'.symm.trans hc), rfl⟩
  | unary htype hn hc =>
    cases h' with
    | unary htype' hn' hc' =>
      cases htype.symm.trans htype'
      cases hn.symm.trans hn'
      exact ⟨Option.some.inj (hc'.symm.trans hc), rfl⟩
  | binary htype hn hc =>
    cases h' with
    | binary htype' hn' hc' =>
      cases htype.symm.trans htype'
      cases hn.symm.trans hn'
      exact ⟨Option.some.inj (hc'.symm.trans hc), rfl⟩

/-! ## 2. Types of objects -/

/-- The object that `.` or `->` reaches is what the type denotes. -/
theorem denotes_of_objectType {type object : Ty} {op : AccessOp} {n : String}
    (h : objectType type op = .ok object) (hn : object.name? = some n) : type.Denotes op n := by
  unfold objectType at h
  dsimp only at h
  split at h
  · rename_i pointee hpointee
    cases h
    have hdecay := Ty.decay_of_pointee? hpointee
    rw [Ty.decay, Ty.stripRefs_stripRefs] at hdecay
    exact .arrow hdecay (Ty.stripConst_of_name? hn)
  · cases h
    exact .dot (Ty.stripConst_of_name? hn)
  · cases h

/-- Behind references a type that denotes objects of a class is the object that `.` reaches. -/
theorem objectType_dot {type : Ty} {n : String} (h : type.decay = .named n) :
    objectType type .dot = .ok type.stripRefs ∧ type.stripRefs.name? = some n := by
  have hdecay : type.stripRefs.decay = .named n := by
    rw [Ty.decay, Ty.stripRefs_stripRefs, ← Ty.decay, h]
  refine ⟨?_, ?_⟩
  · simp only [objectType, Ty.pointee?, hdecay]
  · rw [Ty.name?, ← Ty.decay, h]

/-- What a type denotes is the object that `.` or `->` reaches. -/
theorem Ty.Denotes.objectType_eq {type : Ty} {op : AccessOp} {n : String} (h : type.Denotes op n) :
    ∃ object, objectType type op = .ok object ∧ object.name? = some n := by
  cases h with
  | dot hn => exact ⟨_, objectType_dot hn⟩
  | @arrow pointee _ h hn =>
    have hdecay : type.stripRefs.decay = .pointer pointee := by
      rw [Ty.decay, Ty.stripRefs_stripRefs, ← Ty.decay, h]
    refine ⟨pointee.stripRefs, ?_, ?_⟩
    · simp only [objectType, Ty.pointee?, hdecay]
    · rw [Ty.name?, ← Ty.decay, hn]

namespace SymbolTable

theorem classOf_of_name? {type : Ty} {n : String} {c : ClassId} (hn : type.name? = some n)
    (hc : table.classNamed? n = some c) : table.classOf type = .ok c := by
  rw [classOf, hn, Option.bind_some, hc]

theorem classOf_eq_ok {type : Ty} {c : ClassId} (h : table.classOf type = .ok c) :
    ∃ n, type.name? = some n ∧ table.classNamed? n = some c := by
  unfold classOf at h
  split at h
  · rename_i hclass
    cases h
    exact Option.bind_eq_some_iff.mp hclass
  · cases h

/-- The class of an operand is the one that the operand is an object of. -/
theorem decay_of_classOf {type : Ty} {c : ClassId} (h : table.classOf type.decay = .ok c) :
    ∃ n, type.decay = .named n ∧ table.classNamed? n = some c := by
  obtain ⟨n, hn, hc⟩ := classOf_eq_ok h
  have hdecay := Ty.stripConst_of_name? hn
  rw [Ty.decay, Ty.stripConst_stripConst] at hdecay
  exact ⟨n, hdecay, hc⟩

/-! ## 3. What a name refers to -/

/-- `m` is among the members that a name means in the class that the expression `e` goes through. -/
def Through (table : SymbolTable) (scope : Scope) (e : Expr) (form : Access) (m : MemberId) : Prop :=
  ∃ c n ms, GoesThrough table scope e form c n ∧ table.lookupMember c n = .ok ms ∧ m ∈ ms

/-- No variable of a scope is a member. -/
def NoMembers (scope : Scope) : Prop :=
  ∀ name b, scope.lookup name = some b → ∀ m, b.referent ≠ .member m

variable {o : Occurrence} {m : MemberId}

/-- A bare name means a variable of the scope, or a member that is selected in the class of the
    function. -/
theorem resolveBare_eq_ok {name : String} {args : Option ArgTypes} {referent : Referent}
    (h : table.resolveBare scope name args = .ok referent) :
    (∃ b, scope.lookup name = some b ∧ b.referent = referent) ∨
      scope.lookup name = none ∧ ∃ c ms m, scope.owner = some c ∧
        table.lookupMember c name = .ok ms ∧ m ∈ ms ∧ referent = .member m := by
  unfold resolveBare at h
  split at h
  · rename_i b hb
    exact .inl ⟨b, hb, Except.ok.inj h⟩
  · cases h
  · rename_i c hlookup hc
    split at h
    · cases h
    · cases h
    · rename_i ms hms
      obtain ⟨m, hsel, hm⟩ := exists_of_map_eq_ok h
      exact .inr ⟨hlookup, c, ms, m, hc, hms, mem_of_selectOverload hsel, hm.symm⟩

/-- A bare name refers to a member of the class of the function. -/
theorem through_readIdent {span : Span} {name : SpannedName} {call : Option Call}
    (hscope : NoMembers scope) (ho : .found o ∈ (table.readIdent scope name call).findings)
    (hm : o.referent = .member m) : table.Through scope (.ident span name) o.access m := by
  obtain ⟨referent, hres, rfl⟩ := found_of_readIdent ho
  cases hm
  rcases resolveBare_eq_ok hres with ⟨b, hb, href⟩ | ⟨_, c, ms, m', hc, hms, hmem, href⟩
  · exact absurd href (hscope _ _ hb m)
  · cases href
    exact ⟨c, name.val, ms, .implicit hc, hms, hmem⟩

/-- A name known to mean a variable refers to no member. -/
theorem not_member_of_readBound {name : SpannedName} {param : Bool} (hscope : NoMembers scope)
    (ho : .found o ∈ (readBound scope name param).findings) : o.referent ≠ .member m := by
  obtain ⟨b, hb, rfl⟩ := found_of_readBound ho
  exact hscope _ _ hb m

/-- A name behind `.` or `->` refers to a member of the class of the object. -/
theorem through_readAccess {span : Span} {base : Expr} {op : AccessOp} {name : SpannedName}
    {call : Option Call}
    (ho : .found o ∈ (table.readAccess (accessForm base op) (base.read table scope).type op name
      call).findings) (hm : o.referent = .member m) :
    table.Through scope (.member span base op name) o.access m := by
  obtain ⟨type, _, _, htype, _, hres, rfl⟩ := found_of_readAccess ho
  cases hm
  obtain ⟨object, hobject, hres⟩ := bind_eq_ok.mp hres
  obtain ⟨c, hc, hres⟩ := bind_eq_ok.mp hres
  obtain ⟨ms, hms, hsel⟩ := bind_eq_ok.mp hres
  obtain ⟨n, hn, hc⟩ := classOf_eq_ok hc
  exact ⟨c, name.val, ms, .object htype (denotes_of_objectType hobject hn) hc, hms,
    mem_of_selectOverload hsel⟩

/-- A qualified name refers to a member of the class written. -/
theorem through_readQualified {span : Span} {owner name : SpannedName} {call : Option Call}
    (ho : .found o ∈ (table.readQualified scope owner name call).findings)
    (hm : o.referent = .member m) :
    table.Through scope (.qualified span owner name) o.access m := by
  obtain ⟨m', hres, rfl⟩ := found_of_readQualified ho
  cases hm
  unfold resolveQualified at hres
  split at hres
  · cases hres
  · rename_i c hc
    obtain ⟨ms, hms, hsel⟩ := bind_eq_ok.mp hres
    exact ⟨c, name.val, ms, .qualified hc, hms, mem_of_selectOverload hsel⟩

/-- An operator means a member of the class of the operand. -/
theorem exists_of_resolveOperator {type : Ty} {op : String} {args : ArgTypes}
    (h : table.resolveOperator type op args = .ok m) :
    ∃ n c ms, type.decay = .named n ∧ table.classNamed? n = some c ∧
      table.lookupMember c ("operator" ++ op) = .ok ms ∧ m ∈ ms := by
  obtain ⟨c, hc, h⟩ := bind_eq_ok.mp h
  obtain ⟨ms, hms, h⟩ := bind_eq_ok.mp h
  obtain ⟨n, hdecay, hc⟩ := decay_of_classOf hc
  exact ⟨n, c, ms, hdecay, hc, hms, List.mem_of_mem_filter (mem_of_selectOverload h)⟩

/-- What is found at an operator is a member of the class of the operand. -/
theorem exists_of_operatorFindings {op : SpannedName} {operand : Option Ty} {call : Call}
    (ho : .found o ∈ Visit.operatorFindings table op operand call)
    (hm : o.referent = .member m) :
    o.access = .operator ∧ ∃ type n c ms, operand = some type ∧ type.decay = .named n ∧
      table.classNamed? n = some c ∧ table.lookupMember c ("operator" ++ op.val) = .ok ms ∧
        m ∈ ms := by
  obtain ⟨type, _, htype, hres, rfl⟩ := found_of_operatorFindings ho
  cases hm
  obtain ⟨n, c, ms, h⟩ := exists_of_resolveOperator hres
  exact ⟨rfl, type, n, c, ms, htype, h⟩

/-- **What a visit finds is a member of the class that the expression goes through.** -/
theorem through_of_found {v : Visit} (hscope : NoMembers scope)
    (ho : .found o ∈ v.findings table scope) (hm : o.referent = .member m) :
    table.Through scope v.node o.access m := by
  obtain ⟨node, call⟩ := v
  cases node with
  | ident span name => exact through_readIdent hscope ho hm
  | paramRef span name | localRef span name =>
    exact absurd hm (not_member_of_readBound hscope ho)
  | member span base op name => exact through_readAccess ho hm
  | qualified span owner name => exact through_readQualified ho hm
  | unary span op operand =>
    obtain ⟨hform, type, n, c, ms, htype, hn, hc, hms, hmem⟩ := exists_of_operatorFindings ho hm
    rw [hform]
    exact ⟨c, _, ms, .unary htype hn hc, hms, hmem⟩
  | binary span lhs op rhs =>
    obtain ⟨hform, type, n, c, ms, htype, hn, hc, hms, hmem⟩ := exists_of_operatorFindings ho hm
    rw [hform]
    exact ⟨c, _, ms, .binary htype hn hc, hms, hmem⟩
  | thisPtr span => exact absurd ho (Visit.not_found_of_this rfl o)
  | call | literal => exact absurd ho List.not_mem_nil

/-! ## 4. Occurrences of a function body -/

theorem noMembers_scopeIn (info : FuncInfo) (f : FuncId) (enclosing : List (List Stmt)) :
    NoMembers (info.scopeIn f enclosing) := by
  intro name b hb m
  rw [lookup_scopeIn] at hb
  obtain ⟨binder, _, rfl⟩ := Option.map_eq_some_iff.mp hb
  exact binder.referent_ne_member f m

theorem noMembers_scopeAt (info : FuncInfo) (f : FuncId) (site : Site) :
    NoMembers (info.scopeAt f site) :=
  noMembers_scopeIn info f site.enclosing

/-- An occurrence is what is found at some site. -/
theorem mem_occurrences_iff {info : FuncInfo} {f : FuncId} (hf : table.funcs[f]? = some info) :
    o ∈ (table.resolve f).occurrences ↔
      ∃ site ∈ Stmt.sites info.decl.statements, .found o ∈ table.findingsAt info f site := by
  have hsorted : o ∈ (table.resolve f).occurrences ↔
      o ∈ (table.findings f).filterMap Finding.occurrence? := List.mem_mergeSort
  rw [hsorted, findings_eq_flatMap_sites hf]
  constructor
  · intro ho
    obtain ⟨x, hx, hxo⟩ := List.mem_filterMap.mp ho
    cases x with
    | found o' =>
      cases hxo
      exact List.mem_flatMap.mp hx
    | missing reason => cases hxo
  · intro ho
    exact List.mem_filterMap.mpr ⟨_, List.mem_flatMap.mpr ho, rfl⟩

/-- **Every reference is to a member of the class it goes through.** An occurrence that refers to a member
    is found at some site, and wherever it is found, the member is one of those that the name written means
    in the one class that the expression goes through. So it has that name, and that class is its own or
    derives from it. -/
theorem member_of_occurrence {unit : SourceUnit} {options : Options} {info : FuncInfo} {f : FuncId}
    (h : build unit options = .ok table) (hf : table.funcs[f]? = some info)
    (ho : o ∈ (table.resolve f).occurrences) (hm : o.referent = .member m) :
    (∃ site ∈ Stmt.sites info.decl.statements, .found o ∈ table.findingsAt info f site) ∧
    ∀ site ∈ Stmt.sites info.decl.statements, .found o ∈ table.findingsAt info f site →
      ∃ c n,
        (∀ c' n', GoesThrough table (info.scopeAt f site) site.node o.access c' n' ↔
          c' = c ∧ n' = n) ∧
        (∃ ms, table.lookupMember c n = .ok ms ∧ m ∈ ms) ∧
        ∃ member, table.members[m]? = some member ∧ member.name = n ∧
          table.derivesFrom c member.owner = true := by
  refine ⟨(mem_occurrences_iff hf).mp ho, fun site _ hfound => ?_⟩
  obtain ⟨c, n, ms, hway, hms, hmem⟩ := through_of_found (noMembers_scopeAt info f site) hfound hm
  refine ⟨c, n, fun c' n' => ⟨hway.unique, ?_⟩, ⟨ms, hms, hmem⟩,
    of_mem_lookupMember (wellFormed_of_build h) hms hmem⟩
  rintro ⟨rfl, rfl⟩
  exact hway

/-- A function that reads the field `id` of a reference to `Leaf`, which derives from the class of it. -/
def inheritedUnit : SourceUnit :=
  let leaf := bareName "leaf"
  let reader : FuncDecl :=
    { qualifier := none, name := bareName "read", result := none, isConst := false,
      isStatic := false, isVirtual := false, extent := Span.atStart,
      params := [⟨some leaf, .lref (.named "Leaf"), false, Span.atStart⟩],
      body := some [.expr (.member Span.atStart (.ident Span.atStart leaf) .dot (bareName "id"))] }
  bareUnit [.ofClass (bareClass "Root" [] ["id"]), .ofClass (bareClass "Leaf" ["Root"] []),
    .ofFunc reader]

/-- The field is reached through `Leaf`. -/
theorem member_of_inheritedUnit : ∃ table info, build inheritedUnit {} = .ok table ∧
    table.funcs[0]? = some info ∧
    ⟨Span.atStart, .member 0, .object, none⟩ ∈ (table.resolve 0).occurrences ∧
    ∃ site ∈ Stmt.sites info.decl.statements, ∃ c n,
      GoesThrough table (info.scopeAt 0 site) site.node .object c n ∧
        ∃ member, table.members[0]? = some member ∧ member.name = n ∧
          table.derivesFrom c member.owner = true := by
  have hsite : ∃ table info, build inheritedUnit {} = .ok table ∧ table.funcs[0]? = some info ∧
      ∃ site ∈ Stmt.sites info.decl.statements,
        .found ⟨Span.atStart, .member 0, .object, none⟩ ∈ table.findingsAt info 0 site :=
    ⟨_, _, rfl, rfl, _, List.mem_cons_of_mem _ List.mem_cons_self, List.mem_cons_self⟩
  obtain ⟨table, info, h, hf, hsite⟩ := hsite
  have ho := (mem_occurrences_iff hf).mpr hsite
  obtain ⟨⟨site, hmem, hfound⟩, hall⟩ := member_of_occurrence h hf ho rfl
  obtain ⟨c, n, hway, _, hmember⟩ := hall site hmem hfound
  exact ⟨table, info, h, hf, ho, site, hmem, c, n, (hway c n).mpr ⟨rfl, rfl⟩, hmember⟩

end SymbolTable

end MemberRefs
