import MemberRefs.Proofs.Resolve.Soundness
import MemberRefs.Proofs.Table.BestRank

/-!
# Operators as calls

An operator applied to an object stands for the call of the member function that overloads it:
`-x` for `x.operator-()`, and `x - y` for `x.operator-(y)`. The call selects among all members with this
name. The operator looks only at those that take so many operands, and then selects in the same way.

Leaving out what could not be called changes nothing as long as several members remain. When a single one
remains it is taken as it is, and so it is not looked at whether it can be called on a `const` object.

* `viable_accepting`: nothing that could be called is left out.
* `selectOverload_of_accepting`: what selecting among all members gives, when selecting among the
  remaining ones gives a member.
* `operator_as_call`: when an operator means the same member as the call.
-/

namespace MemberRefs

/-- The first operand, the operator and the other operands of an operation. -/
def Expr.operation? : Expr → Option (Expr × SpannedName × List Expr)
  | .unary _ op operand => some (operand, op, [])
  | .binary _ lhs op rhs => some (lhs, op, [rhs])
  | _ => none

/-- The types of expressions in a scope, as far as they are known. -/
def Expr.types (table : SymbolTable) (scope : Scope) (es : List Expr) : ArgTypes :=
  es.map fun e => (e.read table scope).type

/-- Whether a method can be called on an object: on a `const` one, when it is `const` or static. -/
def FuncDecl.Allows (f : FuncDecl) (objectConst : Bool) : Prop :=
  objectConst = true → f.isConst = true ∨ f.isStatic = true

namespace SymbolTable

variable {table : SymbolTable} {scope : Scope} {name : String} {ms : List MemberId} {args : ArgTypes}
  {objectConst : Bool} {m : MemberId} {f : FuncDecl} {o : Occurrence}

/-! ## 1. Members that take so many arguments -/

/-- The methods among some members that take so many arguments. -/
def accepting (table : SymbolTable) (ms : List MemberId) (arity : Nat) : List MemberId :=
  ms.filter fun m => (table.method? m).any fun f => f.acceptsArity arity

theorem mem_accepting {arity : Nat} : m ∈ table.accepting ms arity ↔
    m ∈ ms ∧ ∃ f, table.method? m = some f ∧ f.acceptsArity arity = true := by
  rw [accepting, List.mem_filter, Option.any_eq_true]

/-- What cannot take the arguments has no rank. -/
theorem accepts_of_rank? {rank : Rank} (h : table.rank? args objectConst m = some rank) :
    ((table.method? m).any fun f => f.acceptsArity args.length) = true := by
  obtain ⟨_, ⟨hmethod, harity, _⟩⟩ : ∃ key, table.Fits args objectConst m key :=
    ⟨rank.key, fits_iff.mpr ⟨rank, h, rfl⟩⟩
  rw [hmethod]
  exact harity

/-- **Nothing that could be called is left out.** -/
theorem viable_accepting : table.viable (table.accepting ms args.length) args objectConst =
    table.viable ms args objectConst := by
  rw [viable, accepting, List.filterMap_filter]
  refine List.filterMap_congr fun m _ => ?_
  split
  · rfl
  · rename_i hnot
    cases hrank : table.rank? args objectConst m with
    | none => rfl
    | some rank => exact absurd (accepts_of_rank? hrank) hnot

theorem winners_accepting : table.winners (table.accepting ms args.length) args objectConst =
    table.winners ms args objectConst := by
  rw [winners, winners, viable_accepting]

/-! ## 2. Selecting among the remaining members -/

/-- What wins can be called on the object. -/
theorem allows_of_mem_winners (hm : m ∈ table.winners ms args objectConst)
    (hmethod : table.method? m = some f) : f.Allows objectConst := by
  obtain ⟨_, _, ⟨hmethod', _, hconst⟩, _⟩ := mem_winners_iff.mp hm
  cases hmethod.symm.trans hmethod'
  exact hconst

/-- A single member that takes the arguments wins when it can be called on the object. -/
theorem winners_singleton (hmethod : table.method? m = some f)
    (harity : f.acceptsArity args.length = true) (hallows : f.Allows objectConst) :
    table.winners [m] args objectConst = [m] := by
  obtain ⟨rank, hrank, _⟩ := fits_iff.mp (Fits.intro hmethod harity hallows)
  have hviable : table.viable [m] args objectConst = [(m, rank)] := by
    simp [viable, hrank]
  rw [winners, hviable, unbeaten_singleton]
  rfl

/-- A single member wins nothing when it cannot be called on the object. -/
theorem winners_singleton_eq_nil (hmethod : table.method? m = some f)
    (hnot : ¬ f.Allows objectConst) : table.winners [m] args objectConst = [] := by
  refine List.eq_nil_iff_forall_not_mem.mpr fun n hn => ?_
  obtain ⟨_, hbest⟩ := mem_winners_iff.mp hn
  cases List.mem_singleton.mp hbest.1
  exact hnot (allows_of_mem_winners hn hmethod)

theorem two_le_length (hm : m ∈ ms) (hmore : ms ≠ [m]) : 2 ≤ ms.length := by
  match ms with
  | [] => exact absurd hm List.not_mem_nil
  | [n] => exact absurd (congrArg (fun x => [x]) (List.mem_singleton.mp hm).symm) hmore
  | _ :: _ :: _ => exact Nat.le_add_left 2 _

/-- Among several candidates the one that is selected is the only winner. -/
theorem winners_of_selectOverload (hlen : 2 ≤ ms.length)
    (h : table.selectOverload name ms (some args) objectConst = .ok m) :
    table.winners ms args objectConst = [m] := by
  rw [selectOverload_eq hlen] at h
  split at h
  · cases h
  · rename_i hone
    cases h
    exact hone
  · cases h

/-- **Selecting among all members** after one was selected among those that take so many arguments: the
    same member when it is the only one at all or can be called on the object, and otherwise none. -/
theorem selectOverload_of_accepting
    (h : table.selectOverload name (table.accepting ms args.length) (some args) objectConst = .ok m) :
    ∃ f, table.method? m = some f ∧ m ∈ ms ∧
      (ms = [m] ∨ f.Allows objectConst →
        table.selectOverload name ms (some args) objectConst = .ok m) ∧
      (¬ (ms = [m] ∨ f.Allows objectConst) →
        table.selectOverload name ms (some args) objectConst = .error (.noViableOverload name)) := by
  have hremains := mem_of_selectOverload h
  obtain ⟨hm, f, hmethod, harity⟩ := mem_accepting.mp hremains
  refine ⟨f, hmethod, hm, ?_⟩
  by_cases hone : ms = [m]
  · subst hone
    exact ⟨fun _ => rfl, fun hnot => absurd (.inl rfl) hnot⟩
  rw [selectOverload_eq (two_le_length hm hone), ← winners_accepting]
  by_cases hlone : table.accepting ms args.length = [m]
  · rw [hlone]
    refine ⟨fun hallows => ?_, fun hnot => ?_⟩
    · rw [winners_singleton hmethod harity (hallows.resolve_left hone)]
    · rw [winners_singleton_eq_nil hmethod fun hallows => hnot (.inr hallows)]
  · have hwins := winners_of_selectOverload (two_le_length hremains hlone) h
    have hallows : f.Allows objectConst :=
      allows_of_mem_winners (hwins ▸ List.mem_singleton_self m) hmethod
    exact ⟨fun _ => by rw [hwins], fun hnot => absurd (.inr hallows) hnot⟩

/-! ## 3. Operators and calls -/

/-- **The explicit call** of a member of an object, which a type that names a class denotes. -/
theorem resolveAccess_dot {type : Ty} {c : ClassId} (hc : table.classOf type.decay = .ok c)
    (args : Option ArgTypes) : table.resolveAccess type .dot name args =
      (table.lookupMember c name >>= fun ms =>
        table.selectOverload name ms args type.stripRefs.isConst) := by
  obtain ⟨n, hdecay, hclass⟩ := decay_of_classOf hc
  obtain ⟨hobject, hname⟩ := objectType_dot hdecay
  simp only [resolveAccess, hobject, classOf_of_name? hname hclass, bind, Except.bind]

/-- The member that overloads an operator is selected among those that take so many operands. -/
theorem resolveOperator_eq_ok {type : Ty} {op : String}
    (h : table.resolveOperator type op args = .ok m) :
    ∃ c ms, table.classOf type.decay = .ok c ∧ table.lookupMember c ("operator" ++ op) = .ok ms ∧
      table.selectOverload ("operator" ++ op) (table.accepting ms args.length) (some args)
        type.stripRefs.isConst = .ok m := by
  obtain ⟨c, hc, h⟩ := bind_eq_ok.mp h
  obtain ⟨ms, hms, h⟩ := bind_eq_ok.mp h
  exact ⟨c, ms, hc, hms, h⟩

/-- What is found at an operation is found at its operator. -/
theorem found_of_operation {v : Visit} {operand : Expr} {op : SpannedName} {others : List Expr}
    (hop : v.node.operation? = some (operand, op, others)) (ho : .found o ∈ v.findings table scope) :
    ∃ type m, (operand.read table scope).type = some type ∧ o.referent = .member m ∧
      table.resolveOperator type op.val (Expr.types table scope others) = .ok m := by
  obtain ⟨node, call⟩ := v
  cases node with
  | unary span op' operand' =>
    cases hop
    obtain ⟨type, m, htype, hres, rfl⟩ := found_of_operatorFindings ho
    exact ⟨type, m, htype, rfl, hres⟩
  | binary span lhs op' rhs =>
    cases hop
    obtain ⟨type, m, htype, hres, rfl⟩ := found_of_operatorFindings ho
    exact ⟨type, m, htype, rfl, hres⟩
  | _ => cases hop

/-- **When an operator means the call it abbreviates.** An operator that is recorded refers to one of the
    members that its name means in the class of the first operand. The call of this name on that operand,
    with the other operands as arguments, means the same member exactly when there is no other member of
    the name, or the method can be called on the operand: it is `const` or static, or the operand is not
    `const`. Otherwise the call means none. -/
theorem operator_as_call {v : Visit} {operand : Expr} {op : SpannedName} {others : List Expr}
    (hop : v.node.operation? = some (operand, op, others)) (ho : .found o ∈ v.findings table scope) :
    ∃ type c ms m f, (operand.read table scope).type = some type ∧
      table.classOf type.decay = .ok c ∧ table.lookupMember c ("operator" ++ op.val) = .ok ms ∧
      o.referent = .member m ∧ m ∈ ms ∧ table.method? m = some f ∧
      (table.resolveAccess type .dot ("operator" ++ op.val)
          (some (Expr.types table scope others)) = .ok m ↔
        ms = [m] ∨ f.Allows type.stripRefs.isConst) ∧
      (¬ (ms = [m] ∨ f.Allows type.stripRefs.isConst) →
        table.resolveAccess type .dot ("operator" ++ op.val)
          (some (Expr.types table scope others)) =
            .error (.noViableOverload ("operator" ++ op.val))) := by
  obtain ⟨type, m, htype, hm, hres⟩ := found_of_operation hop ho
  obtain ⟨c, ms, hc, hms, hsel⟩ := resolveOperator_eq_ok hres
  obtain ⟨f, hmethod, hmem, hsame, hnone⟩ := selectOverload_of_accepting hsel
  refine ⟨type, c, ms, m, f, htype, hc, hms, hm, hmem, hmethod, ?_⟩
  rw [resolveAccess_dot hc, hms]
  refine ⟨⟨fun hcall => ?_, hsame⟩, hnone⟩
  by_contra hnot
  cases hcall.symm.trans (hnone hnot)

/-- A function that negates its parameter. -/
def negating (name : String) (type : Ty) : FuncDecl :=
  let object := bareName "row"
  { bareFunc name [] (some [.expr (.unary Span.atStart (bareName "-") (.paramRef Span.atStart object))])
    with params := [⟨some object, type, false, Span.atStart⟩] }

/-- A class with `operator-()` and `operator-(Row) const`, and functions that negate an object and a
    `const` object of it. -/
def negationUnit : SourceUnit :=
  let row : Ty := .named "Row"
  let subtract : FuncDecl := { bareFunc "operator-" [row] none with isConst := true }
  bareUnit [.ofClass { bareClass "Row" [] [] with
      members := [.method (bareFunc "operator-" [] none), .method subtract] },
    .ofFunc (negating "plain" row), .ofFunc (negating "fixed" (.lref (.const row)))]

/-- The negated object is not `const`, so the operator means what the call means. -/
theorem operator_on_object : ∃ table scope,
    build negationUnit {} = .ok table ∧ table.scope? 0 = some scope ∧
    (∃ o, .found o ∈ Visit.findings table scope
      ⟨.unary Span.atStart (bareName "-") (.paramRef Span.atStart (bareName "row")), none⟩ ∧
        o.referent = .member 0) ∧
    table.resolveAccess (.named "Row") .dot "operator-" (some []) = .ok 0 := by
  have hbuilt : ∃ table scope, build negationUnit {} = .ok table ∧ table.scope? 0 = some scope ∧
      ((Expr.paramRef Span.atStart (bareName "row")).read table scope).type = some (.named "Row") ∧
      .found ⟨Span.atStart, .member 0, .operator, some ⟨Span.atStart, []⟩⟩ ∈
        Visit.findings table scope
          ⟨.unary Span.atStart (bareName "-") (.paramRef Span.atStart (bareName "row")), none⟩ :=
    ⟨_, _, rfl, rfl, rfl, List.mem_singleton_self _⟩
  obtain ⟨table, scope, h, hscope, htype, hfound⟩ := hbuilt
  obtain ⟨type, c, ms, m, f, htype', _, _, hm, _, _, hcall, _⟩ := operator_as_call rfl hfound
  cases htype.symm.trans htype'
  cases hm
  exact ⟨table, scope, h, hscope, ⟨_, hfound, rfl⟩, hcall.mpr (.inr nofun)⟩

/-- The negated object is `const`, and the operator refers to a member which the call does not mean. -/
theorem operator_on_const_object : ∃ table info, build negationUnit {} = .ok table ∧
    table.funcs[1]? = some info ∧ ∃ o ∈ (table.resolve 1).occurrences,
      o.access = .operator ∧ o.referent = .member 0 ∧
      ((Expr.paramRef Span.atStart (bareName "row")).read table (info.scope 1)).type =
        some (.lref (.const (.named "Row"))) ∧
      table.resolveAccess (.lref (.const (.named "Row"))) .dot "operator-" (some []) =
        .error (.noViableOverload "operator-") := by
  have hbuilt : ∃ table info, build negationUnit {} = .ok table ∧ table.funcs[1]? = some info ∧
      (∃ site ∈ Stmt.sites info.decl.statements,
        .found ⟨Span.atStart, .member 0, .operator, some ⟨Span.atStart, []⟩⟩ ∈
          table.findingsAt info 1 site) ∧
      ((Expr.paramRef Span.atStart (bareName "row")).read table (info.scope 1)).type =
        some (.lref (.const (.named "Row"))) ∧
      table.resolveAccess (.lref (.const (.named "Row"))) .dot "operator-" (some []) =
        .error (.noViableOverload "operator-") :=
    ⟨_, _, rfl, rfl, ⟨_, List.mem_cons_of_mem _ List.mem_cons_self, List.mem_singleton_self _⟩, rfl,
      rfl⟩
  obtain ⟨table, info, h, hf, hfound, htype, hcall⟩ := hbuilt
  exact ⟨table, info, h, hf, _, (mem_occurrences_iff hf).mpr hfound, rfl, rfl, htype, hcall⟩

end SymbolTable

end MemberRefs
