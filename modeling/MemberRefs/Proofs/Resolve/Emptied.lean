import MemberRefs.Proofs.Resolve.Visit
import MemberRefs.Proofs.Table.Emptied

/-!
# Reading needs no bodies

An expression is read by looking names up, and no look-up reads the body of a function. So in two tables
that are equal when their bodies are emptied every expression has the same type and the same findings.

* `read_emptied`, `findings_emptied`: whole expressions and single visits.
-/

namespace MemberRefs

namespace SymbolTable

variable {table : SymbolTable} {scope : Scope}

/-! ## 1. Single names -/

@[simp] theorem thisType?_emptied : table.emptied.thisType? scope = table.thisType? scope := by
  simp only [thisType?, className_emptied]

@[simp] theorem classOf_emptied (type : Ty) : table.emptied.classOf type = table.classOf type := by
  have hnamed : table.emptied.classNamed? = table.classNamed? := funext classNamed?_emptied
  rw [classOf, hnamed, classOf]

theorem type?_infoEmptied (info : MemberInfo) (called : Bool) :
    info.emptied.type? called = info.type? called := by
  obtain ⟨owner, decl, path, definitions⟩ := info
  cases decl <;> cases called <;> rfl

theorem isStatic_infoEmptied (info : MemberInfo) : info.emptied.isStatic = info.isStatic := by
  obtain ⟨owner, decl, path, definitions⟩ := info
  cases decl <;> rfl

@[simp] theorem memberType?_emptied (m : MemberId) (called objectConst : Bool) :
    table.emptied.memberType? m called objectConst = table.memberType? m called objectConst := by
  unfold memberType?
  rw [getElem?_members_emptied]
  cases table.members[m]? with
  | none => rfl
  | some info =>
    simp only [Option.map_some, Option.bind_some, type?_infoEmptied, isStatic_infoEmptied]

@[simp] theorem resolveBare_emptied (name : String) (args : Option ArgTypes) :
    table.emptied.resolveBare scope name args = table.resolveBare scope name args := by
  simp only [resolveBare, lookupMember_emptied, selectOverload_emptied]

@[simp] theorem resolveAccess_emptied (type : Ty) (op : AccessOp) (name : String)
    (args : Option ArgTypes) :
    table.emptied.resolveAccess type op name args = table.resolveAccess type op name args := by
  simp only [resolveAccess, classOf_emptied, lookupMember_emptied, selectOverload_emptied]

@[simp] theorem resolveQualified_emptied (owner name : String) (args : Option ArgTypes) :
    table.emptied.resolveQualified scope owner name args =
      table.resolveQualified scope owner name args := by
  simp only [resolveQualified, classNamed?_emptied, lookupMember_emptied, derivesFrom_emptied,
    selectOverload_emptied]

@[simp] theorem resolveOperator_emptied (operand : Ty) (op : String) (args : ArgTypes) :
    table.emptied.resolveOperator operand op args = table.resolveOperator operand op args := by
  have hcallable : ∀ m, ((table.emptied.method? m).any fun f => f.acceptsArity args.length) =
      (table.method? m).any fun f => f.acceptsArity args.length := by
    intro m
    rw [method?_emptied]
    cases table.method? m <;> rfl
  simp only [resolveOperator, classOf_emptied, lookupMember_emptied, hcallable, selectOverload_emptied]

@[simp] theorem readIdent_emptied (name : SpannedName) (call : Option Call) :
    table.emptied.readIdent scope name call = table.readIdent scope name call := by
  simp only [readIdent, resolveBare_emptied, memberType?_emptied]

@[simp] theorem readThis_emptied (span : Span) :
    table.emptied.readThis scope span = table.readThis scope span := by
  simp only [readThis, thisType?_emptied]

@[simp] theorem readAccess_emptied (form : Access) (base : Option Ty) (op : AccessOp)
    (name : SpannedName) (call : Option Call) :
    table.emptied.readAccess form base op name call = table.readAccess form base op name call := by
  simp only [readAccess, resolveAccess_emptied, memberType?_emptied]

@[simp] theorem readQualified_emptied (owner name : SpannedName) (call : Option Call) :
    table.emptied.readQualified scope owner name call = table.readQualified scope owner name call := by
  simp only [readQualified, resolveQualified_emptied, memberType?_emptied]

@[simp] theorem readOperator?_emptied (op : SpannedName) (operand : Ty) (call : Call) :
    table.emptied.readOperator? op operand call = table.readOperator? op operand call := by
  have htype : ∀ m : MemberId, (table.emptied.members[m]?).bind (fun info => info.type? true) =
      (table.members[m]?).bind fun info => info.type? true := by
    intro m
    rw [getElem?_members_emptied]
    cases table.members[m]? with
    | none => rfl
    | some info => exact type?_infoEmptied info true
  simp only [readOperator?, resolveOperator_emptied, htype]

/-! ## 2. Whole expressions -/

theorem read_callEmptied {callee : Expr} (hn : callee.isName = false) {span : Span}
    {args : List Expr} (hcallee : callee.read table.emptied scope = callee.read table scope)
    (hargs : Expr.readArgs table.emptied scope args = Expr.readArgs table scope args) :
    (Expr.call span callee args).read table.emptied scope =
      (Expr.call span callee args).read table scope := by
  rw [read_call hn, read_call hn, hcallee, hargs]

mutual

/-- **An expression is read without the bodies of functions.** -/
@[simp] theorem read_emptied : ∀ e : Expr, e.read table.emptied scope = e.read table scope
  | .ident _ name => readIdent_emptied name none
  | .paramRef _ _ | .localRef _ _ | .literal _ _ => rfl
  | .thisPtr span => readThis_emptied span
  | .qualified _ owner name => readQualified_emptied owner name none
  | .member _ base op name => by
      rw [Expr.read, Expr.read, read_emptied base, readAccess_emptied]
  | .call _ (.ident _ name) args => by
      simp only [Expr.read, readArgs_emptied args, readIdent_emptied]
  | .call _ (.qualified _ owner name) args => by
      simp only [Expr.read, readArgs_emptied args, readQualified_emptied]
  | .call _ (.member _ base op name) args => by
      simp only [Expr.read, readArgs_emptied args, read_emptied base, readAccess_emptied]
  | .call _ (.paramRef _ _) args | .call _ (.localRef _ _) args | .call _ (.thisPtr _) args
  | .call _ (.literal _ _) args | .call _ (.call _ _ _) args | .call _ (.unary _ _ _) args
  | .call _ (.binary _ _ _ _) args => read_callEmptied rfl (read_emptied _) (readArgs_emptied args)
  | .unary _ op operand => by
      simp only [Expr.read, read_emptied operand, readOperator?_emptied]
  | .binary _ lhs op rhs => by
      simp only [Expr.read, read_emptied lhs, read_emptied rhs, readOperator?_emptied]

@[simp] theorem readArgs_emptied : ∀ es : List Expr,
    Expr.readArgs table.emptied scope es = Expr.readArgs table scope es
  | [] => rfl
  | e :: es => by rw [Expr.readArgs, Expr.readArgs, read_emptied e, readArgs_emptied es]

end

/-- **What is found at a visit** does not depend on the bodies of functions. -/
theorem findings_emptied (v : Visit) : v.findings table.emptied scope = v.findings table scope := by
  have hcall : v.call? table.emptied scope = v.call? table scope := by
    simp only [Visit.call?, readArgs_emptied]
  unfold Visit.findings
  simp only [hcall, readIdent_emptied, readThis_emptied, readAccess_emptied, readQualified_emptied,
    read_emptied, Visit.operatorFindings, readOperator?_emptied]

end SymbolTable

end MemberRefs
