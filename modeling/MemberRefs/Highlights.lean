import MemberRefs.Resolve.Body
import MemberRefs.NameRange
import MemberRefs.Json.Basic

/-!
# Highlights

Places that an editor marks, each list over the whole unit, in order and without repetitions: where
virtual and static methods have their names, which calls are virtual, rely on default arguments or let
the callee modify an argument, which members are reached without naming an object, and which variables
are references.
-/

namespace MemberRefs

/-- The marked places of a unit. -/
structure Highlights where
  virtualMethodDeclarations : List Span
  staticMethodDeclarations : List Span
  virtualMethodCalls : List Span
  implicitMemberReferences : List Span
  omittedDefaultArguments : List Span
  nonConstReferenceArguments : List Span
  referenceVariableUses : List Span
  deriving DecidableEq, Repr

namespace SymbolTable

/-! ## 1. Occurrences and what they refer to -/

/-- The occurrences in all function bodies, each with its function. -/
def allOccurrences (table : SymbolTable) : List (FuncId × Occurrence) :=
  table.funcIds.flatMap fun f => (table.resolve f).occurrences.map fun o => (f, o)

/-- The member that an occurrence refers to. -/
def occurrenceMember? (table : SymbolTable) (o : Occurrence) : Option MemberInfo :=
  match o.referent with
  | .member m => table.members[m]?
  | _ => none

/-- The occurrences of members in all function bodies, each with its member. -/
def memberOccurrences (table : SymbolTable) : List (MemberInfo × Occurrence) :=
  table.allOccurrences.filterMap fun (_, o) => (table.occurrenceMember? o).map fun info => (info, o)

/-- The calls of methods in all function bodies, each with its method. -/
def methodCalls (table : SymbolTable) : List (FuncDecl × CallSite) :=
  table.memberOccurrences.filterMap fun (info, o) => do
    let method ← info.method?
    let call ← o.call
    some (method, call)

/-- The declaration that a name in the body of `f` refers to. -/
def referentDecl? (table : SymbolTable) (f : FuncId) : Referent → Option Decl
  | .member m => (table.members[m]?).map fun info => info.decl.toDecl
  | .param owner index => do
      let info ← table.funcs[owner]?
      let param ← info.decl.params[index]?
      some (.ofParam param)
  | .variable span => do
      let info ← table.funcs[f]?
      let d ← info.decl.locals.find? fun d => d.name.span == span
      some (.ofLocal d)

/-! ## 2. The lists -/

/-- The names of the methods with a property, at their declarations and definitions. -/
def methodNames (table : SymbolTable) (property : FuncDecl → Bool) : Answer (List Span) := do
  let chosen := table.memberIds.filter fun m => (table.method? m).any property
  let ranges ← chosen.mapM table.memberNameRanges
  return Span.sorted ranges.flatten

/-- The names of virtual methods. -/
def virtualMethodDeclarations (table : SymbolTable) : Answer (List Span) :=
  table.methodNames FuncDecl.isVirtual

/-- The names of static methods. -/
def staticMethodDeclarations (table : SymbolTable) : Answer (List Span) :=
  table.methodNames FuncDecl.isStatic

/-- The calls of virtual methods. -/
def virtualMethodCalls (table : SymbolTable) : List Span :=
  Span.sorted ((table.methodCalls.filter fun (method, _) => method.isVirtual).map
    fun (_, call) => call.span)

/-- The names of members that are reached through no named object. -/
def implicitMemberReferences (table : SymbolTable) : List Span :=
  Span.sorted ((table.memberOccurrences.filter fun (_, o) => o.access == .implicit).map
    fun (_, o) => o.span)

/-- The calls that pass fewer arguments than there are parameters. -/
def omittedDefaultArguments (table : SymbolTable) : List Span :=
  Span.sorted ((table.methodCalls.filter fun (method, call) =>
    call.args.length < method.params.length).map fun (_, call) => call.span)

/-- The arguments of a call that the callee may modify. -/
def modifiableArguments (method : FuncDecl) (call : CallSite) : List Span :=
  ((method.params.zip call.args).filter fun (param, _) => param.type.isNonConstReference).map
    Prod.snd

/-- The arguments that a callee may modify. -/
def nonConstReferenceArguments (table : SymbolTable) : List Span :=
  Span.sorted (table.methodCalls.flatMap fun (method, call) => modifiableArguments method call)

/-- Whether a name in the body of `f` refers to a variable or field that is an lvalue reference. -/
def isReferenceVariable (table : SymbolTable) (f : FuncId) (referent : Referent) : Bool :=
  ((table.referentDecl? f referent).bind Decl.type?).any Ty.isLvalueReference

/-- The uses of variables and fields that are lvalue references. -/
def referenceVariableUses (table : SymbolTable) : List Span :=
  Span.sorted ((table.allOccurrences.filter fun (f, o) =>
    table.isReferenceVariable f o.referent).map fun (_, o) => o.span)

/-- All lists for a unit. -/
def highlights (table : SymbolTable) : Answer Highlights := do
  return {
    virtualMethodDeclarations := ← table.virtualMethodDeclarations
    staticMethodDeclarations := ← table.staticMethodDeclarations
    virtualMethodCalls := table.virtualMethodCalls
    implicitMemberReferences := table.implicitMemberReferences
    omittedDefaultArguments := table.omittedDefaultArguments
    nonConstReferenceArguments := table.nonConstReferenceArguments
    referenceVariableUses := table.referenceVariableUses }

end SymbolTable

namespace Highlights

/-- A list of spans. -/
def spansJson (spans : List Span) : Json := .arr (spans.map fun s => .str s.text)

/-- The marked places as a record. -/
def toJson (h : Highlights) : Json :=
  .obj [("virtual_method_declarations", spansJson h.virtualMethodDeclarations),
    ("static_method_declarations", spansJson h.staticMethodDeclarations),
    ("virtual_method_calls", spansJson h.virtualMethodCalls),
    ("implicit_member_references", spansJson h.implicitMemberReferences),
    ("omitted_default_arguments", spansJson h.omittedDefaultArguments),
    ("non_const_reference_arguments", spansJson h.nonConstReferenceArguments),
    ("reference_variable_uses", spansJson h.referenceVariableUses)]

end Highlights

end MemberRefs
