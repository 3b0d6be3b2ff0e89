import MemberRefs.Resolve.Names

/-!
# Expressions in a scope

Reading an expression in a scope gives its type, as far as it is known, and one finding for every name in
it: an occurrence of what the name refers to, or the reason why it refers to nothing. Operators that a
class overloads are findings too. Findings come in the order of the walk: the object expression, the
arguments, then the name or operator itself.
-/

namespace MemberRefs

/-! ## 1. Findings -/

/-- The form in which a name is reached. -/
inductive Access where
  | implicit
  | this
  | object
  | pointer
  | qualified
  | operator
  deriving DecidableEq, Repr

/-- The form as a word. -/
def Access.text : Access → String
  | implicit => "implicit"
  | this => "this"
  | object => "object"
  | pointer => "pointer"
  | qualified => "qualified"
  | operator => "operator"

/-- A call, with the places of the whole call and of its arguments. -/
structure CallSite where
  span : Span
  args : List Span
  deriving DecidableEq, Repr

/-- A name that refers to something; `call` is set when the name is what is called. -/
structure Occurrence where
  span : Span
  referent : Referent
  access : Access
  call : Option CallSite
  deriving DecidableEq, Repr

/-- What becomes of one name. -/
inductive Finding where
  | found (occurrence : Occurrence)
  | missing (reason : Spanned Unresolved)
  deriving DecidableEq, Repr

/-- What reading an expression gives. -/
structure Reading where
  type : Option Ty
  findings : List Finding
  deriving DecidableEq, Repr

namespace Reading

/-- A failure at a place. -/
def fail (span : Span) (reason : Unresolved) : Reading := ⟨none, [.missing ⟨reason, span⟩]⟩

/-- A reading behind findings made before it. -/
def behind (r : Reading) (before : List Finding) : Reading := ⟨r.type, before ++ r.findings⟩

end Reading

/-- A call that a name is read in. -/
structure Call where
  site : CallSite
  args : ArgTypes

/-! ## 2. Single names -/

namespace SymbolTable

/-- Reads a bare name. A variable has no type when it is called. -/
def readIdent (table : SymbolTable) (scope : Scope) (name : SpannedName) (call : Option Call) :
    Reading :=
  match table.resolveBare scope name.val (call.map Call.args) with
  | .error reason => .fail name.span reason
  | .ok referent =>
      let type :=
        match referent with
        | .member m => table.memberType? m call.isSome scope.isConst
        | _ => if call.isSome then none else (scope.lookup name.val).map Binding.type
      ⟨type, [.found ⟨name.span, referent, .implicit, call.map Call.site⟩]⟩

/-- Whether a referent is a parameter. -/
def isParam : Referent → Bool
  | .param _ _ => true
  | _ => false

/-- Reads a name that is known to mean a parameter or known to mean a local variable. -/
def readBound (scope : Scope) (name : SpannedName) (param : Bool) : Reading :=
  match scope.lookup name.val with
  | some binding =>
      if isParam binding.referent = param then
        ⟨some binding.type, [.found ⟨name.span, binding.referent, .implicit, none⟩]⟩
      else .fail name.span (.unboundLocal name.val)
  | none => .fail name.span (.unboundLocal name.val)

/-- Reads the word `this`. -/
def readThis (table : SymbolTable) (scope : Scope) (span : Span) : Reading :=
  match table.thisType? scope with
  | some type => ⟨some type, []⟩
  | none => .fail span .noEnclosingClass

/-- The form of an access to a member of the object `base`. -/
def accessForm (base : Expr) (op : AccessOp) : Access :=
  match base, op with
  | .thisPtr _, _ => .this
  | _, .dot => .object
  | _, .arrow => .pointer

/-- Reads a name behind `.` or `->`, when the expression in front has been read. -/
def readAccess (table : SymbolTable) (form : Access) (base : Option Ty) (op : AccessOp)
    (name : SpannedName) (call : Option Call) : Reading :=
  match base with
  | none => .fail name.span .unknownType
  | some type =>
      match objectType type op, table.resolveAccess type op name.val (call.map Call.args) with
      | .ok object, .ok m =>
          ⟨table.memberType? m call.isSome object.isConst,
            [.found ⟨name.span, .member m, form, call.map Call.site⟩]⟩
      | .error reason, _ => .fail name.span reason
      | _, .error reason => .fail name.span reason

/-- Reads a name qualified by a class. -/
def readQualified (table : SymbolTable) (scope : Scope) (owner name : SpannedName)
    (call : Option Call) : Reading :=
  match table.resolveQualified scope owner.val name.val (call.map Call.args) with
  | .ok m =>
      ⟨table.memberType? m call.isSome scope.isConst,
        [.found ⟨name.span, .member m, .qualified, call.map Call.site⟩]⟩
  | .error reason => .fail name.span reason

/-- Reads an operator applied to an object of class type, or nothing when the builtin operator applies:
    when the operand is no object, and when no member overloads the operator for so many operands. -/
def readOperator? (table : SymbolTable) (op : SpannedName) (operand : Ty) (call : Call) :
    Option Reading :=
  match table.resolveOperator operand op.val call.args with
  | .ok m =>
      some ⟨(table.members[m]?).bind fun info => info.type? true,
        [.found ⟨op.span, .member m, .operator, some call.site⟩]⟩
  | .error (.notAClass _) => none
  | .error (.noSuchMember _ _) => none
  | .error (.noViableOverload _) => none
  | .error reason => some (.fail op.span reason)

end SymbolTable

/-! ## 3. Builtin operators -/

/-- The type that a builtin operator in front of an operand gives. -/
def builtinUnaryType (op : String) (operand : Ty) : Option Ty :=
  match op with
  | "*" => operand.pointee?
  | "&" => some (.pointer operand.stripRefs)
  | "!" => some (.named "bool")
  | _ => some operand.decay

/-- Whether an operator compares or connects truth values. -/
def isLogical (op : String) : Bool :=
  ["==", "!=", "<", ">", "<=", ">=", "&&", "||"].contains op

/-- Whether a type is a pointer, perhaps seen through a reference. -/
def isPointer (type : Option Ty) : Bool := type.any fun t => t.pointee?.isSome

/-- The type that a builtin operator between two operands gives. -/
def builtinBinaryType (op : String) (lhs rhs : Option Ty) : Option Ty :=
  if isLogical op then some (.named "bool")
  else if op == "," then rhs
  else if op.toList.getLast? == some '=' then lhs
  else if isPointer lhs then lhs
  else if isPointer rhs then rhs
  else (lhs.or rhs).map Ty.decay

/-! ## 4. Whole expressions -/

mutual

/-- Reads an expression. -/
def Expr.read (table : SymbolTable) (scope : Scope) : Expr → Reading
  | .ident _ name => table.readIdent scope name none
  | .paramRef _ name => SymbolTable.readBound scope name true
  | .localRef _ name => SymbolTable.readBound scope name false
  | .thisPtr span => table.readThis scope span
  | .literal _ type => ⟨some type, []⟩
  | .qualified _ owner name => table.readQualified scope owner name none
  | .member _ base op name =>
      let object := base.read table scope
      (table.readAccess (SymbolTable.accessForm base op) object.type op name none).behind
        object.findings
  | .call span callee args =>
      let (types, findings) := Expr.readArgs table scope args
      let call := Call.mk ⟨span, args.map Expr.span⟩ types
      match callee with
      | .ident _ name => (table.readIdent scope name (some call)).behind findings
      | .qualified _ owner name => (table.readQualified scope owner name (some call)).behind findings
      | .member _ base op name =>
          let object := base.read table scope
          (table.readAccess (SymbolTable.accessForm base op) object.type op name
            (some call)).behind (object.findings ++ findings)
      | callee => ⟨none, (callee.read table scope).findings ++ findings⟩
  | .unary span op operand =>
      let object := operand.read table scope
      match object.type with
      | none => object
      | some type =>
          match table.readOperator? op type ⟨⟨span, []⟩, []⟩ with
          | some r => r.behind object.findings
          | none => ⟨builtinUnaryType op.val type, object.findings⟩
  | .binary span lhs op rhs =>
      let left := lhs.read table scope
      let right := rhs.read table scope
      let findings := left.findings ++ right.findings
      match left.type.bind fun type =>
        table.readOperator? op type ⟨⟨span, [rhs.span]⟩, [right.type]⟩ with
      | some r => r.behind findings
      | none => ⟨builtinBinaryType op.val left.type right.type, findings⟩

/-- Reads the arguments of a call: the type of each one, and all their findings. -/
def Expr.readArgs (table : SymbolTable) (scope : Scope) : List Expr → ArgTypes × List Finding
  | [] => ([], [])
  | arg :: args =>
      let r := arg.read table scope
      let (types, findings) := Expr.readArgs table scope args
      (r.type :: types, r.findings ++ findings)

end

end MemberRefs
