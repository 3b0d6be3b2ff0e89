import MemberRefs.Resolve.Scope

/-!
# Names

What one name means, by the way it is written: bare, as a member of an object, or qualified by a class.
Each way finds the class to look in and whether the object is `const`, and then selects among the members
found there. The arguments are those of a call, with nothing for a type that is not known.
-/

namespace MemberRefs

/-- The types of the arguments of a call, as far as they are known. -/
abbrev ArgTypes := List (Option Ty)

/-- The type of the object that an operator reaches into. -/
def objectType (type : Ty) (op : AccessOp) : Except Unresolved Ty :=
  let type := type.stripRefs
  match op, type.pointee? with
  | .arrow, some pointee => .ok pointee.stripRefs
  | .dot, none => .ok type
  | op, _ => .error (.accessMismatch op type)

namespace SymbolTable

/-- The class that a type names. -/
def classOf (table : SymbolTable) (type : Ty) : Except Unresolved ClassId :=
  match type.name?.bind table.classNamed? with
  | some c => .ok c
  | none => .error (.notAClass type)

/-- What a bare name means. Variables hide the members of the enclosing class. -/
def resolveBare (table : SymbolTable) (scope : Scope) (name : String) (args : Option ArgTypes) :
    Except Unresolved Referent :=
  match scope.lookup name, scope.owner with
  | some binding, _ => .ok binding.referent
  | none, none => .error (.unknownName name)
  | none, some c =>
      match table.lookupMember c name with
      | .error (.noSuchMember _ _) => .error (.unknownName name)
      | .error reason => .error reason
      | .ok candidates =>
          (table.selectOverload name candidates args scope.isConst).map .member

/-- What a name means behind `.` or `->`, when the expression in front has a type. -/
def resolveAccess (table : SymbolTable) (type : Ty) (op : AccessOp) (name : String)
    (args : Option ArgTypes) : Except Unresolved MemberId := do
  let object ← objectType type op
  let c ← table.classOf object
  let candidates ← table.lookupMember c name
  table.selectOverload name candidates args object.isConst

/-- What a name qualified by a class means. In a method of that class or of one that derives from it the
    object is that of `this`. -/
def resolveQualified (table : SymbolTable) (scope : Scope) (owner name : String)
    (args : Option ArgTypes) : Except Unresolved MemberId :=
  match table.classNamed? owner with
  | none => .error (.notAClass (.named owner))
  | some c => do
      let candidates ← table.lookupMember c name
      let objectConst := scope.isConst && scope.owner.any fun own => table.derivesFrom own c
      table.selectOverload name candidates args objectConst

/-- The member that overloads an operator for an object of class type, in place of which the builtin
    operator may apply. -/
def resolveOperator (table : SymbolTable) (operand : Ty) (op : String) (args : ArgTypes) :
    Except Unresolved MemberId := do
  let c ← table.classOf operand.decay
  let name := Name.ofOperator op
  let candidates ← table.lookupMember c name
  let callable := candidates.filter fun m =>
    (table.method? m).any fun f => f.acceptsArity args.length
  table.selectOverload name callable (some args) operand.stripRefs.isConst

/-- The type of an expression that names a member of an object. Fields of a `const` object are `const`
    themselves. -/
def memberType? (table : SymbolTable) (m : MemberId) (called objectConst : Bool) : Option Ty :=
  (table.members[m]?).bind fun info =>
    (info.type? called).map fun type =>
      if objectConst && !called && !info.isStatic && !type.isReference then type.asConst else type

end SymbolTable

end MemberRefs
