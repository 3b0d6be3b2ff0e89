import MemberRefs.Tree.Expr

/-!
# Unresolved expressions

Why a name in a function body refers to nothing. Such a name is reported and left out of every other
result; there is no guess.
-/

namespace MemberRefs

/-- The reason why an expression does not resolve. -/
inductive Unresolved where
  | unknownType
  | notAClass (type : Ty)
  | accessMismatch (op : AccessOp) (type : Ty)
  | noSuchMember (owner name : String)
  | ambiguousBase (owner name : String)
  | noViableOverload (name : String)
  | ambiguousOverload (name : String)
  | unknownName (name : String)
  | unboundLocal (name : String)
  | noEnclosingClass
  deriving DecidableEq, Repr

/-- The reason in words. -/
def Unresolved.message : Unresolved → String
  | unknownType => "the type of the object expression is unknown"
  | notAClass type => "type `" ++ type.text ++ "` is not a class"
  | accessMismatch op type =>
      "`" ++ op.text ++ "` cannot be applied to an expression of type `" ++ type.text ++ "`"
  | noSuchMember owner name => "class `" ++ owner ++ "` has no member `" ++ name ++ "`"
  | ambiguousBase owner name =>
      "`" ++ name ++ "` is a member of several base classes of `" ++ owner ++ "`"
  | noViableOverload name => "no overload of `" ++ name ++ "` can be called here"
  | ambiguousOverload name => "several overloads of `" ++ name ++ "` match equally well"
  | unknownName name => "`" ++ name ++ "` is not declared in this scope"
  | unboundLocal name => "`" ++ name ++ "` is not bound to a variable of that kind"
  | noEnclosingClass => "`this` outside of a method"

end MemberRefs
