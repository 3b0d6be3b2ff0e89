import MemberRefs.Source.Span
import MemberRefs.Ty.Printer

/-!
# Expressions

The expressions of a function body, each with its place. A name that needs a scope to be understood is
an `ident`; names already known to mean a parameter or a local variable are marked as such. Operators are
named by their tokens, which have places of their own.
-/

namespace MemberRefs

/-- How a member is reached from an object expression. -/
inductive AccessOp where
  | dot
  | arrow
  deriving DecidableEq, Repr

/-- The operator as it is written. -/
def AccessOp.text : AccessOp → String
  | dot => "."
  | arrow => "->"

/-- An expression with its place. -/
inductive Expr where
  /-- A name written without qualification. -/
  | ident (span : Span) (name : SpannedName)
  /-- A name known to mean a parameter. -/
  | paramRef (span : Span) (name : SpannedName)
  /-- A name known to mean a local variable. -/
  | localRef (span : Span) (name : SpannedName)
  /-- The word `this`. -/
  | thisPtr (span : Span)
  /-- A member of the object that `base` denotes. -/
  | member (span : Span) (base : Expr) (op : AccessOp) (name : SpannedName)
  /-- A member qualified by a class. -/
  | qualified (span : Span) (owner : SpannedName) (name : SpannedName)
  | call (span : Span) (callee : Expr) (args : List Expr)
  | unary (span : Span) (op : SpannedName) (operand : Expr)
  | binary (span : Span) (lhs : Expr) (op : SpannedName) (rhs : Expr)
  /-- A literal, of which only the type is known. -/
  | literal (span : Span) (type : Ty)

namespace Expr

/-- The place of an expression. -/
def span : Expr → Span
  | ident span _ | paramRef span _ | localRef span _ | thisPtr span | member span _ _ _
  | qualified span _ _ | call span _ _ | unary span _ _ | binary span _ _ _ | literal span _ => span

/-- The expressions an expression is made of, in source order. -/
def children : Expr → List Expr
  | member _ base _ _ => [base]
  | call _ callee args => callee :: args
  | unary _ _ operand => [operand]
  | binary _ lhs _ rhs => [lhs, rhs]
  | _ => []

mutual

/-- How many expressions an expression consists of, itself included. -/
def nodeCount : Expr → Nat
  | member _ base _ _ => nodeCount base + 1
  | call _ callee args => nodeCount callee + nodeCounts args + 1
  | unary _ _ operand => nodeCount operand + 1
  | binary _ lhs _ rhs => nodeCount lhs + nodeCount rhs + 1
  | _ => 1

/-- How many expressions several expressions consist of. -/
def nodeCounts : List Expr → Nat
  | [] => 0
  | e :: es => nodeCount e + nodeCounts es

end

theorem nodeCount_pos (e : Expr) : 0 < e.nodeCount := by
  cases e <;> simp [nodeCount]

end Expr

end MemberRefs
