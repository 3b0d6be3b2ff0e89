import MemberRefs.Tree.Expr

/-!
# Statements

The statements of a function body. Blocks, branches and loops hold statements of their own. The local
variables declared among all of them are found by working off a list of statements still to visit, in
which a visited statement gives way to the ones it holds; every step leaves fewer nodes to visit
(`Stmt.nodeCounts_children_lt`).
-/

namespace MemberRefs

/-- The declaration of a local variable. -/
structure LocalDecl where
  name : SpannedName
  type : Ty
  init : Option Expr
  extent : Span

/-- A statement. -/
inductive Stmt where
  | decl (d : LocalDecl)
  | expr (e : Expr)
  | ret (value : Option Expr)
  | block (body : List Stmt)
  /-- A branch without an alternative. -/
  | ifThen (cond : Expr) (onTrue : Stmt)
  /-- A branch with an alternative. -/
  | ifElse (cond : Expr) (onTrue onFalse : Stmt)
  | loop (cond : Expr) (body : Stmt)

namespace Stmt

/-! ## 1. Parts of a statement -/

/-- The expressions that stand directly in a statement. -/
def exprs : Stmt → List Expr
  | decl d => d.init.toList
  | expr e => [e]
  | ret value => value.toList
  | block _ => []
  | ifThen cond _ | ifElse cond _ _ | loop cond _ => [cond]

/-- The statements that stand directly in a statement. -/
def children : Stmt → List Stmt
  | decl _ | expr _ | ret _ => []
  | block body => body
  | ifThen _ onTrue => [onTrue]
  | ifElse _ onTrue onFalse => [onTrue, onFalse]
  | loop _ body => [body]

/-- The variable that a statement itself declares. -/
def localDecl? : Stmt → Option LocalDecl
  | decl d => some d
  | _ => none

/-! ## 2. Size -/

mutual

/-- How many statements and expressions a statement consists of, itself included. -/
def nodeCount : Stmt → Nat
  | decl d => Expr.nodeCounts d.init.toList + 1
  | expr e => e.nodeCount + 1
  | ret value => Expr.nodeCounts value.toList + 1
  | block body => nodeCounts body + 1
  | ifThen cond onTrue => cond.nodeCount + nodeCount onTrue + 1
  | ifElse cond onTrue onFalse => cond.nodeCount + nodeCount onTrue + nodeCount onFalse + 1
  | loop cond body => cond.nodeCount + nodeCount body + 1

/-- How many statements and expressions several statements consist of. -/
def nodeCounts : List Stmt → Nat
  | [] => 0
  | s :: ss => nodeCount s + nodeCounts ss

end

theorem nodeCounts_append (ss ts : List Stmt) :
    nodeCounts (ss ++ ts) = nodeCounts ss + nodeCounts ts := by
  induction ss with
  | nil => simp [nodeCounts]
  | cons s ss ih => simp [nodeCounts, ih, Nat.add_assoc]

theorem nodeCounts_children_lt (s : Stmt) : nodeCounts s.children < s.nodeCount := by
  cases s <;> simp only [children, nodeCount, nodeCounts] <;> omega

/-! ## 3. Local variables -/

/-- The local variables declared anywhere in statements, in source order. -/
def locals : List Stmt → List LocalDecl
  | [] => []
  | s :: pending => s.localDecl?.toList ++ locals (s.children ++ pending)
  termination_by pending => nodeCounts pending
  decreasing_by
    simp only [nodeCounts_append, nodeCounts]
    exact Nat.add_lt_add_right (nodeCounts_children_lt s) _

/-- What is pending behind some statements adds its variables behind theirs. -/
theorem locals_append (ss ts : List Stmt) : locals (ss ++ ts) = locals ss ++ locals ts := by
  fun_induction locals ss with
  | case1 => rfl
  | case2 s pending ih => rw [List.cons_append, locals, ← List.append_assoc, ih, List.append_assoc]

/-- A statement declares the variable that it is the declaration of, and those of the statements in it. -/
theorem locals_cons (s : Stmt) (ss : List Stmt) :
    locals (s :: ss) = s.localDecl?.toList ++ locals s.children ++ locals ss := by
  rw [locals, locals_append, List.append_assoc]

end Stmt

end MemberRefs
