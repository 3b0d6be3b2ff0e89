import Mathlib.Data.List.Basic
import MemberRefs.Proofs.Resolve.Site

/-!
# Expressions with an open part

An expression in which one part is left open (`ExprContext`) becomes an expression again when the part is
filled in. The same goes for statements and for the body of a function, where the open part is one of an
expression somewhere in it (`StmtContext`, `BodyContext`). So a part is replaced by filling it in
differently.

* `ExprContext.exists_fill`, `BodyContext.exists_fill`: every part can be left open.
* `BodyContext.nodeCounts_fill_le`: with a smaller part a body is no larger.
-/

namespace MemberRefs

/-! ## 1. Expressions -/

/-- An expression in which one part is open. -/
inductive ExprContext where
  /-- The whole expression is open. -/
  | hole
  /-- The object that a member is reached from. -/
  | member (span : Span) (inner : ExprContext) (op : AccessOp) (name : SpannedName)
  /-- What is called. -/
  | callee (span : Span) (inner : ExprContext) (args : List Expr)
  /-- One of the arguments of a call. -/
  | arg (span : Span) (called : Expr) (before : List Expr) (inner : ExprContext) (after : List Expr)
  | operand (span : Span) (op : SpannedName) (inner : ExprContext)
  | left (span : Span) (inner : ExprContext) (op : SpannedName) (rhs : Expr)
  | right (span : Span) (lhs : Expr) (op : SpannedName) (inner : ExprContext)

theorem Expr.nodeCounts_append (es fs : List Expr) :
    nodeCounts (es ++ fs) = nodeCounts es + nodeCounts fs := by
  induction es with
  | nil => simp [nodeCounts]
  | cons e es ih => simp [nodeCounts, ih, Nat.add_assoc]

namespace ExprContext

/-- The expression with its open part filled in. -/
def fill (e : Expr) : ExprContext → Expr
  | hole => e
  | member span inner op name => .member span (inner.fill e) op name
  | callee span inner args => .call span (inner.fill e) args
  | arg span called before inner after => .call span called (before ++ inner.fill e :: after)
  | operand span op inner => .unary span op (inner.fill e)
  | left span inner op rhs => .binary span (inner.fill e) op rhs
  | right span lhs op inner => .binary span lhs op (inner.fill e)

/-- A part of an expression can be left open when it is one of a part that can. -/
theorem exists_fill_of_child {e c part : Expr} (hc : c ∈ e.children) {inner : ExprContext}
    (hinner : inner.fill part = c) : ∃ ctx : ExprContext, ctx.fill part = e := by
  subst hinner
  cases e with
  | member span base op name =>
    obtain rfl := List.mem_singleton.mp hc
    exact ⟨.member span inner op name, rfl⟩
  | call span callee args =>
    rcases List.mem_cons.mp hc with rfl | hc
    · exact ⟨.callee span inner args, rfl⟩
    · obtain ⟨before, after, rfl⟩ := List.append_of_mem hc
      exact ⟨.arg span callee before inner after, rfl⟩
  | unary span op operand =>
    obtain rfl := List.mem_singleton.mp hc
    exact ⟨.operand span op inner, rfl⟩
  | binary span lhs op rhs =>
    rcases List.mem_cons.mp hc with rfl | hc
    · exact ⟨.left span inner op rhs, rfl⟩
    · obtain rfl := List.mem_singleton.mp hc
      exact ⟨.right span lhs op inner, rfl⟩
  | ident | paramRef | localRef | thisPtr | qualified | literal => exact absurd hc List.not_mem_nil

/-- **Every part of an expression can be left open.** -/
theorem exists_fill {e part : Expr} (h : part ∈ e.within) : ∃ ctx : ExprContext, ctx.fill part = e := by
  induction e using Expr.children_induction with
  | step e ih =>
    rcases Expr.mem_within_iff.mp h with rfl | ⟨c, hc, hpart⟩
    · exact ⟨.hole, rfl⟩
    · obtain ⟨inner, hinner⟩ := ih c hc hpart
      exact exists_fill_of_child hc hinner

/-- With a smaller part an expression is no larger. -/
theorem nodeCount_fill_le {x e : Expr} (h : x.nodeCount ≤ e.nodeCount) : ∀ ctx : ExprContext,
    (ctx.fill x).nodeCount ≤ (ctx.fill e).nodeCount
  | hole => h
  | member _ inner _ _ | callee _ inner _ | operand _ _ inner | left _ inner _ _ | right _ _ _ inner => by
      have ih := nodeCount_fill_le h inner
      simp only [fill, Expr.nodeCount]
      omega
  | arg _ _ before inner after => by
      have ih := nodeCount_fill_le h inner
      simp only [fill, Expr.nodeCount, Expr.nodeCounts_append, Expr.nodeCounts]
      omega

end ExprContext

/-! ## 2. Statements -/

/-- A statement in which a part of an expression is open. -/
inductive StmtContext where
  /-- The value that a local variable starts with. -/
  | init (name : SpannedName) (type : Ty) (extent : Span) (whole : ExprContext)
  | expr (whole : ExprContext)
  | ret (whole : ExprContext)
  | block (before : List Stmt) (inner : StmtContext) (after : List Stmt)
  | thenCond (whole : ExprContext) (onTrue : Stmt)
  | thenBranch (cond : Expr) (inner : StmtContext)
  | elseCond (whole : ExprContext) (onTrue onFalse : Stmt)
  | elseTrue (cond : Expr) (inner : StmtContext) (onFalse : Stmt)
  | elseFalse (cond : Expr) (onTrue : Stmt) (inner : StmtContext)
  | loopCond (whole : ExprContext) (body : Stmt)
  | loopBody (cond : Expr) (inner : StmtContext)

/-- The statement with its open part filled in. -/
def StmtContext.fill (e : Expr) : StmtContext → Stmt
  | init name type extent whole => .decl ⟨name, type, some (whole.fill e), extent⟩
  | expr whole => .expr (whole.fill e)
  | ret whole => .ret (some (whole.fill e))
  | block before inner after => .block (before ++ inner.fill e :: after)
  | thenCond whole onTrue => .ifThen (whole.fill e) onTrue
  | thenBranch cond inner => .ifThen cond (inner.fill e)
  | elseCond whole onTrue onFalse => .ifElse (whole.fill e) onTrue onFalse
  | elseTrue cond inner onFalse => .ifElse cond (inner.fill e) onFalse
  | elseFalse cond onTrue inner => .ifElse cond onTrue (inner.fill e)
  | loopCond whole body => .loop (whole.fill e) body
  | loopBody cond inner => .loop cond (inner.fill e)

/-- The whole expression that the open part is one of. -/
def StmtContext.whole : StmtContext → ExprContext
  | init _ _ _ whole | expr whole | ret whole | thenCond whole _ | elseCond whole _ _
  | loopCond whole _ => whole
  | block _ inner _ | thenBranch _ inner | elseTrue _ inner _ | elseFalse _ _ inner
  | loopBody _ inner => inner.whole

/-- With a smaller part a statement is no larger. -/
theorem StmtContext.nodeCount_fill_le {x e : Expr} (h : x.nodeCount ≤ e.nodeCount) :
    ∀ ctx : StmtContext, (ctx.fill x).nodeCount ≤ (ctx.fill e).nodeCount
  | init _ _ _ whole | expr whole | ret whole | thenCond whole _ | elseCond whole _ _
  | loopCond whole _ => by
      have hwhole := ExprContext.nodeCount_fill_le h whole
      simp only [fill, Stmt.nodeCount, Option.toList_some, Expr.nodeCounts]
      omega
  | block _ inner _ => by
      have ih := nodeCount_fill_le h inner
      simp only [fill, Stmt.nodeCount, Stmt.nodeCounts_append, Stmt.nodeCounts]
      omega
  | thenBranch _ inner | elseTrue _ inner _ | elseFalse _ _ inner | loopBody _ inner => by
      have ih := nodeCount_fill_le h inner
      simp only [fill, Stmt.nodeCount]
      omega

/-! ## 3. Bodies -/

/-- A list of statements in which a part of an expression is open. -/
structure BodyContext where
  before : List Stmt
  stmt : StmtContext
  after : List Stmt

namespace BodyContext

/-- The statements with the open part filled in. -/
def fill (e : Expr) (ctx : BodyContext) : List Stmt := ctx.before ++ ctx.stmt.fill e :: ctx.after

/-- With a smaller part a body is no larger. -/
theorem nodeCounts_fill_le {x e : Expr} (h : x.nodeCount ≤ e.nodeCount) (ctx : BodyContext) :
    Stmt.nodeCounts (ctx.fill x) ≤ Stmt.nodeCounts (ctx.fill e) := by
  have hstmt := ctx.stmt.nodeCount_fill_le h
  simp only [fill, Stmt.nodeCounts_append, Stmt.nodeCounts]
  omega

end BodyContext

mutual

/-- A part of a whole expression of a statement can be left open. -/
theorem StmtContext.exists_fill {part : Expr} : ∀ (s : Stmt) (whole : ExprContext),
    whole.fill part ∈ s.allExprs → ∃ ctx : StmtContext, ctx.fill part = s
  | .decl ⟨name, type, init, extent⟩, whole, h => by
      obtain rfl := Option.mem_toList.mp h
      exact ⟨.init name type extent whole, rfl⟩
  | .expr e, whole, h => by
      obtain rfl := List.mem_singleton.mp h
      exact ⟨.expr whole, rfl⟩
  | .ret value, whole, h => by
      obtain rfl := Option.mem_toList.mp h
      exact ⟨.ret whole, rfl⟩
  | .block body, whole, h => by
      obtain ⟨⟨before, inner, after⟩, hfill⟩ := BodyContext.exists_fill_of_whole body whole h
      exact ⟨.block before inner after, congrArg Stmt.block hfill⟩
  | .ifThen cond onTrue, whole, h => by
      rcases List.mem_cons.mp h with rfl | h
      · exact ⟨.thenCond whole onTrue, rfl⟩
      · obtain ⟨inner, rfl⟩ := StmtContext.exists_fill onTrue whole h
        exact ⟨.thenBranch cond inner, rfl⟩
  | .ifElse cond onTrue onFalse, whole, h => by
      rcases List.mem_cons.mp h with rfl | h
      · exact ⟨.elseCond whole onTrue onFalse, rfl⟩
      · rcases List.mem_append.mp h with h | h
        · obtain ⟨inner, rfl⟩ := StmtContext.exists_fill onTrue whole h
          exact ⟨.elseTrue cond inner onFalse, rfl⟩
        · obtain ⟨inner, rfl⟩ := StmtContext.exists_fill onFalse whole h
          exact ⟨.elseFalse cond onTrue inner, rfl⟩
  | .loop cond body, whole, h => by
      rcases List.mem_cons.mp h with rfl | h
      · exact ⟨.loopCond whole body, rfl⟩
      · obtain ⟨inner, rfl⟩ := StmtContext.exists_fill body whole h
        exact ⟨.loopBody cond inner, rfl⟩

theorem BodyContext.exists_fill_of_whole {part : Expr} : ∀ (ss : List Stmt) (whole : ExprContext),
    whole.fill part ∈ Stmt.allExprsList ss → ∃ ctx : BodyContext, ctx.fill part = ss
  | s :: ss, whole, h => by
      rcases List.mem_append.mp h with h | h
      · obtain ⟨inner, rfl⟩ := StmtContext.exists_fill s whole h
        exact ⟨⟨[], inner, ss⟩, rfl⟩
      · obtain ⟨⟨before, inner, after⟩, rfl⟩ := BodyContext.exists_fill_of_whole ss whole h
        exact ⟨⟨s :: before, inner, after⟩, rfl⟩

end

/-- **Every part of an expression of a body can be left open.** -/
theorem BodyContext.exists_fill {body : List Stmt} {part : Expr} (h : part ∈ Stmt.exprsWithin body) :
    ∃ ctx : BodyContext, ctx.fill part = body := by
  obtain ⟨e, he, hpart⟩ := List.mem_flatMap.mp h
  obtain ⟨whole, rfl⟩ := ExprContext.exists_fill hpart
  exact exists_fill_of_whole body whole he

end MemberRefs
