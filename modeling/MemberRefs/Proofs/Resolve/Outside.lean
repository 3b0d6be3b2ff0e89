import Mathlib.Data.List.Perm.Basic
import MemberRefs.Proofs.Resolve.Contexts

/-!
# The visits outside of an open part

When a part of an expression is replaced, the walk visits the same names and operators around it, only with
other parts below them. So a visit outside of the open part is one that depends on what fills the part
(`Outer`), and an expression with an open part has a list of these (`ExprContext.outer`).

* `ExprContext.visits_fill_perm`: the visits of a filled expression are those of what fills the part and the
  outer ones.
* `BodyContext.visits_fill_perm`: the visits of a filled body, each with its scope.
* `SymbolTable.findings_eq_flatMap_visits`: what a function body finds is what its visits find.
-/

namespace MemberRefs

/-! ## 1. Expressions -/

/-- The visits of an expression where it may be what is called. -/
def Expr.visitsAs (call : Option (Span × List Expr)) (e : Expr) : List Visit :=
  e.visits.dropLast ++ [⟨e, if e.isName then call else none⟩]

/-- An expression is visited behind its parts. -/
theorem Expr.visits_eq (e : Expr) : e.visits = e.visits.dropLast ++ [⟨e, none⟩] := by
  suffices h : ∃ before, e.visits = before ++ [⟨e, none⟩] by
    obtain ⟨before, hbefore⟩ := h
    rw [hbefore, List.dropLast_concat]
  cases e with
  | call span callee args =>
    cases hn : callee.isName with
    | false => exact ⟨_, visits_call hn span args⟩
    | true =>
      cases callee with
      | ident | member | qualified => exact ⟨_, (List.append_assoc _ [_] [_]).symm⟩
      | _ => cases hn
  | member | unary | binary => exact ⟨_, rfl⟩
  | _ => exact ⟨[], rfl⟩

theorem Expr.visitsAs_none (e : Expr) : e.visitsAs none = e.visits := by
  rw [visitsAs, ite_self, ← visits_eq]

theorem Expr.visitsAs_of_not_isName {e : Expr} (hn : e.isName = false)
    (call : Option (Span × List Expr)) : e.visitsAs call = e.visits := by
  rw [← visitsAs_none, visitsAs, visitsAs, hn]
  rfl

theorem perm_append_between {α : Type} (as bs : List α) (a b : α) :
    (as ++ bs ++ [a, b]).Perm (as ++ [a] ++ bs ++ [b]) := by
  have hswap : (bs ++ [a]).Perm ([a] ++ bs) := List.perm_append_comm
  simpa [List.append_assoc] using (hswap.append_left as).append_right [b]

/-- A call visits what is called, its arguments and then itself. -/
theorem Expr.visits_call_perm (span : Span) (callee : Expr) (args : List Expr) :
    (Expr.call span callee args).visits.Perm
      (callee.visitsAs (some (span, args)) ++ Expr.visitsAll args ++
        [⟨.call span callee args, none⟩]) := by
  cases hn : callee.isName with
  | false => rw [visits_call hn, visitsAs_of_not_isName hn]
  | true =>
    cases callee with
    | ident | qualified => exact perm_append_between [] (visitsAll args) _ _
    | member _ base _ _ =>
      simp only [visitsAs, visits, List.dropLast_concat, isName, if_true]
      exact perm_append_between base.visits (visitsAll args) _ _
    | _ => cases hn

/-! ## 2. Outer visits -/

/-- What a list holds of the open part may be put in front of the rest. -/
theorem perm_open_first {α : Type} {ys as bs : List α} (h : ys.Perm (as ++ bs)) (ps qs : List α) :
    (ps ++ ys ++ qs).Perm (as ++ (ps ++ bs ++ qs)) := by
  have hswap : (ps ++ as).Perm (as ++ ps) := List.perm_append_comm
  refine ((h.append_left ps).append_right qs).trans ?_
  simpa [List.append_assoc] using hswap.append_right (bs ++ qs)

/-- A visit outside of an open part, by what fills the part, with the expression around the part that the
    visit sees. A visit that sees nothing of the part has nothing around it. -/
structure Outer where
  around : ExprContext
  visit : Expr → Visit

/-- A visit that sees nothing of the open part. -/
def Outer.aside (v : Visit) : Outer := ⟨.hole, fun _ => v⟩

namespace ExprContext

/-- The call that the open part may be what is called in. -/
def callAt (call : Option (Span × List Expr)) : ExprContext → Option (Span × List Expr)
  | .hole => call
  | .callee span inner args => inner.callAt (some (span, args))
  | .member _ inner _ _ | .arg _ _ _ inner _ | .operand _ _ inner | .left _ inner _ _
  | .right _ _ _ inner => inner.callAt none

/-- The outer visits of an expression with an open part, which may be what is called. -/
def outer (call : Option (Span × List Expr)) : ExprContext → List Outer
  | .hole => []
  | .member span inner op name =>
      inner.outer none ++
        [⟨.member span inner op name, fun x => ⟨.member span (inner.fill x) op name, call⟩⟩]
  | .callee span inner args =>
      inner.outer (some (span, args)) ++ (Expr.visitsAll args).map .aside ++
        [⟨.callee span inner args, fun x => ⟨.call span (inner.fill x) args, none⟩⟩]
  | .arg span called before inner after =>
      let args (x : Expr) : List Expr := before ++ inner.fill x :: after
      called.visits.dropLast.map .aside ++
        [⟨.arg span called before inner after,
          fun x => ⟨called, if called.isName then some (span, args x) else none⟩⟩] ++
        (Expr.visitsAll before).map .aside ++ inner.outer none ++
        (Expr.visitsAll after).map .aside ++
        [⟨.arg span called before inner after, fun x => ⟨.call span called (args x), none⟩⟩]
  | .operand span op inner =>
      inner.outer none ++
        [⟨.operand span op inner, fun x => ⟨.unary span op (inner.fill x), none⟩⟩]
  | .left span inner op rhs =>
      inner.outer none ++ rhs.visits.map .aside ++
        [⟨.left span inner op rhs, fun x => ⟨.binary span (inner.fill x) op rhs, none⟩⟩]
  | .right span lhs op inner =>
      lhs.visits.map .aside ++ inner.outer none ++
        [⟨.right span lhs op inner, fun x => ⟨.binary span lhs op (inner.fill x), none⟩⟩]

theorem visit_comp_aside (x : Expr) : (fun n : Outer => n.visit x) ∘ Outer.aside = id := rfl

theorem visitsAll_append (es fs : List Expr) :
    Expr.visitsAll (es ++ fs) = Expr.visitsAll es ++ Expr.visitsAll fs := by
  induction es with
  | nil => rfl
  | cons e es ih => simp [Expr.visitsAll, ih]

/-- **The visits of a filled expression** are those of what fills the open part and the outer ones. -/
theorem visits_fill_perm (x : Expr) :
    ∀ (ctx : ExprContext) (call : Option (Span × List Expr)),
      ((ctx.fill x).visitsAs call).Perm
        (x.visitsAs (ctx.callAt call) ++ (ctx.outer call).map fun n => n.visit x)
  | .hole, call => by
      simp [fill, outer, callAt]
  | .member span inner op name, call => by
      have ih := visits_fill_perm x inner none
      rw [Expr.visitsAs_none] at ih
      have hown := perm_open_first ih [] [⟨.member span (inner.fill x) op name, call⟩]
      simpa [fill, outer, callAt, Expr.visitsAs, Expr.visits, Expr.isName] using hown
  | .callee span inner args, call => by
      have ih := visits_fill_perm x inner (some (span, args))
      have hown := perm_open_first ih []
        (Expr.visitsAll args ++ [⟨.call span (inner.fill x) args, none⟩])
      have hcall := Expr.visits_call_perm span (inner.fill x) args
      rw [fill, Expr.visitsAs_of_not_isName rfl]
      refine hcall.trans ?_
      simpa [outer, callAt, visit_comp_aside] using hown
  | .arg span called before inner after, call => by
      have ih := visits_fill_perm x inner none
      rw [Expr.visitsAs_none] at ih
      have hown := perm_open_first ih
        (called.visitsAs (some (span, before ++ inner.fill x :: after)) ++ Expr.visitsAll before)
        (Expr.visitsAll after ++ [⟨.call span called (before ++ inner.fill x :: after), none⟩])
      have hcall := Expr.visits_call_perm span called (before ++ inner.fill x :: after)
      rw [fill, Expr.visitsAs_of_not_isName rfl]
      refine hcall.trans ?_
      simpa [outer, callAt, visit_comp_aside, visitsAll_append, Expr.visitsAll, Expr.visitsAs] using hown
  | .operand span op inner, call => by
      have ih := visits_fill_perm x inner none
      rw [Expr.visitsAs_none] at ih
      have hown := perm_open_first ih [] [⟨.unary span op (inner.fill x), none⟩]
      rw [fill, Expr.visitsAs_of_not_isName rfl]
      simpa [outer, callAt, Expr.visits] using hown
  | .left span inner op rhs, call => by
      have ih := visits_fill_perm x inner none
      rw [Expr.visitsAs_none] at ih
      have hown := perm_open_first ih [] (rhs.visits ++ [⟨.binary span (inner.fill x) op rhs, none⟩])
      rw [fill, Expr.visitsAs_of_not_isName rfl]
      simpa [outer, callAt, visit_comp_aside, Expr.visits] using hown
  | .right span lhs op inner, call => by
      have ih := visits_fill_perm x inner none
      rw [Expr.visitsAs_none] at ih
      have hown := perm_open_first ih lhs.visits [⟨.binary span lhs op (inner.fill x), none⟩]
      rw [fill, Expr.visitsAs_of_not_isName rfl]
      simpa [outer, callAt, visit_comp_aside, Expr.visits] using hown

end ExprContext

/-! ## 3. Bodies -/

theorem scopedExprsList_append (ss ts : List Stmt) (scope : Scope) :
    Stmt.scopedExprsList scope (ss ++ ts) =
      Stmt.scopedExprsList scope ss ++ Stmt.scopedExprsList (ss.foldl Scope.after scope) ts := by
  induction ss generalizing scope with
  | nil => rfl
  | cons s ss ih => simp [Stmt.scopedExprsList, ih]

namespace StmtContext

/-- The scope behind a statement with an open part. -/
def after (scope : Scope) : StmtContext → Scope
  | .init name type extent _ => scope.bind ⟨name, type, none, extent⟩
  | _ => scope

theorem after_fill (scope : Scope) (x : Expr) (ctx : StmtContext) :
    scope.after (ctx.fill x) = ctx.after scope := by
  cases ctx <;> rfl

/-- The scope that the open part is in. -/
def scope (scope : Scope) : StmtContext → Scope
  | .init name type extent _ => scope.bind ⟨name, type, none, extent⟩
  | .block before inner _ => inner.scope (before.foldl Scope.after scope)
  | .thenBranch _ inner | .elseTrue _ inner _ | .elseFalse _ _ inner | .loopBody _ inner =>
      inner.scope scope
  | _ => scope

/-- The whole expressions that the open part is no part of, each with its scope. -/
def aside (scope : Scope) : StmtContext → List (Scope × Expr)
  | .init _ _ _ _ | .expr _ | .ret _ => []
  | .block before inner after =>
      let behind := before.foldl Scope.after scope
      Stmt.scopedExprsList scope before ++ inner.aside behind ++
        Stmt.scopedExprsList (inner.after behind) after
  | .thenCond _ onTrue => onTrue.scopedExprs scope
  | .thenBranch cond inner => (scope, cond) :: inner.aside scope
  | .elseCond _ onTrue onFalse => onTrue.scopedExprs scope ++ onFalse.scopedExprs scope
  | .elseTrue cond inner onFalse => (scope, cond) :: (inner.aside scope ++ onFalse.scopedExprs scope)
  | .elseFalse cond onTrue inner => (scope, cond) :: (onTrue.scopedExprs scope ++ inner.aside scope)
  | .loopCond _ body => body.scopedExprs scope
  | .loopBody cond inner => (scope, cond) :: inner.aside scope

/-- The expressions of a filled statement are the one with the open part and those aside of it. -/
theorem scopedExprs_fill_perm (x : Expr) : ∀ (ctx : StmtContext) (scope : Scope),
    ((ctx.fill x).scopedExprs scope).Perm
      ((ctx.scope scope, ctx.whole.fill x) :: ctx.aside scope)
  | .init _ _ _ _, _ | .expr _, _ | .ret _, _ | .thenCond _ _, _ | .elseCond _ _ _, _
  | .loopCond _ _, _ => .refl _
  | .block before inner after, scope => by
      have ih := scopedExprs_fill_perm x inner (before.foldl Scope.after scope)
      have hfirst := perm_open_first (List.singleton_append ▸ ih) (Stmt.scopedExprsList scope before)
        (Stmt.scopedExprsList (inner.after (before.foldl Scope.after scope)) after)
      simpa [fill, Stmt.scopedExprs, scopedExprsList_append, Stmt.scopedExprsList, after_fill,
        aside, whole, StmtContext.scope] using hfirst
  | .thenBranch cond inner, scope | .loopBody cond inner, scope => by
      have ih := scopedExprs_fill_perm x inner scope
      exact (ih.cons (scope, cond)).trans (.swap _ _ _)
  | .elseTrue cond inner onFalse, scope => by
      have ih := scopedExprs_fill_perm x inner scope
      have hfirst := perm_open_first (List.singleton_append ▸ ih) [(scope, cond)]
        (onFalse.scopedExprs scope)
      simpa [fill, Stmt.scopedExprs, aside, whole, StmtContext.scope] using hfirst
  | .elseFalse cond onTrue inner, scope => by
      have ih := scopedExprs_fill_perm x inner scope
      have hfirst := perm_open_first (List.singleton_append ▸ ih)
        ((scope, cond) :: onTrue.scopedExprs scope) []
      simpa [fill, Stmt.scopedExprs, aside, whole, StmtContext.scope] using hfirst

end StmtContext

namespace BodyContext

/-- The body as a block. -/
def block (ctx : BodyContext) : StmtContext := .block ctx.before ctx.stmt ctx.after

/-- The visits of what fills the open part, in a body that starts in a scope. -/
def inside (scope : Scope) (ctx : BodyContext) (x : Expr) : List (Scope × Visit) :=
  (x.visitsAs (ctx.stmt.whole.callAt none)).map (Prod.mk (ctx.block.scope scope))

/-- The outer visits of a body that starts in a scope, each with its own scope. -/
def outer (scope : Scope) (ctx : BodyContext) : List (Scope × Outer) :=
  (ctx.stmt.whole.outer none).map (Prod.mk (ctx.block.scope scope)) ++
    (ctx.block.aside scope).flatMap fun (s, e) => e.visits.map fun v => (s, .aside v)

end BodyContext

/-- The visits of expressions with their scopes. -/
def visitsIn (exprs : List (Scope × Expr)) : List (Scope × Visit) :=
  exprs.flatMap fun (scope, e) => e.visits.map (Prod.mk scope)

/-- **The visits of a filled body** are those of what fills the open part and the outer ones. -/
theorem BodyContext.visits_fill_perm (scope : Scope) (ctx : BodyContext) (x : Expr) :
    (visitsIn (Stmt.scopedExprsList scope (ctx.fill x))).Perm
      (ctx.inside scope x ++ (ctx.outer scope).map fun (s, n) => (s, n.visit x)) := by
  have hexprs : (Stmt.scopedExprsList scope (ctx.fill x)).Perm
      ((ctx.block.scope scope, ctx.stmt.whole.fill x) :: ctx.block.aside scope) :=
    ctx.block.scopedExprs_fill_perm x scope
  have hwhole := ctx.stmt.whole.visits_fill_perm x none
  rw [Expr.visitsAs_none] at hwhole
  refine (hexprs.flatMap_right _).trans ?_
  have hscoped := (hwhole.map (Prod.mk (ctx.block.scope scope))).append_right
    (visitsIn (ctx.block.aside scope))
  simpa [inside, outer, visitsIn, List.map_flatMap, Function.comp_def, Outer.aside] using hscoped

namespace SymbolTable

variable {table : SymbolTable}

/-- The visits that the walk over a function body pays, each with its scope. -/
def scopedVisits (table : SymbolTable) (f : FuncId) : List (Scope × Visit) :=
  visitsIn (table.scopedExprs f)

/-- **A function body finds what its visits find**, in their order. -/
theorem findings_eq_flatMap_visits (f : FuncId) :
    table.findings f = (table.scopedVisits f).flatMap fun (scope, v) => v.findings table scope := by
  rw [findings, scopedVisits, visitsIn, List.flatMap_assoc]
  refine List.flatMap_congr ?_
  rintro ⟨scope, e⟩ _
  rw [List.flatMap_map]
  exact findings_read e

end SymbolTable

end MemberRefs
