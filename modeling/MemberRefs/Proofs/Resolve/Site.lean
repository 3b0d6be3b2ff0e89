import Mathlib.Data.List.Perm.Basic
import MemberRefs.Proofs.Resolve.Visit
import MemberRefs.Resolve.Body

/-!
# The sites of a function body

The walk over a body carries its scope along. Where an expression stands can be said without one: by the
lists of statements around it, each of them as far as the statement that holds the expression
(`Place.enclosing`). The variables visible there are read off these lists (`visibleBinders`).

* `scopedExprsList_eq_map_placesList`: the scope that the walk carries is the one read off the place.
* `lookup_scopeAt`: the scope at a site gives a name the first visible binder that has it.
* `findings_eq_flatMap_sites`: a body finds what is found at its sites, in their order.
* `map_node_sites_perm`: the sites are those of all expressions of a body.
-/

namespace MemberRefs

/-! ## 1. Places -/

/-- Where a whole expression of a body stands. The lists of statements around it come innermost first,
    and each one ends with the statement that the expression is in. -/
structure Place where
  enclosing : List (List Stmt)
  expr : Expr

mutual

/-- The places in a statement, when `enclosing` are the lists around it, the last statement of the first
    of them being the statement itself. The parts of a branch or loop are lists of their own. -/
def Stmt.places (enclosing : List (List Stmt)) : Stmt → List Place
  | .decl d => d.init.toList.map fun e => ⟨enclosing, e⟩
  | .expr e => [⟨enclosing, e⟩]
  | .ret value => value.toList.map fun e => ⟨enclosing, e⟩
  | .block body => Stmt.placesList enclosing [] body
  | .ifThen cond onTrue => ⟨enclosing, cond⟩ :: onTrue.places ([onTrue] :: enclosing)
  | .ifElse cond onTrue onFalse =>
      ⟨enclosing, cond⟩ ::
        (onTrue.places ([onTrue] :: enclosing) ++ onFalse.places ([onFalse] :: enclosing))
  | .loop cond body => ⟨enclosing, cond⟩ :: body.places ([body] :: enclosing)

/-- The places in a list of statements behind the statements `before` of the same list, when `around` are
    the lists around that list. -/
def Stmt.placesList (around : List (List Stmt)) (before : List Stmt) : List Stmt → List Place
  | [] => []
  | s :: ss =>
      s.places ((before ++ [s]) :: around) ++ Stmt.placesList around (before ++ [s]) ss

end

mutual

/-- The whole expressions anywhere in a statement. -/
def Stmt.allExprs : Stmt → List Expr
  | .decl d => d.init.toList
  | .expr e => [e]
  | .ret value => value.toList
  | .block body => Stmt.allExprsList body
  | .ifThen cond onTrue => cond :: onTrue.allExprs
  | .ifElse cond onTrue onFalse => cond :: (onTrue.allExprs ++ onFalse.allExprs)
  | .loop cond body => cond :: body.allExprs

/-- The whole expressions anywhere in several statements. -/
def Stmt.allExprsList : List Stmt → List Expr
  | [] => []
  | s :: ss => s.allExprs ++ Stmt.allExprsList ss

end

mutual

/-- Every whole expression has its place. -/
theorem map_expr_places : ∀ (s : Stmt) (enclosing : List (List Stmt)),
    (s.places enclosing).map Place.expr = s.allExprs
  | .decl _, _ | .ret _, _ => by simp [Stmt.places, Stmt.allExprs, Function.comp_def]
  | .expr _, _ => rfl
  | .block body, _ => by rw [Stmt.places, Stmt.allExprs, map_expr_placesList body]
  | .ifThen _ onTrue, _ | .loop _ onTrue, _ => by
      rw [Stmt.places, Stmt.allExprs, List.map_cons, map_expr_places onTrue]
  | .ifElse _ onTrue onFalse, _ => by
      rw [Stmt.places, Stmt.allExprs, List.map_cons, List.map_append, map_expr_places onTrue,
        map_expr_places onFalse]

theorem map_expr_placesList : ∀ (ss : List Stmt) (around : List (List Stmt)) (before : List Stmt),
    (Stmt.placesList around before ss).map Place.expr = Stmt.allExprsList ss
  | [], _, _ => rfl
  | s :: ss, _, _ => by
      rw [Stmt.placesList, Stmt.allExprsList, List.map_append, map_expr_places s,
        map_expr_placesList ss]

end

/-! ## 2. Binders -/

/-- What can bind a name in a body: a local variable or a parameter, known by its index. -/
inductive Binder where
  | variable (decl : LocalDecl)
  | param (index : Nat) (decl : Param)

namespace Binder

/-- The name that is bound, if the binder has one. -/
def name? : Binder → Option String
  | .variable d => some d.name.val
  | .param _ p => p.name.map Spanned.val

/-- Whether the binder is a parameter. -/
def isParam : Binder → Bool
  | .variable _ => false
  | .param _ _ => true

/-- What the name refers to in the body of the function `f`. -/
def referent (f : FuncId) : Binder → Referent
  | .variable d => .variable d.name.span
  | .param index _ => .param f index

/-- The type that the binder is declared with. -/
def type : Binder → Ty
  | .variable d => d.type
  | .param _ p => p.type

/-- The name and what it is bound to, as a scope keeps them. -/
def entry? (f : FuncId) (b : Binder) : Option (String × Binding) :=
  b.name?.map fun name => (name, ⟨b.referent f, b.type⟩)

theorem isParam_referent (f : FuncId) (b : Binder) :
    SymbolTable.isParam (b.referent f) = b.isParam := by
  cases b <;> rfl

theorem referent_ne_member (f : FuncId) (b : Binder) (m : MemberId) :
    b.referent f ≠ .member m := by
  cases b <;> exact nofun

end Binder

/-- The parameters of a function from the last to the first. -/
def FuncDecl.paramBinders (decl : FuncDecl) : List Binder :=
  (decl.params.zipIdx.map fun (param, index) => .param index param).reverse

/-- **The binders visible at a place**: the local variables declared in the lists of statements around it,
    innermost list first and latest first inside a list, and then the parameters from the last to the
    first. -/
def visibleBinders (decl : FuncDecl) (enclosing : List (List Stmt)) : List Binder :=
  (enclosing.flatMap fun ss => (ss.filterMap Stmt.localDecl?).reverse).map .variable ++
    decl.paramBinders

/-- The first visible binder of a name. -/
def firstBinder? (decl : FuncDecl) (enclosing : List (List Stmt)) (name : String) : Option Binder :=
  (visibleBinders decl enclosing).find? fun b => b.name? == some name

/-! ## 3. The scope at a place -/

/-- The scope inside some lists of statements of a function body. -/
def FuncInfo.scopeIn (info : FuncInfo) (f : FuncId) (enclosing : List (List Stmt)) : Scope :=
  { info.scope f with
    bindings := (visibleBinders info.decl enclosing).filterMap (Binder.entry? f) }

variable {info : FuncInfo} {f : FuncId}

theorem filterMap_paramBinders (decl : FuncDecl) (f : FuncId) :
    decl.paramBinders.filterMap (Binder.entry? f) = decl.paramBindings f := by
  rw [FuncDecl.paramBinders, FuncDecl.paramBindings, List.filterMap_reverse, List.filterMap_map]
  congr 2
  funext ⟨param, index⟩
  cases h : param.name <;> simp [Binder.entry?, Binder.name?, Binder.type, Binder.referent, h]

theorem lookup_filterMap_entry? (name : String) (bs : List Binder) :
    (bs.filterMap (Binder.entry? f)).lookup name =
      (bs.find? fun b => b.name? == some name).map fun b => ⟨b.referent f, b.type⟩ := by
  induction bs with
  | nil => rfl
  | cons b bs ih =>
    cases hb : b.name? with
    | none => simp [Binder.entry?, hb, ih]
    | some n =>
      by_cases hn : name = n
      · simp [Binder.entry?, hb, hn]
      · have hn' : n ≠ name := fun h => hn h.symm
        simp [Binder.entry?, hb, hn', beq_false_of_ne hn, List.lookup_cons, ih]

/-- A scope gives a name the first visible binder that has it. -/
theorem lookup_scopeIn (enclosing : List (List Stmt)) (name : String) :
    (info.scopeIn f enclosing).lookup name =
      (firstBinder? info.decl enclosing name).map fun b => ⟨b.referent f, b.type⟩ :=
  lookup_filterMap_entry? name _

/-- At the start of the body only the parameters are visible. -/
theorem scopeIn_nil : info.scopeIn f [] = info.scope f := by
  rw [FuncInfo.scopeIn, visibleBinders, List.flatMap_nil, List.map_nil, List.nil_append,
    filterMap_paramBinders]
  rfl

/-- A list of statements without a declaration makes nothing visible. -/
theorem scopeIn_cons_nil (around : List (List Stmt)) :
    info.scopeIn f ([] :: around) = info.scopeIn f around := by
  simp [FuncInfo.scopeIn, visibleBinders]

/-- One statement more in the innermost list is the scope behind that statement. -/
theorem scopeIn_snoc (around : List (List Stmt)) (before : List Stmt) (s : Stmt) :
    info.scopeIn f ((before ++ [s]) :: around) = (info.scopeIn f (before :: around)).after s := by
  cases s <;>
    simp [FuncInfo.scopeIn, visibleBinders, Stmt.localDecl?, Scope.after, Scope.bind, Binder.entry?,
      Binder.name?, Binder.referent, Binder.type]

mutual

/-- The walk reads the expressions of a statement, each in the scope at its place. The scope in front of
    the statement may be used for all but the declaration of a variable, which is visible in its own
    initializer. -/
theorem scopedExprs_eq_map_places : ∀ (s : Stmt) (around : List (List Stmt)) (before : List Stmt),
    s.scopedExprs (info.scopeIn f (before :: around)) =
      (s.places ((before ++ [s]) :: around)).map fun p => (info.scopeIn f p.enclosing, p.expr)
  | .decl d, around, before => by
      simp [Stmt.scopedExprs, Stmt.places, scopeIn_snoc, Scope.after]
  | .expr e, around, before | .ret value, around, before => by
      simp [Stmt.scopedExprs, Stmt.places, scopeIn_snoc, Scope.after]
  | .block body, around, before => by
      rw [Stmt.scopedExprs, Stmt.places, ← scopedExprsList_eq_map_placesList body _ [],
        scopeIn_cons_nil, scopeIn_snoc]
      rfl
  | .ifThen cond onTrue, around, before => by
      have hpart := scopedExprs_eq_map_places onTrue
        ((before ++ [.ifThen cond onTrue]) :: around) []
      rw [scopeIn_cons_nil, scopeIn_snoc] at hpart
      simpa [Stmt.scopedExprs, Stmt.places, scopeIn_snoc, Scope.after] using hpart
  | .ifElse cond onTrue onFalse, around, before => by
      have htrue := scopedExprs_eq_map_places onTrue
        ((before ++ [.ifElse cond onTrue onFalse]) :: around) []
      have hfalse := scopedExprs_eq_map_places onFalse
        ((before ++ [.ifElse cond onTrue onFalse]) :: around) []
      rw [scopeIn_cons_nil, scopeIn_snoc] at htrue hfalse
      simp only [Stmt.scopedExprs, Stmt.places, List.map_cons, List.map_append, scopeIn_snoc,
        Scope.after]
      exact congrArg _ (congr (congrArg _ htrue) hfalse)
  | .loop cond body, around, before => by
      have hpart := scopedExprs_eq_map_places body ((before ++ [.loop cond body]) :: around) []
      rw [scopeIn_cons_nil, scopeIn_snoc] at hpart
      simpa [Stmt.scopedExprs, Stmt.places, scopeIn_snoc, Scope.after] using hpart

/-- **The walk reads the expressions of a list of statements, each in the scope at its place.** -/
theorem scopedExprsList_eq_map_placesList :
    ∀ (ss : List Stmt) (around : List (List Stmt)) (before : List Stmt),
    Stmt.scopedExprsList (info.scopeIn f (before :: around)) ss =
      (Stmt.placesList around before ss).map fun p => (info.scopeIn f p.enclosing, p.expr)
  | [], _, _ => rfl
  | s :: ss, around, before => by
      rw [Stmt.scopedExprsList, Stmt.placesList, List.map_append,
        ← scopedExprs_eq_map_places s around before, ← scopeIn_snoc,
        scopedExprsList_eq_map_placesList ss around (before ++ [s])]

end

/-! ## 4. Sites -/

/-- Where one expression of a body stands, be it a whole expression or a part of one: the lists of
    statements around it, and the visit that the walk pays it. -/
structure Site where
  enclosing : List (List Stmt)
  visit : Visit

/-- The sites of a place in the order of the walk. -/
def Place.sites (p : Place) : List Site := p.expr.visits.map fun v => ⟨p.enclosing, v⟩

/-- The sites of a function body in the order of the walk. -/
def Stmt.sites (body : List Stmt) : List Site := (Stmt.placesList [] [] body).flatMap Place.sites

/-- All expressions of a function body, parts of expressions included. -/
def Stmt.exprsWithin (body : List Stmt) : List Expr := (Stmt.allExprsList body).flatMap Expr.within

/-- The expression at a site. -/
def Site.node (site : Site) : Expr := site.visit.node

/-- **Every expression of a body has one site.** -/
theorem map_node_sites_perm (body : List Stmt) :
    ((Stmt.sites body).map Site.node).Perm (Stmt.exprsWithin body) := by
  rw [Stmt.exprsWithin, ← map_expr_placesList body [] [], Stmt.sites, List.map_flatMap,
    List.flatMap_map]
  refine List.Perm.flatMap_left _ fun p _ => ?_
  rw [Place.sites, List.map_map]
  exact map_node_visits_perm p.expr

/-- The scope at a site of the body of a function. -/
def FuncInfo.scopeAt (info : FuncInfo) (f : FuncId) (site : Site) : Scope :=
  info.scopeIn f site.enclosing

/-- **A name at a site is bound by the first visible binder that has it.** -/
theorem lookup_scopeAt (site : Site) (name : String) :
    (info.scopeAt f site).lookup name =
      (firstBinder? info.decl site.enclosing name).map fun b => ⟨b.referent f, b.type⟩ :=
  lookup_scopeIn site.enclosing name

namespace SymbolTable

variable {table : SymbolTable}

/-- What is found at a site of the body of a function. -/
def findingsAt (table : SymbolTable) (info : FuncInfo) (f : FuncId) (site : Site) : List Finding :=
  site.visit.findings table (info.scopeAt f site)

/-- **A function body finds what is found at its sites**, in their order. -/
theorem findings_eq_flatMap_sites (hf : table.funcs[f]? = some info) :
    table.findings f =
      (Stmt.sites info.decl.statements).flatMap (table.findingsAt info f) := by
  have hscopes : table.scopedExprs f =
      (Stmt.placesList [] [] info.decl.statements).map fun p =>
        (info.scopeIn f p.enclosing, p.expr) := by
    rw [scopedExprs, hf, ← scopedExprsList_eq_map_placesList, scopeIn_cons_nil, scopeIn_nil]
  rw [findings, hscopes, List.flatMap_map, Stmt.sites, List.flatMap_assoc]
  refine List.flatMap_congr fun p _ => ?_
  rw [Place.sites, List.flatMap_map]
  exact findings_read p.expr

end SymbolTable

end MemberRefs
