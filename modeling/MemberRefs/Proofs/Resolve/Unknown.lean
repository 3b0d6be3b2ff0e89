import MemberRefs.Proofs.Resolve.Definite
import MemberRefs.Proofs.Resolve.Emptied
import MemberRefs.Proofs.Table.Lookup

/-!
# When a type becomes unknown

A part of a function body may be replaced by a name that is declared nowhere, so that its type is lost. The
names and operators around it then fail, or they mean what they meant before, as long as no step between the
part and them guesses. With a guess they may mean another member.

* `ExprContext.type_fill`: without a guess, a type that is known all the same is the one that it is with
  every other part.
* `ExprContext.foundAgain_outer`: without a guess, what is found around the part is found with every other
  part.
* `found_before_unknown`: what is found around an unknown part of a function body was found there before.
* `guess_misleads`: the choice among overloads and the builtin operators do guess.
-/

namespace MemberRefs

variable {table : SymbolTable} {scope : Scope}

/-! ## 1. Around an open part -/

/-- An expression whose type is unknown, also where it is called. -/
structure Expr.OfUnknownType (table : SymbolTable) (scope : Scope) (x : Expr) : Prop where
  alone : (x.read table scope).type = none
  called : ∀ call, (table.readCallee scope x call).type = none

theorem fst_readArgs_append (es fs : List Expr) :
    (Expr.readArgs table scope (es ++ fs)).1 =
      (Expr.readArgs table scope es).1 ++ (Expr.readArgs table scope fs).1 := by
  induction es with
  | nil => rfl
  | cons e es ih => simp [Expr.readArgs, ih]

/-- The type of an operator in front of an operand is decided by the type of the operand. -/
theorem type_read_unary (span : Span) (op : SpannedName) (operand : Expr) :
    ((Expr.unary span op operand).read table scope).type =
      (operand.read table scope).type.bind fun type =>
        match table.readOperator? op type ⟨⟨span, []⟩, []⟩ with
        | some r => r.type
        | none => builtinUnaryType op.val type := by
  rw [Expr.read]
  cases htype : (operand.read table scope).type with
  | none => simp [htype]
  | some type =>
    simp only [Option.bind_some]
    cases table.readOperator? op type ⟨⟨span, []⟩, []⟩ <;> rfl

/-- What is reached from an object of unknown type has no type known either. -/
theorem type_readAccess {form form' : Access} {base base' : Option Ty} (h : base = none ∨ base = base')
    (op : AccessOp) (name : SpannedName) (call : Option Call) :
    (table.readAccess form base op name call).type = none ∨
      (table.readAccess form base op name call).type =
        (table.readAccess form' base' op name call).type := by
  rcases h with rfl | rfl
  · exact .inl rfl
  · cases base with
    | none => exact .inl rfl
    | some type =>
      simp only [SymbolTable.readAccess]
      cases objectType type op <;>
        cases table.resolveAccess type op name.val (call.map Call.args) <;> exact .inr rfl

namespace ExprContext

variable {x : Expr}

/-- **The name of what is called** is read in the same way as with any other argument, when the call is
    definite. -/
theorem callee_confirmedBy {span : Span} {called : Expr} {before after : List Expr}
    {inner : ExprContext} {e : Expr}
    (hstep : inner.typeWith table scope x = none →
      Definite (table.argStep scope span called before (inner.fill x) after))
    (htypes : inner.typeWith table scope x = none ∨
      inner.typeWith table scope x = inner.typeWith table scope e) :
    (table.readCallee scope called ⟨⟨span, (before ++ inner.fill x :: after).map Expr.span⟩,
        (Expr.readArgs table scope (before ++ inner.fill x :: after)).1⟩).ConfirmedBy
      (table.readCallee scope called ⟨⟨span, (before ++ inner.fill e :: after).map Expr.span⟩,
        (Expr.readArgs table scope (before ++ inner.fill e :: after)).1⟩) := by
  rw [fst_readArgs_append, fst_readArgs_append]
  exact (Definite.confirmedBy hstep htypes).trans (table.readCallee_site called _ _ _)

/-- **An operator with the open part on its left** is read in the same way as with any other left operand,
    when it is definite. -/
theorem left_confirmedBy {span : Span} {op : SpannedName} {rhs : Expr} {inner : ExprContext} {e : Expr}
    (hstep : inner.typeWith table scope x = none →
      Definite fun type => table.readBinary op ⟨span, [rhs.span]⟩ type (rhs.read table scope).type)
    (htypes : inner.typeWith table scope x = none ∨
      inner.typeWith table scope x = inner.typeWith table scope e) :
    (table.readBinary op ⟨span, [rhs.span]⟩ ((inner.fill x).read table scope).type
        (rhs.read table scope).type).ConfirmedBy
      (table.readBinary op ⟨span, [rhs.span]⟩ ((inner.fill e).read table scope).type
        (rhs.read table scope).type) :=
  Definite.confirmedBy hstep htypes

/-- **An operator with the open part on its right** is read in the same way as with any other right operand,
    when it is definite. -/
theorem right_confirmedBy {span : Span} {op : SpannedName} {lhs : Expr} {inner : ExprContext} {e : Expr}
    (hstep : inner.typeWith table scope x = none →
      Definite fun type => table.readBinary op ⟨span, [(inner.fill x).span]⟩
        (lhs.read table scope).type type)
    (htypes : inner.typeWith table scope x = none ∨
      inner.typeWith table scope x = inner.typeWith table scope e) :
    (table.readBinary op ⟨span, [(inner.fill x).span]⟩ (lhs.read table scope).type
        ((inner.fill x).read table scope).type).ConfirmedBy
      (table.readBinary op ⟨span, [(inner.fill e).span]⟩ (lhs.read table scope).type
        ((inner.fill e).read table scope).type) :=
  (Definite.confirmedBy hstep htypes).trans (table.readBinary_site op _ _ _ _)

/-- **A type that is known although that of the open part is not is the type that it is for every other
    part**, when no guess is made; the same goes for what is called. -/
theorem type_fill (hx : x.OfUnknownType table scope) (e : Expr) : ∀ ctx : ExprContext,
    ctx.DefiniteWith table scope x →
      (ctx.typeWith table scope x = none ∨ ctx.typeWith table scope x = ctx.typeWith table scope e) ∧
      ∀ call, (table.readCallee scope (ctx.fill x) call).type = none ∨
        (table.readCallee scope (ctx.fill x) call).type =
          (table.readCallee scope (ctx.fill e) call).type
  | .hole, _ => ⟨.inl hx.alone, fun call => .inl (hx.called call)⟩
  | .member span inner op name, h => by
      have ih := (type_fill hx e inner h).1
      exact ⟨type_readAccess ih op name none, fun call => type_readAccess ih op name (some call)⟩
  | .callee span inner args, h => by
      refine ⟨?_, fun _ => .inl rfl⟩
      have ih := (type_fill hx e inner h).2
      simp only [typeWith, fill, SymbolTable.type_read_call]
      exact ih _
  | .arg span called before inner after, h => by
      refine ⟨?_, fun _ => .inl rfl⟩
      have ih := (type_fill hx e inner h.1).1
      simp only [typeWith, fill, SymbolTable.type_read_call]
      exact (callee_confirmedBy h.2 ih).type
  | .operand span op inner, h => by
      refine ⟨?_, fun _ => .inl rfl⟩
      have ih := (type_fill hx e inner h).1
      simp only [typeWith, fill, type_read_unary] at ih ⊢
      rcases ih with ih | ih
      · exact .inl (by rw [ih, Option.bind_none])
      · exact .inr (by rw [ih])
  | .left span inner op rhs, h => by
      refine ⟨?_, fun _ => .inl rfl⟩
      have ih := (type_fill hx e inner h.1).1
      simp only [typeWith, fill, SymbolTable.type_read_binary]
      exact (left_confirmedBy h.2 ih).type
  | .right span lhs op inner, h => by
      refine ⟨?_, fun _ => .inl rfl⟩
      have ih := (type_fill hx e inner h.1).1
      simp only [typeWith, fill, SymbolTable.type_read_binary]
      exact (right_confirmedBy h.2 ih).type

/-! ## 2. Outer visits -/

theorem foundAgain_aside {vs : List Visit} {n : Outer} (hn : n ∈ vs.map Outer.aside) (e : Expr) :
    FoundAgain ((n.visit x).findings table scope) ((n.visit e).findings table scope) := by
  obtain ⟨v, _, rfl⟩ := List.mem_map.mp hn
  exact .refl _

/-- The form of an access is that with any other part, unless the object itself is open. -/
theorem accessForm_fill {inner : ExprContext} (hne : inner ≠ .hole) (e : Expr) (op : AccessOp) :
    SymbolTable.accessForm (inner.fill x) op = SymbolTable.accessForm (inner.fill e) op := by
  cases inner with
  | hole => exact absurd rfl hne
  | _ => cases op <;> rfl

/-- A name behind `.` or `->` is found again when its object has a type. -/
theorem foundAgain_member (hx : x.OfUnknownType table scope) {inner : ExprContext} {e : Expr}
    (htypes : inner.typeWith table scope x = none ∨
      inner.typeWith table scope x = inner.typeWith table scope e)
    (span : Span) (op : AccessOp) (name : SpannedName) (call : Option (Span × List Expr)) :
    FoundAgain (Visit.findings table scope ⟨.member span (inner.fill x) op name, call⟩)
      (Visit.findings table scope ⟨.member span (inner.fill e) op name, call⟩) := by
  by_cases hnone : inner.typeWith table scope x = none
  · have hbase : ((inner.fill x).read table scope).type = none := hnone
    simp only [Visit.findings, hbase, SymbolTable.readAccess]
    exact foundAgain_fail _ _ _
  · -- the object is not the open part itself, so the form of the access is the same
    have hne : inner ≠ .hole := by
      rintro rfl
      exact hnone hx.alone
    have hsame : ((inner.fill x).read table scope).type = ((inner.fill e).read table scope).type :=
      htypes.resolve_left hnone
    simp only [Visit.findings, hsame, accessForm_fill hne e]
    exact .refl _

/-- An operator in front of an operand is found again when the operand has a type. -/
theorem foundAgain_unary {inner : ExprContext} {e : Expr}
    (htypes : inner.typeWith table scope x = none ∨
      inner.typeWith table scope x = inner.typeWith table scope e)
    (span : Span) (op : SpannedName) (call : Option (Span × List Expr)) :
    FoundAgain (Visit.findings table scope ⟨.unary span op (inner.fill x), call⟩)
      (Visit.findings table scope ⟨.unary span op (inner.fill e), call⟩) := by
  unfold typeWith at htypes
  simp only [Visit.findings, Visit.operatorFindings]
  rcases htypes with hnone | hsame
  · simp only [hnone, Option.bind_none]
    exact foundAgain_nil _
  · rw [hsame]
    exact .refl _

/-- **What is found outside of the open part is found there with every other part**, when no guess is made
    on the way. -/
theorem foundAgain_outer (hx : x.OfUnknownType table scope) (e : Expr) {n : Outer} :
    ∀ {ctx : ExprContext} {call : Option (Span × List Expr)}, n ∈ ctx.outer call →
      n.around.DefiniteWith table scope x →
        FoundAgain ((n.visit x).findings table scope) ((n.visit e).findings table scope)
  | .hole, _, hn, _ => absurd hn List.not_mem_nil
  | .member span inner op name, call, hn, h => by
      simp only [outer, List.mem_append, List.mem_singleton] at hn
      rcases hn with hn | rfl
      · exact foundAgain_outer hx e hn h
      · exact foundAgain_member hx (type_fill hx e inner h).1 span op name call
  | .callee span inner args, _, hn, h => by
      simp only [outer, List.mem_append, List.mem_singleton] at hn
      rcases hn with (hn | hn) | rfl
      · exact foundAgain_outer hx e hn h
      · exact foundAgain_aside hn e
      · exact foundAgain_nil _
  | .arg span called before inner after, _, hn, h => by
      simp only [outer, List.mem_append, List.mem_singleton] at hn
      rcases hn with ((((hn | rfl) | hn) | hn) | hn) | rfl
      · exact foundAgain_aside hn e
      · cases hname : called.isName with
        | false => exact .refl _
        | true =>
          have ih := (type_fill hx e inner h.1).1
          simp only [if_true, SymbolTable.findings_callee hname]
          exact (callee_confirmedBy h.2 ih).found
      · exact foundAgain_aside hn e
      · exact foundAgain_outer hx e hn h
      · exact foundAgain_aside hn e
      · exact foundAgain_nil _
  | .operand span op inner, _, hn, h => by
      simp only [outer, List.mem_append, List.mem_singleton] at hn
      rcases hn with hn | rfl
      · exact foundAgain_outer hx e hn h
      · exact foundAgain_unary (type_fill hx e inner h).1 span op none
  | .left span inner op rhs, _, hn, h => by
      simp only [outer, List.mem_append, List.mem_singleton] at hn
      rcases hn with (hn | hn) | rfl
      · exact foundAgain_outer hx e hn h
      · exact foundAgain_aside hn e
      · have ih := (type_fill hx e inner h.1).1
        simp only [SymbolTable.findings_binary]
        exact (left_confirmedBy h.2 ih).found
  | .right span lhs op inner, _, hn, h => by
      simp only [outer, List.mem_append, List.mem_singleton] at hn
      rcases hn with (hn | hn) | rfl
      · exact foundAgain_aside hn e
      · exact foundAgain_outer hx e hn h
      · have ih := (type_fill hx e inner h.1).1
        simp only [SymbolTable.findings_binary]
        exact (right_confirmedBy h.2 ih).found

end ExprContext

/-! ## 3. Function bodies -/

namespace SymbolTable

/-- A name that is declared nowhere: no variable that can be seen has it, and no member of any class. -/
structure Undeclared (table : SymbolTable) (scope : Scope) (name : String) : Prop where
  unbound : scope.lookup name = none
  noMember : ∀ info ∈ table.members, info.name ≠ name

/-- A name that is declared nowhere means nothing, alone or called. -/
theorem Undeclared.type_readIdent {name : SpannedName} (h : table.Undeclared scope name.val)
    (hw : table.WellFormed) (call : Option Call) :
    (table.readIdent scope name call).type = none := by
  have hfails : ∃ reason, table.resolveBare scope name.val (call.map Call.args) = .error reason := by
    unfold resolveBare
    rw [h.unbound]
    cases scope.owner with
    | none => exact ⟨_, rfl⟩
    | some c =>
      dsimp only
      cases hms : table.lookupMember c name.val with
      | error reason => cases reason <;> exact ⟨_, rfl⟩
      | ok ms =>
        -- no class has a member of the name, so there is none to choose from
        obtain rfl : ms = [] := by
          refine List.eq_nil_iff_forall_not_mem.mpr fun m hm => ?_
          obtain ⟨info, hinfo, hname, _⟩ := of_mem_lookupMember hw hms hm
          exact h.noMember info (List.mem_of_getElem? hinfo) hname
        cases call <;> exact ⟨_, rfl⟩
  obtain ⟨reason, hreason⟩ := hfails
  rw [readIdent, hreason]
  rfl

/-- The walk over a function body is that over a body with an open part, filled in. -/
structure WalksOver (table : SymbolTable) (f : FuncId) (scope : Scope) (ctx : BodyContext) (x : Expr) :
    Prop where
  resolve : table.resolve f =
    .ofFindings f ((table.scopedVisits f).flatMap fun (s, v) => v.findings table s)
  visits : (table.scopedVisits f).Perm
    (ctx.inside scope x ++ (ctx.outer scope).map fun (s, n) => (s, n.visit x))

theorem walksOver {f : FuncId} {info : FuncInfo} (hf : table.funcs[f]? = some info)
    {ctx : BodyContext} {x : Expr} (hbody : ctx.fill x = info.decl.statements) :
    table.WalksOver f (info.scope f) ctx x where
  resolve := by rw [resolve, findings_eq_flatMap_visits]
  visits := by
    rw [scopedVisits, scopedExprs, hf]
    dsimp only
    rw [← hbody]
    exact ctx.visits_fill_perm _ x

/-- **A type that becomes unknown misleads no name where no guess is made.** Every part of a function body
    may be replaced by a name that is declared nowhere: the unit still has a table, and the walk over the
    body pays the same visits around the part. What is found at one of these was found there before, with
    the same referent and in the same form, when every step between the part and the visit is definite. -/
theorem found_before_unknown {unit : SourceUnit} {options : Options} {f : FuncId} {info : FuncInfo}
    (h : build unit options = .ok table) (hf : table.funcs[f]? = some info) :
    (∀ part ∈ Stmt.exprsWithin info.decl.statements,
      ∃ ctx : BodyContext, ctx.fill part = info.decl.statements) ∧
    ∃ path, unit.bodySites[f]? = some (path, info.decl) ∧
      ∀ (ctx : BodyContext) (part : Expr) (span : Span) (name : SpannedName),
        ctx.fill part = info.decl.statements →
        table.Undeclared (ctx.block.scope (info.scope f)) name.val →
        ∃ table', build (unit.withBody path (ctx.fill (.ident span name))) options = .ok table' ∧
          table.WalksOver f (info.scope f) ctx part ∧
          table'.WalksOver f (info.scope f) ctx (.ident span name) ∧
          ∀ s n, (s, n) ∈ ctx.outer (info.scope f) →
            n.around.DefiniteWith table' s (.ident span name) →
              FoundAgain ((n.visit (.ident span name)).findings table' s)
                ((n.visit part).findings table s) := by
  obtain ⟨path, hpath, hbuild⟩ := exists_of_withBody h hf
  refine ⟨fun part hpart => BodyContext.exists_fill hpart, path, hpath,
    fun ctx part span name hfill hname => ?_⟩
  have hsize : Stmt.nodeCounts (ctx.fill (.ident span name)) ≤
      Stmt.nodeCounts info.decl.statements := by
    have hle : (Expr.ident span name).nodeCount ≤ part.nodeCount := part.nodeCount_pos
    rw [← hfill]
    exact ctx.nodeCounts_fill_le hle
  obtain ⟨table', h', hemptied, hf'⟩ := hbuild _ hsize
  refine ⟨table', h', walksOver hf hfill, walksOver hf' rfl, fun s n hn hdefinite => ?_⟩
  -- the tables are equal up to bodies, so the first one may be read in place of the second
  have hfindings : ∀ v : Visit, v.findings table s = v.findings table' s := fun v => by
    rw [← findings_emptied, ← hemptied, findings_emptied]
  rw [hfindings]
  rcases List.mem_append.mp hn with hn | hn
  · obtain ⟨n, hn, heq⟩ := List.mem_map.mp hn
    cases heq
    have hread : ∀ call, (table'.readIdent (ctx.block.scope (info.scope f)) name call).type = none :=
      fun call => by
        rw [← readIdent_emptied, hemptied, readIdent_emptied]
        exact hname.type_readIdent (wellFormed_of_build h) call
    have hx : (Expr.ident span name).OfUnknownType table' (ctx.block.scope (info.scope f)) :=
      ⟨hread none, fun call => hread (some call)⟩
    exact ExprContext.foundAgain_outer hx part hn hdefinite
  · -- other expressions do not see the part
    obtain ⟨⟨_, e⟩, _, hv⟩ := List.mem_flatMap.mp hn
    obtain ⟨v, _, heq⟩ := List.mem_map.mp hv
    cases heq
    exact .refl _

/-! ## 4. A guess that is not made, and two that are -/

/-- A part of the first function body of a unit, replaced by a name that is declared nowhere, with the
    tables of the unit before and after. -/
structure Replaced (unit : SourceUnit) (ctx : BodyContext) (part : Expr) (name : SpannedName)
    (table table' : SymbolTable) (info : FuncInfo) : Prop where
  before : build unit {} = .ok table
  func : table.funcs[0]? = some info
  fill : ctx.fill part = info.decl.statements
  undeclared : table.Undeclared (ctx.block.scope (info.scope 0)) name.val
  after : ∃ path, unit.bodySites[0]? = some (path, info.decl) ∧
    build (unit.withBody path (ctx.fill (.ident Span.atStart name))) {} = .ok table'

/-- A parameter without a place. -/
def bareParam (name : String) (type : Ty) : Param := ⟨some (bareName name), type, false, Span.atStart⟩

/-- A name without a place, as an expression. -/
def bareIdent (name : String) : Expr := .ident Span.atStart (bareName name)

/-- The statement `box.next(□)->size;`. -/
def nextSize : BodyContext where
  before := []
  stmt := .expr (.member Span.atStart
    (.arg Span.atStart (.member Span.atStart (bareIdent "box") .dot (bareName "next")) [] .hole [])
    .arrow (bareName "size"))
  after := []

/-- A class with one method `next`, and a function `box.next(count)->size;`. -/
def boxUnit : SourceUnit :=
  bareUnit [
    .ofClass { bareClass "Box" [] ["size"] with
      members := (bareClass "Box" [] ["size"]).members ++
        [.method { bareFunc "next" [.named "int"] none with result := some (.pointer (.named "Box")) }] },
    .ofFunc { bareFunc "read" [] (some (nextSize.fill (bareIdent "count"))) with
      params := [bareParam "box" (.named "Box"), bareParam "count" (.named "int")] }]

/-- The visit of `size`, with the whole statement below it. -/
def sizeVisit : Outer where
  around := nextSize.stmt.whole
  visit x := ⟨nextSize.stmt.whole.fill x, none⟩

theorem found_boxUnit : ∃ table table' info o,
    Replaced boxUnit nextSize (bareIdent "count") (bareName "missing") table table' info ∧
    (nextSize.block.scope (info.scope 0), sizeVisit) ∈ nextSize.outer (info.scope 0) ∧
    sizeVisit.around.DefiniteWith table' (nextSize.block.scope (info.scope 0)) (bareIdent "missing") ∧
    .found o ∈ (sizeVisit.visit (bareIdent "missing")).findings table'
      (nextSize.block.scope (info.scope 0)) ∧ o.referent = .member 0 ∧
    ∃ o', .found o' ∈ (sizeVisit.visit (bareIdent "count")).findings table
      (nextSize.block.scope (info.scope 0)) ∧ o.SameAs o' := by
  have hreplaced : ∃ table table' info o,
      Replaced boxUnit nextSize (bareIdent "count") (bareName "missing") table table' info ∧
      sizeVisit.around.DefiniteWith table' (nextSize.block.scope (info.scope 0)) (bareIdent "missing") ∧
      .found o ∈ (sizeVisit.visit (bareIdent "missing")).findings table'
        (nextSize.block.scope (info.scope 0)) ∧ o.referent = .member 0 :=
    ⟨_, _, _, _, ⟨rfl, rfl, rfl, ⟨rfl, by decide⟩, .top 1, rfl, rfl⟩,
      ⟨trivial, fun _ _ => .refl _⟩, List.mem_cons_self, rfl⟩
  obtain ⟨table, table', info, o, hr, hdefinite, ho, hreferent⟩ := hreplaced
  have hn : (nextSize.block.scope (info.scope 0), sizeVisit) ∈ nextSize.outer (info.scope 0) :=
    List.mem_cons_of_mem _ (List.mem_cons_of_mem _ (List.mem_cons_of_mem _ List.mem_cons_self))
  obtain ⟨_, path, hpath, hall⟩ := found_before_unknown hr.before hr.func
  obtain ⟨path', hpath', hafter⟩ := hr.after
  obtain ⟨rfl, _⟩ := Prod.mk.inj (Option.some.inj (hpath'.symm.trans hpath))
  obtain ⟨_, hbuild, _, _, hfound⟩ := hall nextSize _ Span.atStart _ hr.fill hr.undeclared
  cases hafter.symm.trans hbuild
  exact ⟨table, table', info, o, hr, hn, hdefinite, ho, hreferent, hfound _ _ hn hdefinite o ho⟩

/-- **Replacing a part by a name misleads** when a name or an operator around the part then refers to
    something else. -/
def Misleads (unit : SourceUnit) (ctx : BodyContext) (part : Expr) (name : SpannedName) : Prop :=
  ∃ table table' info, Replaced unit ctx part name table table' info ∧
    ∃ s n, (s, n) ∈ ctx.outer (info.scope 0) ∧
      ∃ o o', .found o ∈ (n.visit part).findings table s ∧
        .found o' ∈ (n.visit (.ident Span.atStart name)).findings table' s ∧
        o.span = o'.span ∧ o.referent ≠ o'.referent

/-- The statement `sink.put(□, 1);`. -/
def sinkCall : BodyContext where
  before := []
  stmt := .expr (.arg Span.atStart (.member Span.atStart (bareIdent "sink") .dot (bareName "put")) []
    .hole [.literal Span.atStart (.named "int")])
  after := []

/-- A class with `put(int, int) const` and `put(char, int)`, and a function `sink.put(count, 1);`. -/
def sinkUnit : SourceUnit :=
  bareUnit [
    .ofClass { bareClass "Sink" [] [] with
      members := [.method { bareFunc "put" [.named "int", .named "int"] none with isConst := true },
        .method (bareFunc "put" [.named "char", .named "int"] none)] },
    .ofFunc { bareFunc "write" [] (some (sinkCall.fill (bareIdent "count"))) with
      params := [bareParam "sink" (.named "Sink"), bareParam "count" (.named "int")] }]

/-- The statement `(□ + leaf)->id;`. -/
def sumAccess : BodyContext where
  before := []
  stmt := .expr (.member Span.atStart (.left Span.atStart .hole (bareName "+") (bareIdent "leaf"))
    .arrow (bareName "id"))
  after := []

/-- Two classes with a field `id`, one whose `+` takes a pointer to the second class and gives one to the
    first class, and a function `(cursor + leaf)->id;`. -/
def sumUnit : SourceUnit :=
  bareUnit [.ofClass (bareClass "Node" [] ["id"]), .ofClass (bareClass "Leaf" [] ["id"]),
    .ofClass { bareClass "Cursor" [] [] with
      members := [.method { bareFunc "operator+" [.pointer (.named "Leaf")] none with
        result := some (.pointer (.named "Node")) }] },
    .ofFunc { bareFunc "read" [] (some (sumAccess.fill (bareIdent "cursor"))) with
      params := [bareParam "cursor" (.named "Cursor"), bareParam "leaf" (.pointer (.named "Leaf"))] }]

/-- **A guess misleads.** The known argument fits another overload as well and constness decides, and the
    builtin operator takes the type of the other operand. -/
theorem guess_misleads :
    Misleads sinkUnit sinkCall (bareIdent "count") (bareName "missing") ∧
    Misleads sumUnit sumAccess (bareIdent "cursor") (bareName "missing") := by
  constructor
  · exact ⟨_, _, _, ⟨rfl, rfl, rfl, ⟨rfl, by decide⟩, .top 1, rfl, rfl⟩,
      _, _, List.mem_cons_of_mem _ List.mem_cons_self,
      _, _, List.mem_cons_self, List.mem_cons_self, rfl, by decide⟩
  · exact ⟨_, _, _, ⟨rfl, rfl, rfl, ⟨rfl, by decide⟩, .top 3, rfl, rfl⟩,
      _, _, List.mem_cons_of_mem _ (List.mem_cons_of_mem _ List.mem_cons_self),
      _, _, List.mem_cons_self, List.mem_cons_self, rfl, by decide⟩

end SymbolTable

end MemberRefs
