import MemberRefs.Proofs.Reorder.Renumbered
import MemberRefs.Proofs.Resolve.Visit
import MemberRefs.References

/-!
# Resolving under new numbers

What a function body refers to and what refers to a member is found by looking names up. Under new numbers
every step finds the same things and fails for the same reasons, so the results have the new numbers and
are otherwise the same.

* `Renumbered.resolveBare`, `Renumbered.resolveAccess`, `Renumbered.resolveQualified`,
  `Renumbered.resolveOperator`: single names, by the form in which they are written.
* `Renumbered.read`: whole expressions.
* `Renumbered.resolve`, `Renumbered.memberReferences`: function bodies and references to members.
-/

namespace MemberRefs

/-! ## 1. Results with new numbers -/

section Results

variable (r : Renumbering)

/-- What a name refers to under new numbers. Local variables have no numbers. -/
def Referent.renumber : Referent → Referent
  | .member m => .member (r.members m)
  | .param f index => .param (r.funcs f) index
  | .variable name => .variable name

/-- A variable with the new number of its function. -/
def Binding.renumber (b : Binding) : Binding := ⟨b.referent.renumber r, b.type⟩

/-- The names visible at some point, under new numbers. -/
def Scope.renumber (scope : Scope) : Scope where
  func := r.funcs scope.func
  owner := scope.owner.map r.classes
  isConst := scope.isConst
  isStatic := scope.isStatic
  bindings := scope.bindings.map (Prod.map id (Binding.renumber r))

/-- An occurrence with the new number of what it refers to. -/
def Occurrence.renumber (o : Occurrence) : Occurrence := { o with referent := o.referent.renumber r }

/-- A finding under new numbers. Failures have no numbers. -/
def Finding.renumber : Finding → Finding
  | .found o => .found (o.renumber r)
  | .missing reason => .missing reason

/-- What reading an expression gives under new numbers. -/
def Reading.renumber (reading : Reading) : Reading :=
  ⟨reading.type, reading.findings.map (Finding.renumber r)⟩

/-- The names of a function body under new numbers. -/
def Resolution.renumber (resolution : Resolution) : Resolution where
  func := r.funcs resolution.func
  occurrences := resolution.occurrences.map (Occurrence.renumber r)
  unresolved := resolution.unresolved

/-- A reference with the new number of the function it is in. -/
def Reference.renumber (reference : Reference) : Reference :=
  { reference with func := r.funcs reference.func }

end Results

variable {r : Renumbering} {table table' : SymbolTable}

theorem Referent.renumber_injective (r : Renumbering) : (Referent.renumber r).Injective := by
  intro a b heq
  cases a <;> cases b <;> simp_all [Referent.renumber]

/-! ## 2. Scopes -/

/-- What is looked up among changed values is the value that was there, changed. -/
theorem lookup_map_snd {α β : Type} (change : α → β) (name : String) (entries : List (String × α)) :
    (entries.map (Prod.map id change)).lookup name = (entries.lookup name).map change := by
  induction entries with
  | nil => rfl
  | cons entry entries ih =>
    rw [List.map_cons, Prod.map, List.lookup_cons, List.lookup_cons, ih]
    cases hname : name == entry.1 <;> simp [hname]

namespace Scope

theorem lookup_renumber (scope : Scope) (name : String) :
    (scope.renumber r).lookup name = (scope.lookup name).map (Binding.renumber r) :=
  lookup_map_snd (Binding.renumber r) name scope.bindings

theorem renumber_bind (scope : Scope) (d : LocalDecl) :
    (scope.bind d).renumber r = (scope.renumber r).bind d := rfl

theorem renumber_after (scope : Scope) (s : Stmt) :
    (scope.after s).renumber r = (scope.renumber r).after s := by
  cases s <;> rfl

end Scope

theorem FuncInfo.scope_renumber (info : FuncInfo) (f : FuncId) :
    (info.renumber r).scope (r.funcs f) = (info.scope f).renumber r := by
  have hbindings : info.decl.paramBindings (r.funcs f) =
      (info.decl.paramBindings f).map (Prod.map id (Binding.renumber r)) := by
    unfold FuncDecl.paramBindings
    rw [List.map_reverse, List.map_filterMap]
    simp only [Option.map_map]
    rfl
  have howner : (info.renumber r).owner.map Prod.fst = (info.owner.map Prod.fst).map r.classes := by
    rw [FuncInfo.renumber, Option.map_map, Option.map_map]
    rfl
  unfold FuncInfo.scope Scope.renumber
  rw [howner]
  congr 1

mutual

/-- A statement is read in the same scopes. -/
theorem Stmt.scopedExprs_renumber (scope : Scope) : ∀ s : Stmt,
    s.scopedExprs (scope.renumber r) = (s.scopedExprs scope).map (Prod.map (Scope.renumber r) id)
  | .decl d => by
      simp [Stmt.scopedExprs, Scope.renumber_bind, Function.comp_def]
  | .expr _ => rfl
  | .ret value => by
      simp [Stmt.scopedExprs, Function.comp_def]
  | .block body => Stmt.scopedExprsList_renumber scope body
  | .ifThen cond onTrue => by
      simp [Stmt.scopedExprs, Stmt.scopedExprs_renumber scope onTrue]
  | .ifElse cond onTrue onFalse => by
      simp [Stmt.scopedExprs, Stmt.scopedExprs_renumber scope onTrue,
        Stmt.scopedExprs_renumber scope onFalse]
  | .loop cond body => by
      simp [Stmt.scopedExprs, Stmt.scopedExprs_renumber scope body]

theorem Stmt.scopedExprsList_renumber (scope : Scope) : ∀ ss : List Stmt,
    Stmt.scopedExprsList (scope.renumber r) ss =
      (Stmt.scopedExprsList scope ss).map (Prod.map (Scope.renumber r) id)
  | [] => rfl
  | s :: ss => by
      rw [Stmt.scopedExprsList, Stmt.scopedExprsList, Stmt.scopedExprs_renumber scope s,
        ← Scope.renumber_after, Stmt.scopedExprsList_renumber (scope.after s) ss, List.map_append]

end

namespace Renumbered

/-! ## 3. Single names -/

theorem thisType? (h : Renumbered r table table') (scope : Scope) :
    table'.thisType? (scope.renumber r) = table.thisType? scope := by
  unfold SymbolTable.thisType? Scope.renumber
  simp only [Option.map_map, Function.comp_def, h.className]

theorem memberType? (h : Renumbered r table table') (m : MemberId) (called objectConst : Bool) :
    table'.memberType? (r.members m) called objectConst = table.memberType? m called objectConst := by
  refine h.bind_members (fun info info' hdecl => ?_) m
  have htype : info'.type? = info.type? := by
    unfold MemberInfo.type?
    rw [hdecl]
  have hstatic : info'.isStatic = info.isStatic := by
    rw [MemberInfo.isStatic, hdecl, MemberInfo.isStatic]
  rw [htype, hstatic]

theorem classOf (h : Renumbered r table table') (type : Ty) :
    table'.classOf type = (table.classOf type).map r.classes := by
  have hnamed : type.name?.bind table'.classNamed? =
      (type.name?.bind table.classNamed?).map r.classes := by
    rw [Option.map_bind, funext h.named]
    rfl
  unfold SymbolTable.classOf
  rw [hnamed]
  cases type.name?.bind table.classNamed? <;> rfl

/-- **A bare name** means the same. -/
theorem resolveBare (h : Renumbered r table table') (scope : Scope) (name : String)
    (args : Option ArgTypes) : table'.resolveBare (scope.renumber r) name args =
      (table.resolveBare scope name args).map (Referent.renumber r) := by
  have howner : (scope.renumber r).owner = scope.owner.map r.classes := rfl
  have hconst : (scope.renumber r).isConst = scope.isConst := rfl
  unfold SymbolTable.resolveBare
  rw [Scope.lookup_renumber, howner, hconst]
  cases scope.lookup name with
  | some b => rfl
  | none =>
    cases scope.owner with
    | none => rfl
    | some c =>
      dsimp only [Option.map_none, Option.map_some]
      rw [h.lookupMember]
      match table.lookupMember c name with
      | .ok candidates =>
        dsimp only [Except.map]
        rw [h.selectOverload]
        cases table.selectOverload name candidates args scope.isConst <;> rfl
      | .error reason => cases reason <;> rfl

/-- **A name behind `.` or `->`** means the same. -/
theorem resolveAccess (h : Renumbered r table table') (type : Ty) (op : AccessOp) (name : String)
    (args : Option ArgTypes) : table'.resolveAccess type op name args =
      (table.resolveAccess type op name args).map r.members := by
  unfold SymbolTable.resolveAccess
  cases objectType type op with
  | error reason => rfl
  | ok object =>
    dsimp only [bind, Except.bind]
    rw [h.classOf]
    cases table.classOf object with
    | error reason => rfl
    | ok c =>
      dsimp only [Except.map]
      rw [h.lookupMember]
      cases table.lookupMember c name with
      | error reason => rfl
      | ok candidates => exact h.selectOverload name candidates args object.isConst

/-- **A qualified name** means the same. -/
theorem resolveQualified (h : Renumbered r table table') (scope : Scope) (owner name : String)
    (args : Option ArgTypes) : table'.resolveQualified (scope.renumber r) owner name args =
      (table.resolveQualified scope owner name args).map r.members := by
  have hderives : ∀ c, ((scope.renumber r).owner.any fun own => table'.derivesFrom own (r.classes c)) =
      scope.owner.any fun own => table.derivesFrom own c := by
    intro c
    have howner : (scope.renumber r).owner = scope.owner.map r.classes := rfl
    rw [howner, Option.any_map]
    simp only [h.derivesFrom]
  have hconst : (scope.renumber r).isConst = scope.isConst := rfl
  unfold SymbolTable.resolveQualified
  rw [h.named]
  cases table.classNamed? owner with
  | none => rfl
  | some c =>
    dsimp only [Option.map_some, bind, Except.bind]
    rw [h.lookupMember]
    cases table.lookupMember c name with
    | error reason => rfl
    | ok candidates =>
      dsimp only [Except.map]
      rw [hderives, hconst]
      exact h.selectOverload name candidates args _

/-- **An operator** means the same. -/
theorem resolveOperator (h : Renumbered r table table') (operand : Ty) (op : String)
    (args : ArgTypes) : table'.resolveOperator operand op args =
      (table.resolveOperator operand op args).map r.members := by
  unfold SymbolTable.resolveOperator
  rw [h.classOf]
  cases table.classOf operand.decay with
  | error reason => rfl
  | ok c =>
    dsimp only [bind, Except.bind, Except.map]
    rw [h.lookupMember]
    cases table.lookupMember c (Name.ofOperator op) with
    | error reason => rfl
    | ok candidates =>
      dsimp only [Except.map]
      rw [List.filter_map]
      simp only [Function.comp_def, h.method?]
      exact h.selectOverload _ _ (some args) _

/-! ## 4. Expressions -/

theorem readIdent (h : Renumbered r table table') (scope : Scope) (name : SpannedName)
    (call : Option Call) : table'.readIdent (scope.renumber r) name call =
      (table.readIdent scope name call).renumber r := by
  unfold SymbolTable.readIdent
  rw [h.resolveBare]
  match table.resolveBare scope name.val (call.map Call.args) with
  | .error reason => rfl
  | .ok (.member m) =>
    have htype := h.memberType? m call.isSome scope.isConst
    exact congrArg (Reading.mk · _) htype
  | .ok (.param _ _) | .ok (.variable _) =>
    dsimp only [Except.map, Referent.renumber]
    rw [Scope.lookup_renumber, Option.map_map]
    rfl

theorem readBound (scope : Scope) (name : SpannedName) (param : Bool) :
    SymbolTable.readBound (scope.renumber r) name param =
      (SymbolTable.readBound scope name param).renumber r := by
  have hparam : ∀ referent : Referent,
      SymbolTable.isParam (referent.renumber r) = SymbolTable.isParam referent := by
    intro referent
    cases referent <;> rfl
  unfold SymbolTable.readBound
  rw [Scope.lookup_renumber]
  cases scope.lookup name.val with
  | none => rfl
  | some b =>
    dsimp only [Option.map_some, Binding.renumber]
    rw [hparam]
    split <;> rfl

theorem readThis (h : Renumbered r table table') (scope : Scope) (span : Span) :
    table'.readThis (scope.renumber r) span = (table.readThis scope span).renumber r := by
  unfold SymbolTable.readThis
  rw [h.thisType?]
  cases table.thisType? scope <;> rfl

theorem readAccess (h : Renumbered r table table') (form : Access) (base : Option Ty) (op : AccessOp)
    (name : SpannedName) (call : Option Call) : table'.readAccess form base op name call =
      (table.readAccess form base op name call).renumber r := by
  unfold SymbolTable.readAccess
  cases base with
  | none => rfl
  | some type =>
    dsimp only
    rw [h.resolveAccess]
    match objectType type op, table.resolveAccess type op name.val (call.map Call.args) with
    | .ok object, .ok m => exact congrArg (Reading.mk · _) (h.memberType? m _ _)
    | .ok _, .error _ | .error _, .ok _ | .error _, .error _ => rfl

theorem readQualified (h : Renumbered r table table') (scope : Scope) (owner name : SpannedName)
    (call : Option Call) : table'.readQualified (scope.renumber r) owner name call =
      (table.readQualified scope owner name call).renumber r := by
  unfold SymbolTable.readQualified
  rw [h.resolveQualified]
  cases table.resolveQualified scope owner.val name.val (call.map Call.args) with
  | error reason => rfl
  | ok m => exact congrArg (Reading.mk · _) (h.memberType? m _ _)

theorem readOperator? (h : Renumbered r table table') (op : SpannedName) (operand : Ty) (call : Call) :
    table'.readOperator? op operand call =
      (table.readOperator? op operand call).map (Reading.renumber r) := by
  unfold SymbolTable.readOperator?
  rw [h.resolveOperator]
  match table.resolveOperator operand op.val call.args with
  | .ok m =>
    have htype : (table'.members[r.members m]?).bind (fun info => info.type? true) =
        (table.members[m]?).bind fun info => info.type? true := by
      refine h.bind_members (fun info info' hdecl => ?_) m
      unfold MemberInfo.type?
      rw [hdecl]
    exact congrArg (fun type => some (Reading.mk type _)) htype
  | .error reason => cases reason <;> rfl

theorem renumber_behind (reading : Reading) (before : List Finding) :
    (reading.behind before).renumber r =
      (reading.renumber r).behind (before.map (Finding.renumber r)) := by
  rw [Reading.behind, Reading.renumber, List.map_append]
  rfl

/-- Arguments that have been read, under new numbers. -/
def renumberArgs (r : Renumbering) (args : ArgTypes × List Finding) : ArgTypes × List Finding :=
  (args.1, args.2.map (Finding.renumber r))

section Steps

variable {scope : Scope} {span : Span}

/-- A call of a bare name, when its arguments have been read. -/
theorem read_callIdent (h : Renumbered r table table') {s : Span} {name : SpannedName}
    {args : List Expr} (hargs : Expr.readArgs table' (scope.renumber r) args =
      renumberArgs r (Expr.readArgs table scope args)) :
    (Expr.call span (.ident s name) args).read table' (scope.renumber r) =
      ((Expr.call span (.ident s name) args).read table scope).renumber r := by
  simp only [Expr.read, hargs, renumberArgs, renumber_behind, h.readIdent]

/-- A call of a qualified name, when its arguments have been read. -/
theorem read_callQualified (h : Renumbered r table table') {s : Span} {owner name : SpannedName}
    {args : List Expr} (hargs : Expr.readArgs table' (scope.renumber r) args =
      renumberArgs r (Expr.readArgs table scope args)) :
    (Expr.call span (.qualified s owner name) args).read table' (scope.renumber r) =
      ((Expr.call span (.qualified s owner name) args).read table scope).renumber r := by
  simp only [Expr.read, hargs, renumberArgs, renumber_behind, h.readQualified]

/-- A call of a member of an object, when the object and the arguments have been read. -/
theorem read_callMember (h : Renumbered r table table') {s : Span} {base : Expr} {op : AccessOp}
    {name : SpannedName} {args : List Expr}
    (hbase : base.read table' (scope.renumber r) = (base.read table scope).renumber r)
    (hargs : Expr.readArgs table' (scope.renumber r) args =
      renumberArgs r (Expr.readArgs table scope args)) :
    (Expr.call span (.member s base op name) args).read table' (scope.renumber r) =
      ((Expr.call span (.member s base op name) args).read table scope).renumber r := by
  simp only [Expr.read, hargs, hbase, renumberArgs, renumber_behind, List.map_append, h.readAccess]
  rfl

/-- A call of what is no name, when it and the arguments have been read. -/
theorem read_callOther {callee : Expr} (hn : callee.isName = false) {args : List Expr}
    (hcallee : callee.read table' (scope.renumber r) = (callee.read table scope).renumber r)
    (hargs : Expr.readArgs table' (scope.renumber r) args =
      renumberArgs r (Expr.readArgs table scope args)) :
    (Expr.call span callee args).read table' (scope.renumber r) =
      ((Expr.call span callee args).read table scope).renumber r := by
  rw [read_call hn, read_call hn, hcallee, hargs]
  exact congrArg (Reading.mk none) List.map_append.symm

/-- An operator in front of an operand that has been read. -/
theorem read_unary (h : Renumbered r table table') {op : SpannedName} {operand : Expr}
    (hoperand : operand.read table' (scope.renumber r) = (operand.read table scope).renumber r) :
    (Expr.unary span op operand).read table' (scope.renumber r) =
      ((Expr.unary span op operand).read table scope).renumber r := by
  rw [Expr.read, Expr.read, hoperand]
  obtain ⟨type, findings⟩ := operand.read table scope
  cases type with
  | none => rfl
  | some type =>
    dsimp only [Reading.renumber]
    rw [h.readOperator?]
    cases table.readOperator? op type ⟨⟨span, []⟩, []⟩ with
    | none => rfl
    | some reading => exact (renumber_behind reading findings).symm

/-- An operator between operands that have been read. -/
theorem read_binary (h : Renumbered r table table') {lhs rhs : Expr} {op : SpannedName}
    (hlhs : lhs.read table' (scope.renumber r) = (lhs.read table scope).renumber r)
    (hrhs : rhs.read table' (scope.renumber r) = (rhs.read table scope).renumber r) :
    (Expr.binary span lhs op rhs).read table' (scope.renumber r) =
      ((Expr.binary span lhs op rhs).read table scope).renumber r := by
  rw [Expr.read, Expr.read, hlhs, hrhs]
  obtain ⟨left, before⟩ := lhs.read table scope
  obtain ⟨right, behind⟩ := rhs.read table scope
  have hoperator : (left.bind fun type => table'.readOperator? op type ⟨⟨span, [rhs.span]⟩, [right]⟩) =
      (left.bind fun type => table.readOperator? op type ⟨⟨span, [rhs.span]⟩, [right]⟩).map
        (Reading.renumber r) := by
    rw [Option.map_bind]
    simp only [Function.comp_def, h.readOperator?]
  dsimp only [Reading.renumber]
  rw [hoperator, ← List.map_append]
  cases left.bind fun type => table.readOperator? op type ⟨⟨span, [rhs.span]⟩, [right]⟩ with
  | none => rfl
  | some reading => exact (renumber_behind reading (before ++ behind)).symm

end Steps

mutual

/-- **An expression is read in the same way**: its type is the same, and its findings are. -/
theorem read (h : Renumbered r table table') (scope : Scope) : ∀ e : Expr,
    e.read table' (scope.renumber r) = (e.read table scope).renumber r
  | .ident _ name => h.readIdent scope name none
  | .paramRef _ name => readBound scope name true
  | .localRef _ name => readBound scope name false
  | .thisPtr span => h.readThis scope span
  | .literal _ _ => rfl
  | .qualified _ owner name => h.readQualified scope owner name none
  | .member _ base op name => by
      rw [Expr.read, Expr.read, h.read scope base, h.readAccess, renumber_behind]
      rfl
  | .call _ (.ident _ _) args => h.read_callIdent (h.readArgs scope args)
  | .call _ (.qualified _ _ _) args => h.read_callQualified (h.readArgs scope args)
  | .call _ (.member _ base _ _) args => h.read_callMember (h.read scope base) (h.readArgs scope args)
  | .call _ (.paramRef _ _) args | .call _ (.localRef _ _) args | .call _ (.thisPtr _) args
  | .call _ (.literal _ _) args | .call _ (.call _ _ _) args | .call _ (.unary _ _ _) args
  | .call _ (.binary _ _ _ _) args => read_callOther rfl (h.read scope _) (h.readArgs scope args)
  | .unary _ _ operand => h.read_unary (h.read scope operand)
  | .binary _ lhs _ rhs => h.read_binary (h.read scope lhs) (h.read scope rhs)

/-- The arguments of a call have the same types and the same findings. -/
theorem readArgs (h : Renumbered r table table') (scope : Scope) : ∀ es : List Expr,
    Expr.readArgs table' (scope.renumber r) es = renumberArgs r (Expr.readArgs table scope es)
  | [] => rfl
  | e :: es => by
      rw [Expr.readArgs, Expr.readArgs, h.read scope e, h.readArgs scope es]
      exact congrArg (Prod.mk _) (List.map_append).symm

end

/-! ## 5. Function bodies -/

theorem findings (h : Renumbered r table table') (f : FuncId) :
    table'.findings (r.funcs f) = (table.findings f).map (Finding.renumber r) := by
  have hscoped : table'.scopedExprs (r.funcs f) =
      (table.scopedExprs f).map (Prod.map (Scope.renumber r) id) := by
    unfold SymbolTable.scopedExprs
    rw [h.getElem?_funcs]
    cases table.funcs[f]? with
    | none => rfl
    | some info =>
      dsimp only [Option.map_some]
      rw [FuncInfo.scope_renumber]
      exact Stmt.scopedExprsList_renumber _ _
  unfold SymbolTable.findings
  rw [hscoped, List.flatMap_map, List.map_flatMap]
  refine List.flatMap_congr fun ⟨scope, e⟩ _ => ?_
  exact congrArg Reading.findings (h.read scope e)

/-- **A function body refers to the same things**, and the same names in it refer to nothing. -/
theorem resolve (h : Renumbered r table table') (f : FuncId) :
    table'.resolve (r.funcs f) = (table.resolve f).renumber r := by
  have hfound : ((table.findings f).map (Finding.renumber r)).filterMap Finding.occurrence? =
      ((table.findings f).filterMap Finding.occurrence?).map (Occurrence.renumber r) := by
    rw [List.filterMap_map, List.map_filterMap]
    exact List.filterMap_congr fun finding _ => by cases finding <;> rfl
  have hmissing : ((table.findings f).map (Finding.renumber r)).filterMap Finding.unresolved? =
      (table.findings f).filterMap Finding.unresolved? := by
    rw [List.filterMap_map]
    exact List.filterMap_congr fun finding _ => by cases finding <;> rfl
  unfold SymbolTable.resolve Resolution.ofFindings Resolution.renumber
  rw [h.findings, hfound, hmissing]
  congr 1
  -- new numbers do not change where a name starts
  refine (List.map_mergeSort ?_).symm
  exact fun _ _ _ _ => rfl

/-! ## 6. References to members -/

theorem referencesIn (h : Renumbered r table table') (m : MemberId) (f : FuncId) :
    table'.referencesIn (r.members m) (r.funcs f) =
      (table.referencesIn m f).map (Reference.renumber r) := by
  have hreferent : ∀ o : Occurrence, ((o.renumber r).referent == .member (r.members m)) =
      (o.referent == .member m) := by
    intro o
    rw [Bool.eq_iff_iff, beq_iff_eq, beq_iff_eq]
    show o.referent.renumber r = (Referent.member m).renumber r ↔ _
    exact (Referent.renumber_injective r).eq_iff
  unfold SymbolTable.referencesIn Resolution.occurrencesOf
  rw [h.resolve, Resolution.renumber, List.filter_map, List.map_map, List.map_map]
  simp only [Function.comp_def, hreferent]
  rfl

/-- **The references to a member** are the same, each one in the function with the new number. Those
    that start at one place may come in another order. -/
theorem memberReferences (h : Renumbered r table table') (m : MemberId) :
    (table'.memberReferences (r.members m)).Perm
      ((table.memberReferences m).map (Reference.renumber r)) := by
  have hids : (table.funcIds.map r.funcs).Perm table'.funcIds := by
    have hrange := h.funcs.range_perm
    rwa [List.length_map] at hrange
  have hbodies : (table.funcIds.map r.funcs).flatMap (table'.referencesIn (r.members m)) =
      (table.funcIds.flatMap (table.referencesIn m)).map (Reference.renumber r) := by
    rw [List.flatMap_map, List.map_flatMap]
    exact List.flatMap_congr fun f _ => h.referencesIn m f
  have hunsorted := hids.symm.flatMap_right (table'.referencesIn (r.members m))
  rw [hbodies] at hunsorted
  exact ((List.mergeSort_perm _ _).trans hunsorted).trans ((List.mergeSort_perm _ _).map _).symm

end Renumbered

end MemberRefs
