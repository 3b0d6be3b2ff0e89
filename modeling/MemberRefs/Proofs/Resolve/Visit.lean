import MemberRefs.Resolve.Expr

/-!
# The visits of a walk

Reading an expression gives its type and its findings at once. Here the findings are taken apart: every
expression that an expression is made of is visited once (`Expr.visits`), and what is found at a visit
depends on that visit alone (`Visit.findings`), by way of the types of the expressions below.

* `findings_read`: reading finds what the visits find, in the order of the visits.
* `map_node_visits_perm`: the visits are those of all expressions that the expression is made of.
* `Visit.findings_of_name`, `Visit.findings_of_operator`, `Visit.findings_of_this`: a name is found or
  missing exactly once, an operator at most once, and the word `this` only where there is no object.
* `found_of_readIdent` and its siblings: what is found is what the name or operator resolves to.
-/

namespace MemberRefs

/-! ## 1. Expressions within an expression -/

mutual

/-- All expressions that an expression is made of, itself first. -/
def Expr.within : Expr → List Expr
  | .member span base op name => .member span base op name :: base.within
  | .call span callee args => .call span callee args :: (callee.within ++ Expr.withinAll args)
  | .unary span op operand => .unary span op operand :: operand.within
  | .binary span lhs op rhs => .binary span lhs op rhs :: (lhs.within ++ rhs.within)
  | e => [e]

/-- All expressions that several expressions are made of. -/
def Expr.withinAll : List Expr → List Expr
  | [] => []
  | e :: es => e.within ++ Expr.withinAll es

end

theorem Expr.withinAll_eq_flatMap (es : List Expr) : withinAll es = es.flatMap within := by
  induction es with
  | nil => rfl
  | cons e es ih => simp [withinAll, ih]

/-- The expressions within an expression are itself and those within its parts. -/
theorem Expr.within_eq_cons (e : Expr) : e.within = e :: e.children.flatMap within := by
  cases e <;> simp [within, children, withinAll_eq_flatMap]

theorem Expr.nodeCount_le_nodeCounts {e : Expr} :
    ∀ {es : List Expr}, e ∈ es → e.nodeCount ≤ nodeCounts es
  | _ :: es, h => by
      rw [nodeCounts]
      rcases List.mem_cons.mp h with rfl | h
      · exact Nat.le_add_right _ _
      · exact Nat.le_trans (nodeCount_le_nodeCounts h) (Nat.le_add_left _ _)

/-- The parts of an expression are smaller. -/
theorem Expr.nodeCount_lt_of_child {e c : Expr} (h : c ∈ e.children) : c.nodeCount < e.nodeCount := by
  have hle := nodeCount_le_nodeCounts h
  cases e <;> simp only [children, nodeCounts, nodeCount] at hle ⊢ <;> omega

/-- Induction over the parts of an expression. -/
theorem Expr.children_induction {motive : Expr → Prop}
    (step : ∀ e : Expr, (∀ c ∈ e.children, motive c) → motive e) (e : Expr) : motive e :=
  step e fun c _ => children_induction step c
  termination_by e.nodeCount
  decreasing_by exact nodeCount_lt_of_child ‹_›

theorem Expr.mem_within_iff {e part : Expr} :
    part ∈ e.within ↔ part = e ∨ ∃ c ∈ e.children, part ∈ c.within := by
  rw [within_eq_cons, List.mem_cons, List.mem_flatMap]

/-- The parts of what an expression is made of are among what it is made of. -/
theorem Expr.child_mem_within {e part c : Expr} (hpart : part ∈ e.within) (hc : c ∈ part.children) :
    c ∈ e.within := by
  induction e using children_induction with
  | step e ih =>
    rcases mem_within_iff.mp hpart with rfl | ⟨d, hd, hpart⟩
    · exact mem_within_iff.mpr (.inr ⟨c, hc, mem_within_iff.mpr (.inl rfl)⟩)
    · exact mem_within_iff.mpr (.inr ⟨d, hd, ih d hd hpart⟩)

/-! ## 2. Visits -/

/-- An expression that the walk is done with; `call` is the call with its arguments when the expression
    names what is called. -/
structure Visit where
  node : Expr
  call : Option (Span × List Expr)

mutual

/-- The visits of an expression: the parts of an expression come before it, and the name of what is
    called comes behind the arguments. -/
def Expr.visits : Expr → List Visit
  | .member span base op name => base.visits ++ [⟨.member span base op name, none⟩]
  | .call span callee args =>
      match callee with
      | .ident s name =>
          Expr.visitsAll args ++ [⟨.ident s name, some (span, args)⟩, ⟨.call span callee args, none⟩]
      | .qualified s owner name =>
          Expr.visitsAll args ++
            [⟨.qualified s owner name, some (span, args)⟩, ⟨.call span callee args, none⟩]
      | .member s base op name =>
          base.visits ++ Expr.visitsAll args ++
            [⟨.member s base op name, some (span, args)⟩, ⟨.call span callee args, none⟩]
      | callee => callee.visits ++ Expr.visitsAll args ++ [⟨.call span callee args, none⟩]
  | .unary span op operand => operand.visits ++ [⟨.unary span op operand, none⟩]
  | .binary span lhs op rhs => lhs.visits ++ rhs.visits ++ [⟨.binary span lhs op rhs, none⟩]
  | e => [⟨e, none⟩]

/-- The visits of several expressions. -/
def Expr.visitsAll : List Expr → List Visit
  | [] => []
  | e :: es => e.visits ++ Expr.visitsAll es

end

/-! ## 3. What is found at a visit -/

namespace Visit

/-- The call that a name is read in, with the types of its arguments. -/
def call? (table : SymbolTable) (scope : Scope) (v : Visit) : Option Call :=
  v.call.map fun (span, args) =>
    ⟨⟨span, args.map Expr.span⟩, (Expr.readArgs table scope args).1⟩

/-- What is found at the token of an operator, whose first operand may have a type. -/
def operatorFindings (table : SymbolTable) (op : SpannedName) (operand : Option Ty) (call : Call) :
    List Finding :=
  match operand.bind fun type => table.readOperator? op type call with
  | some r => r.findings
  | none => []

/-- **What is found at a visit**, given the types of the expressions below. -/
def findings (table : SymbolTable) (scope : Scope) (v : Visit) : List Finding :=
  match v.node with
  | .ident _ name => (table.readIdent scope name (v.call? table scope)).findings
  | .paramRef _ name => (SymbolTable.readBound scope name true).findings
  | .localRef _ name => (SymbolTable.readBound scope name false).findings
  | .thisPtr span => (table.readThis scope span).findings
  | .member _ base op name =>
      (table.readAccess (SymbolTable.accessForm base op) (base.read table scope).type op name
        (v.call? table scope)).findings
  | .qualified _ owner name =>
      (table.readQualified scope owner name (v.call? table scope)).findings
  | .unary span op operand =>
      operatorFindings table op (operand.read table scope).type ⟨⟨span, []⟩, []⟩
  | .binary span lhs op rhs =>
      operatorFindings table op (lhs.read table scope).type
        ⟨⟨span, [rhs.span]⟩, [(rhs.read table scope).type]⟩
  | .call _ _ _ | .literal _ _ => []

end Visit

/-! ## 4. Reading finds what the visits find -/

variable {table : SymbolTable} {scope : Scope}

/-- What is found at an operator in front of its operand. -/
theorem findings_read_unary (span : Span) (op : SpannedName) (operand : Expr) :
    ((Expr.unary span op operand).read table scope).findings =
      (operand.read table scope).findings ++
        Visit.findings table scope ⟨.unary span op operand, none⟩ := by
  cases ht : (operand.read table scope).type with
  | none => simp [Expr.read, Visit.findings, Visit.operatorFindings, ht]
  | some type =>
    cases hr : table.readOperator? op type ⟨⟨span, []⟩, []⟩ with
    | none => simp [Expr.read, Visit.findings, Visit.operatorFindings, ht, hr]
    | some r => simp [Expr.read, Visit.findings, Visit.operatorFindings, Reading.behind, ht, hr]

/-- What is found at an operator between its operands. -/
theorem findings_read_binary (span : Span) (lhs : Expr) (op : SpannedName) (rhs : Expr) :
    ((Expr.binary span lhs op rhs).read table scope).findings =
      (lhs.read table scope).findings ++ (rhs.read table scope).findings ++
        Visit.findings table scope ⟨.binary span lhs op rhs, none⟩ := by
  cases hr : (lhs.read table scope).type.bind fun type =>
      table.readOperator? op type ⟨⟨span, [rhs.span]⟩, [(rhs.read table scope).type]⟩ with
  | none => simp [Expr.read, Visit.findings, Visit.operatorFindings, hr]
  | some r => simp [Expr.read, Visit.findings, Visit.operatorFindings, Reading.behind, hr]

/-- Whether an expression names a member or variable, so that a call of it is a call by name. -/
def Expr.isName : Expr → Bool
  | .ident _ _ | .member _ _ _ _ | .qualified _ _ _ => true
  | _ => false

theorem read_call {callee : Expr} (hn : callee.isName = false) (span : Span) (args : List Expr) :
    (Expr.call span callee args).read table scope =
      ⟨none, (callee.read table scope).findings ++ (Expr.readArgs table scope args).2⟩ := by
  cases callee with
  | ident | member | qualified => cases hn
  | _ => rfl

theorem visits_call {callee : Expr} (hn : callee.isName = false) (span : Span) (args : List Expr) :
    (Expr.call span callee args).visits =
      callee.visits ++ Expr.visitsAll args ++ [⟨.call span callee args, none⟩] := by
  cases callee with
  | ident | member | qualified => cases hn
  | _ => rfl

/-- A call of something that is no name finds what its parts find. -/
theorem findings_read_call {callee : Expr} (hn : callee.isName = false) {span : Span}
    {args : List Expr}
    (hcallee : (callee.read table scope).findings =
      callee.visits.flatMap (Visit.findings table scope))
    (hargs : (Expr.readArgs table scope args).2 =
      (Expr.visitsAll args).flatMap (Visit.findings table scope)) :
    ((Expr.call span callee args).read table scope).findings =
      (Expr.call span callee args).visits.flatMap (Visit.findings table scope) := by
  rw [read_call hn, visits_call hn]
  simp [hcallee, hargs, Visit.findings]

mutual

/-- **Reading an expression finds what its visits find, in their order.** -/
theorem findings_read : ∀ e : Expr,
    (e.read table scope).findings = e.visits.flatMap (Visit.findings table scope)
  | .ident _ _ | .paramRef _ _ | .localRef _ _ | .thisPtr _ | .qualified _ _ _ | .literal _ _ => by
      simp [Expr.read, Expr.visits, Visit.findings, Visit.call?]
  | .member _ base _ _ => by
      simp [Expr.read, Expr.visits, Visit.findings, Visit.call?, Reading.behind, findings_read base]
  | .call _ (.ident _ _) args => by
      simp [Expr.read, Expr.visits, Visit.findings, Visit.call?, Reading.behind,
        findings_readArgs args]
  | .call _ (.qualified _ _ _) args => by
      simp [Expr.read, Expr.visits, Visit.findings, Visit.call?, Reading.behind,
        findings_readArgs args]
  | .call _ (.member _ base _ _) args => by
      simp [Expr.read, Expr.visits, Visit.findings, Visit.call?, Reading.behind,
        findings_read base, findings_readArgs args]
  | .call _ (.paramRef _ _) args | .call _ (.localRef _ _) args | .call _ (.thisPtr _) args
  | .call _ (.literal _ _) args | .call _ (.call _ _ _) args | .call _ (.unary _ _ _) args
  | .call _ (.binary _ _ _ _) args =>
      findings_read_call rfl (findings_read _) (findings_readArgs args)
  | .unary span op operand => by
      rw [findings_read_unary, findings_read operand]
      simp [Expr.visits]
  | .binary span lhs op rhs => by
      rw [findings_read_binary, findings_read lhs, findings_read rhs]
      simp [Expr.visits]

theorem findings_readArgs : ∀ es : List Expr,
    (Expr.readArgs table scope es).2 = (Expr.visitsAll es).flatMap (Visit.findings table scope)
  | [] => rfl
  | e :: es => by
      simp [Expr.readArgs, Expr.visitsAll, findings_read e, findings_readArgs es]

end

/-! ## 5. Every expression is visited once -/

theorem perm_append_pair {α : Type} (as : List α) (a b : α) : (as ++ [a, b]).Perm (b :: a :: as) :=
  List.perm_append_comm.trans (.swap b a as)

theorem map_node_visits_call {callee : Expr} (hn : callee.isName = false) {span : Span}
    {args : List Expr} (hcallee : (callee.visits.map Visit.node).Perm callee.within)
    (hargs : ((Expr.visitsAll args).map Visit.node).Perm (Expr.withinAll args)) :
    ((Expr.call span callee args).visits.map Visit.node).Perm
      (Expr.call span callee args).within := by
  rw [visits_call hn, List.map_append, List.map_append]
  exact (List.perm_append_singleton _ _).trans (.cons _ (hcallee.append hargs))

mutual

/-- **Every expression that an expression is made of is visited once.** -/
theorem map_node_visits_perm : ∀ e : Expr, (e.visits.map Visit.node).Perm e.within
  | .ident _ _ | .paramRef _ _ | .localRef _ _ | .thisPtr _ | .qualified _ _ _ | .literal _ _ =>
      .refl _
  | .member _ base _ _ => by
      rw [Expr.visits, Expr.within, List.map_append]
      exact (List.perm_append_singleton _ _).trans (.cons _ (map_node_visits_perm base))
  | .call _ (.ident _ _) args | .call _ (.qualified _ _ _) args => by
      rw [Expr.visits, Expr.within, List.map_append]
      exact (perm_append_pair _ _ _).trans (.cons _ (.cons _ (map_node_visitsAll_perm args)))
  | .call _ (.member _ base _ _) args => by
      rw [Expr.visits, Expr.within, Expr.within, List.map_append, List.map_append]
      exact (perm_append_pair _ _ _).trans
        (.cons _ (.cons _ ((map_node_visits_perm base).append (map_node_visitsAll_perm args))))
  | .call _ (.paramRef _ _) args | .call _ (.localRef _ _) args | .call _ (.thisPtr _) args
  | .call _ (.literal _ _) args | .call _ (.call _ _ _) args | .call _ (.unary _ _ _) args
  | .call _ (.binary _ _ _ _) args =>
      map_node_visits_call rfl (map_node_visits_perm _) (map_node_visitsAll_perm args)
  | .unary _ _ operand => by
      rw [Expr.visits, Expr.within, List.map_append]
      exact (List.perm_append_singleton _ _).trans (.cons _ (map_node_visits_perm operand))
  | .binary _ lhs _ rhs => by
      rw [Expr.visits, Expr.within, List.map_append, List.map_append]
      exact (List.perm_append_singleton _ _).trans
        (.cons _ ((map_node_visits_perm lhs).append (map_node_visits_perm rhs)))

theorem map_node_visitsAll_perm : ∀ es : List Expr,
    ((Expr.visitsAll es).map Visit.node).Perm (Expr.withinAll es)
  | [] => .refl _
  | e :: es => by
      rw [Expr.visitsAll, Expr.withinAll, List.map_append]
      exact (map_node_visits_perm e).append (map_node_visitsAll_perm es)

end

/-! ## 6. What one visit finds -/

/-- The place of a finding. -/
def Finding.span : Finding → Span
  | .found o => o.span
  | .missing reason => reason.span

namespace Expr

/-- Where the name stands that an expression is there to name. -/
def nameSpan? : Expr → Option Span
  | .ident _ name | .paramRef _ name | .localRef _ name | .member _ _ _ name
  | .qualified _ _ name => some name.span
  | _ => none

/-- Where the operator of an expression stands. -/
def operatorSpan? : Expr → Option Span
  | .unary _ op _ | .binary _ _ op _ => some op.span
  | _ => none

/-- Where the word `this` stands. -/
def thisSpan? : Expr → Option Span
  | .thisPtr span => some span
  | _ => none

end Expr

/-- One finding or none at a place. -/
inductive AtMostOnceAt (span : Span) : List Finding → Prop where
  | none : AtMostOnceAt span []
  | once (x : Finding) (hx : x.span = span) : AtMostOnceAt span [x]

theorem findings_readIdent (name : SpannedName) (call : Option Call) :
    ∃ x, (table.readIdent scope name call).findings = [x] ∧ x.span = name.span := by
  unfold SymbolTable.readIdent
  split
  · exact ⟨_, rfl, rfl⟩
  · exact ⟨_, rfl, rfl⟩

theorem findings_readBound (name : SpannedName) (param : Bool) :
    ∃ x, (SymbolTable.readBound scope name param).findings = [x] ∧ x.span = name.span := by
  unfold SymbolTable.readBound
  split
  · split
    · exact ⟨_, rfl, rfl⟩
    · exact ⟨_, rfl, rfl⟩
  · exact ⟨_, rfl, rfl⟩

theorem findings_readAccess (form : Access) (base : Option Ty) (op : AccessOp) (name : SpannedName)
    (call : Option Call) :
    ∃ x, (table.readAccess form base op name call).findings = [x] ∧ x.span = name.span := by
  unfold SymbolTable.readAccess
  split
  · exact ⟨_, rfl, rfl⟩
  · split
    · exact ⟨_, rfl, rfl⟩
    · exact ⟨_, rfl, rfl⟩
    · exact ⟨_, rfl, rfl⟩

theorem findings_readQualified (owner name : SpannedName) (call : Option Call) :
    ∃ x, (table.readQualified scope owner name call).findings = [x] ∧ x.span = name.span := by
  unfold SymbolTable.readQualified
  split
  · exact ⟨_, rfl, rfl⟩
  · exact ⟨_, rfl, rfl⟩

theorem operatorFindings_atMostOnce (op : SpannedName) (operand : Option Ty) (call : Call) :
    AtMostOnceAt op.span (Visit.operatorFindings table op operand call) := by
  unfold Visit.operatorFindings
  split
  · rename_i r hr
    obtain ⟨type, _, hr⟩ := Option.bind_eq_some_iff.mp hr
    unfold SymbolTable.readOperator? at hr
    split at hr
    · cases hr
      exact .once _ rfl
    · cases hr
    · cases hr
    · cases hr
    · cases hr
      exact .once _ rfl
  · exact .none

/-- A bare name that is found is what it means in the scope. -/
theorem found_of_readIdent {name : SpannedName} {call : Option Call} {o : Occurrence}
    (ho : .found o ∈ (table.readIdent scope name call).findings) :
    ∃ referent, table.resolveBare scope name.val (call.map Call.args) = .ok referent ∧
      o = ⟨name.span, referent, .implicit, call.map Call.site⟩ := by
  unfold SymbolTable.readIdent at ho
  split at ho
  · cases List.mem_singleton.mp ho
  · rename_i referent hres
    exact ⟨referent, hres, Finding.found.inj (List.mem_singleton.mp ho)⟩

/-- A name known to mean a variable is found as the one that the scope binds it to. -/
theorem found_of_readBound {name : SpannedName} {param : Bool} {o : Occurrence}
    (ho : .found o ∈ (SymbolTable.readBound scope name param).findings) :
    ∃ b, scope.lookup name.val = some b ∧ o = ⟨name.span, b.referent, .implicit, none⟩ := by
  unfold SymbolTable.readBound at ho
  split at ho
  · rename_i b hb
    split at ho
    · exact ⟨b, hb, Finding.found.inj (List.mem_singleton.mp ho)⟩
    · cases List.mem_singleton.mp ho
  · cases List.mem_singleton.mp ho

/-- A name behind `.` or `->` is found as the member that it means for the type in front. -/
theorem found_of_readAccess {form : Access} {base : Option Ty} {op : AccessOp} {name : SpannedName}
    {call : Option Call} {o : Occurrence}
    (ho : .found o ∈ (table.readAccess form base op name call).findings) :
    ∃ type object m, base = some type ∧ objectType type op = .ok object ∧
      table.resolveAccess type op name.val (call.map Call.args) = .ok m ∧
      o = ⟨name.span, .member m, form, call.map Call.site⟩ := by
  unfold SymbolTable.readAccess at ho
  split at ho
  · cases List.mem_singleton.mp ho
  · rename_i type
    split at ho
    · rename_i object m hobject hres
      exact ⟨type, object, m, rfl, hobject, hres, Finding.found.inj (List.mem_singleton.mp ho)⟩
    · cases List.mem_singleton.mp ho
    · cases List.mem_singleton.mp ho

/-- A qualified name is found as the member that it means in the class written. -/
theorem found_of_readQualified {owner name : SpannedName} {call : Option Call} {o : Occurrence}
    (ho : .found o ∈ (table.readQualified scope owner name call).findings) :
    ∃ m, table.resolveQualified scope owner.val name.val (call.map Call.args) = .ok m ∧
      o = ⟨name.span, .member m, .qualified, call.map Call.site⟩ := by
  unfold SymbolTable.readQualified at ho
  split at ho
  · rename_i m hres
    exact ⟨m, hres, Finding.found.inj (List.mem_singleton.mp ho)⟩
  · cases List.mem_singleton.mp ho

/-- **What is found at an operator** is the member that overloads it for the type of the first operand. -/
theorem found_of_operatorFindings {op : SpannedName} {operand : Option Ty} {call : Call}
    {o : Occurrence} (ho : .found o ∈ Visit.operatorFindings table op operand call) :
    ∃ type m, operand = some type ∧ table.resolveOperator type op.val call.args = .ok m ∧
      o = ⟨op.span, .member m, .operator, some call.site⟩ := by
  unfold Visit.operatorFindings at ho
  split at ho
  · rename_i r hr
    obtain ⟨type, hoperand, hr⟩ := Option.bind_eq_some_iff.mp hr
    unfold SymbolTable.readOperator? at hr
    split at hr
    · rename_i m hres
      cases hr
      exact ⟨type, m, hoperand, hres, Finding.found.inj (List.mem_singleton.mp ho)⟩
    · cases hr
    · cases hr
    · cases hr
    · cases hr
      cases List.mem_singleton.mp ho
  · exact absurd ho List.not_mem_nil

namespace Visit

/-- **A name is found or missing exactly once.** -/
theorem findings_of_name {v : Visit} {span : Span} (h : v.node.nameSpan? = some span) :
    ∃ x, v.findings table scope = [x] ∧ x.span = span := by
  obtain ⟨node, call⟩ := v
  cases node with
  | ident _ name => exact Option.some.inj h ▸ findings_readIdent name _
  | paramRef _ name => exact Option.some.inj h ▸ findings_readBound name true
  | localRef _ name => exact Option.some.inj h ▸ findings_readBound name false
  | member _ base op name => exact Option.some.inj h ▸ findings_readAccess _ _ op name _
  | qualified _ owner name => exact Option.some.inj h ▸ findings_readQualified owner name _
  | thisPtr | call | unary | binary | literal => cases h

/-- **An operator is found or missing at most once.** -/
theorem findings_of_operator {v : Visit} {span : Span} (h : v.node.operatorSpan? = some span) :
    AtMostOnceAt span (v.findings table scope) := by
  obtain ⟨node, call⟩ := v
  cases node with
  | unary _ op operand => exact Option.some.inj h ▸ operatorFindings_atMostOnce op _ _
  | binary _ lhs op rhs => exact Option.some.inj h ▸ operatorFindings_atMostOnce op _ _
  | ident | paramRef | localRef | member | qualified | thisPtr | call | literal => cases h

/-- **The word `this` is missing where there is no object**, and found nowhere. -/
theorem findings_of_this {v : Visit} {span : Span} (h : v.node.thisSpan? = some span) :
    v.findings table scope = [] ∨
      v.findings table scope = [.missing ⟨.noEnclosingClass, span⟩] := by
  obtain ⟨node, call⟩ := v
  cases node with
  | thisPtr s =>
    cases h
    unfold findings SymbolTable.readThis
    cases table.thisType? scope with
    | none => exact Or.inr rfl
    | some type => exact Or.inl rfl
  | ident | paramRef | localRef | member | qualified | unary | binary | call | literal => cases h

theorem not_found_of_this {v : Visit} {span : Span} (h : v.node.thisSpan? = some span)
    (o : Occurrence) : .found o ∉ v.findings table scope := by
  intro ho
  rcases findings_of_this h with hnone | hmissing
  · exact absurd (hnone ▸ ho) List.not_mem_nil
  · cases List.mem_singleton.mp (hmissing ▸ ho)

end Visit

end MemberRefs
