import MemberRefs.Proofs.Resolve.Outside
import MemberRefs.Proofs.Table.BestRank

/-!
# Steps that do not guess

The type of an expression is made from the types of its parts, step by step, and so is what its names mean.
When the type of one part is not known, a step gives no answer, gives the answer that it gives for every
type of the part (`Definite`), or guesses. Reaching into an object and an operator in front of an operand
give no answer without a type. A call may guess which overload its other arguments mean, and an operator
between two operands may guess by one of them.

* `definite_argStep`: a call does not guess where at most one overload can be called.
* `definite_left`, `definite_right`: when an operator does not guess.
* `ExprContext.definiteWith_of_unambiguous`: where there is nothing to guess no guess is made.
-/

namespace MemberRefs

variable {table : SymbolTable} {scope : Scope}

/-! ## 1. Answers that are given again -/

/-- An occurrence is the same as another one up to the places of a call. -/
structure Occurrence.SameAs (o o' : Occurrence) : Prop where
  span : o.span = o'.span
  referent : o.referent = o'.referent
  access : o.access = o'.access

/-- What is found among the first findings is found among the second ones. -/
def FoundAgain (xs ys : List Finding) : Prop :=
  ∀ o, .found o ∈ xs → ∃ o', .found o' ∈ ys ∧ o.SameAs o'

theorem FoundAgain.refl (xs : List Finding) : FoundAgain xs xs :=
  fun o ho => ⟨o, ho, rfl, rfl, rfl⟩

theorem FoundAgain.trans {xs ys zs : List Finding} (h : FoundAgain xs ys) (h' : FoundAgain ys zs) :
    FoundAgain xs zs := by
  intro o ho
  obtain ⟨o₁, ho₁, h₁⟩ := h o ho
  obtain ⟨o₂, ho₂, h₂⟩ := h' o₁ ho₁
  exact ⟨o₂, ho₂, h₁.span.trans h₂.span, h₁.referent.trans h₂.referent, h₁.access.trans h₂.access⟩

theorem foundAgain_nil (ys : List Finding) : FoundAgain [] ys :=
  fun _ ho => absurd ho List.not_mem_nil

theorem foundAgain_fail (span : Span) (reason : Unresolved) (ys : List Finding) :
    FoundAgain (Reading.fail span reason).findings ys :=
  fun _ ho => nomatch List.mem_singleton.mp ho

/-- The places of a call are no part of what is found. -/
theorem foundAgain_call (span : Span) (referent : Referent) (access : Access)
    (call call' : Option CallSite) :
    FoundAgain [.found ⟨span, referent, access, call⟩] [.found ⟨span, referent, access, call'⟩] := by
  intro o ho
  cases List.mem_singleton.mp ho
  exact ⟨_, List.mem_singleton_self _, rfl, rfl, rfl⟩

/-- What one reading answers another one answers too: a type that is known, and what names refer to. -/
structure Reading.ConfirmedBy (r r' : Reading) : Prop where
  type : r.type = none ∨ r.type = r'.type
  found : FoundAgain r.findings r'.findings

namespace Reading.ConfirmedBy

theorem refl (r : Reading) : r.ConfirmedBy r := ⟨.inr rfl, .refl _⟩

theorem trans {r r' r'' : Reading} (h : r.ConfirmedBy r') (h' : r'.ConfirmedBy r'') :
    r.ConfirmedBy r'' := by
  refine ⟨?_, h.found.trans h'.found⟩
  rcases h.type with hr | hr
  · exact .inl hr
  · rcases h'.type with hr' | hr'
    · exact .inl (hr.trans hr')
    · exact .inr (hr.trans hr')

theorem of_fail (span : Span) (reason : Unresolved) (r : Reading) :
    (Reading.fail span reason).ConfirmedBy r := ⟨.inl rfl, foundAgain_fail span reason _⟩

end Reading.ConfirmedBy

/-! ## 2. Single steps -/

namespace SymbolTable

/-- How the name of what is called is read. Nothing is answered where no name is called. -/
def readCallee (table : SymbolTable) (scope : Scope) (callee : Expr) (call : Call) : Reading :=
  match callee with
  | .ident _ name => table.readIdent scope name (some call)
  | .qualified _ owner name => table.readQualified scope owner name (some call)
  | .member _ base op name =>
      table.readAccess (accessForm base op) (base.read table scope).type op name (some call)
  | _ => ⟨none, []⟩

/-- How an operator between operands of some types is read. -/
def readBinary (table : SymbolTable) (op : SpannedName) (site : CallSite) (left right : Option Ty) :
    Reading :=
  match left.bind fun type => table.readOperator? op type ⟨site, [right]⟩ with
  | some r => r
  | none => ⟨builtinBinaryType op.val left right, []⟩

theorem type_read_call (span : Span) (callee : Expr) (args : List Expr) :
    ((Expr.call span callee args).read table scope).type =
      (table.readCallee scope callee
        ⟨⟨span, args.map Expr.span⟩, (Expr.readArgs table scope args).1⟩).type := by
  cases callee <;> rfl

theorem type_read_binary (span : Span) (lhs : Expr) (op : SpannedName) (rhs : Expr) :
    ((Expr.binary span lhs op rhs).read table scope).type =
      (table.readBinary op ⟨span, [rhs.span]⟩ (lhs.read table scope).type
        (rhs.read table scope).type).type := by
  rw [Expr.read, readBinary]
  cases (lhs.read table scope).type.bind fun type =>
    table.readOperator? op type ⟨⟨span, [rhs.span]⟩, [(rhs.read table scope).type]⟩ <;> rfl

/-- What is found at the name of what is called. -/
theorem findings_callee {callee : Expr} (hn : callee.isName = true) (span : Span) (args : List Expr) :
    Visit.findings table scope ⟨callee, some (span, args)⟩ =
      (table.readCallee scope callee
        ⟨⟨span, args.map Expr.span⟩, (Expr.readArgs table scope args).1⟩).findings := by
  cases callee with
  | ident | member | qualified => rfl
  | _ => cases hn

theorem findings_binary (span : Span) (lhs : Expr) (op : SpannedName) (rhs : Expr)
    (call : Option (Span × List Expr)) :
    Visit.findings table scope ⟨.binary span lhs op rhs, call⟩ =
      (table.readBinary op ⟨span, [rhs.span]⟩ (lhs.read table scope).type
        (rhs.read table scope).type).findings := by
  unfold readBinary
  simp only [Visit.findings, Visit.operatorFindings]
  cases (lhs.read table scope).type.bind fun type =>
    table.readOperator? op type ⟨⟨span, [rhs.span]⟩, [(rhs.read table scope).type]⟩ <;> rfl

/-- Where the arguments of a call stand does not matter for the name of what is called. -/
theorem readCallee_site (callee : Expr) (site site' : CallSite) (args : ArgTypes) :
    (table.readCallee scope callee ⟨site, args⟩).ConfirmedBy
      (table.readCallee scope callee ⟨site', args⟩) := by
  cases callee with
  | ident _ name =>
    simp only [readCallee, readIdent, Option.map_some, Option.isSome_some]
    cases table.resolveBare scope name.val (some args) with
    | error reason => exact .of_fail _ _ _
    | ok referent => exact ⟨.inr rfl, foundAgain_call _ _ _ _ _⟩
  | qualified _ owner name =>
    simp only [readCallee, readQualified, Option.map_some, Option.isSome_some]
    cases table.resolveQualified scope owner.val name.val (some args) with
    | error reason => exact .of_fail _ _ _
    | ok m => exact ⟨.inr rfl, foundAgain_call _ _ _ _ _⟩
  | member _ base op name =>
    simp only [readCallee, readAccess, Option.map_some, Option.isSome_some]
    cases (base.read table scope).type with
    | none => exact .of_fail _ _ _
    | some type =>
      dsimp only
      cases objectType type op with
      | error reason => exact .of_fail _ _ _
      | ok object =>
        cases table.resolveAccess type op name.val (some args) with
        | error reason => exact .of_fail _ _ _
        | ok m => exact ⟨.inr rfl, foundAgain_call _ _ _ _ _⟩
  | _ => exact .refl _

/-- Where the operands stand does not matter for an operator. -/
theorem readBinary_site (op : SpannedName) (site site' : CallSite) (left right : Option Ty) :
    (table.readBinary op site left right).ConfirmedBy (table.readBinary op site' left right) := by
  unfold readBinary
  cases left with
  | none => exact .refl _
  | some type =>
    simp only [Option.bind_some, readOperator?]
    cases table.resolveOperator type op.val [right] with
    | ok m => exact ⟨.inr rfl, foundAgain_call _ _ _ _ _⟩
    | error reason => cases reason <;> exact .refl _

end SymbolTable

/-! ## 3. Definite steps -/

/-- **A step is definite** when what it answers without the type of a part is what it answers with every
    type of the part. Otherwise it guesses. -/
def Definite (step : Option Ty → Reading) : Prop :=
  ∀ type : Ty, (step none).ConfirmedBy (step (some type))

theorem Definite.confirmedBy {step : Option Ty → Reading} {known known' : Option Ty}
    (h : known = none → Definite step) (htypes : known = none ∨ known = known') :
    (step known).ConfirmedBy (step known') := by
  rcases htypes with rfl | rfl
  · cases known' with
    | none => exact .refl _
    | some type => exact h rfl type
  · exact .refl _

/-- How a call reads the name of what is called, by the type of one argument. -/
def SymbolTable.argStep (table : SymbolTable) (scope : Scope) (span : Span) (called : Expr)
    (before : List Expr) (arg : Expr) (after : List Expr) (type : Option Ty) : Reading :=
  table.readCallee scope called ⟨⟨span, (before ++ arg :: after).map Expr.span⟩,
    (Expr.readArgs table scope before).1 ++ type :: (Expr.readArgs table scope after).1⟩

namespace ExprContext

/-- The type of what an expression with an open part is when the part is filled in. -/
def typeWith (table : SymbolTable) (scope : Scope) (x : Expr) (ctx : ExprContext) : Option Ty :=
  ((ctx.fill x).read table scope).type

/-- **No guess is made around the open part**: where the part of an argument or an operand is of unknown
    type, the call or the operator is definite. -/
def DefiniteWith (table : SymbolTable) (scope : Scope) (x : Expr) : ExprContext → Prop
  | .hole => True
  | .member _ inner _ _ | .callee _ inner _ | .operand _ _ inner => inner.DefiniteWith table scope x
  | .arg span called before inner after =>
      inner.DefiniteWith table scope x ∧ (inner.typeWith table scope x = none →
        Definite (table.argStep scope span called before (inner.fill x) after))
  | .left span inner op rhs =>
      inner.DefiniteWith table scope x ∧ (inner.typeWith table scope x = none →
        Definite fun type => table.readBinary op ⟨span, [rhs.span]⟩ type (rhs.read table scope).type)
  | .right span lhs op inner =>
      inner.DefiniteWith table scope x ∧ (inner.typeWith table scope x = none →
        Definite fun type => table.readBinary op ⟨span, [(inner.fill x).span]⟩
          (lhs.read table scope).type type)

end ExprContext

/-! ## 4. Steps that do not guess -/

/-- The name of what is called, where a name is called. -/
def Expr.calledName? : Expr → Option String
  | .ident _ name | .qualified _ _ name | .member _ _ _ name => some name.val
  | _ => none

namespace SymbolTable

/-- Whatever class a name is looked up in, at most one of its members can be called with the arguments. -/
def CalledAlone (table : SymbolTable) (args : ArgTypes) (name : String) : Prop :=
  ∀ c ms objectConst, table.lookupMember c name = .ok ms →
    (table.viable ms args objectConst).length ≤ 1

section CalledAlone

variable {args args' : ArgTypes} {name : String} (h : table.CalledAlone args name)
  (hcount : args'.length = args.length)

include h hcount

theorem CalledAlone.resolveBare_eq :
    table.resolveBare scope name (some args') = table.resolveBare scope name (some args) := by
  unfold resolveBare
  cases scope.lookup name with
  | some _ => rfl
  | none =>
    cases scope.owner with
    | none => rfl
    | some c =>
      dsimp only
      cases hms : table.lookupMember c name with
      | error reason => cases reason <;> rfl
      | ok ms => simp only [selectOverload_lone hcount (h c ms _ hms)]

theorem CalledAlone.select_eq (c : ClassId) (objectConst : Bool) :
    (table.lookupMember c name >>= fun ms => table.selectOverload name ms (some args') objectConst) =
      (table.lookupMember c name >>= fun ms => table.selectOverload name ms (some args) objectConst) := by
  cases hms : table.lookupMember c name with
  | error reason => rfl
  | ok ms => exact selectOverload_lone hcount (h c ms _ hms)

theorem CalledAlone.resolveAccess_eq (type : Ty) (op : AccessOp) :
    table.resolveAccess type op name (some args') = table.resolveAccess type op name (some args) :=
  bind_congr fun object => bind_congr fun c => h.select_eq hcount c object.isConst

theorem CalledAlone.resolveQualified_eq (owner : String) :
    table.resolveQualified scope owner name (some args') =
      table.resolveQualified scope owner name (some args) := by
  unfold resolveQualified
  cases table.classNamed? owner with
  | none => rfl
  | some c => exact h.select_eq hcount c _

end CalledAlone

theorem CalledAlone.resolveOperator_eq {args args' : ArgTypes} {op : String}
    (h : table.CalledAlone args (Name.ofOperator op)) (hcount : args'.length = args.length)
    (operand : Ty) : table.resolveOperator operand op args' = table.resolveOperator operand op args := by
  refine bind_congr fun c => ?_
  dsimp only
  cases hms : table.lookupMember c (Name.ofOperator op) with
  | error reason => rfl
  | ok ms =>
    dsimp only [bind, Except.bind]
    rw [hcount]
    -- fewer members can be called among those that take so many operands
    refine selectOverload_lone hcount (le_trans ?_ (h c ms operand.stripRefs.isConst hms))
    exact (List.filter_sublist.filterMap _).length_le

end SymbolTable

/-- **A call does not guess where at most one member can be called.** -/
theorem definite_argStep {called : Expr} {before after : List Expr}
    (h : ∀ name, called.calledName? = some name →
      table.CalledAlone ((Expr.readArgs table scope before).1 ++
        none :: (Expr.readArgs table scope after).1) name) (span : Span) (arg : Expr) :
    Definite (table.argStep scope span called before arg after) := by
  intro type
  have hcount : ((Expr.readArgs table scope before).1 ++
      some type :: (Expr.readArgs table scope after).1).length =
      ((Expr.readArgs table scope before).1 ++
        none :: (Expr.readArgs table scope after).1).length := by
    simp
  suffices heq : table.argStep scope span called before arg after (some type) =
      table.argStep scope span called before arg after none by
    rw [heq]
    exact .refl _
  unfold SymbolTable.argStep
  cases called with
  | ident _ name =>
    simp only [SymbolTable.readCallee, SymbolTable.readIdent, Option.map_some, Option.isSome_some,
      (h _ rfl).resolveBare_eq hcount]
  | qualified _ owner name =>
    simp only [SymbolTable.readCallee, SymbolTable.readQualified, Option.map_some, Option.isSome_some,
      (h _ rfl).resolveQualified_eq hcount]
  | member _ base op name =>
    simp only [SymbolTable.readCallee, SymbolTable.readAccess, Option.map_some, Option.isSome_some,
      (h _ rfl).resolveAccess_eq hcount]
  | _ => rfl

/-- **An operator does not guess its left operand** where the builtin one has no type without it. -/
theorem definite_left {op : SpannedName} {right : Option Ty}
    (h : builtinBinaryType op.val none right = none) (site : CallSite) :
    Definite fun type => table.readBinary op site type right :=
  fun _ => ⟨.inl h, foundAgain_nil _⟩

/-- **An operator does not guess its right operand** where at most one member overloads it and the builtin
    one has no type, or that of the left operand alone. -/
theorem definite_right {op : SpannedName} {left : Option Ty}
    (hlone : table.CalledAlone [none] (Name.ofOperator op.val))
    (hbuiltin : ∀ type, builtinBinaryType op.val left none = none ∨
      builtinBinaryType op.val left none = builtinBinaryType op.val left (some type))
    (site : CallSite) : Definite (table.readBinary op site left) := by
  intro type
  have hsame : ∀ operand, table.resolveOperator operand op.val [some type] =
      table.resolveOperator operand op.val [none] := hlone.resolveOperator_eq rfl
  unfold SymbolTable.readBinary SymbolTable.readOperator?
  simp only [hsame]
  split
  · exact .refl _
  · exact ⟨hbuiltin type, foundAgain_nil _⟩

namespace ExprContext

/-- Whatever fills the open part, there is nothing to guess around it. -/
def Unambiguous (table : SymbolTable) (scope : Scope) : ExprContext → Prop
  | .hole => True
  | .member _ inner _ _ | .callee _ inner _ | .operand _ _ inner => inner.Unambiguous table scope
  | .arg _ called before inner after =>
      inner.Unambiguous table scope ∧ ∀ name, called.calledName? = some name →
        table.CalledAlone ((Expr.readArgs table scope before).1 ++
          none :: (Expr.readArgs table scope after).1) name
  | .left _ inner op rhs =>
      inner.Unambiguous table scope ∧
        builtinBinaryType op.val none (rhs.read table scope).type = none
  | .right _ lhs op inner =>
      inner.Unambiguous table scope ∧ table.CalledAlone [none] (Name.ofOperator op.val) ∧
        ∀ type, builtinBinaryType op.val (lhs.read table scope).type none = none ∨
          builtinBinaryType op.val (lhs.read table scope).type none =
            builtinBinaryType op.val (lhs.read table scope).type (some type)

/-- **Where there is nothing to guess no guess is made.** -/
theorem definiteWith_of_unambiguous (x : Expr) :
    ∀ ctx : ExprContext, ctx.Unambiguous table scope → ctx.DefiniteWith table scope x
  | .hole, _ => trivial
  | .member _ inner _ _, h | .callee _ inner _, h | .operand _ _ inner, h =>
      definiteWith_of_unambiguous x inner h
  | .arg span _ _ inner _, h =>
      ⟨definiteWith_of_unambiguous x inner h.1, fun _ => definite_argStep h.2 span _⟩
  | .left _ inner _ _, h => ⟨definiteWith_of_unambiguous x inner h.1, fun _ => definite_left h.2 _⟩
  | .right _ _ _ inner, h =>
      ⟨definiteWith_of_unambiguous x inner h.1, fun _ => definite_right h.2.1 h.2.2 _⟩

end ExprContext

end MemberRefs
