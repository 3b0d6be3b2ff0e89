import MemberRefs.Proofs.Resolve.Soundness
import MemberRefs.Proofs.Table.Contents

/-!
# Where `this` means an object

The word `this` is reported where it means no object, and nothing else is reported so. Whether there is an
object is for the function that holds the body to say: it has a class and is not marked static. A definition
outside of its class need not repeat the mark of the method, and in the body of one that does not, `this` is
taken for an object of the class all the same.

* `noEnclosingClass_iff`: in which bodies a word `this` is reported.
* `exists_this_of_access`: a member reached through `this` is reached where `this` means an object.
* `this_in_static_method`: when `this` has no meaning in the bodies of a static method.
-/

namespace MemberRefs

variable {table : SymbolTable} {scope : Scope}

/-- A function has an object for `this`: it has a class and is not marked static. -/
def FuncInfo.HasObject (info : FuncInfo) : Prop :=
  info.owner ≠ none ∧ info.decl.isStatic = false

/-- The word `this` stands somewhere in the body of a function. -/
def FuncDecl.SaysThis (decl : FuncDecl) (span : Span) : Prop :=
  .thisPtr span ∈ Stmt.exprsWithin decl.statements

namespace SymbolTable

/-! ## 1. What is reported for want of an object -/

theorem thisType?_scopeAt {info : FuncInfo} {f : FuncId} {site : Site} :
    table.thisType? (info.scopeAt f site) = none ↔ ¬ info.HasObject := by
  have howner : (info.scopeAt f site).owner = info.owner.map Prod.fst := rfl
  have hstatic : (info.scopeAt f site).isStatic = info.decl.isStatic := rfl
  rw [thisType?, howner, hstatic, FuncInfo.HasObject]
  cases info.owner <;> cases info.decl.isStatic <;> simp

section Reasons

variable {name : String} {args : Option ArgTypes} {objectConst : Bool}

theorem lookupMember_ne (hw : table.WellFormed) (c : ClassId) :
    table.lookupMember c name ≠ .error .noEnclosingClass := by
  intro h
  cases h ▸ lookupMember_outcome hw c name

theorem selectOverload_ne {candidates : List MemberId} :
    table.selectOverload name candidates args objectConst ≠ .error .noEnclosingClass := by
  intro h
  rcases selectOverload_error h with h | h <;> cases h

theorem classOf_ne {type : Ty} : table.classOf type ≠ .error .noEnclosingClass := by
  unfold classOf
  split <;> exact nofun

theorem objectType_ne {type : Ty} {op : AccessOp} : objectType type op ≠ .error .noEnclosingClass := by
  unfold objectType
  dsimp only
  split <;> exact nofun

theorem resolveBare_ne (hw : table.WellFormed) :
    table.resolveBare scope name args ≠ .error .noEnclosingClass := by
  unfold resolveBare
  split
  · exact nofun
  · exact nofun
  · rename_i c _ _
    split
    · exact nofun
    · rename_i reason _ hreason
      rintro ⟨rfl⟩
      exact lookupMember_ne hw c hreason
    · intro h
      exact selectOverload_ne (error_of_map_eq_error h)

theorem resolveAccess_ne (hw : table.WellFormed) {type : Ty} {op : AccessOp} :
    table.resolveAccess type op name args ≠ .error .noEnclosingClass := by
  intro h
  rcases bind_eq_error.mp h with h | ⟨object, _, h⟩
  · exact objectType_ne h
  rcases bind_eq_error.mp h with h | ⟨c, _, h⟩
  · exact classOf_ne h
  rcases bind_eq_error.mp h with h | ⟨candidates, _, h⟩
  · exact lookupMember_ne hw c h
  · exact selectOverload_ne h

theorem resolveQualified_ne (hw : table.WellFormed) {owner : String} :
    table.resolveQualified scope owner name args ≠ .error .noEnclosingClass := by
  unfold resolveQualified
  split
  · exact nofun
  · rename_i c _
    intro h
    rcases bind_eq_error.mp h with h | ⟨candidates, _, h⟩
    · exact lookupMember_ne hw c h
    · exact selectOverload_ne h

theorem resolveOperator_ne (hw : table.WellFormed) {operand : Ty} {args : ArgTypes} :
    table.resolveOperator operand name args ≠ .error .noEnclosingClass := by
  intro h
  rcases bind_eq_error.mp h with h | ⟨c, _, h⟩
  · exact classOf_ne h
  rcases bind_eq_error.mp h with h | ⟨candidates, _, h⟩
  · exact lookupMember_ne hw c h
  · exact selectOverload_ne h

end Reasons

/-- What a failure reports is its reason. -/
theorem reason_of_fail {span place : Span} {reason cause : Unresolved}
    (h : .missing ⟨cause, place⟩ ∈ (Reading.fail span reason).findings) : reason = cause := by
  cases List.mem_singleton.mp h
  rfl

theorem readIdent_ne (hw : table.WellFormed) {name : SpannedName} {call : Option Call} {place : Span} :
    .missing ⟨.noEnclosingClass, place⟩ ∉ (table.readIdent scope name call).findings := by
  unfold readIdent
  split
  · rename_i reason hreason
    intro h
    cases reason_of_fail h
    exact resolveBare_ne hw hreason
  · intro h
    cases List.mem_singleton.mp h

theorem readBound_ne {name : SpannedName} {param : Bool} {place : Span} :
    .missing ⟨.noEnclosingClass, place⟩ ∉ (readBound scope name param).findings := by
  intro h
  unfold readBound at h
  split at h
  · split at h
    · cases List.mem_singleton.mp h
    · cases reason_of_fail h
  · cases reason_of_fail h

theorem readAccess_ne (hw : table.WellFormed) {form : Access} {base : Option Ty} {op : AccessOp}
    {name : SpannedName} {call : Option Call} {place : Span} :
    .missing ⟨.noEnclosingClass, place⟩ ∉ (table.readAccess form base op name call).findings := by
  intro h
  unfold readAccess at h
  split at h
  · cases reason_of_fail h
  · split at h
    · cases List.mem_singleton.mp h
    · rename_i hreason
      cases reason_of_fail h
      exact objectType_ne hreason
    · rename_i hreason _
      cases reason_of_fail h
      exact resolveAccess_ne hw hreason

theorem readQualified_ne (hw : table.WellFormed) {owner name : SpannedName} {call : Option Call}
    {place : Span} :
    .missing ⟨.noEnclosingClass, place⟩ ∉ (table.readQualified scope owner name call).findings := by
  intro h
  unfold readQualified at h
  split at h
  · cases List.mem_singleton.mp h
  · rename_i hreason
    cases reason_of_fail h
    exact resolveQualified_ne hw hreason

theorem operatorFindings_ne (hw : table.WellFormed) {op : SpannedName} {operand : Option Ty}
    {call : Call} {place : Span} :
    .missing ⟨.noEnclosingClass, place⟩ ∉ Visit.operatorFindings table op operand call := by
  intro h
  unfold Visit.operatorFindings at h
  split at h
  · rename_i r hr
    obtain ⟨type, _, hr⟩ := Option.bind_eq_some_iff.mp hr
    unfold readOperator? at hr
    split at hr
    · cases hr
      cases List.mem_singleton.mp h
    · cases hr
    · cases hr
    · cases hr
    · rename_i hreason
      cases hr
      cases reason_of_fail h
      exact resolveOperator_ne hw hreason
  · exact absurd h List.not_mem_nil

/-- **Only the word `this` is reported for want of an object**, and only where there is none. -/
theorem noEnclosingClass_at_visit (hw : table.WellFormed) {v : Visit} {place : Span} :
    .missing ⟨.noEnclosingClass, place⟩ ∈ v.findings table scope ↔
      v.node = .thisPtr place ∧ table.thisType? scope = none := by
  obtain ⟨node, call⟩ := v
  cases node with
  | thisPtr span =>
    unfold Visit.findings readThis
    dsimp only
    cases table.thisType? scope with
    | some type => simp
    | none => simp [Reading.fail, eq_comm]
  | ident => exact iff_of_false (readIdent_ne hw) nofun
  | paramRef => exact iff_of_false readBound_ne nofun
  | localRef => exact iff_of_false readBound_ne nofun
  | member => exact iff_of_false (readAccess_ne hw) nofun
  | qualified => exact iff_of_false (readQualified_ne hw) nofun
  | unary => exact iff_of_false (operatorFindings_ne hw) nofun
  | binary => exact iff_of_false (operatorFindings_ne hw) nofun
  | call | literal => exact iff_of_false List.not_mem_nil nofun

/-! ## 2. Whole bodies -/

variable {unit : SourceUnit} {options : Options} {info : FuncInfo} {f : FuncId}

/-- A failure is what is missing at some site. -/
theorem mem_unresolved_iff (hf : table.funcs[f]? = some info) {u : Spanned Unresolved} :
    u ∈ (table.resolve f).unresolved ↔
      ∃ site ∈ Stmt.sites info.decl.statements, .missing u ∈ table.findingsAt info f site := by
  have hsorted : u ∈ (table.resolve f).unresolved ↔
      u ∈ (table.findings f).filterMap Finding.unresolved? := List.mem_mergeSort
  rw [hsorted, findings_eq_flatMap_sites hf]
  constructor
  · intro hu
    obtain ⟨x, hx, hxu⟩ := List.mem_filterMap.mp hu
    cases x with
    | found o => cases hxu
    | missing reason =>
      cases hxu
      exact List.mem_flatMap.mp hx
  · intro hu
    exact List.mem_filterMap.mpr ⟨_, List.mem_flatMap.mpr hu, rfl⟩

/-- An expression stands in a body when some site is its own. -/
theorem mem_exprsWithin_iff {body : List Stmt} {e : Expr} :
    e ∈ Stmt.exprsWithin body ↔ ∃ site ∈ Stmt.sites body, site.node = e := by
  rw [← (map_node_sites_perm body).mem_iff, List.mem_map]

/-- **In which bodies `this` is reported**: in those of functions without an object, every word of
    them. -/
theorem noEnclosingClass_iff (h : build unit options = .ok table) (hf : table.funcs[f]? = some info)
    (span : Span) :
    ⟨.noEnclosingClass, span⟩ ∈ (table.resolve f).unresolved ↔
      info.decl.SaysThis span ∧ ¬ info.HasObject := by
  have hw := wellFormed_of_build h
  rw [mem_unresolved_iff hf, FuncDecl.SaysThis, mem_exprsWithin_iff]
  constructor
  · rintro ⟨site, hsite, hmissing⟩
    obtain ⟨hnode, htype⟩ := (noEnclosingClass_at_visit hw).mp hmissing
    exact ⟨⟨site, hsite, hnode⟩, thisType?_scopeAt.mp htype⟩
  · rintro ⟨⟨site, hsite, hnode⟩, hobject⟩
    exact ⟨site, hsite, (noEnclosingClass_at_visit hw).mpr ⟨hnode, thisType?_scopeAt.mpr hobject⟩⟩

/-! ## 3. What is found through `this` -/

section Forms

variable {o : Occurrence} {call : Option Call}

theorem access_of_readIdent {name : SpannedName}
    (ho : .found o ∈ (table.readIdent scope name call).findings) : o.access = .implicit := by
  obtain ⟨_, _, rfl⟩ := found_of_readIdent ho
  rfl

theorem access_of_readBound {name : SpannedName} {param : Bool}
    (ho : .found o ∈ (readBound scope name param).findings) : o.access = .implicit := by
  obtain ⟨_, _, rfl⟩ := found_of_readBound ho
  rfl

theorem access_of_readQualified {owner name : SpannedName}
    (ho : .found o ∈ (table.readQualified scope owner name call).findings) :
    o.access = .qualified := by
  obtain ⟨_, _, rfl⟩ := found_of_readQualified ho
  rfl

/-- What is found behind `.` or `->` has the form of the access, and the object has a type. -/
theorem access_of_readAccess {form : Access} {base : Option Ty} {op : AccessOp} {name : SpannedName}
    (ho : .found o ∈ (table.readAccess form base op name call).findings) :
    o.access = form ∧ base ≠ none := by
  obtain ⟨_, _, _, rfl, _, _, rfl⟩ := found_of_readAccess ho
  exact ⟨rfl, Option.some_ne_none _⟩

theorem access_of_operatorFindings {op : SpannedName} {operand : Option Ty} {call : Call}
    (ho : .found o ∈ Visit.operatorFindings table op operand call) : o.access = .operator := by
  obtain ⟨_, _, _, _, rfl⟩ := found_of_operatorFindings ho
  rfl

end Forms

/-- An object expression that makes an access one through `this` is the word itself. -/
theorem eq_thisPtr_of_accessForm {base : Expr} {op : AccessOp} (h : accessForm base op = .this) :
    ∃ place, base = .thisPtr place := by
  unfold accessForm at h
  split at h
  · exact ⟨_, rfl⟩
  · cases h
  · cases h

/-- What is found through `this` is a member of the object that the word means. -/
theorem exists_this_of_visit {v : Visit} {o : Occurrence} (ho : .found o ∈ v.findings table scope)
    (hform : o.access = .this) :
    (∃ place, .thisPtr place ∈ v.node.children) ∧ table.thisType? scope ≠ none := by
  obtain ⟨node, call⟩ := v
  cases node with
  | member span base op name =>
    obtain ⟨haccess, htype⟩ := access_of_readAccess ho
    obtain ⟨place, rfl⟩ := eq_thisPtr_of_accessForm (haccess.symm.trans hform)
    refine ⟨⟨place, List.mem_singleton_self _⟩, fun hnone => htype ?_⟩
    rw [Expr.read, readThis, hnone]
    rfl
  | ident => exact nomatch (access_of_readIdent ho).symm.trans hform
  | paramRef => exact nomatch (access_of_readBound ho).symm.trans hform
  | localRef => exact nomatch (access_of_readBound ho).symm.trans hform
  | qualified => exact nomatch (access_of_readQualified ho).symm.trans hform
  | unary => exact nomatch (access_of_operatorFindings ho).symm.trans hform
  | binary => exact nomatch (access_of_operatorFindings ho).symm.trans hform
  | thisPtr span => exact absurd ho (Visit.not_found_of_this rfl o)
  | call | literal => exact absurd ho List.not_mem_nil

/-- **A member reached through `this`** is reached in the body of a function that has an object. -/
theorem exists_this_of_access (hf : table.funcs[f]? = some info) {o : Occurrence}
    (ho : o ∈ (table.resolve f).occurrences) (hform : o.access = .this) :
    (∃ place, info.decl.SaysThis place) ∧ info.HasObject := by
  obtain ⟨site, hsite, hfound⟩ := (mem_occurrences_iff hf).mp ho
  obtain ⟨⟨place, hchild⟩, htype⟩ := exists_this_of_visit hfound hform
  have hnode : site.node ∈ Stmt.exprsWithin info.decl.statements :=
    mem_exprsWithin_iff.mpr ⟨site, hsite, rfl⟩
  obtain ⟨e, he, hwithin⟩ := List.mem_flatMap.mp hnode
  refine ⟨⟨place, List.mem_flatMap.mpr ⟨e, he, Expr.child_mem_within hwithin hchild⟩⟩, ?_⟩
  exact Classical.not_not.mp fun hnone => htype (thisType?_scopeAt.mpr hnone)

/-! ## 4. Static methods -/

/-- The word `this` means nothing in a body: it is reported wherever it stands, and nothing is found
    through it. -/
structure ThisMeansNothing (table : SymbolTable) (f : FuncId) (decl : FuncDecl) : Prop where
  reported : ∀ span, decl.SaysThis span →
    ⟨.noEnclosingClass, span⟩ ∈ (table.resolve f).unresolved
  not_used : ∀ o ∈ (table.resolve f).occurrences, o.access ≠ .this

/-- The body of a method is the one in its class or that of a definition. -/
theorem body_of_member (h : build unit options = .ok table) (hf : table.funcs[f]? = some info)
    {c : ClassId} {m : MemberId} {member : MemberInfo} (howner : info.owner = some (c, m))
    (hm : table.members[m]? = some member) :
    member.decl = .method info.decl ∨ ∃ d ∈ member.definitions, d.decl = info.decl := by
  obtain ⟨path, _, hdescribes⟩ := exists_describes h hf
  obtain ⟨decl, owner⟩ := info
  cases hdescribes with
  | free => cases howner
  | declared hmember hdecl =>
    cases howner
    cases hm.symm.trans hmember
    exact .inl hdecl
  | defined hmember _ _ hdefinition =>
    cases howner
    cases hm.symm.trans hmember
    exact .inr ⟨_, hdefinition, rfl⟩

/-- **Where `this` means nothing in a static method.** The body of a static method is the one in its class,
    which has the mark, or that of a definition. The word `this` means nothing in it exactly when the
    declaration that holds the body has the mark itself or when the word is not in the body; in a definition
    that does not repeat the mark it means an object. -/
theorem this_in_static_method (h : build unit options = .ok table)
    (hf : table.funcs[f]? = some info) {c : ClassId} {m : MemberId} {member : MemberInfo}
    (howner : info.owner = some (c, m)) (hm : table.members[m]? = some member)
    (hstatic : member.isStatic = true) :
    ((member.decl = .method info.decl ∧ info.decl.isStatic = true) ∨
      ∃ d ∈ member.definitions, d.decl = info.decl) ∧
    (table.ThisMeansNothing f info.decl ↔
      info.decl.isStatic = true ∨ ∀ span, ¬ info.decl.SaysThis span) := by
  refine ⟨?_, fun hnothing => ?_, fun hmark => ⟨fun span hat => ?_, fun o ho hform => ?_⟩⟩
  · refine (body_of_member h hf howner hm).imp_left fun hdecl => ⟨hdecl, ?_⟩
    rwa [MemberInfo.isStatic, hdecl] at hstatic
  · refine Classical.or_iff_not_imp_right.mpr fun hword => ?_
    obtain ⟨span, hat⟩ := not_forall_not.mp hword
    obtain ⟨_, hobject⟩ := (noEnclosingClass_iff h hf span).mp (hnothing.reported span hat)
    exact eq_true_of_ne_false fun hmark => hobject ⟨howner ▸ nofun, hmark⟩
  · refine (noEnclosingClass_iff h hf span).mpr ⟨hat, fun hobject => ?_⟩
    rcases hmark with hmark | hnone
    · exact Bool.false_ne_true (hobject.2.symm.trans hmark)
    · exact hnone span hat
  · obtain ⟨⟨span, hat⟩, hobject⟩ := exists_this_of_access hf ho hform
    rcases hmark with hmark | hnone
    · exact Bool.false_ne_true (hobject.2.symm.trans hmark)
    · exact hnone span hat

/-- The statement `return this->id;`. -/
def returnOwnId : Stmt :=
  .ret (some (.member Span.atStart (.thisPtr Span.atStart) .arrow (bareName "id")))

/-- A class with a field `id` and a static method `next`, with a body in the class when there is one. -/
def staticMethodClass (body : Option (List Stmt)) : ClassDecl :=
  { bareClass "Row" [] ["id"] with
    members := (bareClass "Row" [] ["id"]).members ++
      [.method { bareFunc "next" [] body with isStatic := true }] }

/-- In the class the word `this` of the static method means nothing. -/
theorem this_in_class : ∃ table info member,
    build (bareUnit [.ofClass (staticMethodClass (some [returnOwnId]))]) {} = .ok table ∧
    table.funcs[0]? = some info ∧ info.owner = some (0, 1) ∧ table.members[1]? = some member ∧
    member.isStatic = true ∧ info.decl.isStatic = true ∧ info.decl.SaysThis Span.atStart ∧
    table.ThisMeansNothing 0 info.decl := by
  have hbuilt : ∃ table info member,
      build (bareUnit [.ofClass (staticMethodClass (some [returnOwnId]))]) {} = .ok table ∧
      table.funcs[0]? = some info ∧ info.owner = some (0, 1) ∧ table.members[1]? = some member ∧
      member.isStatic = true ∧ info.decl.isStatic = true ∧ info.decl.SaysThis Span.atStart :=
    ⟨_, _, _, rfl, rfl, rfl, rfl, rfl, rfl, List.mem_cons_of_mem _ List.mem_cons_self⟩
  obtain ⟨table, info, member, h, hf, howner, hm, hstatic, hmark, hat⟩ := hbuilt
  exact ⟨table, info, member, h, hf, howner, hm, hstatic, hmark, hat,
    (this_in_static_method h hf howner hm hstatic).2.mpr (.inl hmark)⟩

/-- A static method that is defined outside of its class. -/
def staticDefinitionUnit : SourceUnit :=
  bareUnit [.ofClass (staticMethodClass none),
    .ofFunc (bareDefinition "Row" "next" [] (some [returnOwnId]))]

/-- In the definition the word `this` of the static method is not reported, and `id` is found through
    it. -/
theorem this_in_definition : ∃ table info member, build staticDefinitionUnit {} = .ok table ∧
    table.funcs[0]? = some info ∧ info.owner = some (0, 1) ∧ table.members[1]? = some member ∧
    member.isStatic = true ∧ info.decl.SaysThis Span.atStart ∧
    (∀ span, ⟨.noEnclosingClass, span⟩ ∉ (table.resolve 0).unresolved) ∧
    ∃ o ∈ (table.resolve 0).occurrences, o.access = .this := by
  have hbuilt : ∃ table info member, build staticDefinitionUnit {} = .ok table ∧
      table.funcs[0]? = some info ∧ info.owner = some (0, 1) ∧ table.members[1]? = some member ∧
      member.isStatic = true ∧ info.decl.SaysThis Span.atStart ∧ info.decl.isStatic = false ∧
      ∃ site ∈ Stmt.sites info.decl.statements,
        .found ⟨Span.atStart, .member 0, .this, none⟩ ∈ table.findingsAt info 0 site :=
    ⟨_, _, _, rfl, rfl, rfl, rfl, rfl, List.mem_cons_of_mem _ List.mem_cons_self, rfl, _,
      List.mem_cons_of_mem _ List.mem_cons_self, List.mem_cons_self⟩
  obtain ⟨table, info, member, h, hf, howner, hm, hstatic, hat, hmark, hfound⟩ := hbuilt
  refine ⟨table, info, member, h, hf, howner, hm, hstatic, hat, fun span hreported => ?_,
    _, (mem_occurrences_iff hf).mpr hfound, rfl⟩
  exact ((noEnclosingClass_iff h hf span).mp hreported).2 ⟨howner ▸ nofun, hmark⟩

end SymbolTable

end MemberRefs
