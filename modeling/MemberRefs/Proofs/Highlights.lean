import MemberRefs.Proofs.Resolve.Declared
import MemberRefs.Proofs.Selection

/-!
# Highlighted variables are those that the names are bound to

The highlights look the declaration of a name up once more: a local variable is searched for by its place
among all local variables of the function, although only some of them are visible at the name. Where no two
local variables of a function have the same place, this search gives the declaration that the walk has bound
the name to.

* `referentDecl?_of_boundTo`: the search gives the declaration that the name is bound to.
* `mem_referenceVariableUses_iff`: what is marked as a use of a reference.
* `declared_as_bound`: declarations of names and uses of references, for all function bodies.
-/

namespace MemberRefs.SymbolTable

variable {unit : SourceUnit} {options : Options} {table : SymbolTable} {info : FuncInfo} {f : FuncId}
  {o : Occurrence} {site : Site} {n : String} {referent : Referent} {declared : Decl}

/-! ## 1. The search for a declaration -/

/-- No two local variables of a function have their names at the same place. -/
def LocalsApart (decl : FuncDecl) : Prop := (decl.locals.map fun d => d.name.span).Nodup

instance (decl : FuncDecl) : Decidable (LocalsApart decl) := inferInstanceAs (Decidable (List.Nodup _))

/-- A local variable is the first one at its place. -/
theorem refersTo_of_mem_locals {d : LocalDecl} (hf : table.funcs[f]? = some info)
    (hapart : LocalsApart info.decl) (hd : d ∈ info.decl.locals) :
    table.RefersTo f (.variable d.name.span) (.ofLocal d) := by
  obtain ⟨before, after, hsplit⟩ := List.append_of_mem hd
  refine .localVariable hf hsplit rfl fun e he heq => ?_
  rw [LocalsApart, hsplit, List.map_append] at hapart
  exact List.disjoint_of_nodup_append hapart (List.mem_map_of_mem he)
    (heq ▸ List.mem_map_of_mem List.mem_cons_self)

/-- **The search gives the declaration that the walk has bound a name to.** -/
theorem referentDecl?_of_boundTo (hf : table.funcs[f]? = some info) (hapart : LocalsApart info.decl)
    (hsite : site ∈ Stmt.sites info.decl.statements)
    (h : BoundTo table info f site n referent declared) :
    table.referentDecl? f referent = some declared := by
  rw [referentDecl?_eq_some_iff]
  cases h with
  | member hm hname => exact .member hm
  | @binder b hb =>
    match b, hb with
    | .param index p, hb => exact .parameter hf (getElem?_params_of_firstBinder? hb)
    | .variable d, hb => exact refersTo_of_mem_locals hf hapart (mem_locals_of_firstBinder? hsite hb)

/-! ## 2. Uses of references -/

theorem mem_allOccurrences_iff : (f, o) ∈ table.allOccurrences ↔
    ∃ info, table.funcs[f]? = some info ∧ o ∈ (table.resolve f).occurrences := by
  rw [allOccurrences, List.mem_flatMap]
  constructor
  · rintro ⟨g, hg, hmem⟩
    obtain ⟨o', ho, heq⟩ := List.mem_map.mp hmem
    cases heq
    exact ⟨_, List.getElem?_eq_getElem (List.mem_range.mp hg), ho⟩
  · rintro ⟨info, hf, ho⟩
    have hg : f ∈ table.funcIds := List.mem_range.mpr (List.getElem?_eq_some_iff.mp hf).1
    exact ⟨f, hg, List.mem_map_of_mem ho⟩

theorem isReferenceVariable_iff : table.isReferenceVariable f referent = true ↔
    ∃ declared type, table.referentDecl? f referent = some declared ∧ declared.type? = some type ∧
      type.isLvalueReference = true := by
  simp only [isReferenceVariable, Option.any_eq_true, Option.bind_eq_some_iff]
  constructor
  · rintro ⟨type, ⟨declared, hdeclared, htype⟩, href⟩
    exact ⟨declared, type, hdeclared, htype, href⟩
  · rintro ⟨declared, type, hdeclared, htype, href⟩
    exact ⟨type, ⟨declared, hdeclared, htype⟩, href⟩

theorem mem_referenceVariableUses_iff {span : Span} : span ∈ table.referenceVariableUses ↔
    ∃ f info o, table.funcs[f]? = some info ∧ o ∈ (table.resolve f).occurrences ∧ o.span = span ∧
      table.isReferenceVariable f o.referent = true := by
  rw [referenceVariableUses, Span.mem_sorted, List.mem_map]
  constructor
  · rintro ⟨⟨f, o⟩, hmem, rfl⟩
    obtain ⟨hmem, href⟩ := List.mem_filter.mp hmem
    obtain ⟨info, hf, ho⟩ := mem_allOccurrences_iff.mp hmem
    exact ⟨f, info, o, hf, ho, rfl, href⟩
  · rintro ⟨f, info, o, hf, ho, rfl, href⟩
    exact ⟨(f, o), List.mem_filter.mpr ⟨mem_allOccurrences_iff.mpr ⟨info, hf, ho⟩, href⟩, rfl⟩

/-! ## 3. Occurrences -/

/-- What an occurrence refers to has one declaration, and wherever it is found the walk has bound the name
    written to it. -/
theorem exists_referentDecl? (h : build unit options = .ok table) (hf : table.funcs[f]? = some info)
    (hapart : LocalsApart info.decl) (hsite : site ∈ Stmt.sites info.decl.statements)
    (ho : .found o ∈ table.findingsAt info f site) : ∃ n declared,
      table.referentDecl? f o.referent = some declared ∧ site.node.written? = some n ∧
        BoundTo table info f site n o.referent declared := by
  obtain ⟨n, declared, hn, hbound⟩ := exists_boundTo_of_found h ho
  exact ⟨n, declared, referentDecl?_of_boundTo hf hapart hsite hbound, hn, hbound⟩

/-- **An occurrence that names a reference**: where it is found, the walk binds it to a field, a parameter
    or a local variable that is declared as an lvalue reference. -/
def NamesReference (table : SymbolTable) (info : FuncInfo) (f : FuncId) (o : Occurrence) : Prop :=
  ∃ site ∈ Stmt.sites info.decl.statements, .found o ∈ table.findingsAt info f site ∧
    ∃ n declared type, site.node.written? = some n ∧
      BoundTo table info f site n o.referent declared ∧ declared.type? = some type ∧
        type.isLvalueReference = true

theorem isReferenceVariable_iff_namesReference (h : build unit options = .ok table)
    (hf : table.funcs[f]? = some info) (hapart : LocalsApart info.decl)
    (ho : o ∈ (table.resolve f).occurrences) :
    table.isReferenceVariable f o.referent = true ↔ table.NamesReference info f o := by
  rw [isReferenceVariable_iff]
  constructor
  · rintro ⟨declared, type, hdeclared, htype, href⟩
    obtain ⟨site, hsite, hfound⟩ := (mem_occurrences_iff hf).mp ho
    obtain ⟨n, declared', hsame, hn, hbound⟩ := exists_referentDecl? h hf hapart hsite hfound
    cases hdeclared.symm.trans hsame
    exact ⟨site, hsite, hfound, n, declared, type, hn, hbound, htype, href⟩
  · rintro ⟨site, hsite, _, n, declared, type, _, hbound, htype, href⟩
    exact ⟨declared, type, referentDecl?_of_boundTo hf hapart hsite hbound, htype, href⟩

/-- **The declaration of a name is the one it is bound to.** Where the local variables of each function have
    different places, every occurrence in a function body has a declaration. Wherever the occurrence is
    found, this is the declaration that the walk has bound the name written to: it has that name, and when
    it is that of a parameter or local variable, it has the type that the scope gives the name there. So a
    place is marked as a use of a reference exactly when an occurrence there names a field, a parameter or a
    local variable that is declared as an lvalue reference. -/
theorem declared_as_bound (h : build unit options = .ok table)
    (hapart : ∀ (f : FuncId) (info : FuncInfo), table.funcs[f]? = some info → LocalsApart info.decl) :
    (∀ f info, table.funcs[f]? = some info → ∀ o ∈ (table.resolve f).occurrences,
      ∃ declared, table.referentDecl? f o.referent = some declared ∧
        (∃ site ∈ Stmt.sites info.decl.statements, .found o ∈ table.findingsAt info f site) ∧
        ∀ site ∈ Stmt.sites info.decl.statements, .found o ∈ table.findingsAt info f site →
          ∃ n, site.node.written? = some n ∧ declared.name?.map Spanned.val = some n ∧
            BoundTo table info f site n o.referent declared ∧
            ((∀ m, o.referent ≠ .member m) → ∃ type, declared.type? = some type ∧
              (info.scopeAt f site).lookup n = some ⟨o.referent, type⟩)) ∧
    ∀ span, span ∈ table.referenceVariableUses ↔
      ∃ f info o, table.funcs[f]? = some info ∧ o ∈ (table.resolve f).occurrences ∧
        o.span = span ∧ table.NamesReference info f o := by
  refine ⟨fun f info hf o ho => ?_, fun span => ?_⟩
  · obtain ⟨site, hsite, hfound⟩ := (mem_occurrences_iff hf).mp ho
    obtain ⟨_, declared, hdeclared, _⟩ := exists_referentDecl? h hf (hapart f info hf) hsite hfound
    refine ⟨declared, hdeclared, ⟨site, hsite, hfound⟩, fun site' hsite' hfound' => ?_⟩
    obtain ⟨n, declared', hsame, hn, hbound⟩ :=
      exists_referentDecl? h hf (hapart f info hf) hsite' hfound'
    cases hdeclared.symm.trans hsame
    exact ⟨n, hn, hbound.name?, hbound, hbound.lookup⟩
  · rw [mem_referenceVariableUses_iff]
    refine exists_congr fun f => exists_congr fun info => exists_congr fun o =>
      and_congr_right fun hf => and_congr_right fun ho => and_congr_right fun _ => ?_
    exact isReferenceVariable_iff_namesReference h hf (hapart f info hf) ho

/-- The statements `int& id; id; { int id; id; }`. -/
def nestedBody : List Stmt :=
  let declare (span : Span) (type : Ty) : Stmt := .decl ⟨⟨"id", span⟩, type, none, span⟩
  let use (span : Span) : Stmt := .expr (.ident span ⟨"id", span⟩)
  [declare (columns 5 7) (.lref (.named "int")), use (columns 9 11),
    .block [declare (columns 19 21) (.named "int"), use (columns 23 25)]]

/-- Of the two uses of `id` the one in front of the block is marked. The other one is bound to the variable
    of the block, whose declaration is found among the variables of the whole body. -/
theorem declared_as_bound_nestedBody : ∃ table info,
    build (bareUnit [.ofFunc (bareFunc "read" [] (some nestedBody))]) {} = .ok table ∧
    table.funcs = [info] ∧ LocalsApart info.decl ∧ columns 9 11 ∈ table.referenceVariableUses ∧
    ∃ declared, table.referentDecl? 0 (.variable (columns 19 21)) = some declared ∧
      declared.type? = some (.named "int") := by
  have hbuilt : ∃ table info,
      build (bareUnit [.ofFunc (bareFunc "read" [] (some nestedBody))]) {} = .ok table ∧
      table.funcs = [info] ∧ info.decl.statements = nestedBody ∧
      (∃ site ∈ Stmt.sites info.decl.statements,
        .found ⟨columns 9 11, .variable (columns 5 7), .implicit, none⟩ ∈
          table.findingsAt info 0 site ∧ site.node.written? = some "id" ∧
        ∃ b, firstBinder? info.decl site.enclosing "id" = some b ∧
          b.referent 0 = .variable (columns 5 7) ∧ b.toDecl.type? = some (.lref (.named "int"))) ∧
      ∃ site ∈ Stmt.sites info.decl.statements,
        .found ⟨columns 23 25, .variable (columns 19 21), .implicit, none⟩ ∈
          table.findingsAt info 0 site ∧ site.node.written? = some "id" ∧
        (info.scopeAt 0 site).lookup "id" = some ⟨.variable (columns 19 21), .named "int"⟩ :=
    ⟨_, _, rfl, rfl, rfl,
      ⟨_, List.mem_cons_self, List.mem_cons_self, rfl, _, rfl, rfl, rfl⟩,
      _, List.mem_cons_of_mem _ List.mem_cons_self, List.mem_cons_self, rfl, rfl⟩
  obtain ⟨table, info, h, hfuncs, hbody, ⟨site, hsite, hfound, hn, b, hb, href, htype⟩,
    site', hsite', hfound', hn', hlookup⟩ := hbuilt
  have hf : table.funcs[0]? = some info := by rw [hfuncs]; rfl
  have hapart : LocalsApart info.decl := by
    rw [LocalsApart, FuncDecl.locals, hbody]
    simp [nestedBody, Stmt.locals, Stmt.localDecl?, Stmt.children, columns]
  obtain ⟨hdeclared, huses⟩ := declared_as_bound h fun f info' hf' => by
    rw [hfuncs] at hf'
    cases List.mem_singleton.mp (List.mem_of_getElem? hf')
    exact hapart
  refine ⟨table, info, h, hfuncs, hapart, (huses _).mpr ?_, ?_⟩
  · refine ⟨0, info, _, hf, (mem_occurrences_iff hf).mpr ⟨site, hsite, hfound⟩, rfl,
      site, hsite, hfound, "id", _, _, hn, ?_, htype, rfl⟩
    exact href ▸ .binder hb
  · have ho := (mem_occurrences_iff hf).mpr ⟨site', hsite', hfound'⟩
    obtain ⟨declared, hdecl, _, hall⟩ := hdeclared 0 info hf _ ho
    obtain ⟨n, hwritten, _, _, hvariable⟩ := hall site' hsite' hfound'
    obtain ⟨type, hdeclaredType, hscope⟩ := hvariable fun _ heq => Referent.noConfusion heq
    cases hn'.symm.trans hwritten
    cases hlookup.symm.trans hscope
    exact ⟨declared, hdecl, hdeclaredType⟩

end MemberRefs.SymbolTable
