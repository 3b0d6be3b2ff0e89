import Mathlib.Data.List.Flatten
import MemberRefs.Proofs.Resolve.Site
import MemberRefs.Proofs.Source.Sort

/-!
# Nothing lost and nothing twice

The two lists of a resolution, taken together, are the findings of the walk in another order. They are
told apart by the expressions that they are found at: one for every name, at most one for every operator
and for every word `this`, and none for anything else.

* `entries_perm`: the entries of a resolution are the findings of the walk.
* `kinds_perm`: findings are those of names, of words `this` and of operators.
* `resolve_census`: how often a name, an operator and a word `this` is entered, and in which order.
-/

namespace MemberRefs

/-! ## 1. Entries -/

/-- Everything that a resolution says about the names of a body. -/
def Resolution.entries (r : Resolution) : List Finding :=
  r.occurrences.map .found ++ r.unresolved.map .missing

/-- Every finding is an occurrence or a failure. -/
theorem found_append_missing_perm (findings : List Finding) :
    ((findings.filterMap Finding.occurrence?).map Finding.found ++
      (findings.filterMap Finding.unresolved?).map Finding.missing).Perm findings := by
  induction findings with
  | nil => exact .refl _
  | cons x findings ih =>
    cases x with
    | found o => exact .cons _ ih
    | missing reason => exact List.perm_middle.trans (.cons _ ih)

/-- **The entries of a resolution are the findings that it is made of.** -/
theorem entries_perm (f : FuncId) (findings : List Finding) :
    (Resolution.ofFindings f findings).entries.Perm findings :=
  (((List.mergeSort_perm _ _).map _).append ((List.mergeSort_perm _ _).map _)).trans
    (found_append_missing_perm findings)

namespace SymbolTable

variable {table : SymbolTable} {info : FuncInfo} {f : FuncId}

/-! ## 2. Findings by the kind of expression -/

/-- What is found at a site, when its expression is of the kind that `place?` gives a place. -/
def findingsOf (table : SymbolTable) (info : FuncInfo) (f : FuncId) (place? : Expr → Option Span)
    (site : Site) : List Finding :=
  if (place? site.node).isSome then table.findingsAt info f site else []

/-- A site is one of a name, of a word `this`, of an operator, or finds nothing. -/
theorem findingsOf_kinds (site : Site) :
    table.findingsOf info f Expr.nameSpan? site ++
      (table.findingsOf info f Expr.thisSpan? site ++
        table.findingsOf info f Expr.operatorSpan? site) = table.findingsAt info f site := by
  obtain ⟨enclosing, node, call⟩ := site
  cases node with
  | call | literal => rfl
  | ident | paramRef | localRef | member | qualified | thisPtr | unary | binary =>
    simp [findingsOf, Site.node, Expr.nameSpan?, Expr.thisSpan?, Expr.operatorSpan?]

/-- **Findings are those of names, of words `this` and of operators.** -/
theorem kinds_perm (sites : List Site) :
    (sites.flatMap (table.findingsOf info f Expr.nameSpan?) ++
      (sites.flatMap (table.findingsOf info f Expr.thisSpan?) ++
        sites.flatMap (table.findingsOf info f Expr.operatorSpan?))).Perm
      (sites.flatMap (table.findingsAt info f)) := by
  refine ((List.flatMap_append_perm sites _ _).append_left _).trans ?_
  refine (List.flatMap_append_perm sites _ _).trans ?_
  rw [List.flatMap_congr fun site _ => findingsOf_kinds site]

/-- A name is entered once. -/
theorem spans_findingsOf_name (site : Site) :
    (table.findingsOf info f Expr.nameSpan? site).map Finding.span =
      (Expr.nameSpan? site.node).toList := by
  cases hname : Expr.nameSpan? site.node with
  | none => simp [findingsOf, hname]
  | some span =>
    obtain ⟨x, hx, hspan⟩ := @Visit.findings_of_name table (info.scopeAt f site) site.visit _ hname
    have hat : table.findingsAt info f site = [x] := hx
    simp [findingsOf, hname, hat, hspan]

/-- A word `this` is entered where it means no object. -/
theorem findingsOf_this (site : Site) :
    table.findingsOf info f Expr.thisSpan? site = [] ∨
      ∃ span, Expr.thisSpan? site.node = some span ∧
        table.findingsOf info f Expr.thisSpan? site = [.missing ⟨.noEnclosingClass, span⟩] := by
  unfold findingsOf
  cases hthis : Expr.thisSpan? site.node with
  | none => exact Or.inl rfl
  | some span =>
    have hat : table.findingsAt info f site = [] ∨
        table.findingsAt info f site = [.missing ⟨.noEnclosingClass, span⟩] :=
      Visit.findings_of_this hthis
    exact hat.imp id fun hat => ⟨span, rfl, hat⟩

/-- A word `this` is entered at most once. -/
theorem spans_findingsOf_this (site : Site) :
    ((table.findingsOf info f Expr.thisSpan? site).map Finding.span).Sublist
      (Expr.thisSpan? site.node).toList := by
  rcases @findingsOf_this table info f site with hnil | ⟨span, hthis, hat⟩
  · simp [hnil]
  · simp [hthis, hat, Finding.span]

/-- An operator is entered at most once. -/
theorem spans_findingsOf_operator (site : Site) :
    ((table.findingsOf info f Expr.operatorSpan? site).map Finding.span).Sublist
      (Expr.operatorSpan? site.node).toList := by
  cases hop : Expr.operatorSpan? site.node with
  | none => simp [findingsOf, hop]
  | some span =>
    have hat : AtMostOnceAt span (table.findingsAt info f site) :=
      Visit.findings_of_operator hop
    cases hfindings : table.findingsAt info f site with
    | nil => simp [findingsOf, hop, hfindings]
    | cons x rest =>
      rw [hfindings] at hat
      cases hat with
      | once _ hx => simp [findingsOf, hop, hfindings, hx]

/-- What is found at words `this` is that there is no object. -/
theorem noEnclosingClass_of_findingsOf_this {site : Site} {x : Finding}
    (hx : x ∈ table.findingsOf info f Expr.thisSpan? site) :
    ∃ span, x = .missing ⟨.noEnclosingClass, span⟩ := by
  rcases @findingsOf_this table info f site with hnil | ⟨span, _, hat⟩
  · exact absurd (hnil ▸ hx) List.not_mem_nil
  · exact ⟨span, List.mem_singleton.mp (hat ▸ hx)⟩

/-! ## 3. The census of a body -/

/-- The places that the expressions of a body have by their kind are those at its sites. -/
theorem flatMap_place?_perm (place? : Expr → Option Span) (body : List Stmt) :
    ((Stmt.sites body).flatMap fun site => (place? site.node).toList).Perm
      ((Stmt.exprsWithin body).filterMap place?) := by
  have hsites : ((Stmt.sites body).flatMap fun site => (place? site.node).toList) =
      ((Stmt.sites body).map Site.node).filterMap place? := by
    rw [List.filterMap_eq_flatMap_toList, List.flatMap_map]
  rw [hsites]
  exact (map_node_sites_perm body).filterMap place?

/-- Where every site enters at most one finding of a kind, so does every expression of that kind. -/
theorem spans_subperm {place? : Expr → Option Span} (body : List Stmt)
    (h : ∀ site, ((table.findingsOf info f place? site).map Finding.span).Sublist
      (place? site.node).toList) :
    (((Stmt.sites body).flatMap (table.findingsOf info f place?)).map Finding.span).Subperm
      ((Stmt.exprsWithin body).filterMap place?) := by
  rw [List.map_flatMap]
  exact (List.Sublist.flatMap_right _ fun site _ => h site).subperm.trans
    (flatMap_place?_perm place? body).subperm

/-- All expressions of the body of a function, parts of expressions included. -/
def bodyExprs (table : SymbolTable) (f : FuncId) : List Expr :=
  match table.funcs[f]? with
  | some info => Stmt.exprsWithin info.decl.statements
  | none => []

/-- The entries of a resolution, by the kind of expression that they are found at. -/
theorem exists_census (table : SymbolTable) (f : FuncId) :
    ∃ names words operators, (table.findings f).Perm (names ++ (words ++ operators)) ∧
      (names.map Finding.span).Perm ((table.bodyExprs f).filterMap Expr.nameSpan?) ∧
      (words.map Finding.span).Subperm ((table.bodyExprs f).filterMap Expr.thisSpan?) ∧
      (∀ x ∈ words, ∃ span, x = .missing ⟨.noEnclosingClass, span⟩) ∧
      (operators.map Finding.span).Subperm ((table.bodyExprs f).filterMap Expr.operatorSpan?) := by
  cases hf : table.funcs[f]? with
  | none => exact ⟨[], [], [], by simp [findings, scopedExprs, bodyExprs, hf]⟩
  | some info =>
    have hbody : table.bodyExprs f = Stmt.exprsWithin info.decl.statements := by
      simp [bodyExprs, hf]
    rw [hbody, findings_eq_flatMap_sites hf]
    refine ⟨_, _, _, (kinds_perm _).symm, ?_, spans_subperm _ spans_findingsOf_this,
      fun x hx => ?_, spans_subperm _ spans_findingsOf_operator⟩
    · rw [List.map_flatMap, List.flatMap_congr fun site _ => spans_findingsOf_name site]
      exact flatMap_place?_perm _ _
    · obtain ⟨site, _, hx⟩ := List.mem_flatMap.mp hx
      exact noEnclosingClass_of_findingsOf_this hx

/-- **No name is lost, and none is entered twice.** The entries of a resolution are one for every name of
    the body, at most one for every word `this`, which then means no object, and at most one for every
    operator. Both lists are in the order of the locations where their entries start, and entries that
    start at one location are in the order of the walk. -/
theorem resolve_census (table : SymbolTable) (f : FuncId) :
    (∃ names words operators,
      (table.resolve f).entries.Perm (names ++ (words ++ operators)) ∧
      (names.map Finding.span).Perm ((table.bodyExprs f).filterMap Expr.nameSpan?) ∧
      (words.map Finding.span).Subperm ((table.bodyExprs f).filterMap Expr.thisSpan?) ∧
      (∀ x ∈ words, ∃ span, x = .missing ⟨.noEnclosingClass, span⟩) ∧
      (operators.map Finding.span).Subperm
        ((table.bodyExprs f).filterMap Expr.operatorSpan?)) ∧
    (table.resolve f).occurrences.Pairwise (fun a b => a.span.start ≤ b.span.start) ∧
    (table.resolve f).unresolved.Pairwise (fun a b => a.span.start ≤ b.span.start) ∧
    ∀ place,
      (table.resolve f).occurrences.filter (fun a => decide (a.span.start = place)) =
        ((table.findings f).filterMap Finding.occurrence?).filter
          (fun a => decide (a.span.start = place)) ∧
      (table.resolve f).unresolved.filter (fun a => decide (a.span.start = place)) =
        ((table.findings f).filterMap Finding.unresolved?).filter
          (fun a => decide (a.span.start = place)) := by
  obtain ⟨names, words, operators, hperm, hcensus⟩ := exists_census table f
  refine ⟨⟨names, words, operators, (entries_perm f _).trans hperm, hcensus⟩, ?_, ?_,
    fun place => ⟨?_, ?_⟩⟩
  · exact pairwise_sorted (fun o : Occurrence => o.span.start) _
  · exact pairwise_sorted (fun u : Spanned Unresolved => u.span.start) _
  · exact filter_sorted (fun o : Occurrence => o.span.start) _ place
  · exact filter_sorted (fun u : Spanned Unresolved => u.span.start) _ place

end SymbolTable

end MemberRefs
