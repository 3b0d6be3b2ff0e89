import MemberRefs.Proofs.Except
import MemberRefs.Proofs.Source.Sort
import MemberRefs.Proofs.Table.Built
import MemberRefs.Selection

/-!
# Names that are declared outside of a selection

What the query for a selection answers, said without its loops: a name in the selection crosses its border
when what it refers to is declared outside (`Crosses`).

* `referentDecl?_eq_some_iff`: the declaration that a name refers to, for each kind of referent.
* `mem_outsideNames_iff`: what is collected are the names that cross.
* `outsideReferences_error_iff`: the query fails when the declaration of such a name has no range.
* `mem_outsideReferences_iff`, `pairwise_outsideReferences`: what an answer holds and in which order.
* `outsideReferences_exact`: the query as a whole.
-/

namespace MemberRefs

namespace OutsideReference

variable {a b : OutsideReference}

/-! ## 1. The order of answers -/

theorem before_iff : a.before b = true ↔
    a.reference.Before b.reference ∨ a.reference = b.reference ∧ a.declaration ≤ b.declaration := by
  rw [Span.before_iff, before]
  split
  · rename_i heq
    simp [heq]
  · rename_i hne
    simp [hne]

/-- **The strict order of answers**: the reference decides, then the declaration. -/
def Precedes (a b : OutsideReference) : Prop :=
  a.reference.Before b.reference ∨
    a.reference = b.reference ∧ a.declaration.Before b.declaration

theorem before_trans (a b c : OutsideReference) (hab : a.before b = true) (hbc : b.before c = true) :
    a.before c = true := by
  rw [before_iff] at *
  rcases hab with hab | ⟨hab, hab'⟩
  · rcases hbc with hbc | ⟨hbc, _⟩
    · exact .inl (hab.trans hbc)
    · exact .inl (hbc ▸ hab)
  · rcases hbc with hbc | ⟨hbc, hbc'⟩
    · exact .inl (hab ▸ hbc)
    · exact .inr ⟨hab.trans hbc, Span.le_trans hab' hbc'⟩

theorem before_total (a b : OutsideReference) : (a.before b || b.before a) = true := by
  rw [Bool.or_eq_true, before, before]
  split
  · rename_i heq
    rw [if_pos heq.symm]
    simpa using Span.le_total a.declaration b.declaration
  · rename_i hne
    rw [if_neg (Ne.symm hne)]
    simpa using Span.le_total a.reference b.reference

theorem before_antisymm (a b : OutsideReference) (hab : a.before b = true)
    (hba : b.before a = true) : a = b := by
  rw [before] at hab hba
  split at hab
  · rename_i heq
    rw [if_pos heq.symm] at hba
    have hdecl := Span.le_antisymm (of_decide_eq_true hab) (of_decide_eq_true hba)
    cases a; cases b; exact congrArg₂ mk hdecl heq
  · rename_i hne
    rw [if_neg (Ne.symm hne)] at hba
    exact absurd (Span.le_antisymm (of_decide_eq_true hab) (of_decide_eq_true hba)) hne

theorem precedes_of_before (hab : a.before b = true) (hne : a ≠ b) : a.Precedes b := by
  refine (before_iff.mp hab).imp_right fun ⟨hreference, hle⟩ => ⟨hreference, ?_⟩
  refine Span.before_iff.mpr ⟨hle, fun hdeclaration => hne ?_⟩
  cases a; cases b; exact congrArg₂ mk hdeclaration hreference

theorem Precedes.ne (h : a.Precedes b) : a ≠ b := by
  rintro rfl
  rcases h with h | ⟨_, h⟩
  · exact (Span.before_iff.mp h).2 rfl
  · exact (Span.before_iff.mp h).2 rfl

end OutsideReference

namespace SymbolTable

variable {table : SymbolTable} {selection span : Span} {f : FuncId} {decl : Decl}
  {rs : List OutsideReference}

/-! ## 2. Declarations of referents -/

/-- **The declaration of what a name refers to** in the body of the function `f`: of a member, of a
    parameter at its index, and of a local variable the first one with its name at the place. -/
inductive RefersTo (table : SymbolTable) (f : FuncId) : Referent → Decl → Prop
  | member {m : MemberId} {info : MemberInfo} (hm : table.members[m]? = some info) :
      RefersTo table f (.member m) info.decl.toDecl
  | parameter {g : FuncId} {index : Nat} {info : FuncInfo} {p : Param}
      (hg : table.funcs[g]? = some info) (hp : info.decl.params[index]? = some p) :
      RefersTo table f (.param g index) (.ofParam p)
  | localVariable {name : Span} {info : FuncInfo} {before after : List LocalDecl} {d : LocalDecl}
      (hf : table.funcs[f]? = some info) (hsplit : info.decl.locals = before ++ d :: after)
      (hd : d.name.span = name) (hfirst : ∀ e ∈ before, e.name.span ≠ name) :
      RefersTo table f (.variable name) (.ofLocal d)

theorem referentDecl?_eq_some_iff {referent : Referent} :
    table.referentDecl? f referent = some decl ↔ table.RefersTo f referent decl := by
  constructor
  · intro h
    match referent with
    | .member m =>
      obtain ⟨info, hm, rfl⟩ := Option.map_eq_some_iff.mp h
      exact .member hm
    | .param g index =>
      obtain ⟨info, hg, h⟩ := Option.bind_eq_some_iff.mp h
      obtain ⟨p, hp, h⟩ := Option.bind_eq_some_iff.mp h
      cases h
      exact .parameter hg hp
    | .variable name =>
      obtain ⟨info, hf, h⟩ := Option.bind_eq_some_iff.mp h
      obtain ⟨d, hd, h⟩ := Option.bind_eq_some_iff.mp h
      cases h
      obtain ⟨hname, before, after, hsplit, hfirst⟩ := List.find?_eq_some_iff_append.mp hd
      exact .localVariable hf hsplit (beq_iff_eq.mp hname) (by simpa using hfirst)
  · intro h
    cases h with
    | member hm => simp [referentDecl?, hm]
    | parameter hg hp => simp [referentDecl?, hg, hp]
    | @localVariable name info before after d hf hsplit hd hfirst =>
      have hfind : (info.decl.locals.find? fun d => d.name.span == name) = some d :=
        List.find?_eq_some_iff_append.mpr
          ⟨beq_iff_eq.mpr hd, before, after, hsplit, by simpa using hfirst⟩
      simp [referentDecl?, hf, hfind]

/-! ## 3. Names that cross -/

/-- **A name in a selection whose declaration is outside of it.** The function reaches into the selection,
    the name is in it, and what it refers to has a declaration that is not. -/
structure Crosses (table : SymbolTable) (selection : Span) (f : FuncId) (o : Occurrence)
    (decl : Decl) : Prop where
  reaches : ∃ info, table.funcs[f]? = some info ∧ info.decl.extent.intersects selection = true
  occurs : o ∈ (table.resolve f).occurrences
  inside : o.span.intersects selection = true
  declared : table.RefersTo f o.referent decl
  outside : decl.extent.intersects selection = false

theorem mem_outsideNamesIn_iff : (decl, span) ∈ table.outsideNamesIn selection f ↔
    ∃ o ∈ (table.resolve f).occurrences, o.span = span ∧ o.span.intersects selection = true ∧
      table.RefersTo f o.referent decl ∧ decl.extent.intersects selection = false := by
  simp only [outsideNamesIn, List.mem_filterMap, ← referentDecl?_eq_some_iff]
  refine exists_congr fun o => and_congr_right fun _ => ?_
  constructor
  · intro h
    split at h
    · rename_i hinside
      obtain ⟨d, hd, h⟩ := Option.bind_eq_some_iff.mp h
      split at h
      · cases h
      · rename_i houtside
        cases h
        exact ⟨rfl, hinside, hd, Bool.eq_false_iff.mpr houtside⟩
    · cases h
  · rintro ⟨rfl, hinside, hd, houtside⟩
    simp [hinside, hd, houtside]

/-- **What is collected are the names that cross.** -/
theorem mem_outsideNames_iff : (decl, span) ∈ table.outsideNames selection ↔
    ∃ f o, table.Crosses selection f o decl ∧ o.span = span := by
  rw [outsideNames, List.mem_flatMap]
  constructor
  · rintro ⟨f, hf, hmem⟩
    obtain ⟨o, ho, hspan, hinside, hdeclared, houtside⟩ := mem_outsideNamesIn_iff.mp hmem
    have htouches := (List.mem_filter.mp hf).2
    rw [touches, Option.any_eq_true] at htouches
    exact ⟨f, o, ⟨htouches, ho, hinside, hdeclared, houtside⟩, hspan⟩
  · rintro ⟨f, o, h, hspan⟩
    have htouches : table.touches selection f = true := by
      rw [touches, Option.any_eq_true]
      exact h.reaches
    obtain ⟨info, hf, _⟩ := h.reaches
    have hfunc : f ∈ table.funcIds := List.mem_range.mpr (List.getElem?_eq_some_iff.mp hf).1
    exact ⟨f, List.mem_filter.mpr ⟨hfunc, htouches⟩,
      mem_outsideNamesIn_iff.mpr ⟨o, h.occurs, hspan, h.inside, h.declared, h.outside⟩⟩

/-! ## 4. Answers -/

/-- The answer for one name. -/
def outsideReference (table : SymbolTable) (p : Decl × Span) : Answer OutsideReference :=
  (table.nameRange p.1).map fun range => ⟨range, p.2⟩

theorem outsideReference_eq_ok {p : Decl × Span} {r : OutsideReference} :
    table.outsideReference p = .ok r ↔ table.nameRange p.1 = .ok r.declaration ∧ p.2 = r.reference := by
  unfold outsideReference
  cases table.nameRange p.1 with
  | error e => exact iff_of_false nofun fun h => nomatch h.1
  | ok range =>
    cases r
    simp [Except.map]

theorem outsideReferences_eq_ok (h : table.outsideReferences selection = .ok rs) :
    ∃ found, (table.outsideNames selection).mapM table.outsideReference = .ok found ∧
      rs = (found.mergeSort OutsideReference.before).eraseReps := by
  obtain ⟨found, hfound, hrs⟩ := bind_eq_ok.mp h
  exact ⟨found, hfound, (Except.ok.inj hrs).symm⟩

theorem exists_outsideReferences_iff : (∃ rs, table.outsideReferences selection = .ok rs) ↔
    ∀ p ∈ table.outsideNames selection, ∃ r, table.outsideReference p = .ok r := by
  rw [← mapM_ok_iff]
  constructor
  · rintro ⟨rs, h⟩
    obtain ⟨found, hfound, _⟩ := outsideReferences_eq_ok h
    exact ⟨found, hfound⟩
  · rintro ⟨found, hfound⟩
    exact ⟨_, bind_eq_ok.mpr ⟨found, hfound, rfl⟩⟩

/-- **The query fails when the declaration of a name that crosses has no range.** -/
theorem outsideReferences_error_iff : (∃ e, table.outsideReferences selection = .error e) ↔
    ∃ f o decl, table.Crosses selection f o decl ∧ ∃ e, table.nameRange decl = .error e := by
  rw [exists_error_iff_not_ok, exists_outsideReferences_iff]
  constructor
  · intro h
    obtain ⟨⟨decl, span⟩, hmem, hfails⟩ : ∃ p ∈ table.outsideNames selection,
        ¬ ∃ r, table.outsideReference p = .ok r := by
      by_contra hnone
      exact h fun p hp => by_contra fun hfails => hnone ⟨p, hp, hfails⟩
    obtain ⟨f, o, hcrosses, _⟩ := mem_outsideNames_iff.mp hmem
    refine ⟨f, o, decl, hcrosses, exists_error_iff_not_ok.mpr fun ⟨range, hrange⟩ => hfails ?_⟩
    exact ⟨⟨range, span⟩, outsideReference_eq_ok.mpr ⟨hrange, rfl⟩⟩
  · rintro ⟨f, o, decl, hcrosses, e, he⟩ hall
    obtain ⟨r, hr⟩ := hall (decl, o.span) (mem_outsideNames_iff.mpr ⟨f, o, hcrosses, rfl⟩)
    rw [(outsideReference_eq_ok.mp hr).1] at he
    cases he

/-- **An answer holds the names that cross**, each with the range of the name of its declaration. -/
theorem mem_outsideReferences_iff (h : table.outsideReferences selection = .ok rs)
    {r : OutsideReference} : r ∈ rs ↔
      ∃ f o decl, table.Crosses selection f o decl ∧ o.span = r.reference ∧
        table.nameRange decl = .ok r.declaration := by
  obtain ⟨found, hfound, rfl⟩ := outsideReferences_eq_ok h
  rw [mem_sortedOnce OutsideReference.before_trans OutsideReference.before_total
    OutsideReference.before_antisymm]
  constructor
  · intro hr
    obtain ⟨⟨decl, span⟩, hmem, hone⟩ := exists_of_mem_mapM_ok hfound hr
    obtain ⟨hrange, hspan⟩ := outsideReference_eq_ok.mp hone
    obtain ⟨f, o, hcrosses, ho⟩ := mem_outsideNames_iff.mp hmem
    exact ⟨f, o, decl, hcrosses, ho.trans hspan, hrange⟩
  · rintro ⟨f, o, decl, hcrosses, hspan, hrange⟩
    have hmem : (decl, o.span) ∈ table.outsideNames selection :=
      mem_outsideNames_iff.mpr ⟨f, o, hcrosses, rfl⟩
    obtain ⟨r', hr', hone⟩ := exists_mem_of_mapM_ok hfound hmem
    rw [outsideReference_eq_ok.mpr ⟨hrange, hspan⟩] at hone
    cases hone
    exact hr'

/-- **An answer is strictly increasing.** -/
theorem pairwise_outsideReferences (h : table.outsideReferences selection = .ok rs) :
    rs.Pairwise OutsideReference.Precedes := by
  obtain ⟨found, _, rfl⟩ := outsideReferences_eq_ok h
  have hsorted := pairwise_sortedOnce OutsideReference.before_trans OutsideReference.before_total
    OutsideReference.before_antisymm found
  exact hsorted.imp fun ⟨hbefore, hne⟩ => OutsideReference.precedes_of_before hbefore hne

/-- **What a selection refers to outside of it.** The query fails exactly when the declaration of some name
    that crosses the border of the selection has no range for its name. Otherwise the answer is strictly
    increasing by the reference and then the declaration, so that nothing is in it twice, and it holds
    exactly the names that cross, each with the range of the name of its declaration. -/
theorem outsideReferences_exact (table : SymbolTable) (selection : Span) :
    ((∃ e, table.outsideReferences selection = .error e) ↔
      ∃ f o decl, table.Crosses selection f o decl ∧ ∃ e, table.nameRange decl = .error e) ∧
    ∀ rs, table.outsideReferences selection = .ok rs →
      rs.Pairwise OutsideReference.Precedes ∧ rs.Nodup ∧
        ∀ r, r ∈ rs ↔ ∃ f o decl, table.Crosses selection f o decl ∧ o.span = r.reference ∧
          table.nameRange decl = .ok r.declaration := by
  refine ⟨outsideReferences_error_iff, fun rs h => ?_⟩
  have hsorted := pairwise_outsideReferences h
  exact ⟨hsorted, hsorted.imp OutsideReference.Precedes.ne, fun _ => mem_outsideReferences_iff h⟩

/-- The place from one column of the first line to another. -/
def columns (start stop : Nat) : Span := ⟨⟨0, start⟩, ⟨0, stop⟩⟩

/-- The line `class Row { int id; int read() { return id; } };`, of whose tokens the first `id` is there. -/
def returnedUnit : SourceUnit :=
  let declared : SpannedName := ⟨"id", columns 16 18⟩
  let used : SpannedName := ⟨"id", columns 40 42⟩
  let reader : FuncDecl :=
    { bareFunc "read" [] (some [.ret (some (.ident used.span used))]) with extent := columns 20 46 }
  { bareUnit [.ofClass { bareClass "Row" [] [] with
      members := [.field ⟨declared, .named "int", false, columns 12 18⟩, .method reader] }] with
    tokens := [⟨.identifier, "id", declared.span⟩] }

/-- The selected statement uses the field, whose declaration is in front of it. -/
theorem outsideReferences_returnedUnit : ∃ table rs, build returnedUnit {} = .ok table ∧
    table.outsideReferences (columns 33 42) = .ok rs ∧ ⟨columns 16 18, columns 40 42⟩ ∈ rs ∧
    ∃ f o decl, table.Crosses (columns 33 42) f o decl ∧ o.span = columns 40 42 ∧
      table.nameRange decl = .ok (columns 16 18) := by
  have hanswer : ∃ table, build returnedUnit {} = .ok table ∧
      table.outsideReferences (columns 33 42) = .ok [⟨columns 16 18, columns 40 42⟩] :=
    ⟨_, rfl, by decide +kernel⟩
  obtain ⟨table, h, hanswer⟩ := hanswer
  obtain ⟨_, _, hmem⟩ := (outsideReferences_exact table (columns 33 42)).2 _ hanswer
  exact ⟨table, _, h, hanswer, List.mem_cons_self, (hmem _).mp List.mem_cons_self⟩

end SymbolTable

end MemberRefs
