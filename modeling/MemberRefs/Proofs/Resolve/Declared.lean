import MemberRefs.Proofs.Resolve.Soundness

/-!
# What a name is bound to is declared

The scope at a site is read off the lists of statements around it. Every variable in it is declared in the
function: a parameter at its index, and a local variable somewhere in the body. So each occurrence has one
declaration that the walk has bound its name to (`BoundTo`), a member that the name means in some class or
the first visible binder of the name.

* `mem_locals_of_mem_sites`: the local variables around a site are among those of the body.
* `lookup_of_found_variable`: what is no member is found through the scope.
* `exists_boundTo_of_found`: what every occurrence is bound to has the name written.
-/

namespace MemberRefs

open Stmt (locals localDecl? places placesList sites)

/-! ## 1. Local variables around a site -/

/-- The local variables that the lists of statements around a place declare. -/
def localsAround (enclosing : List (List Stmt)) : List LocalDecl :=
  enclosing.flatMap fun ss => ss.filterMap localDecl?

variable {d : LocalDecl} {s : Stmt} {ss before : List Stmt} {around enclosing : List (List Stmt)}

/-- One statement more in the innermost list adds the variable that it declares. -/
theorem mem_localsAround_snoc (h : d ∈ localsAround ((before ++ [s]) :: around)) (ss : List Stmt) :
    d ∈ localsAround (before :: around) ∨ d ∈ locals (s :: ss) := by
  rw [localsAround, List.flatMap_cons, List.filterMap_append, List.append_assoc,
    List.mem_append, List.mem_append] at h
  rcases h with hbefore | hown | haround
  · exact .inl (List.mem_append_left _ hbefore)
  · obtain ⟨t, ht, hd⟩ := List.mem_filterMap.mp hown
    cases List.mem_singleton.mp ht
    rw [Stmt.locals_cons, hd]
    exact .inr (List.mem_append_left _ (List.mem_append_left _ (List.mem_singleton_self d)))
  · exact .inl (List.mem_append_right _ haround)

/-- What the statement at the end of the innermost list declares, itself or in what it holds, is declared
    by the statements from there on. -/
theorem mem_locals_of_part (before : List Stmt)
    (h : d ∈ localsAround ((before ++ [s]) :: around) ∨ d ∈ locals s.children) (ss : List Stmt) :
    d ∈ localsAround (before :: around) ∨ d ∈ locals (s :: ss) := by
  rcases h with haround | hchildren
  · exact mem_localsAround_snoc haround ss
  · rw [Stmt.locals_cons]
    exact .inr (List.mem_append_left _ (List.mem_append_right _ hchildren))

mutual

/-- The variables around a place in a statement are those around the statement and those that the
    statements in it declare. -/
theorem mem_locals_of_mem_places : ∀ (s : Stmt) (enclosing : List (List Stmt)) {p : Place},
    p ∈ s.places enclosing → d ∈ localsAround p.enclosing →
      d ∈ localsAround enclosing ∨ d ∈ locals s.children
  | .decl _, _, _, hp, hd | .ret _, _, _, hp, hd => by
      obtain ⟨_, _, rfl⟩ := List.mem_map.mp hp
      exact .inl hd
  | .expr _, _, _, hp, hd => by
      cases List.mem_singleton.mp hp
      exact .inl hd
  | .block body, enclosing, _, hp, hd => mem_locals_of_mem_placesList body enclosing [] hp hd
  | .ifThen _ onTrue, enclosing, _, hp, hd | .loop _ onTrue, enclosing, _, hp, hd => by
      rcases List.mem_cons.mp hp with rfl | hp
      · exact .inl hd
      · exact mem_locals_of_part [] (mem_locals_of_mem_places onTrue _ hp hd) []
  | .ifElse _ onTrue onFalse, enclosing, _, hp, hd => by
      rcases List.mem_cons.mp hp with rfl | hp
      · exact .inl hd
      · rcases List.mem_append.mp hp with hp | hp
        · exact mem_locals_of_part [] (mem_locals_of_mem_places onTrue _ hp hd) _
        · have hfalse := mem_locals_of_part [] (mem_locals_of_mem_places onFalse _ hp hd) []
          refine hfalse.imp_right fun hlocal => ?_
          rw [Stmt.children, Stmt.locals_cons]
          exact List.mem_append_right _ hlocal

/-- The variables around a place in a list of statements are those around the list, those declared before
    in it, and those that the statements declare. -/
theorem mem_locals_of_mem_placesList :
    ∀ (ss : List Stmt) (around : List (List Stmt)) (before : List Stmt) {p : Place},
      p ∈ placesList around before ss → d ∈ localsAround p.enclosing →
        d ∈ localsAround (before :: around) ∨ d ∈ locals ss
  | s :: ss, around, before, _, hp, hd => by
      rcases List.mem_append.mp hp with hp | hp
      · exact mem_locals_of_part before (mem_locals_of_mem_places s _ hp hd) ss
      · rcases mem_locals_of_mem_placesList ss around (before ++ [s]) hp hd with haround | hlocal
        · exact mem_localsAround_snoc haround ss
        · rw [Stmt.locals_cons]
          exact .inr (List.mem_append_right _ hlocal)

end

/-- **The local variables around a site are among those of the body.** -/
theorem mem_locals_of_mem_sites {body : List Stmt} {site : Site} (hsite : site ∈ sites body)
    (hd : d ∈ localsAround site.enclosing) : d ∈ locals body := by
  obtain ⟨p, hp, hsite⟩ := List.mem_flatMap.mp hsite
  obtain ⟨v, _, rfl⟩ := List.mem_map.mp hsite
  -- no list of statements stands around the body
  exact (mem_locals_of_mem_placesList body [] [] hp hd).resolve_left List.not_mem_nil

/-! ## 2. Declarations of binders -/

namespace Binder

/-- The declaration of the variable that a binder binds. -/
def toDecl : Binder → Decl
  | .variable d => .ofLocal d
  | .param _ p => .ofParam p

theorem name?_toDecl (b : Binder) : b.toDecl.name?.map Spanned.val = b.name? := by
  cases b <;> rfl

theorem type?_toDecl (b : Binder) : b.toDecl.type? = some b.type := by
  cases b <;> rfl

end Binder

variable {decl : FuncDecl} {name : String}

theorem name?_of_firstBinder? {b : Binder} (hb : firstBinder? decl enclosing name = some b) :
    b.name? = some name := by
  have hname := List.find?_some hb
  exact beq_iff_eq.mp hname

/-- A parameter that binds a name stands at its index. -/
theorem getElem?_params_of_firstBinder? {index : Nat} {p : Param}
    (hb : firstBinder? decl enclosing name = some (.param index p)) :
    decl.params[index]? = some p := by
  rcases List.mem_append.mp (List.mem_of_find?_eq_some hb) with hvariable | hparam
  · obtain ⟨_, _, h⟩ := List.mem_map.mp hvariable
    cases h
  · obtain ⟨x, hx, h⟩ := List.mem_map.mp (List.mem_reverse.mp hparam)
    cases h
    exact List.mk_mem_zipIdx_iff_getElem?.mp hx

/-- A local variable that binds a name at a site is declared in the body. -/
theorem mem_locals_of_firstBinder? {site : Site} (hsite : site ∈ sites decl.statements)
    (hb : firstBinder? decl site.enclosing name = some (.variable d)) : d ∈ decl.locals := by
  refine mem_locals_of_mem_sites hsite ?_
  rcases List.mem_append.mp (List.mem_of_find?_eq_some hb) with hvariable | hparam
  · obtain ⟨d', hd', h⟩ := List.mem_map.mp hvariable
    cases h
    obtain ⟨ss, hss, hd⟩ := List.mem_flatMap.mp hd'
    exact List.mem_flatMap.mpr ⟨ss, hss, List.mem_reverse.mp hd⟩
  · obtain ⟨_, _, h⟩ := List.mem_map.mp (List.mem_reverse.mp hparam)
    cases h

/-! ## 3. The name written -/

/-- The name that an expression is written with; an operator stands for the function that overloads it. -/
def Expr.written? : Expr → Option String
  | .ident _ name | .paramRef _ name | .localRef _ name | .member _ _ _ name
  | .qualified _ _ name => some name.val
  | .unary _ op _ | .binary _ _ op _ => some (Name.ofOperator op.val)
  | .thisPtr _ | .call _ _ _ | .literal _ _ => none

namespace SymbolTable

variable {table : SymbolTable} {scope : Scope} {o : Occurrence} {info : FuncInfo} {f : FuncId}

/-- The name that an expression goes through a class to is the one written. -/
theorem written?_of_goesThrough {e : Expr} {form : Access} {c : ClassId}
    (h : GoesThrough table scope e form c name) : e.written? = some name := by
  cases h <;> rfl

/-- A bare name that means no member is a variable of the scope. -/
theorem lookup_of_readIdent {name : SpannedName} {call : Option Call}
    (ho : .found o ∈ (table.readIdent scope name call).findings)
    (hm : ∀ m, o.referent ≠ .member m) :
    ∃ b, scope.lookup name.val = some b ∧ b.referent = o.referent := by
  obtain ⟨referent, hres, rfl⟩ := found_of_readIdent ho
  rcases resolveBare_eq_ok hres with hvariable | ⟨_, _, _, m, _, _, _, href⟩
  · exact hvariable
  · exact absurd href (hm m)

/-- **What is no member is the variable that the scope binds the name written to.** -/
theorem lookup_of_found_variable {v : Visit} (ho : .found o ∈ v.findings table scope)
    (hm : ∀ m, o.referent ≠ .member m) :
    ∃ n b, v.node.written? = some n ∧ scope.lookup n = some b ∧ b.referent = o.referent := by
  obtain ⟨node, call⟩ := v
  cases node with
  | ident _ name => exact ⟨name.val, (lookup_of_readIdent ho hm).imp fun _ h => ⟨rfl, h⟩⟩
  | paramRef _ name | localRef _ name =>
    obtain ⟨b, hb, rfl⟩ := found_of_readBound ho
    exact ⟨name.val, b, rfl, hb, rfl⟩
  | member =>
    obtain ⟨_, _, m, _, _, _, rfl⟩ := found_of_readAccess ho
    exact absurd rfl (hm m)
  | qualified =>
    obtain ⟨m, _, rfl⟩ := found_of_readQualified ho
    exact absurd rfl (hm m)
  | unary | binary =>
    obtain ⟨_, m, _, _, rfl⟩ := found_of_operatorFindings ho
    exact absurd rfl (hm m)
  | thisPtr span => exact absurd ho (Visit.not_found_of_this rfl o)
  | call | literal => exact absurd ho List.not_mem_nil

/-! ## 4. Declarations of occurrences -/

/-- **The declaration that the walk binds a name to** at a site of a function body: that of a member, or
    that of the first visible binder of the name. -/
inductive BoundTo (table : SymbolTable) (info : FuncInfo) (f : FuncId) (site : Site) (n : String) :
    Referent → Decl → Prop
  | member {m : MemberId} {member : MemberInfo} (hm : table.members[m]? = some member)
      (hname : member.name = n) : BoundTo table info f site n (.member m) member.decl.toDecl
  | binder {b : Binder} (hb : firstBinder? info.decl site.enclosing n = some b) :
      BoundTo table info f site n (b.referent f) b.toDecl

variable {site : Site} {n : String} {referent : Referent} {declared : Decl}

/-- The declaration has the name. -/
theorem BoundTo.name? (h : BoundTo table info f site n referent declared) :
    declared.name?.map Spanned.val = some n := by
  cases h with
  | @member m member hm hname =>
    rw [← hname, MemberInfo.name]
    cases member.decl <;> rfl
  | @binder b hb => rw [b.name?_toDecl, name?_of_firstBinder? hb]

/-- The scope at the site binds the name to the variable, with the type of the declaration. -/
theorem BoundTo.lookup (h : BoundTo table info f site n referent declared)
    (hm : ∀ m, referent ≠ .member m) : ∃ type, declared.type? = some type ∧
      (info.scopeAt f site).lookup n = some ⟨referent, type⟩ := by
  cases h with
  | member hmember hname => exact absurd rfl (hm _)
  | @binder b hb =>
    refine ⟨b.type, b.type?_toDecl, ?_⟩
    rw [lookup_scopeAt, hb]
    rfl

/-- **Every occurrence is bound to a declaration with the name written.** -/
theorem exists_boundTo_of_found {unit : SourceUnit} {options : Options}
    (h : build unit options = .ok table) (ho : .found o ∈ table.findingsAt info f site) :
    ∃ n declared, site.node.written? = some n ∧ BoundTo table info f site n o.referent declared := by
  by_cases hm : ∃ m, o.referent = .member m
  · obtain ⟨m, hm⟩ := hm
    obtain ⟨c, n, ms, hway, hms, hmem⟩ := through_of_found (noMembers_scopeAt info f site) ho hm
    obtain ⟨member, hmember, hname, _⟩ := of_mem_lookupMember (wellFormed_of_build h) hms hmem
    rw [hm]
    exact ⟨n, _, written?_of_goesThrough hway, .member hmember hname⟩
  · obtain ⟨n, b, hn, hb, href⟩ := lookup_of_found_variable ho fun m heq => hm ⟨m, heq⟩
    rw [lookup_scopeAt] at hb
    obtain ⟨binder, hbinder, rfl⟩ := Option.map_eq_some_iff.mp hb
    rw [← href]
    exact ⟨n, _, hn, .binder hbinder⟩

end SymbolTable

end MemberRefs
