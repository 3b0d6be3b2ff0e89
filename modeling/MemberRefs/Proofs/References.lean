import Mathlib.Data.List.Perm.Lattice
import MemberRefs.Proofs.Resolve.Soundness
import MemberRefs.Proofs.Source.Sort
import MemberRefs.Proofs.Table.Targets
import MemberRefs.References

/-!
# References are exact

The references to one member are picked out of the occurrences of all function bodies. Taken together, the
lists of all members are these occurrences again, each one once and under the member that it refers to.

* `map_referencesIn`: what is picked out of one body.
* `memberReferences_perm`: the list of one member.
* `references_exact`: the lists of all members, and which declaration gives which of them.
-/

namespace MemberRefs

/-! ## 1. Sorting into classes -/

/-- Elements sorted into classes by a key are the same elements, when the keys of all of them are there. -/
theorem flatMap_filter_perm {α κ : Type} [DecidableEq κ] (key : α → κ) : ∀ {keys : List κ}
    {xs : List α}, keys.Nodup → (∀ x ∈ xs, key x ∈ keys) →
    (keys.flatMap fun k => xs.filter fun x => decide (key x = k)).Perm xs
  | [], xs, _, hkeys => by
      have hnil : xs = [] := List.eq_nil_iff_forall_not_mem.mpr fun x hx =>
        absurd (hkeys x hx) List.not_mem_nil
      simp [hnil]
  | k :: keys, xs, hnodup, hkeys => by
      obtain ⟨hk, hnodup⟩ := List.nodup_cons.mp hnodup
      -- the elements with another key than `k` are sorted into the other classes
      have hrest : (keys.flatMap fun k' => xs.filter fun x => decide (key x = k')).Perm
          (xs.filter fun x => !decide (key x = k)) := by
        have hkeys' : ∀ x ∈ xs.filter fun x => !decide (key x = k), key x ∈ keys := by
          intro x hx
          obtain ⟨hmem, hne⟩ := List.mem_filter.mp hx
          exact (List.mem_cons.mp (hkeys x hmem)).resolve_left (by simpa using hne)
        have hothers := flatMap_filter_perm key hnodup hkeys'
        refine List.Perm.trans (List.Perm.of_eq (List.flatMap_congr fun k' hk' => ?_)) hothers
        rw [List.filter_filter]
        refine List.filter_congr fun x _ => ?_
        by_cases hx : key x = k'
        · have hne : k' ≠ k := fun e => hk (e ▸ hk')
          simp [hx, hne]
        · simp [hx]
      exact (hrest.append_left _).trans (List.filter_append_perm _ xs)

/-! ## 2. Occurrences of members -/

/-- The member that a referent is. -/
def Referent.member? : Referent → Option MemberId
  | .member m => some m
  | _ => none

namespace SymbolTable

variable {unit : SourceUnit} {options : Options} {table : SymbolTable}

/-- The occurrences of members in one function body, each one with its member. -/
def memberUsesIn (table : SymbolTable) (f : FuncId) : List (MemberId × Reference) :=
  (table.resolve f).occurrences.filterMap fun o =>
    o.referent.member?.map fun m => (m, o.toReference f)

/-- The occurrences of members in all function bodies, each one with its member. -/
def memberUses (table : SymbolTable) : List (MemberId × Reference) :=
  table.funcIds.flatMap table.memberUsesIn

/-- What an occurrence refers to is a member of the table. -/
theorem mem_memberIds_of_mem_memberUses (h : build unit options = .ok table)
    {x : MemberId × Reference} (hx : x ∈ table.memberUses) : x.1 ∈ table.memberIds := by
  obtain ⟨f, hf, hx⟩ := List.mem_flatMap.mp hx
  obtain ⟨o, ho, hx⟩ := List.mem_filterMap.mp hx
  obtain ⟨m, hm, rfl⟩ := Option.map_eq_some_iff.mp hx
  have href : o.referent = .member m := by
    cases hreferent : o.referent with
    | member n => rw [hreferent] at hm; cases hm; rfl
    | _ => rw [hreferent] at hm; cases hm
  have hfunc := List.getElem?_eq_getElem (List.mem_range.mp hf)
  obtain ⟨site, _, hfound⟩ := (mem_occurrences_iff hfunc).mp ho
  obtain ⟨_, _, ms, _, hms, hmem⟩ := through_of_found (noMembers_scopeAt _ f site) hfound href
  obtain ⟨info, hinfo, _⟩ := of_mem_lookupMember (wellFormed_of_build h) hms hmem
  exact List.mem_range.mpr (List.getElem?_eq_some_iff.mp hinfo).1

/-- **The references picked out of one body** are its occurrences of the member. -/
theorem map_referencesIn (m : MemberId) (f : FuncId) :
    (table.referencesIn m f).map (fun r => (m, r)) =
      (table.memberUsesIn f).filter fun x => decide (x.1 = m) := by
  rw [referencesIn, Resolution.occurrencesOf, memberUsesIn, List.map_map]
  induction (table.resolve f).occurrences with
  | nil => rfl
  | cons o os ih =>
    cases href : o.referent with
    | member n =>
      by_cases hn : n = m
      · subst hn
        simp [href, Referent.member?, ih]
      · have hne : (Referent.member n == Referent.member m) = false :=
          beq_false_of_ne fun heq => hn (Referent.member.inj heq)
        simp [href, Referent.member?, hn, hne, ih]
    | _ => simp [href, Referent.member?, ih]

/-- **The references to a member** are the occurrences of it in all bodies. -/
theorem memberReferences_perm (m : MemberId) :
    ((table.memberReferences m).map fun r => (m, r)).Perm
      (table.memberUses.filter fun x => decide (x.1 = m)) := by
  calc ((table.memberReferences m).map fun r => (m, r)).Perm
        ((table.funcIds.flatMap (table.referencesIn m)).map fun r => (m, r)) :=
        (List.mergeSort_perm _ _).map _
    _ = table.memberUses.filter fun x => decide (x.1 = m) := by
        rw [memberUses, List.map_flatMap, List.filter_flatMap]
        exact List.flatMap_congr fun f _ => map_referencesIn m f

/-! ## 3. All members -/

/-- The references of all members are the occurrences of members in all bodies. -/
theorem memberReferences_partition (h : build unit options = .ok table) :
    (table.memberIds.flatMap fun m => (table.memberReferences m).map fun r => (m, r)).Perm
      table.memberUses :=
  (List.Perm.flatMap_left _ fun m _ => memberReferences_perm m).trans
    (flatMap_filter_perm Prod.fst List.nodup_range fun _ => mem_memberIds_of_mem_memberUses h)

/-- The references to what a declaration of a member declares. -/
theorem findReferences_of_declaresAt (h : build unit options = .ok table) {m : MemberId}
    {info : MemberInfo} (hm : table.members[m]? = some info) {path : DeclPath}
    (hpath : declaresAt info path = true) (decl : Decl) :
    table.findReferences ⟨decl, some path⟩ = .ok (table.memberReferences m) := by
  rw [findReferences, memberOf_of_declaresAt h hm hpath]
  rfl

/-- **References are exact.** The lists of all members together are the occurrences of members in all
    function bodies, each one once and in the list of its own member; each list is in the order of the
    locations. The list of a member is what its declaration in the class gives and what every definition
    of it gives. A declaration of the unit that stands for no member gives a failure, and so does a copy
    of any declaration. -/
theorem references_exact (h : build unit options = .ok table) :
    (table.memberIds.flatMap fun m => (table.memberReferences m).map fun r => (m, r)).Perm
        table.memberUses ∧
      (∀ m, (table.memberReferences m).Pairwise fun a b => a.span.start ≤ b.span.start) ∧
      (∀ m info, table.members[m]? = some info →
        (unit.declRef? info.path = some ⟨info.decl.toDecl, some info.path⟩ ∧
          table.findReferences ⟨info.decl.toDecl, some info.path⟩ =
            .ok (table.memberReferences m)) ∧
        ∀ d ∈ info.definitions, unit.declRef? d.path = some ⟨.ofFunc d.decl, some d.path⟩ ∧
          table.findReferences ⟨.ofFunc d.decl, some d.path⟩ = .ok (table.memberReferences m)) ∧
      ∀ path ref, unit.declRef? path = some ref →
        (ref.Memberless → table.findReferences ref = .error (noMember ref)) ∧
        table.findReferences ref.copy = .error (noMember ref) := by
  refine ⟨memberReferences_partition h, fun m => pairwise_sorted (fun r : Reference => r.span.start) _,
    fun m info hm => ⟨⟨?_, ?_⟩, fun d hd => ⟨?_, ?_⟩⟩, fun path ref href => ⟨fun hless => ?_, ?_⟩⟩
  · rw [SourceUnit.declRef?, (decl?_path h hm).1]
    rfl
  · exact findReferences_of_declaresAt h hm (declaresAt_iff.mpr (.inl rfl)) _
  · obtain ⟨i, hpath, hfunc, _⟩ := decl?_definition h hm hd
    simp [SourceUnit.declRef?, hpath, SourceUnit.decl?, hfunc]
  · exact findReferences_of_declaresAt h hm (declaresAt_iff.mpr (.inr ⟨d, hd, rfl⟩)) _
  · rw [findReferences, memberOf_of_memberless h href hless]
    rfl
  · rw [findReferences, memberOf_copy]
    rfl

/-- A definition whose body names a field of the class. -/
def definitionOfRead : FuncDecl :=
  bareDefinition "Widget" "read" [] (some [.expr (.ident Span.atStart (bareName "id"))])

/-- A class with a field and a method, a definition of the method and a function without a class. -/
def definedUnit : SourceUnit :=
  bareUnit [.ofClass { bareClass "Widget" [] ["id"] with
      members := (bareClass "Widget" [] ["id"]).members ++ [.method (bareFunc "read" [] none)] },
    .ofFunc definitionOfRead, .ofFunc (bareFunc "main" [] (some []))]

/-- The field has the one reference, the definition gives the method, and the function gives nothing. -/
theorem references_definedUnit : ∃ table, build definedUnit {} = .ok table ∧
    (table.memberIds.flatMap fun m => (table.memberReferences m).map fun r => (m, r)) =
      [(0, ⟨Span.atStart, 0, .implicit⟩)] ∧
    table.findReferences ⟨.ofFunc definitionOfRead, some (.top 1)⟩ =
      .ok (table.memberReferences 1) ∧
    table.findReferences ⟨.ofFunc (bareFunc "main" [] (some [])), some (.top 2)⟩ =
      .error ⟨.invalidTarget "main", Span.atStart⟩ := by
  have htable : ∃ table info, build definedUnit {} = .ok table ∧ table.members[1]? = some info ∧
      info.definitions = [⟨definitionOfRead, .top 1⟩] ∧ table.funcIds = [0, 1] ∧
      table.findings 0 = [.found ⟨Span.atStart, .member 0, .implicit, none⟩] ∧
      table.findings 1 = [] := ⟨_, _, rfl, rfl, rfl, rfl, rfl, rfl⟩
  obtain ⟨table, info, h, hm, hdefinitions, hids, hfirst, hsecond⟩ := htable
  obtain ⟨hperm, _, hmembers, hothers⟩ := references_exact h
  have huses : table.memberUses = [(0, ⟨Span.atStart, 0, .implicit⟩)] := by
    simp [memberUses, hids, memberUsesIn, resolve, Resolution.ofFindings, hfirst, hsecond,
      Finding.occurrence?, Referent.member?, Occurrence.toReference]
  refine ⟨table, h, List.perm_singleton.mp (huses ▸ hperm), ?_, ?_⟩
  · exact ((hmembers 1 info hm).2 _ (hdefinitions ▸ List.mem_singleton_self _)).2
  · exact (hothers (.top 2) _ rfl).1 ⟨⟨2, rfl⟩, rfl⟩

end SymbolTable

end MemberRefs
