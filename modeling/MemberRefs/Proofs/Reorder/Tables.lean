import MemberRefs.Proofs.Reorder.Resolved
import MemberRefs.Proofs.Reorder.Units
import MemberRefs.Proofs.Source.Sort
import MemberRefs.Proofs.Table.Contents

/-!
# Tables of units in another order

The order in which a unit has its top-level declarations decides which numbers its table gives out, and
nothing else. What the tables of two orders have at corresponding numbers is compared part by part; the
parts are linked by names, paths and signatures, which do not depend on the order.

* `Induced.renumbered`: the table of a unit in another order is its table with new numbers.
* `queries_of_rearranged`: every query has the same answer, whatever the order is.
-/

namespace MemberRefs

/-! ## 1. Lists side by side -/

/-- What stands beside the same elements in two lists, and is determined by it, is mapped. -/
theorem eq_map_of_forall₂ {α β γ : Type} {R : α → β → Prop} {R' : α → γ → Prop} {f : β → γ}
    (hf : ∀ a b c, R a b → R' a c → c = f b) {as : List α} {bs : List β} {cs : List γ}
    (h : List.Forall₂ R as bs) (h' : List.Forall₂ R' as cs) : cs = bs.map f := by
  induction h generalizing cs with
  | nil =>
    cases h'
    rfl
  | cons hab _ ih =>
    cases h' with
    | cons hac h' => rw [List.map_cons, hf _ _ _ hab hac, ih h']

/-- What stands at one place of two lists side by side. -/
theorem rel_getElem?_of_forall₂ {α β : Type} {R : α → β → Prop} {as : List α} {bs : List β}
    (h : List.Forall₂ R as bs) (i : Nat) : Option.Rel R as[i]? bs[i]? := by
  induction h generalizing i with
  | nil => exact .none
  | cons hab _ ih =>
    cases i with
    | zero => exact .some hab
    | succ i => exact ih i

namespace SymbolTable

variable {unit : SourceUnit} {options : Options} {table : SymbolTable}

/-! ## 2. What a table has at a number -/

theorem map_decl_getElem?_classes (h : build unit options = .ok table) (c : ClassId) :
    (table.classes[c]?).map ClassInfo.decl = unit.classes[c]? := by
  obtain ⟨bases, owners, _, _, hlink, _, _, rfl⟩ := build_eq_ok h
  rw [← List.getElem?_map, ← map_decl_classes (length_of_linkBases hlink)]
  rfl

theorem map_site_getElem?_members (h : build unit options = .ok table) (m : MemberId) :
    (table.members[m]?).map (fun info => (info.decl, info.path)) = (memberSites unit)[m]? := by
  obtain ⟨bases, owners, _, _, _, _, _, rfl⟩ := build_eq_ok h
  rw [getElem?_members_withFuncs, Option.map_map, memberSites, List.getElem?_map]
  rfl

/-- A class is found by its name. -/
theorem classNamed?_iff (h : build unit options = .ok table) {name : String} {c : ClassId} :
    table.classNamed? name = some c ↔ ∃ d, unit.classes[c]? = some d ∧ d.name.val = name := by
  have hdistinct := (accepted_of_build h).distinct
  obtain ⟨bases, owners, _, _, hlink, _, _, rfl⟩ := build_eq_ok h
  have hnamed := classNamed?_ofClasses (length_of_linkBases hlink) name
  have hindex : ((ofClasses unit bases).withFuncs owners).classNamed? name =
      classIndex? unit.classes name := hnamed
  rw [hindex]
  constructor
  · exact exists_of_classIndex?
  · rintro ⟨d, hd, rfl⟩
    exact classIndex?_name hdistinct hd

/-- The bases of a class stand beside the names that it has for them. -/
theorem forall₂_bases (h : build unit options = .ok table) {c : ClassId} {d : ClassDecl}
    (hc : unit.classes[c]? = some d) :
    List.Forall₂ (fun base b => table.classNamed? base.val = some b) d.bases (table.bases c) := by
  obtain ⟨bases, owners, _, _, hlink, _, _, rfl⟩ := build_eq_ok h
  have hlen := length_of_linkBases hlink
  have hbases : ((ofClasses unit bases).withFuncs owners).bases = basesAt bases :=
    bases_ofClasses hlen
  rw [hbases]
  refine (mapM_ok (mapM_baseId_eq hlink hc)).imp fun base b hb => ?_
  exact (classNamed?_ofClasses hlen base.val).trans (baseId_eq_ok hb)

/-- The members of a class stand beside their places in it. -/
theorem forall₂_memberSites (h : build unit options = .ok table) {c : ClassId} {d : ClassDecl}
    {i : Nat} (hc : (classPositions unit)[c]? = some (d, i)) :
    List.Forall₂ (fun (member : MemberDecl × Nat) m =>
        (memberSites unit)[m]? = some (member.1, .member i member.2))
      d.members.zipIdx (table.membersOf c) := by
  obtain ⟨bases, owners, _, _, hlink, _, _, rfl⟩ := build_eq_ok h
  refine (forall₂_membersOf (length_of_linkBases hlink) hc).imp fun member m hm => ?_
  rw [memberSites, List.getElem?_map, hm]
  rfl

/-- No definition is listed twice. -/
theorem nodup_definitions (h : build unit options = .ok table) {m : MemberId} {info : MemberInfo}
    (hm : table.members[m]? = some info) : info.definitions.Nodup := by
  obtain ⟨bases, owners, _, _, _, _, _, rfl⟩ := build_eq_ok h
  obtain ⟨_, _, rfl⟩ := exists_of_getElem?_members hm
  exact (pairwise_definitionsOf _ _).imp fun hlt heq => absurd (heq ▸ hlt) (List.lt_irrefl _)

/-- A class that lists members is a class of the unit. -/
theorem exists_class_of_mem_membersOf (h : build unit options = .ok table) {c : ClassId} {m : MemberId}
    (hm : m ∈ table.membersOf c) : ∃ d, unit.classes[c]? = some d := by
  rw [← map_decl_getElem?_classes h]
  unfold membersOf at hm
  split at hm
  · rename_i info hc
    exact ⟨info.decl, congrArg (Option.map ClassInfo.decl) hc⟩
  · exact absurd hm List.not_mem_nil

end SymbolTable

open SymbolTable

/-- A member is declared and defined at the moved paths. -/
theorem MemberInfo.Renumbered.declaresAt_iff {r : Renumbering} {info info' : MemberInfo}
    (hinfo : info.Renumbered r info') {path : DeclPath} :
    declaresAt info' (path.move r.decls) = true ↔ declaresAt info path = true := by
  have hpath := DeclPath.move_injective r.decls
  rw [SymbolTable.declaresAt_iff, SymbolTable.declaresAt_iff, hinfo.path, hpath.eq_iff]
  simp [hinfo.definitions.mem_iff, Definition.renumber, hpath.eq_iff]

namespace Induced

variable {r : Renumbering} {unit unit' : SourceUnit} {options options' : Options}
  {table table' : SymbolTable}

theorem getElem?_classPositions (hi : Induced r unit unit') (c : ClassId) :
    (classPositions unit')[r.classes c]? = ((classPositions unit)[c]?).map (Prod.map id r.decls) := by
  rw [hi.classes c, List.getElem?_map]

theorem getElem?_classes (hi : Induced r unit unit') (c : ClassId) :
    unit'.classes[r.classes c]? = unit.classes[c]? := by
  rw [← map_fst_classPositions, ← map_fst_classPositions, List.getElem?_map, List.getElem?_map,
    hi.getElem?_classPositions, Option.map_map]
  rfl

theorem getElem?_memberSites (hi : Induced r unit unit') (m : MemberId) :
    (memberSites unit')[r.members m]? =
      ((memberSites unit)[m]?).map (Prod.map id (DeclPath.move r.decls)) := by
  rw [hi.members m, List.getElem?_map]

section Tables

variable (hi : Induced r unit unit') (h : build unit options = .ok table)
  (h' : build unit' options' = .ok table')

include hi h h'

/-! ## 3. Classes -/

theorem named (name : String) :
    table'.classNamed? name = (table.classNamed? name).map r.classes := by
  refine Option.ext fun c' => ?_
  obtain ⟨c, rfl⟩ := r.classes.surjective c'
  rw [classNamed?_iff h', hi.getElem?_classes, Option.map_eq_some_iff]
  constructor
  · intro hclass
    exact ⟨c, (classNamed?_iff h).mpr hclass, rfl⟩
  · rintro ⟨d, hd, heq⟩
    rw [← r.classes.injective heq]
    exact (classNamed?_iff h).mp hd

/-- A class at a number has the same declaration. -/
theorem map_decl_classes (c : ClassId) :
    (table'.classes[r.classes c]?).map ClassInfo.decl = (table.classes[c]?).map ClassInfo.decl := by
  rw [map_decl_getElem?_classes h', map_decl_getElem?_classes h, hi.getElem?_classes]

/-- A class has the same bases, as they are linked by name. -/
theorem bases {c : ClassId} {d : ClassDecl} (hc : unit.classes[c]? = some d) :
    table'.bases (r.classes c) = (table.bases c).map r.classes := by
  refine eq_map_of_forall₂ (fun base b b' hb hb' => ?_) (forall₂_bases h hc)
    (forall₂_bases h' ((hi.getElem?_classes c).trans hc))
  rw [hi.named h h', hb] at hb'
  exact (Option.some.inj hb').symm

/-- A class has the same members, as they are found at its places. -/
theorem membersOf {c : ClassId} {d : ClassDecl} (hc : unit.classes[c]? = some d) :
    table'.membersOf (r.classes c) = (table.membersOf c).map r.members := by
  rw [← map_fst_classPositions, List.getElem?_map] at hc
  obtain ⟨⟨d, i⟩, hposition, rfl⟩ := Option.map_eq_some_iff.mp hc
  have hposition' : (classPositions unit')[r.classes c]? = some (d, r.decls i) := by
    rw [hi.getElem?_classPositions, hposition]
    rfl
  refine eq_map_of_forall₂ (fun member m m' hm hm' => ?_) (forall₂_memberSites h hposition)
    (forall₂_memberSites h' hposition')
  have hm'' : (memberSites unit')[r.members m]? = (memberSites unit')[m']? := by
    rw [hi.getElem?_memberSites, hm, hm']
    rfl
  have hlt : m' < (memberSites unit').length := (List.getElem?_eq_some_iff.mp hm').1
  exact (List.getElem?_inj hlt (nodup_memberSites unit')).mp hm''.symm

/-- **The classes are the same**, with the new numbers of their bases and members. -/
theorem classes_rearranged :
    Rearranged r.classes (table.classes.map (ClassInfo.renumber r)) table'.classes := by
  intro c
  rw [List.getElem?_map]
  have hdecl := hi.map_decl_classes h h' c
  cases hc : table.classes[c]? with
  | none =>
    rw [hc] at hdecl
    exact Option.map_eq_none_iff.mp hdecl
  | some info =>
    rw [hc, Option.map_some] at hdecl
    obtain ⟨info', hc', hdecl⟩ := Option.map_eq_some_iff.mp hdecl
    have hunit : unit.classes[c]? = some info.decl := by
      rw [← map_decl_getElem?_classes h, hc]
      rfl
    have hbases := hi.bases h h' hunit
    have hmembers := hi.membersOf h h' hunit
    simp only [SymbolTable.bases, SymbolTable.membersOf, hc, hc'] at hbases hmembers
    obtain ⟨decl', bases', members'⟩ := info'
    cases hdecl
    cases hbases
    cases hmembers
    exact hc'

/-! ## 4. Members -/

/-- A number of a member leads to the same declaration at its moved path. -/
theorem map_site_members (m : MemberId) :
    (table'.members[r.members m]?).map (fun info => (info.decl, info.path)) =
      (table.members[m]?).map fun info => (info.decl, info.path.move r.decls) := by
  rw [map_site_getElem?_members h', hi.getElem?_memberSites, ← map_site_getElem?_members h,
    Option.map_map]
  rfl

theorem isMatch_iff {f : FuncDecl} {m : MemberId} :
    table'.IsMatch f (r.members m) ↔ table.IsMatch f m := by
  have hdecl : table'.memberDecl? (r.members m) = table.memberDecl? m := by
    have hsite := congrArg (Option.map Prod.fst) (hi.map_site_members h h' m)
    rw [Option.map_map, Option.map_map] at hsite
    exact hsite
  unfold IsMatch
  rw [hdecl]

/-- **A function matches the same method first.** -/
theorem firstMatch_iff {name : String} {f : FuncDecl} {m : MemberId} :
    table'.FirstMatch name f (r.members m) ↔ table.FirstMatch name f m := by
  have hperm := (hi.classes_rearranged h h').perm
  constructor
  · rintro ⟨info', hmem, hname, before', after', hsplit, hmatch, hfirst⟩
    obtain ⟨info, hinfo, rfl⟩ := List.mem_map.mp (hperm.mem_iff.mpr hmem)
    obtain ⟨before, rest, hmembers, rfl, hrest⟩ := List.map_eq_append_iff.mp hsplit
    obtain ⟨n, after, rfl, hn, rfl⟩ := List.map_eq_cons_iff.mp hrest
    obtain rfl := r.members.injective hn
    refine ⟨info, hinfo, hname, before, after, hmembers, (hi.isMatch_iff h h').mp hmatch, ?_⟩
    intro n hn hmatches
    exact hfirst _ (List.mem_map_of_mem hn) ((hi.isMatch_iff h h').mpr hmatches)
  · rintro ⟨info, hmem, hname, before, after, hsplit, hmatch, hfirst⟩
    refine ⟨info.renumber r, hperm.mem_iff.mp (List.mem_map_of_mem hmem), hname,
      before.map r.members, after.map r.members, ?_, (hi.isMatch_iff h h').mpr hmatch, ?_⟩
    · rw [ClassInfo.renumber, hsplit, List.map_append, List.map_cons]
    · intro n' hn' hmatches
      obtain ⟨n, hn, rfl⟩ := List.mem_map.mp hn'
      exact hfirst n hn ((hi.isMatch_iff h h').mp hmatches)

/-- A method has the same definitions, at their moved paths. -/
theorem mem_definitions {m : MemberId} {info info' : MemberInfo} (hm : table.members[m]? = some info)
    (hm' : table'.members[r.members m]? = some info') (d : Definition) :
    d.renumber r ∈ info'.definitions ↔ d ∈ info.definitions := by
  rw [mem_definitions_iff h' hm', mem_definitions_iff h hm]
  constructor
  · rintro ⟨i', qualifier, hpath, hdecl, hq, hfirst⟩
    obtain ⟨i, rfl⟩ := r.decls.surjective i'
    have hpath' : d.path = .top i := DeclPath.move_injective r.decls hpath
    rw [hi.decls i] at hdecl
    exact ⟨i, qualifier, hpath', hdecl, hq, (hi.firstMatch_iff h h').mp hfirst⟩
  · rintro ⟨i, qualifier, hpath, hdecl, hq, hfirst⟩
    refine ⟨r.decls i, qualifier, ?_, (hi.decls i).trans hdecl, hq, (hi.firstMatch_iff h h').mpr hfirst⟩
    rw [Definition.renumber, hpath, DeclPath.move]

/-- The class of a member is the same. -/
theorem owner_eq {m : MemberId} {info info' : MemberInfo} (hm : table.members[m]? = some info)
    (hm' : table'.members[r.members m]? = some info') : info'.owner = r.classes info.owner := by
  have hlisted : m ∈ table.membersOf info.owner := (mem_membersOf_iff h).mpr ⟨info, hm, rfl⟩
  obtain ⟨d, hclass⟩ := exists_class_of_mem_membersOf h hlisted
  have hlisted' : r.members m ∈ table'.membersOf (r.classes info.owner) := by
    rw [hi.membersOf h h' hclass]
    exact List.mem_map_of_mem hlisted
  obtain ⟨info'', hm'', howner⟩ := (mem_membersOf_iff h').mp hlisted'
  rw [hm'] at hm''
  cases hm''
  exact howner

/-- **The members are the same**, with the new numbers of their classes and at moved paths. -/
theorem members_rel (m : MemberId) :
    Option.Rel (MemberInfo.Renumbered r) table.members[m]? table'.members[r.members m]? := by
  have hsite := hi.map_site_members h h' m
  cases hm : table.members[m]? with
  | none =>
    rw [hm] at hsite
    rw [Option.map_eq_none_iff.mp hsite]
    exact .none
  | some info =>
    rw [hm, Option.map_some] at hsite
    obtain ⟨info', hm', hsite⟩ := Option.map_eq_some_iff.mp hsite
    obtain ⟨hdecl, hpath⟩ := Prod.mk.inj hsite
    rw [hm']
    refine .some ⟨hdecl, hi.owner_eq h h' hm hm', hpath, ?_⟩
    have hinjective := Definition.renumber_injective r
    refine (List.perm_ext_iff_of_nodup (nodup_definitions h' hm')
      ((nodup_definitions h hm).map hinjective)).mpr fun d' => ?_
    obtain ⟨d, rfl⟩ := Definition.renumber_surjective r d'
    rw [hi.mem_definitions h h' hm hm', List.mem_map_of_injective hinjective]

theorem exists_member {m : MemberId} {info : MemberInfo} (hm : table.members[m]? = some info) :
    ∃ info', table'.members[r.members m]? = some info' ∧ info.Renumbered r info' := by
  have hrel := hi.members_rel h h' m
  rw [hm] at hrel
  generalize table'.members[r.members m]? = member' at hrel ⊢
  cases hrel with
  | some hinfo => exact ⟨_, rfl, hinfo⟩

/-! ## 5. Functions -/

/-- **Entries of one function at its two paths are the same**, with the new numbers of its class and the
    member it is. -/
theorem describes_eq {path : DeclPath} {f : FuncDecl} {info info' : FuncInfo}
    (hd : table.Describes (path, f) info) (hd' : table'.Describes (path.move r.decls, f) info') :
    info' = info.renumber r := by
  cases hd with
  | free hunqualified =>
    cases hd' with
    | free => rfl
    | defined hm' _ _ hdefinition =>
      obtain ⟨_, _, _, hqualified⟩ := decl?_definition h' hm' hdefinition
      exact absurd hunqualified hqualified
  | declared hm _ hpath =>
    obtain ⟨_, hmember, hinfo⟩ := hi.exists_member h h' hm
    cases hd' with
    | declared hm' _ hpath' =>
      -- the path of the member leads to it in the other order as well
      have hmoved := hinfo.path
      rw [hpath] at hmoved
      obtain rfl := path_unique h' hmember hm' (hmoved.trans hpath'.symm)
      cases hmember.symm.trans hm'
      exact congrArg (fun owner => FuncInfo.mk f (some (owner, _))) hinfo.owner
  | defined hm _ _ hdefinition =>
    cases hd' with
    | free hunqualified =>
      obtain ⟨_, _, _, hqualified⟩ := decl?_definition h hm hdefinition
      exact absurd hunqualified hqualified
    | defined hm' _ _ hdefinition' =>
      obtain ⟨_, hmember, hinfo⟩ := hi.exists_member h h' hm
      have hmoved := (hi.mem_definitions h h' hm hmember _).mpr hdefinition
      obtain rfl := definition_unique h' hmember hm' hmoved hdefinition' rfl
      cases hmember.symm.trans hm'
      exact congrArg (fun owner => FuncInfo.mk f (some (owner, _))) hinfo.owner

/-- **The functions are the same**, with the new numbers of their classes and of the members they are. -/
theorem funcs_rearranged :
    Rearranged r.funcs (table.funcs.map (FuncInfo.renumber r)) table'.funcs := by
  intro f
  have hsite := rel_getElem?_of_forall₂ (forall₂_funcs h) f
  have hsite' := rel_getElem?_of_forall₂ (forall₂_funcs h') (r.funcs f)
  rw [hi.funcs f, List.getElem?_map] at hsite'
  rw [List.getElem?_map]
  generalize unit.bodySites[f]? = site at hsite hsite'
  generalize table.funcs[f]? = info at hsite ⊢
  generalize table'.funcs[r.funcs f]? = info' at hsite' ⊢
  cases hsite with
  | none =>
    cases hsite'
    rfl
  | some hd =>
    cases hsite' with
    | some hd' => exact congrArg some (hi.describes_eq h h' hd hd')

/-- **The table of a unit in another order is its table with new numbers.** -/
theorem renumbered : Renumbered r table table' where
  wellFormed := wellFormed_of_build h
  wellFormed' := wellFormed_of_build h'
  classes := hi.classes_rearranged h h'
  named := hi.named h h'
  members := hi.members_rel h h'
  funcs := hi.funcs_rearranged h h'

/-! ## 6. Declarations -/

/-- **A declaration stands for the same member** at its moved path, or for none, as before. -/
theorem memberOf_eq (decl : Decl) (path : Option DeclPath) :
    table'.memberOf ⟨decl, path.map (DeclPath.move r.decls)⟩ =
      (table.memberOf ⟨decl, path⟩).map r.members := by
  cases path with
  | none => rfl
  | some path =>
    rw [Option.map_some]
    by_cases hdeclared : ∃ (m : MemberId) (info : MemberInfo), table.members[m]? = some info ∧
        declaresAt info path = true
    · obtain ⟨m, info, hm, hpath⟩ := hdeclared
      obtain ⟨info', hm', hinfo⟩ := hi.exists_member h h' hm
      have hpath' := hinfo.declaresAt_iff.mpr hpath
      rw [memberOf_of_declaresAt h hm hpath, memberOf_of_declaresAt h' hm' hpath']
      rfl
    · rw [memberOf_of_not_declaresAt, memberOf_of_not_declaresAt]
      · rfl
      · intro path' hpath' info hinfo
        cases hpath'
        obtain ⟨m, hm⟩ := List.getElem?_of_mem hinfo
        exact Bool.eq_false_iff.mpr fun hpath => hdeclared ⟨m, info, hm, hpath⟩
      · intro path' hpath' info' hinfo'
        cases hpath'
        obtain ⟨m', hm'⟩ := List.getElem?_of_mem hinfo'
        obtain ⟨m, rfl⟩ := r.members.surjective m'
        refine Bool.eq_false_iff.mpr fun hpath' => hdeclared ?_
        rcases (hi.renumbered h h').getElem?_members m with ⟨_, hnone⟩ | ⟨info, info'', hm, hm'', hinfo⟩
        · rw [hnone] at hm'
          cases hm'
        · cases hm''.symm.trans hm'
          exact ⟨m, info, hm, hinfo.declaresAt_iff.mp hpath'⟩

end Tables

end Induced

/-! ## 7. Every query -/

/-- **The order of the top-level declarations does not matter.** When the declarations of a unit are moved
    to other places by a permutation, one unit has a table exactly when the other one has. Numbers of
    classes, members and functions are places, so the permutation induces new ones, and the second table
    is the first one with the new numbers. A name means the same in a class, a class has the same members
    and derives from the same classes, every name in a function body is resolved to the same thing or
    fails for the same reason, a declaration stands for the same member, and a member has the same
    references, which are ordered by where they start. -/
theorem queries_of_rearranged {π : Equiv.Perm Nat} {unit unit' : SourceUnit}
    (horder : Rearranged π unit.decls unit'.decls) (options : Options) :
    ((∃ table, build unit options = .ok table) ↔ ∃ table', build unit' options = .ok table') ∧
    ∀ table table', build unit options = .ok table → build unit' options = .ok table' →
      ∃ r : Renumbering, r.decls = π ∧ Induced r unit unit' ∧ Renumbered r table table' ∧
        (∀ c name, table'.lookupMember (r.classes c) name =
          (table.lookupMember c name).map (List.map r.members)) ∧
        (∀ c, table'.effectiveMembers (r.classes c) = (table.effectiveMembers c).map r.members) ∧
        (∀ c d, table'.derivesFrom (r.classes c) (r.classes d) = table.derivesFrom c d) ∧
        (∀ f, table'.resolve (r.funcs f) = (table.resolve f).renumber r) ∧
        (∀ decl path, table'.memberOf ⟨decl, path.map (DeclPath.move π)⟩ =
          (table.memberOf ⟨decl, path⟩).map r.members) ∧
        ∀ m, (table'.memberReferences (r.members m)).Perm
            ((table.memberReferences m).map (Reference.renumber r)) ∧
          ((table.memberReferences m).Pairwise fun a b => a.span.start ≤ b.span.start) ∧
          (table'.memberReferences (r.members m)).Pairwise fun a b => a.span.start ≤ b.span.start := by
  refine ⟨exists_build_iff horder.perm options, fun table table' h h' => ?_⟩
  obtain ⟨r, rfl, hi⟩ := exists_induced horder
  have hr := hi.renumbered h h'
  exact ⟨r, rfl, hi, hr, hr.lookupMember, hr.effectiveMembers, hr.derivesFrom, hr.resolve,
    hi.memberOf_eq h h', fun m => ⟨hr.memberReferences m,
      pairwise_sorted (fun reference : Reference => reference.span.start) _,
      pairwise_sorted (fun reference : Reference => reference.span.start) _⟩⟩

/-- A base with a field, a class that derives from it, and a method of the class that uses the field. -/
def upwardDecls : List TopDecl :=
  [.ofClass (bareClass "Base" [] ["id"]),
    .ofClass { bareClass "Widget" ["Base"] [] with members := [.method (bareFunc "read" [] none)] },
    .ofFunc (bareDefinition "Widget" "read" []
      (some [.expr (.ident Span.atStart (bareName "id"))]))]

/-- From the method to the base the table is the same, with other numbers. -/
theorem queries_downwardUnit : ∃ table table' r,
    build (bareUnit upwardDecls) {} = .ok table ∧
    build (bareUnit upwardDecls.reverse) {} = .ok table' ∧
    Rearranged (Equiv.swap 0 2) upwardDecls upwardDecls.reverse ∧
    Renumbered r table table' ∧
    table.members.map MemberInfo.owner = [0, 1] ∧
    table'.lookupMember (r.classes 1) "id" = .ok [r.members 0] ∧
    table'.derivesFrom (r.classes 1) (r.classes 0) = true := by
  have horder : Rearranged (Equiv.swap 0 2) upwardDecls upwardDecls.reverse := by
    intro i
    match i with
    | 0 | 1 | 2 => rfl
    | i + 3 =>
      rw [Equiv.swap_apply_of_ne_of_ne (Nat.succ_ne_zero _) (by omega)]
      rfl
  have htables : ∃ table table', build (bareUnit upwardDecls) {} = .ok table ∧
      build (bareUnit upwardDecls.reverse) {} = .ok table' ∧
      table.members.map MemberInfo.owner = [0, 1] ∧ table.lookupMember 1 "id" = .ok [0] ∧
      table.derivesFrom 1 0 = true := ⟨_, _, rfl, rfl, rfl, rfl, rfl⟩
  obtain ⟨table, table', h, h', howners, hfound, hderives⟩ := htables
  obtain ⟨_, hqueries⟩ := @queries_of_rearranged _ (bareUnit upwardDecls)
    (bareUnit upwardDecls.reverse) horder {}
  obtain ⟨r, _, _, hr, hlookup, _, hderived, _⟩ := hqueries table table' h h'
  refine ⟨table, table', r, h, h', horder, hr, howners, ?_, (hderived 1 0).trans hderives⟩
  rw [hlookup, hfound]
  rfl

end MemberRefs
