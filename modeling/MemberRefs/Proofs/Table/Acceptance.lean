import MemberRefs.Proofs.Table.Linked

/-!
# Which units have a table

A unit is accepted when it is not too large, its classes have different names, every base is a class of
the unit, no class derives from itself, and every qualified function matches a method that the class it
names declares itself. The conditions are stated on the declarations alone (`Accepted`). A unit that is
not accepted is rejected for the first condition that it violates, and under one condition for the first
offence in source order (`FirstDefect`).

* `checkDistinct_ok`, `checkDistinct_error`: the search for a name that occurred before.
* `linkBases_ok_iff`, `linkBases_error`: linking bases to classes.
* `noCycle_of_checkAcyclic`, `checkAcyclic_error`: cycles among numbers are cycles among names.
* `ownerOf_ok_iff`, `ownerOf_error`: linking functions to methods.
* `build_accepts`: the units that have a table, and the error of every other one.
-/

namespace MemberRefs

open Relation

/-! ## 1. Conditions on a unit -/

/-- A definition matches a method of the same name when the parameter types are equal, apart from a
    top-level `const`, and both or none are for `const` objects. -/
structure FuncDecl.Matches (f method : FuncDecl) : Prop where
  name : method.name.val = f.name.val
  params : method.params.map (fun p => p.type.stripConst) = f.params.map fun p => p.type.stripConst
  isConst : method.isConst = f.isConst

namespace SourceUnit

variable (unit : SourceUnit)

/-- A class with the name is declared. -/
def HasClass (name : String) : Prop := ∃ c ∈ unit.classes, c.name.val = name

/-- A class of the one name is declared with a base of the other. -/
def DirectBase (name base : String) : Prop :=
  ∃ c ∈ unit.classes, c.name.val = name ∧ ∃ b ∈ c.bases, b.val = base

/-- The class at `i` has a base with the name of the class at `j`, which is the first one of this
    name. -/
def BaseEdge (i j : ClassId) : Prop :=
  ∃ c base, unit.classes[i]? = some c ∧ base ∈ c.bases ∧
    SymbolTable.classIndex? unit.classes base.val = some j

/-- The classes have different names. -/
def DistinctClasses : Prop := (unit.classes.map fun c => c.name.val).Nodup

/-- The bases of a class are classes of the unit. -/
def KnownBasesOf (c : ClassDecl) : Prop := ∀ base ∈ c.bases, unit.HasClass base.val

/-- No class reaches itself through base lists. -/
def NoCycle : Prop := ∀ c ∈ unit.classes, ¬ TransGen unit.DirectBase c.name.val c.name.val

/-- A class declares, and does not inherit, a method that the function matches. -/
def MatchedIn (f : FuncDecl) (c : ClassDecl) : Prop :=
  ∃ method, .method method ∈ c.members ∧ f.Matches method

/-- A function with a qualifier names a class and matches a method of it. -/
def Linkable (decl : TopDecl) : Prop :=
  ∀ f qualifier, decl = .ofFunc f → f.qualifier = some qualifier →
    ∃ c ∈ unit.classes, c.name.val = qualifier.val ∧ MatchedIn f c

/-- **What a unit has to satisfy to have a table.** -/
structure Accepted (options : Options) : Prop where
  size : unit.nodeCount ≤ options.maxNodes
  distinct : unit.DistinctClasses
  known : ∀ c ∈ unit.classes, unit.KnownBasesOf c
  noCycle : unit.NoCycle
  linkable : ∀ decl ∈ unit.decls, unit.Linkable decl

/-- **The error of the first condition that a unit violates**, at the first offence in source order. -/
inductive FirstDefect (options : Options) : PlacedError → Prop
  | tooLarge (size : ¬ unit.nodeCount ≤ options.maxNodes) :
      FirstDefect options ⟨.unitTooLarge unit.nodeCount options.maxNodes, Span.atStart⟩
  | duplicate {before after : List ClassDecl} {c earlier : ClassDecl}
      (size : unit.nodeCount ≤ options.maxNodes)
      (classes : unit.classes = before ++ c :: after)
      (distinct : (before.map fun d => d.name.val).Nodup)
      (mem : earlier ∈ before) (name : earlier.name.val = c.name.val) :
      FirstDefect options ⟨.duplicateClass c.name.val earlier.name.span, c.name.span⟩
  | unknownBase {c : ClassDecl} {base : SpannedName}
      (size : unit.nodeCount ≤ options.maxNodes)
      (distinct : unit.DistinctClasses)
      (firstClass : FirstFailing unit.KnownBasesOf unit.classes c)
      (firstBase : FirstFailing (fun b => unit.HasClass b.val) c.bases base) :
      FirstDefect options ⟨.unknownBaseClass c.name.val base.val, base.span⟩
  | cyclic {c : ClassDecl}
      (size : unit.nodeCount ≤ options.maxNodes)
      (distinct : unit.DistinctClasses)
      (known : ∀ c ∈ unit.classes, unit.KnownBasesOf c)
      (mem : c ∈ unit.classes) (cycle : TransGen unit.DirectBase c.name.val c.name.val) :
      FirstDefect options ⟨.cyclicInheritance c.name.val, c.name.span⟩
  | unknownQualifier {f : FuncDecl} {qualifier : SpannedName}
      (size : unit.nodeCount ≤ options.maxNodes)
      (distinct : unit.DistinctClasses)
      (known : ∀ c ∈ unit.classes, unit.KnownBasesOf c)
      (noCycle : unit.NoCycle)
      (firstDecl : FirstFailing unit.Linkable unit.decls (.ofFunc f))
      (qualified : f.qualifier = some qualifier)
      (unknown : ¬ unit.HasClass qualifier.val) :
      FirstDefect options ⟨.unknownQualifier qualifier.val, qualifier.span⟩
  | unmatched {f : FuncDecl} {qualifier : SpannedName} {c : ClassDecl}
      (size : unit.nodeCount ≤ options.maxNodes)
      (distinct : unit.DistinctClasses)
      (known : ∀ c ∈ unit.classes, unit.KnownBasesOf c)
      (noCycle : unit.NoCycle)
      (firstDecl : FirstFailing unit.Linkable unit.decls (.ofFunc f))
      (qualified : f.qualifier = some qualifier)
      (mem : c ∈ unit.classes) (name : c.name.val = qualifier.val)
      (unmatched : ¬ MatchedIn f c) :
      FirstDefect options
        ⟨.unmatchedDefinition qualifier.val f.name.val f.signature, f.name.span⟩

variable {unit}

/-- A unit with a defect is not accepted. -/
theorem FirstDefect.not_accepted {options : Options} {e : PlacedError}
    (h : unit.FirstDefect options e) : ¬ unit.Accepted options := by
  intro ha
  cases h with
  | tooLarge size => exact size ha.size
  | duplicate _ classes _ mem name =>
    have hdistinct : (unit.classes.map fun c => c.name.val).Nodup := ha.distinct
    rw [classes, List.map_append, List.map_cons] at hdistinct
    have hdisjoint := (List.nodup_append.mp hdistinct).2.2
    exact hdisjoint _ (List.mem_map_of_mem mem) _ List.mem_cons_self name
  | unknownBase _ _ firstClass _ => exact firstClass.not_forall ha.known
  | cyclic _ _ _ mem cycle => exact ha.noCycle _ mem cycle
  | unknownQualifier _ _ _ _ firstDecl => exact firstDecl.not_forall ha.linkable
  | unmatched _ _ _ _ firstDecl => exact firstDecl.not_forall ha.linkable

end SourceUnit

namespace SymbolTable

open SourceUnit

variable {unit : SourceUnit} {options : Options} {bases : List (List ClassId)} {e : PlacedError}

/-! ## 2. Classes by name -/

theorem classIndex?_eq_none {name : String} : classIndex? unit.classes name = none ↔
    ¬ unit.HasClass name := by
  simp [classIndex?, HasClass, List.findIdx?_eq_none_iff]

/-- Where the names are different, a class is found by its name. -/
theorem classIndex?_name (hdistinct : unit.DistinctClasses) {i : ClassId} {c : ClassDecl}
    (hc : unit.classes[i]? = some c) : classIndex? unit.classes c.name.val = some i := by
  cases hj : classIndex? unit.classes c.name.val with
  | none => exact absurd ⟨c, List.mem_of_getElem? hc, rfl⟩ (classIndex?_eq_none.mp hj)
  | some j =>
    obtain ⟨d, hd, hname⟩ := exists_of_classIndex? hj
    have hlt : j < (unit.classes.map fun c => c.name.val).length := by
      rw [List.length_map]
      exact (List.getElem?_eq_some_iff.mp hd).1
    refine congrArg some ((List.getElem?_inj hlt hdistinct).mp ?_)
    rw [List.getElem?_map, List.getElem?_map, hc, hd]
    exact congrArg some hname

/-! ## 3. Size and class names -/

theorem checkSize_ok (h : checkSize unit options = .ok ()) : unit.nodeCount ≤ options.maxNodes := by
  unfold checkSize at h
  split at h
  · assumption
  · cases h

theorem checkSize_error (h : checkSize unit options = .error e) :
    ¬ unit.nodeCount ≤ options.maxNodes ∧
      e = ⟨.unitTooLarge unit.nodeCount options.maxNodes, Span.atStart⟩ := by
  unfold checkSize at h
  split at h
  · cases h
  · rename_i hsize
    cases h
    exact ⟨hsize, rfl⟩

/-- Names that pass are different from each other and from the ones before them. -/
theorem checkDistinct_ok : ∀ {seen names : List SpannedName}, checkDistinct seen names = .ok () →
    (names.map Spanned.val).Nodup ∧ ∀ n ∈ names, ∀ s ∈ seen, s.val ≠ n.val
  | _, [], _ => ⟨List.nodup_nil, fun _ hn => absurd hn List.not_mem_nil⟩
  | seen, name :: names, h => by
      unfold checkDistinct at h
      split at h
      · cases h
      · rename_i hnew
        obtain ⟨hnodup, hseen⟩ := checkDistinct_ok h
        have hfresh : ∀ s ∈ seen, s.val ≠ name.val := by
          simpa using List.find?_eq_none.mp hnew
        refine ⟨List.nodup_cons.mpr ⟨fun hmem => ?_, hnodup⟩, fun n hn s hs => ?_⟩
        · obtain ⟨n, hn, heq⟩ := List.mem_map.mp hmem
          exact hseen n hn name List.mem_cons_self heq.symm
        · rcases List.mem_cons.mp hn with rfl | hn
          · exact hfresh s hs
          · exact hseen n hn s (List.mem_cons_of_mem _ hs)

/-- **The name that fails is the first that occurred before.** -/
theorem checkDistinct_error : ∀ {seen names : List SpannedName},
    checkDistinct seen names = .error e → ∃ before name after earlier,
      names = before ++ name :: after ∧ checkDistinct seen before = .ok () ∧
      (earlier ∈ seen ∨ earlier ∈ before) ∧ earlier.val = name.val ∧
      e = ⟨.duplicateClass name.val earlier.span, name.span⟩
  | _, [], h => by cases h
  | seen, name :: names, h => by
      unfold checkDistinct at h
      split at h
      · rename_i earlier hearlier
        cases h
        have hname : earlier.val = name.val := by simpa using List.find?_some hearlier
        exact ⟨[], name, names, earlier, rfl, rfl, .inl (List.mem_of_find?_eq_some hearlier), hname,
          rfl⟩
      · rename_i hnew
        obtain ⟨before, name', after, earlier, rfl, hok, hmem, hname, rfl⟩ := checkDistinct_error h
        refine ⟨name :: before, name', after, earlier, rfl, ?_, ?_, hname, rfl⟩
        · rw [checkDistinct, hnew]
          exact hok
        · rcases hmem with hseen | hbefore
          · rcases List.mem_cons.mp hseen with rfl | hseen
            · exact .inr List.mem_cons_self
            · exact .inl hseen
          · exact .inr (List.mem_cons_of_mem _ hbefore)

/-- The class that fails has the name of an earlier one, and the earlier ones have different names. -/
theorem duplicate_of_checkDistinct
    (h : checkDistinct [] (unit.classes.map ClassDecl.name) = .error e) :
    ∃ before c after, unit.classes = before ++ c :: after ∧
      (before.map fun d => d.name.val).Nodup ∧ ∃ earlier ∈ before, earlier.name.val = c.name.val ∧
        e = ⟨.duplicateClass c.name.val earlier.name.span, c.name.span⟩ := by
  obtain ⟨names, name, rest, original, hsplit, hok, hmem, hname, rfl⟩ := checkDistinct_error h
  obtain ⟨before, tail, hclasses, rfl, htail⟩ := List.map_eq_append_iff.mp hsplit
  obtain ⟨c, after, rfl, rfl, rfl⟩ := List.map_eq_cons_iff.mp htail
  have hbefore := hmem.resolve_left List.not_mem_nil
  obtain ⟨earlier, hearlier, rfl⟩ := List.mem_map.mp hbefore
  have hnodup := (checkDistinct_ok hok).1
  rw [List.map_map] at hnodup
  exact ⟨before, c, after, hclasses, hnodup, earlier, hearlier, hname, rfl⟩

theorem distinctClasses_of_checkDistinct
    (h : checkDistinct [] (unit.classes.map ClassDecl.name) = .ok ()) : unit.DistinctClasses := by
  have hnodup := (checkDistinct_ok h).1
  rw [List.map_map] at hnodup
  exact hnodup

/-! ## 4. Bases -/

theorem baseId_error {derived : ClassDecl} {base : SpannedName}
    (h : baseId unit.classes derived base = .error e) :
    e = ⟨.unknownBaseClass derived.name.val base.val, base.span⟩ := by
  unfold baseId at h
  split at h
  · cases h
  · cases h
    rfl

/-- A base is linked when it is a class of the unit. -/
theorem baseId_ok_iff {derived : ClassDecl} {base : SpannedName} :
    (∃ b, baseId unit.classes derived base = .ok b) ↔ unit.HasClass base.val := by
  constructor
  · rintro ⟨b, hb⟩
    obtain ⟨c, hc, hname⟩ := exists_of_classIndex? (baseId_eq_ok hb)
    exact ⟨c, List.mem_of_getElem? hc, hname⟩
  · intro hclass
    cases hb : classIndex? unit.classes base.val with
    | none => exact absurd hclass (classIndex?_eq_none.mp hb)
    | some b =>
      have hindex : (unit.classes.findIdx? fun c => c.name.val == base.val) = some b := hb
      exact ⟨b, by rw [baseId, hindex]⟩

theorem basesOf_ok_iff {c : ClassDecl} :
    (∃ bs, c.bases.mapM (baseId unit.classes c) = .ok bs) ↔ unit.KnownBasesOf c :=
  mapM_ok_iff.trans (forall₂_congr fun _ _ => baseId_ok_iff)

/-- **Bases are linked when all of them are classes of the unit.** -/
theorem linkBases_ok_iff :
    (∃ bases, linkBases unit.classes = .ok bases) ↔ ∀ c ∈ unit.classes, unit.KnownBasesOf c :=
  mapM_ok_iff.trans (forall₂_congr fun _ _ => basesOf_ok_iff)

/-- **The base that fails is the first unknown one** of the first class with such a base. -/
theorem linkBases_error (h : linkBases unit.classes = .error e) : ∃ c base,
    FirstFailing unit.KnownBasesOf unit.classes c ∧
      FirstFailing (fun b => unit.HasClass b.val) c.bases base ∧
      e = ⟨.unknownBaseClass c.name.val base.val, base.span⟩ := by
  obtain ⟨c, hclass, hc⟩ := exists_of_mapM_error h
  obtain ⟨base, hbase, hb⟩ := exists_of_mapM_error hc
  exact ⟨c, base, hclass.congr fun _ _ => basesOf_ok_iff, hbase.congr fun _ _ => baseId_ok_iff,
    baseId_error hb⟩

/-- The bases that are linked to a class are those that it names, in order. -/
theorem mapM_baseId_eq (h : linkBases unit.classes = .ok bases) {i : ClassId} {c : ClassDecl}
    (hc : unit.classes[i]? = some c) :
    c.bases.mapM (baseId unit.classes c) = .ok (basesAt bases i) := by
  obtain ⟨bs, hbs, hok⟩ := getElem?_of_mapM_ok h hc
  rw [basesAt, hbs]
  exact hok

/-- **Linked bases are the edges between classes.** -/
theorem mem_basesAt_iff (h : linkBases unit.classes = .ok bases) {i j : ClassId} :
    j ∈ basesAt bases i ↔ unit.BaseEdge i j := by
  constructor
  · intro hj
    have hlt : i < unit.classes.length := length_of_linkBases h ▸ lt_of_mem_basesAt hj
    have hc := List.getElem?_eq_getElem hlt
    obtain ⟨base, hbase, hid⟩ := exists_of_mem_mapM_ok (mapM_baseId_eq h hc) hj
    exact ⟨_, base, hc, hbase, baseId_eq_ok hid⟩
  · rintro ⟨c, base, hc, hbase, hindex⟩
    obtain ⟨j', hj', hid⟩ := exists_mem_of_mapM_ok (mapM_baseId_eq h hc) hbase
    rw [baseId_eq_ok hid] at hindex
    cases hindex
    exact hj'

/-- Linked bases are direct bases by name. -/
theorem directBase_of_mem_basesAt (h : linkBases unit.classes = .ok bases) {i j : ClassId}
    (hj : j ∈ basesAt bases i) : ∃ c d, unit.classes[i]? = some c ∧ unit.classes[j]? = some d ∧
      unit.DirectBase c.name.val d.name.val := by
  obtain ⟨c, base, hc, hbase, hindex⟩ := (mem_basesAt_iff h).mp hj
  obtain ⟨d, hd, hname⟩ := exists_of_classIndex? hindex
  exact ⟨c, d, hc, hd, c, List.mem_of_getElem? hc, rfl, base, hbase, hname.symm⟩

/-- Direct bases by name are linked, where the names are different. -/
theorem mem_basesAt_of_directBase (hdistinct : unit.DistinctClasses)
    (h : linkBases unit.classes = .ok bases) {n b : String} (hdirect : unit.DirectBase n b) :
    ∃ i j, classIndex? unit.classes n = some i ∧ classIndex? unit.classes b = some j ∧
      j ∈ basesAt bases i := by
  obtain ⟨c, hmem, rfl, base, hbase, rfl⟩ := hdirect
  obtain ⟨i, hc⟩ := List.getElem?_of_mem hmem
  obtain ⟨j, hj, hb⟩ := exists_mem_of_mapM_ok (mapM_baseId_eq h hc) hbase
  exact ⟨i, j, classIndex?_name hdistinct hc, baseId_eq_ok hb, hj⟩

/-! ## 5. Cycles -/

/-- **Where the search finds no cycle no class derives from itself by name.** -/
theorem noCycle_of_checkAcyclic (hdistinct : unit.DistinctClasses)
    (hlink : linkBases unit.classes = .ok bases) (h : checkAcyclic unit.classes bases = .ok ()) :
    unit.NoCycle := by
  obtain ⟨height, hg⟩ := exists_graded_of_checkAcyclic (length_of_linkBases hlink)
    (inRange_of_linkBases hlink) h
  -- every step to a base goes down
  let heightOf (name : String) : Nat := height ((classIndex? unit.classes name).getD 0)
  have hstep : ∀ {n b : String}, unit.DirectBase n b → heightOf b < heightOf n := by
    intro n b hdirect
    obtain ⟨i, j, hi, hj, hmem⟩ := mem_basesAt_of_directBase hdistinct hlink hdirect
    have hlt : height j < height i := hg.next_lt hmem
    simp only [heightOf, hi, hj, Option.getD_some]
    exact hlt
  have hdown : ∀ {n b : String}, TransGen unit.DirectBase n b → heightOf b < heightOf n := by
    intro n b hway
    induction hway with
    | single hdirect => exact hstep hdirect
    | tail _ hdirect ih => exact Nat.lt_trans (hstep hdirect) ih
  exact fun c _ hcycle => Nat.lt_irrefl _ (hdown hcycle)

/-- **The class that is named lies on a cycle.** -/
theorem checkAcyclic_error (hlink : linkBases unit.classes = .ok bases)
    (h : checkAcyclic unit.classes bases = .error e) :
    ∃ c ∈ unit.classes, TransGen unit.DirectBase c.name.val c.name.val ∧
      e = ⟨.cyclicInheritance c.name.val, c.name.span⟩ := by
  obtain ⟨i, c, hfound, hi, rfl⟩ := checkAcyclic_eq_error h
  let nameAt (i : ClassId) : String := ((unit.classes[i]?).map fun c => c.name.val).getD ""
  have hlift : TransGen unit.DirectBase (nameAt i) (nameAt i) := by
    refine (transGen_of_findCycle? (inRange_of_linkBases hlink) hfound).lift nameAt fun a b hb => ?_
    obtain ⟨d, d', hd, hd', hdirect⟩ := directBase_of_mem_basesAt hlink hb
    show unit.DirectBase (nameAt a) (nameAt b)
    simpa [nameAt, hd, hd'] using hdirect
  have hname : nameAt i = c.name.val := by simp [nameAt, hi]
  exact ⟨c, List.mem_of_getElem? hi, hname ▸ hlift, rfl⟩

/-! ## 6. Definitions -/

theorem classNamed?_ofClasses (hlen : bases.length = unit.classes.length) (name : String) :
    (ofClasses unit bases).classNamed? name = classIndex? unit.classes name := by
  rw [classIndex?, ← map_decl_classes hlen, List.findIdx?_map]
  rfl

/-- A definition matches a method when it has its name and its signature. -/
theorem matches_iff {f method : FuncDecl} : f.Matches method ↔
    (method.name.val == f.name.val && method.signature == f.signature) = true := by
  have hsignature : method.signature = f.signature ↔
      method.params.map (fun p => p.type.stripConst) = f.params.map (fun p => p.type.stripConst) ∧
        method.isConst = f.isConst := by
    simp [FuncDecl.signature, Signature.ofParams, Function.comp_def]
  rw [Bool.and_eq_true, beq_iff_eq, beq_iff_eq, hsignature]
  exact ⟨fun h => ⟨h.name, h.params, h.isConst⟩, fun h => ⟨h.1, h.2.1, h.2.2⟩⟩

/-- A member is what `f` defines when it is a method that `f` matches. -/
theorem definedBy_iff {table : SymbolTable} {f : FuncDecl} {m : MemberId} :
    table.definedBy f m = true ↔
      ∃ method, table.memberDecl? m = some (.method method) ∧ f.Matches method := by
  have hmethod : ∀ method, table.method? m = some method ↔
      table.memberDecl? m = some (.method method) := by
    intro method
    unfold method? memberDecl?
    cases table.members[m]? with
    | none => simp
    | some info => cases hdecl : info.decl <;> simp [MemberInfo.method?, hdecl, MemberDecl.method?]
  rw [definedBy, Option.any_eq_true]
  exact exists_congr fun method => and_congr (hmethod method) matches_iff.symm

/-- **A method is found in a class when the class declares one that matches.** -/
theorem find?_definedBy_eq_none (hlen : bases.length = unit.classes.length) {i : ClassId}
    {c : ClassDecl} (hc : unit.classes[i]? = some c) {f : FuncDecl} :
    ((ofClasses unit bases).membersOf i).find? ((ofClasses unit bases).definedBy f) = none ↔
      ¬ MatchedIn f c := by
  have hdecls := map_memberDecl?_ofClasses hlen hc
  rw [List.find?_eq_none]
  constructor
  · rintro hnone ⟨method, hmem, hmatches⟩
    have hmem' : some (MemberDecl.method method) ∈ c.members.map some := List.mem_map_of_mem hmem
    rw [← hdecls] at hmem'
    obtain ⟨m, hm, hdecl⟩ := List.mem_map.mp hmem'
    exact hnone m hm (definedBy_iff.mpr ⟨method, hdecl, hmatches⟩)
  · intro hunmatched m hm hdefined
    obtain ⟨method, hdecl, hmatches⟩ := definedBy_iff.mp hdefined
    have hmem := List.mem_map_of_mem (f := (ofClasses unit bases).memberDecl?) hm
    rw [hdecls, hdecl] at hmem
    obtain ⟨_, hmember, heq⟩ := List.mem_map.mp hmem
    cases heq
    exact hunmatched ⟨method, hmember, hmatches⟩

/-- What is linked is linkable. -/
theorem linkable_of_ownerOf (hlen : bases.length = unit.classes.length) {decl : TopDecl}
    {owner : Option (ClassId × MemberId)} (h : (ofClasses unit bases).ownerOf decl = .ok owner) :
    unit.Linkable decl := by
  rintro f qualifier rfl hq
  simp only [ownerOf, hq] at h
  obtain ⟨⟨i, m⟩, hlink, _⟩ := exists_of_map_eq_ok h
  obtain ⟨hi, hm⟩ := linkDefinition_eq_ok hlink
  rw [classNamed?_ofClasses hlen] at hi
  obtain ⟨c, hc, hname⟩ := exists_of_classIndex? hi
  refine ⟨c, List.mem_of_getElem? hc, hname, Classical.byContradiction fun hunmatched => ?_⟩
  rw [(find?_definedBy_eq_none hlen hc).mpr hunmatched] at hm
  cases hm

/-- **A declaration that is not linked** is a function whose qualifier is no class, or a function that
    no method of this class matches. -/
theorem ownerOf_error (hlen : bases.length = unit.classes.length) {decl : TopDecl}
    (h : (ofClasses unit bases).ownerOf decl = .error e) : ∃ f qualifier, decl = .ofFunc f ∧
      f.qualifier = some qualifier ∧
      ((¬ unit.HasClass qualifier.val ∧
          e = ⟨.unknownQualifier qualifier.val, qualifier.span⟩) ∨
        ∃ c ∈ unit.classes, c.name.val = qualifier.val ∧ ¬ MatchedIn f c ∧
          e = ⟨.unmatchedDefinition qualifier.val f.name.val f.signature, f.name.span⟩) := by
  unfold ownerOf at h
  split at h
  · cases h
  · rename_i f
    split at h
    · cases h
    · rename_i qualifier hq
      refine ⟨f, qualifier, rfl, hq, ?_⟩
      have hlink := error_of_map_eq_error h
      unfold linkDefinition at hlink
      rw [classNamed?_ofClasses hlen] at hlink
      split at hlink
      · rename_i hnone
        cases hlink
        exact .inl ⟨classIndex?_eq_none.mp hnone, rfl⟩
      · rename_i i hi
        obtain ⟨c, hc, hname⟩ := exists_of_classIndex? hi
        split at hlink
        · cases hlink
        · rename_i hnone
          cases hlink
          exact .inr ⟨c, List.mem_of_getElem? hc, hname,
            (find?_definedBy_eq_none hlen hc).mp hnone, rfl⟩

/-- **A declaration is linked when it is linkable.** -/
theorem ownerOf_ok_iff (hlen : bases.length = unit.classes.length)
    (hdistinct : unit.DistinctClasses) {decl : TopDecl} :
    (∃ owner, (ofClasses unit bases).ownerOf decl = .ok owner) ↔ unit.Linkable decl := by
  refine ⟨fun ⟨_, h⟩ => linkable_of_ownerOf hlen h, fun hlinkable => ?_⟩
  cases h : (ofClasses unit bases).ownerOf decl with
  | ok owner => exact ⟨owner, rfl⟩
  | error e =>
    obtain ⟨f, qualifier, rfl, hq, hdefect⟩ := ownerOf_error hlen h
    obtain ⟨c, hc, hname, hmatched⟩ := hlinkable f qualifier rfl hq
    rcases hdefect with ⟨hunknown, _⟩ | ⟨d, hd, hname', hunmatched, _⟩
    · exact absurd ⟨c, hc, hname⟩ hunknown
    · obtain rfl : d = c := List.inj_on_of_nodup_map hdistinct hd hc (hname'.trans hname.symm)
      exact absurd hmatched hunmatched

/-! ## 7. Building -/

/-- A unit that has a table is accepted. -/
theorem accepted_of_build {table : SymbolTable} (h : build unit options = .ok table) :
    unit.Accepted options := by
  obtain ⟨bases, owners, hsize, hdistinct, hlink, hacyclic, howners, _⟩ := build_eq_ok h
  have hdistinct := distinctClasses_of_checkDistinct hdistinct
  have hlinked := mapM_ok_iff.mp ⟨owners, howners⟩
  exact {
    size := checkSize_ok hsize
    distinct := hdistinct
    known := linkBases_ok_iff.mp ⟨bases, hlink⟩
    noCycle := noCycle_of_checkAcyclic hdistinct hlink hacyclic
    linkable := fun decl hdecl =>
      (ownerOf_ok_iff (length_of_linkBases hlink) hdistinct).mp (hlinked decl hdecl) }

/-- **The error of a unit without a table** is that of its first defect. -/
theorem firstDefect_of_build (h : build unit options = .error e) : unit.FirstDefect options e := by
  unfold build at h
  rcases bind_eq_error.mp h with h | ⟨_, hsize, h⟩
  · obtain ⟨hlarge, rfl⟩ := checkSize_error h
    exact .tooLarge hlarge
  have hsize := checkSize_ok hsize
  rcases bind_eq_error.mp h with h | ⟨_, hdistinct, h⟩
  · obtain ⟨_, _, _, hclasses, hnodup, _, hmem, hname, rfl⟩ := duplicate_of_checkDistinct h
    exact .duplicate hsize hclasses hnodup hmem hname
  have hdistinct := distinctClasses_of_checkDistinct hdistinct
  rcases bind_eq_error.mp h with h | ⟨bases, hlink, h⟩
  · obtain ⟨_, _, hclass, hbase, rfl⟩ := linkBases_error h
    exact .unknownBase hsize hdistinct hclass hbase
  have hknown := linkBases_ok_iff.mp ⟨bases, hlink⟩
  have hlen := length_of_linkBases hlink
  rcases bind_eq_error.mp h with h | ⟨_, hacyclic, h⟩
  · obtain ⟨_, hc, hcycle, rfl⟩ := checkAcyclic_error hlink h
    exact .cyclic hsize hdistinct hknown hc hcycle
  have hnoCycle := noCycle_of_checkAcyclic hdistinct hlink hacyclic
  rcases bind_eq_error.mp h with h | ⟨_, _, h⟩
  · obtain ⟨decl, hfirst, hdecl⟩ := exists_of_mapM_error h
    have hfirst := hfirst.congr fun _ _ => ownerOf_ok_iff hlen hdistinct
    obtain ⟨f, qualifier, rfl, hq, hdefect⟩ := ownerOf_error hlen hdecl
    rcases hdefect with ⟨hunknown, rfl⟩ | ⟨c, hc, hname, hunmatched, rfl⟩
    · exact .unknownQualifier hsize hdistinct hknown hnoCycle hfirst hq hunknown
    · exact .unmatched hsize hdistinct hknown hnoCycle hfirst hq hc hname hunmatched
  · cases h

/-- **Which units have a table.** A unit has a table exactly when it is accepted. Otherwise the error is
    that of the first condition that it violates, in the order of the conditions, for the first offence
    in source order. -/
theorem build_accepts (unit : SourceUnit) (options : Options) :
    ((∃ table, build unit options = .ok table) ↔ unit.Accepted options) ∧
      ∀ e, build unit options = .error e → unit.FirstDefect options e := by
  refine ⟨⟨fun ⟨_, h⟩ => accepted_of_build h, fun haccepted => ?_⟩, fun _ => firstDefect_of_build⟩
  cases h : build unit options with
  | ok table => exact ⟨table, rfl⟩
  | error e => exact absurd haccepted (firstDefect_of_build h).not_accepted

/-- A class that derives from one with a method, a definition of the method that is qualified by the
    deriving class, and one that is qualified by no class. -/
def misplacedUnit : SourceUnit :=
  bareUnit [.ofClass { bareClass "Base" [] [] with members := [.method (bareFunc "read" [] none)] },
    .ofClass (bareClass "Widget" ["Base"] []),
    .ofFunc (bareDefinition "Widget" "read" [] (some [])),
    .ofFunc (bareDefinition "Gone" "read" [] (some []))]

/-- An inherited method is not defined in the deriving class, which is the first of the two defects. -/
theorem build_misplacedUnit :
    misplacedUnit.FirstDefect {} ⟨.unmatchedDefinition "Widget" "read" ⟨[], false⟩, Span.atStart⟩ ∧
      ¬ misplacedUnit.Accepted {} := by
  obtain ⟨haccepted, herror⟩ := build_accepts misplacedUnit {}
  have hbuild : build misplacedUnit {} =
      .error ⟨.unmatchedDefinition "Widget" "read" ⟨[], false⟩, Span.atStart⟩ := rfl
  refine ⟨herror _ hbuild, fun h => ?_⟩
  obtain ⟨table, htable⟩ := haccepted.mpr h
  rw [hbuild] at htable
  cases htable

end SymbolTable

end MemberRefs
