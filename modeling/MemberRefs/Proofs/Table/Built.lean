import MemberRefs.Proofs.Table.Acyclic

/-!
# Tables that were built

What holds of every table of a unit. Queries look numbers up in a table without asking what they stand
for; they may, because of three facts (`WellFormed`): a member belongs to the class that lists it, no
class lists a member twice, and no class derives from itself. They are kept apart from the building of a
table (`wellFormed_of_build`), which is taken apart in one place only (`build_eq_ok`).
-/

namespace MemberRefs.SymbolTable

variable {unit : SourceUnit} {options : Options} {table : SymbolTable}

/-! ## 1. What a query may rely on -/

/-- **The invariant of a table.** -/
structure WellFormed (table : SymbolTable) : Prop where
  /-- A member belongs to the class that lists it. -/
  owner_of_mem : ∀ {c m}, m ∈ table.membersOf c →
    ∃ info, table.members[m]? = some info ∧ info.owner = c
  /-- A class lists no member twice. -/
  nodup_membersOf : ∀ c, (table.membersOf c).Nodup
  /-- No class derives from itself. -/
  graded : ∃ height, Graded table.bases height

/-- A member is listed by one class. -/
theorem WellFormed.owner_unique (hw : table.WellFormed) {c d m} (hc : m ∈ table.membersOf c)
    (hd : m ∈ table.membersOf d) : c = d := by
  obtain ⟨info, hi, rfl⟩ := hw.owner_of_mem hc
  obtain ⟨info', hi', rfl⟩ := hw.owner_of_mem hd
  rw [hi] at hi'
  cases hi'
  rfl

/-- **What a class has when all its bases have it, all classes have.** -/
theorem WellFormed.bases_induction (hw : table.WellFormed) {motive : ClassId → Prop}
    (step : ∀ c, (∀ b ∈ table.bases c, motive b) → motive c) (c : ClassId) : motive c := by
  obtain ⟨height, hg⟩ := hw.graded
  induction hh : height c using Nat.strongRecOn generalizing c with
  | _ n ih => exact step c fun b hb => ih (height b) (hh ▸ hg.next_lt hb) b rfl

/-! ## 2. The steps of building -/

/-- **A table that was built is one of a unit that passed every check.** -/
theorem build_eq_ok (h : build unit options = .ok table) : ∃ bases owners,
    checkSize unit options = .ok () ∧ checkDistinct [] (unit.classes.map ClassDecl.name) = .ok () ∧
      linkBases unit.classes = .ok bases ∧ checkAcyclic unit.classes bases = .ok () ∧
      unit.decls.mapM (ofClasses unit bases).ownerOf = .ok owners ∧
      table = (ofClasses unit bases).withFuncs owners := by
  unfold build at h
  obtain ⟨_, hsize, h⟩ := bind_eq_ok.mp h
  obtain ⟨_, hdistinct, h⟩ := bind_eq_ok.mp h
  obtain ⟨bases, hbases, h⟩ := bind_eq_ok.mp h
  obtain ⟨_, hacyclic, h⟩ := bind_eq_ok.mp h
  obtain ⟨owners, howners, h⟩ := bind_eq_ok.mp h
  cases h
  exact ⟨bases, owners, hsize, hdistinct, hbases, hacyclic, howners, rfl⟩

theorem length_of_linkBases {classes : List ClassDecl} {bases : List (List ClassId)}
    (h : linkBases classes = .ok bases) : bases.length = classes.length :=
  (mapM_ok h).length_eq.symm

/-- The position of the class with a name among some classes. -/
def classIndex? (classes : List ClassDecl) (name : String) : Option ClassId :=
  classes.findIdx? fun c => c.name.val == name

theorem exists_of_classIndex? {classes : List ClassDecl} {name : String} {i : ClassId}
    (h : classIndex? classes name = some i) : ∃ c, classes[i]? = some c ∧ c.name.val = name := by
  obtain ⟨hi, hname, _⟩ := List.findIdx?_eq_some_iff_getElem.mp h
  exact ⟨_, List.getElem?_eq_getElem hi, beq_iff_eq.mp hname⟩

/-- A base is linked to the first class with its name. -/
theorem baseId_eq_ok {classes : List ClassDecl} {derived : ClassDecl} {base : SpannedName}
    {b : ClassId} (h : baseId classes derived base = .ok b) :
    classIndex? classes base.val = some b := by
  unfold baseId at h
  split at h
  · rename_i hb
    cases h
    exact hb
  · cases h

/-- Linked bases are classes. -/
theorem inRange_of_linkBases {classes : List ClassDecl} {bases : List (List ClassId)}
    (h : linkBases classes = .ok bases) : InRange bases := by
  intro c b hb
  have hc : c < bases.length := lt_of_mem_basesAt hb
  rw [basesAt, List.getElem?_eq_getElem hc, Option.getD_some] at hb
  obtain ⟨decl, _, hdecl⟩ := exists_of_mem_mapM_ok h (List.getElem_mem hc)
  obtain ⟨base, _, hbase⟩ := exists_of_mem_mapM_ok hdecl hb
  obtain ⟨d, hd, _⟩ := exists_of_classIndex? (baseId_eq_ok hbase)
  rw [length_of_linkBases h]
  exact (List.getElem?_eq_some_iff.mp hd).1

/-! ## 3. Classes -/

theorem length_numberMembers (cs : List ClassDecl) : ∀ next,
    (numberMembers next cs).length = cs.length := by
  induction cs with
  | nil => exact fun _ => rfl
  | cons c cs ih => exact fun next => congrArg Nat.succ (ih _)

/-- The bases of a class in a table are the ones that were linked. -/
theorem bases_ofClasses {bases : List (List ClassId)} (hlen : bases.length = unit.classes.length) :
    (ofClasses unit bases).bases = basesAt bases := by
  funext c
  by_cases hc : c < unit.classes.length
  · simp [SymbolTable.bases, ofClasses, basesAt, hc, hlen, length_numberMembers]
  · simp [SymbolTable.bases, ofClasses, basesAt, hc, hlen, length_numberMembers]

/-- The members of a class in a table are the ones that were numbered. -/
theorem membersOf_ofClasses {bases : List (List ClassId)}
    (hlen : bases.length = unit.classes.length) (c : ClassId) :
    (ofClasses unit bases).membersOf c = (numberMembers 0 unit.classes)[c]?.getD [] := by
  by_cases hc : c < unit.classes.length
  · simp [membersOf, ofClasses, hc, hlen, length_numberMembers]
  · simp [membersOf, ofClasses, hc, hlen, length_numberMembers]

/-! ## 4. Members -/

/-- The members that one class of the unit introduces, given its place and its number. -/
def membersIn : (ClassDecl × Nat) × ClassId → List MemberInfo
  | ((c, i), owner) => c.members.zipIdx.map fun (decl, j) => ⟨owner, decl, .member i j, []⟩

theorem map_fst_classPositions (unit : SourceUnit) :
    (classPositions unit).map Prod.fst = unit.classes := by
  unfold classPositions SourceUnit.classes
  rw [List.map_filterMap]
  calc unit.decls.zipIdx.filterMap (fun x => (x.1.class?.map fun c => (c, x.2)).map Prod.fst)
      = unit.decls.zipIdx.filterMap (TopDecl.class? ∘ Prod.fst) := by
        congr 1
        funext x
        simp [Option.map_map, Function.comp_def]
    _ = (unit.decls.zipIdx.map Prod.fst).filterMap TopDecl.class? := List.filterMap_map.symm
    _ = unit.decls.filterMap TopDecl.class? := by rw [List.zipIdx_map_fst]

/-- **Numbering members class by class and listing them class by class agree**: the numbers of the class
    at `c` are different ones and lead, in order, to the members that it introduces as class `first + c`. -/
theorem getElem?_numberMembers : ∀ (classes : List (ClassDecl × Nat)) (next first c : Nat)
    (ms : List MemberId), (numberMembers next (classes.map Prod.fst))[c]? = some ms →
    ∃ cls, classes[c]? = some cls ∧ ms.Nodup ∧ (∀ m ∈ ms, next ≤ m) ∧
      ms.map (fun m => ((classes.zipIdx first).flatMap membersIn)[m - next]?) =
        (membersIn (cls, first + c)).map some
  | [], _, _, _, _, h => by simp [numberMembers] at h
  | (decl, i) :: classes, next, first, 0, ms, h => by
      simp only [List.map_cons, numberMembers, List.getElem?_cons_zero, Option.some.injEq] at h
      subst h
      refine ⟨(decl, i), rfl, List.nodup_range', fun m hm => (List.mem_range'_1.mp hm).1, ?_⟩
      refine List.ext_getElem (by simp [membersIn]) fun j hj _ => ?_
      have hj' : j < decl.members.length := by simpa using hj
      simp [membersIn, List.getElem?_append, hj']
  | (decl, i) :: classes, next, first, c + 1, ms, h => by
      simp only [List.map_cons, numberMembers, List.getElem?_cons_succ] at h
      obtain ⟨cls, hcls, hnodup, hle, hmap⟩ :=
        getElem?_numberMembers classes (next + decl.members.length) (first + 1) c ms h
      refine ⟨cls, hcls, hnodup, fun m hm => ?_, ?_⟩
      · have := hle m hm
        omega
      · rw [← Nat.succ_add_eq_add_succ first c, ← hmap]
        refine List.map_congr_left fun m hm => ?_
        have hsplit : m - next = decl.members.length + (m - (next + decl.members.length)) := by
          have := hle m hm
          omega
        have hlen : (membersIn ((decl, i), first)).length = decl.members.length := by
          simp [membersIn]
        rw [hsplit, List.zipIdx_cons, List.flatMap_cons, List.getElem?_append_right (by omega), hlen,
          Nat.add_sub_cancel_left]

/-- The members that the class with a number introduces. -/
def membersAt (unit : SourceUnit) (c : ClassId) : List MemberInfo :=
  match (classPositions unit)[c]? with
  | some cls => membersIn (cls, c)
  | none => []

/-- **The numbers that a class lists are different ones, and they lead to the members that the class
    introduces**, in order. -/
theorem membersOf_leads {bases : List (List ClassId)} (hlen : bases.length = unit.classes.length)
    (c : ClassId) :
    ((ofClasses unit bases).membersOf c).Nodup ∧
      ((ofClasses unit bases).membersOf c).map (fun m => (declaredMembers unit)[m]?) =
        (membersAt unit c).map some := by
  rw [membersOf_ofClasses hlen]
  cases hms : (numberMembers 0 unit.classes)[c]? with
  | none =>
    have hnone : (classPositions unit)[c]? = none := by
      rw [List.getElem?_eq_none_iff] at hms ⊢
      rwa [length_numberMembers, ← map_fst_classPositions, List.length_map] at hms
    simp [membersAt, hnone]
  | some ms =>
    rw [← map_fst_classPositions] at hms
    obtain ⟨cls, hcls, hnodup, _, hmap⟩ := getElem?_numberMembers (classPositions unit) 0 0 c ms hms
    rw [Nat.zero_add] at hmap
    rw [membersAt, hcls]
    exact ⟨hnodup, hmap⟩

theorem owner_of_mem_membersAt {c : ClassId} {info : MemberInfo} (h : info ∈ membersAt unit c) :
    info.owner = c := by
  unfold membersAt at h
  split at h
  · obtain ⟨_, _, rfl⟩ := List.mem_map.mp h
    rfl
  · exact absurd h List.not_mem_nil

/-- A number that a class lists leads to a member that the class introduces. -/
theorem exists_of_mem_membersOf {bases : List (List ClassId)}
    (hlen : bases.length = unit.classes.length) {c : ClassId} {m : MemberId}
    (h : m ∈ (ofClasses unit bases).membersOf c) :
    ∃ info ∈ membersAt unit c, (declaredMembers unit)[m]? = some info := by
  have hmem := List.mem_map_of_mem (f := fun m => (declaredMembers unit)[m]?) h
  rw [(membersOf_leads hlen c).2] at hmem
  obtain ⟨info, hinfo, heq⟩ := List.mem_map.mp hmem
  exact ⟨info, hinfo, heq.symm⟩

/-- Functions change of a member only its definitions. -/
theorem getElem?_members_withFuncs (table : SymbolTable)
    (owners : List (Option (ClassId × MemberId))) (m : MemberId) :
    (table.withFuncs owners).members[m]? = (table.members[m]?).map fun info =>
      { info with definitions := definitionsOf (table.unit.decls.zip owners) m } := by
  simp [withFuncs, List.getElem?_mapIdx]

/-! ## 5. The invariant -/

/-- **Every table that was built is well-formed.** -/
theorem wellFormed_of_build (h : build unit options = .ok table) : table.WellFormed := by
  obtain ⟨bases, owners, _, _, hlink, hacyclic, _, rfl⟩ := build_eq_ok h
  have hlen := length_of_linkBases hlink
  refine ⟨fun {c m} hm => ?_, fun c => ?_, ?_⟩
  · have hm' : m ∈ (ofClasses unit bases).membersOf c := hm
    obtain ⟨info, hinfo, hmem⟩ := exists_of_mem_membersOf hlen hm'
    have hdeclared : (ofClasses unit bases).members[m]? = some info := hmem
    have howner : info.owner = c := owner_of_mem_membersAt hinfo
    rw [getElem?_members_withFuncs, hdeclared]
    exact ⟨_, rfl, howner⟩
  · have hnodup : ((ofClasses unit bases).membersOf c).Nodup := (membersOf_leads hlen c).1
    exact hnodup
  · obtain ⟨height, hg⟩ :=
      exists_graded_of_checkAcyclic hlen (inRange_of_linkBases hlink) hacyclic
    refine ⟨height, ⟨fun {c b} hb => ?_⟩⟩
    have hb' : b ∈ (ofClasses unit bases).bases c := hb
    rw [bases_ofClasses hlen] at hb'
    exact hg.next_lt hb'

end MemberRefs.SymbolTable

/-! ## 6. Small units -/

namespace MemberRefs

/-- A name without a place of its own. -/
def bareName (name : String) : SpannedName := ⟨name, Span.atStart⟩

/-- A class with an `int` field for each of some names, all of it without places. -/
def bareClass (name : String) (bases fields : List String) : ClassDecl where
  name := bareName name
  bases := bases.map bareName
  members := fields.map fun f => .field ⟨bareName f, .named "int", false, Span.atStart⟩
  extent := Span.atStart

/-- A function with parameters of some types, all of it without places. -/
def bareFunc (name : String) (params : List Ty) (body : Option (List Stmt)) : FuncDecl where
  qualifier := none
  name := bareName name
  params := params.map fun type => ⟨none, type, false, Span.atStart⟩
  result := some (.named "int")
  isConst := false
  isStatic := false
  isVirtual := false
  body := body
  extent := Span.atStart

/-- A definition outside of the class that it is qualified by, without places. -/
def bareDefinition (owner name : String) (params : List Ty) (body : Option (List Stmt)) :
    FuncDecl :=
  { bareFunc name params body with qualifier := some (bareName owner) }

/-- A unit of declarations without a source text. -/
def bareUnit (decls : List TopDecl) : SourceUnit := ⟨"", none, decls, []⟩

end MemberRefs
