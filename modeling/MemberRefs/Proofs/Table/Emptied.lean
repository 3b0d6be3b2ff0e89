import MemberRefs.Proofs.Table.Contents
import MemberRefs.Table.Lookup
import MemberRefs.Table.Overload

/-!
# Function bodies play no part in a table

What the functions of a unit do has no influence on its table, beyond the size of the unit: which
declarations there are, how they are linked and what they are numbered is the same for every two units that
are equal when their bodies are emptied (`SourceUnit.emptied`). Look-ups in a table do not read bodies
either.

* `exists_of_emptied_eq`: a unit with other bodies has a table too, and the tables are equal when their
  bodies are emptied.
* `lookupMember_emptied`, `selectOverload_emptied`, `derivesFrom_emptied`: look-ups read no bodies.
-/

namespace MemberRefs

/-! ## 1. Empty bodies -/

/-- A function with nothing in its body. -/
def FuncDecl.emptied (f : FuncDecl) : FuncDecl := { f with body := f.body.map fun _ => [] }

def MemberDecl.emptied : MemberDecl → MemberDecl
  | field d => field d
  | method f => method f.emptied

def ClassDecl.emptied (d : ClassDecl) : ClassDecl :=
  { d with members := d.members.map MemberDecl.emptied }

def TopDecl.emptied : TopDecl → TopDecl
  | ofClass d => ofClass d.emptied
  | ofFunc f => ofFunc f.emptied

/-- A unit whose functions have nothing in their bodies. -/
def SourceUnit.emptied (unit : SourceUnit) : SourceUnit :=
  { unit with decls := unit.decls.map TopDecl.emptied }

def ClassInfo.emptied (info : ClassInfo) : ClassInfo := { info with decl := info.decl.emptied }

def Definition.emptied (d : Definition) : Definition := { d with decl := d.decl.emptied }

def MemberInfo.emptied (info : MemberInfo) : MemberInfo :=
  { info with decl := info.decl.emptied, definitions := info.definitions.map Definition.emptied }

def FuncInfo.emptied (info : FuncInfo) : FuncInfo := { info with decl := info.decl.emptied }

namespace SymbolTable

/-- A table whose functions have nothing in their bodies. -/
def emptied (table : SymbolTable) : SymbolTable where
  unit := table.unit.emptied
  classes := table.classes.map ClassInfo.emptied
  members := table.members.map MemberInfo.emptied
  funcs := table.funcs.map FuncInfo.emptied

variable {unit : SourceUnit} {options : Options} {table : SymbolTable}

/-! ## 2. What a number stands for -/

theorem getElem?_classes_emptied (c : ClassId) :
    table.emptied.classes[c]? = (table.classes[c]?).map ClassInfo.emptied := List.getElem?_map

theorem getElem?_members_emptied (m : MemberId) :
    table.emptied.members[m]? = (table.members[m]?).map MemberInfo.emptied := List.getElem?_map

@[simp] theorem classNamed?_emptied (name : String) :
    table.emptied.classNamed? name = table.classNamed? name := by
  simp only [classNamed?, emptied, List.findIdx?_map]
  rfl

@[simp] theorem className_emptied (c : ClassId) : table.emptied.className c = table.className c := by
  unfold className
  rw [getElem?_classes_emptied]
  cases table.classes[c]? <;> rfl

@[simp] theorem bases_emptied (c : ClassId) : table.emptied.bases c = table.bases c := by
  unfold bases
  rw [getElem?_classes_emptied]
  cases table.classes[c]? <;> rfl

@[simp] theorem membersOf_emptied (c : ClassId) : table.emptied.membersOf c = table.membersOf c := by
  unfold membersOf
  rw [getElem?_classes_emptied]
  cases table.classes[c]? <;> rfl

theorem name_emptied (decl : MemberDecl) : decl.emptied.name = decl.name := by cases decl <;> rfl

theorem method?_memberEmptied (decl : MemberDecl) :
    decl.emptied.method? = decl.method?.map FuncDecl.emptied := by cases decl <;> rfl

@[simp] theorem memberName_emptied (m : MemberId) : table.emptied.memberName m = table.memberName m := by
  unfold memberName
  rw [getElem?_members_emptied]
  cases table.members[m]? with
  | none => rfl
  | some info => exact congrArg Spanned.val (name_emptied info.decl)

@[simp] theorem method?_emptied (m : MemberId) :
    table.emptied.method? m = (table.method? m).map FuncDecl.emptied := by
  unfold method?
  rw [getElem?_members_emptied]
  cases table.members[m]? with
  | none => rfl
  | some info => exact method?_memberEmptied info.decl

/-! ## 3. Looking up -/

@[simp] theorem ownMembers_emptied (c : ClassId) (name : String) :
    table.emptied.ownMembers c name = table.ownMembers c name := by
  simp only [ownMembers, membersOf_emptied, memberName_emptied]

@[simp] theorem baseCount_emptied (table : SymbolTable) : table.emptied.baseCount = table.baseCount := by
  have hcount : table.emptied.classes.length = table.classes.length := List.length_map _
  rw [baseCount, classIds, hcount, funext bases_emptied, baseCount, classIds]

@[simp] theorem basesPostOrder_emptied (c : ClassId) (expand : ClassId → Bool) :
    table.emptied.basesPostOrder c expand = table.basesPostOrder c expand := by
  have hwhere : table.emptied.basesWhere expand = table.basesWhere expand := by
    funext d
    simp only [basesWhere, bases_emptied]
  rw [basesPostOrder, tourFrom, hwhere, baseCount_emptied, basesPostOrder, tourFrom]

@[simp] theorem derivesFrom_emptied (c d : ClassId) :
    table.emptied.derivesFrom c d = table.derivesFrom c d := by
  have hbases : table.emptied.bases = table.bases := funext bases_emptied
  rw [derivesFrom, hbases, baseCount_emptied, derivesFrom]

@[simp] theorem lookupMember_emptied (c : ClassId) (name : String) :
    table.emptied.lookupMember c name = table.lookupMember c name := by
  have hstep : table.emptied.lookupStep name = table.lookupStep name := by
    funext results d
    simp only [lookupStep, ownMembers_emptied, className_emptied, bases_emptied]
  simp only [lookupMember, ownMembers_emptied, basesPostOrder_emptied, className_emptied, hstep]

@[simp] theorem selectOverload_emptied (name : String) (candidates : List MemberId)
    (args : Option (List (Option Ty))) (objectConst : Bool) :
    table.emptied.selectOverload name candidates args objectConst =
      table.selectOverload name candidates args objectConst := by
  have hrank : ∀ types, table.emptied.rank? types objectConst = table.rank? types objectConst := by
    intro types
    funext m
    rw [rank?, method?_emptied, rank?]
    cases table.method? m <;> rfl
  simp only [selectOverload, viable, hrank]

/-! ## 4. Building -/

theorem classes_emptied (unit : SourceUnit) :
    unit.emptied.classes = unit.classes.map ClassDecl.emptied := by
  simp only [SourceUnit.classes, SourceUnit.emptied, List.filterMap_map, List.map_filterMap]
  refine List.filterMap_congr fun decl _ => ?_
  cases decl <;> rfl

/-- Names of classes and of their bases are all that is checked of classes. -/
theorem linkBases_emptied (classes : List ClassDecl) :
    linkBases (classes.map ClassDecl.emptied) = linkBases classes := by
  have hbase : ∀ d : ClassDecl,
      baseId (classes.map ClassDecl.emptied) d.emptied = baseId classes d := by
    intro d
    funext base
    unfold baseId
    rw [List.findIdx?_map]
    rfl
  unfold linkBases
  rw [List.mapM_map]
  simp only [Function.comp_def, hbase]
  rfl

theorem checkAcyclic_emptied (classes : List ClassDecl) (bases : List (List ClassId)) :
    checkAcyclic (classes.map ClassDecl.emptied) bases = checkAcyclic classes bases := by
  unfold checkAcyclic
  simp only [List.getElem?_map]
  cases findCycle? bases with
  | none => rfl
  | some c =>
    dsimp only [Option.bind_some]
    cases classes[c]? <;> rfl

theorem numberMembers_emptied : ∀ (classes : List ClassDecl) (next : MemberId),
    numberMembers next (classes.map ClassDecl.emptied) = numberMembers next classes
  | [], _ => rfl
  | c :: cs, next => by
      have hlen : c.emptied.members.length = c.members.length := List.length_map _
      rw [List.map_cons, numberMembers, hlen, numberMembers_emptied cs, numberMembers]

theorem classPositions_emptied (unit : SourceUnit) :
    classPositions unit.emptied = (classPositions unit).map (Prod.map ClassDecl.emptied id) := by
  simp only [classPositions, SourceUnit.emptied, List.zipIdx_map, List.filterMap_map,
    List.map_filterMap]
  refine List.filterMap_congr fun ⟨decl, i⟩ _ => ?_
  cases decl <;> rfl

theorem declaredMembers_emptied (unit : SourceUnit) :
    declaredMembers unit.emptied = (declaredMembers unit).map MemberInfo.emptied := by
  simp only [declaredMembers, classPositions_emptied, List.zipIdx_map, List.flatMap_map,
    List.map_flatMap]
  refine List.flatMap_congr fun ⟨⟨d, i⟩, owner⟩ _ => ?_
  simp only [Prod.map, id_eq, ClassDecl.emptied, List.zipIdx_map, List.map_map]
  rfl

theorem ofClasses_emptied (unit : SourceUnit) (bases : List (List ClassId)) :
    ofClasses unit.emptied bases = (ofClasses unit bases).emptied := by
  have hclasses : (unit.classes.map ClassDecl.emptied).zip
        (bases.zip (numberMembers 0 (unit.classes.map ClassDecl.emptied))) =
      (unit.classes.zip (bases.zip (numberMembers 0 unit.classes))).map
        (Prod.map ClassDecl.emptied id) := by
    rw [numberMembers_emptied, List.zip_map_left]
  simp only [ofClasses, emptied, classes_emptied, hclasses, declaredMembers_emptied, List.map_map,
    List.map_nil]
  rfl

/-- A declaration is linked to the same member. -/
theorem ownerOf_emptied (decl : TopDecl) : table.emptied.ownerOf decl.emptied = table.ownerOf decl := by
  have hmatch : ∀ f : FuncDecl, table.emptied.definedBy f.emptied = table.definedBy f := by
    intro f
    funext m
    rw [definedBy, method?_emptied, definedBy]
    cases table.method? m <;> rfl
  cases decl with
  | ofClass d => rfl
  | ofFunc f =>
    have hlink : ∀ q, table.emptied.linkDefinition q f.emptied = table.linkDefinition q f := by
      intro q
      simp only [linkDefinition, classNamed?_emptied, membersOf_emptied, hmatch]
      rfl
    have hq : f.emptied.qualifier = f.qualifier := rfl
    simp only [ownerOf, TopDecl.emptied, hq, hlink]

theorem definitionsOf_emptied (owned : List (TopDecl × Option (ClassId × MemberId))) (m : MemberId) :
    definitionsOf (owned.map (Prod.map TopDecl.emptied id)) m =
      (definitionsOf owned m).map Definition.emptied := by
  simp only [definitionsOf, List.zipIdx_map, List.filterMap_map, List.map_filterMap]
  refine List.filterMap_congr ?_
  rintro ⟨⟨decl | f, _ | ⟨c, n⟩⟩, i⟩ _
  · rfl
  · rfl
  · rfl
  · dsimp only [Function.comp_apply, Prod.map, TopDecl.emptied, id_eq]
    split <;> rfl

theorem methodBodies_emptied (c : ClassId) :
    table.emptied.methodBodies c = (table.methodBodies c).map FuncInfo.emptied := by
  simp only [methodBodies, membersOf_emptied, method?_emptied, List.map_filterMap]
  refine List.filterMap_congr fun m _ => ?_
  cases table.method? m with
  | none => rfl
  | some f =>
    have hbody : f.emptied.body.isSome = f.body.isSome := Option.isSome_map
    dsimp only [Option.map_some, Option.bind_some]
    rw [hbody]
    split <;> rfl

theorem bodies_emptied (owner : Option (ClassId × MemberId)) (decl : TopDecl) :
    table.emptied.bodies owner decl.emptied = (table.bodies owner decl).map FuncInfo.emptied := by
  cases decl with
  | ofClass d =>
    have hname : d.emptied.name = d.name := rfl
    simp only [bodies, TopDecl.emptied, hname, classNamed?_emptied]
    cases table.classNamed? d.name.val with
    | none => rfl
    | some c => exact methodBodies_emptied c
  | ofFunc f =>
    have hbody : f.emptied.body.isSome = f.body.isSome := Option.isSome_map
    simp only [bodies, TopDecl.emptied, hbody]
    split <;> rfl

/-- The functions of linked declarations, by their bodies. -/
theorem flatMap_bodies_emptied (linked : List (TopDecl × Option (ClassId × MemberId))) :
    (linked.map (Prod.map TopDecl.emptied id)).flatMap
        (fun (decl, owner) => table.emptied.bodies owner decl) =
      (linked.flatMap fun (decl, owner) => table.bodies owner decl).map FuncInfo.emptied := by
  rw [List.flatMap_map, List.map_flatMap]
  refine List.flatMap_congr ?_
  rintro ⟨decl, owner⟩ _
  exact bodies_emptied owner decl

theorem withFuncs_emptied (owners : List (Option (ClassId × MemberId))) :
    table.emptied.withFuncs owners = (table.withFuncs owners).emptied := by
  have howned : table.emptied.unit.decls.zip owners =
      (table.unit.decls.zip owners).map (Prod.map TopDecl.emptied id) := List.zip_map_left
  have hmembers : table.emptied.members.mapIdx (fun m info => { info with
        definitions := definitionsOf ((table.unit.decls.zip owners).map (Prod.map TopDecl.emptied id)) m }) =
      (table.members.mapIdx fun m info =>
        { info with definitions := definitionsOf (table.unit.decls.zip owners) m }).map
          MemberInfo.emptied := by
    refine List.ext_getElem? fun m => ?_
    rw [List.getElem?_map, List.getElem?_mapIdx, List.getElem?_mapIdx, getElem?_members_emptied]
    cases table.members[m]? with
    | none => rfl
    | some info =>
      simp only [Option.map_some, definitionsOf_emptied]
      rfl
  simp only [withFuncs, howned, flatMap_bodies_emptied, hmembers]
  rfl

/-- The owners of the declarations do not depend on bodies. -/
theorem mapM_ownerOf_emptied (unit : SourceUnit) (bases : List (List ClassId)) :
    unit.emptied.decls.mapM (ofClasses unit.emptied bases).ownerOf =
      unit.decls.mapM (ofClasses unit bases).ownerOf := by
  have hdecls : unit.emptied.decls = unit.decls.map TopDecl.emptied := rfl
  rw [ofClasses_emptied, hdecls, List.mapM_map]
  simp only [Function.comp_def, ownerOf_emptied]

/-- **A unit with other bodies has the same table up to bodies**, when it is no larger. -/
theorem exists_of_emptied_eq {unit' : SourceUnit} (h : build unit options = .ok table)
    (hsame : unit'.emptied = unit.emptied) (hsize : unit'.nodeCount ≤ unit.nodeCount) :
    ∃ table', build unit' options = .ok table' ∧ table'.emptied = table.emptied := by
  obtain ⟨bases, owners, hcheck, hdistinct, hlink, hacyclic, howners, rfl⟩ := build_eq_ok h
  have hclasses : unit'.classes.map ClassDecl.emptied = unit.classes.map ClassDecl.emptied := by
    rw [← classes_emptied, hsame, classes_emptied]
  have hcheck' : checkSize unit' options = .ok () := by
    unfold checkSize at hcheck ⊢
    split at hcheck
    · rename_i hle
      rw [if_pos (Nat.le_trans hsize hle)]
    · cases hcheck
  have hnames : unit'.classes.map ClassDecl.name = unit.classes.map ClassDecl.name := by
    have hname := congrArg (List.map ClassDecl.name) hclasses
    rwa [List.map_map, List.map_map] at hname
  rw [← linkBases_emptied, ← hclasses, linkBases_emptied] at hlink
  rw [← checkAcyclic_emptied, ← hclasses, checkAcyclic_emptied] at hacyclic
  rw [← mapM_ownerOf_emptied, ← hsame, mapM_ownerOf_emptied] at howners
  refine ⟨(ofClasses unit' bases).withFuncs owners, ?_, ?_⟩
  · unfold build
    rw [hcheck', hnames, hdistinct]
    simp only [bind, Except.bind, hlink, hacyclic, howners]
    rfl
  · rw [← withFuncs_emptied, ← ofClasses_emptied, hsame, ofClasses_emptied, withFuncs_emptied]

end SymbolTable

/-! ## 5. Another body -/

/-- A function with another body. -/
def FuncDecl.withBody (f : FuncDecl) (body : List Stmt) : FuncDecl := { f with body := some body }

def MemberDecl.withBody (body : List Stmt) : MemberDecl → MemberDecl
  | field d => field d
  | method f => method (f.withBody body)

def TopDecl.withBody (body : List Stmt) : TopDecl → TopDecl
  | ofClass d => ofClass d
  | ofFunc f => ofFunc (f.withBody body)

/-- A class with another body for its member at an index. -/
def TopDecl.withMemberBody (j : Nat) (body : List Stmt) : TopDecl → TopDecl
  | ofClass d => ofClass { d with members := d.members.modify j (MemberDecl.withBody body) }
  | ofFunc f => ofFunc f

namespace SourceUnit

/-- A unit with another body for the function at a path. -/
def withBody (unit : SourceUnit) (path : DeclPath) (body : List Stmt) : SourceUnit :=
  match path with
  | .top i => { unit with decls := unit.decls.modify i (TopDecl.withBody body) }
  | .member i j => { unit with decls := unit.decls.modify i (TopDecl.withMemberBody j body) }
  | .param _ _ | .variable _ _ => unit

variable {unit : SourceUnit} {path : DeclPath} {f : FuncDecl} {body : List Stmt}

/-- A function with a body stands at the top level or is a member of a class. -/
theorem exists_of_hasBody (h : unit.HasBody path f) :
    (∃ i, path = .top i ∧ unit.decls[i]? = some (.ofFunc f)) ∨
      ∃ i j d, path = .member i j ∧ unit.decls[i]? = some (.ofClass d) ∧
        d.members[j]? = some (.method f) := by
  obtain ⟨⟨decl, i⟩, hdecl, hsite⟩ := List.mem_flatMap.mp (mem_bodySites.mpr h)
  have hdecl := List.mem_zipIdx_iff_getElem?.mp hdecl
  obtain ⟨_, ⟨d, j, rfl, hmember, rfl⟩ | ⟨rfl, rfl⟩⟩ := mem_bodiesAt.mp hsite
  · exact .inr ⟨i, j, d, rfl, hdecl, hmember⟩
  · exact .inl ⟨i, rfl, hdecl⟩

/-- A changed element that looks the same leaves what the list looks like. -/
theorem map_modify_eq {α β : Type} {look : α → β} {change : α → α} {as : List α} {i : Nat} {a : α}
    (ha : as[i]? = some a) (hsame : look (change a) = look a) :
    (as.modify i change).map look = as.map look := by
  refine List.ext_getElem? fun k => ?_
  rw [List.getElem?_map, List.getElem?_map, List.getElem?_modify]
  split
  · rename_i hk
    rw [← hk, ha]
    exact congrArg some hsame
  · simp

theorem foldl_add_mono {α : Type} (size : α → Nat) (as : List α) {n m : Nat} (h : n ≤ m) :
    as.foldl (fun n a => n + size a) n ≤ as.foldl (fun n a => n + size a) m := by
  induction as generalizing n m with
  | nil => exact h
  | cons a as ih => exact ih (Nat.add_le_add_right h _)

/-- With a smaller element a list has a smaller size in all. -/
theorem foldl_modify_le {α : Type} {size : α → Nat} {change : α → α} :
    ∀ {as : List α} {i : Nat} {a : α} (n : Nat), as[i]? = some a → size (change a) ≤ size a →
      (as.modify i change).foldl (fun n a => n + size a) n ≤ as.foldl (fun n a => n + size a) n
  | a :: as, 0, _, n, ha, hsize => by
      cases ha
      exact foldl_add_mono size as (Nat.add_le_add_left hsize n)
  | a :: _, _ + 1, _, n, ha, hsize => foldl_modify_le (n + size a) ha hsize

/-- The function at the path has the other body. -/
theorem decl?_withBody (h : unit.HasBody path f) :
    (unit.withBody path body).decl? path = some (.ofFunc (f.withBody body)) := by
  obtain ⟨i, rfl, hdecl⟩ | ⟨i, j, d, rfl, hdecl, hmember⟩ := exists_of_hasBody h
  · simp [decl?, withBody, hdecl, TopDecl.withBody]
  · simp [decl?, withBody, hdecl, TopDecl.withMemberBody, hmember, MemberDecl.withBody,
      MemberDecl.toDecl]

/-- Nothing but the body is different. -/
theorem emptied_withBody (h : unit.HasBody path f) :
    (unit.withBody path body).emptied = unit.emptied := by
  have hbody : (f.withBody body).emptied = f.emptied := by
    obtain ⟨_, hsome⟩ := h
    obtain ⟨old, hold⟩ := Option.isSome_iff_exists.mp hsome
    simp [FuncDecl.emptied, FuncDecl.withBody, hold]
  obtain ⟨i, rfl, hdecl⟩ | ⟨i, j, d, rfl, hdecl, hmember⟩ := exists_of_hasBody h
  · have hsame : (unit.decls.modify i (TopDecl.withBody body)).map TopDecl.emptied =
        unit.decls.map TopDecl.emptied := map_modify_eq hdecl (congrArg TopDecl.ofFunc hbody)
    simp only [emptied, withBody, hsame]
  · have hmembers : (d.members.modify j (MemberDecl.withBody body)).map MemberDecl.emptied =
        d.members.map MemberDecl.emptied := map_modify_eq hmember (congrArg MemberDecl.method hbody)
    have hclass : (TopDecl.withMemberBody j body (.ofClass d)).emptied = TopDecl.emptied (.ofClass d) := by
      simp only [TopDecl.withMemberBody, TopDecl.emptied, ClassDecl.emptied, hmembers]
    have hsame : (unit.decls.modify i (TopDecl.withMemberBody j body)).map TopDecl.emptied =
        unit.decls.map TopDecl.emptied := map_modify_eq hdecl hclass
    simp only [emptied, withBody, hsame]

/-- A smaller body makes the unit no larger. -/
theorem nodeCount_withBody_le (h : unit.HasBody path f)
    (hsize : Stmt.nodeCounts body ≤ Stmt.nodeCounts f.statements) :
    (unit.withBody path body).nodeCount ≤ unit.nodeCount := by
  have hfunc : (f.withBody body).nodeCount ≤ f.nodeCount := Nat.add_le_add_left hsize _
  obtain ⟨i, rfl, hdecl⟩ | ⟨i, j, d, rfl, hdecl, hmember⟩ := exists_of_hasBody h
  · exact foldl_modify_le _ hdecl hfunc
  · have hclass : (TopDecl.withMemberBody j body (.ofClass d)).nodeCount ≤ (TopDecl.ofClass d).nodeCount :=
      foldl_modify_le _ hmember hfunc
    exact foldl_modify_le _ hdecl hclass

theorem bodiesAt_emptied (decl : TopDecl) (i : Nat) :
    bodiesAt (decl.emptied, i) = (bodiesAt (decl, i)).map (Prod.map id FuncDecl.emptied) := by
  have hbody : ∀ f : FuncDecl, f.emptied.body.isSome = f.body.isSome := fun f => Option.isSome_map
  cases decl with
  | ofClass d =>
    simp only [bodiesAt, TopDecl.emptied, ClassDecl.emptied, List.zipIdx_map, List.filterMap_map,
      List.map_filterMap]
    refine List.filterMap_congr ?_
    rintro ⟨_ | f, j⟩ _
    · rfl
    · simp only [Function.comp_apply, Prod.map, MemberDecl.emptied, memberBody?, hbody]
      split <;> rfl
  | ofFunc f =>
    simp only [bodiesAt, TopDecl.emptied, hbody]
    split <;> rfl

theorem bodySites_emptied (unit : SourceUnit) :
    unit.emptied.bodySites = unit.bodySites.map (Prod.map id FuncDecl.emptied) := by
  simp only [bodySites, emptied, List.zipIdx_map, List.flatMap_map, List.map_flatMap]
  refine List.flatMap_congr ?_
  rintro ⟨decl, i⟩ _
  exact bodiesAt_emptied decl i

/-- Functions have the same paths whatever their bodies do. -/
theorem path_of_emptied_eq {unit' : SourceUnit} (hsame : unit'.emptied = unit.emptied) {i : Nat}
    {path' : DeclPath} {f' : FuncDecl} (h : unit.bodySites[i]? = some (path, f))
    (h' : unit'.bodySites[i]? = some (path', f')) : path' = path := by
  have hsites := congrArg bodySites hsame
  rw [bodySites_emptied, bodySites_emptied] at hsites
  have hsite := congrArg (·[i]?) hsites
  simp only [List.getElem?_map, h, h', Option.map_some, Option.some.injEq] at hsite
  exact congrArg Prod.fst hsite

end SourceUnit

/-- **A function with another body** is all that changes in a table, when the body is no larger: the table
    is built and is the same up to bodies, and the function keeps its number. -/
theorem SymbolTable.exists_of_withBody {unit : SourceUnit} {options : Options} {table : SymbolTable}
    {f : FuncId} {info : FuncInfo} (h : build unit options = .ok table)
    (hf : table.funcs[f]? = some info) : ∃ path, unit.bodySites[f]? = some (path, info.decl) ∧
      ∀ body, Stmt.nodeCounts body ≤ Stmt.nodeCounts info.decl.statements →
        ∃ table', build (unit.withBody path body) options = .ok table' ∧
          table'.emptied = table.emptied ∧
          table'.funcs[f]? = some { info with decl := info.decl.withBody body } := by
  obtain ⟨path, hsite, _⟩ := exists_describes h hf
  have hbody := SourceUnit.mem_bodySites.mp (List.mem_of_getElem? hsite)
  refine ⟨path, hsite, fun body hsize => ?_⟩
  have hsame : (unit.withBody path body).emptied = unit.emptied := SourceUnit.emptied_withBody hbody
  obtain ⟨table', h', hemptied⟩ := exists_of_emptied_eq h hsame
    (SourceUnit.nodeCount_withBody_le hbody hsize)
  refine ⟨table', h', hemptied, ?_⟩
  -- the function of that number has the same class, and stands at the same path
  have hinfo := congrArg (fun t => t.funcs[f]?) hemptied
  simp only [emptied, List.getElem?_map, hf, Option.map_some, Option.map_eq_some_iff] at hinfo
  obtain ⟨info', hf', hinfo⟩ := hinfo
  obtain ⟨path', hsite', _⟩ := exists_describes h' hf'
  obtain rfl := SourceUnit.path_of_emptied_eq hsame hsite hsite'
  obtain ⟨hdecl', _⟩ := SourceUnit.mem_bodySites.mp (List.mem_of_getElem? hsite')
  rw [SourceUnit.decl?_withBody hbody] at hdecl'
  rw [hf']
  obtain ⟨decl', owner'⟩ := info'
  cases hdecl'
  obtain rfl : owner' = info.owner := congrArg FuncInfo.owner hinfo
  rfl

end MemberRefs
