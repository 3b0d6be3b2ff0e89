import MemberRefs.Table.Cycles

/-!
# Building symbol tables

A unit has a table when it is not too large, its classes have different names, every base is a class of
the unit, no class derives from itself, and every definition outside of a class matches a method that the
class declares. The first of these conditions that fails is the error, in this order; under one condition
the first offence in source order counts.
-/

namespace MemberRefs

/-- What a caller may set. -/
structure Options where
  /-- Units with more syntax nodes than this are rejected. -/
  maxNodes : Nat := 1000000
  deriving DecidableEq, Repr

namespace SymbolTable

/-! ## 1. Class names and bases -/

/-- Fails at the first name that is among the ones before it or among `seen`. -/
def checkDistinct : List SpannedName → List SpannedName → Answer Unit
  | _, [] => .ok ()
  | seen, name :: names =>
      match seen.find? fun earlier => earlier.val == name.val with
      | some earlier => .error ⟨.duplicateClass name.val earlier.span, name.span⟩
      | none => checkDistinct (name :: seen) names

/-- The number of the class that a base names. -/
def baseId (classes : List ClassDecl) (derived : ClassDecl) (base : SpannedName) :
    Answer ClassId :=
  match classes.findIdx? fun c => c.name.val == base.val with
  | some id => .ok id
  | none => .error ⟨.unknownBaseClass derived.name.val base.val, base.span⟩

/-- The numbers of the bases of every class. -/
def linkBases (classes : List ClassDecl) : Answer (List (List ClassId)) :=
  classes.mapM fun c => c.bases.mapM (baseId classes c)

/-! ## 2. Cycles -/

/-- Fails when a class derives from itself. -/
def checkAcyclic (classes : List ClassDecl) (bases : List (List ClassId)) : Answer Unit :=
  match (findCycle? bases).bind (classes[·]?) with
  | some c => .error ⟨.cyclicInheritance c.name.val, c.name.span⟩
  | none => .ok ()

/-! ## 3. Members -/

/-- The members of classes, numbered through from `next` on. -/
def numberMembers : MemberId → List ClassDecl → List (List MemberId)
  | _, [] => []
  | next, c :: cs =>
      List.range' next c.members.length :: numberMembers (next + c.members.length) cs

/-- The class declarations of a unit with their positions among its declarations. -/
def classPositions (unit : SourceUnit) : List (ClassDecl × Nat) :=
  unit.decls.zipIdx.filterMap fun (decl, i) => decl.class?.map fun c => (c, i)

/-- The members of all classes, not yet linked to definitions outside of them. -/
def declaredMembers (unit : SourceUnit) : List MemberInfo :=
  (classPositions unit).zipIdx.flatMap fun ((c, i), owner) =>
    c.members.zipIdx.map fun (decl, j) => ⟨owner, decl, .member i j, []⟩

/-- The classes and members of a unit, without functions. -/
def ofClasses (unit : SourceUnit) (bases : List (List ClassId)) : SymbolTable where
  unit := unit
  classes := (unit.classes.zip (bases.zip (numberMembers 0 unit.classes))).map
    fun (decl, bases, members) => ⟨decl, bases, members⟩
  members := declaredMembers unit
  funcs := []

/-! ## 4. Functions -/

/-- Whether a member is a method with the name and the signature of `f`. -/
def definedBy (table : SymbolTable) (f : FuncDecl) (m : MemberId) : Bool :=
  (table.method? m).any fun method =>
    method.name.val == f.name.val && method.signature == f.signature

/-- The class that qualifies a definition and the first of its methods that the definition matches. -/
def linkDefinition (table : SymbolTable) (qualifier : SpannedName) (f : FuncDecl) :
    Answer (ClassId × MemberId) :=
  match table.classNamed? qualifier.val with
  | none => .error ⟨.unknownQualifier qualifier.val, qualifier.span⟩
  | some c =>
      match (table.membersOf c).find? (table.definedBy f) with
      | some m => .ok (c, m)
      | none =>
          .error ⟨.unmatchedDefinition qualifier.val f.name.val f.signature, f.name.span⟩

/-- The class and member that a top-level declaration defines, when it is a qualified function. -/
def ownerOf (table : SymbolTable) : TopDecl → Answer (Option (ClassId × MemberId))
  | .ofClass _ => .ok none
  | .ofFunc f =>
      match f.qualifier with
      | none => .ok none
      | some qualifier => (table.linkDefinition qualifier f).map some

/-- The methods of a class that have a body in the class. -/
def methodBodies (table : SymbolTable) (c : ClassId) : List FuncInfo :=
  (table.membersOf c).filterMap fun m =>
    (table.method? m).bind fun method =>
      if method.body.isSome then some ⟨method, some (c, m)⟩ else none

/-- The functions with a body that a top-level declaration holds. -/
def bodies (table : SymbolTable) (owner : Option (ClassId × MemberId)) : TopDecl → List FuncInfo
  | .ofClass d =>
      match table.classNamed? d.name.val with
      | some c => table.methodBodies c
      | none => []
  | .ofFunc f => if f.body.isSome then [⟨f, owner⟩] else []

/-- The definitions of a member among the top-level declarations and their owners. -/
def definitionsOf (owned : List (TopDecl × Option (ClassId × MemberId))) (m : MemberId) :
    List Definition :=
  owned.zipIdx.filterMap fun ((decl, owner), i) =>
    match decl, owner with
    | .ofFunc f, some (_, n) => if n = m then some ⟨f, .top i⟩ else none
    | _, _ => none

/-- The table completed by the functions of its unit, given what each top-level declaration defines. -/
def withFuncs (table : SymbolTable) (owners : List (Option (ClassId × MemberId))) : SymbolTable :=
  let owned := table.unit.decls.zip owners
  { table with
    members := table.members.mapIdx fun m info =>
      { info with definitions := definitionsOf owned m }
    funcs := owned.flatMap fun (decl, owner) => table.bodies owner decl }

/-! ## 5. The table of a unit -/

/-- Fails when a unit has more syntax nodes than allowed. -/
def checkSize (unit : SourceUnit) (options : Options) : Answer Unit :=
  if unit.nodeCount ≤ options.maxNodes then .ok ()
  else .error (Error.unitTooLarge unit.nodeCount options.maxNodes).unplaced

/-- The table of a unit. -/
def build (unit : SourceUnit) (options : Options) : Answer SymbolTable := do
  checkSize unit options
  checkDistinct [] (unit.classes.map ClassDecl.name)
  let bases ← linkBases unit.classes
  checkAcyclic unit.classes bases
  let table := ofClasses unit bases
  let owners ← unit.decls.mapM table.ownerOf
  return table.withFuncs owners

end SymbolTable

end MemberRefs
