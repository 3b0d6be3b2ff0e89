import MemberRefs.Tree.DeclRef
import MemberRefs.Error

/-!
# Symbol tables

The classes, members and function bodies of a unit, each kind numbered from zero. Classes are numbered in
the order of their declarations, members class by class, and functions with a body in source order. What
a number stands for is looked up in the table; a number that stands for nothing has no bases, members,
name or type.
-/

namespace MemberRefs

/-- The number of a class. -/
abbrev ClassId := Nat

/-- The number of a member. -/
abbrev MemberId := Nat

/-- The number of a function with a body. -/
abbrev FuncId := Nat

/-- A class, with the numbers of its direct bases and of the members it declares itself. -/
structure ClassInfo where
  decl : ClassDecl
  bases : List ClassId
  members : List MemberId

/-- A definition of a method outside of its class. -/
structure Definition where
  decl : FuncDecl
  path : DeclPath

/-- A member, with its class and its definitions outside of the class. -/
structure MemberInfo where
  owner : ClassId
  decl : MemberDecl
  path : DeclPath
  definitions : List Definition

/-- A function with a body, for a method with its class and the member it is. -/
structure FuncInfo where
  decl : FuncDecl
  owner : Option (ClassId × MemberId)

/-- What the declarations of a unit introduce. -/
structure SymbolTable where
  unit : SourceUnit
  classes : List ClassInfo
  members : List MemberInfo
  funcs : List FuncInfo

/-! ## 1. Members -/

namespace MemberInfo

/-- The name of a member. -/
def name (m : MemberInfo) : String := m.decl.name.val

/-- The declaration of a method. -/
def method? (m : MemberInfo) : Option FuncDecl := m.decl.method?

/-- Whether a member belongs to the class and not to its objects. -/
def isStatic (m : MemberInfo) : Bool :=
  match m.decl with
  | .field d => d.isStatic
  | .method d => d.isStatic

/-- Whether a member is a virtual method. -/
def isVirtual (m : MemberInfo) : Bool := m.method?.any FuncDecl.isVirtual

/-- The type of an expression that names the member: that of a field, or the result of a method that
    is called. -/
def type? (m : MemberInfo) (called : Bool) : Option Ty :=
  match m.decl, called with
  | .field d, false => some d.type
  | .field _, true => none
  | .method d, true => d.result
  | .method _, false => none

end MemberInfo

/-! ## 2. Looking up numbers -/

namespace SymbolTable

/-- The numbers of all classes. -/
def classIds (table : SymbolTable) : List ClassId := List.range table.classes.length

/-- The numbers of all members. -/
def memberIds (table : SymbolTable) : List MemberId := List.range table.members.length

/-- The numbers of all functions with a body. -/
def funcIds (table : SymbolTable) : List FuncId := List.range table.funcs.length

/-- The class with a name. -/
def classNamed? (table : SymbolTable) (name : String) : Option ClassId :=
  table.classes.findIdx? fun c => c.decl.name.val == name

/-- The name of a class. -/
def className (table : SymbolTable) (c : ClassId) : String :=
  match table.classes[c]? with
  | some info => info.decl.name.val
  | none => ""

/-- The direct bases of a class in the order of its declaration. -/
def bases (table : SymbolTable) (c : ClassId) : List ClassId :=
  match table.classes[c]? with
  | some info => info.bases
  | none => []

/-- The members that a class itself declares, in order. -/
def membersOf (table : SymbolTable) (c : ClassId) : List MemberId :=
  match table.classes[c]? with
  | some info => info.members
  | none => []

/-- The name of a member. -/
def memberName (table : SymbolTable) (m : MemberId) : String :=
  match table.members[m]? with
  | some info => info.name
  | none => ""

/-- The declaration of a method. -/
def method? (table : SymbolTable) (m : MemberId) : Option FuncDecl :=
  (table.members[m]?).bind MemberInfo.method?

/-- The name of a member qualified by its class. -/
def qualifiedName (table : SymbolTable) (m : MemberId) : String :=
  match table.members[m]? with
  | some info => table.className info.owner ++ "::" ++ info.name
  | none => ""

/-- The name of a function, qualified by its class when it is a method. -/
def funcName (table : SymbolTable) (f : FuncId) : String :=
  match table.funcs[f]? with
  | some ⟨decl, some (c, _)⟩ => table.className c ++ "::" ++ decl.name.val
  | some ⟨decl, none⟩ => decl.name.val
  | none => ""

/-! ## 3. Members by declaration -/

/-- Whether a member is declared or defined at a path. -/
def declaresAt (info : MemberInfo) (path : DeclPath) : Bool :=
  info.path == path || info.definitions.any fun d => d.path == path

/-- The member that a declaration of the unit declares or defines. -/
def memberOf (table : SymbolTable) (ref : DeclRef) : Answer MemberId :=
  match ref.path.bind fun path => table.members.findIdx? (declaresAt · path) with
  | some m => .ok m
  | none => .error ⟨.invalidTarget ref.decl.shownName, ref.decl.extent⟩

end SymbolTable

end MemberRefs
