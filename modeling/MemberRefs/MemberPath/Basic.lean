import MemberRefs.Table.Basic

/-!
# Member paths

A member named in text: its class, its name and, to pick one of several overloads, its signature. A path
leads to a member that the class itself declares; inherited members belong to the base class.
-/

namespace MemberRefs

/-- A class, a name in it and perhaps a signature. -/
structure MemberPath where
  owner : String
  member : String
  signature : Option Signature
  deriving DecidableEq, Repr

/-- The path as text. -/
def MemberPath.text (path : MemberPath) : String :=
  path.owner ++ "::" ++ path.member ++
    match path.signature with
    | some signature => signature.text
    | none => ""

namespace SymbolTable

/-- Whether a member has the name, and as a method the signature, that a path asks for. -/
def matchesPath (table : SymbolTable) (path : MemberPath) (m : MemberId) : Bool :=
  table.memberName m == path.member &&
    match path.signature with
    | none => true
    | some signature => (table.method? m).any fun method => method.signature == signature

/-- The member that a path leads to. -/
def lookupTarget (table : SymbolTable) (path : MemberPath) : Answer MemberId :=
  match table.classNamed? path.owner with
  | none => .error (Error.invalidTarget path.text).unplaced
  | some c =>
      match (table.membersOf c).filter (table.matchesPath path) with
      | [] => .error (Error.invalidTarget path.text).unplaced
      | [m] => .ok m
      | candidates =>
          let signatures := (candidates.filterMap table.method?).map FuncDecl.signature
          .error (Error.ambiguousTarget path.owner path.member signatures).unplaced

end SymbolTable

end MemberRefs
