import MemberRefs.Table.Inheritance
import MemberRefs.Unresolved

/-!
# Member lookup

The members that a name means in a class. Members of the class itself hide those of its bases, and a
name found in several bases is ambiguous unless all of them lead to the same members. The same rules
give the set of all members visible in a class.
-/

namespace MemberRefs

/-- What a name means in a class. -/
abbrev Found := Except Unresolved (List MemberId)

namespace SymbolTable

/-- The members with a name that a class itself declares. -/
def ownMembers (table : SymbolTable) (c : ClassId) (name : String) : List MemberId :=
  (table.membersOf c).filter fun m => table.memberName m == name

/-! ## 1. One name -/

/-- Joins what a name means in the bases of the class `owner`, after `found` in the bases before. -/
def mergeBases (owner name : String) : Option (List MemberId) → List Found → Found
  | some ms, [] => .ok ms
  | none, [] => .error (.noSuchMember owner name)
  | none, .ok ms :: rest => mergeBases owner name (some ms) rest
  | some previous, .ok ms :: rest =>
      if previous = ms then mergeBases owner name (some previous) rest
      else .error (.ambiguousBase owner name)
  | found, .error (.noSuchMember _ _) :: rest => mergeBases owner name found rest
  | _, .error reason :: _ => .error reason

/-- What a name means in a class, given what it means in the bases of the class. -/
def lookupStep (table : SymbolTable) (name : String) (results : List (ClassId × Found))
    (c : ClassId) : Found :=
  match table.ownMembers c name with
  | [] =>
      mergeBases (table.className c) name none ((table.bases c).filterMap fun b => results.lookup b)
  | own => .ok own

/-- The members with a name that are visible in a class. -/
def lookupMember (table : SymbolTable) (c : ClassId) (name : String) : Found :=
  let order := table.basesPostOrder c fun d => (table.ownMembers d name).isEmpty
  let results := order.foldl (fun results d => (d, table.lookupStep name results d) :: results) []
  match results.lookup c with
  | some found => found
  | none => .error (.noSuchMember (table.className c) name)

/-! ## 2. All names -/

/-- The members visible in a class, given those visible in its bases: its own and then the inherited
    ones with other names, each one once. -/
def effectiveStep (table : SymbolTable) (sets : List (ClassId × List MemberId)) (c : ClassId) :
    List MemberId :=
  let own := table.membersOf c
  let ownNames := own.map table.memberName
  let inherited := (table.bases c).flatMap fun b => (sets.lookup b).getD []
  own ++ (inherited.filter fun m => !ownNames.contains (table.memberName m)).eraseDups

/-- All members visible in a class. -/
def effectiveMembers (table : SymbolTable) (c : ClassId) : List MemberId :=
  let order := table.basesPostOrder c fun _ => true
  let sets := order.foldl (fun sets d => (d, table.effectiveStep sets d) :: sets) []
  (sets.lookup c).getD []

end SymbolTable

end MemberRefs
