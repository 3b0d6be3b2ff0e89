import MemberRefs.Table.Basic
import MemberRefs.Unresolved

/-!
# Overload selection

Which of the members that a name means is called. A single one is taken as it is. Among several, only
methods that accept the number of arguments and the constness of the object can be called; of these the
one with the most exactly matching arguments wins, and between equals the one whose constness is that of
the object. A tie beyond that is ambiguous.
-/

namespace MemberRefs

/-- How well a method fits a call. -/
structure Rank where
  /-- How many arguments match their parameters exactly. -/
  exact : Nat
  /-- Whether the constness of the method is that of the object. -/
  sameConst : Bool
  deriving DecidableEq, Repr

/-- Whether the first rank is higher: by its matches, or by its constness when these are as many. -/
def Rank.beats (a b : Rank) : Bool :=
  b.exact < a.exact || (a.exact == b.exact && a.sameConst && !b.sameConst)

/-- Whether a known argument type decays to the same type as the type of the parameter. -/
def matchesParam (arg : Option Ty) (param : Param) : Bool :=
  arg.any fun type => type.decay == param.type.decay

/-- How well a method fits a call on an object. -/
def FuncDecl.rank (f : FuncDecl) (args : List (Option Ty)) (objectConst : Bool) : Rank where
  exact := ((args.zip f.params).filter fun (arg, param) => matchesParam arg param).length
  sameConst := f.isConst == objectConst

/-- Whether a method can be called with so many arguments on an object. -/
def FuncDecl.isViable (f : FuncDecl) (arity : Nat) (objectConst : Bool) : Bool :=
  f.acceptsArity arity && (!objectConst || f.isConst || f.isStatic)

namespace SymbolTable

/-- The rank of a member that can be called. -/
def rank? (table : SymbolTable) (args : List (Option Ty)) (objectConst : Bool) (m : MemberId) :
    Option Rank :=
  (table.method? m).bind fun f =>
    if f.isViable args.length objectConst then some (f.rank args objectConst) else none

/-- The candidates that can be called, with their ranks. -/
def viable (table : SymbolTable) (candidates : List MemberId) (args : List (Option Ty))
    (objectConst : Bool) : List (MemberId × Rank) :=
  candidates.filterMap fun m => (table.rank? args objectConst m).map fun rank => (m, rank)

/-- The ranked members that no other one beats. -/
def unbeaten (ranked : List (MemberId × Rank)) : List (MemberId × Rank) :=
  ranked.filter fun a => ranked.all fun b => !b.2.beats a.2

/-- The member that a name means among candidates, in a call with arguments or without one. -/
def selectOverload (table : SymbolTable) (name : String) (candidates : List MemberId)
    (args : Option (List (Option Ty))) (objectConst : Bool) : Except Unresolved MemberId :=
  match candidates, args with
  | [m], _ => .ok m
  | _, none => .error (.ambiguousOverload name)
  | _, some args =>
      match unbeaten (table.viable candidates args objectConst) with
      | [] => .error (.noViableOverload name)
      | [(m, _)] => .ok m
      | _ => .error (.ambiguousOverload name)

end SymbolTable

end MemberRefs
