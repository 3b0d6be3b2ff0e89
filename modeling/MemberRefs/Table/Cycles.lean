import MemberRefs.Table.Basic

/-!
# The search for cycles in base lists

A class lies on a cycle when following bases leads back to it. The search starts from every class in turn
and visits the bases of a class in order. It keeps the way from its last start to where it is, and for
every class a mark: not met yet, on the way, or done together with all its bases. Coming to a class that
is on the way closes a cycle.

A search is over when there is no class to start from and no way to go back on. Every class is started
from once, entered once and left once, and every base is visited once, which bounds the steps
(`CycleSearch.stepCount`).
-/

namespace MemberRefs

/-- How far a search has come with a class. -/
inductive Mark where
  | unmet
  | active
  | done
  deriving DecidableEq, Repr

/-- A search through base lists. -/
structure CycleSearch where
  /-- The classes still to start from. -/
  roots : List ClassId
  /-- The way from the last start, the class where the search is first. With each class stands the
      position of the next of its bases to visit. -/
  way : List (ClassId × Nat)
  marks : List Mark
  deriving DecidableEq, Repr

/-- The bases of a class in a list of base lists. -/
def SymbolTable.basesAt (bases : List (List ClassId)) (c : ClassId) : List ClassId := bases[c]?.getD []

namespace CycleSearch

/-- A search through so many classes that has not begun. -/
def start (count : Nat) : CycleSearch := ⟨List.range count, [], List.replicate count .unmet⟩

/-- The search with a class added to the way. -/
def enter (s : CycleSearch) (c : ClassId) : CycleSearch :=
  { s with way := (c, 0) :: s.way, marks := s.marks.set c .active }

/-- One step of a search; one that is over stays as it is. Coming to a class that is on the way is the
    error. -/
def step (bases : List (List ClassId)) (s : CycleSearch) : Except ClassId CycleSearch :=
  match s.way, s.roots with
  | [], [] => .ok s
  | [], root :: roots =>
      let rest := { s with roots := roots }
      if s.marks[root]? = some .unmet then .ok (rest.enter root) else .ok rest
  | (c, next) :: way, _ =>
      match (SymbolTable.basesAt bases c)[next]? with
      | none => .ok { s with way := way, marks := s.marks.set c .done }
      | some b =>
          let onward := { s with way := (c, next + 1) :: way }
          match s.marks[b]? with
          | some .unmet => .ok (onward.enter b)
          | some .active => .error b
          | some .done | none => .ok onward

/-- A search after so many steps more. -/
def run (bases : List (List ClassId)) : Nat → CycleSearch → Except ClassId CycleSearch
  | 0, s => .ok s
  | n + 1, s => do
      let s ← s.step bases
      run bases n s

/-- How many steps a search takes that closes no cycle. -/
def stepCount (bases : List (List ClassId)) : Nat :=
  2 * bases.length + bases.flatten.length

end CycleSearch

/-- The class at which the search for cycles, from every class in turn, comes back to itself. -/
def SymbolTable.findCycle? (bases : List (List ClassId)) : Option ClassId :=
  match CycleSearch.run bases (CycleSearch.stepCount bases) (CycleSearch.start bases.length) with
  | .ok _ => none
  | .error c => some c

end MemberRefs
