import MemberRefs.Table.Basic

/-!
# Inheritance

The classes that a class derives from, found in two ways.

A tour lists them, each one once and after the classes it derives from itself. A predicate says below
which classes to look: the bases of a class are visited only when it holds for the class. The tour keeps
the way from its start to where it is, and for every class on it the position of the next base to visit.

An ascent looks for one of them. It works off a list of classes still to visit, the last one added first,
and passes over those that it visited before.

Both visit the bases of a class once, so the number of bases bounds their steps
(`SymbolTable.baseCount`).
-/

namespace MemberRefs

/-! ## 1. Tours -/

/-- A tour through base lists. -/
structure Tour where
  /-- The way from the start, the class where the tour is first. With each class stands the position of
      the next of its bases to visit. -/
  way : List (ClassId × Nat)
  /-- The classes met so far. -/
  seen : List ClassId
  /-- The classes that are done, in the order in which they were. -/
  order : List ClassId
  deriving DecidableEq, Repr

namespace Tour

/-- A tour that stands at its first class. -/
def start (c : ClassId) : Tour := ⟨[(c, 0)], [c], []⟩

/-- One step of a tour; one that is over stays as it is. -/
def step (next : ClassId → List ClassId) (t : Tour) : Tour :=
  match t.way with
  | [] => t
  | (c, i) :: way =>
      match (next c)[i]? with
      | none => { t with way := way, order := t.order ++ [c] }
      | some b =>
          if b ∈ t.seen then { t with way := (c, i + 1) :: way }
          else { t with way := (b, 0) :: (c, i + 1) :: way, seen := b :: t.seen }

/-- A tour after so many steps more. -/
def run (next : ClassId → List ClassId) : Nat → Tour → Tour
  | 0, t => t
  | n + 1, t => run next n (t.step next)

end Tour

/-! ## 2. Ascents -/

/-- An ascent through base lists. -/
structure Ascent where
  /-- The classes still to visit, the next one first. -/
  pending : List ClassId
  visited : List ClassId
  deriving DecidableEq, Repr

/-- Whether an ascent comes to the class `goal`; nothing when it takes more steps than given. -/
def Ascent.run (next : ClassId → List ClassId) (goal : ClassId) : Nat → Ascent → Option Bool
  | 0, _ => none
  | _ + 1, ⟨[], _⟩ => some false
  | n + 1, ⟨c :: pending, visited⟩ =>
      if c = goal then some true
      else if c ∈ visited then run next goal n ⟨pending, visited⟩
      else run next goal n ⟨(next c).reverse ++ pending, c :: visited⟩

/-! ## 3. Base lists of a table -/

namespace SymbolTable

/-- The bases to visit from a class. -/
def basesWhere (table : SymbolTable) (expand : ClassId → Bool) (c : ClassId) : List ClassId :=
  if expand c then table.bases c else []

/-- How many bases all classes have together. -/
def baseCount (table : SymbolTable) : Nat := (table.classIds.flatMap table.bases).length

/-- The tour from a class when it is over. Each base costs a step to visit it and at most one to leave
    the class again. -/
def tourFrom (table : SymbolTable) (c : ClassId) (expand : ClassId → Bool) : Tour :=
  .run (table.basesWhere expand) (2 * table.baseCount + 1) (.start c)

/-- Every class that is reached from `c` through base lists, bases before the classes that derive from
    them. The bases of a class are only visited when `expand` holds for it. -/
def basesPostOrder (table : SymbolTable) (c : ClassId) (expand : ClassId → Bool) : List ClassId :=
  (table.tourFrom c expand).order

/-- Whether `c` is `base` or derives from it. -/
def derivesFrom (table : SymbolTable) (c base : ClassId) : Bool :=
  (Ascent.run table.bases base (table.baseCount + 2) ⟨[c], []⟩).getD false

end SymbolTable

end MemberRefs
