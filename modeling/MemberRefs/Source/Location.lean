import MemberRefs.Text.Blank
import MemberRefs.Text.Decimal

/-!
# Locations

A place between two characters of a source text, by line and column. Both count from zero; in writing,
`line:column`, they count from one and stay below 2 ^ 32. Locations are ordered line by line, and the
order is linear (`Location.le_total`, `Location.le_antisymm`).
-/

namespace MemberRefs

/-- A line and a column of it, both counted from zero. -/
structure Location where
  line : Nat
  column : Nat
  deriving DecidableEq, Inhabited, Repr

namespace Location

/-! ## 1. The order -/

/-- The first line decides, then the column. -/
protected def le (a b : Location) : Prop :=
  a.line < b.line ∨ a.line = b.line ∧ a.column ≤ b.column

/-- Before, and not the same place. -/
protected def lt (a b : Location) : Prop :=
  a.line < b.line ∨ a.line = b.line ∧ a.column < b.column

instance : LE Location := ⟨Location.le⟩

instance : LT Location := ⟨Location.lt⟩

theorem le_def {a b : Location} :
    a ≤ b ↔ a.line < b.line ∨ a.line = b.line ∧ a.column ≤ b.column := Iff.rfl

theorem lt_def {a b : Location} :
    a < b ↔ a.line < b.line ∨ a.line = b.line ∧ a.column < b.column := Iff.rfl

instance (a b : Location) : Decidable (a ≤ b) := decidable_of_iff _ le_def.symm

instance (a b : Location) : Decidable (a < b) := decidable_of_iff _ lt_def.symm

theorem le_refl (a : Location) : a ≤ a := by
  simp [le_def]

theorem le_trans {a b c : Location} (hab : a ≤ b) (hbc : b ≤ c) : a ≤ c := by
  simp only [le_def] at *; omega

theorem le_antisymm {a b : Location} (hab : a ≤ b) (hba : b ≤ a) : a = b := by
  cases a; cases b; simp only [le_def, mk.injEq] at *; omega

theorem le_total (a b : Location) : a ≤ b ∨ b ≤ a := by
  simp only [le_def]; omega

theorem le_of_lt {a b : Location} (hab : a < b) : a ≤ b := by
  simp only [le_def, lt_def] at *; omega

theorem lt_irrefl (a : Location) : ¬ a < a := by
  simp [lt_def]

theorem lt_of_lt_of_le {a b c : Location} (hab : a < b) (hbc : b ≤ c) : a < c := by
  simp only [le_def, lt_def] at *; omega

theorem not_le {a b : Location} : ¬ a ≤ b ↔ b < a := by
  simp only [le_def, lt_def]; omega

/-- The earlier of two locations. -/
def min (a b : Location) : Location := if a ≤ b then a else b

/-- The later of two locations. -/
def max (a b : Location) : Location := if a ≤ b then b else a

/-! ## 2. The written form -/

/-- The largest number that is written for a line or a column. -/
def largestCoordinate : Nat := 4294967295

/-- The location as `line:column`, counted from one. -/
def text (a : Location) : String :=
  toString (a.line + 1) ++ ":" ++ toString (a.column + 1)

instance : ToString Location := ⟨text⟩

/-- A line or column counted from one, with blanks around it or without. -/
def readCoordinate (cs : List Char) : Option Nat :=
  match Text.readSignedDecimal (Text.trim cs) with
  | some n => if 1 ≤ n ∧ n ≤ largestCoordinate then some (n - 1) else none
  | none => none

/-- The location that characters denote, cut at their first `:`. -/
def ofChars? (cs : List Char) : Option Location :=
  match cs.dropWhile (· != ':') with
  | [] => none
  | _ :: column => do
      let line ← readCoordinate (cs.takeWhile (· != ':'))
      let column ← readCoordinate column
      some ⟨line, column⟩

end Location

end MemberRefs
