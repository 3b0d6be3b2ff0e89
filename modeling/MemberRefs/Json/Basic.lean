/-!
# JSON values

Values as they are written: a number keeps its literal and an object its members in written order, also
when a key occurs twice. The escapes of a string may leave half a surrogate pair alone; such a string is
well formed and denotes no text (`Json.broken`). `Json.depth` counts how deep arrays and objects are
nested, which is what bounds the reading of a value into a tree.
-/

namespace MemberRefs

/-- A JSON value as it is written. -/
inductive Json where
  | null
  | bool (value : Bool)
  | num (literal : String)
  | str (text : String)
  | arr (items : List Json)
  | obj (members : List (String × Json))
  /-- A string that denotes no text, or an object with such a string among its keys. -/
  | broken
  deriving Inhabited

namespace Json

/-- The number `n` as a value. -/
def ofNat (n : Nat) : Json := .num (toString n)

/-- A value that may be absent, `null` when it is. -/
def ofOption : Option Json → Json
  | none => .null
  | some value => value

/-- The largest number that is read. -/
def largestNat : Nat := 18446744073709551615

/-- The number that a value made of digits alone denotes. -/
def nat? : Json → Option Nat
  | .num literal =>
      if literal.toList.all Char.isDigit then
        let n := Nat.ofDigitChars 10 literal.toList 0
        if n ≤ largestNat then some n else none
      else none
  | _ => none

/-- The text of a string. -/
def str? : Json → Option String
  | .str text => some text
  | _ => none

/-- The truth value of a boolean. -/
def bool? : Json → Option Bool
  | .bool value => some value
  | _ => none

/-- The value of the first member with a key. -/
def get? (key : String) : Json → Option Json
  | .obj members => members.lookup key
  | _ => none

mutual

/-- How deep arrays and objects are nested in a value. -/
def depth : Json → Nat
  | .arr items => depthItems items + 1
  | .obj members => depthMembers members + 1
  | _ => 0

/-- The greatest depth among the items of an array. -/
def depthItems : List Json → Nat
  | [] => 0
  | item :: items => Nat.max (depth item) (depthItems items)

/-- The greatest depth among the members of an object. -/
def depthMembers : List (String × Json) → Nat
  | [] => 0
  | (_, value) :: members => Nat.max (depth value) (depthMembers members)

end

end Json

end MemberRefs
