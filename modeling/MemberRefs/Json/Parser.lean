import MemberRefs.Json.Basic

/-!
# Reading JSON text

The grammar of RFC 8259 without extensions. The reader works on the characters still to read and hands
back what follows; every value takes at least one character, so the length of the text bounds the
nesting of the calls. An escaped surrogate that comes without its other half does not stop the reading:
the string is read to its end and denotes no text. Characters that stand for themselves denote the text
they make up (`textOfPoints_map_toNat`).
-/

namespace MemberRefs.Json

/-! ## 1. Blanks, numbers and strings -/

/-- The text without the white space in front of it. -/
def skipSpace (cs : List Char) : List Char :=
  cs.dropWhile fun c => c == ' ' || c == '\n' || c == '\r' || c == '\t'

/-- A non-empty run of digits and what follows it. -/
def readDigits (cs : List Char) : Option (List Char × List Char) :=
  match cs.takeWhile Char.isDigit with
  | [] => none
  | digits => some (digits, cs.dropWhile Char.isDigit)

/-- The digits before the point: a zero alone or a run that begins with another digit. -/
def readInteger : List Char → Option (List Char × List Char)
  | '0' :: cs => some (['0'], cs)
  | cs => readDigits cs

/-- The point and the digits after it, if there is one. -/
def readFraction : List Char → Option (List Char × List Char)
  | '.' :: cs => (readDigits cs).map fun (digits, rest) => ('.' :: digits, rest)
  | cs => some ([], cs)

/-- The exponent, if there is one. -/
def readExponent : List Char → Option (List Char × List Char)
  | c :: cs =>
      if c == 'e' || c == 'E' then
        match cs with
        | '+' :: r => (readDigits r).map fun (digits, rest) => (c :: '+' :: digits, rest)
        | '-' :: r => (readDigits r).map fun (digits, rest) => (c :: '-' :: digits, rest)
        | r => (readDigits r).map fun (digits, rest) => (c :: digits, rest)
      else some ([], c :: cs)
  | [] => some ([], [])

/-- A number without its sign. -/
def readMagnitude (cs : List Char) : Option (List Char × List Char) := do
  let (integer, cs) ← readInteger cs
  let (fraction, cs) ← readFraction cs
  let (exponent, cs) ← readExponent cs
  some (integer ++ fraction ++ exponent, cs)

/-- A number. -/
def readNumber : List Char → Option (List Char × List Char)
  | '-' :: cs => (readMagnitude cs).map fun (literal, rest) => ('-' :: literal, rest)
  | cs => readMagnitude cs

/-- The value of a hexadecimal digit. -/
def hexDigit? (c : Char) : Option Nat :=
  if c.isDigit then some (c.toNat - '0'.toNat)
  else if 'a' ≤ c ∧ c ≤ 'f' then some (c.toNat - 'a'.toNat + 10)
  else if 'A' ≤ c ∧ c ≤ 'F' then some (c.toNat - 'A'.toNat + 10)
  else none

/-- The value of four hexadecimal digits. -/
def hexUnit? (a b c d : Char) : Option Nat := do
  let a ← hexDigit? a
  let b ← hexDigit? b
  let c ← hexDigit? c
  let d ← hexDigit? d
  some (((a * 16 + b) * 16 + c) * 16 + d)

/-- The character that a backslash and `c` denote. -/
def shortEscape? (c : Char) : Option Char :=
  if c == '"' || c == '\\' || c == '/' then some c
  else if c == 'b' then some '\x08'
  else if c == 'f' then some '\x0c'
  else if c == 'n' then some '\n'
  else if c == 'r' then some '\r'
  else if c == 't' then some '\t'
  else none

/-- Whether a unit is the first half of a surrogate pair. -/
def isHighHalf (unit : Nat) : Bool := 0xD800 ≤ unit && unit ≤ 0xDBFF

/-- Whether a unit is the second half of a surrogate pair. -/
def isLowHalf (unit : Nat) : Bool := 0xDC00 ≤ unit && unit ≤ 0xDFFF

/-- The rest of a string up to its closing quote, as code points and halves of surrogate pairs, and what
    follows the quote. -/
def readPoints : List Char → Option (List Nat × List Char)
  | '"' :: rest => some ([], rest)
  | '\\' :: 'u' :: a :: b :: c :: d :: rest => do
      let point ← hexUnit? a b c d
      let (points, rest) ← readPoints rest
      some (point :: points, rest)
  | '\\' :: c :: rest => do
      let c ← shortEscape? c
      let (points, rest) ← readPoints rest
      some (c.toNat :: points, rest)
  | c :: rest =>
      if c.toNat < 0x20 || c == '\\' then none
      else do
        let (points, rest) ← readPoints rest
        some (c.toNat :: points, rest)
  | [] => none

/-- The code point that a surrogate pair denotes. -/
def pairPoint (high low : Nat) : Nat := 0x10000 + (high - 0xD800) * 0x400 + (low - 0xDC00)

/-- The text that code points denote in which each pair stands as its two halves, none when a half
    stands alone. -/
def textOfPoints : List Nat → Option (List Char)
  | [] => some []
  | high :: low :: rest =>
      if isHighHalf high && isLowHalf low then
        (textOfPoints rest).map (Char.ofNat (pairPoint high low) :: ·)
      else if isHighHalf high || isLowHalf high then none
      else (textOfPoints (low :: rest)).map (Char.ofNat high :: ·)
  | [point] => if isHighHalf point || isLowHalf point then none else some [Char.ofNat point]

theorem isHighHalf_toNat (c : Char) : isHighHalf c.toNat = false := by
  have h : c.toNat < 0xD800 ∨ 0xDFFF < c.toNat ∧ c.toNat < 0x110000 := c.valid
  simp only [isHighHalf, Bool.and_eq_false_iff, decide_eq_false_iff_not]
  omega

theorem isLowHalf_toNat (c : Char) : isLowHalf c.toNat = false := by
  have h : c.toNat < 0xD800 ∨ 0xDFFF < c.toNat ∧ c.toNat < 0x110000 := c.valid
  simp only [isLowHalf, Bool.and_eq_false_iff, decide_eq_false_iff_not]
  omega

theorem textOfPoints_map_toNat (cs : List Char) : textOfPoints (cs.map Char.toNat) = some cs := by
  induction cs with
  | nil => rfl
  | cons c cs ih =>
    cases cs with
    | nil => simp [textOfPoints, isHighHalf_toNat, isLowHalf_toNat]
    | cons d cs =>
      simp only [List.map_cons] at ih ⊢
      simp [textOfPoints, isHighHalf_toNat, isLowHalf_toNat, ih]

/-- The rest of a string up to its closing quote: the text it denotes, if any, and what follows. -/
def readString (cs : List Char) : Option (Option (List Char) × List Char) :=
  (readPoints cs).map fun (points, rest) => (textOfPoints points, rest)

/-- The value of a string. -/
def ofChars : Option (List Char) → Json
  | some cs => .str (String.ofList cs)
  | none => .broken

/-- An object with a member in front of the members it has, when all of its keys denote texts. -/
def consMember (key : Option (List Char)) (value : Json)
    (members : Option (List (String × Json))) : Option (List (String × Json)) :=
  match key, members with
  | some cs, some members => some ((String.ofList cs, value) :: members)
  | _, _ => none

/-- The value of an object. -/
def ofMembers : Option (List (String × Json)) → Json
  | some members => .obj members
  | none => .broken

/-! ## 2. Values -/

mutual

/-- A value, with as many nested calls as `fuel` allows. -/
def readValue : Nat → List Char → Option (Json × List Char)
  | 0, _ => none
  | fuel + 1, cs =>
      match skipSpace cs with
      | 'n' :: 'u' :: 'l' :: 'l' :: rest => some (.null, rest)
      | 't' :: 'r' :: 'u' :: 'e' :: rest => some (.bool true, rest)
      | 'f' :: 'a' :: 'l' :: 's' :: 'e' :: rest => some (.bool false, rest)
      | '"' :: rest => (readString rest).map fun (text, rest) => (ofChars text, rest)
      | '[' :: rest =>
          match skipSpace rest with
          | ']' :: rest => some (.arr [], rest)
          | rest => (readItems fuel rest).map fun (items, rest) => (.arr items, rest)
      | '\x7b' :: rest =>
          match skipSpace rest with
          | '\x7d' :: rest => some (.obj [], rest)
          | rest => (readMembers fuel rest).map fun (members, rest) => (ofMembers members, rest)
      | rest => (readNumber rest).map fun (literal, rest) => (.num (String.ofList literal), rest)

/-- The items of an array from the first to the closing bracket. -/
def readItems : Nat → List Char → Option (List Json × List Char)
  | 0, _ => none
  | fuel + 1, cs => do
      let (item, cs) ← readValue fuel cs
      match skipSpace cs with
      | ']' :: rest => some ([item], rest)
      | ',' :: rest =>
          let (items, rest) ← readItems fuel rest
          some (item :: items, rest)
      | _ => none

/-- The members of an object from the first to the closing brace, if all keys denote texts. -/
def readMembers : Nat → List Char → Option (Option (List (String × Json)) × List Char)
  | 0, _ => none
  | fuel + 1, cs => do
      let '"' :: cs := skipSpace cs | none
      let (key, cs) ← readString cs
      let ':' :: cs := skipSpace cs | none
      let (value, cs) ← readValue fuel cs
      match skipSpace cs with
      | '\x7d' :: rest => some (consMember key value (some []), rest)
      | ',' :: rest =>
          let (members, rest) ← readMembers fuel rest
          some (consMember key value members, rest)
      | _ => none

end

/-- The one value that a text holds. -/
def parse (text : String) : Option Json := do
  let (value, rest) ← readValue (text.length + 1) text.toList
  if (skipSpace rest).isEmpty then some value else none

end MemberRefs.Json
