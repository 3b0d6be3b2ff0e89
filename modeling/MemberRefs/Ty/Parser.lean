import MemberRefs.Ty.Basic
import MemberRefs.Text.Blank

/-!
# Reading types

A type is spelled as words, of which `const` makes the named type `const` wherever it stands, and then as
suffixes, each of which wraps the type read so far. A run of `&` is cut from the left into `&&`. Blanks
may stand around every word and suffix.
-/

namespace MemberRefs.Ty

/-- Whether `c` may stand in a word: an ASCII letter or digit, `_` or `:`. -/
def isTypeChar (c : Char) : Bool :=
  c == '_' || c == ':' || c.isAlphanum

/-- The words of the base, without the blanks between them. The first result is the word that the text
    begins with, empty if it begins with none, the second the words after it, and the third the text
    from the first character that is neither blank nor part of a word. -/
def splitWords : List Char → List Char × List (List Char) × List Char
  | [] => ([], [], [])
  | c :: cs =>
      if isTypeChar c then
        let (word, words, rest) := splitWords cs
        (c :: word, words, rest)
      else if Text.isBlank c then
        let (word, words, rest) := splitWords cs
        ([], if word.isEmpty then words else word :: words, rest)
      else ([], [], c :: cs)

/-- All words that the text begins with, and the rest. -/
def readWords (cs : List Char) : List (List Char) × List Char :=
  let (word, words, rest) := splitWords cs
  (if word.isEmpty then words else word :: words, rest)

/-- The word `const`. -/
def constWord : List Char := "const".toList

/-- The type that words spell: the name made of all words but `const`. -/
def ofWords? (words : List (List Char)) : Option Ty :=
  match words.filter (· != constWord) with
  | [] => none
  | names =>
      let base := Ty.named (String.ofList ([' '].intercalate names))
      some (if words.contains constWord then base.asConst else base)

/-- The type wrapped in the suffixes that the text consists of. -/
def wrap? (type : Ty) : List Char → Option Ty
  | [] => some type
  | '&' :: '&' :: rest => wrap? (.rref type) rest
  | '&' :: rest => wrap? (.lref type) rest
  | '*' :: rest => wrap? (.pointer type) rest
  | 'c' :: 'o' :: 'n' :: 's' :: 't' :: rest => wrap? type.asConst rest
  | c :: rest => if Text.isBlank c then wrap? type rest else none

/-- The type that characters spell. -/
def ofChars? (cs : List Char) : Option Ty := do
  let (words, rest) := readWords cs
  let base ← ofWords? words
  wrap? base rest

/-- The type that a text spells. -/
def ofText? (text : String) : Option Ty := ofChars? text.toList

/-- The type that a text spells, or the complaint about it. -/
def parse (text : String) : Except String Ty :=
  match ofText? text with
  | some type => .ok type
  | none => .error ("bad type `" ++ text ++ "`")

end MemberRefs.Ty
