import MemberRefs.MemberPath.Basic
import MemberRefs.Ty.Parser
import MemberRefs.Text.WordChar
import MemberRefs.Text.Pieces
import MemberRefs.Name

/-!
# Reading member paths

A path is written as a class, `::` and a member, with blanks between them or without, and may end in a
parameter list and `const`. Operator functions have several written forms, which are tried in a fixed
order before that of a plain name (`memberForms`); the first form behind which the rest of the text is a
parameter list or nothing is the one meant. So `operator()` names the call operator, and
`operator() const` the method `operator` with an empty parameter list. Blanks inside the name of an
operator function do not count (`normalize`).
-/

namespace MemberRefs.MemberPath

/-! ## 1. Identifiers -/

/-- The identifier that the text begins with, and the rest. -/
def readIdentifier : List Char → Option (List Char × List Char)
  | [] => none
  | c :: cs =>
      if Text.isWordStart c then
        some (c :: cs.takeWhile Text.isWordChar, cs.dropWhile Text.isWordChar)
      else none

/-- The rest of a text that begins with certain characters. -/
def after? (start cs : List Char) : Option (List Char) :=
  if start.isPrefixOf cs then some (cs.drop start.length) else none

/-! ## 2. Forms of a member -/

/-- Two brackets with nothing but blanks between them, and the rest. -/
def readBrackets (opening closing : Char) (cs : List Char) : Option (List Char × List Char) := do
  let inner ← after? [opening] cs
  let rest ← after? [closing] (Text.dropBlanks inner)
  some ([opening, closing], rest)

/-- The word `new` or `delete`, with square brackets behind it or without. -/
def readAllocator (cs : List Char) : Option (List Char × List Char) := do
  let (word, rest) ←
    (after? "new".toList cs).map (("new".toList, ·)) <|>
      (after? "delete".toList cs).map (("delete".toList, ·))
  match readBrackets '[' ']' (Text.dropBlanks rest) with
  | some (brackets, rest) => some (word ++ brackets, rest)
  | none => some (word, rest)

/-- Whether `c` may stand in an operator that is spelled in symbols. -/
def isSymbol (c : Char) : Bool :=
  !(Text.isBlank c || Text.isWordChar c || c == '(')

/-- An operator spelled in symbols. -/
def readSymbols (cs : List Char) : Option (List Char × List Char) :=
  match cs.takeWhile isSymbol with
  | [] => none
  | symbols => some (symbols, cs.dropWhile isSymbol)

/-- A form of operators, behind the word `operator`. -/
def operatorForm (read : List Char → Option (List Char × List Char)) (cs : List Char) :
    Option (List Char × List Char) := do
  let rest ← after? Name.operatorWord cs
  let (op, rest) ← read (Text.dropBlanks rest)
  some (Name.operatorWord ++ op, rest)

/-- A plain name or the name of a destructor. -/
def plainForm : List Char → Option (List Char × List Char)
  | '~' :: cs => (readIdentifier cs).map fun (name, rest) => ('~' :: name, rest)
  | cs => readIdentifier cs

/-- The forms of a member in the order in which they are tried. -/
def memberForms : List (List Char → Option (List Char × List Char)) :=
  [operatorForm (readBrackets '(' ')'), operatorForm (readBrackets '[' ']'),
    operatorForm readAllocator, operatorForm readSymbols, plainForm]

/-- The name with one blank between `operator` and a letter behind it. -/
def normalize (name : List Char) : List Char :=
  match after? Name.operatorWord name with
  | none => name
  | some op =>
      match Text.removeBlanks op with
      | [] => Name.operatorWord
      | c :: cs =>
          if c.isAlpha then Name.operatorWord ++ ' ' :: c :: cs else Name.operatorWord ++ c :: cs

/-! ## 3. Parameter lists -/

/-- What stands behind a member: nothing, or the text between parentheses and whether `const` follows. -/
def readTail (cs : List Char) : Option (Option (List Char × Bool)) :=
  match Text.dropBlanks cs with
  | [] => some none
  | '(' :: cs =>
      match cs.dropWhile fun c => c != '(' && c != ')' with
      | ')' :: rest =>
          let params := cs.takeWhile fun c => c != '(' && c != ')'
          match Text.dropBlanks rest with
          | [] => some (some (params, false))
          | rest => do
              let rest ← after? Ty.constWord rest
              if (Text.dropBlanks rest).isEmpty then some (some (params, true)) else none
      | _ => none
  | _ => none

/-- The types in a parameter list; a single `void` is the empty list. -/
def readParams (cs : List Char) : Except String (List Ty) :=
  let trimmed := Text.trim cs
  if trimmed.isEmpty || trimmed == "void".toList then .ok []
  else (Text.pieces ',' trimmed).mapM fun piece => Ty.parse (String.ofList piece)

/-! ## 4. Paths -/

/-- A path cut into its class, its member and what stands behind. -/
structure Cut where
  owner : List Char
  member : List Char
  tail : Option (List Char × Bool)

/-- The first form in which a text is a member and what may stand behind one. -/
def cutMember (owner cs : List Char) : Option Cut :=
  memberForms.findSome? fun form => do
    let (member, rest) ← form cs
    let tail ← readTail rest
    some ⟨owner, member, tail⟩

/-- The parts of a path. -/
def cut (cs : List Char) : Option Cut := do
  let (owner, rest) ← readIdentifier (Text.dropBlanks cs)
  let rest ← after? [':', ':'] (Text.dropBlanks rest)
  cutMember owner (Text.dropBlanks rest)

/-- The path that a text denotes. -/
def parse (text : String) : Answer MemberPath :=
  match cut text.toList with
  | none => .error (Error.badMemberPath text).unplaced
  | some ⟨owner, member, tail⟩ =>
      let path := fun signature => MemberPath.mk (String.ofList owner)
        (String.ofList (normalize member)) signature
      match tail with
      | none => .ok (path none)
      | some (params, isConst) =>
          match readParams params with
          | .ok types => .ok (path (some (.ofParams types isConst)))
          | .error complaint => .error (Error.badType complaint).unplaced

end MemberRefs.MemberPath
