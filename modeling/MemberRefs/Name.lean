import MemberRefs.Text.Quoted

/-!
# Names of operator functions

An operator function is named `operator` and the operator. Identifiers that merely begin with `operator`,
such as `operators`, go on with a letter, digit or `_` there and are plain names.
-/

namespace MemberRefs.Name

/-- The word that the names of operator functions begin with. -/
def operatorWord : List Char := "operator".toList

/-- The text after the word `operator`, when the name begins with it. -/
def afterOperator? (cs : List Char) : Option (List Char) :=
  if operatorWord.isPrefixOf cs then some (cs.drop operatorWord.length) else none

/-- Whether the name is that of an operator function. -/
def isOperator (name : String) : Bool :=
  match afterOperator? name.toList with
  | some (c :: _) => !(c == '_' || c.isAlphanum)
  | some [] => true
  | none => false

/-- The name of the operator function for an operator. -/
def ofOperator (op : String) : String := "operator" ++ op

/-- The name in quotes, as it is shown to a reader who has to tell every character. -/
def debug (name : String) : String := "Name(" ++ Text.quote name ++ ")"

end MemberRefs.Name
