import MemberRefs.Signature
import MemberRefs.Source.Span

/-!
# Errors

What stops an answer as a whole: a unit whose declarations contradict each other, a declaration whose
name cannot be found among its tokens, or a request that names no member. Each error has the place it
is reported at.
-/

namespace MemberRefs

/-- The cause of a failure. -/
inductive Error where
  | invalidTarget (target : String)
  | ambiguousTarget (owner name : String) (candidates : List Signature)
  | noIdentifierToken (kind name : String)
  | duplicateClass (name : String) (earlier : Span)
  | unknownBaseClass (name base : String)
  | cyclicInheritance (name : String)
  | unknownQualifier (name : String)
  | unmatchedDefinition (owner name : String) (signature : Signature)
  | unitTooLarge (nodes limit : Nat)
  | badMemberPath (text : String)
  | badType (complaint : String)
  deriving DecidableEq, Repr

/-- The error in words. -/
def Error.message : Error → String
  | invalidTarget target =>
      "`" ++ target ++ "` is not a member of any class in this translation unit."
  | ambiguousTarget owner name candidates =>
      "`" ++ owner ++ "::" ++ name ++ "` is overloaded. Add one of the signatures "
        ++ ", ".intercalate (candidates.map Signature.text) ++ " to pick one."
  | noIdentifierToken kind name =>
      "Cannot find the name of " ++ kind ++ " `" ++ name ++ "` among its tokens."
  | duplicateClass name _ => "Duplicate definition of class `" ++ name ++ "`."
  | unknownBaseClass name base =>
      "Class `" ++ name ++ "` derives from unknown class `" ++ base ++ "`."
  | cyclicInheritance name => "Class `" ++ name ++ "` derives from itself."
  | unknownQualifier name => "`" ++ name ++ "` qualifies a method definition but is not a class."
  | unmatchedDefinition owner name signature =>
      "Class `" ++ owner ++ "` declares no method `" ++ name ++ signature.text
        ++ "` matching this definition."
  | unitTooLarge nodes limit =>
      "Translation unit has " ++ toString nodes ++ " syntax nodes, more than the limit of "
        ++ toString limit ++ "."
  | badMemberPath text =>
      "Bad member `" ++ text ++ "`. Expected `Class::member`, optionally followed by a "
        ++ "parameter list and `const`."
  | badType complaint => complaint

/-- An error at the place it is reported at. -/
abbrev PlacedError := Spanned Error

/-- An answer or the error that stands in its way. -/
abbrev Answer (α : Type) := Except PlacedError α

/-- An error without a place of its own. -/
def Error.unplaced (error : Error) : PlacedError := ⟨error, Span.atStart⟩

end MemberRefs
