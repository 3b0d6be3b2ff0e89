import MemberRefs.Ty.Printer

/-!
# Signatures

What tells the overloads of a method apart: the types of its parameters, on which a top-level `const`
does not count, and whether it may be called on a `const` object.
-/

namespace MemberRefs

/-- Parameter types and constness of a method. -/
structure Signature where
  params : List Ty
  isConst : Bool
  deriving DecidableEq, Repr

namespace Signature

/-- The signature for parameters as they are declared. -/
def ofParams (params : List Ty) (isConst : Bool) : Signature :=
  ⟨params.map Ty.stripConst, isConst⟩

/-- The signature as a parameter list. -/
def text (s : Signature) : String :=
  "(" ++ ", ".intercalate (s.params.map Ty.text) ++ ")" ++ if s.isConst then " const" else ""

instance : ToString Signature := ⟨text⟩

/-- The signature as it is shown to a reader who has to tell it from other values. -/
def debug (s : Signature) : String := "Signature" ++ s.text

end Signature

end MemberRefs
