import MemberRefs.Ty.Basic

/-!
# Spelling types

One spelling for every type: a `const` stands in front of a bare name and behind every other type,
pointers and references stand behind, without blanks.
-/

namespace MemberRefs.Ty

/-- The type as it is spelled. -/
def text : Ty → String
  | .named name => name
  | .const (.named name) => "const " ++ name
  | .const inner => inner.text ++ " const"
  | .pointer inner => inner.text ++ "*"
  | .lref inner => inner.text ++ "&"
  | .rref inner => inner.text ++ "&&"

instance : ToString Ty := ⟨text⟩

/-- The type as it is shown to a reader who has to tell it from other values. -/
def debug (type : Ty) : String := "Type(" ++ type.text ++ ")"

theorem text_const_of_ne_named {type : Ty} (h : ∀ name, type ≠ .named name) :
    (Ty.const type).text = type.text ++ " const" := by
  cases type <;> first | rfl | exact absurd rfl (h _)

end MemberRefs.Ty
