/-!
# Types

A C++ type as spelled in declarations: a name, of a builtin type or of a class, inside layers of `const`,
pointers and references. Reading through a type takes layers off again: references are transparent, and a
top-level `const` does not decide which parameter an argument matches, so arguments are compared by their
decayed types.
-/

namespace MemberRefs

/-- A type. Whether its name denotes a class is for the symbol table to say. -/
inductive Ty where
  | named (name : String)
  | const (inner : Ty)
  | pointer (inner : Ty)
  | lref (inner : Ty)
  | rref (inner : Ty)
  deriving DecidableEq, Inhabited, Repr

namespace Ty

/-! ## 1. Layers -/

/-- The type made `const`, which a `const` type already is. -/
def asConst : Ty → Ty
  | .const inner => .const inner
  | type => .const type

/-- The type without its outer references. -/
def stripRefs : Ty → Ty
  | .lref inner => inner.stripRefs
  | .rref inner => inner.stripRefs
  | type => type

/-- The type without a top-level `const`. -/
def stripConst : Ty → Ty
  | .const inner => inner.stripConst
  | type => type

/-- The type by which an argument is compared with a parameter. -/
def decay (type : Ty) : Ty := type.stripRefs.stripConst

/-! ## 2. Questions -/

/-- Whether the outermost layer is `const`. -/
def isConst : Ty → Bool
  | .const _ => true
  | _ => false

/-- Whether the outermost layer is a reference. -/
def isReference : Ty → Bool
  | .lref _ | .rref _ => true
  | _ => false

/-- Whether the outermost layer is an lvalue reference. -/
def isLvalueReference : Ty → Bool
  | .lref _ => true
  | _ => false

/-- Whether a callee may modify what is bound to a parameter of this type. -/
def isNonConstReference : Ty → Bool
  | .lref inner | .rref inner => !inner.isConst
  | _ => false

/-- What a pointer points to, seen through references and a top-level `const`. -/
def pointee? (type : Ty) : Option Ty :=
  match type.decay with
  | .pointer inner => some inner
  | _ => none

/-- The name of a named type, `const` or not. -/
def name? (type : Ty) : Option String :=
  match type.stripConst with
  | .named name => some name
  | _ => none

theorem isConst_asConst (type : Ty) : type.asConst.isConst = true := by
  cases type <;> rfl

theorem asConst_asConst (type : Ty) : type.asConst.asConst = type.asConst := by
  cases type <;> rfl

end Ty

end MemberRefs
