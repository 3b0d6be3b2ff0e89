import MemberRefs.Ty.Basic

/-!
# Layers of a type

Taking the outer references off a type, or its top-level `const`, leaves none to take off. What a type
names and what it points to is found behind these layers (`stripConst_of_name?`, `decay_of_pointee?`).
-/

namespace MemberRefs.Ty

theorem stripRefs_stripRefs : ∀ type : Ty, type.stripRefs.stripRefs = type.stripRefs
  | .named _ | .const _ | .pointer _ => rfl
  | .lref inner | .rref inner => stripRefs_stripRefs inner

theorem stripConst_stripConst : ∀ type : Ty, type.stripConst.stripConst = type.stripConst
  | .named _ | .lref _ | .rref _ | .pointer _ => rfl
  | .const inner => stripConst_stripConst inner

theorem isConst_stripConst (type : Ty) : type.stripConst.isConst = false := by
  induction type with
  | const inner ih => exact ih
  | named _ | pointer _ | lref _ | rref _ => rfl

theorem stripConst_of_not_const {type : Ty} (h : type.isConst = false) : type.stripConst = type := by
  cases type with
  | const _ => cases h
  | named _ | pointer _ | lref _ | rref _ => rfl

theorem stripRefs_of_not_reference {type : Ty} (h : type.isReference = false) :
    type.stripRefs = type := by
  cases type with
  | lref _ | rref _ => cases h
  | named _ | const _ | pointer _ => rfl

theorem stripConst_of_name? {type : Ty} {n : String} (h : type.name? = some n) :
    type.stripConst = .named n := by
  unfold name? at h
  split at h
  · rename_i hnamed
    rw [hnamed, Option.some.inj h]
  · cases h

theorem decay_of_pointee? {type pointee : Ty} (h : type.pointee? = some pointee) :
    type.decay = .pointer pointee := by
  unfold pointee? at h
  split at h
  · rename_i hpointer
    rw [hpointer, Option.some.inj h]
  · cases h

end MemberRefs.Ty
