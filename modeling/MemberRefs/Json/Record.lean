import MemberRefs.Json.Basic

/-!
# Records and variants

How structured data is laid out in JSON. A record is an object of named fields, in which unknown keys
are ignored and no field may occur twice, or the array of its fields in their order, from which trailing
ones may be missing (`Json.fields?`). A variant is an object with its tag as the only key, or the tag
alone as a string when no data belongs to it (`Json.variant?`).
-/

namespace MemberRefs.Json

/-- The value of one field among the members of an object: absent, present, or none at all when the key
    occurs twice. -/
def field? (members : List (String × Json)) (name : String) : Option (Option Json) :=
  match members.filter fun member => member.1 == name with
  | [] => some none
  | [member] => some (some member.2)
  | _ => none

/-- The values of the fields of a record, each one absent or present. -/
def fields? (names : List String) : Json → Option (List (Option Json))
  | .obj members => names.mapM (field? members)
  | .arr items =>
      if items.length ≤ names.length then
        some (items.map some ++ List.replicate (names.length - items.length) none)
      else none
  | _ => none

/-- The tag of a variant and its data. -/
def variant? : Json → Option (String × Option Json)
  | .str tag => some (tag, none)
  | .obj [(tag, data)] => some (tag, some data)
  | _ => none

/-- Reads a field that may be absent. -/
def orDefault {α : Type} (read : Json → Option α) (default : α) : Option Json → Option α
  | none => some default
  | some value => read value

/-- Reads a value that may be `null`. -/
def nullable {α : Type} (read : Json → Option α) : Json → Option (Option α)
  | .null => some none
  | value => (read value).map some

end MemberRefs.Json
