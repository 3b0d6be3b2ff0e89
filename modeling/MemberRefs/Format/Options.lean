import MemberRefs.Table.Build
import MemberRefs.Json.Record

/-!
# Options in JSON

Options are a record whose fields may all be absent.
-/

namespace MemberRefs

/-- The options that a value denotes, when no more than `depth` levels have to be opened. -/
def Options.ofJsonWithin? : Nat → Json → Option Options
  | 0, _ => none
  | _ + 1, json => do
      let [maxNodes] ← json.fields? ["max_nodes"] | none
      some ⟨← Json.orDefault Json.nat? 1000000 maxNodes⟩

/-- The options that a value denotes. -/
def Options.ofJson? (json : Json) : Option Options := Options.ofJsonWithin? json.depth json

/-- The options as a record. -/
def Options.toJson (options : Options) : Json := .obj [("max_nodes", .ofNat options.maxNodes)]

end MemberRefs
