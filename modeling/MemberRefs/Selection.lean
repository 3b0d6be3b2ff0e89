import MemberRefs.Highlights

/-!
# Selections

The names used in a selected part of the source whose declarations lie outside of it, each one paired with
the name at its declaration, in order and without repetitions. A part that touches the selection counts as
inside.
-/

namespace MemberRefs

/-- A name in a selection and the name at its declaration outside. -/
structure OutsideReference where
  declaration : Span
  reference : Span
  deriving DecidableEq, Repr

namespace OutsideReference

/-- The reference decides, then the declaration. -/
def before (a b : OutsideReference) : Bool :=
  if a.reference = b.reference then decide (a.declaration ≤ b.declaration)
  else decide (a.reference ≤ b.reference)

/-- The pair as a record. -/
def toJson (r : OutsideReference) : Json :=
  .obj [("declaration", .str r.declaration.text), ("reference", .str r.reference.text)]

end OutsideReference

namespace SymbolTable

/-- The names in the body of `f` inside a selection that are declared outside of it, with their
    declarations. -/
def outsideNamesIn (table : SymbolTable) (selection : Span) (f : FuncId) : List (Decl × Span) :=
  (table.resolve f).occurrences.filterMap fun o =>
    if o.span.intersects selection then
      (table.referentDecl? f o.referent).bind fun decl =>
        if decl.extent.intersects selection then none else some (decl, o.span)
    else none

/-- Whether a function reaches into a selection. -/
def touches (table : SymbolTable) (selection : Span) (f : FuncId) : Bool :=
  (table.funcs[f]?).any fun info => info.decl.extent.intersects selection

/-- The names in all function bodies inside a selection that are declared outside of it. -/
def outsideNames (table : SymbolTable) (selection : Span) : List (Decl × Span) :=
  (table.funcIds.filter (table.touches selection)).flatMap (table.outsideNamesIn selection)

/-- The references in a selection to what is declared outside of it. -/
def outsideReferences (table : SymbolTable) (selection : Span) : Answer (List OutsideReference) := do
  let references ← (table.outsideNames selection).mapM fun (decl, span) =>
    (table.nameRange decl).map fun range => (⟨range, span⟩ : OutsideReference)
  return (references.mergeSort OutsideReference.before).eraseReps

end SymbolTable

end MemberRefs
