import MemberRefs.Resolve.Body

/-!
# References to a member

Every occurrence of a member in all function bodies, with the function it is in and the form of access.
A declaration stands for the member that it declares or defines.
-/

namespace MemberRefs

/-- A name that refers to a member. -/
structure Reference where
  span : Span
  func : FuncId
  access : Access
  deriving DecidableEq, Repr

/-- The reference that an occurrence in a function is. -/
def Occurrence.toReference (o : Occurrence) (f : FuncId) : Reference := ⟨o.span, f, o.access⟩

namespace SymbolTable

/-- A reference in words. -/
def describe (table : SymbolTable) (r : Reference) : String :=
  r.span.text ++ " in " ++ table.funcName r.func ++ " (" ++ r.access.text ++ ")"

/-- The references to a member in a function body. -/
def referencesIn (table : SymbolTable) (m : MemberId) (f : FuncId) : List Reference :=
  ((table.resolve f).occurrencesOf (.member m)).map fun o => o.toReference f

/-- The references to a member in all function bodies, in source order. -/
def memberReferences (table : SymbolTable) (m : MemberId) : List Reference :=
  (table.funcIds.flatMap (table.referencesIn m)).mergeSort
    fun a b => decide (a.span.start ≤ b.span.start)

/-- The references to the member that a declaration declares or defines. -/
def findReferences (table : SymbolTable) (ref : DeclRef) : Answer (List Reference) :=
  (table.memberOf ref).map table.memberReferences

end SymbolTable

end MemberRefs
