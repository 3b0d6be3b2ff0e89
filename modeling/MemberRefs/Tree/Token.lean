import MemberRefs.Source.Span

/-!
# Tokens

The tokens of a source text in source order, comments among them. The tokens inside a span are cut out of
the stream by two binary searches, one for where they begin and one for where they end.
-/

namespace MemberRefs

/-- What kind of token it is. -/
inductive TokenKind where
  | punctuation
  | keyword
  | identifier
  | literal
  | comment
  deriving DecidableEq, Repr

/-- A token. -/
structure Token where
  kind : TokenKind
  spelling : String
  span : Span
  deriving DecidableEq, Repr

/-! ## 1. Binary search -/

/-- Halves the `size` items from `base` on until one is left; it is behind the boundary or before it. -/
def boundaryBetween {α : Type} (before : α → Bool) (items : List α) (base size : Nat) : Nat :=
  if size ≤ 1 then
    if (items[base]?).any before then base + 1 else base
  else
    let half := size / 2
    let mid := base + half
    boundaryBetween before items (if (items[mid]?).any before then mid else base) (size - half)
  termination_by size

/-- Where the items that lie before a boundary end, when they come first. -/
def boundary {α : Type} (before : α → Bool) (items : List α) : Nat :=
  boundaryBetween before items 0 items.length

/-! ## 2. Selecting tokens -/

/-- The tokens completely inside a span. -/
def tokensIn (tokens : List Token) (span : Span) : List Token :=
  let start := boundary (fun token => decide (token.span.start < span.start)) tokens
  let stop := boundary (fun token => decide (token.span.stop ≤ span.stop)) tokens
  (tokens.take stop).drop start

end MemberRefs
