import MemberRefs.Source.Location

/-!
# Spans

A span runs from one location to another, the end not included. In writing it is its two locations
with a `-` between them; reading one names the part that is wrong (`SpanError.message`). Covering takes
the smallest span around two, and two spans intersect when they overlap or touch, which both ways round
is the same (`Span.intersects_comm`).
-/

namespace MemberRefs

/-- The part of a source text between two locations. -/
structure Span where
  start : Location
  stop : Location
  deriving DecidableEq, Inhabited, Repr

/-- Something together with its place in the source text. -/
structure Spanned (α : Type) where
  val : α
  span : Span
  deriving DecidableEq, Repr

/-- A name as it is written at one place. -/
abbrev SpannedName := Spanned String

/-- Why a text denotes no location or no span; the text is what was read as one. -/
inductive SpanError where
  | location (text : String)
  | span (text : String)
  deriving DecidableEq, Repr

/-- The error in words. -/
def SpanError.message : SpanError → String
  | location text => "bad source location `" ++ text ++ "`"
  | span text => "bad source span `" ++ text ++ "`"

/-- The location that a text denotes. -/
def Location.parse (text : String) : Except SpanError Location :=
  match ofChars? text.toList with
  | some a => .ok a
  | none => .error (.location text)

namespace Span

/-! ## 1. The written form -/

/-- The span as two locations and a dash. -/
def text (s : Span) : String :=
  s.start.text ++ "-" ++ s.stop.text

instance : ToString Span := ⟨text⟩

/-- The span that a text denotes, cut at its first dash. -/
def parse (text : String) : Except SpanError Span :=
  match text.toList.dropWhile (· != '-') with
  | [] => .error (.span text)
  | _ :: stop => do
      let start ← Location.parse (String.ofList (text.toList.takeWhile (· != '-')))
      let stop ← Location.parse (String.ofList stop)
      .ok ⟨start, stop⟩

/-! ## 2. The order -/

/-- The start decides, then the end. -/
protected def le (a b : Span) : Prop :=
  a.start < b.start ∨ a.start = b.start ∧ a.stop ≤ b.stop

instance : LE Span := ⟨Span.le⟩

theorem le_def {a b : Span} :
    a ≤ b ↔ a.start < b.start ∨ a.start = b.start ∧ a.stop ≤ b.stop := Iff.rfl

instance (a b : Span) : Decidable (a ≤ b) := decidable_of_iff _ le_def.symm

/-- Minus one, zero or one as `a` comes before `b`, is the same or comes after it. -/
def compare (a b : Span) : Ordering :=
  if a = b then .eq else if a ≤ b then .lt else .gt

/-- The spans in order, each one once. -/
def sorted (spans : List Span) : List Span :=
  (spans.mergeSort fun a b => decide (a ≤ b)).eraseReps

/-! ## 3. Covering and intersecting -/

/-- The smallest span around both. -/
def cover (a b : Span) : Span :=
  ⟨a.start.min b.start, a.stop.max b.stop⟩

/-- Whether the spans overlap or touch; an empty span touches the spans it is in or next to. -/
def intersects (a b : Span) : Bool :=
  a.start ≤ b.stop && b.start ≤ a.stop

theorem intersects_comm (a b : Span) : a.intersects b = b.intersects a := by
  simp [intersects, Bool.and_comm]

/-- The empty span at the start of the text, the place of what has no other. -/
def atStart : Span := ⟨⟨0, 0⟩, ⟨0, 0⟩⟩

theorem text_atStart : atStart.text = "1:1-1:1" := by decide +kernel

end Span

end MemberRefs
