import MemberRefs.Source.Span
import MemberRefs.Text.Pieces

/-!
# Byte offsets

A place in a text can also be given by the number of bytes before it, in UTF-8. It is found with an index
of the lines of the text, which knows the line and the byte column of an offset and which column that is
when characters are counted (`LineIndex`). An offset of more than 32 bits is not looked up.

What a place is does not depend on how an index finds it. The index of a text used here searches the
lines one after the other (`LineIndex.ofText`). Only line breaks end a line, and an offset inside a
character or past the end is in no line.
-/

namespace MemberRefs

namespace Text

/-- How many bytes characters take in UTF-8. -/
def byteLength : List Char → Nat
  | [] => 0
  | c :: cs => c.utf8Size + byteLength cs

/-- How many characters the first `bytes` bytes hold, unless they end inside a character or past the end
    of the text. -/
def charsIn? : List Char → Nat → Option Nat
  | _, 0 => some 0
  | [], _ + 1 => none
  | c :: cs, bytes + 1 =>
      if c.utf8Size ≤ bytes + 1 then (charsIn? cs (bytes + 1 - c.utf8Size)).map (· + 1) else none

end Text

/-- A line of a text and a place in it by the bytes before it, both counted from zero. -/
structure ByteLocation where
  line : Nat
  column : Nat
  deriving DecidableEq, Repr

/-! ## 1. Indexes of lines -/

/-- An index of the lines of a text. -/
structure LineIndex where
  /-- Where a byte offset is. -/
  byteLocation? : Nat → Option ByteLocation
  /-- The same place with a column that counts characters. -/
  location? : ByteLocation → Option Location

namespace LineIndex

/-- The largest byte offset that is looked up. -/
def largestOffset : Nat := 4294967295

/-- The location of a byte offset. -/
def locate? (index : LineIndex) (offset : Nat) : Option Location :=
  if offset ≤ largestOffset then (index.byteLocation? offset).bind index.location? else none

/-- The span between two byte offsets. -/
def span? (index : LineIndex) (start stop : Nat) : Option Span := do
  let start ← index.locate? start
  let stop ← index.locate? stop
  some ⟨start, stop⟩

/-! ## 2. The index of a text -/

/-- Where a byte offset is in lines that are ended by a line break each. -/
def findLine? : List (List Char) → Nat → Option ByteLocation
  | [], _ => none
  | line :: lines, offset =>
      if offset ≤ Text.byteLength line then (Text.charsIn? line offset).map fun _ => ⟨0, offset⟩
      else (findLine? lines (offset - (Text.byteLength line + 1))).map fun p => ⟨p.line + 1, p.column⟩

/-- The index of a text. -/
def ofText (text : String) : LineIndex :=
  let lines := Text.pieces '\n' text.toList
  { byteLocation? := findLine? lines
    location? := fun p => do
      let line ← lines[p.line]?
      let column ← Text.charsIn? line p.column
      some ⟨p.line, column⟩ }

end LineIndex

/-- The location of a byte offset in a text. -/
def Location.ofOffset? (text : String) (offset : Nat) : Option Location :=
  (LineIndex.ofText text).locate? offset

/-- The span between two byte offsets in a text. -/
def Span.ofOffsets? (text : String) (start stop : Nat) : Option Span :=
  (LineIndex.ofText text).span? start stop

end MemberRefs
