import Mathlib.Data.List.Induction
import Mathlib.Tactic.Common
import MemberRefs.Source.Offset

/-!
# Locations of byte offsets

Where a byte offset is, for every index that knows the lines of the text. What an index knows is said line
by line (`LineIndex.Indexes`); where that leads is said by the characters in front of the offset
(`Location.behind`).

* `Text.pieces_append_eq`: the lines of a text, cut at a place of it.
* `LineIndex.indexes_ofText`: the index that searches the lines one after the other knows them.
* `Location.behind_lt_append`: behind more characters is further on.
* `LineIndex.Indexes.locate?_eq_some_iff`: the location of an offset is the one behind the characters that
  take as many bytes.
* `LineIndex.Indexes.locations_exact`: which offsets have a location, which one, and that the order is kept.
-/

namespace MemberRefs

/-! ## 1. Bytes -/

namespace Text

@[simp] theorem byteLength_nil : byteLength [] = 0 := rfl

@[simp] theorem byteLength_cons (c : Char) (cs : List Char) :
    byteLength (c :: cs) = c.utf8Size + byteLength cs := rfl

@[simp] theorem byteLength_append (cs ds : List Char) :
    byteLength (cs ++ ds) = byteLength cs + byteLength ds := by
  induction cs with
  | nil => rw [List.nil_append, byteLength_nil, Nat.zero_add]
  | cons c cs ih => rw [List.cons_append, byteLength_cons, ih, byteLength_cons, Nat.add_assoc]

theorem utf8Size_newline : Char.utf8Size '\n' = 1 := rfl

theorem byteLength_ofList (cs : List Char) : (String.ofList cs).utf8ByteSize = byteLength cs := by
  induction cs with
  | nil => rfl
  | cons c cs ih =>
    rw [← List.singleton_append, String.ofList_append, String.utf8ByteSize_append, ih,
      ← String.singleton_eq_ofList, String.utf8ByteSize_singleton, List.singleton_append,
      byteLength_cons]

/-- **The characters in so many bytes** are those of a part of the text that takes them. -/
theorem charsIn?_eq_some_iff : ∀ {cs : List Char} {bytes n : Nat},
    charsIn? cs bytes = some n ↔
      ∃ front back, cs = front ++ back ∧ byteLength front = bytes ∧ front.length = n
  | cs, 0, n => by
      rw [charsIn?]
      constructor
      · rintro ⟨⟩
        exact ⟨[], cs, rfl, rfl, rfl⟩
      · rintro ⟨front, back, -, hbytes, rfl⟩
        cases front with
        | nil => rfl
        | cons c front =>
          have := c.utf8Size_pos
          simp only [byteLength_cons] at hbytes
          omega
  | [], bytes + 1, n => by
      rw [charsIn?]
      refine iff_of_false nofun ?_
      rintro ⟨front, back, heq, hbytes, -⟩
      obtain ⟨rfl, -⟩ := List.append_eq_nil_iff.mp heq.symm
      cases hbytes
  | c :: cs, bytes + 1, n => by
      rw [charsIn?]
      split
      · rename_i hfits
        simp only [Option.map_eq_some_iff, charsIn?_eq_some_iff]
        constructor
        · rintro ⟨_, ⟨front, back, rfl, hbytes, rfl⟩, rfl⟩
          exact ⟨c :: front, back, rfl, by simp only [byteLength_cons]; omega, rfl⟩
        · rintro ⟨front, back, heq, hbytes, rfl⟩
          cases front with
          | nil => cases hbytes
          | cons d front =>
            obtain ⟨rfl, rfl⟩ := List.cons.inj heq
            simp only [byteLength_cons] at hbytes
            exact ⟨_, ⟨front, back, rfl, by omega, rfl⟩, rfl⟩
      · rename_i hexceeds
        refine iff_of_false nofun ?_
        rintro ⟨front, back, heq, hbytes, -⟩
        cases front with
        | nil => cases hbytes
        | cons d front =>
          obtain ⟨rfl, rfl⟩ := List.cons.inj heq
          simp only [byteLength_cons] at hbytes
          omega

/-! ## 2. Lines -/

/-- How many bytes stand in front of the line with a number, a line break behind every line. -/
def lineStart (lines : List (List Char)) (l : Nat) : Nat :=
  byteLength ((lines.take l).flatMap (· ++ ['\n']))

/-- The place `p` is `offset` bytes into the lines, behind the characters `front` of its line. -/
structure StandsAt (lines : List (List Char)) (offset : Nat) (p : ByteLocation) (front : List Char) :
    Prop where
  line : ∃ back, lines[p.line]? = some (front ++ back)
  column : p.column = byteLength front
  offset : offset = lineStart lines p.line + p.column

variable {line front : List Char} {lines : List (List Char)} {offset column l : Nat}

theorem lineStart_succ :
    lineStart (line :: lines) (l + 1) = byteLength line + 1 + lineStart lines l := by
  rw [lineStart, List.take_succ_cons, List.flatMap_cons, byteLength_append, byteLength_append,
    byteLength_cons, byteLength_nil, utf8Size_newline, lineStart]

theorem standsAt_zero : StandsAt (line :: lines) offset ⟨0, column⟩ front ↔
    (∃ back, line = front ++ back) ∧ column = byteLength front ∧ offset = column := by
  constructor
  · rintro ⟨⟨back, hline⟩, hcolumn, hoffset⟩
    exact ⟨⟨back, Option.some.inj hline⟩, hcolumn, hoffset.trans (Nat.zero_add _)⟩
  · rintro ⟨⟨back, hline⟩, hcolumn, hoffset⟩
    exact ⟨⟨back, congrArg some hline⟩, hcolumn, hoffset.trans (Nat.zero_add _).symm⟩

theorem standsAt_succ : StandsAt (line :: lines) offset ⟨l + 1, column⟩ front ↔
    ∃ rest, StandsAt lines rest ⟨l, column⟩ front ∧ offset = byteLength line + 1 + rest := by
  constructor
  · rintro ⟨hline, hcolumn, hoffset⟩
    exact ⟨_, ⟨hline, hcolumn, rfl⟩, by rw [hoffset, lineStart_succ, Nat.add_assoc]⟩
  · rintro ⟨_, ⟨hline, hcolumn, rfl⟩, hoffset⟩
    exact ⟨hline, hcolumn, by rw [hoffset, lineStart_succ, ← Nat.add_assoc]⟩

/-- What stands at a place of some lines stands at as many bytes of their text. -/
theorem StandsAt.exists_append : ∀ {lines : List (List Char)} {offset : Nat} {p : ByteLocation},
    StandsAt lines offset p front →
      ∃ before after, ['\n'].intercalate lines = before ++ after ∧ byteLength before = offset
  | [], _, _, ⟨⟨_, hline⟩, _, _⟩ => by simp at hline
  | line :: lines, offset, ⟨0, column⟩, h => by
      obtain ⟨⟨back, rfl⟩, rfl, rfl⟩ := standsAt_zero.mp h
      cases lines with
      | nil => exact ⟨front, back, by simp [List.intercalate], rfl⟩
      | cons next lines =>
        exact ⟨front, back ++ '\n' :: ['\n'].intercalate (next :: lines),
          by simp [List.intercalate_cons_cons], rfl⟩
  | line :: lines, offset, ⟨l + 1, column⟩, h => by
      obtain ⟨rest, hrest, rfl⟩ := standsAt_succ.mp h
      obtain ⟨before, after, heq, hbytes⟩ := hrest.exists_append
      cases lines with
      | nil =>
        obtain ⟨back, hline⟩ := hrest.line
        simp at hline
      | cons next lines =>
        refine ⟨line ++ '\n' :: before, after, ?_, ?_⟩
        · simp [List.intercalate_cons_cons, heq]
        · rw [byteLength_append, byteLength_cons, hbytes, utf8Size_newline, Nat.add_assoc]

/-- The characters behind the last line break. -/
def lastLine (cs : List Char) : List Char := (cs.reverse.takeWhile (· != '\n')).reverse

theorem lastLine_snoc (cs : List Char) (c : Char) :
    lastLine (cs ++ [c]) = if c = '\n' then [] else lastLine cs ++ [c] := by
  unfold lastLine
  by_cases hc : c = '\n' <;> simp [hc]

/-- **A text cut at a place of it.** In front of the place stand the lines of what is before, the last
    of which goes on with the first line of what is behind. -/
theorem pieces_append_eq (before : List Char) : ∃ lines, lines.length = before.count '\n' ∧
    before = lines.flatMap (· ++ ['\n']) ++ lastLine before ∧
    ∀ after line rest, pieces '\n' after = line :: rest →
      pieces '\n' (before ++ after) = lines ++ (lastLine before ++ line) :: rest := by
  -- from the end of `before`, because its last character is what `lastLine` looks at
  induction before using List.reverseRecOn with
  | nil => exact ⟨[], rfl, rfl, fun _ _ _ h => h⟩
  | append_singleton before c ih =>
    obtain ⟨lines, hcount, hbefore, hpieces⟩ := ih
    by_cases hc : c = '\n'
    · subst hc
      refine ⟨lines ++ [lastLine before], by simp [hcount], ?_, fun after line rest h => ?_⟩
      · rw [lastLine_snoc, if_pos rfl, List.append_nil, List.flatMap_append, List.flatMap_singleton,
          ← List.append_assoc, ← hbefore]
      · have hbreak : pieces '\n' ('\n' :: after) = [] :: line :: rest := by simp [pieces, h]
        rw [List.append_assoc, List.singleton_append, hpieces _ _ _ hbreak, lastLine_snoc, if_pos rfl]
        simp
    · refine ⟨lines, by simp [hcount, hc], ?_, fun after line rest h => ?_⟩
      · rw [lastLine_snoc, if_neg hc, ← List.append_assoc, ← hbefore]
      · have hnext : pieces '\n' (c :: after) = (c :: line) :: rest := by simp [pieces, h, hc]
        rw [List.append_assoc, List.singleton_append, hpieces _ _ _ hnext, lastLine_snoc, if_neg hc,
          List.append_assoc, List.singleton_append]

/-- Every place of a text stands in one of its lines, behind what follows the last line break. -/
theorem standsAt_pieces (before after : List Char) :
    StandsAt (pieces '\n' (before ++ after)) (byteLength before)
      ⟨before.count '\n', byteLength (lastLine before)⟩ (lastLine before) := by
  obtain ⟨lines, hcount, hbefore, hpieces⟩ := pieces_append_eq before
  obtain ⟨line, rest, h⟩ := List.exists_cons_of_ne_nil (pieces_ne_nil '\n' after)
  rw [hpieces after line rest h, ← hcount]
  refine ⟨⟨line, by simp⟩, rfl, ?_⟩
  rw [lineStart, List.take_left, ← byteLength_append, ← hbefore]

end Text

/-! ## 3. What an index knows -/

namespace LineIndex

open Text

/-- The index knows the lines of the text: where every offset is by line and byte column, and how many
    characters are in front of such a place in its line. -/
structure Indexes (index : LineIndex) (text : String) : Prop where
  byteLocation : ∀ offset ≤ largestOffset, ∀ p, index.byteLocation? offset = some p ↔
    ∃ front, StandsAt (pieces '\n' text.toList) offset p front
  location : ∀ offset ≤ largestOffset, ∀ p front, StandsAt (pieces '\n' text.toList) offset p front →
    index.location? p = some ⟨p.line, front.length⟩

theorem findLine?_eq_some_iff : ∀ {lines : List (List Char)} {offset : Nat} {p : ByteLocation},
    findLine? lines offset = some p ↔ ∃ front, StandsAt lines offset p front
  | [], _, _ => by
      refine iff_of_false nofun ?_
      rintro ⟨_, ⟨_, hline⟩, -, -⟩
      simp at hline
  | line :: lines, offset, ⟨0, column⟩ => by
      simp only [findLine?, standsAt_zero]
      split
      · simp only [Option.map_eq_some_iff, charsIn?_eq_some_iff, ByteLocation.mk.injEq, true_and]
        constructor
        · rintro ⟨_, ⟨front, back, hline, rfl, rfl⟩, rfl⟩
          exact ⟨front, ⟨back, hline⟩, rfl, rfl⟩
        · rintro ⟨front, ⟨back, hline⟩, rfl, rfl⟩
          exact ⟨_, ⟨front, back, hline, rfl, rfl⟩, rfl⟩
      · rename_i hpast
        refine iff_of_false (by simp) ?_
        rintro ⟨front, ⟨back, rfl⟩, rfl, rfl⟩
        simp only [byteLength_append] at hpast
        omega
  | line :: lines, offset, ⟨l + 1, column⟩ => by
      simp only [findLine?, standsAt_succ]
      split
      · rename_i hwithin
        refine iff_of_false (by simp) ?_
        rintro ⟨front, rest, -, rfl⟩
        omega
      · rename_i hpast
        simp only [Option.map_eq_some_iff, findLine?_eq_some_iff, ByteLocation.mk.injEq]
        constructor
        · rintro ⟨⟨_, _⟩, ⟨front, hfront⟩, hl, rfl⟩
          obtain rfl := Nat.succ.inj hl
          exact ⟨front, _, hfront, by omega⟩
        · rintro ⟨front, rest, hrest, rfl⟩
          rw [Nat.add_sub_cancel_left]
          exact ⟨_, ⟨front, hrest⟩, rfl, rfl⟩

/-- **The index that searches the lines** knows the lines of its text. -/
theorem indexes_ofText (text : String) : (ofText text).Indexes text where
  byteLocation _ _ _ := findLine?_eq_some_iff
  location := by
    rintro offset - p front ⟨⟨back, hline⟩, hcolumn, -⟩
    have hchars : charsIn? (front ++ back) p.column = some front.length :=
      charsIn?_eq_some_iff.mpr ⟨front, back, rfl, hcolumn.symm, rfl⟩
    simp [ofText, hline, hchars]

end LineIndex

/-! ## 4. The order of places -/

namespace Location

/-- The location behind some characters at the start of a text: how many line breaks there are, and how
    many characters follow the last of them. -/
def behind (before : List Char) : Location :=
  ⟨before.count '\n', (before.reverse.takeWhile (· != '\n')).length⟩

theorem behind_eq (before : List Char) :
    behind before = ⟨before.count '\n', (Text.lastLine before).length⟩ := by
  rw [behind, Text.lastLine, List.length_reverse]

theorem behind_lt_snoc (before : List Char) (c : Char) : behind before < behind (before ++ [c]) := by
  rw [behind_eq, behind_eq, Text.lastLine_snoc, lt_def]
  by_cases hc : c = '\n'
  · exact .inl (by simp [hc])
  · exact .inr (by simp [hc])

/-- Behind more characters is further on. -/
theorem behind_lt_append (before : List Char) {more : List Char} (hmore : more ≠ []) :
    behind before < behind (before ++ more) := by
  induction more using List.reverseRecOn with
  | nil => exact absurd rfl hmore
  | append_singleton more c ih =>
    rw [← List.append_assoc]
    by_cases hnil : more = []
    · rw [hnil, List.append_nil]
      exact behind_lt_snoc before c
    · exact lt_of_lt_of_le (ih hnil) (le_of_lt (behind_lt_snoc _ c))

/-- More bytes of a text end further on. -/
theorem behind_lt_of_byteLength_lt {a b after after' : List Char} (htext : a ++ after = b ++ after')
    (hlt : Text.byteLength a < Text.byteLength b) : behind a < behind b := by
  have ha : a <+: b ++ after' := ⟨after, htext⟩
  obtain ⟨more, rfl⟩ | ⟨more, rfl⟩ := List.prefix_or_prefix_of_prefix ha (List.prefix_append b after')
  · refine behind_lt_append a ?_
    rintro rfl
    simp at hlt
  · rw [Text.byteLength_append] at hlt
    omega

end Location

/-! ## 5. The location of an offset -/

namespace LineIndex

open Text

variable {index : LineIndex} {text : String} {offset : Nat} {a : Location}

/-- The location of an offset is the one behind the characters that take as many bytes. -/
theorem Indexes.locate?_eq_some_iff (h : index.Indexes text) : index.locate? offset = some a ↔
    offset ≤ largestOffset ∧ ∃ before after, text.toList = before ++ after ∧
      byteLength before = offset ∧ a = Location.behind before := by
  have hbehind : ∀ {before after}, text.toList = before ++ after →
      byteLength before ≤ largestOffset →
        index.locate? (byteLength before) = some (Location.behind before) := by
    intro before after htext hle
    have hstands := standsAt_pieces before after
    rw [← htext] at hstands
    rw [locate?, if_pos hle, (h.byteLocation _ hle _).mpr ⟨_, hstands⟩, Option.bind_some,
      h.location _ hle _ _ hstands, Location.behind_eq]
  constructor
  · intro ha
    have hle : offset ≤ largestOffset := by
      by_contra hlarge
      rw [locate?, if_neg hlarge] at ha
      cases ha
    have hplace := ha
    rw [locate?, if_pos hle, Option.bind_eq_some_iff] at hplace
    obtain ⟨p, hp, -⟩ := hplace
    obtain ⟨front, hstands⟩ := (h.byteLocation _ hle _).mp hp
    obtain ⟨before, after, htext, rfl⟩ := hstands.exists_append
    rw [intercalate_pieces] at htext
    exact ⟨hle, before, after, htext, rfl, Option.some.inj (ha.symm.trans (hbehind htext hle))⟩
  · rintro ⟨hle, before, after, htext, rfl, rfl⟩
    exact hbehind htext hle

/-- Of two offsets with a location the larger one is further on. -/
theorem Indexes.locate?_lt (h : index.Indexes text) {offset' : Nat} {b : Location}
    (ha : index.locate? offset = some a) (hb : index.locate? offset' = some b)
    (hlt : offset < offset') : a < b := by
  obtain ⟨-, before, after, htext, rfl, rfl⟩ := h.locate?_eq_some_iff.mp ha
  obtain ⟨-, before', after', htext', rfl, rfl⟩ := h.locate?_eq_some_iff.mp hb
  exact Location.behind_lt_of_byteLength_lt (htext.symm.trans htext') hlt

theorem span?_eq_some_iff {offset' : Nat} {s : Span} : index.span? offset offset' = some s ↔
    index.locate? offset = some s.start ∧ index.locate? offset' = some s.stop := by
  simp only [span?, Option.bind_eq_bind, Option.bind_eq_some_iff, Option.some.injEq]
  constructor
  · rintro ⟨a, ha, b, hb, rfl⟩
    exact ⟨ha, hb⟩
  · rintro ⟨ha, hb⟩
    exact ⟨_, ha, _, hb, rfl⟩

/-- An offset is on a character boundary when it is the number of bytes of characters in front. -/
theorem isValid_iff : (⟨offset⟩ : String.Pos.Raw).IsValid text ↔
    ∃ before after, text.toList = before ++ after ∧ byteLength before = offset := by
  rw [String.Pos.Raw.isValid_iff_exists_append]
  constructor
  · rintro ⟨before, after, rfl, hoffset⟩
    refine ⟨before.toList, after.toList, String.toList_append, ?_⟩
    rw [← byteLength_ofList, String.ofList_toList]
    exact (congrArg String.Pos.Raw.byteIdx hoffset).symm
  · rintro ⟨before, after, htext, rfl⟩
    refine ⟨String.ofList before, String.ofList after, ?_, ?_⟩
    · rw [← String.ofList_append, ← htext, String.ofList_toList]
    · rw [← byteLength_ofList]
      rfl

/-- **Locations of byte offsets.** An offset has a location when it is at most 2 ^ 32 - 1, at most as large
    as the text and on a character boundary. The location is the line and the character column behind the
    text in front of the offset, which is further on for a larger offset. So no two offsets have the same
    location, and a span from one offset to a larger one is not empty. -/
theorem Indexes.locations_exact (h : index.Indexes text) :
    (∀ offset, (index.locate? offset).isSome ↔ offset ≤ 4294967295 ∧ offset ≤ text.utf8ByteSize ∧
      (⟨offset⟩ : String.Pos.Raw).IsValid text) ∧
    (∀ before after : String, text = before ++ after → before.utf8ByteSize ≤ 4294967295 →
      index.locate? before.utf8ByteSize = some (Location.behind before.toList)) ∧
    (∀ offset offset' a b, index.locate? offset = some a → index.locate? offset' = some b →
      offset < offset' → a < b) ∧
    (∀ offset offset' a, index.locate? offset = some a → index.locate? offset' = some a →
      offset = offset') ∧
    (∀ start stop s, index.span? start stop = some s ↔
      index.locate? start = some s.start ∧ index.locate? stop = some s.stop) ∧
    ∀ start stop s, start < stop → index.span? start stop = some s → s.start < s.stop := by
  refine ⟨fun offset => ?_, fun before after htext hle => ?_, fun _ _ _ _ => h.locate?_lt,
    fun offset offset' a ha ha' => ?_, fun _ _ _ => span?_eq_some_iff, fun _ _ _ hlt hs => ?_⟩
  · rw [Option.isSome_iff_exists]
    simp only [h.locate?_eq_some_iff]
    constructor
    · rintro ⟨a, hle, before, after, htext, hoffset, -⟩
      have hvalid := isValid_iff.mpr ⟨before, after, htext, hoffset⟩
      exact ⟨hle, hvalid.le_utf8ByteSize, hvalid⟩
    · rintro ⟨hle, -, hvalid⟩
      obtain ⟨before, after, htext, hoffset⟩ := isValid_iff.mp hvalid
      exact ⟨_, hle, before, after, htext, hoffset, rfl⟩
  · refine h.locate?_eq_some_iff.mpr ⟨hle, before.toList, after.toList, ?_, ?_, rfl⟩
    · rw [htext, String.toList_append]
    · rw [← byteLength_ofList, String.ofList_toList]
  · rcases Nat.lt_trichotomy offset offset' with hlt | heq | hlt
    · exact absurd (h.locate?_lt ha ha' hlt) (Location.lt_irrefl a)
    · exact heq
    · exact absurd (h.locate?_lt ha' ha hlt) (Location.lt_irrefl a)
  · obtain ⟨hstart, hstop⟩ := span?_eq_some_iff.mp hs
    exact h.locate?_lt hstart hstop hlt

/-- Bytes four and five are one character, so nothing is at offset four, and on the next line offsets and
    columns differ. -/
theorem Indexes.locations_umlaut :
    (ofText "// ä\nint y;").locate? 5 = some ⟨0, 4⟩ ∧ (ofText "// ä\nint y;").locate? 4 = none ∧
      (ofText "// ä\nint y;").span? 10 11 = some ⟨⟨1, 4⟩, ⟨1, 5⟩⟩ := by
  obtain ⟨hdefined, hvalue, -, -, hspan, -⟩ := Indexes.locations_exact (indexes_ofText "// ä\nint y;")
  refine ⟨hvalue "// ä" "\nint y;" rfl (by decide), ?_, (hspan _ _ _).mpr ⟨?_, ?_⟩⟩
  · rw [← Option.not_isSome_iff_eq_none, hdefined]
    decide
  · exact hvalue "// ä\nint " "y;" rfl (by decide)
  · exact hvalue "// ä\nint y" ";" rfl (by decide)

end LineIndex

end MemberRefs
