import Mathlib.Data.Nat.Digits.Defs
import MemberRefs.Diagnostic
import MemberRefs.Text.Pieces
import MemberRefs.Proofs.Source.Notation

/-!
# What is underlined

A diagnostic is laid out in lines: the source line behind its number, the underline, and the message. The
number is padded to three digits, and the underline is moved to the right as far as three digits and the
bar take. So it stands below the span for line numbers of up to three digits, and from line 1000 on it
stands too far to the left, by one character for each further digit.

* `pieces_layout`: the lines that are shown.
* `layout_underlines`: where the underline stands, and when this is below the span.
-/

namespace MemberRefs.Diagnostic

open Text

/-! ## 1. The lines of a text -/

/-- The line breaks are taken out. -/
theorem not_mem_of_mem_lines {cs line : List Char} (h : line ∈ lines cs) : '\n' ∉ line := by
  fun_induction lines cs generalizing line with
  | case1 => cases h
  | case2 cs ih =>
    rcases List.mem_cons.mp h with rfl | h
    · exact List.not_mem_nil
    · exact ih h
  | case3 cs ih =>
    rcases List.mem_cons.mp h with rfl | h
    · exact List.not_mem_nil
    · exact ih h
  | case4 c cs hbreak _ hlines ih =>
    rw [List.mem_singleton.mp h]
    exact fun hmem => hbreak (List.mem_singleton.mp hmem).symm
  | case5 c cs hbreak _ first rest hlines ih =>
    rw [hlines] at ih
    rcases List.mem_cons.mp h with rfl | h
    · intro hmem
      rcases List.mem_cons.mp hmem with hc | hmem
      · exact hbreak hc.symm
      · exact ih List.mem_cons_self hmem
    · exact ih (List.mem_cons_of_mem _ h)

/-- Empty lines in front of a text are lines of it. -/
theorem lines_replicate (n : Nat) (cs : List Char) :
    lines (List.replicate n '\n' ++ cs) = List.replicate n [] ++ lines cs := by
  induction n with
  | zero => rfl
  | succ n ih => rw [List.replicate_succ, List.cons_append, lines, ih]; rfl

/-! ## 2. In front of the source line -/

/-- What is shown in front of the source line. -/
def lead (line : Nat) : List Char := lineNumber (line + 1) ++ [' ', '|', ' ']

theorem length_lead (line : Nat) :
    (lead line).length = max 3 (Nat.toDigits 10 (line + 1)).length + 3 := by
  simp only [lead, lineNumber, List.length_append, List.length_replicate, List.length_cons,
    List.length_nil]
  omega

/-- Up to three digits the number takes three characters. -/
theorem length_lead_eq_six_iff (line : Nat) : (lead line).length = 6 ↔ line + 1 < 1000 := by
  have hdigits : (Nat.toDigits 10 (line + 1)).length ≤ 3 ↔ line + 1 < 10 ^ 3 :=
    Nat.length_toDigits_le_iff (by decide) (by decide)
  rw [length_lead]
  omega

theorem not_mem_lead (line : Nat) : '\n' ∉ lead line := by
  intro h
  simp only [lead, lineNumber, List.mem_append, List.mem_replicate] at h
  rcases h with (⟨_, hblank⟩ | hdigit) | hbar
  · exact absurd hblank (by decide)
  · exact ne_of_mem_toDigits hdigit (by decide) rfl
  · exact absurd hbar (by decide)

/-! ## 3. The lines that are shown -/

/-- The line below the source line. -/
def underline (span : Span) : List Char :=
  List.replicate (span.start.column + 6) ' '
    ++ List.replicate (max 1 (span.stop.column - span.start.column)) '~'

theorem not_mem_underline (span : Span) : '\n' ∉ underline span := by
  simp [underline, List.mem_replicate]

/-- Blanks stand in front of the underline. -/
theorem idxOf_underline (span : Span) : (underline span).idxOf '~' = span.start.column + 6 := by
  have hblanks : '~' ∉ List.replicate (span.start.column + 6) ' ' :=
    fun h => absurd (List.eq_of_mem_replicate h) (by decide)
  obtain ⟨n, hn⟩ : ∃ n, max 1 (span.stop.column - span.start.column) = n + 1 :=
    ⟨max 1 (span.stop.column - span.start.column) - 1, by omega⟩
  have hfirst : (List.replicate (n + 1) '~').idxOf '~' = 0 := List.idxOf_cons_self
  rw [underline, List.idxOf_append_of_notMem hblanks, hn, hfirst, List.length_replicate]

theorem count_underline (span : Span) :
    (underline span).count '~' = max 1 (span.stop.column - span.start.column) := by
  simp [underline, List.count_replicate]

section Layout

variable {d : Diagnostic} {source : String} {line : List Char}
  (hline : (lines source.toList)[d.span.start.line]? = some line)
  (hone : d.span.start.line = d.span.stop.line)

include hline hone

/-- **The lines that are shown**: the source line behind its number, the underline and the message. -/
theorem pieces_layout : pieces '\n' (d.layout source).toList =
    (lead d.span.start.line ++ line) :: underline d.span :: pieces '\n' d.message.toList := by
  have hsource : '\n' ∉ lead d.span.start.line ++ line :=
    List.not_mem_append (not_mem_lead _) (not_mem_of_mem_lines (List.mem_of_getElem? hline))
  have hchars : (d.layout source).toList = (lead d.span.start.line ++ line) ++ '\n' ::
      (underline d.span ++ '\n' :: d.message.toList) := by
    rw [layout, hline]
    simp [hone, underlined, lead, underline]
  rw [hchars, pieces_append hsource, pieces_append (not_mem_underline _)]

end Layout

/-- **Where the underline stands.** The source line is shown behind some characters, so the character of
    it with the number of the span's start column stands that many characters further on. The underline
    has one `~` for each column of the span, and one at least. It begins where the span does exactly for
    the lines whose number has three digits or fewer. -/
theorem layout_underlines {d : Diagnostic} {source : String} {line : List Char}
    (hline : (lines source.toList)[d.span.start.line]? = some line)
    (hone : d.span.start.line = d.span.stop.line) :
    ∃ shown below rest,
      pieces '\n' (d.layout source).toList = (shown ++ line) :: below :: rest ∧
      below.count '~' = max 1 (d.span.stop.column - d.span.start.column) ∧
      below.idxOf '~' = d.span.start.column + 6 ∧
      (below.idxOf '~' = shown.length + d.span.start.column ↔ d.span.start.line + 1 < 1000) := by
  refine ⟨_, _, _, pieces_layout hline hone, count_underline _, idxOf_underline _, ?_⟩
  rw [idxOf_underline, ← length_lead_eq_six_iff]
  omega

/-- The second line of a source is underlined below the span. -/
theorem layout_underlines_second :
    (lines "class Foo {};\nint Baz;\n".toList)[1]? = some "int Baz;".toList ∧
      ∃ shown below rest,
        pieces '\n' (layout ⟨⟨⟨1, 4⟩, ⟨1, 7⟩⟩, .error, .symbols, "Unknown."⟩
          "class Foo {};\nint Baz;\n").toList = (shown ++ "int Baz;".toList) :: below :: rest ∧
        below.count '~' = 3 ∧ below.idxOf '~' = shown.length + 4 := by
  have hline : (lines "class Foo {};\nint Baz;\n".toList)[1]? = some "int Baz;".toList := by
    decide +kernel
  obtain ⟨shown, below, rest, hpieces, hcount, _, hplace⟩ :=
    @layout_underlines ⟨⟨⟨1, 4⟩, ⟨1, 7⟩⟩, .error, .symbols, "Unknown."⟩
      "class Foo {};\nint Baz;\n" _ hline rfl
  exact ⟨hline, shown, below, rest, hpieces, hcount, hplace.mpr (by decide)⟩

/-- In line 1000 the span begins one character behind the place where it is underlined. -/
theorem layout_of_thousandth_line :
    ∃ below rest,
      pieces '\n' (layout ⟨⟨⟨999, 0⟩, ⟨999, 1⟩⟩, .error, .symbols, "Unknown."⟩
        (String.ofList (List.replicate 999 '\n' ++ ['x']))).toList =
          "1000 | x".toList :: below :: rest ∧
      below.idxOf '~' = 6 ∧ "1000 | x".toList[7]? = some 'x' := by
  have hline : (lines (String.ofList (List.replicate 999 '\n' ++ ['x'])).toList)[999]? =
      some ['x'] := by
    rw [String.toList_ofList, lines_replicate,
      List.getElem?_append_right (Nat.le_of_eq List.length_replicate), List.length_replicate]
    rfl
  exact ⟨_, _, pieces_layout hline rfl, idxOf_underline _, rfl⟩

end MemberRefs.Diagnostic
