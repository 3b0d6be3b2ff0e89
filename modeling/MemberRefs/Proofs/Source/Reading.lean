import MemberRefs.Proofs.Source.Notation

/-!
# Texts that denote spans

A span is read from four numbers. Each one stands between blanks or none, may have a `+` in front and
zeros before its first other digit, and is counted from one. The text is cut at its first dash, and each
half at its first colon, so a separator too many falls into a number and spoils it. Of two bad halves the
first is the one that is named.

* `readCoordinate_eq_some_iff`: which characters denote a line or a column.
* `parse_reading`: what is answered for each text, complaints included.
* `parse_exact`: this, and that reading is inverse to printing.
-/

namespace MemberRefs

open Text

/-! ## 1. Numbers -/

/-- Without the blanks around it the text is ASCII digits, at least one, behind a `+` or without one, and
    `value` is the number they denote. -/
def Numeral (cs : List Char) (value : Nat) : Prop :=
  ∃ digits, (trim cs = digits ∨ trim cs = '+' :: digits) ∧ digits ≠ [] ∧
    (∀ c ∈ digits, c.isDigit = true) ∧ Nat.ofDigitChars 10 digits 0 = value

theorem readDecimal_eq_some_iff {cs : List Char} {n : Nat} : readDecimal cs = some n ↔
    cs ≠ [] ∧ (∀ c ∈ cs, c.isDigit = true) ∧ Nat.ofDigitChars 10 cs 0 = n := by
  unfold readDecimal
  split
  · rename_i hbad
    refine ⟨fun h => (by cases h), fun ⟨hne, hdigits, _⟩ => ?_⟩
    simp [hne, List.all_eq_true.mpr hdigits] at hbad
  · rename_i hgood
    simp only [Bool.or_eq_true, Bool.not_eq_true', not_or, List.isEmpty_iff,
      Bool.not_eq_false] at hgood
    rw [Option.some.injEq]
    exact ⟨fun h => ⟨hgood.1, List.all_eq_true.mp hgood.2, h⟩, fun h => h.2.2⟩

/-- Only a `+` may stand in front of the digits, and a number with two of them is none. -/
theorem readSignedDecimal_eq_some_iff {cs : List Char} {n : Nat} :
    readSignedDecimal cs = some n ↔
      ∃ digits, (cs = digits ∨ cs = '+' :: digits) ∧ readDecimal digits = some n := by
  unfold readSignedDecimal
  split
  · rename_i digits
    refine ⟨fun h => ⟨digits, Or.inr rfl, h⟩, ?_⟩
    rintro ⟨digits', rfl | hsign, h⟩
    · exact absurd ((readDecimal_eq_some_iff.mp h).2.1 '+' List.mem_cons_self) (by decide)
    · rwa [(List.cons.inj hsign).2]
  · rename_i hplain
    refine ⟨fun h => ⟨cs, Or.inl rfl, h⟩, ?_⟩
    rintro ⟨digits, rfl | hsign, h⟩
    · exact h
    · exact absurd hsign (hplain digits)

theorem readSignedDecimal_trim_iff {cs : List Char} {n : Nat} :
    readSignedDecimal (trim cs) = some n ↔ Numeral cs n := by
  rw [readSignedDecimal_eq_some_iff, Numeral]
  refine exists_congr fun digits => and_congr_right fun _ => readDecimal_eq_some_iff

/-! ## 2. Locations -/

namespace Location

/-- The text denotes a line or column: a number from one to the largest that is written, counted from one. -/
def Coordinate (cs : List Char) (n : Nat) : Prop :=
  ∃ value, Numeral cs value ∧ 1 ≤ value ∧ value ≤ 4294967295 ∧ n = value - 1

/-- The text denotes a location: a line and a column, cut at the first colon. -/
def Denotes (cs : List Char) (a : Location) : Prop :=
  ∃ line column, CutAt ':' cs line column ∧ Coordinate line a.line ∧ Coordinate column a.column

/-- **Which characters denote a line or a column.** -/
theorem readCoordinate_eq_some_iff {cs : List Char} {n : Nat} :
    readCoordinate cs = some n ↔ Coordinate cs n := by
  unfold readCoordinate
  constructor
  · intro h
    split at h
    · rename_i value hvalue
      split at h
      · rename_i hrange
        exact ⟨value, readSignedDecimal_trim_iff.mp hvalue, hrange.1, hrange.2,
          (Option.some.inj h).symm⟩
      · cases h
    · cases h
  · rintro ⟨value, hvalue, hone, hlargest, rfl⟩
    rw [readSignedDecimal_trim_iff.mpr hvalue]
    exact if_pos ⟨hone, hlargest⟩

/-- **Which characters denote a location.** -/
theorem ofChars?_eq_some_iff {cs : List Char} {a : Location} :
    ofChars? cs = some a ↔ Denotes cs a := by
  unfold ofChars?
  constructor
  · intro h
    split at h
    · cases h
    · rename_i column hcut
      obtain ⟨n, hline, h⟩ := Option.bind_eq_some_iff.mp h
      obtain ⟨m, hcolumn, h⟩ := Option.bind_eq_some_iff.mp h
      cases h
      exact ⟨_, column, cutAt_of_dropWhile hcut, readCoordinate_eq_some_iff.mp hline,
        readCoordinate_eq_some_iff.mp hcolumn⟩
  · rintro ⟨line, column, hcut, hline, hcolumn⟩
    rw [hcut.dropWhile, hcut.takeWhile]
    simp only [readCoordinate_eq_some_iff.mpr hline, readCoordinate_eq_some_iff.mpr hcolumn]
    rfl

theorem parse_ofList_of_denotes {cs : List Char} {a : Location} (h : Denotes cs a) :
    Location.parse (String.ofList cs) = .ok a := by
  rw [parse_eq_ok, String.toList_ofList]
  exact ofChars?_eq_some_iff.mpr h

theorem parse_ofList_of_not_denotes {cs : List Char} (h : ∀ a, ¬ Denotes cs a) :
    Location.parse (String.ofList cs) = .error (.location (String.ofList cs)) := by
  have hnone : ofChars? cs = none :=
    Option.eq_none_iff_forall_ne_some.mpr fun a ha => h a (ofChars?_eq_some_iff.mp ha)
  rw [Location.parse, String.toList_ofList, hnone]

end Location

/-! ## 3. Spans -/

namespace Span

/-- What is answered for a text: the span it denotes, or the complaint, which names the whole text if
    there is no dash in it, and otherwise the first half that is no location. -/
inductive Reading (text : String) : Except String Span → Prop where
  | denoted {start stop : List Char} {s : Span} (cut : CutAt '-' text.toList start stop)
      (first : Location.Denotes start s.start) (second : Location.Denotes stop s.stop) :
      Reading text (.ok s)
  | noDash (missing : '-' ∉ text.toList) :
      Reading text (.error ("bad source span `" ++ text ++ "`"))
  | badStart {start stop : List Char} (cut : CutAt '-' text.toList start stop)
      (bad : ∀ a, ¬ Location.Denotes start a) :
      Reading text (.error ("bad source location `" ++ String.ofList start ++ "`"))
  | badStop {start stop : List Char} {a : Location} (cut : CutAt '-' text.toList start stop)
      (first : Location.Denotes start a) (bad : ∀ b, ¬ Location.Denotes stop b) :
      Reading text (.error ("bad source location `" ++ String.ofList stop ++ "`"))

theorem parse_of_cutAt {text : String} {start stop : List Char}
    (h : CutAt '-' text.toList start stop) :
    parse text = (Location.parse (String.ofList start)).bind fun a =>
      (Location.parse (String.ofList stop)).bind fun b => .ok ⟨a, b⟩ := by
  rw [parse, h.dropWhile, h.takeWhile]
  rfl

/-- Each reading is what is answered. -/
theorem parse_of_reading {text : String} {r : Except String Span} (h : Reading text r) :
    (parse text).mapError SpanError.message = r := by
  cases h with
  | denoted cut first second =>
    rw [parse_of_cutAt cut, Location.parse_ofList_of_denotes first,
      Location.parse_ofList_of_denotes second]
    rfl
  | noDash missing =>
    rw [parse, dropWhile_eq_nil_of_not_mem missing]
    rfl
  | badStart cut bad =>
    rw [parse_of_cutAt cut, Location.parse_ofList_of_not_denotes bad]
    rfl
  | badStop cut first bad =>
    rw [parse_of_cutAt cut, Location.parse_ofList_of_denotes first,
      Location.parse_ofList_of_not_denotes bad]
    rfl

/-- There is a reading of every text. -/
theorem exists_reading (text : String) : ∃ r, Reading text r := by
  cases hdash : text.toList.dropWhile (· != '-') with
  | nil => exact ⟨_, .noDash (not_mem_of_dropWhile hdash)⟩
  | cons c stop =>
    have hcut := cutAt_of_dropWhile hdash
    by_cases hstart : ∃ a, Location.Denotes (text.toList.takeWhile (· != '-')) a
    · obtain ⟨a, ha⟩ := hstart
      by_cases hstop : ∃ b, Location.Denotes stop b
      · obtain ⟨b, hb⟩ := hstop
        exact ⟨.ok ⟨a, b⟩, .denoted hcut ha hb⟩
      · exact ⟨_, .badStop hcut ha (not_exists.mp hstop)⟩
    · exact ⟨_, .badStart hcut (not_exists.mp hstart)⟩

/-- **What is answered for each text.** -/
theorem parse_reading {text : String} {r : Except String Span} :
    (parse text).mapError SpanError.message = r ↔ Reading text r := by
  refine ⟨fun h => ?_, parse_of_reading⟩
  obtain ⟨r', hr⟩ := exists_reading text
  rwa [← h, parse_of_reading hr]

/-! ## 4. Reading and printing -/

/-- The four numbers of a span, counted from zero. -/
def coordinates (s : Span) : List Nat := [s.start.line, s.start.column, s.stop.line, s.stop.column]

theorem writable_iff {s : Span} : s.Writable ↔ ∀ n ∈ s.coordinates, n < 4294967295 := by
  simp only [coordinates, List.forall_mem_cons, List.not_mem_nil, false_imp_iff, implies_true,
    and_true]
  exact ⟨fun h => ⟨h.start.line, h.start.column, h.stop.line, h.stop.column⟩,
    fun ⟨h₁, h₂, h₃, h₄⟩ => ⟨⟨h₁, h₂⟩, ⟨h₃, h₄⟩⟩⟩

/-- **The notation of spans is exact.** A text is answered with the span it denotes, or with a complaint
    that names the first bad half, or the text when no dash is in it. The numbers printed for a span that
    was read fit in 32 bits, and every span of which they do reads back from what is printed. -/
theorem parse_exact (text : String) :
    (∀ r, (parse text).mapError SpanError.message = r ↔ Reading text r) ∧
      (∀ s, parse text = .ok s →
        (∀ n ∈ s.coordinates, n + 1 ≤ 4294967295) ∧ parse s.text = .ok s) ∧
      ∀ s : Span, (∀ n ∈ s.coordinates, n < 4294967295) → parse s.text = .ok s := by
  refine ⟨fun r => parse_reading, fun s h => ?_, fun s h => parse_text (writable_iff.mpr h)⟩
  have hwritable := writable_of_parse h
  refine ⟨fun n hn => ?_, parse_text hwritable⟩
  have hbelow := writable_iff.mp hwritable n hn
  omega

/-- Signs, zeros in front and blanks around the numbers, and the largest number. -/
theorem parse_exact_signed :
    parse " +4 :15-\t0005 :4294967295 " = .ok ⟨⟨3, 14⟩, ⟨4, 4294967294⟩⟩ ∧
      (∀ n ∈ coordinates ⟨⟨3, 14⟩, ⟨4, 4294967294⟩⟩, n + 1 ≤ 4294967295) ∧
      parse (Span.text ⟨⟨3, 14⟩, ⟨4, 4294967294⟩⟩) = .ok ⟨⟨3, 14⟩, ⟨4, 4294967294⟩⟩ ∧
      parse (Span.text ⟨⟨4294967294, 0⟩, ⟨0, 7⟩⟩) = .ok ⟨⟨4294967294, 0⟩, ⟨0, 7⟩⟩ := by
  have hread : parse " +4 :15-\t0005 :4294967295 " = .ok ⟨⟨3, 14⟩, ⟨4, 4294967294⟩⟩ := by
    decide +kernel
  obtain ⟨_, hback, hprinted⟩ := parse_exact " +4 :15-\t0005 :4294967295 "
  exact ⟨hread, (hback _ hread).1, (hback _ hread).2, hprinted _ (by decide)⟩

end Span

end MemberRefs
