import MemberRefs.Source.Span
import MemberRefs.Proofs.Except
import MemberRefs.Proofs.Text.Blank

/-!
# The notation of spans

Lines and columns are written as decimal numbers counted from one, in which the separators `:` and `-`
do not occur. A span that was read stays below the largest number that can be written (`Span.Writable`),
and a span below this number is what its notation denotes.

* `writable_of_parse`: what a text denotes can be written again.
* `parse_text`: the notation of such a span denotes the span.
-/

namespace MemberRefs

open Text

/-! ## 1. Numbers -/

theorem isDigit_of_mem_toDigits {n : Nat} {c : Char} (h : c ∈ Nat.toDigits 10 n) :
    c.isDigit = true :=
  Nat.isDigit_of_mem_toDigits (by decide) (by decide) h

theorem isBlank_of_isDigit {c : Char} (h : c.isDigit = true) : isBlank c = false :=
  isBlank_of_isAlphanum (by simp [Char.isAlphanum, h])

/-- A character that is no digit does not occur in a decimal number. -/
theorem ne_of_mem_toDigits {n : Nat} {c d : Char} (h : c ∈ Nat.toDigits 10 n)
    (hd : d.isDigit = false) : c ≠ d := by
  rintro rfl
  rw [isDigit_of_mem_toDigits h] at hd
  cases hd

theorem stops_of_forall {p : Char → Bool} {cs : List Char} (h : ∀ c ∈ cs, p c = false) :
    Stops p cs :=
  fun c hc => h c (List.mem_of_mem_head? hc)

theorem trim_toDigits (n : Nat) : trim (Nat.toDigits 10 n) = Nat.toDigits 10 n := by
  have hsolid : ∀ c ∈ Nat.toDigits 10 n, isBlank c = false :=
    fun c hc => isBlank_of_isDigit (isDigit_of_mem_toDigits hc)
  exact trim_eq_self (stops_of_forall hsolid)
    (stops_of_forall fun c hc => hsolid c (List.mem_reverse.mp hc))

theorem readSignedDecimal_toDigits (n : Nat) :
    readSignedDecimal (Nat.toDigits 10 n) = some n := by
  have hplus : ∀ c ∈ Nat.toDigits 10 n, c ≠ '+' := fun c hc => ne_of_mem_toDigits hc (by decide)
  rw [← readDecimal_toDigits n]
  cases hdigits : Nat.toDigits 10 n with
  | nil => rfl
  | cons c cs =>
    rw [hdigits] at hplus
    exact readSignedDecimal.eq_2 _ fun digits heq => hplus c List.mem_cons_self (List.cons.inj heq).1

namespace Location

/-- A coordinate is written counted from one. -/
theorem readCoordinate_toDigits {n : Nat} (h : n < largestCoordinate) :
    readCoordinate (Nat.toDigits 10 (n + 1)) = some n := by
  rw [readCoordinate, trim_toDigits, readSignedDecimal_toDigits]
  exact if_pos ⟨Nat.le_add_left 1 n, h⟩

theorem lt_of_readCoordinate {cs : List Char} {n : Nat} (h : readCoordinate cs = some n) :
    n < largestCoordinate := by
  unfold readCoordinate at h
  split at h
  · split at h
    · rename_i hrange
      cases h
      omega
    · cases h
  · cases h

/-! ## 2. Locations -/

/-- Counted from one, line and column stay below the largest number that is written. -/
structure Writable (a : Location) : Prop where
  line : a.line < largestCoordinate
  column : a.column < largestCoordinate

theorem toList_text (a : Location) :
    a.text.toList = Nat.toDigits 10 (a.line + 1) ++ ':' :: Nat.toDigits 10 (a.column + 1) := by
  simp [text]

theorem writable_of_ofChars? {cs : List Char} {a : Location} (h : ofChars? cs = some a) :
    a.Writable := by
  unfold ofChars? at h
  split at h
  · cases h
  · obtain ⟨line, hline, h⟩ := Option.bind_eq_some_iff.mp h
    obtain ⟨column, hcolumn, h⟩ := Option.bind_eq_some_iff.mp h
    cases h
    exact ⟨lt_of_readCoordinate hline, lt_of_readCoordinate hcolumn⟩

/-- **A location that can be written is what its notation denotes.** -/
theorem ofChars?_text {a : Location} (h : a.Writable) : ofChars? a.text.toList = some a := by
  have hline : ∀ c ∈ Nat.toDigits 10 (a.line + 1), (c != ':') = true :=
    fun c hc => bne_iff_ne.mpr (ne_of_mem_toDigits hc (by decide))
  have hcolon : Stops (· != ':') (':' :: Nat.toDigits 10 (a.column + 1)) :=
    stops_cons.mpr (by decide)
  rw [toList_text, ofChars?, dropWhile_append_of_stops hline hcolon,
    takeWhile_append_of_stops hline hcolon]
  simp only [readCoordinate_toDigits h.line, readCoordinate_toDigits h.column]
  rfl

theorem parse_eq_ok {text : String} {a : Location} :
    Location.parse text = .ok a ↔ ofChars? text.toList = some a := by
  unfold Location.parse
  cases ofChars? text.toList <;> simp

/-- No dash occurs in the notation of a location. -/
theorem ne_dash_of_mem_text {a : Location} {c : Char} (h : c ∈ a.text.toList) : c ≠ '-' := by
  rw [toList_text] at h
  rcases List.mem_append.mp h with hline | hcolumn
  · exact ne_of_mem_toDigits hline (by decide)
  · rcases List.mem_cons.mp hcolumn with rfl | hcolumn
    · decide
    · exact ne_of_mem_toDigits hcolumn (by decide)

end Location

/-! ## 3. Spans -/

namespace Span

/-- Start and end can be written. -/
structure Writable (s : Span) : Prop where
  start : s.start.Writable
  stop : s.stop.Writable

/-- **What a text denotes can be written again.** -/
theorem writable_of_parse {text : String} {s : Span} (h : parse text = .ok s) : s.Writable := by
  unfold parse at h
  split at h
  · cases h
  · obtain ⟨start, hstart, h⟩ := bind_eq_ok.mp h
    obtain ⟨stop, hstop, h⟩ := bind_eq_ok.mp h
    cases h
    exact ⟨Location.writable_of_ofChars? (Location.parse_eq_ok.mp hstart),
      Location.writable_of_ofChars? (Location.parse_eq_ok.mp hstop)⟩

/-- **A span that can be written is what its notation denotes.** -/
theorem parse_text {s : Span} (h : s.Writable) : parse s.text = .ok s := by
  have hstart : Location.parse s.start.text = .ok s.start :=
    Location.parse_eq_ok.mpr (Location.ofChars?_text h.start)
  have hstop : Location.parse s.stop.text = .ok s.stop :=
    Location.parse_eq_ok.mpr (Location.ofChars?_text h.stop)
  have hchars : s.text.toList = s.start.text.toList ++ '-' :: s.stop.text.toList := by
    simp [text]
  have hbefore : ∀ c ∈ s.start.text.toList, (c != '-') = true :=
    fun c hc => bne_iff_ne.mpr (Location.ne_dash_of_mem_text hc)
  have hdash : Stops (· != '-') ('-' :: s.stop.text.toList) := stops_cons.mpr (by decide)
  rw [parse, hchars, dropWhile_append_of_stops hbefore hdash,
    takeWhile_append_of_stops hbefore hdash]
  simp only [String.ofList_toList, hstart, hstop]
  rfl

end Span

end MemberRefs
