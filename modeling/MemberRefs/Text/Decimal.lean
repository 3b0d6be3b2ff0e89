/-!
# Decimal numbers

Numbers are written in ASCII digits without leading zeros and read from any non-empty run of ASCII
digits. What is written reads back as the same number (`readDecimal_toDigits`).
-/

namespace MemberRefs.Text

/-- The number that a non-empty run of ASCII digits denotes. -/
def readDecimal (cs : List Char) : Option Nat :=
  if cs.isEmpty || !cs.all Char.isDigit then none else some (Nat.ofDigitChars 10 cs 0)

/-- The number that ASCII digits, after a `+` or without one, denote. -/
def readSignedDecimal : List Char → Option Nat
  | '+' :: digits => readDecimal digits
  | digits => readDecimal digits

theorem readDecimal_toDigits (n : Nat) : readDecimal (Nat.toDigits 10 n) = some n := by
  have hne : (Nat.toDigits 10 n).isEmpty = false := by
    cases h : Nat.toDigits 10 n with
    | nil => exact absurd h Nat.toDigits_ne_nil
    | cons _ _ => rfl
  have hall : (Nat.toDigits 10 n).all Char.isDigit = true :=
    List.all_eq_true.2 fun c hc => Nat.isDigit_of_mem_toDigits (by decide) (by decide) hc
  simp [readDecimal, hne, hall, Nat.ofDigitChars_toDigits (b := 10) (by decide) (by decide)]

end MemberRefs.Text
