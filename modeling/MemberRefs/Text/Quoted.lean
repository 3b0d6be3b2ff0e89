import MemberRefs.Text.Printable

/-!
# Quoted text

A text between double quotes on which every character can be told apart: quotes, backslashes and line
controls are written as a backslash and one more character, everything else without a glyph as its code
point in hexadecimal. Printable characters other than the quote and the backslash stand for themselves
(`quoteChar_of_plain`).
-/

namespace MemberRefs.Text

/-- How one character is written between the quotes. -/
def quoteChar (c : Char) : List Char :=
  if c == '\x00' then ['\\', '0']
  else if c == '\t' then ['\\', 't']
  else if c == '\r' then ['\\', 'r']
  else if c == '\n' then ['\\', 'n']
  else if c == '\\' || c == '"' then ['\\', c]
  else if isPrintable c then [c]
  else ['\\', 'u', '\x7b'] ++ Nat.toDigits 16 c.toNat ++ ['\x7d']

/-- The text in quotes. -/
def quote (text : String) : String :=
  String.ofList ('"' :: text.toList.flatMap quoteChar ++ ['"'])

theorem quoteChar_of_plain {c : Char} (hp : isPrintable c = true) (hq : c ≠ '"') (hb : c ≠ '\\') :
    quoteChar c = [c] := by
  have h : ∀ d : Char, isPrintable d = false → c ≠ d := fun d hd he => by
    rw [he, hd] at hp; cases hp
  simp [quoteChar, hp, hq, hb, h '\x00' (by decide), h '\t' (by decide), h '\r' (by decide),
    h '\n' (by decide)]

end MemberRefs.Text
