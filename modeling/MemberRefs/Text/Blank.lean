import MemberRefs.Text.CodePoints

/-!
# Blanks

Words are separated by blanks: the 25 code points with the Unicode property `White_Space`. Trimming
takes them off the ends of a text and leaves the ones inside alone; every character that core calls
white space is a blank (`isBlank_of_isWhitespace`).
-/

namespace MemberRefs.Text

/-! ## 1. The class -/

/-- The code points with the property `White_Space`. -/
def blanks : CodePoints :=
  [(0x9, 0xD), (0x20, 0x20), (0x85, 0x85), (0xA0, 0xA0), (0x1680, 0x1680), (0x2000, 0x200A),
    (0x2028, 0x2029), (0x202F, 0x202F), (0x205F, 0x205F), (0x3000, 0x3000)]

/-- Whether `c` separates words. -/
def isBlank (c : Char) : Bool :=
  blanks.has c

example : blanks.count = 25 := rfl

theorem isBlank_of_isWhitespace {c : Char} (h : c.isWhitespace = true) : isBlank c = true := by
  simp only [Char.isWhitespace, Bool.or_eq_true, decide_eq_true_eq] at h
  rcases h with ((h | h) | h) | h <;> subst h <;> decide

/-! ## 2. Trimming -/

/-- The text without its leading blanks. -/
def dropBlanks (cs : List Char) : List Char :=
  cs.dropWhile isBlank

/-- The text without its trailing blanks. -/
def dropEndBlanks (cs : List Char) : List Char :=
  (dropBlanks cs.reverse).reverse

/-- The text without the blanks at either end. -/
def trim (cs : List Char) : List Char :=
  dropEndBlanks (dropBlanks cs)

/-- The text without any of its blanks. -/
def removeBlanks (cs : List Char) : List Char :=
  cs.filter fun c => !isBlank c

@[simp] theorem dropBlanks_nil : dropBlanks [] = [] := rfl

theorem dropBlanks_cons_blank {c : Char} {cs : List Char} (h : isBlank c = true) :
    dropBlanks (c :: cs) = dropBlanks cs := by
  simp [dropBlanks, h]

theorem dropBlanks_cons_solid {c : Char} {cs : List Char} (h : isBlank c = false) :
    dropBlanks (c :: cs) = c :: cs := by
  simp [dropBlanks, h]

theorem trim_nil : trim [] = [] := rfl

end MemberRefs.Text
