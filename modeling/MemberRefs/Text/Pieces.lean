/-!
# Pieces

A text cut at every occurrence of a separator. There is always at least one piece (`pieces_ne_nil`), and
joined by the separator the pieces are the text again (`intercalate_pieces`). A run without separators is
one piece, at the end of the text (`pieces_of_not_mem`) and in front of a separator (`pieces_append`).
-/

namespace MemberRefs.Text

/-- The pieces of a text between the separators in it. -/
def pieces (separator : Char) : List Char → List (List Char)
  | [] => [[]]
  | c :: cs =>
      if c == separator then [] :: pieces separator cs
      else
        match pieces separator cs with
        | [] => [[c]]
        | piece :: rest => (c :: piece) :: rest

theorem pieces_ne_nil (separator : Char) (cs : List Char) : pieces separator cs ≠ [] := by
  cases cs with
  | nil => simp [pieces]
  | cons c cs =>
    rw [pieces]
    split
    · simp
    · split <;> simp

theorem intercalate_pieces (separator : Char) (cs : List Char) :
    [separator].intercalate (pieces separator cs) = cs := by
  induction cs with
  | nil => rfl
  | cons c cs ih =>
    rw [pieces]
    cases h : pieces separator cs with
    | nil => exact absurd h (pieces_ne_nil separator cs)
    | cons piece rest =>
      rw [h] at ih
      by_cases hc : c = separator
      · simp [hc, List.intercalate_cons_cons, ih]
      · cases rest with
        | nil => simp_all [List.intercalate]
        | cons next rest => simp_all [List.intercalate_cons_cons]

theorem pieces_of_not_mem {separator : Char} : ∀ {run : List Char}, separator ∉ run →
    pieces separator run = [run]
  | [], _ => rfl
  | c :: run, h => by
      obtain ⟨hc, hrun⟩ := List.ne_and_not_mem_of_not_mem_cons h
      rw [pieces, pieces_of_not_mem hrun, if_neg (by simpa using Ne.symm hc)]

theorem pieces_append {separator : Char} {rest : List Char} : ∀ {run : List Char}, separator ∉ run →
    pieces separator (run ++ separator :: rest) = run :: pieces separator rest
  | [], _ => by
      rw [List.nil_append, pieces, if_pos (by simp)]
  | c :: run, h => by
      obtain ⟨hc, hrun⟩ := List.ne_and_not_mem_of_not_mem_cons h
      rw [List.cons_append, pieces, pieces_append hrun, if_neg (by simpa using Ne.symm hc)]

end MemberRefs.Text
