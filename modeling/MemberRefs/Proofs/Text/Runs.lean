/-!
# Runs of characters

A reader takes the longest run of characters of one class. What it takes of a text that was put together
is what was put there, as soon as the text goes on with a character of another class or ends (`Stops`).
A text that is cut at the first mark in it is such a run in front of the mark (`CutAt`).
-/

namespace MemberRefs.Text

variable {p q : Char → Bool} {run rest : List Char}

/-! ## 1. Longest runs -/

/-- The text is at its end or goes on with a character that is not of the class. -/
def Stops (p : Char → Bool) (cs : List Char) : Prop := ∀ c ∈ cs.head?, p c = false

@[simp] theorem stops_nil : Stops p [] := by
  simp [Stops]

@[simp] theorem stops_cons {c : Char} : Stops p (c :: rest) ↔ p c = false := by
  simp [Stops]

theorem Stops.append (hrun : Stops p run) (hrest : run = [] → Stops p rest) :
    Stops p (run ++ rest) := by
  cases run with
  | nil => exact hrest rfl
  | cons c run => exact hrun

/-- **The longest run is the one that was put there.** -/
theorem takeWhile_append_of_stops (hrun : ∀ c ∈ run, p c = true) (hrest : Stops p rest) :
    (run ++ rest).takeWhile p = run := by
  rw [List.takeWhile_append_of_pos hrun]
  cases rest with
  | nil => simp
  | cons c rest => simp [stops_cons.mp hrest]

/-- **Behind the longest run stands what was put there.** -/
theorem dropWhile_append_of_stops (hrun : ∀ c ∈ run, p c = true) (hrest : Stops p rest) :
    (run ++ rest).dropWhile p = rest := by
  rw [List.dropWhile_append_of_pos hrun]
  cases rest with
  | nil => rfl
  | cons c rest => simp [stops_cons.mp hrest]

/-! ## 2. Texts cut at a mark -/

/-- The text is cut into what stands before the first `mark` in it and what stands behind. -/
structure CutAt (mark : Char) (cs before after : List Char) : Prop where
  eq_append : cs = before ++ mark :: after
  first : mark ∉ before

variable {mark : Char} {cs before after : List Char}

theorem CutAt.takeWhile (h : CutAt mark cs before after) : cs.takeWhile (· != mark) = before := by
  have hbefore : ∀ c ∈ before, (c != mark) = true :=
    fun c hc => bne_iff_ne.mpr fun heq => h.first (heq ▸ hc)
  rw [h.eq_append]
  exact takeWhile_append_of_stops hbefore (stops_cons.mpr (by simp))

theorem CutAt.dropWhile (h : CutAt mark cs before after) :
    cs.dropWhile (· != mark) = mark :: after := by
  have hbefore : ∀ c ∈ before, (c != mark) = true :=
    fun c hc => bne_iff_ne.mpr fun heq => h.first (heq ▸ hc)
  rw [h.eq_append]
  exact dropWhile_append_of_stops hbefore (stops_cons.mpr (by simp))

/-- **A text is cut at a mark, or the mark is not in it.** -/
theorem cutAt_of_dropWhile {c : Char} (h : cs.dropWhile (· != mark) = c :: after) :
    CutAt mark cs (cs.takeWhile (· != mark)) after := by
  have hc : c = mark := by
    have hstop := List.head?_dropWhile_not (· != mark) cs
    simpa [h] using hstop
  subst hc
  refine ⟨?_, fun hmem => ?_⟩
  · rw [← h, List.takeWhile_append_dropWhile]
  · simpa using List.all_eq_true.mp List.all_takeWhile c hmem

theorem dropWhile_eq_nil_of_not_mem (h : mark ∉ cs) : cs.dropWhile (· != mark) = [] := by
  cases hdrop : cs.dropWhile (· != mark) with
  | nil => rfl
  | cons c after =>
    have hcut := (cutAt_of_dropWhile hdrop).eq_append
    exact absurd (hcut ▸ List.mem_append_right _ List.mem_cons_self) h

theorem not_mem_of_dropWhile (h : cs.dropWhile (· != mark) = []) : mark ∉ cs := by
  intro hmem
  have hall := List.all_eq_true.mp (List.all_takeWhile (p := (· != mark)) (l := cs))
  have hwhole := List.takeWhile_append_dropWhile (p := (· != mark)) (l := cs)
  rw [h, List.append_nil] at hwhole
  rw [hwhole] at hall
  simpa using hall mark hmem

end MemberRefs.Text
