import MemberRefs.Tree.Outline

/-!
# Writing line by line

The writer carries a depth and a place from one line to the next. An outline that is written while no
place is waiting writes the same text at every depth, only with more blanks behind its line breaks, and
leaves the depth as it was and no place behind (`Writes`). One such statement for each way of writing
makes up those of the outlines that are put together.
-/

namespace MemberRefs.Outline

/-! ## 1. The writer behind an outline -/

@[simp] theorem after_pure (w : Writer) : after (pure ()) w = w := rfl

@[simp] theorem after_seq (a b : Outline) (w : Writer) :
    after (do a; b) w = after b (after a w) := rfl

/-! ## 2. Texts with more blanks behind their line breaks -/

/-- No line break is in the text. -/
def OneLine (text : String) : Prop := '\n' ∉ text.toList

instance (text : String) : Decidable (OneLine text) := inferInstanceAs (Decidable (¬ _))

theorem OneLine.append {s t : String} (hs : OneLine s) (ht : OneLine t) : OneLine (s ++ t) := by
  rw [OneLine, String.toList_append]
  exact List.not_mem_append hs ht

/-- A character with four blanks behind it for each level if it is a line break. -/
def indentedChar (depth : Nat) (c : Char) : List Char :=
  if c = '\n' then '\n' :: List.replicate (4 * depth) ' ' else [c]

/-- The text with four blanks for each level behind each of its line breaks. -/
def indented (depth : Nat) (text : String) : String :=
  String.ofList (text.toList.flatMap (indentedChar depth))

variable {s t : String}

theorem toList_indented (depth : Nat) (text : String) :
    (indented depth text).toList = text.toList.flatMap (indentedChar depth) :=
  String.toList_ofList

@[simp] theorem indented_empty (depth : Nat) : indented depth "" = "" := rfl

theorem indented_append (depth : Nat) (s t : String) :
    indented depth (s ++ t) = indented depth s ++ indented depth t := by
  simp [indented]

theorem indented_break (depth : Nat) : indented depth "\n" = "\n" ++ indent depth := by
  simp [← String.toList_inj, toList_indented, indentedChar, indent]

theorem flatMap_indentedChar_of_not_mem {depth : Nat} {cs : List Char} (h : '\n' ∉ cs) :
    cs.flatMap (indentedChar depth) = cs := by
  induction cs with
  | nil => rfl
  | cons c cs ih =>
    obtain ⟨hc, hcs⟩ := List.ne_and_not_mem_of_not_mem_cons h
    rw [List.flatMap_cons, ih hcs, indentedChar, if_neg (Ne.symm hc)]
    rfl

theorem indented_of_oneLine {depth : Nat} (h : OneLine s) : indented depth s = s := by
  rw [indented, flatMap_indentedChar_of_not_mem h, String.ofList_toList]

theorem flatMap_indentedChar (m n : Nat) (c : Char) :
    (indentedChar n c).flatMap (indentedChar m) = indentedChar (m + n) c := by
  have hblanks : '\n' ∉ List.replicate (4 * n) ' ' :=
    fun h => absurd (List.eq_of_mem_replicate h) (by decide)
  by_cases hc : c = '\n'
  · rw [indentedChar, if_pos hc, List.flatMap_cons, flatMap_indentedChar_of_not_mem hblanks,
      indentedChar, if_pos rfl, indentedChar, if_pos hc, List.cons_append, List.replicate_append_replicate,
      Nat.mul_add]
  · simp [indentedChar, hc]

/-- **A text that is moved twice is moved by the sum.** -/
theorem indented_indented (m n : Nat) (text : String) :
    indented m (indented n text) = indented (m + n) text := by
  rw [indented, toList_indented, List.flatMap_assoc]
  simp only [flatMap_indentedChar]
  rfl

theorem indented_zero (text : String) : indented 0 text = text := by
  have hchar : ∀ c, indentedChar 0 c = [c] := fun c => by
    by_cases hc : c = '\n' <;> simp [indentedChar, hc]
  rw [indented, funext hchar, List.flatMap_singleton', String.ofList_toList]

/-! ## 3. What outlines write -/

/-- While no place is waiting the outline writes the text, at each depth with the blanks of that depth
    behind the line breaks; the depth is the same behind it and no place is waiting. -/
def Writes (o : Outline) (text : String) : Prop :=
  ∀ w : Writer, w.place = none → o.after w = ⟨w.written ++ indented w.level text, w.level, none⟩

theorem Writes.text_eq {o : Outline} (h : Writes o t) : o.text = t := by
  rw [text, h _ rfl, indented_zero]
  simp

theorem writes_pure : Writes (pure ()) "" := by
  intro w hw
  obtain ⟨written, level, place⟩ := w
  simp only at hw
  simp [hw]

theorem Writes.seq {a b : Outline} (ha : Writes a s) (hb : Writes b t) :
    Writes (do a; b) (s ++ t) := by
  intro w hw
  rw [after_seq, ha w hw, hb _ rfl, indented_append, String.append_assoc]

theorem writes_line (h : OneLine t) : Writes (line t) ("\n" ++ t) := by
  intro w hw
  obtain ⟨written, level, place⟩ := w
  simp only at hw
  subst hw
  rw [indented_append, indented_break, indented_of_oneLine h]
  show Writer.mk (written ++ "\n" ++ indent level ++ t) level none = _
  simp only [String.append_assoc]

theorem Writes.child {role : String} {o : Outline} (hrole : OneLine role) (h : Writes o t) :
    Writes (child role o) ("\n" ++ (role ++ ": ") ++ t) :=
  (writes_line (hrole.append (by decide))).seq h

/-! ## 4. Labels with parts below -/

/-- The label with the place behind it, if there is one. -/
def shown (label : String) : Option Span → String
  | none => label
  | some span => label ++ " @ " ++ span.text

theorem after_label (label : String) (w : Writer) :
    (leaf label).after w = ⟨w.written ++ shown label w.place, w.level, none⟩ := by
  obtain ⟨written, level, place⟩ := w
  cases place with
  | none => rfl
  | some span => rfl

theorem after_below {parts : Outline} (h : Writes parts t) {w : Writer} (hw : w.place = none) :
    (below parts).after w = ⟨w.written ++ indented (w.level + 1) t, w.level, none⟩ := by
  show after (modify fun w => { w with level := w.level - 1 })
    (parts.after { w with level := w.level + 1 }) = _
  rw [h { w with level := w.level + 1 } hw]
  rfl

/-- **The place that is waiting is shown by the label**, and the parts stand one level deeper. -/
theorem after_node {label : String} {parts : Outline} (h : Writes parts t) (w : Writer) :
    (node label parts).after w =
      ⟨w.written ++ (shown label w.place ++ indented (w.level + 1) t), w.level, none⟩ := by
  rw [node, after_seq, after_label, after_below h rfl, String.append_assoc]

end MemberRefs.Outline
