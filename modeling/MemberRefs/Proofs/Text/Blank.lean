import MemberRefs.Text.Blank
import MemberRefs.Text.WordChar
import MemberRefs.Proofs.Text.Runs

/-!
# Characters that are no blanks

The visible ASCII characters separate no words, and neither does a character of an identifier. A text
that begins and ends with such characters (`Solid`) is not changed by trimming (`trim_eq_self`), and with
blanks around it trimming gives it back (`trim_append`).
-/

namespace MemberRefs.Text

variable {c : Char} {cs : List Char}

/-! ## 1. Single characters -/

theorem isBlank_of_visible (hfirst : 33 ≤ c.toNat) (hlast : c.toNat ≤ 126) : isBlank c = false := by
  rw [isBlank, Bool.eq_false_iff]
  intro h
  obtain ⟨range, hrange, hle, hge⟩ := CodePoints.has_iff.mp h
  simp only [blanks, List.mem_cons, List.not_mem_nil, or_false] at hrange
  rcases hrange with rfl | rfl | rfl | rfl | rfl | rfl | rfl | rfl | rfl | rfl <;>
    simp only at hle hge <;> omega

theorem visible_of_isAlphanum (h : c.isAlphanum = true) : 33 ≤ c.toNat ∧ c.toNat ≤ 126 := by
  rcases Bool.or_eq_true_iff.mp h with hletter | hdigit
  · rcases Bool.or_eq_true_iff.mp hletter with hupper | hlower
    · have hrange : 'A'.val ≤ c.val ∧ c.val ≤ 'Z'.val := of_decide_eq_true hupper
      have hfirst : 65 ≤ c.toNat := UInt32.le_iff_toNat_le.mp hrange.1
      have hlast : c.toNat ≤ 90 := UInt32.le_iff_toNat_le.mp hrange.2
      omega
    · obtain ⟨hfirst, hlast⟩ := Bool.and_eq_true_iff.mp hlower
      have hfirst : 97 ≤ c.toNat := UInt32.le_iff_toNat_le.mp (of_decide_eq_true hfirst)
      have hlast : c.toNat ≤ 122 := UInt32.le_iff_toNat_le.mp (of_decide_eq_true hlast)
      omega
  · have hrange : 48 ≤ c.toNat ∧ c.toNat ≤ 57 := Char.isDigit_iff_toNat.mp hdigit
    omega

theorem isBlank_of_isAlphanum (h : c.isAlphanum = true) : isBlank c = false :=
  isBlank_of_visible (visible_of_isAlphanum h).1 (visible_of_isAlphanum h).2

/-- The code points of the blanks one by one. -/
def blankPoints : List Nat := blanks.flatMap fun range => List.range' range.1 (range.2 + 1 - range.1)

theorem mem_blankPoints (h : isBlank c = true) : c.toNat ∈ blankPoints := by
  obtain ⟨range, hrange, hle, hge⟩ := CodePoints.has_iff.mp h
  refine List.mem_flatMap.mpr ⟨range, hrange, List.mem_range'_1.mpr ⟨hle, ?_⟩⟩
  omega

/-- **No character of an identifier separates words.** -/
theorem isBlank_of_isWordChar (h : isWordChar c = true) : isBlank c = false := by
  have hpoints : ∀ n ∈ blankPoints, isWordChar (Char.ofNat n) = false := by decide +kernel
  rw [Bool.eq_false_iff]
  intro hblank
  have hc := hpoints _ (mem_blankPoints hblank)
  rw [Char.ofNat_toNat, h] at hc
  cases hc

/-! ## 2. Trimming -/

theorem dropBlanks_eq_self (h : Stops isBlank cs) : dropBlanks cs = cs := by
  cases cs with
  | nil => rfl
  | cons c cs => exact dropBlanks_cons_solid (stops_cons.mp h)

/-- **Trimming changes no text that begins and ends with a character.** -/
theorem trim_eq_self (hfirst : Stops isBlank cs) (hlast : Stops isBlank cs.reverse) :
    trim cs = cs := by
  rw [trim, dropBlanks_eq_self hfirst, dropEndBlanks, dropBlanks_eq_self hlast, List.reverse_reverse]

theorem removeBlanks_eq_self (h : ∀ c ∈ cs, isBlank c = false) : removeBlanks cs = cs := by
  refine List.filter_eq_self.mpr fun c hc => ?_
  rw [h c hc]
  rfl

/-! ## 3. Texts that begin and end with a character -/

/-- A text without blanks at its ends, and not empty. -/
structure Solid (cs : List Char) : Prop where
  ne_nil : cs ≠ []
  first : Stops isBlank cs
  last : Stops isBlank cs.reverse

theorem Solid.append {a b : List Char} (between : List Char) (ha : Solid a) (hb : Solid b) :
    Solid (a ++ (between ++ b)) := by
  refine ⟨fun hnil => ha.ne_nil (List.append_eq_nil_iff.mp hnil).1, ?_, ?_⟩
  · exact ha.first.append fun hnil => absurd hnil ha.ne_nil
  · rw [List.reverse_append, List.reverse_append, List.append_assoc]
    exact hb.last.append fun hnil => absurd (List.reverse_eq_nil_iff.mp hnil) hb.ne_nil

theorem Solid.intercalate {separator : List Char} : ∀ {texts : List (List Char)}, texts ≠ [] →
    (∀ text ∈ texts, Solid text) → Solid (separator.intercalate texts)
  | [], hne, _ => absurd rfl hne
  | [text], _, htexts => by
      rw [List.intercalate_singleton]
      exact htexts text List.mem_cons_self
  | text :: next :: texts, _, htexts => by
      obtain ⟨htext, htexts⟩ := List.forall_mem_cons.mp htexts
      rw [List.intercalate_cons_cons, List.append_assoc]
      exact htext.append separator (Solid.intercalate (List.cons_ne_nil next texts) htexts)

theorem forall_mem_intercalate {p : Char → Prop} {separator : List Char}
    (hseparator : ∀ c ∈ separator, p c) : ∀ {texts : List (List Char)},
    (∀ text ∈ texts, ∀ c ∈ text, p c) → ∀ c ∈ separator.intercalate texts, p c
  | [], _ => fun _ hc => absurd hc List.not_mem_nil
  | [text], htexts => by
      rw [List.intercalate_singleton]
      exact htexts text List.mem_cons_self
  | text :: next :: texts, htexts => by
      obtain ⟨htext, htexts⟩ := List.forall_mem_cons.mp htexts
      rw [List.intercalate_cons_cons]
      exact List.forall_mem_append.mpr ⟨List.forall_mem_append.mpr ⟨htext, hseparator⟩,
        forall_mem_intercalate hseparator htexts⟩

theorem solid_symbol {c : Char} (h : isBlank c = false) : Solid [c] :=
  ⟨List.cons_ne_nil c [], stops_cons.mpr h, stops_cons.mpr h⟩

/-- A run of blanks. -/
def Blank (cs : List Char) : Prop := ∀ c ∈ cs, isBlank c = true

theorem Blank.dropBlanks_append {lead : List Char} (h : Blank lead) :
    dropBlanks (lead ++ cs) = dropBlanks cs :=
  List.dropWhile_append_of_pos h

/-- **Trimming takes off the blanks around a text.** -/
theorem trim_append {lead trail : List Char} (hlead : Blank lead) (hcs : Solid cs)
    (htrail : Blank trail) : trim (lead ++ (cs ++ trail)) = cs := by
  have hfront : dropBlanks (cs ++ trail) = cs ++ trail :=
    dropBlanks_eq_self (hcs.first.append fun hnil => absurd hnil hcs.ne_nil)
  have hback : Blank trail.reverse := fun c hc => htrail c (List.mem_reverse.mp hc)
  rw [trim, hlead.dropBlanks_append, hfront, dropEndBlanks, List.reverse_append,
    hback.dropBlanks_append, dropBlanks_eq_self hcs.last, List.reverse_reverse]

/-- **What is trimmed off are blanks.** -/
theorem exists_blank_trim (cs : List Char) :
    ∃ lead trail, Blank lead ∧ Blank trail ∧ cs = lead ++ (trim cs ++ trail) := by
  have hall : ∀ cs : List Char, Blank (cs.takeWhile isBlank) :=
    fun cs => List.all_eq_true.mp List.all_takeWhile
  have hcut : ∀ cs : List Char, cs.takeWhile isBlank ++ dropBlanks cs = cs :=
    fun cs => List.takeWhile_append_dropWhile
  refine ⟨cs.takeWhile isBlank, ((dropBlanks cs).reverse.takeWhile isBlank).reverse, hall cs,
    fun c hc => hall _ c (List.mem_reverse.mp hc), ?_⟩
  rw [trim, dropEndBlanks, ← List.reverse_append, hcut, List.reverse_reverse, hcut]

end MemberRefs.Text
