import Mathlib.Logic.Function.Iterate
import MemberRefs.Ty.Parser
import MemberRefs.Ty.Printer
import MemberRefs.Proofs.Text.Blank

/-!
# Spelling a type and reading it back

A type that was read is spelled as its named type and the suffixes around it. The words of the name read
back as they are, and so does every suffix by itself. Only ampersands that meet are cut anew, from the
left into pairs, so a reference whose inner type ends in a single `&` reads back as another type
(`reread`).

* `spelled_of_ofChars?`: what the types look like that a text spells.
* `ofChars?_text`: what the spelling of such a type spells.
* `reread_eq_iff`: this is the type itself when no lvalue reference stands directly inside another
  reference.
-/

namespace MemberRefs.Ty

open Text

/-! ## 1. Types that a text spells -/

/-- What stands between the blanks of a name. -/
structure IsWord (word : List Char) : Prop where
  ne_nil : word ≠ []
  chars : ∀ c ∈ word, isTypeChar c = true

theorem isBlank_of_isTypeChar {c : Char} (h : isTypeChar c = true) : isBlank c = false := by
  simp only [isTypeChar, Bool.or_eq_true, beq_iff_eq] at h
  rcases h with (rfl | rfl) | h
  · decide
  · decide
  · exact isBlank_of_isAlphanum h

theorem IsWord.solid {word : List Char} (h : IsWord word) : Solid word := by
  have hchars : ∀ c ∈ word, isBlank c = false := fun c hc => isBlank_of_isTypeChar (h.chars c hc)
  refine ⟨h.ne_nil, fun c hc => hchars c (List.mem_of_mem_head? hc), fun c hc => ?_⟩
  exact hchars c (List.mem_reverse.mp (List.mem_of_mem_head? hc))

/-- The types that a text can spell: a name is made of words other than `const`, and what is `const` is
    not made `const` again. -/
def Spelled : Ty → Prop
  | named name => ∃ words, words ≠ [] ∧ (∀ w ∈ words, IsWord w ∧ w ≠ constWord) ∧
      name.toList = [' '].intercalate words
  | const inner => inner.isConst = false ∧ inner.Spelled
  | pointer inner | lref inner | rref inner => inner.Spelled

theorem Spelled.asConst {type : Ty} (h : type.Spelled) : type.asConst.Spelled := by
  cases type with
  | const inner => exact h
  | named _ | pointer _ | lref _ | rref _ => exact ⟨rfl, h⟩

/-- What words are cut out of is type characters. -/
theorem isWord_splitWords (cs : List Char) : (∀ c ∈ (splitWords cs).1, isTypeChar c = true) ∧
    ∀ w ∈ (splitWords cs).2.1, IsWord w := by
  induction cs with
  | nil => simp [splitWords]
  | cons c cs ih =>
    obtain ⟨hword, hwords⟩ := ih
    rw [splitWords]
    split
    · rename_i hc
      exact ⟨List.forall_mem_cons.mpr ⟨hc, hword⟩, hwords⟩
    · split
      · refine ⟨fun _ hc => absurd hc List.not_mem_nil, fun w hw => ?_⟩
        by_cases hempty : (splitWords cs).1 = []
        · simp only [hempty, List.isEmpty_nil, if_true] at hw
          exact hwords w hw
        · simp only [List.isEmpty_iff, hempty, if_false] at hw
          rcases List.mem_cons.mp hw with rfl | hw
          · exact ⟨hempty, hword⟩
          · exact hwords w hw
      · exact ⟨fun _ hc => absurd hc List.not_mem_nil, fun _ hw => absurd hw List.not_mem_nil⟩

theorem isWord_readWords {cs w : List Char} (hw : w ∈ (readWords cs).1) : IsWord w := by
  obtain ⟨hword, hwords⟩ := isWord_splitWords cs
  simp only [readWords] at hw
  split at hw
  · exact hwords w hw
  · rename_i hne
    rcases List.mem_cons.mp hw with rfl | hw
    · exact ⟨by simpa using hne, hword⟩
    · exact hwords w hw

theorem spelled_of_ofWords? {words : List (List Char)} {type : Ty} (hwords : ∀ w ∈ words, IsWord w)
    (h : ofWords? words = some type) : type.Spelled := by
  unfold ofWords? at h
  split at h
  · cases h
  · rename_i hne
    have hnamed : (named (String.ofList ([' '].intercalate (words.filter (· != constWord))))).Spelled := by
      refine ⟨_, hne, fun w hw => ?_, String.toList_ofList⟩
      obtain ⟨hmem, hconst⟩ := List.mem_filter.mp hw
      exact ⟨hwords w hmem, by simpa using hconst⟩
    rw [← Option.some.inj h]
    split
    · exact hnamed.asConst
    · exact hnamed

/-- Suffixes are wrapped around the type one by one. -/
theorem spelled_of_wrap? {base type : Ty} {cs : List Char} (hbase : base.Spelled)
    (h : wrap? base cs = some type) : type.Spelled := by
  fun_induction wrap? base cs with
  | case1 => exact Option.some.inj h ▸ hbase
  | case2 _ _ ih => exact ih hbase h
  | case3 _ _ _ ih => exact ih hbase h
  | case4 _ _ ih => exact ih hbase h
  | case5 _ _ ih => exact ih hbase.asConst h
  | case6 _ _ _ _ _ _ _ _ ih => exact ih hbase h
  | case7 => cases h

/-- **What a text spells is a type of this form.** -/
theorem spelled_of_ofChars? {cs : List Char} {type : Ty} (h : ofChars? cs = some type) :
    type.Spelled := by
  unfold ofChars? at h
  obtain ⟨base, hbase, hwrap⟩ := Option.bind_eq_some_iff.mp h
  exact spelled_of_wrap? (spelled_of_ofWords? (fun _ => isWord_readWords) hbase) hwrap

/-! ## 2. The named type and the suffixes -/

/-- The named type inside, `const` or not. -/
def base : Ty → Ty
  | named name => named name
  | const (named name) => const (named name)
  | const inner | pointer inner | lref inner | rref inner => inner.base

/-- What is written behind the named type. -/
def suffix : Ty → List Char
  | named _ => []
  | const (named _) => []
  | const inner => inner.suffix ++ ' ' :: constWord
  | pointer inner => inner.suffix ++ ['*']
  | lref inner => inner.suffix ++ ['&']
  | rref inner => inner.suffix ++ ['&', '&']

section Const

variable {inner : Ty} (hne : ∀ name, inner ≠ named name)

include hne

theorem base_const : (const inner).base = inner.base := by
  cases inner with
  | named name => exact absurd rfl (hne name)
  | const _ | pointer _ | lref _ | rref _ => rfl

theorem suffix_const : (const inner).suffix = inner.suffix ++ ' ' :: constWord := by
  cases inner with
  | named name => exact absurd rfl (hne name)
  | const _ | pointer _ | lref _ | rref _ => rfl

end Const

/-- **A type is spelled as its named type and its suffixes.** -/
theorem text_eq (type : Ty) : type.text.toList = type.base.text.toList ++ type.suffix := by
  induction type with
  | named name => simp [base, suffix]
  | const inner ih =>
    by_cases hnamed : ∃ name, inner = named name
    · obtain ⟨name, rfl⟩ := hnamed
      simp [base, suffix]
    · have hne : ∀ name, inner ≠ named name := fun name heq => hnamed ⟨name, heq⟩
      rw [text_const_of_ne_named hne, base_const hne, suffix_const hne, String.toList_append, ih,
        List.append_assoc]
      rfl
  | pointer inner ih | lref inner ih | rref inner ih =>
    rw [text, base, suffix, String.toList_append, ih, List.append_assoc]
    rfl

/-- Where a name is made `const` behind it, other suffixes stand before. -/
theorem suffix_ne_nil {inner : Ty} (hne : ∀ name, inner ≠ named name) (hconst : inner.isConst = false) :
    inner.suffix ≠ [] := by
  cases inner with
  | named name => exact absurd rfl (hne name)
  | const _ => cases hconst
  | pointer _ | lref _ | rref _ => simp [suffix]

/-- No suffix is taken for a part of the name. -/
theorem stops_suffix {type : Ty} (h : type.Spelled) :
    Stops (fun c => isTypeChar c || isBlank c) type.suffix := by
  induction type with
  | named name => exact stops_nil
  | const inner ih =>
    by_cases hnamed : ∃ name, inner = named name
    · obtain ⟨name, rfl⟩ := hnamed
      exact stops_nil
    · have hne : ∀ name, inner ≠ named name := fun name heq => hnamed ⟨name, heq⟩
      rw [suffix_const hne]
      exact (ih h.2).append fun hnil => absurd hnil (suffix_ne_nil hne h.1)
  | pointer inner ih | lref inner ih | rref inner ih =>
    exact (ih h).append fun _ => stops_cons.mpr (by decide)

/-! ## 3. The name read back -/

/-- A word is cut off as a whole. -/
theorem splitWords_append {word cs : List Char} (hword : ∀ c ∈ word, isTypeChar c = true) :
    splitWords (word ++ cs) = (word ++ (splitWords cs).1, (splitWords cs).2) := by
  induction word with
  | nil => rfl
  | cons c word ih =>
    obtain ⟨hc, hword⟩ := List.forall_mem_cons.mp hword
    rw [List.cons_append, splitWords, if_pos hc, ih hword]
    rfl

/-- Behind a blank the words start anew. -/
theorem splitWords_blank (cs : List Char) : splitWords (' ' :: cs) = ([], readWords cs) := by
  rw [splitWords, if_neg (by decide), if_pos (by decide)]
  rfl

theorem splitWords_of_stops {cs : List Char}
    (h : Stops (fun c => isTypeChar c || isBlank c) cs) : splitWords cs = ([], [], cs) := by
  cases cs with
  | nil => rfl
  | cons c cs =>
    obtain ⟨htype, hblank⟩ := Bool.or_eq_false_iff.mp (stops_cons.mp h)
    rw [splitWords, htype, hblank]
    rfl

/-- **Words with single blanks between them read back as they are.** -/
theorem readWords_intercalate : ∀ {words : List (List Char)} {rest : List Char},
    (∀ w ∈ words, IsWord w) → Stops (fun c => isTypeChar c || isBlank c) rest →
    readWords ([' '].intercalate words ++ rest) = (words, rest)
  | [], rest, _, hrest => by
      rw [List.intercalate_nil, List.nil_append, readWords, splitWords_of_stops hrest]
      rfl
  | [word], rest, hwords, hrest => by
      have hword := hwords word List.mem_cons_self
      rw [List.intercalate_singleton, readWords, splitWords_append hword.chars,
        splitWords_of_stops hrest]
      simp [hword.ne_nil]
  | word :: next :: words, rest, hwords, hrest => by
      obtain ⟨hword, hwords⟩ := List.forall_mem_cons.mp hwords
      have ih := readWords_intercalate hwords hrest
      rw [List.intercalate_cons_cons, List.append_assoc, List.append_assoc, readWords,
        splitWords_append hword.chars, List.singleton_append, splitWords_blank, ih]
      simp [hword.ne_nil]

theorem isWord_constWord : IsWord constWord := ⟨by decide, List.all_eq_true.mp (by decide)⟩

/-- The named type is a name made of words, `const` or not. -/
theorem exists_words_of_spelled {type : Ty} (h : type.Spelled) : ∃ words, words ≠ [] ∧
    (∀ w ∈ words, IsWord w ∧ w ≠ constWord) ∧
      (type.base = named (String.ofList ([' '].intercalate words)) ∨
        type.base = const (named (String.ofList ([' '].intercalate words)))) := by
  induction type with
  | named name =>
    obtain ⟨words, hne, hwords, hname⟩ := h
    refine ⟨words, hne, hwords, Or.inl ?_⟩
    rw [base, ← hname, String.ofList_toList]
  | const inner ih =>
    by_cases hnamed : ∃ name, inner = named name
    · obtain ⟨name, rfl⟩ := hnamed
      obtain ⟨words, hne, hwords, hname⟩ := h.2
      refine ⟨words, hne, hwords, Or.inr ?_⟩
      rw [base, ← hname, String.ofList_toList]
    · rw [base_const fun name heq => hnamed ⟨name, heq⟩]
      exact ih h.2
  | pointer inner ih | lref inner ih | rref inner ih => exact ih h

/-- **The named type and what stands behind it are told apart.** -/
theorem readWords_text {type : Ty} (h : type.Spelled) : ∃ words,
    readWords type.text.toList = (words, type.suffix) ∧ ofWords? words = some type.base := by
  obtain ⟨words, hne, hwords, hbase⟩ := exists_words_of_spelled h
  have hfilter : words.filter (· != constWord) = words :=
    List.filter_eq_self.mpr fun w hw => by simpa using (hwords w hw).2
  have hconst : words.contains constWord = false := by
    rw [← Bool.not_eq_true, List.contains_iff_mem]
    exact fun hmem => (hwords _ hmem).2 rfl
  have hisWord : ∀ w ∈ words, IsWord w := fun w hw => (hwords w hw).1
  rw [text_eq]
  rcases hbase with hbase | hbase
  · refine ⟨words, ?_, ?_⟩
    · rw [hbase, text, String.toList_ofList]
      exact readWords_intercalate hisWord (stops_suffix h)
    · rw [ofWords?, hfilter, hbase, hconst]
      cases words with
      | nil => exact absurd rfl hne
      | cons w words => rfl
  · refine ⟨constWord :: words, ?_, ?_⟩
    · have htext : type.base.text.toList = [' '].intercalate (constWord :: words) := by
        cases words with
        | nil => exact absurd rfl hne
        | cons w words =>
          rw [List.intercalate_cons_cons, hbase]
          simp [text, constWord]
      rw [htext]
      exact readWords_intercalate (List.forall_mem_cons.mpr ⟨isWord_constWord, hisWord⟩)
        (stops_suffix h)
    · rw [ofWords?, List.filter_cons_of_neg (by decide), hfilter, hbase]
      cases words with
      | nil => exact absurd rfl hne
      | cons w words => simp [asConst]

/-! ## 4. The suffixes read back -/

/-- The type with one more `&` behind it, which joins a single `&` there. -/
def addAmpersand : Ty → Ty
  | lref inner => rref inner
  | type => lref type

/-- The type that the spelling of a type spells. -/
def reread : Ty → Ty
  | named name => named name
  | const inner => inner.reread.asConst
  | pointer inner => pointer inner.reread
  | lref inner => inner.reread.addAmpersand
  | rref inner => inner.reread.addAmpersand.addAmpersand

theorem addAmpersand_of_not_lref {type : Ty} (h : type.isLvalueReference = false) :
    type.addAmpersand = lref type := by
  cases type with
  | lref inner => cases h
  | named _ | const _ | pointer _ | rref _ => rfl

theorem addAmpersand_addAmpersand {type : Ty} (h : type.isLvalueReference = false) :
    type.addAmpersand.addAmpersand = rref type := by
  rw [addAmpersand_of_not_lref h, addAmpersand]

theorem isLvalueReference_asConst (type : Ty) : type.asConst.isLvalueReference = false := by
  cases type <;> rfl

theorem wrap?_ampersand {type : Ty} {rest : List Char} (hrest : Stops (· == '&') rest) :
    wrap? type ('&' :: rest) = wrap? (lref type) rest := by
  refine wrap?.eq_3 type rest fun tail htail => ?_
  rw [htail] at hrest
  exact absurd (stops_cons.mp hrest) (by decide)

/-- A run of ampersands is read as if each one joined what stands before it. -/
theorem wrap?_ampersands {rest : List Char} (hrest : Stops (· == '&') rest) :
    ∀ (n : Nat) {type : Ty}, type.isLvalueReference = false →
      wrap? type (List.replicate n '&' ++ rest) = wrap? (addAmpersand^[n] type) rest
  | 0, type, _ => rfl
  | 1, type, h => by
      rw [Function.iterate_one, addAmpersand_of_not_lref h]
      exact wrap?_ampersand hrest
  | n + 2, type, h => by
      have hpair : addAmpersand^[2] type = rref type := addAmpersand_addAmpersand h
      rw [Function.iterate_add_apply, hpair]
      exact wrap?_ampersands hrest n rfl

/-- **The suffixes of a type read back**, with a run of ampersands behind them. -/
theorem wrap?_suffix (type : Ty) : ∀ (n : Nat) {rest : List Char}, Stops (· == '&') rest →
    wrap? type.base (type.suffix ++ (List.replicate n '&' ++ rest)) =
      wrap? (addAmpersand^[n] type.reread) rest := by
  induction type with
  | named name => exact fun n _ hrest => wrap?_ampersands hrest n rfl
  | const inner ih =>
    intro n rest hrest
    by_cases hnamed : ∃ name, inner = named name
    · obtain ⟨name, rfl⟩ := hnamed
      exact wrap?_ampersands hrest n rfl
    · have hne : ∀ name, inner ≠ named name := fun name heq => hnamed ⟨name, heq⟩
      rw [base_const hne, suffix_const hne, List.append_assoc]
      have hblank : Stops (· == '&') (' ' :: constWord ++ (List.replicate n '&' ++ rest)) :=
        stops_cons.mpr (by decide)
      exact (ih 0 hblank).trans (wrap?_ampersands hrest n (isLvalueReference_asConst _))
  | pointer inner ih =>
    intro n rest hrest
    have hstar : Stops (· == '&') ('*' :: (List.replicate n '&' ++ rest)) :=
      stops_cons.mpr (by decide)
    rw [base, suffix, List.append_assoc]
    exact (ih 0 hstar).trans (wrap?_ampersands hrest n rfl)
  | lref inner ih =>
    intro n rest hrest
    have hinner := ih (n + 1) hrest
    rw [base, suffix, List.append_assoc, reread, ← Function.iterate_succ_apply]
    exact hinner
  | rref inner ih =>
    intro n rest hrest
    have hinner := ih (n + 2) hrest
    rw [base, suffix, List.append_assoc, reread, ← Function.iterate_succ_apply,
      ← Function.iterate_succ_apply]
    exact hinner

/-- **What the spelling of a type spells.** -/
theorem ofChars?_text {type : Ty} (h : type.Spelled) :
    ofChars? type.text.toList = some type.reread := by
  obtain ⟨words, hread, hbase⟩ := readWords_text h
  have hwrap := wrap?_suffix type 0 stops_nil
  rw [List.replicate_zero, List.nil_append, List.append_nil] at hwrap
  rw [ofChars?, hread]
  exact (congrArg (Option.bind · fun base => wrap? base type.suffix) hbase).trans hwrap

/-! ## 5. Types that read back -/

/-- Whether no lvalue reference stands directly inside another reference. -/
def refsApart : Ty → Bool
  | named _ => true
  | const inner | pointer inner => inner.refsApart
  | lref inner | rref inner => !inner.isLvalueReference && inner.refsApart

theorem refsApart_asConst {type : Ty} (h : type.refsApart = true) : type.asConst.refsApart = true := by
  cases type <;> exact h

theorem refsApart_addAmpersand {type : Ty} (h : type.refsApart = true) :
    type.addAmpersand.refsApart = true := by
  cases type with
  | lref inner => exact h
  | named _ | const _ | pointer _ | rref _ => exact h

theorem refsApart_reread (type : Ty) : type.reread.refsApart = true := by
  induction type with
  | named name => rfl
  | const inner ih => exact refsApart_asConst ih
  | pointer inner ih => exact ih
  | lref inner ih => exact refsApart_addAmpersand ih
  | rref inner ih => exact refsApart_addAmpersand (refsApart_addAmpersand ih)

theorem reread_of_refsApart {type : Ty} (h : type.Spelled) (hrefs : type.refsApart = true) :
    type.reread = type := by
  induction type with
  | named name => rfl
  | const inner ih =>
    rw [reread, ih h.2 hrefs]
    cases inner with
    | const _ => cases h.1
    | named _ | pointer _ | lref _ | rref _ => rfl
  | pointer inner ih => rw [reread, ih h hrefs]
  | lref inner ih =>
    obtain ⟨hinner, hrefs⟩ := Bool.and_eq_true_iff.mp hrefs
    rw [reread, ih h hrefs, addAmpersand_of_not_lref (by simpa using hinner)]
  | rref inner ih =>
    obtain ⟨hinner, hrefs⟩ := Bool.and_eq_true_iff.mp hrefs
    rw [reread, ih h hrefs, addAmpersand_addAmpersand (by simpa using hinner)]

/-- **The types that read back as themselves.** -/
theorem reread_eq_iff {type : Ty} (h : type.Spelled) : type.reread = type ↔ type.refsApart = true :=
  ⟨fun heq => heq ▸ refsApart_reread type, reread_of_refsApart h⟩

theorem parse_eq_ok {text : String} {type : Ty} : parse text = .ok type ↔ ofText? text = some type := by
  unfold parse
  cases ofText? text <;> simp

/-- **A type that was read is spelled as a type.** Its spelling reads back as the type itself exactly
    when no lvalue reference stands directly inside another reference. -/
theorem text_reads_back {text : String} {type : Ty} (h : parse text = .ok type) :
    (∃ again, parse type.text = .ok again) ∧
      (parse type.text = .ok type ↔ type.refsApart = true) := by
  have hspelled := spelled_of_ofChars? (parse_eq_ok.mp h)
  have hagain : parse type.text = .ok type.reread := parse_eq_ok.mpr (ofChars?_text hspelled)
  refine ⟨⟨_, hagain⟩, ?_⟩
  rw [hagain, Except.ok.injEq]
  exact reread_eq_iff hspelled

/-- Layers of several kinds around a name of two words are spelled and read back. -/
theorem text_reads_back_layered :
    parse "unsigned const long*const& const" =
        .ok (const (lref (const (pointer (const (named "unsigned long")))))) ∧
      parse (const (lref (const (pointer (const (named "unsigned long")))))).text =
        .ok (const (lref (const (pointer (const (named "unsigned long")))))) :=
  ⟨rfl, (@text_reads_back "unsigned const long*const& const" _ rfl).2.mpr rfl⟩

/-- Two lvalue references, one inside the other, are spelled as an rvalue reference. -/
theorem text_of_nested_references : ∃ type, parse "int& &" = .ok type ∧
    parse type.text ≠ .ok type := by
  refine ⟨lref (lref (named "int")), rfl, fun hsame => ?_⟩
  have hagain : parse (lref (lref (named "int"))).text = .ok (rref (named "int")) := rfl
  rw [hagain] at hsame
  cases hsame

end MemberRefs.Ty
