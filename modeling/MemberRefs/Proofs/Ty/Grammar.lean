import MemberRefs.Proofs.Ty.Spelling

/-!
# The grammar of types

A type is written as words with blanks between them and then suffixes, between which blanks may stand.
The words name a type, and a `const` among them makes it `const`; each suffix wraps the type in front of
it. A suffix `const` needs no blank around it but cannot come first, where it is a word, and of two `&`
that stand side by side the first one is no suffix of its own.

* `exists_grammar_of_ofChars?`: what spells a type follows the grammar.
* `ofChars?_of_grammar`: what follows the grammar spells the type that the grammar says.
* `parse_by_grammar`: the two directions, and what may be changed in a text without changing its type.
-/

namespace MemberRefs.Ty

open Text

/-! ## 1. The grammar -/

/-- What may stand behind the words. -/
inductive Suffix where
  | const
  | pointer
  | lref
  | rref
  deriving DecidableEq, Repr

namespace Suffix

/-- The suffix as it is written. -/
def spelling : Suffix → List Char
  | const => constWord
  | pointer => ['*']
  | lref => ['&']
  | rref => ['&', '&']

/-- The type with one suffix more. What is `const` is not made `const` again. -/
def wrap (type : Ty) : Suffix → Ty
  | const => type.asConst
  | pointer => .pointer type
  | lref => .lref type
  | rref => .rref type

end Suffix

/-- Words with blanks between them. -/
inductive Words : List (List Char) → List Char → Prop where
  | last {word : List Char} (hword : IsWord word) : Words [word] word
  | more {word gap cs : List Char} {words : List (List Char)} (hword : IsWord word) (hne : gap ≠ [])
      (hgap : Blank gap) (hwords : Words words cs) : Words (word :: words) (word ++ (gap ++ cs))

/-- Suffixes with or without blanks in front of each. An `&` that another `&` follows directly is not a
    suffix, so a run of them is cut from the left into pairs. -/
inductive Suffixes : List Suffix → List Char → Prop where
  | none : Suffixes [] []
  | more {gap cs : List Char} {suffix : Suffix} {suffixes : List Suffix} (hgap : Blank gap)
      (halone : suffix = .lref → Stops (· == '&') cs) (hsuffixes : Suffixes suffixes cs) :
      Suffixes (suffix :: suffixes) (gap ++ (suffix.spelling ++ cs))

/-- The characters are words and then suffixes, of which the first is not `const`. -/
def Grammar (cs : List Char) (words : List (List Char)) (suffixes : List Suffix) : Prop :=
  ∃ front back, cs = front ++ back ∧ Words words front ∧ Suffixes suffixes back ∧
    suffixes.head? ≠ some .const

/-- The type named by words: by all of them but `const`, which makes it `const`. -/
def namedBy (words : List (List Char)) : Ty :=
  let name := String.ofList ([' '].intercalate (words.filter (· != constWord)))
  if constWord ∈ words then .const (.named name) else .named name

/-- The type that words and suffixes spell. -/
def meaning (words : List (List Char)) (suffixes : List Suffix) : Ty :=
  suffixes.foldl Suffix.wrap (namedBy words)

/-- The words name a type if one of them is not `const`. -/
theorem ofWords?_eq (words : List (List Char)) :
    ofWords? words = if ∃ w ∈ words, w ≠ constWord then some (namedBy words) else none := by
  unfold ofWords?
  split
  · rename_i hnone
    refine (if_neg fun ⟨w, hw, hne⟩ => ?_).symm
    have hmem : w ∈ words.filter (· != constWord) := List.mem_filter.mpr ⟨hw, bne_iff_ne.mpr hne⟩
    rw [hnone] at hmem
    cases hmem
  · rename_i hsome
    obtain ⟨w, hw⟩ := List.exists_mem_of_ne_nil _ hsome
    obtain ⟨hmem, hne⟩ := List.mem_filter.mp hw
    rw [if_pos ⟨w, hmem, bne_iff_ne.mp hne⟩, namedBy]
    by_cases hconst : constWord ∈ words <;> simp [hconst, asConst]

/-! ## 2. What spells a type follows the grammar -/

/-- What stands behind a word: words with blanks in front of each, and blanks. -/
inductive MoreWords : List (List Char) → List Char → Prop where
  | none {gap : List Char} (hgap : Blank gap) : MoreWords [] gap
  | more {word gap cs : List Char} {words : List (List Char)} (hne : gap ≠ []) (hgap : Blank gap)
      (hword : IsWord word) (hwords : MoreWords words cs) :
      MoreWords (word :: words) (gap ++ (word ++ cs))

theorem MoreWords.blank {c : Char} {words : List (List Char)} {cs : List Char}
    (hc : isBlank c = true) (h : MoreWords words cs) : MoreWords words (c :: cs) := by
  cases h with
  | none hgap => exact .none (List.forall_mem_cons.mpr ⟨hc, hgap⟩)
  | more hne hgap hword hwords =>
    exact .more (List.cons_ne_nil c _) (List.forall_mem_cons.mpr ⟨hc, hgap⟩) hword hwords

/-- With a word in front they are words, and the blanks at the end are left over. -/
theorem MoreWords.words {word cs : List Char} {words : List (List Char)} (hword : IsWord word)
    (h : MoreWords words cs) :
    ∃ front gap, word ++ cs = front ++ gap ∧ Words (word :: words) front ∧ Blank gap := by
  induction h generalizing word with
  | none hgap => exact ⟨word, _, rfl, .last hword, hgap⟩
  | more hne hgap hnext _ ih =>
    obtain ⟨front, gap, heq, hfront, hblank⟩ := ih hnext
    refine ⟨_, gap, ?_, .more hword hne hgap hfront, hblank⟩
    rw [heq]
    simp only [List.append_assoc]

/-- What words are cut out of is those words and blanks. -/
theorem moreWords_splitWords (cs : List Char) : ∃ more,
    cs = (splitWords cs).1 ++ (more ++ (splitWords cs).2.2) ∧
      MoreWords (splitWords cs).2.1 more := by
  induction cs with
  | nil => exact ⟨[], rfl, .none fun _ hc => absurd hc List.not_mem_nil⟩
  | cons c cs ih =>
    obtain ⟨more, heq, hmore⟩ := ih
    rw [splitWords]
    split
    · exact ⟨more, congrArg (c :: ·) heq, hmore⟩
    · split
      · rename_i hblank
        by_cases hword : (splitWords cs).1 = []
        · rw [hword, List.nil_append] at heq
          exact ⟨c :: more, by simpa [hword] using congrArg (c :: ·) heq,
            by simpa [hword] using hmore.blank hblank⟩
        · have hisWord : IsWord (splitWords cs).1 := ⟨hword, (isWord_splitWords cs).1⟩
          have hone : Blank [c] := by simpa [Blank] using hblank
          refine ⟨[c] ++ ((splitWords cs).1 ++ more), ?_, ?_⟩
          · simpa using congrArg (c :: ·) heq
          · simpa [hword] using MoreWords.more (List.cons_ne_nil c []) hone hisWord hmore
      · exact ⟨[], rfl, .none fun _ hc => absurd hc List.not_mem_nil⟩

/-- Behind the words neither a word nor a blank follows. -/
theorem stops_splitWords (cs : List Char) :
    Stops (fun c => isTypeChar c || isBlank c) (splitWords cs).2.2 := by
  induction cs with
  | nil => exact stops_nil
  | cons c cs ih =>
    rw [splitWords]
    split
    · exact ih
    · split
      · exact ih
      · rename_i htype hblank
        exact stops_cons.mpr (by simp [htype, hblank])

/-- Blanks may stand in front of suffixes; where there are none they stand at the end. -/
theorem Suffixes.behind {gap back trail : List Char} {suffixes : List Suffix} (hgap : Blank gap)
    (h : Suffixes suffixes back) (htrail : Blank trail) :
    ∃ back' trail', gap ++ (back ++ trail) = back' ++ trail' ∧ Suffixes suffixes back' ∧
      Blank trail' := by
  cases h with
  | none => exact ⟨[], gap ++ trail, rfl, .none, List.forall_mem_append.mpr ⟨hgap, htrail⟩⟩
  | @more inner cs suffix suffixes hinner halone hsuffixes =>
    refine ⟨(gap ++ inner) ++ (suffix.spelling ++ cs), trail, ?_,
      .more (List.forall_mem_append.mpr ⟨hgap, hinner⟩) halone hsuffixes, htrail⟩
    simp only [List.append_assoc]

/-- A suffix that nothing stands in front of. -/
theorem Suffixes.first {suffix : Suffix} {suffixes : List Suffix} {cs : List Char}
    (halone : suffix = .lref → Stops (· == '&') cs) (h : Suffixes suffixes cs) :
    Suffixes (suffix :: suffixes) (suffix.spelling ++ cs) :=
  @Suffixes.more [] cs suffix suffixes (fun _ hc => absurd hc List.not_mem_nil) halone h

theorem Suffixes.first_of_ne {suffix : Suffix} {suffixes : List Suffix} {cs : List Char}
    (hne : suffix ≠ .lref) (h : Suffixes suffixes cs) :
    Suffixes (suffix :: suffixes) (suffix.spelling ++ cs) :=
  h.first fun heq => absurd heq hne

/-- The suffixes that were read, the blanks behind them, and what they make of the type. -/
theorem exists_suffixes_of_wrap? {base type : Ty} {cs : List Char} (h : wrap? base cs = some type) :
    ∃ suffixes back trail, cs = back ++ trail ∧ Suffixes suffixes back ∧ Blank trail ∧
      type = suffixes.foldl Suffix.wrap base := by
  fun_induction wrap? base cs with
  | case1 base =>
    exact ⟨[], [], [], rfl, .none, fun _ hc => absurd hc List.not_mem_nil, (Option.some.inj h).symm⟩
  | case2 base rest ih =>
    obtain ⟨suffixes, back, trail, rfl, hback, htrail, htype⟩ := ih h
    exact ⟨.rref :: suffixes, _, trail, rfl, hback.first_of_ne (by decide), htrail, htype⟩
  | case3 base rest hpair ih =>
    obtain ⟨suffixes, back, trail, rfl, hback, htrail, htype⟩ := ih h
    -- Without the blanks at the end nothing else follows the `&` either.
    have halone : Stops (· == '&') back := by
      cases back with
      | nil => exact stops_nil
      | cons c back =>
        exact stops_cons.mpr (beq_eq_false_iff_ne.mpr fun hc => hpair (back ++ trail) (hc ▸ rfl))
    exact ⟨.lref :: suffixes, _, trail, rfl, hback.first fun _ => halone, htrail, htype⟩
  | case4 base rest ih =>
    obtain ⟨suffixes, back, trail, rfl, hback, htrail, htype⟩ := ih h
    exact ⟨.pointer :: suffixes, _, trail, rfl, hback.first_of_ne (by decide), htrail, htype⟩
  | case5 base rest ih =>
    obtain ⟨suffixes, back, trail, rfl, hback, htrail, htype⟩ := ih h
    exact ⟨.const :: suffixes, _, trail, rfl, hback.first_of_ne (by decide), htrail, htype⟩
  | case6 base c rest _ _ _ _ hblank ih =>
    obtain ⟨suffixes, back, trail, rfl, hback, htrail, htype⟩ := ih h
    have hone : Blank [c] := by simpa [Blank] using hblank
    obtain ⟨back', trail', heq, hback', htrail'⟩ := hback.behind hone htrail
    exact ⟨suffixes, back', trail', heq, hback', htrail', htype⟩
  | case7 => cases h

/-- Where a word would be read on, the first suffix is not `const`. -/
theorem Suffixes.head?_ne_const {suffixes : List Suffix} {back trail : List Char}
    (h : Suffixes suffixes back)
    (hstops : Stops (fun c => isTypeChar c || isBlank c) (back ++ trail)) :
    suffixes.head? ≠ some .const := by
  cases h with
  | none => exact nofun
  | @more gap cs suffix suffixes hgap _ _ =>
    rintro ⟨rfl⟩
    cases gap with
    | nil => exact absurd (stops_cons.mp hstops) (by decide)
    | cons c gap =>
      have hc : isBlank c = true := hgap c List.mem_cons_self
      exact absurd (stops_cons.mp hstops) (by simp [hc])

theorem Words.solid {words : List (List Char)} {front : List Char} (h : Words words front) :
    Solid front := by
  induction h with
  | last hword => exact hword.solid
  | more hword _ _ _ ih => exact hword.solid.append _ ih

theorem Suffix.solid_spelling (suffix : Suffix) : Solid suffix.spelling := by
  cases suffix with
  | const => exact isWord_constWord.solid
  | pointer | lref => exact solid_symbol (by decide)
  | rref => exact ⟨List.cons_ne_nil _ _, stops_cons.mpr (by decide), stops_cons.mpr (by decide)⟩

/-- Suffixes end with a character, as the words in front of them do. -/
theorem Suffixes.solid {suffixes : List Suffix} {front back : List Char} (h : Suffixes suffixes back)
    (hfront : Solid front) : Solid (front ++ back) := by
  induction h generalizing front with
  | none => rwa [List.append_nil]
  | @more gap cs suffix suffixes _ _ _ ih =>
    have hsuffix : Solid (front ++ (gap ++ suffix.spelling)) :=
      hfront.append gap suffix.solid_spelling
    simpa only [List.append_assoc] using ih hsuffix

/-- The words that were read, with blanks in front of them and behind. -/
theorem exists_words_of_readWords {cs : List Char} (hne : (readWords cs).1 ≠ []) :
    ∃ lead front gap, cs = lead ++ (front ++ (gap ++ (readWords cs).2)) ∧ Blank lead ∧
      Words (readWords cs).1 front ∧ Blank gap := by
  obtain ⟨more, heq, hmore⟩ := moreWords_splitWords cs
  have hchars := (isWord_splitWords cs).1
  unfold readWords at hne ⊢
  generalize splitWords cs = parts at *
  obtain ⟨word, words, rest⟩ := parts
  by_cases hword : word = []
  · subst hword
    cases hmore with
    | none _ => exact absurd rfl hne
    | more _ hlead hisWord hwords =>
      obtain ⟨front, gap, hfront, hfrontWords, hgap⟩ := hwords.words hisWord
      refine ⟨_, front, gap, ?_, hlead, hfrontWords, hgap⟩
      simp [heq, hfront]
  · obtain ⟨front, gap, hfront, hwords, hgap⟩ := hmore.words ⟨hword, hchars⟩
    simp only [List.isEmpty_iff, hword, if_false]
    refine ⟨[], front, gap, ?_, fun _ hc => absurd hc List.not_mem_nil, hwords, hgap⟩
    rw [heq, ← List.append_assoc word, hfront]
    simp only [List.nil_append, List.append_assoc]

/-- **What spells a type follows the grammar**, and spells the type that the grammar says. -/
theorem exists_grammar_of_ofChars? {cs : List Char} {type : Ty} (h : ofChars? cs = some type) :
    ∃ words suffixes, Grammar (trim cs) words suffixes ∧ (∃ w ∈ words, w ≠ constWord) ∧
      type = meaning words suffixes := by
  unfold ofChars? at h
  obtain ⟨base, hbase, hwrap⟩ := Option.bind_eq_some_iff.mp h
  have hbase : ofWords? (readWords cs).1 = some base := hbase
  have hwrap : wrap? base (readWords cs).2 = some type := hwrap
  rw [ofWords?_eq] at hbase
  split at hbase
  · rename_i hnames
    obtain ⟨w, hw, hne⟩ := hnames
    obtain ⟨lead, front, gap, heq, hlead, hfront, hgap⟩ :=
      exists_words_of_readWords (List.ne_nil_of_mem hw)
    obtain ⟨suffixes, back, trail, hrest, hback, htrail, htype⟩ := exists_suffixes_of_wrap? hwrap
    have hstops : Stops (fun c => isTypeChar c || isBlank c) (back ++ trail) :=
      hrest ▸ stops_splitWords cs
    have hhead : suffixes.head? ≠ some .const := hback.head?_ne_const hstops
    obtain ⟨back', trail', hbehind, hback', htrail'⟩ := hback.behind hgap htrail
    have htrim : trim cs = front ++ back' := by
      rw [heq, hrest, hbehind, ← List.append_assoc front]
      exact trim_append hlead (hback'.solid hfront.solid) htrail'
    refine ⟨_, suffixes, ⟨front, back', htrim, hfront, hback', hhead⟩, ⟨w, hw, hne⟩, ?_⟩
    rw [htype, ← Option.some.inj hbase]
    rfl
  · cases hbase

/-! ## 3. What follows the grammar spells the type -/

theorem isTypeChar_of_isBlank {c : Char} (h : isBlank c = true) : isTypeChar c = false := by
  rw [← Bool.not_eq_true]
  intro htype
  rw [isBlank_of_isTypeChar htype] at h
  cases h

theorem splitWords_of_blank {c : Char} {cs : List Char} (h : isBlank c = true) :
    splitWords (c :: cs) = ([], readWords cs) := by
  rw [splitWords, if_neg (by simp [isTypeChar_of_isBlank h]), if_pos h]
  rfl

/-- Where no word begins, the blanks are skipped. -/
theorem splitWords_blanks {gap rest : List Char} (hgap : Blank gap)
    (hrest : Stops (fun c => isTypeChar c || isBlank c) rest) :
    splitWords (gap ++ rest) = ([], [], rest) := by
  induction gap with
  | nil => exact splitWords_of_stops hrest
  | cons c gap ih =>
    obtain ⟨hc, hgap⟩ := List.forall_mem_cons.mp hgap
    rw [List.cons_append, splitWords_of_blank hc, readWords, ih hgap]
    rfl

theorem splitWords_gap {gap : List Char} (hgap : Blank gap) (hne : gap ≠ []) (cs : List Char) :
    splitWords (gap ++ cs) = ([], readWords cs) := by
  induction gap with
  | nil => exact absurd rfl hne
  | cons c gap ih =>
    obtain ⟨hc, hgap⟩ := List.forall_mem_cons.mp hgap
    rw [List.cons_append, splitWords_of_blank hc]
    by_cases hnil : gap = []
    · rw [hnil, List.nil_append]
    · rw [readWords, ih hgap hnil]
      rfl

theorem readWords_blanks {lead : List Char} (hlead : Blank lead) (cs : List Char) :
    readWords (lead ++ cs) = readWords cs := by
  by_cases hne : lead = []
  · rw [hne, List.nil_append]
  · rw [readWords, splitWords_gap hlead hne]
    rfl

/-- **Words are read as they are.** -/
theorem readWords_words {words : List (List Char)} {front cs rest : List Char}
    (h : Words words front) (hrest : splitWords cs = ([], [], rest)) :
    readWords (front ++ cs) = (words, rest) := by
  induction h with
  | last hword =>
    rw [readWords, splitWords_append hword.chars, hrest]
    simp [hword.ne_nil]
  | more hword hne hgap _ ih =>
    rw [List.append_assoc, List.append_assoc, readWords, splitWords_append hword.chars,
      splitWords_gap hgap hne, ih]
    simp [hword.ne_nil]

theorem wrap?_blank {type : Ty} {c : Char} {cs : List Char} (h : isBlank c = true) :
    wrap? type (c :: cs) = wrap? type cs := by
  have hne : ∀ d, isBlank d = false → c = d → False := by
    rintro d hd rfl
    rw [hd] at h
    cases h
  rw [wrap?, if_pos h]
  · exact fun _ hc _ => hne '&' (by decide) hc
  · exact fun hc => hne '&' (by decide) hc
  · exact fun hc => hne '*' (by decide) hc
  · exact fun _ hc _ => hne 'c' (by decide) hc

theorem wrap?_blanks {gap : List Char} (hgap : Blank gap) (type : Ty) (cs : List Char) :
    wrap? type (gap ++ cs) = wrap? type cs := by
  induction gap with
  | nil => rfl
  | cons c gap ih =>
    obtain ⟨hc, hgap⟩ := List.forall_mem_cons.mp hgap
    rw [List.cons_append, wrap?_blank hc, ih hgap]

/-- One suffix wraps the type. -/
theorem wrap?_spelling (type : Ty) (suffix : Suffix) {cs : List Char}
    (halone : suffix = .lref → Stops (· == '&') cs) :
    wrap? type (suffix.spelling ++ cs) = wrap? (suffix.wrap type) cs := by
  cases suffix with
  | const | pointer | rref => rfl
  | lref => exact wrap?_ampersand (halone rfl)

/-- **Suffixes wrap the type one by one.** -/
theorem wrap?_suffixes {suffixes : List Suffix} {back trail : List Char}
    (h : Suffixes suffixes back) (htrail : Blank trail) (type : Ty) :
    wrap? type (back ++ trail) = some (suffixes.foldl Suffix.wrap type) := by
  have hstops : Stops (· == '&') trail := by
    intro c hc
    rw [beq_eq_false_iff_ne]
    rintro rfl
    exact absurd (htrail _ (List.mem_of_mem_head? hc)) (by decide)
  induction h generalizing type with
  | none =>
    have hend := wrap?_blanks htrail type []
    rwa [List.append_nil] at hend
  | more hgap halone _ ih =>
    rw [List.append_assoc, wrap?_blanks hgap, List.append_assoc,
      wrap?_spelling type _ fun hlref => (halone hlref).append fun _ => hstops, ih]
    rfl

/-- Behind the words stand blanks and then the first suffix, which no word begins with. -/
theorem Suffixes.exists_rest {suffixes : List Suffix} {back trail : List Char}
    (h : Suffixes suffixes back) (hhead : suffixes.head? ≠ some .const) (htrail : Blank trail) :
    ∃ gap rest, back ++ trail = gap ++ rest ∧ Blank gap ∧
      Stops (fun c => isTypeChar c || isBlank c) rest := by
  cases h with
  | none => exact ⟨trail, [], by rw [List.nil_append, List.append_nil], htrail, stops_nil⟩
  | @more gap cs suffix suffixes hgap _ _ =>
    refine ⟨gap, suffix.spelling ++ (cs ++ trail), by simp only [List.append_assoc], hgap, ?_⟩
    cases suffix with
    | const => exact absurd rfl hhead
    | pointer | lref | rref => exact stops_cons.mpr (by decide)

/-- **What follows the grammar spells the type that the grammar says**, if its words name one. -/
theorem ofChars?_of_grammar {cs : List Char} {words : List (List Char)} {suffixes : List Suffix}
    (h : Grammar (trim cs) words suffixes) :
    ofChars? cs = (ofWords? words).map fun base => suffixes.foldl Suffix.wrap base := by
  obtain ⟨front, back, htrim, hwords, hsuffixes, hhead⟩ := h
  obtain ⟨lead, trail, hlead, htrail, hcs⟩ := exists_blank_trim cs
  obtain ⟨gap, rest, heq, hgap, hrest⟩ := hsuffixes.exists_rest hhead htrail
  have hread : readWords cs = (words, rest) := by
    rw [hcs, readWords_blanks hlead, htrim, List.append_assoc]
    exact readWords_words hwords (heq ▸ splitWords_blanks hgap hrest)
  have hwrap : ∀ type, wrap? type rest = some (suffixes.foldl Suffix.wrap type) := by
    intro type
    rw [← wrap?_suffixes hsuffixes htrail, heq, wrap?_blanks hgap]
  rw [ofChars?, hread]
  simp only [hwrap]
  cases ofWords? words <;> rfl

/-- Where `const` stands among the words does not count. -/
theorem ofWords?_congr {words words' : List (List Char)}
    (hfilter : words'.filter (· != constWord) = words.filter (· != constWord))
    (hconst : constWord ∈ words' ↔ constWord ∈ words) : ofWords? words' = ofWords? words := by
  have hcontains : words'.contains constWord = words.contains constWord := by
    rw [Bool.eq_iff_iff, List.contains_iff_mem, List.contains_iff_mem]
    exact hconst
  rw [ofWords?, ofWords?, hfilter, hcontains]

/-! ## 4. The texts of types -/

/-- **The grammar of types.** A text spells a type exactly when, without the blanks around it, it is words,
    of which one is not `const`, and suffixes; the type is the one that they say. So two texts with the
    same suffixes, and with the same words but for `const`, which stands among both or among neither,
    spell the same type or none, whatever blanks are in them and wherever `const` stands. -/
theorem parse_by_grammar (text : String) :
    (∀ type, parse text = .ok type ↔
      ∃ words suffixes, Grammar (trim text.toList) words suffixes ∧
        (∃ w ∈ words, w ≠ constWord) ∧ type = meaning words suffixes) ∧
    ∀ (again : String) (words words' : List (List Char)) (suffixes : List Suffix),
      Grammar (trim text.toList) words suffixes → Grammar (trim again.toList) words' suffixes →
      words'.filter (· != constWord) = words.filter (· != constWord) →
      (constWord ∈ words' ↔ constWord ∈ words) →
      ∀ type, parse again = .ok type ↔ parse text = .ok type := by
  refine ⟨fun type => ?_, fun again words words' suffixes h h' hfilter hconst type => ?_⟩
  · rw [parse_eq_ok, ofText?]
    refine ⟨exists_grammar_of_ofChars?, ?_⟩
    rintro ⟨words, suffixes, hgrammar, hname, rfl⟩
    rw [ofChars?_of_grammar hgrammar, ofWords?_eq, if_pos hname]
    rfl
  · rw [parse_eq_ok, parse_eq_ok, ofText?, ofText?, ofChars?_of_grammar h, ofChars?_of_grammar h',
      ofWords?_congr hfilter hconst]

/-- A `const` between two words and one behind a pointer, with few blanks and with many. -/
theorem parse_by_grammar_layered :
    parse "unsigned const long*const&&&" =
        .ok (.lref (.rref (.const (.pointer (.const (.named "unsigned long")))))) ∧
      parse " const unsigned\tlong * const && & " =
        .ok (.lref (.rref (.const (.pointer (.const (.named "unsigned long")))))) := by
  have hblank : Blank [' '] := List.all_eq_true.mp (by decide)
  have htab : Blank ['\t'] := List.all_eq_true.mp (by decide)
  have hnone : Blank [] := fun _ hc => absurd hc List.not_mem_nil
  have hunsigned : IsWord "unsigned".toList := ⟨by decide, List.all_eq_true.mp (by decide)⟩
  have hlong : IsWord "long".toList := ⟨by decide, List.all_eq_true.mp (by decide)⟩
  have hdense : Grammar (trim "unsigned const long*const&&&".toList)
      ["unsigned".toList, constWord, "long".toList] [.pointer, .const, .rref, .lref] :=
    ⟨"unsigned const long".toList, "*const&&&".toList, by decide +kernel,
      .more hunsigned (List.cons_ne_nil _ _) hblank
        (.more isWord_constWord (List.cons_ne_nil _ _) hblank (.last hlong)),
      .more hnone nofun (.more hnone nofun (.more hnone nofun (.more hnone (fun _ => stops_nil)
        .none))), by decide⟩
  have hwide : Grammar (trim " const unsigned\tlong * const && & ".toList)
      [constWord, "unsigned".toList, "long".toList] [.pointer, .const, .rref, .lref] :=
    ⟨"const unsigned\tlong".toList, " * const && &".toList, by decide +kernel,
      .more isWord_constWord (List.cons_ne_nil _ _) hblank
        (.more hunsigned (List.cons_ne_nil _ _) htab (.last hlong)),
      .more hblank nofun (.more hblank nofun (.more hblank nofun (.more hblank
        (fun _ => stops_nil) .none))), by decide⟩
  obtain ⟨hspells, hsame⟩ := parse_by_grammar "unsigned const long*const&&&"
  have hparse := (hspells _).mpr ⟨_, _, hdense, ⟨"long".toList, by decide, by decide⟩, rfl⟩
  exact ⟨hparse, (hsame _ _ _ _ hdense hwide (by decide) (by decide) _).mpr hparse⟩

end MemberRefs.Ty
