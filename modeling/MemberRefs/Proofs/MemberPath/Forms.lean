import MemberRefs.Proofs.MemberPath.Names

/-!
# Member names read back

The name of a member, in front of a parameter list or at the end of a text, is read in the same way
again. The forms that are tried before its own either do not match, or they leave something behind them
that is no parameter list. Only the word `operator` in front of `()` is taken for another name, the call
operator.

* `cutMember_call`, `cutMember_allocator`, `cutMember_symbols`, `cutMember_identifier`,
  `cutMember_destructor`: the kinds of names one by one.
* `cutMember_memberName`: a name of any kind is cut off as a whole and is normal.
-/

namespace MemberRefs.MemberPath

open Text

/-! ## 1. What stands behind a name -/

/-- What may stand behind a name: nothing, or something in parentheses. -/
def IsTail (cs : List Char) : Prop := ∀ c ∈ cs.head?, c = '('

theorem IsTail.stops {p : Char → Bool} {tail : List Char} (h : IsTail tail) (hp : p '(' = false) :
    Stops p tail :=
  fun c hc => h c hc ▸ hp

theorem IsTail.cases {tail : List Char} (h : IsTail tail) :
    tail = [] ∨ ∃ cs, tail = '(' :: cs := by
  cases tail with
  | nil => exact Or.inl rfl
  | cons c cs => exact Or.inr ⟨cs, by rw [h c rfl]⟩

/-- A parenthesis is no part of the word `operator`. -/
theorem prefix_of_prefix_append {name tail : List Char} (h : IsTail tail)
    (hstart : Name.operatorWord <+: name ++ tail) : Name.operatorWord <+: name := by
  by_cases hlength : Name.operatorWord.length ≤ name.length
  · exact List.prefix_of_prefix_length_le hstart (List.prefix_append name tail) hlength
  · obtain ⟨op, hop⟩ := List.prefix_of_prefix_length_le (List.prefix_append name tail) hstart
      (Nat.le_of_not_le hlength)
    rw [← hop, List.prefix_append_right_inj] at hstart
    rcases h.cases with rfl | ⟨cs, rfl⟩
    · rw [List.prefix_nil] at hstart
      exact ⟨[], by rw [← hop, hstart]; simp⟩
    · cases op with
      | nil => exact ⟨[], by rw [← hop]; simp⟩
      | cons c op =>
        have hparen : '(' ∈ Name.operatorWord := by
          rw [← hop, (List.cons_prefix_cons.mp hstart).1]
          simp
        exact absurd hparen (by decide)

section Reading

variable {owner name tail : List Char} {form : List Char → Option (List Char × List Char)}
  {content : Option (List Char × Bool)}

/-! ## 2. One form -/

theorem cutBy_of_none {cs : List Char} (h : form cs = none) : cutBy owner cs form = none := by
  rw [cutBy, h]
  rfl

theorem cutBy_of_some {cs : List Char} (h : form cs = some (name, tail))
    (htail : readTail tail = some content) :
    cutBy owner cs form = some ⟨owner, name, content⟩ := by
  rw [cutBy, h]
  simp only [Option.bind_eq_bind, Option.bind_some, htail]

theorem operatorForm_append (read : List Char → Option (List Char × List Char)) (cs : List Char) :
    operatorForm read (Name.operatorWord ++ cs) =
      (read (dropBlanks cs)).map fun (op, rest) => (Name.operatorWord ++ op, rest) := by
  rw [operatorForm, after?_append]
  simp only [Option.bind_eq_bind, Option.bind_some]
  cases read (dropBlanks cs) <;> rfl

theorem operatorForm_eq_none {read : List Char → Option (List Char × List Char)} {cs : List Char}
    (h : ¬ Name.operatorWord <+: cs) : operatorForm read cs = none := by
  rw [operatorForm, after?_eq_none h]
  rfl

/-- The operator forms, in front of that of a plain name. -/
def operatorForms : List (List Char → Option (List Char × List Char)) :=
  [operatorForm (readBrackets '(' ')'), operatorForm (readBrackets '[' ']'),
    operatorForm readAllocator, operatorForm readSymbols]

/-- A plain name is read when no operator is. -/
theorem cutMember_plain {cs : List Char}
    (hoperators : ∀ form ∈ operatorForms, cutBy owner cs form = none)
    (hplain : plainForm cs = some (name, tail)) (htail : readTail tail = some content) :
    cutMember owner cs = some ⟨owner, name, content⟩ := by
  have hforms : memberForms = operatorForms ++ [plainForm] := rfl
  rw [cutMember_eq, hforms, List.findSome?_append, List.findSome?_eq_none_iff.mpr hoperators,
    Option.none_or, List.findSome?_singleton, cutBy_of_some hplain htail]

/-! ## 3. Operators -/

theorem cutMember_call (htail : readTail tail = some content) :
    cutMember owner (Name.operatorWord ++ ['(', ')'] ++ tail) =
      some ⟨owner, Name.operatorWord ++ ['(', ')'], content⟩ := by
  have hread : operatorForm (readBrackets '(' ')') (Name.operatorWord ++ ['(', ')'] ++ tail) =
      some (Name.operatorWord ++ ['(', ')'], tail) := by
    rw [List.append_assoc, operatorForm_append]
    rfl
  rw [cutMember_eq, memberForms, List.findSome?_cons, cutBy_of_some hread htail]

theorem readBrackets_cons_of_ne {opening closing c : Char} {cs : List Char} (h : c ≠ opening) :
    readBrackets opening closing (c :: cs) = none := by
  rw [readBrackets, after?_cons_of_ne (Ne.symm h)]
  rfl

/-- No brackets are taken off what may stand behind a name. -/
theorem readBrackets_tail (h : IsTail tail) : readBrackets '[' ']' (dropBlanks tail) = none := by
  rcases h.cases with rfl | ⟨cs, rfl⟩ <;> rfl

theorem readAllocator_append {op : List Char} (hop : op ∈ allocators) (h : IsTail tail) :
    readAllocator (op ++ tail) = some (op, tail) := by
  have hbrackets := readBrackets_tail h
  simp only [allocators, List.mem_cons, List.not_mem_nil, or_false] at hop
  rcases hop with rfl | rfl | rfl | rfl
  · have hnew : after? "new".toList ("new".toList ++ tail) = some tail := after?_append _ tail
    rw [readAllocator, hnew]
    simp only [Option.map_some, Option.orElse_eq_orElse, Option.orElse_some, Option.bind_eq_bind,
      Option.bind_some, hbrackets]
  · rfl
  · have hnew : after? "new".toList ("delete".toList ++ tail) = none := after?_cons_of_ne (by decide)
    have hdelete : after? "delete".toList ("delete".toList ++ tail) = some tail :=
      after?_append _ tail
    rw [readAllocator, hnew, hdelete]
    simp only [Option.map_some, Option.map_none, Option.orElse_eq_orElse, Option.orElse_none,
      Option.bind_eq_bind, Option.bind_some, hbrackets]
  · rfl

theorem exists_letter_of_allocator : ∀ op ∈ allocators, ∃ c cs, op = c :: cs ∧
    isBlank c = false ∧ c ≠ '(' ∧ c ≠ '[' := by
  intro op hop
  simp only [allocators, List.mem_cons, List.not_mem_nil, or_false] at hop
  rcases hop with rfl | rfl | rfl | rfl <;>
    exact ⟨_, _, rfl, by decide, by decide, by decide⟩

theorem cutMember_allocator {op : List Char} (hop : op ∈ allocators) (h : IsTail tail)
    (htail : readTail tail = some content) :
    cutMember owner (Name.operatorWord ++ ' ' :: op ++ tail) =
      some ⟨owner, Name.operatorWord ++ op, content⟩ := by
  have hread := readAllocator_append hop h
  obtain ⟨c, cs, rfl, hc, hparen, hbracket⟩ := exists_letter_of_allocator op hop
  have hforms : ∀ read, operatorForm read (Name.operatorWord ++ ' ' :: (c :: cs) ++ tail) =
      (read (c :: cs ++ tail)).map fun (op, rest) => (Name.operatorWord ++ op, rest) := by
    intro read
    rw [List.append_assoc, operatorForm_append, List.cons_append,
      dropBlanks_cons_blank (by decide), List.cons_append, dropBlanks_cons_solid hc]
  have hcall : operatorForm (readBrackets '(' ')')
      (Name.operatorWord ++ ' ' :: (c :: cs) ++ tail) = none := by
    rw [hforms, List.cons_append, readBrackets_cons_of_ne hparen]
    rfl
  have hindex : operatorForm (readBrackets '[' ']')
      (Name.operatorWord ++ ' ' :: (c :: cs) ++ tail) = none := by
    rw [hforms, List.cons_append, readBrackets_cons_of_ne hbracket]
    rfl
  have hallocator : operatorForm readAllocator (Name.operatorWord ++ ' ' :: (c :: cs) ++ tail) =
      some (Name.operatorWord ++ c :: cs, tail) := by
    rw [hforms, hread]
    rfl
  rw [cutMember_eq, memberForms, List.findSome?_cons, cutBy_of_none hcall, List.findSome?_cons,
    cutBy_of_none hindex, List.findSome?_cons, cutBy_of_some hallocator htail]

/-- A symbol is not the beginning of a tail, so nothing is left over for one. -/
theorem readTail_symbol {c : Char} {cs : List Char} (h : isSymbol c = true) :
    readTail (c :: cs) = none := by
  obtain ⟨hblank, _, hparen⟩ := not_of_isSymbol h
  rw [readTail, dropBlanks_cons_solid hblank]
  split
  · rename_i heq
    cases heq
  · rename_i heq
    exact absurd (List.cons.inj heq).1 hparen
  · rfl

theorem readBrackets_cons {opening closing : Char} (cs : List Char) :
    readBrackets opening closing (opening :: cs) =
      (after? [closing] (dropBlanks cs)).map fun rest => ([opening, closing], rest) := by
  have hopening : after? [opening] (opening :: cs) = some cs := after?_append [opening] cs
  rw [readBrackets, hopening]
  simp only [Option.bind_eq_bind, Option.bind_some]
  cases after? [closing] (dropBlanks cs) <;> rfl

/-- Square brackets are read off symbols only when the symbols begin with them. -/
theorem readBrackets_symbols {op : List Char} (hop : ∀ c ∈ op, isSymbol c = true)
    (h : IsTail tail) : readBrackets '[' ']' (op ++ tail) = none ∨
      ∃ cs, op = '[' :: ']' :: cs ∧
        readBrackets '[' ']' (op ++ tail) = some (['[', ']'], cs ++ tail) := by
  cases op with
  | nil => rcases h.cases with rfl | ⟨cs, rfl⟩ <;> exact Or.inl rfl
  | cons c cs =>
    by_cases hopening : c = '['
    · subst hopening
      rw [List.cons_append, readBrackets_cons]
      cases cs with
      | nil => rcases h.cases with rfl | ⟨cs, rfl⟩ <;> exact Or.inl rfl
      | cons d ds =>
        have hd : isSymbol d = true := hop d (List.mem_cons_of_mem _ List.mem_cons_self)
        rw [List.cons_append, dropBlanks_cons_solid (not_of_isSymbol hd).1]
        by_cases hclosing : d = ']'
        · subst hclosing
          exact Or.inr ⟨ds, rfl, rfl⟩
        · rw [after?_cons_of_ne (Ne.symm hclosing)]
          exact Or.inl rfl
    · exact Or.inl (readBrackets_cons_of_ne hopening)

/-- Square brackets at the beginning of symbols are all of them, or leave symbols behind. -/
theorem cutBy_index_symbols {op : List Char} (hop : ∀ c ∈ op, isSymbol c = true) (hne : op ≠ [])
    (h : IsTail tail) (htail : readTail tail = some content) :
    cutBy owner (Name.operatorWord ++ (op ++ tail)) (operatorForm (readBrackets '[' ']')) = none ∨
      cutBy owner (Name.operatorWord ++ (op ++ tail)) (operatorForm (readBrackets '[' ']')) =
        some ⟨owner, Name.operatorWord ++ op, content⟩ := by
  have hsolid : Stops isBlank (op ++ tail) := by
    refine Stops.append (fun c hc => ?_) fun hnil => absurd hnil hne
    exact (not_of_isSymbol (hop c (List.mem_of_mem_head? hc))).1
  have hform := operatorForm_append (readBrackets '[' ']') (op ++ tail)
  rw [dropBlanks_eq_self hsolid] at hform
  rcases readBrackets_symbols hop h with hnone | ⟨cs, rfl, hsome⟩
  · rw [hnone] at hform
    exact Or.inl (cutBy_of_none hform)
  · rw [hsome] at hform
    cases cs with
    | nil => exact Or.inr (cutBy_of_some hform htail)
    | cons e es =>
      have he : isSymbol e = true := hop e (by simp)
      refine Or.inl ?_
      rw [cutBy, hform]
      show (readTail (e :: (es ++ tail))).bind _ = none
      rw [readTail_symbol he]
      rfl

/-- No allocation function begins with a symbol or with anything else that is no letter. -/
theorem readAllocator_of_not_letter {c : Char} {cs : List Char} (h : c.isAlpha = false) :
    readAllocator (c :: cs) = none := by
  have hn : 'n' ≠ c := by
    rintro rfl
    exact absurd h (by decide)
  have hd : 'd' ≠ c := by
    rintro rfl
    exact absurd h (by decide)
  have hnew : after? "new".toList (c :: cs) = none := after?_cons_of_ne hn
  have hdelete : after? "delete".toList (c :: cs) = none := after?_cons_of_ne hd
  rw [readAllocator, hnew, hdelete]
  rfl

theorem cutMember_symbols {op : List Char} (hop : ∀ c ∈ op, isSymbol c = true) (hne : op ≠ [])
    (h : IsTail tail) (htail : readTail tail = some content) :
    cutMember owner (Name.operatorWord ++ op ++ tail) =
      some ⟨owner, Name.operatorWord ++ op, content⟩ := by
  have hread : readSymbols (op ++ tail) = some (op, tail) := by
    have hstops : Stops isSymbol tail := h.stops (by decide)
    rw [readSymbols, takeWhile_append_of_stops hop hstops, dropWhile_append_of_stops hop hstops]
    split
    · exact absurd rfl hne
    · rfl
  have hindex := @cutBy_index_symbols owner tail content op hop hne h htail
  obtain ⟨c, cs, rfl⟩ := List.exists_cons_of_ne_nil hne
  obtain ⟨hblank, hword, hparen⟩ := not_of_isSymbol (hop c List.mem_cons_self)
  have hforms : ∀ read, operatorForm read (Name.operatorWord ++ (c :: cs ++ tail)) =
      (read (c :: (cs ++ tail))).map fun (op, rest) => (Name.operatorWord ++ op, rest) := by
    intro read
    rw [operatorForm_append, List.cons_append, dropBlanks_cons_solid hblank]
  have hcall : operatorForm (readBrackets '(' ')') (Name.operatorWord ++ (c :: cs ++ tail)) =
      none := by
    rw [hforms, readBrackets_cons_of_ne hparen]
    rfl
  have hallocator : operatorForm readAllocator (Name.operatorWord ++ (c :: cs ++ tail)) = none := by
    rw [hforms, readAllocator_of_not_letter (isAlpha_of_isSymbol (hop c List.mem_cons_self))]
    rfl
  have hsymbols : operatorForm readSymbols (Name.operatorWord ++ (c :: cs ++ tail)) =
      some (Name.operatorWord ++ c :: cs, tail) := by
    rw [hforms, ← List.cons_append, hread]
    rfl
  rw [List.append_assoc, cutMember_eq, memberForms, List.findSome?_cons, cutBy_of_none hcall,
    List.findSome?_cons]
  rcases hindex with hindex | hindex
  · rw [hindex, List.findSome?_cons, cutBy_of_none hallocator, List.findSome?_cons,
      cutBy_of_some hsymbols htail]
  · rw [hindex]

/-! ## 4. Plain names and destructors -/

theorem plainForm_append (hname : IsIdentifier name) (h : IsTail tail) :
    plainForm (name ++ tail) = some (name, tail) := by
  have hread := readIdentifier_append hname (h.stops (p := isWordChar) (by decide))
  obtain ⟨c, cs, rfl, hc, _⟩ := hname
  have hplain : plainForm (c :: (cs ++ tail)) = readIdentifier (c :: (cs ++ tail)) := by
    refine plainForm.eq_2 _ fun cs' heq => ?_
    rw [(List.cons.inj heq).1] at hc
    exact absurd hc (by decide)
  exact hplain.trans hread

/-- An identifier that does not begin with `operator` is no operator. -/
theorem cutMember_identifier (hname : IsIdentifier name) (hoperator : ¬ Name.operatorWord <+: name)
    (h : IsTail tail) (htail : readTail tail = some content) :
    cutMember owner (name ++ tail) = some ⟨owner, name, content⟩ := by
  have hstart : ¬ Name.operatorWord <+: name ++ tail :=
    fun hstart => hoperator (prefix_of_prefix_append h hstart)
  refine cutMember_plain (fun form hform => cutBy_of_none ?_) (plainForm_append hname h) htail
  simp only [operatorForms, List.mem_cons, List.not_mem_nil, or_false] at hform
  rcases hform with rfl | rfl | rfl | rfl <;> exact operatorForm_eq_none hstart

theorem cutMember_destructor (hname : IsIdentifier name) (h : IsTail tail)
    (htail : readTail tail = some content) :
    cutMember owner ('~' :: name ++ tail) = some ⟨owner, '~' :: name, content⟩ := by
  have hstart : ¬ Name.operatorWord <+: '~' :: name ++ tail :=
    fun hstart => absurd (List.cons_prefix_cons.mp hstart).1 (by decide)
  have hread : plainForm ('~' :: name ++ tail) = some ('~' :: name, tail) := by
    rw [List.cons_append, plainForm, readIdentifier_append hname (h.stops (by decide))]
    rfl
  refine cutMember_plain (fun form hform => cutBy_of_none ?_) hread htail
  simp only [operatorForms, List.mem_cons, List.not_mem_nil, or_false] at hform
  rcases hform with rfl | rfl | rfl | rfl <;> exact operatorForm_eq_none hstart

/-- The word `operator` alone is a plain name, unless the call operator is read. -/
theorem cutMember_operatorWord (h : IsTail tail) (htail : readTail tail = some content)
    (hcall : cutBy owner (Name.operatorWord ++ tail) (operatorForm (readBrackets '(' ')')) = none) :
    cutMember owner (Name.operatorWord ++ tail) = some ⟨owner, Name.operatorWord, content⟩ := by
  have hname : IsIdentifier Name.operatorWord :=
    ⟨_, _, rfl, by decide, List.all_eq_true.mp (by decide)⟩
  refine cutMember_plain (fun form hform => ?_) (plainForm_append hname h) htail
  simp only [operatorForms, List.mem_cons, List.not_mem_nil, or_false] at hform
  rcases hform with rfl | rfl | rfl | rfl
  · exact hcall
  all_goals
    refine cutBy_of_none ?_
    rw [operatorForm_append]
    rcases h.cases with rfl | ⟨cs, rfl⟩ <;> rfl

/-- An identifier that goes on behind `operator` with no letter is no operator either. -/
theorem cutMember_operatorLike {c : Char} {cs : List Char} (hc : isWordChar c = true)
    (hletter : c.isAlpha = false) (hname : IsIdentifier (Name.operatorWord ++ c :: cs))
    (h : IsTail tail) (htail : readTail tail = some content) :
    cutMember owner (Name.operatorWord ++ c :: cs ++ tail) =
      some ⟨owner, Name.operatorWord ++ c :: cs, content⟩ := by
  have hparen : c ≠ '(' := by
    rintro rfl
    exact absurd hc (by decide)
  have hbracket : c ≠ '[' := by
    rintro rfl
    exact absurd hc (by decide)
  have hsymbol : isSymbol c = false := by simp [isSymbol, hc]
  refine cutMember_plain (fun form hform => cutBy_of_none ?_) (plainForm_append hname h) htail
  rw [List.append_assoc, List.cons_append]
  simp only [operatorForms, List.mem_cons, List.not_mem_nil, or_false] at hform
  rcases hform with rfl | rfl | rfl | rfl <;>
    rw [operatorForm_append, dropBlanks_cons_solid (isBlank_of_isWordChar hc)]
  · rw [readBrackets_cons_of_ne hparen]
    rfl
  · rw [readBrackets_cons_of_ne hbracket]
    rfl
  · rw [readAllocator_of_not_letter hletter]
    rfl
  · rw [readSymbols, List.takeWhile_cons_of_neg (by simp [hsymbol])]
    rfl

end Reading

/-! ## 5. Any name -/

/-- **A name that stands in a path is cut off as a whole, and it is the normal form of what is cut
    off.** The word `operator` alone is meant where no call operator is read. -/
theorem cutMember_memberName {owner name tail : List Char} {content : Option (List Char × Bool)}
    (hname : MemberName name) (hspaced : Name.operatorWord ++ [' '] <+: name →
      ∃ op ∈ allocators, name = Name.operatorWord ++ ' ' :: op)
    (h : IsTail tail) (htail : readTail tail = some content)
    (hcall : name = Name.operatorWord →
      cutBy owner (Name.operatorWord ++ tail) (operatorForm (readBrackets '(' ')')) = none) :
    ∃ raw, cutMember owner (name ++ tail) = some ⟨owner, raw, content⟩ ∧ normalize raw = name := by
  cases hname with
  | call => exact ⟨_, cutMember_call htail, rfl⟩
  | allocator hop => exact ⟨_, cutMember_allocator hop h htail, normalize_allocator _ hop⟩
  | symbols hne hop => exact ⟨_, cutMember_symbols hop hne h htail, normalize_symbols hop⟩
  | plain hidentifier hletter =>
    by_cases hoperator : Name.operatorWord <+: name
    · obtain ⟨op, rfl⟩ := hoperator
      have hword : ∀ c ∈ op, isWordChar c = true :=
        fun c hc => hidentifier.isWordChar c (List.mem_append_right _ hc)
      refine ⟨_, ?_, normalize_operator (isBlank_of_mem_word hword) (hletter op rfl)⟩
      cases op with
      | nil =>
        rw [List.append_nil]
        exact cutMember_operatorWord h htail (hcall (List.append_nil _))
      | cons c cs =>
        exact cutMember_operatorLike (hword c List.mem_cons_self) (stops_cons.mp (hletter _ rfl))
          hidentifier h htail
    · exact ⟨_, cutMember_identifier hidentifier hoperator h htail,
        normalize_of_not_operator hoperator⟩
  | destructor hidentifier => exact ⟨_, cutMember_destructor hidentifier h htail, rfl⟩
  | spaced hletter =>
    obtain ⟨op, hop, heq⟩ := hspaced ⟨_, List.append_assoc _ _ _⟩
    rw [heq]
    exact ⟨_, cutMember_allocator hop h htail, normalize_allocator op hop⟩

end MemberRefs.MemberPath
