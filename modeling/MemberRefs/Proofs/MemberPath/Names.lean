import MemberRefs.MemberPath.Parser
import MemberRefs.Proofs.Text.Blank

/-!
# The names of members in paths

The name of a member, as it stands in a path that was read, is one of few kinds (`MemberName`). Blanks
inside the name of an operator function do not count, so names are normal; an identifier that goes on
behind `operator` with a letter gets a blank there (`MemberName.spaced`).

* `normalize_operator`, `normalize_letter`: the normal form of a name.
* `memberName_of_cutMember`: the kinds of names that a text gives.
-/

namespace MemberRefs.MemberPath

open Text

/-! ## 1. Kinds of names -/

/-- An identifier. -/
def IsIdentifier (name : List Char) : Prop :=
  ∃ c cs, name = c :: cs ∧ isWordStart c = true ∧ ∀ d ∈ cs, isWordChar d = true

/-- What names an allocation function behind `operator`. -/
def allocators : List (List Char) :=
  ["new".toList, "new[]".toList, "delete".toList, "delete[]".toList]

/-- The names of members in paths. -/
inductive MemberName : List Char → Prop
  | call : MemberName (Name.operatorWord ++ ['(', ')'])
  | allocator {op : List Char} (mem : op ∈ allocators) :
      MemberName (Name.operatorWord ++ ' ' :: op)
  | symbols {op : List Char} (ne_nil : op ≠ []) (symbols : ∀ c ∈ op, isSymbol c = true) :
      MemberName (Name.operatorWord ++ op)
  | plain {name : List Char} (identifier : IsIdentifier name)
      (noLetter : ∀ op, name = Name.operatorWord ++ op → Stops Char.isAlpha op) : MemberName name
  | destructor {name : List Char} (identifier : IsIdentifier name) : MemberName ('~' :: name)
  /-- An identifier that goes on behind `operator` with a letter, with a blank there. -/
  | spaced {op : List Char} (letter : ¬ Stops Char.isAlpha op) :
      MemberName (Name.operatorWord ++ ' ' :: op)

theorem isWordChar_of_isAlphanum {c : Char} (h : c.isAlphanum = true) : isWordChar c = true := by
  have hvisible := visible_of_isAlphanum h
  rw [isWordChar_of_ascii (by omega), h]
  rfl

theorem isWordChar_of_isWordStart {c : Char} (h : isWordStart c = true) : isWordChar c = true := by
  rcases Bool.or_eq_true_iff.mp h with hletter | hscore
  · exact isWordChar_of_isAlphanum (by simp [Char.isAlphanum, hletter])
  · rw [beq_iff_eq.mp hscore]
    rfl

theorem IsIdentifier.isWordChar {name : List Char} (h : IsIdentifier name) :
    ∀ c ∈ name, Text.isWordChar c = true := by
  obtain ⟨c, cs, rfl, hc, hcs⟩ := h
  exact List.forall_mem_cons.mpr ⟨isWordChar_of_isWordStart hc, hcs⟩

theorem IsIdentifier.stops {name : List Char} (h : IsIdentifier name) : Stops isBlank name :=
  fun c hc => isBlank_of_isWordChar (h.isWordChar c (List.mem_of_mem_head? hc))

theorem not_of_isSymbol {c : Char} (h : isSymbol c = true) :
    isBlank c = false ∧ isWordChar c = false ∧ c ≠ '(' := by
  simp only [isSymbol, Bool.not_eq_true', Bool.or_eq_false_iff, beq_eq_false_iff_ne] at h
  exact ⟨h.1.1, h.1.2, h.2⟩

/-! ## 2. Beginnings -/

theorem after?_append (start cs : List Char) : after? start (start ++ cs) = some cs := by
  rw [after?, if_pos (List.isPrefixOf_iff_prefix.mpr (List.prefix_append start cs)),
    List.drop_left]

theorem after?_eq_none {start cs : List Char} (h : ¬ start <+: cs) : after? start cs = none :=
  if_neg fun hstart => h (List.isPrefixOf_iff_prefix.mp hstart)

theorem after?_cons_of_ne {c d : Char} {start cs : List Char} (h : c ≠ d) :
    after? (c :: start) (d :: cs) = none :=
  after?_eq_none fun hstart => h (List.cons_prefix_cons.mp hstart).1

/-- **An identifier is read as a whole.** -/
theorem readIdentifier_append {name rest : List Char} (h : IsIdentifier name)
    (hrest : Stops isWordChar rest) : readIdentifier (name ++ rest) = some (name, rest) := by
  obtain ⟨c, cs, rfl, hc, hcs⟩ := h
  rw [List.cons_append, readIdentifier, if_pos hc, takeWhile_append_of_stops hcs hrest,
    dropWhile_append_of_stops hcs hrest]

theorem isIdentifier_of_readIdentifier {cs name rest : List Char}
    (h : readIdentifier cs = some (name, rest)) : IsIdentifier name := by
  unfold readIdentifier at h
  split at h
  · cases h
  · rename_i c cs
    split at h
    · rename_i hc
      cases h
      exact ⟨c, _, rfl, hc, fun d hd => List.all_eq_true.mp List.all_takeWhile d hd⟩
    · cases h

/-! ## 3. Normal names -/

theorem normalize_operator {op : List Char} (hblank : ∀ c ∈ op, isBlank c = false)
    (hletter : Stops Char.isAlpha op) :
    normalize (Name.operatorWord ++ op) = Name.operatorWord ++ op := by
  rw [normalize, after?_append]
  simp only [removeBlanks_eq_self hblank]
  cases op with
  | nil => rfl
  | cons c cs => exact if_neg (by rw [stops_cons.mp hletter]; exact Bool.false_ne_true)

/-- Behind `operator` a letter gets a blank in front of it. -/
theorem normalize_letter {op : List Char} (hblank : ∀ c ∈ op, isBlank c = false)
    (hletter : ¬ Stops Char.isAlpha op) :
    normalize (Name.operatorWord ++ op) = Name.operatorWord ++ ' ' :: op := by
  rw [normalize, after?_append]
  simp only [removeBlanks_eq_self hblank]
  cases op with
  | nil => exact absurd stops_nil hletter
  | cons c cs => exact if_pos (by simpa using hletter)

theorem normalize_of_not_operator {name : List Char} (h : ¬ Name.operatorWord <+: name) :
    normalize name = name := by
  rw [normalize, after?_eq_none h]

theorem normalize_allocator : ∀ op ∈ allocators,
    normalize (Name.operatorWord ++ op) = Name.operatorWord ++ ' ' :: op := by
  decide

theorem isAlpha_of_isSymbol {c : Char} (h : isSymbol c = true) : c.isAlpha = false := by
  rw [Bool.eq_false_iff]
  intro hletter
  have hword := isWordChar_of_isAlphanum (c := c) (by simp [Char.isAlphanum, hletter])
  rw [(not_of_isSymbol h).2.1] at hword
  cases hword

theorem normalize_symbols {op : List Char} (h : ∀ c ∈ op, isSymbol c = true) :
    normalize (Name.operatorWord ++ op) = Name.operatorWord ++ op :=
  normalize_operator (fun c hc => (not_of_isSymbol (h c hc)).1)
    fun c hc => isAlpha_of_isSymbol (h c (List.mem_of_mem_head? hc))

theorem isBlank_of_mem_word {cs : List Char} (h : ∀ c ∈ cs, isWordChar c = true) :
    ∀ c ∈ cs, isBlank c = false :=
  fun c hc => isBlank_of_isWordChar (h c hc)

/-- A normal identifier is a plain name, unless it has got a blank. -/
theorem memberName_normalize {name : List Char} (h : IsIdentifier name) :
    MemberName (normalize name) := by
  by_cases hoperator : Name.operatorWord <+: name
  · obtain ⟨op, rfl⟩ := hoperator
    have hblank : ∀ c ∈ op, isBlank c = false :=
      isBlank_of_mem_word fun c hc => h.isWordChar c (List.mem_append_right _ hc)
    by_cases hletter : Stops Char.isAlpha op
    · rw [normalize_operator hblank hletter]
      refine .plain h fun op' heq => ?_
      rw [← List.append_cancel_left heq]
      exact hletter
    · rw [normalize_letter hblank hletter]
      exact .spaced hletter
  · rw [normalize_of_not_operator hoperator]
    exact .plain h fun op heq => absurd ⟨op, heq.symm⟩ hoperator

/-! ## 4. What the forms give -/

theorem exists_of_operatorForm {read : List Char → Option (List Char × List Char)}
    {cs name rest : List Char} (h : operatorForm read cs = some (name, rest)) :
    ∃ op cs', read cs' = some (op, rest) ∧ name = Name.operatorWord ++ op := by
  unfold operatorForm at h
  obtain ⟨cs', _, h⟩ := Option.bind_eq_some_iff.mp h
  obtain ⟨⟨op, rest'⟩, hread, h⟩ := Option.bind_eq_some_iff.mp h
  cases h
  exact ⟨op, _, hread, rfl⟩

theorem eq_of_readBrackets {opening closing : Char} {cs op rest : List Char}
    (h : readBrackets opening closing cs = some (op, rest)) : op = [opening, closing] := by
  unfold readBrackets at h
  obtain ⟨_, _, h⟩ := Option.bind_eq_some_iff.mp h
  obtain ⟨_, _, h⟩ := Option.bind_eq_some_iff.mp h
  cases h
  rfl

theorem mem_allocators_of_readAllocator {cs op rest : List Char}
    (h : readAllocator cs = some (op, rest)) : op ∈ allocators := by
  unfold readAllocator at h
  obtain ⟨⟨word, rest'⟩, hword, h⟩ := Option.bind_eq_some_iff.mp h
  have hwords : word = "new".toList ∨ word = "delete".toList := by
    cases hnew : after? "new".toList cs with
    | some rest'' =>
      rw [hnew] at hword
      cases hword
      exact Or.inl rfl
    | none =>
      rw [hnew] at hword
      obtain ⟨_, _, hdelete⟩ := Option.map_eq_some_iff.mp hword
      cases hdelete
      exact Or.inr rfl
  have hop : op = word ∨ op = word ++ ['[', ']'] := by
    dsimp only at h
    cases hbrackets : readBrackets '[' ']' (dropBlanks rest') with
    | some result =>
      rw [hbrackets] at h
      cases h
      exact Or.inr (congrArg (word ++ ·) (eq_of_readBrackets hbrackets))
    | none =>
      rw [hbrackets] at h
      cases h
      exact Or.inl rfl
  rcases hwords with rfl | rfl <;> rcases hop with rfl | rfl <;> decide

theorem symbols_of_readSymbols {cs op rest : List Char} (h : readSymbols cs = some (op, rest)) :
    op ≠ [] ∧ ∀ c ∈ op, isSymbol c = true := by
  unfold readSymbols at h
  split at h
  · cases h
  · rename_i hne
    cases h
    exact ⟨hne, fun c hc => List.all_eq_true.mp List.all_takeWhile c hc⟩

theorem memberName_of_plainForm {cs name rest : List Char} (h : plainForm cs = some (name, rest)) :
    MemberName (normalize name) := by
  unfold plainForm at h
  split at h
  · obtain ⟨⟨identifier, rest'⟩, hread, h⟩ := Option.map_eq_some_iff.mp h
    cases h
    have hnormal : normalize ('~' :: identifier) = '~' :: identifier :=
      normalize_of_not_operator fun hstart => absurd (List.cons_prefix_cons.mp hstart).1 (by decide)
    rw [hnormal]
    exact .destructor (isIdentifier_of_readIdentifier hread)
  · exact memberName_normalize (isIdentifier_of_readIdentifier h)

/-- What a form makes of a text. -/
def cutBy (owner cs : List Char) (form : List Char → Option (List Char × List Char)) :
    Option Cut := do
  let (member, rest) ← form cs
  let tail ← readTail rest
  some ⟨owner, member, tail⟩

theorem cutMember_eq (owner cs : List Char) :
    cutMember owner cs = memberForms.findSome? (cutBy owner cs) := rfl

theorem exists_of_cutBy {owner cs : List Char} {form : List Char → Option (List Char × List Char)}
    {c : Cut} (h : cutBy owner cs form = some c) :
    ∃ rest, form cs = some (c.member, rest) ∧ readTail rest = some c.tail ∧ c.owner = owner := by
  unfold cutBy at h
  obtain ⟨⟨member, rest⟩, hform, h⟩ := Option.bind_eq_some_iff.mp h
  obtain ⟨tail, htail, h⟩ := Option.bind_eq_some_iff.mp h
  cases h
  exact ⟨rest, hform, htail, rfl⟩

/-- **The name that a text gives is of one of the kinds.** -/
theorem memberName_of_cutMember {owner cs : List Char} {c : Cut} (h : cutMember owner cs = some c) :
    MemberName (normalize c.member) := by
  rw [cutMember_eq] at h
  obtain ⟨form, hform, h⟩ := List.exists_of_findSome?_eq_some h
  obtain ⟨rest, hread, _⟩ := exists_of_cutBy h
  simp only [memberForms, List.mem_cons, List.not_mem_nil, or_false] at hform
  rcases hform with rfl | rfl | rfl | rfl | rfl
  · obtain ⟨op, _, hop, hname⟩ := exists_of_operatorForm hread
    rw [hname, eq_of_readBrackets hop]
    exact .call
  · obtain ⟨op, _, hop, hname⟩ := exists_of_operatorForm hread
    rw [hname, eq_of_readBrackets hop]
    exact @MemberName.symbols ['[', ']'] (by decide) (List.all_eq_true.mp (by decide))
  · obtain ⟨op, _, hop, hname⟩ := exists_of_operatorForm hread
    have hmem := mem_allocators_of_readAllocator hop
    rw [hname, normalize_allocator op hmem]
    exact .allocator hmem
  · obtain ⟨op, _, hop, hname⟩ := exists_of_operatorForm hread
    obtain ⟨hne, hsymbols⟩ := symbols_of_readSymbols hop
    rw [hname, normalize_symbols hsymbols]
    exact .symbols hne hsymbols
  · exact memberName_of_plainForm hread

end MemberRefs.MemberPath
