import MemberRefs.MemberPath.Parser
import MemberRefs.Proofs.Except
import MemberRefs.Proofs.Ty.Spelling

/-!
# Parameter lists read back

A signature is written as the spellings of its parameter types between parentheses. No spelling has a
comma or a parenthesis in it, and none begins or ends with a blank, so the list is cut where it was
joined.

* `readTail_text`: a signature behind a member is cut into its parameter list and `const`.
* `readParams_text`: the parameter list gives what each spelling spells, except that a single `void` is
  none.
-/

namespace MemberRefs

open Text

namespace Ty

/-! ## 1. The characters of a type -/

/-- The characters of which types are spelled. -/
def isSpellingChar (c : Char) : Bool := isTypeChar c || c == ' ' || c == '*' || c == '&'

theorem isSpellingChar_of_isTypeChar {c : Char} (h : isTypeChar c = true) :
    isSpellingChar c = true := by
  simp [isSpellingChar, h]

theorem IsWord.isSpellingChar {word : List Char} (h : IsWord word) :
    ∀ c ∈ word, Ty.isSpellingChar c = true :=
  fun c hc => isSpellingChar_of_isTypeChar (h.chars c hc)

/-- **The spelling of a type begins and ends with a character.** -/
theorem solid_text {type : Ty} (h : type.Spelled) : Solid type.text.toList := by
  have hconst : Solid constWord := isWord_constWord.solid
  induction type with
  | named name =>
    obtain ⟨words, hne, hwords, hname⟩ := h
    rw [text, hname]
    exact Solid.intercalate hne fun w hw => (hwords w hw).1.solid
  | const inner ih =>
    by_cases hnamed : ∃ name, inner = named name
    · obtain ⟨name, rfl⟩ := hnamed
      rw [text, String.toList_append]
      exact hconst.append [' '] (ih h.2)
    · rw [text_const_of_ne_named fun name heq => hnamed ⟨name, heq⟩, String.toList_append]
      exact (ih h.2).append [' '] hconst
  | pointer inner ih | lref inner ih =>
    rw [text, String.toList_append]
    exact (ih h).append [] (solid_symbol (by decide))
  | rref inner ih =>
    rw [text, String.toList_append]
    exact (ih h).append ['&'] (solid_symbol (by decide))

/-- **The spelling of a type is made of few kinds of characters.** -/
theorem isSpellingChar_of_mem_text {type : Ty} (h : type.Spelled) :
    ∀ c ∈ type.text.toList, isSpellingChar c = true := by
  induction type with
  | named name =>
    obtain ⟨words, _, hwords, hname⟩ := h
    rw [text, hname]
    exact forall_mem_intercalate (List.all_eq_true.mp (by decide)) fun w hw =>
      (hwords w hw).1.isSpellingChar
  | const inner ih =>
    by_cases hnamed : ∃ name, inner = named name
    · obtain ⟨name, rfl⟩ := hnamed
      rw [text, String.toList_append]
      exact List.forall_mem_append.mpr ⟨List.all_eq_true.mp (by decide), ih h.2⟩
    · rw [text_const_of_ne_named fun name heq => hnamed ⟨name, heq⟩, String.toList_append]
      exact List.forall_mem_append.mpr ⟨ih h.2, List.all_eq_true.mp (by decide)⟩
  | pointer inner ih | lref inner ih | rref inner ih =>
    rw [text, String.toList_append]
    exact List.forall_mem_append.mpr ⟨ih h, List.all_eq_true.mp (by decide)⟩

end Ty

/-! ## 2. Joining and cutting -/

namespace Text

/-- **A list joined by commas and blanks is cut into its texts**, with the blanks in front of all but
    the first. -/
theorem pieces_intercalate {text : List Char} : ∀ {texts : List (List Char)},
    (∀ t ∈ text :: texts, ',' ∉ t) →
    pieces ',' ([',', ' '].intercalate (text :: texts)) = text :: texts.map (' ' :: ·)
  | [], h => by
      rw [List.intercalate_singleton]
      exact pieces_of_not_mem (h text List.mem_cons_self)
  | next :: texts, h => by
      obtain ⟨htext, htexts⟩ := List.forall_mem_cons.mp h
      have ih := pieces_intercalate htexts
      have hblank : pieces ',' (' ' :: [',', ' '].intercalate (next :: texts)) =
          (' ' :: next) :: texts.map (' ' :: ·) := by
        rw [pieces, ih]
        rfl
      rw [List.intercalate_cons_cons, List.append_assoc, List.cons_append, pieces_append htext,
        List.singleton_append, hblank]
      rfl

end Text

/-! ## 3. Reading a signature -/

namespace MemberPath

/-- The parameter list of a signature without its parentheses. -/
def paramsText (params : List Ty) : List Char :=
  [',', ' '].intercalate (params.map fun type => type.text.toList)

/-- What stands behind a signature's parameter list. -/
def constText (isConst : Bool) : List Char := if isConst then ' ' :: Ty.constWord else []

theorem toList_signatureText (s : Signature) :
    s.text.toList = '(' :: paramsText s.params ++ ')' :: constText s.isConst := by
  cases hconst : s.isConst <;>
    simp [Signature.text, paramsText, constText, hconst, String.toList_intercalate, Ty.constWord,
      Function.comp_def]

variable {params : List Ty}

theorem forall_mem_paramsText {p : Char → Prop} (hcomma : p ',')
    (hchar : ∀ c, Ty.isSpellingChar c = true → p c) (h : ∀ type ∈ params, type.Spelled) :
    ∀ c ∈ paramsText params, p c := by
  have hblank : p ' ' := hchar ' ' (by decide)
  refine forall_mem_intercalate (by simp [hcomma, hblank]) fun text htext => ?_
  obtain ⟨type, htype, rfl⟩ := List.mem_map.mp htext
  exact fun c hc => hchar c (Ty.isSpellingChar_of_mem_text (h type htype) c hc)

theorem solid_paramsText (hne : params ≠ []) (h : ∀ type ∈ params, type.Spelled) :
    Solid (paramsText params) := by
  refine Solid.intercalate (fun hnil => hne (List.map_eq_nil_iff.mp hnil)) fun text htext => ?_
  obtain ⟨type, htype, rfl⟩ := List.mem_map.mp htext
  exact Ty.solid_text (h type htype)

/-- **A signature behind a member is cut into its parameter list and `const`.** -/
theorem readTail_text {s : Signature} (h : ∀ type ∈ s.params, type.Spelled) :
    readTail s.text.toList = some (some (paramsText s.params, s.isConst)) := by
  have hinside : ∀ c ∈ paramsText s.params, (c != '(' && c != ')') = true := by
    refine forall_mem_paramsText (by decide) (fun c hc => ?_) h
    rw [Bool.and_eq_true, bne_iff_ne, bne_iff_ne]
    constructor <;> rintro rfl <;> exact absurd hc (by decide)
  have hclosing : Stops (fun c => c != '(' && c != ')') (')' :: constText s.isConst) :=
    stops_cons.mpr (by decide)
  rw [toList_signatureText, readTail, List.cons_append, dropBlanks_cons_solid (by decide)]
  simp only [dropWhile_append_of_stops hinside hclosing, takeWhile_append_of_stops hinside hclosing]
  cases s.isConst <;> rfl

/-- A blank in front of a type does not count. -/
theorem ofChars?_blank (cs : List Char) : Ty.ofChars? (' ' :: cs) = Ty.ofChars? cs := by
  rw [Ty.ofChars?, Ty.readWords, Ty.splitWords_blank]
  rfl

theorem parse_ofList {cs : List Char} {type : Ty} (h : Ty.ofChars? cs = some type) :
    Ty.parse (String.ofList cs) = .ok type := by
  rw [Ty.parse_eq_ok, Ty.ofText?, String.toList_ofList, h]

theorem eq_named_of_reread {type : Ty} {name : String} (h : type.reread = .named name) :
    type = .named name := by
  cases type with
  | named _ => exact h
  | pointer _ => cases h
  | const inner =>
    rw [Ty.reread] at h
    cases hinner : inner.reread <;> rw [hinner] at h <;> cases h
  | lref inner =>
    rw [Ty.reread] at h
    cases hinner : inner.reread <;> rw [hinner] at h <;> cases h
  | rref inner =>
    rw [Ty.reread] at h
    cases hinner : inner.reread <;> rw [hinner] at h <;> cases h

/-- Only a single parameter `void` is spelled `void`. -/
theorem paramsText_ne_void (h : ∀ type ∈ params, type.Spelled) (hvoid : params ≠ [.named "void"]) :
    paramsText params ≠ "void".toList := by
  intro htext
  match params, h, hvoid, htext with
  | [], _, _, htext => cases htext
  | [type], h, hvoid, htext =>
    rw [paramsText, List.map_singleton, List.intercalate_singleton] at htext
    have hread := Ty.ofChars?_text (h type List.mem_cons_self)
    rw [htext] at hread
    have hnamed : type.reread = .named "void" := Option.some.inj (hread.symm.trans rfl)
    exact hvoid (congrArg (fun t => [t]) (eq_named_of_reread hnamed))
  | type :: next :: types, _, _, htext =>
    have hcomma : ',' ∈ paramsText (type :: next :: types) := by
      rw [paramsText, List.map_cons, List.map_cons, List.intercalate_cons_cons]
      simp
    rw [htext] at hcomma
    exact absurd hcomma (by decide)

/-- A list of types that is joined by commas and blanks is read type by type. -/
theorem mapM_pieces_paramsText {type : Ty} {types : List Ty} (h : ∀ t ∈ type :: types, t.Spelled) :
    (pieces ',' (paramsText (type :: types))).mapM (fun piece => Ty.parse (String.ofList piece)) =
      .ok ((type :: types).map Ty.reread) := by
  have hcommas : ∀ text ∈ (type :: types).map (fun t => t.text.toList), ',' ∉ text := by
    intro text htext hmem
    obtain ⟨t, ht, rfl⟩ := List.mem_map.mp htext
    exact absurd (Ty.isSpellingChar_of_mem_text (h t ht) ',' hmem) (by decide)
  obtain ⟨htype, htypes⟩ := List.forall_mem_cons.mp h
  have hfirst : Ty.parse (String.ofList type.text.toList) = .ok type.reread :=
    parse_ofList (Ty.ofChars?_text htype)
  have hothers : ∀ t ∈ types,
      Ty.parse (String.ofList (' ' :: t.text.toList)) = pure t.reread := fun t ht =>
    parse_ofList ((ofChars?_blank _).trans (Ty.ofChars?_text (htypes t ht)))
  have hrest : ((types.map fun t => t.text.toList).map (' ' :: ·)).mapM
      (fun piece => Ty.parse (String.ofList piece)) = pure (types.map Ty.reread) := by
    simp only [List.mapM_map, Function.comp_def]
    exact mapM_eq_pure_map hothers
  rw [paramsText, List.map_cons, pieces_intercalate hcommas, List.mapM_cons, hfirst, hrest]
  rfl

/-- **A parameter list gives what each of its types is spelled as**; a single `void` gives none. -/
theorem readParams_text (h : ∀ type ∈ params, type.Spelled) :
    readParams (paramsText params) =
      .ok (if params = [.named "void"] then [] else params.map Ty.reread) := by
  by_cases hvoid : params = [.named "void"]
  · rw [hvoid]
    rfl
  · cases params with
    | nil => rfl
    | cons type types =>
      have hsolid := solid_paramsText (List.cons_ne_nil type types) h
      have hempty : ¬ ((paramsText (type :: types)).isEmpty ||
          paramsText (type :: types) == "void".toList) = true := by
        rw [Bool.or_eq_true, List.isEmpty_iff, beq_iff_eq]
        exact not_or.mpr ⟨hsolid.ne_nil, paramsText_ne_void h hvoid⟩
      rw [readParams, trim_eq_self hsolid.first hsolid.last, if_neg hvoid]
      exact (if_neg hempty).trans (mapM_pieces_paramsText h)

end MemberPath

end MemberRefs
