import MemberRefs.Proofs.NameRange

/-!
# Comments do not move names

Where a name stands is decided by the code alone. The search for the tokens inside an extent sees the
comments of a stream, but as long as the stream is in order it cuts the same code out of it with them and
without them.

* `codeIn_eq_filter_code`: the code inside a span is picked out of the code of the stream.
* `ofDecl_of_code_eq`: streams with the same code have the same name ranges.
* `nameRange_ignores_comments`: comments that are taken away or added change nothing.
-/

namespace MemberRefs.NameRange

variable {tokens tokens' fewer : List Token}

/-- The tokens of a stream that are no comments. -/
def code (tokens : List Token) : List Token := tokens.filter fun token => token.kind != .comment

variable {token : Token}

theorem code_cons_of_comment (h : token.kind = .comment) : code (token :: tokens) = code tokens :=
  List.filter_cons_of_neg (by simp [h])

theorem code_cons_of_ne_comment (h : token.kind ≠ .comment) :
    code (token :: tokens) = token :: code tokens :=
  List.filter_cons_of_pos (by simp [h])

/-- **The second stream is the first one without some of its comments**, which may be all of them, or
    none. -/
inductive Uncommented : List Token → List Token → Prop
  | nil : Uncommented [] []
  | keep (token : Token) {tokens fewer : List Token} (h : Uncommented tokens fewer) :
      Uncommented (token :: tokens) (token :: fewer)
  | drop {token : Token} {tokens fewer : List Token} (hcomment : token.kind = .comment)
      (h : Uncommented tokens fewer) : Uncommented (token :: tokens) fewer

theorem Uncommented.sublist (h : Uncommented tokens fewer) : fewer.Sublist tokens := by
  induction h with
  | nil => exact .slnil
  | keep token _ ih => exact ih.cons_cons token
  | drop _ _ ih => exact ih.cons _

/-- All of the code is left. -/
theorem Uncommented.code_eq (h : Uncommented tokens fewer) : code fewer = code tokens := by
  induction h with
  | nil => rfl
  | keep token _ ih =>
    by_cases hcomment : token.kind = .comment
    · rw [code_cons_of_comment hcomment, code_cons_of_comment hcomment, ih]
    · rw [code_cons_of_ne_comment hcomment, code_cons_of_ne_comment hcomment, ih]
  | drop hcomment _ ih => rw [code_cons_of_comment hcomment, ih]

/-- The code inside a span is picked out of the code of the stream. -/
theorem codeIn_eq_filter_code (h : InOrder tokens) (span : Span) :
    codeIn tokens span = (code tokens).filter fun token => decide (token.Inside span) := by
  rw [codeIn_eq_filter h, code, List.filter_filter]

/-- **Streams with the same code have the same name ranges**, and the same declarations without one. -/
theorem ofDecl_of_code_eq (h : InOrder tokens) (h' : InOrder tokens') (hcode : code tokens' = code tokens)
    (decl : Decl) : ofDecl tokens' decl = ofDecl tokens decl := by
  have hinside : codeIn tokens' decl.extent = codeIn tokens decl.extent := by
    rw [codeIn_eq_filter_code h', codeIn_eq_filter_code h, hcode]
  rw [ofDecl, ofDecl, hinside]

/-- **Comments do not move names.** In a stream of tokens in order the range of the name of a declaration,
    or the failure to find it, is what it is in the stream without any of its comments, and it is what it is
    in any stream in order that has comments in addition. -/
theorem nameRange_ignores_comments (h : InOrder tokens) (decl : Decl) :
    (∀ fewer, Uncommented tokens fewer → ofDecl fewer decl = ofDecl tokens decl) ∧
    ∀ more, InOrder more → Uncommented more tokens → ofDecl more decl = ofDecl tokens decl := by
  constructor
  · intro fewer hfewer
    exact ofDecl_of_code_eq h (h.sublist hfewer.sublist) hfewer.code_eq decl
  · intro more hmore hless
    exact ofDecl_of_code_eq h hmore hless.code_eq.symm decl

/-- A destructor with a comment between its tokens, `~ /**/ Row ( )`. -/
def commentedDestructor : List Token :=
  onLine 0 [(.punctuation, "~"), (.comment, "/**/"), (.identifier, "Row"), (.punctuation, "("),
    (.punctuation, ")")]

/-- The destructor is found across the comment. -/
theorem nameRange_commentedDestructor : InOrder commentedDestructor ∧
    Uncommented commentedDestructor (code commentedDestructor) ∧
    ofDecl commentedDestructor (declaredAt "~Row" 0 14) = .ok ⟨⟨0, 0⟩, ⟨0, 10⟩⟩ ∧
    ofDecl (code commentedDestructor) (declaredAt "~Row" 0 14) = .ok ⟨⟨0, 0⟩, ⟨0, 10⟩⟩ := by
  have h : InOrder commentedDestructor := by decide
  have hless : Uncommented commentedDestructor (code commentedDestructor) :=
    .keep _ (.drop rfl (.keep _ (.keep _ (.keep _ .nil))))
  have hrange : ofDecl commentedDestructor (declaredAt "~Row" 0 14) = .ok ⟨⟨0, 0⟩, ⟨0, 10⟩⟩ := by
    rw [ofDecl, codeIn_eq_filter h]
    rfl
  refine ⟨h, hless, hrange, ?_⟩
  rw [(nameRange_ignores_comments h _).1 _ hless]
  exact hrange

end MemberRefs.NameRange
