import MemberRefs.NameRange
import MemberRefs.Proofs.Tree.Tokens
import MemberRefs.Text.Blank

/-!
# Name ranges lie on tokens

The range of a name runs from the first to the last of some tokens in a row that stand inside the
extent of the declaration (`IsRun`), and it is known what these tokens spell (`Written`): the name of the
declaration, but for an operator only what stands behind the first word `operator`, which is not compared
with the name.

* `exists_run_of_ofTokens`: which tokens a range is made of.
* `nameRange_within`: ranges lie inside the extents, and extents that are apart have ranges that are.
* `nameRange_spells`: what the tokens of a range spell, which need not be the name of an operator
  (`nameRange_of_earlier_operator`).
-/

namespace MemberRefs.NameRange

open Text

variable {tokens run : List Token} {name : String} {range span : Span}

/-! ## 1. Runs of tokens -/

/-- The range runs from the first to the last of some tokens in a row. -/
structure IsRun (tokens run : List Token) (range : Span) : Prop where
  isInfix : run <:+: tokens
  first : ∃ first ∈ run.head?, first.span.start = range.start
  last : ∃ last ∈ run.getLast?, last.span.stop = range.stop

/-- What tokens spell, without blanks. -/
def spelled (tokens : List Token) : List Char :=
  tokens.flatMap fun token => removeBlanks token.spelling.toList

theorem IsRun.of_mem {token : Token} (h : token ∈ tokens) : IsRun tokens [token] token.span := by
  obtain ⟨before, after, rfl⟩ := List.append_of_mem h
  exact ⟨⟨before, after, by simp⟩, ⟨token, rfl, rfl⟩, ⟨token, rfl, rfl⟩⟩

theorem IsRun.cons {token : Token} (h : IsRun tokens run range) : IsRun (token :: tokens) run range :=
  ⟨List.infix_cons h.isInfix, h.first, h.last⟩

/-- In a stream in order the first token covers a run with the last one. -/
theorem IsRun.of_cover {first last : Token} {rest : List Token} (h : InOrder tokens)
    (hrun : first :: rest <:+: tokens) (hlast : last ∈ rest.getLast?) :
    IsRun tokens (first :: rest) (first.span.cover last.span) := by
  have hmem : last ∈ rest := List.mem_of_getLast? hlast
  obtain ⟨hstart, hstop⟩ :=
    (List.pairwise_cons.mp (h.sublist hrun.sublist)).1 last hmem
  refine ⟨hrun, ⟨first, rfl, ?_⟩, ⟨last, ?_, ?_⟩⟩
  · exact (if_pos hstart).symm
  · rw [List.getLast?_cons, Option.mem_def.mp hlast]
    rfl
  · exact (if_pos hstop).symm

/-! ## 2. What is found -/

/-- The tokens of an operator, behind the word `operator`. -/
def operatorTokens : List Token → List Token
  | first :: second :: rest =>
      if first.is "(" && second.is ")" then [first, second]
      else (first :: second :: rest).takeWhile fun t => !t.is "("
  | tokens => tokens.takeWhile fun t => !t.is "("

/-- What the first operator among the tokens spells, the word `operator` included. -/
def writtenOperator : List Token → List Char
  | [] => []
  | token :: rest =>
      if token.is "operator" then spelled (token :: operatorTokens rest) else writtenOperator rest

/-- **What is written in the place of a name**: the name, or for an operator the first one of all. -/
def Written (name : String) (tokens run : List Token) : Prop :=
  if Name.isOperator name then spelled run = writtenOperator tokens
  else spelled run = removeBlanks name.toList

theorem operatorEnd_eq : ∀ tokens : List Token,
    operatorEnd tokens = (operatorTokens tokens).getLast?
  | [] => rfl
  | [_] => rfl
  | first :: second :: rest => by
      rw [operatorEnd, operatorTokens]
      split <;> rfl

theorem operatorTokens_prefix (tokens : List Token) : operatorTokens tokens <+: tokens := by
  unfold operatorTokens
  split
  · rename_i first second rest
    split
    · exact List.prefix_append [first, second] rest
    · exact List.takeWhile_prefix _
  · exact List.takeWhile_prefix _

/-- An operator is found at the first word `operator`. -/
theorem exists_run_of_operatorRange (h : InOrder tokens) (hrange : operatorRange tokens = some range) :
    ∃ run, IsRun tokens run range ∧ spelled run = writtenOperator tokens := by
  induction tokens with
  | nil => cases hrange
  | cons token rest ih =>
    rw [operatorRange] at hrange
    by_cases hword : token.is "operator" = true
    · rw [if_pos hword, operatorEnd_eq] at hrange
      obtain ⟨last, hlast, rfl⟩ := Option.map_eq_some_iff.mp hrange
      have hprefix : token :: operatorTokens rest <+: token :: rest :=
        List.cons_prefix_cons.mpr ⟨rfl, operatorTokens_prefix rest⟩
      exact ⟨_, .of_cover h hprefix.isInfix hlast, (if_pos hword).symm⟩
    · rw [if_neg hword] at hrange
      obtain ⟨run, hrun, hspelled⟩ := ih (List.pairwise_cons.mp h).2 hrange
      exact ⟨run, hrun.cons, hspelled.trans (if_neg hword).symm⟩

/-- A destructor is found at a `~` and the class name behind it. -/
theorem exists_run_of_destructorRange {owner : List Char} (h : InOrder tokens)
    (hrange : destructorRange (String.ofList owner) tokens = some range) :
    ∃ run, IsRun tokens run range ∧ spelled run = removeBlanks ('~' :: owner) := by
  induction tokens with
  | nil => cases hrange
  | cons first rest ih =>
    cases rest with
    | nil => cases hrange
    | cons second rest =>
      rw [destructorRange] at hrange
      split at hrange
      · rename_i hboth
        cases hrange
        obtain ⟨hkind, hname⟩ := Bool.and_eq_true_iff.mp hboth
        obtain ⟨htilde, _⟩ := Bool.and_eq_true_iff.mp hkind
        have hprefix : [first, second] <+: first :: second :: rest :=
          List.prefix_append [first, second] rest
        refine ⟨_, .of_cover h hprefix.isInfix rfl, ?_⟩
        have hfirst : first.spelling.toList = ['~'] := by
          rw [beq_iff_eq.mp htilde]
          rfl
        have hsecond : second.spelling.toList = owner := by
          rw [beq_iff_eq.mp hname, String.toList_ofList]
        simp only [spelled, List.flatMap_cons, List.flatMap_nil, List.append_nil, hfirst, hsecond]
        exact (List.filter_append ['~'] owner).symm
      · obtain ⟨run, hrun, hspelled⟩ := ih (List.pairwise_cons.mp h).2 hrange
        exact ⟨run, hrun.cons, hspelled⟩

/-- A token spelled like the name is what makes a name token. -/
theorem spelling_of_isNameToken {token : Token} {next : Option Token}
    (h : isNameToken name token next = true) : token.spelling = name :=
  beq_iff_eq.mp (Bool.and_eq_true_iff.mp (Bool.and_eq_true_iff.mp h).1).2

theorem exists_of_lastBeforeBoundary {depth : Nat} {found : Option Span}
    (h : lastBeforeBoundary name depth found tokens = some range) :
    found = some range ∨ ∃ token ∈ tokens, token.spelling = name ∧ token.span = range := by
  induction tokens generalizing depth found with
  | nil => exact Or.inl h
  | cons token rest ih =>
    have hlater : ∀ {depth found}, lastBeforeBoundary name depth found rest = some range →
        found = some range ∨ ∃ t ∈ token :: rest, t.spelling = name ∧ t.span = range := by
      intro depth found hrest
      exact (ih hrest).imp_right fun ⟨t, ht, hfound⟩ => ⟨t, List.mem_cons_of_mem _ ht, hfound⟩
    rw [lastBeforeBoundary] at h
    split at h
    · exact Or.inl h
    · split at h
      · exact hlater h
      · split at h
        · rename_i hname
          rcases hlater h with hfound | hfound
          · exact Or.inr ⟨token, List.mem_cons_self, spelling_of_isNameToken hname,
              Option.some.inj hfound⟩
          · exact Or.inr hfound
        · exact hlater h

theorem exists_of_firstName (h : firstName name tokens = some range) :
    ∃ token ∈ tokens, token.spelling = name ∧ token.span = range := by
  induction tokens with
  | nil => cases h
  | cons token rest ih =>
    rw [firstName] at h
    split at h
    · rename_i hname
      exact ⟨token, List.mem_cons_self, spelling_of_isNameToken hname, Option.some.inj h⟩
    · obtain ⟨t, ht, hfound⟩ := ih h
      exact ⟨t, List.mem_cons_of_mem _ ht, hfound⟩

/-- A plain name is found at a token that is spelled like it. -/
theorem exists_run_of_identifierRange (hrange : identifierRange name tokens = some range) :
    ∃ run, IsRun tokens run range ∧ spelled run = removeBlanks name.toList := by
  have htoken : ∃ token ∈ tokens, token.spelling = name ∧ token.span = range := by
    rw [identifierRange] at hrange
    rcases Option.or_eq_some_iff.mp hrange with hlast | ⟨_, hfirst⟩
    · exact (exists_of_lastBeforeBoundary hlast).resolve_left fun h => by cases h
    · exact exists_of_firstName hfirst
  obtain ⟨token, hmem, rfl, rfl⟩ := htoken
  exact ⟨[token], .of_mem hmem, List.append_nil _⟩

/-- **A range is made of tokens in a row**, and it is known what they spell. -/
theorem exists_run_of_ofTokens (h : InOrder tokens) (hrange : ofTokens name tokens = some range) :
    ∃ run, IsRun tokens run range ∧ Written name tokens run := by
  unfold ofTokens at hrange
  split at hrange
  · rename_i hoperator
    obtain ⟨run, hrun, hspelled⟩ := exists_run_of_operatorRange h hrange
    exact ⟨run, hrun, by rwa [Written, if_pos hoperator]⟩
  · rename_i hoperator
    have hnamed : ∃ run, IsRun tokens run range ∧ spelled run = removeBlanks name.toList := by
      split at hrange
      · rename_i owner hname
        rw [hname]
        exact exists_run_of_destructorRange h hrange
      · exact exists_run_of_identifierRange hrange
    obtain ⟨run, hrun, hspelled⟩ := hnamed
    exact ⟨run, hrun, by rwa [Written, if_neg hoperator]⟩

/-! ## 3. Code inside a span -/

/-- No token is empty. -/
def NonEmpty (tokens : List Token) : Prop := ∀ token ∈ tokens, token.span.start < token.span.stop

/-- No token is empty, and each one begins where the one before ends or behind it. -/
structure Apart (tokens : List Token) : Prop where
  nonEmpty : NonEmpty tokens
  pairwise : tokens.Pairwise fun a b => a.span.stop ≤ b.span.start

instance (tokens : List Token) : Decidable (NonEmpty tokens) :=
  inferInstanceAs (Decidable (∀ token ∈ tokens, _))

instance (tokens : List Token) : Decidable (Apart tokens) :=
  decidable_of_iff (NonEmpty tokens ∧ tokens.Pairwise fun a b => a.span.stop ≤ b.span.start)
    ⟨fun h => ⟨h.1, h.2⟩, fun h => ⟨h.nonEmpty, h.pairwise⟩⟩

theorem Apart.inOrder (h : Apart tokens) : InOrder tokens := by
  refine h.pairwise.imp_of_mem fun {a b} ha hb hab => ⟨?_, ?_⟩
  · exact Location.le_trans (Location.le_of_lt (h.nonEmpty a ha)) hab
  · exact Location.le_trans hab (Location.le_of_lt (h.nonEmpty b hb))

theorem codeIn_eq_filter (h : InOrder tokens) (span : Span) : codeIn tokens span =
    tokens.filter fun token => decide (token.Inside span) && token.kind != .comment := by
  rw [codeIn, tokensIn_eq_filter h, List.filter_filter]
  simp only [Bool.and_comm]

theorem codeIn_sublist (h : InOrder tokens) (span : Span) : (codeIn tokens span).Sublist tokens := by
  rw [codeIn_eq_filter h]
  exact List.filter_sublist

theorem mem_codeIn (h : InOrder tokens) {token : Token} :
    token ∈ codeIn tokens span ↔ token ∈ tokens ∧ token.kind ≠ .comment ∧ token.Inside span := by
  rw [codeIn_eq_filter h, List.mem_filter]
  simp [and_comm]

/-- **The range of a declaration is made of code inside its extent.** -/
theorem exists_run_of_ofDecl (h : InOrder tokens) {decl : Decl}
    (hrange : ofDecl tokens decl = .ok range) : ∃ name run, decl.name? = some name ∧
      IsRun (codeIn tokens decl.extent) run range ∧
        Written name.val (codeIn tokens decl.extent) run := by
  unfold ofDecl at hrange
  split at hrange
  · rename_i found hfound
    cases hrange
    obtain ⟨name, hname, htokens⟩ := Option.bind_eq_some_iff.mp hfound
    obtain ⟨run, hrun, hwritten⟩ :=
      exists_run_of_ofTokens (h.sublist (codeIn_sublist h decl.extent)) htokens
    exact ⟨name, run, hname, hrun, hwritten⟩
  · cases hrange

/-- A declaration has a range, or else the failure says what is missing where. -/
theorem eq_of_ofDecl_error {decl : Decl} {e : PlacedError} (h : ofDecl tokens decl = .error e) :
    e = ⟨.noIdentifierToken decl.kind decl.shownName, decl.extent⟩ := by
  unfold ofDecl at h
  split at h
  · cases h
  · cases h
    rfl

/-! ## 4. Ranges lie inside extents -/

/-- The tokens of a run are inside its range. -/
theorem IsRun.inside (h : InOrder tokens) (hrun : IsRun tokens run range) :
    ∀ token ∈ run, token.Inside range := by
  intro token htoken
  have hordered : InOrder run := h.sublist hrun.isInfix.sublist
  obtain ⟨first, hfirst, hstart⟩ := hrun.first
  obtain ⟨last, hlast, hstop⟩ := hrun.last
  constructor
  · obtain ⟨rest, rfl⟩ := List.head?_eq_some_iff.mp hfirst
    rw [← hstart]
    rcases List.mem_cons.mp htoken with rfl | hrest
    · exact Location.le_refl _
    · exact ((List.pairwise_cons.mp hordered).1 token hrest).1
  · obtain ⟨front, rfl⟩ := List.getLast?_eq_some_iff.mp hlast
    rw [← hstop]
    rcases List.mem_append.mp htoken with hfront | hend
    · exact ((List.pairwise_append.mp hordered).2.2 token hfront last (List.mem_singleton_self _)).2
    · rw [List.mem_singleton.mp hend]
      exact Location.le_refl _

/-- A run ends behind its start. -/
theorem IsRun.start_lt_stop (h : InOrder tokens) (hnonEmpty : NonEmpty tokens)
    (hrun : IsRun tokens run range) : range.start < range.stop := by
  obtain ⟨first, hfirst, hstart⟩ := hrun.first
  have hmem : first ∈ run := List.mem_of_head? hfirst
  rw [← hstart]
  exact Location.lt_of_lt_of_le (hnonEmpty first (hrun.isInfix.subset hmem))
    (hrun.inside h first hmem).2

/-- The code in the extent at which a range starts and the one at which it ends. -/
theorem exists_ends_of_ofDecl (h : InOrder tokens) {decl : Decl}
    (hrange : ofDecl tokens decl = .ok range) :
    (∃ token ∈ tokens, token.kind ≠ .comment ∧ token.Inside decl.extent ∧
      token.span.start = range.start) ∧
    ∃ token ∈ tokens, token.kind ≠ .comment ∧ token.Inside decl.extent ∧
      token.span.stop = range.stop := by
  obtain ⟨_, run, _, hrun, _⟩ := exists_run_of_ofDecl h hrange
  obtain ⟨first, hfirst, hstart⟩ := hrun.first
  obtain ⟨last, hlast, hstop⟩ := hrun.last
  obtain ⟨hmem, hcode, hinside⟩ := (mem_codeIn h).mp (hrun.isInfix.subset (List.mem_of_head? hfirst))
  obtain ⟨hmem', hcode', hinside'⟩ :=
    (mem_codeIn h).mp (hrun.isInfix.subset (List.mem_of_getLast? hlast))
  exact ⟨⟨first, hmem, hcode, hinside, hstart⟩, ⟨last, hmem', hcode', hinside', hstop⟩⟩

/-- A range is not empty and lies inside the extent. -/
theorem bounds_of_ofDecl (hnonEmpty : NonEmpty tokens) (h : InOrder tokens) {decl : Decl}
    (hrange : ofDecl tokens decl = .ok range) : decl.extent.start ≤ range.start ∧
      range.start < range.stop ∧ range.stop ≤ decl.extent.stop := by
  obtain ⟨_, run, _, hrun, _⟩ := exists_run_of_ofDecl h hrange
  obtain ⟨⟨first, _, _, hfirst, hstart⟩, ⟨last, _, _, hlast, hstop⟩⟩ := exists_ends_of_ofDecl h hrange
  have hsub := codeIn_sublist h decl.extent
  have hlt := hrun.start_lt_stop (h.sublist hsub) fun token ht => hnonEmpty token (hsub.subset ht)
  exact ⟨hstart ▸ hfirst.1, hlt, hstop ▸ hlast.2⟩

/-- **Name ranges lie in their declarations.** In a stream of tokens in order that are not empty, the
    range of a name is not empty and lies inside the extent; it starts where some code in the extent
    starts, and ends where some code in the extent ends. So of two declarations, one of which ends before
    the other starts, the name ranges are in the same order and do not overlap. -/
theorem nameRange_within (hnonEmpty : NonEmpty tokens) (h : InOrder tokens) :
    (∀ decl range, ofDecl tokens decl = .ok range →
      (decl.extent.start ≤ range.start ∧ range.start < range.stop ∧
        range.stop ≤ decl.extent.stop) ∧
      (∃ token ∈ tokens, token.kind ≠ .comment ∧ token.Inside decl.extent ∧
        token.span.start = range.start) ∧
      ∃ token ∈ tokens, token.kind ≠ .comment ∧ token.Inside decl.extent ∧
        token.span.stop = range.stop) ∧
    ∀ decl decl' range range', ofDecl tokens decl = .ok range → ofDecl tokens decl' = .ok range' →
      decl.extent.stop ≤ decl'.extent.start → range.start < range.stop ∧
        range.stop ≤ range'.start ∧ range'.start < range'.stop := by
  refine ⟨fun decl range hrange =>
    ⟨bounds_of_ofDecl hnonEmpty h hrange, exists_ends_of_ofDecl h hrange⟩, ?_⟩
  intro decl decl' range range' hrange hrange' hextents
  obtain ⟨_, hlt, hstop⟩ := bounds_of_ofDecl hnonEmpty h hrange
  obtain ⟨hstart, hlt', _⟩ := bounds_of_ofDecl hnonEmpty h hrange'
  exact ⟨hlt, Location.le_trans hstop (Location.le_trans hextents hstart), hlt'⟩

/-- Words on one line, with a blank between them. -/
def onLine : Nat → List (TokenKind × String) → List Token
  | _, [] => []
  | column, (kind, word) :: rest =>
      let stop := column + word.length
      ⟨kind, word, ⟨⟨0, column⟩, ⟨0, stop⟩⟩⟩ :: onLine (stop + 1) rest

/-- A function that is declared between two columns of the line. -/
def declaredAt (name : String) (start stop : Nat) : Decl :=
  .ofFunc ⟨none, ⟨name, default⟩, [], none, false, false, false, none, ⟨⟨0, start⟩, ⟨0, stop⟩⟩⟩

/-- Two functions of one name, `int run ( ) ; int run ( ) const ;`. -/
def overloads : List Token :=
  onLine 0 [(.keyword, "int"), (.identifier, "run"), (.punctuation, "("), (.punctuation, ")"),
    (.punctuation, ";"), (.keyword, "int"), (.identifier, "run"), (.punctuation, "("),
    (.punctuation, ")"), (.keyword, "const"), (.punctuation, ";")]

/-- The two overloads are told apart. -/
theorem nameRange_within_overloads : NonEmpty overloads ∧ InOrder overloads ∧
    ofDecl overloads (declaredAt "run" 0 13) = .ok ⟨⟨0, 4⟩, ⟨0, 7⟩⟩ ∧
    ofDecl overloads (declaredAt "run" 14 33) = .ok ⟨⟨0, 18⟩, ⟨0, 21⟩⟩ ∧
    (∃ token ∈ overloads, token.kind ≠ .comment ∧ token.Inside ⟨⟨0, 14⟩, ⟨0, 33⟩⟩ ∧
      token.span.start = ⟨0, 18⟩) ∧
    (⟨0, 7⟩ : Location) ≤ ⟨0, 18⟩ := by
  have hnonEmpty : NonEmpty overloads := by decide
  have horder : InOrder overloads := by decide
  have hfirst : ofDecl overloads (declaredAt "run" 0 13) = .ok ⟨⟨0, 4⟩, ⟨0, 7⟩⟩ := by
    rw [ofDecl, codeIn_eq_filter horder]
    rfl
  have hsecond : ofDecl overloads (declaredAt "run" 14 33) = .ok ⟨⟨0, 18⟩, ⟨0, 21⟩⟩ := by
    rw [ofDecl, codeIn_eq_filter horder]
    rfl
  obtain ⟨hwithin, happart⟩ := nameRange_within hnonEmpty horder
  exact ⟨hnonEmpty, horder, hfirst, hsecond, (hwithin _ _ hsecond).2.1,
    (happart _ _ _ _ hfirst hsecond (by decide)).2.1⟩

/-! ## 5. What a range spells -/

/-- What the code inside a span spells, without blanks. -/
def spelledIn (tokens : List Token) (span : Span) : List Char :=
  spelled (tokens.filter fun token => decide (token.Inside span) && token.kind != .comment)

/-- **Where tokens do not overlap, those inside the range of a run are the run.** -/
theorem IsRun.filter_inside (h : Apart tokens) (hrun : IsRun tokens run range) :
    (tokens.filter fun token => decide (token.Inside range)) = run := by
  have hinside := hrun.inside h.inOrder
  obtain ⟨first, hfirst, hstart⟩ := hrun.first
  obtain ⟨last, hlast, hstop⟩ := hrun.last
  obtain ⟨before, after, rfl⟩ := hrun.isInfix
  obtain ⟨hfront, _, hfrontAfter⟩ := List.pairwise_append.mp h.pairwise
  obtain ⟨_, _, hbeforeRun⟩ := List.pairwise_append.mp hfront
  have hbefore : before.filter (fun token => decide (token.Inside range)) = [] := by
    refine List.filter_eq_nil_iff.mpr fun token htoken hin => ?_
    have hle := hbeforeRun token htoken first (List.mem_of_head? hfirst)
    have hlt := h.nonEmpty token (List.mem_append_left _ (List.mem_append_left _ htoken))
    have hback : token.span.stop ≤ token.span.start :=
      Location.le_trans (hstart ▸ hle) (of_decide_eq_true hin).1
    exact Location.not_le.mpr hlt hback
  have hafter : after.filter (fun token => decide (token.Inside range)) = [] := by
    refine List.filter_eq_nil_iff.mpr fun token htoken hin => ?_
    have hle := hfrontAfter last (List.mem_append_right _ (List.mem_of_getLast? hlast)) token htoken
    have hlt := h.nonEmpty token (List.mem_append_right _ htoken)
    have hback : token.span.stop ≤ token.span.start :=
      Location.le_trans (of_decide_eq_true hin).2 (hstop ▸ hle)
    exact Location.not_le.mpr hlt hback
  rw [List.filter_append, List.filter_append, hbefore, hafter, List.nil_append, List.append_nil]
  exact List.filter_eq_self.mpr fun token htoken => decide_eq_true (hinside token htoken)

/-- The code inside a span that lies in another one is found among the code of that one. -/
theorem filter_codeIn (h : InOrder tokens) (hstart : span.start ≤ range.start)
    (hstop : range.stop ≤ span.stop) :
    (codeIn tokens span).filter (fun token => decide (token.Inside range)) =
      tokens.filter fun token => decide (token.Inside range) && token.kind != .comment := by
  rw [codeIn_eq_filter h, List.filter_filter]
  refine List.filter_congr fun token _ => ?_
  by_cases hin : token.Inside range
  · have hspan : token.Inside span :=
      ⟨Location.le_trans hstart hin.1, Location.le_trans hin.2 hstop⟩
    rw [decide_eq_true hin, decide_eq_true hspan]
    rfl
  · rw [decide_eq_false hin]
    rfl

/-- The range of a declaration spells what is written in the place of the name. -/
theorem spelledIn_of_ofDecl (h : Apart tokens) {decl : Decl}
    (hrange : ofDecl tokens decl = .ok range) : ∃ name run, decl.name? = some name ∧
      spelledIn tokens range = spelled run ∧ Written name.val (codeIn tokens decl.extent) run := by
  obtain ⟨name, run, hname, hrun, hwritten⟩ := exists_run_of_ofDecl h.inOrder hrange
  have hsub := codeIn_sublist h.inOrder decl.extent
  have hcode : Apart (codeIn tokens decl.extent) :=
    ⟨fun token htoken => h.nonEmpty token (hsub.subset htoken), h.pairwise.sublist hsub⟩
  obtain ⟨hstart, _, hstop⟩ := bounds_of_ofDecl h.nonEmpty h.inOrder hrange
  refine ⟨name, run, hname, ?_, hwritten⟩
  rw [spelledIn, ← filter_codeIn h.inOrder hstart hstop, hrun.filter_inside hcode]

/-- **What a name range spells.** In a stream of tokens that are not empty and do not overlap, the range
    of a plain name or a destructor spells the name, and the range of an operator spells the first operator
    that is written in the extent. Where there is no range, the failure says so. -/
theorem nameRange_spells (h : Apart tokens) (decl : Decl) :
    (∀ range, ofDecl tokens decl = .ok range → ∃ name, decl.name? = some name ∧
      (Name.isOperator name.val = false → spelledIn tokens range = removeBlanks name.val.toList) ∧
      (Name.isOperator name.val = true →
        spelledIn tokens range = writtenOperator (codeIn tokens decl.extent))) ∧
    ∀ e, ofDecl tokens decl = .error e →
      e = ⟨.noIdentifierToken decl.kind decl.shownName, decl.extent⟩ := by
  refine ⟨fun range hrange => ?_, fun e => eq_of_ofDecl_error⟩
  obtain ⟨name, run, hname, hspelled, hwritten⟩ := spelledIn_of_ofDecl h hrange
  rw [Written] at hwritten
  refine ⟨name, hname, fun hplain => ?_, fun hoperator => ?_⟩
  · rw [if_neg (by rw [hplain]; exact Bool.false_ne_true)] at hwritten
    exact hspelled.trans hwritten
  · rw [if_pos hoperator] at hwritten
    exact hspelled.trans hwritten

/-- A function with another operator in its result type,
    `decltype ( operator + ( a ) ) operator - ( )`. -/
def operatorResult : List Token :=
  onLine 0 [(.keyword, "decltype"), (.punctuation, "("), (.keyword, "operator"), (.punctuation, "+"),
    (.punctuation, "("), (.identifier, "a"), (.punctuation, ")"), (.punctuation, ")"),
    (.keyword, "operator"), (.punctuation, "-"), (.punctuation, "("), (.punctuation, ")")]

/-- The range of `operator-` spells what is written first, and that is the other operator. -/
theorem nameRange_spells_operatorResult : Apart operatorResult ∧
    ofDecl operatorResult (declaredAt "operator-" 0 44) = .ok ⟨⟨0, 11⟩, ⟨0, 21⟩⟩ ∧
    spelledIn operatorResult ⟨⟨0, 11⟩, ⟨0, 21⟩⟩ = "operator+".toList := by
  have happart : Apart operatorResult := by decide
  have hrange : ofDecl operatorResult (declaredAt "operator-" 0 44) = .ok ⟨⟨0, 11⟩, ⟨0, 21⟩⟩ := by
    rw [ofDecl, codeIn_eq_filter happart.inOrder]
    rfl
  obtain ⟨name, hname, _, hoperator⟩ := (nameRange_spells happart _).1 _ hrange
  cases hname
  refine ⟨happart, hrange, (hoperator (by decide)).trans ?_⟩
  rw [codeIn_eq_filter happart.inOrder]
  decide

/-- **A range may spell another name**: the first word `operator` is not always that of the name. -/
theorem nameRange_of_earlier_operator : Apart operatorResult ∧
    ∃ range, ofDecl operatorResult (declaredAt "operator-" 0 44) = .ok range ∧
      spelledIn operatorResult range ≠ removeBlanks "operator-".toList := by
  have happart : Apart operatorResult := by decide
  refine ⟨happart, ⟨⟨0, 11⟩, ⟨0, 21⟩⟩, ?_, by decide⟩
  rw [ofDecl, codeIn_eq_filter happart.inOrder]
  rfl

end MemberRefs.NameRange
