import Mathlib.Data.List.TakeWhile
import MemberRefs.Tree.Token

/-!
# Tokens inside a span

The two binary searches cut the right tokens out of a stream whose tokens start and end in source order:
all of those inside the span, and no others.

* `boundary_eq`: a binary search finds where the items before the boundary end.
* `boundary_le_length`: whatever the items are, it finds a place among them or right behind.
* `tokensIn_eq_filter`: what is cut out of a stream.
* `tokensIn_exact`: the cut as a whole, with its two places.
-/

namespace MemberRefs

/-! ## 1. Binary search -/

section Search

variable {α : Type} {before inside : α → Bool} {items : List α}

/-- The items that lie before a boundary come first. -/
def Leading (before : α → Bool) (items : List α) : Prop :=
  items.Pairwise fun a b => before b = true → before a = true

/-- Where the items before a boundary come first, they are known by their places. -/
theorem any_getElem?_iff (h : Leading before items) (i : Nat) :
    (items[i]?).any before = true ↔ i < (items.takeWhile before).length := by
  induction items generalizing i with
  | nil => simp
  | cons a items ih =>
    obtain ⟨ha, hitems⟩ := List.pairwise_cons.mp h
    by_cases hbefore : before a = true
    · rw [List.takeWhile_cons_of_pos hbefore]
      cases i with
      | zero => simp [hbefore]
      | succ i => simpa using ih hitems i
    · rw [List.takeWhile_cons_of_neg hbefore]
      refine iff_of_false (fun hany => ?_) (Nat.not_lt_zero i)
      obtain ⟨b, hb, hbb⟩ := (Option.any_eq_true _ _).mp hany
      cases i with
      | zero => exact hbefore (Option.some.inj hb ▸ hbb)
      | succ i => exact hbefore (ha b (List.mem_of_getElem? hb) hbb)

/-- **A step of the search keeps the boundary** between the place where it looks and the end of the
    items that it looks at. -/
theorem boundaryBetween_eq (h : Leading before items) (base size : Nat)
    (hbase : base ≤ (items.takeWhile before).length)
    (hsize : (items.takeWhile before).length ≤ base + size) :
    boundaryBetween before items base size = (items.takeWhile before).length := by
  fun_induction boundaryBetween before items base size with
  | case1 base size hle hany =>
    have hlt := (any_getElem?_iff h base).mp hany
    omega
  | case2 base size hle hany =>
    have hlt := mt (any_getElem?_iff h base).mpr hany
    omega
  | case3 base size hgt half mid ih =>
    refine ih ?_ ?_
    · split
      · rename_i hany
        exact Nat.le_of_lt ((any_getElem?_iff h mid).mp hany)
      · exact hbase
    · split
      · omega
      · rename_i hany
        have hlt := mt (any_getElem?_iff h mid).mpr hany
        omega

/-- **A binary search finds where the items before the boundary end.** -/
theorem boundary_eq (h : Leading before items) :
    boundary before items = (items.takeWhile before).length := by
  refine boundaryBetween_eq h 0 items.length (Nat.zero_le _) ?_
  rw [Nat.zero_add]
  exact (List.takeWhile_sublist before).length_le

theorem lt_length_of_any {i : Nat} (h : (items[i]?).any before = true) : i < items.length := by
  obtain ⟨a, ha, _⟩ := (Option.any_eq_true _ _).mp h
  exact (List.getElem?_eq_some_iff.mp ha).1

/-- A step of the search looks at a place of the list, and it goes on there or stays where it is. -/
theorem boundaryBetween_le_length (base size : Nat) (hbase : base ≤ items.length) :
    boundaryBetween before items base size ≤ items.length := by
  fun_induction boundaryBetween before items base size with
  | case1 base size hle hany => exact lt_length_of_any hany
  | case2 base size hle hany => exact hbase
  | case3 base size hgt half mid ih =>
    refine ih ?_
    split
    · rename_i hany
      exact Nat.le_of_lt (lt_length_of_any hany)
    · exact hbase

/-- **A binary search never leaves the list**, also when the items are in no order. -/
theorem boundary_le_length : boundary before items ≤ items.length :=
  boundaryBetween_le_length 0 items.length (Nat.zero_le _)

/-- Between two boundaries lie the items that are inside the second and not before the first. -/
theorem drop_take_takeWhile (hbefore : Leading before items) (hinside : Leading inside items) :
    (items.take (items.takeWhile inside).length).drop (items.takeWhile before).length =
      items.filter fun a => !before a && inside a := by
  induction items with
  | nil => rfl
  | cons a items ih =>
    obtain ⟨ha, hitems⟩ := List.pairwise_cons.mp hbefore
    obtain ⟨ha', hitems'⟩ := List.pairwise_cons.mp hinside
    have ih := ih hitems hitems'
    by_cases hin : inside a = true
    · rw [List.takeWhile_cons_of_pos hin, List.length_cons, List.take_succ_cons]
      by_cases hb : before a = true
      · rw [List.takeWhile_cons_of_pos hb, List.length_cons, List.drop_succ_cons, ih,
          List.filter_cons_of_neg (by simp [hb])]
      · -- no item lies before the first boundary
        have hnone : items.takeWhile before = [] := by
          refine List.takeWhile_eq_nil_iff.mpr fun hpos hfirst => hb (ha _ (List.getElem_mem hpos) hfirst)
        rw [hnone, List.length_nil, List.drop_zero] at ih
        rw [List.takeWhile_cons_of_neg hb, List.length_nil, List.drop_zero, ih,
          List.filter_cons_of_pos (by simp [hb, hin])]
    · -- no item is inside the second boundary
      have hnone : (a :: items).filter (fun b => !before b && inside b) = [] := by
        refine List.filter_eq_nil_iff.mpr fun b hb hboth => hin ?_
        obtain ⟨_, hib⟩ := Bool.and_eq_true_iff.mp hboth
        rcases List.mem_cons.mp hb with rfl | hb
        · exact hib
        · exact ha' b hb hib
      rw [List.takeWhile_cons_of_neg hin, List.length_nil, List.take_zero, List.drop_nil, hnone]

end Search

/-! ## 2. Tokens in source order -/

/-- The token lies completely inside the span. -/
def Token.Inside (token : Token) (span : Span) : Prop :=
  span.start ≤ token.span.start ∧ token.span.stop ≤ span.stop

instance (token : Token) (span : Span) : Decidable (token.Inside span) :=
  inferInstanceAs (Decidable (_ ∧ _))

/-- Neither the starts nor the ends of the tokens go back. -/
def InOrder (tokens : List Token) : Prop :=
  tokens.Pairwise fun a b => a.span.start ≤ b.span.start ∧ a.span.stop ≤ b.span.stop

instance (tokens : List Token) : Decidable (InOrder tokens) :=
  inferInstanceAs (Decidable (List.Pairwise _ _))

variable {tokens : List Token}

/-- **The tokens that are cut out of a stream** are those inside the span. -/
theorem tokensIn_eq_filter (h : InOrder tokens) (span : Span) :
    tokensIn tokens span = tokens.filter fun token => decide (token.Inside span) := by
  have hstart : Leading (fun token : Token => decide (token.span.start < span.start)) tokens := by
    refine h.imp fun {a b} hab hb => decide_eq_true ?_
    have hlt : b.span.start < span.start := of_decide_eq_true hb
    rw [← Location.not_le] at hlt ⊢
    exact fun hle => hlt (Location.le_trans hle hab.1)
  have hstop : Leading (fun token : Token => decide (token.span.stop ≤ span.stop)) tokens :=
    h.imp fun {a b} hab hb => decide_eq_true (Location.le_trans hab.2 (of_decide_eq_true hb))
  rw [tokensIn, boundary_eq hstart, boundary_eq hstop, drop_take_takeWhile hstart hstop]
  refine List.filter_congr fun token _ => ?_
  have hnot : (!decide (token.span.start < span.start)) = decide (span.start ≤ token.span.start) := by
    rw [← decide_not, decide_eq_decide, ← Location.not_le, not_not]
  rw [hnot]
  exact (Bool.decide_and _ _).symm

/-! ## 3. The cut -/

/-- The items of a list from one place up to another one. There is such a slice only when the places are
    in order and the second one is not behind the end of the list. -/
def slice? {α : Type} (items : List α) (start stop : Nat) : Option (List α) :=
  if start ≤ stop ∧ stop ≤ items.length then some ((items.take stop).drop start) else none

/-- Where the search sees the first token that does not start in front of the span. -/
def firstFrom (tokens : List Token) (span : Span) : Nat :=
  boundary (fun token => decide (token.span.start < span.start)) tokens

/-- Where the search sees the first token that ends behind the span. -/
def firstBehind (tokens : List Token) (span : Span) : Nat :=
  boundary (fun token => decide (token.span.stop ≤ span.stop)) tokens

/-- What is cut out of any list of tokens is a slice of it, or nothing when the places have crossed. -/
theorem tokensIn_eq_slice (tokens : List Token) (span : Span) :
    (if firstFrom tokens span < firstBehind tokens span then
      slice? tokens (firstFrom tokens span) (firstBehind tokens span) else some []) =
      some (tokensIn tokens span) := by
  have hcut : tokensIn tokens span =
      (tokens.take (firstBehind tokens span)).drop (firstFrom tokens span) := rfl
  rw [hcut]
  split
  · rename_i hlt
    exact if_pos ⟨Nat.le_of_lt hlt, boundary_le_length⟩
  · rename_i hcrossed
    rw [List.drop_eq_nil_of_le]
    exact (List.length_take_le _ _).trans (Nat.le_of_not_lt hcrossed)

/-- **Which tokens lie inside a span.** Of a stream in order these are, in the order of the stream, the
    tokens that do not start in front of the span and do not end behind it, whatever the span is. Of any
    list of tokens at all a slice is taken only where there is one. -/
theorem tokensIn_exact (tokens : List Token) (span : Span) :
    (InOrder tokens → tokensIn tokens span =
      tokens.filter fun token => decide (span.start ≤ token.span.start ∧ token.span.stop ≤ span.stop)) ∧
    (if firstFrom tokens span < firstBehind tokens span then
      slice? tokens (firstFrom tokens span) (firstBehind tokens span) else some []) =
      some (tokensIn tokens span) :=
  ⟨fun h => tokensIn_eq_filter h span, tokensIn_eq_slice tokens span⟩

/-- Two tokens on the first line and a third one that goes on to the second. -/
def threeTokens : List Token :=
  [⟨.keyword, "int", ⟨⟨0, 0⟩, ⟨0, 3⟩⟩⟩, ⟨.identifier, "id", ⟨⟨0, 4⟩, ⟨0, 6⟩⟩⟩,
    ⟨.comment, "/* */", ⟨⟨0, 6⟩, ⟨1, 2⟩⟩⟩]

/-- A span inside the name holds nothing, and neither does one that ends before it starts. -/
theorem tokensIn_threeTokens : InOrder threeTokens ∧
    (tokensIn threeTokens ⟨⟨0, 1⟩, ⟨1, 1⟩⟩).map Token.spelling = ["id"] ∧
    tokensIn threeTokens ⟨⟨0, 5⟩, ⟨0, 5⟩⟩ = [] ∧ tokensIn threeTokens ⟨⟨1, 0⟩, ⟨0, 0⟩⟩ = [] := by
  have h : InOrder threeTokens := by decide
  refine ⟨h, ?_, ?_, ?_⟩
  · rw [(tokensIn_exact _ _).1 h]
    decide
  · rw [(tokensIn_exact _ _).1 h]
    decide
  · rw [(tokensIn_exact _ _).1 h]
    decide

end MemberRefs
