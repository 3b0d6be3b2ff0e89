import MemberRefs.Format.Decode
import MemberRefs.Format.Encode
import MemberRefs.Proofs.Source.Notation
import MemberRefs.Proofs.Ty.Spelling

/-!
# The texts inside a unit

Spans and types are the parts of a unit that are written as texts with a notation of their own (`Leaf`).
All other parts are plain records, variants and lists. A span that was read reads back, and so does a
type in which no lvalue reference stands directly inside another reference.

* `leaves`: the spans and types in an expression, a statement, a declaration and a unit;
  `SourceUnit.spans` and `SourceUnit.types` are those of a unit apart.
* `Leaf.writable_of_isRead`, `Leaf.readsBack_of_isRead`: what is known of leaves that were read.
-/

namespace MemberRefs

/-! ## 1. Leaves -/

/-- A part of a unit that is written as a text of its own notation. -/
inductive Leaf where
  | span (s : Span)
  | type (t : Ty)

namespace Leaf

/-- The span that a leaf is. -/
def span? : Leaf → Option Span
  | span s => some s
  | type _ => none

/-- The type that a leaf is. -/
def type? : Leaf → Option Ty
  | span _ => none
  | type t => some t

theorem span?_eq_some {leaf : Leaf} {s : Span} : leaf.span? = some s ↔ leaf = span s := by
  cases leaf <;> simp [span?]

theorem type?_eq_some {leaf : Leaf} {t : Ty} : leaf.type? = some t ↔ leaf = type t := by
  cases leaf <;> simp [type?]

/-- The leaf is what some value denotes. -/
def IsRead : Leaf → Prop
  | span s => ∃ json, Span.ofJson? json = some s
  | type t => ∃ json, Ty.ofJson? json = some t

/-- The leaf is what it is written as. -/
def ReadsBack : Leaf → Prop
  | span s => Span.ofJson? s.toJson = some s
  | type t => Ty.ofJson? t.toJson = some t

theorem ofJson?_span_eq_some {json : Json} {s : Span} : Span.ofJson? json = some s ↔
    ∃ text, json.str? = some text ∧ Span.parse text = .ok s := by
  have htoOption : ∀ text, (Span.parse text).toOption = some s ↔ Span.parse text = .ok s := by
    intro text
    cases Span.parse text <;> simp [Except.toOption]
  simp only [Span.ofJson?, Option.bind_eq_bind, Option.bind_eq_some_iff, htoOption]

/-- **A span that was read can be written.** -/
theorem writable_of_isRead {s : Span} (h : (span s).IsRead) : s.Writable := by
  obtain ⟨json, h⟩ := h
  obtain ⟨text, _, hparse⟩ := ofJson?_span_eq_some.mp h
  exact Span.writable_of_parse hparse

/-- **A leaf that was read reads back**, unless it is a type with a reference directly inside
    another. -/
theorem readsBack_of_isRead {leaf : Leaf} (h : leaf.IsRead)
    (hrefs : ∀ t, leaf = type t → t.refsApart = true) : leaf.ReadsBack := by
  cases leaf with
  | span s =>
    exact ofJson?_span_eq_some.mpr ⟨s.text, rfl, Span.parse_text (writable_of_isRead h)⟩
  | type t =>
    obtain ⟨json, h⟩ := h
    obtain ⟨text, _, hread⟩ := Option.bind_eq_some_iff.mp h
    have hspelled := Ty.spelled_of_ofChars? hread
    have hback : Ty.ofText? t.text = some t := by
      rw [Ty.ofText?, Ty.ofChars?_text hspelled, Ty.reread_of_refsApart hspelled (hrefs t rfl)]
    exact hback

end Leaf

/-! ## 2. The leaves of a unit -/

/-- The leaves of a name: its place. -/
def Spanned.leaves (name : SpannedName) : List Leaf := [.span name.span]

/-- The leaves of a token: its place. -/
def Token.leaves (token : Token) : List Leaf := [.span token.span]

mutual

/-- The spans and types in an expression. -/
def Expr.leaves : Expr → List Leaf
  | .ident span name | .paramRef span name | .localRef span name => .span span :: name.leaves
  | .thisPtr span => [.span span]
  | .member span base _ name => .span span :: (base.leaves ++ name.leaves)
  | .qualified span owner name => .span span :: (owner.leaves ++ name.leaves)
  | .call span callee args => .span span :: (callee.leaves ++ Expr.leavesOf args)
  | .unary span op operand => .span span :: (op.leaves ++ operand.leaves)
  | .binary span lhs op rhs => .span span :: (lhs.leaves ++ op.leaves ++ rhs.leaves)
  | .literal span t => [.span span, .type t]

/-- The spans and types in several expressions. -/
def Expr.leavesOf : List Expr → List Leaf
  | [] => []
  | e :: es => e.leaves ++ Expr.leavesOf es

end

/-- The spans and types in the declaration of a local variable. -/
def LocalDecl.leaves (d : LocalDecl) : List Leaf :=
  d.name.leaves ++ [.type d.type] ++ d.init.toList.flatMap Expr.leaves ++ [.span d.extent]

mutual

/-- The spans and types in a statement. -/
def Stmt.leaves : Stmt → List Leaf
  | .decl d => d.leaves
  | .expr e => e.leaves
  | .ret value => value.toList.flatMap Expr.leaves
  | .block body => Stmt.leavesOf body
  | .ifThen cond onTrue => cond.leaves ++ onTrue.leaves
  | .ifElse cond onTrue onFalse => cond.leaves ++ onTrue.leaves ++ onFalse.leaves
  | .loop cond body => cond.leaves ++ body.leaves

/-- The spans and types in several statements. -/
def Stmt.leavesOf : List Stmt → List Leaf
  | [] => []
  | s :: ss => s.leaves ++ Stmt.leavesOf ss

end

/-- The spans and types in a parameter. -/
def Param.leaves (d : Param) : List Leaf :=
  d.name.toList.flatMap Spanned.leaves ++ [.type d.type, .span d.extent]

/-- The spans and types in a function. -/
def FuncDecl.leaves (d : FuncDecl) : List Leaf :=
  d.qualifier.toList.flatMap Spanned.leaves ++ d.name.leaves ++ d.params.flatMap Param.leaves ++
    d.result.toList.flatMap (fun t => [.type t]) ++ d.body.toList.flatMap Stmt.leavesOf ++ [.span d.extent]

/-- The spans and types in a field. -/
def FieldDecl.leaves (d : FieldDecl) : List Leaf :=
  d.name.leaves ++ [.type d.type, .span d.extent]

/-- The spans and types in a member. -/
def MemberDecl.leaves : MemberDecl → List Leaf
  | field d => d.leaves
  | method d => d.leaves

/-- The spans and types in a class. -/
def ClassDecl.leaves (d : ClassDecl) : List Leaf :=
  d.name.leaves ++ d.bases.flatMap Spanned.leaves ++ d.members.flatMap MemberDecl.leaves ++
    [.span d.extent]

/-- The spans and types in a top-level declaration. -/
def TopDecl.leaves : TopDecl → List Leaf
  | ofClass d => d.leaves
  | ofFunc d => d.leaves

namespace SourceUnit

/-- The spans and types in a unit. -/
def leaves (unit : SourceUnit) : List Leaf :=
  unit.decls.flatMap TopDecl.leaves ++ unit.tokens.flatMap Token.leaves

/-- The spans in a unit. -/
def spans (unit : SourceUnit) : List Span := unit.leaves.filterMap Leaf.span?

/-- The types in a unit. -/
def types (unit : SourceUnit) : List Ty := unit.leaves.filterMap Leaf.type?

theorem mem_spans {unit : SourceUnit} {s : Span} : s ∈ unit.spans ↔ .span s ∈ unit.leaves := by
  simp [spans, Leaf.span?_eq_some]

theorem mem_types {unit : SourceUnit} {t : Ty} : t ∈ unit.types ↔ .type t ∈ unit.leaves := by
  simp [types, Leaf.type?_eq_some]

end SourceUnit

/-! ## 3. Lists of expressions and statements -/

theorem Expr.leavesOf_eq (es : List Expr) : Expr.leavesOf es = es.flatMap Expr.leaves := by
  induction es with
  | nil => rfl
  | cons e es ih => rw [Expr.leavesOf, ih, List.flatMap_cons]

theorem Expr.toJsons_eq (es : List Expr) : Expr.toJsons es = es.map Expr.toJson := by
  induction es with
  | nil => rfl
  | cons e es ih => rw [Expr.toJsons, ih, List.map_cons]

theorem Stmt.leavesOf_eq (ss : List Stmt) : Stmt.leavesOf ss = ss.flatMap Stmt.leaves := by
  induction ss with
  | nil => rfl
  | cons s ss ih => rw [Stmt.leavesOf, ih, List.flatMap_cons]

theorem Stmt.toJsons_eq (ss : List Stmt) : Stmt.toJsons ss = ss.map Stmt.toJson := by
  induction ss with
  | nil => rfl
  | cons s ss ih => rw [Stmt.toJsons, ih, List.map_cons]

end MemberRefs
