import MemberRefs.Proofs.Source.Notation
import MemberRefs.Proofs.Tree.Parts
import MemberRefs.Proofs.Tree.Writing

/-!
# Outlines are made of outlines

Each part of a node that is a node itself is shown as it would be alone, four blanks deeper. Nothing of
what the writer carries from one line to the next gets from one node to another: a node shows its own
place or none, and leaves the depth as it was.

* `Node.after_outline`: what a node writes, in terms of its parts.
* `Node.writes_outline`: a node without line breaks in its names writes the same text at each depth.
* `outline_compositional`: the text of a unit, and of each node inside it, is made of the texts of its
  parts.
-/

namespace MemberRefs

open Outline

/-! ## 1. Lines without line breaks -/

/-- The name that a type is built on. -/
def Ty.root : Ty → String
  | .named name => name
  | .const inner | .pointer inner | .lref inner | .rref inner => inner.root

/-- The names in the line of an expression. -/
def Expr.labelNames : Expr → List String
  | .ident _ name => [name.val]
  | .literal _ type => [type.root]
  | _ => []

/-- The names that a part has of its own. -/
def Part.typeNames : Part → List String
  | .type _ t => [t.root]
  | .node _ _ | .mark _ => []

/-- The names in the line of a node. -/
def Node.labelNames : Node → List String
  | .stmt (.expr e) | .expr e => e.labelNames
  | .name n => [n.val]
  | _ => []

/-- The names of a node other than those of the nodes below it. -/
def Node.names (node : Node) : List String :=
  node.labelNames ++ node.parts.flatMap Part.typeNames

theorem Ty.oneLine_text {type : Ty} (h : OneLine type.root) : OneLine type.text := by
  induction type with
  | named name => exact h
  | const inner ih =>
    by_cases hnamed : ∃ name, inner = .named name
    · obtain ⟨name, rfl⟩ := hnamed
      exact OneLine.append (by decide) h
    · rw [text_const_of_ne_named fun name heq => hnamed ⟨name, heq⟩]
      exact (ih h).append (by decide)
  | pointer inner ih | lref inner ih | rref inner ih => exact (ih h).append (by decide)

theorem Location.oneLine_text (a : Location) : OneLine a.text := by
  have hnumber (n : Nat) : OneLine (toString n) := fun hmem =>
    ne_of_mem_toDigits (Nat.toList_repr ▸ hmem) (by decide) rfl
  exact ((hnumber _).append (by decide)).append (hnumber _)

theorem Span.oneLine_text (span : Span) : OneLine span.text :=
  (span.start.oneLine_text.append (by decide)).append span.stop.oneLine_text

theorem Outline.oneLine_shown {label : String} (h : OneLine label) (place? : Option Span) :
    OneLine (shown label place?) := by
  cases place? with
  | none => exact h
  | some span => exact (h.append (by decide)).append span.oneLine_text

theorem Expr.oneLine_label {e : Expr} (h : ∀ name ∈ e.labelNames, OneLine name) :
    OneLine e.label := by
  cases e with
  | ident _ name => exact h _ (List.mem_singleton_self _)
  | literal _ type =>
    exact OneLine.append (by decide) (Ty.oneLine_text (h _ (List.mem_singleton_self _)))
  | member _ _ op _ => cases op <;> simp only [label, AccessOp.label] <;> decide
  | paramRef _ _ | localRef _ _ | thisPtr _ | qualified _ _ _ | call _ _ _ | unary _ _ _
  | binary _ _ _ _ => simp only [label]; decide

theorem Node.oneLine_label {node : Node} (hunit : ∀ u, node ≠ .unit u)
    (h : ∀ name ∈ node.names, OneLine name) : OneLine node.label := by
  have hlabel : ∀ name ∈ node.labelNames, OneLine name :=
    fun name hname => h name (List.mem_append_left _ hname)
  cases node with
  | unit u => exact absurd rfl (hunit u)
  | decl d => cases d <;> simp only [label] <;> decide
  | stmt s =>
    cases s with
    | expr e => exact Expr.oneLine_label hlabel
    | _ => simp only [label]; decide
  | expr e => exact Expr.oneLine_label hlabel
  | name n => exact hlabel _ (List.mem_singleton_self _)

/-- What leads the line of a part. -/
def Part.lead : Part → String
  | .node role _ | .type role _ => role
  | .mark label => label

theorem Part.oneLine_lead_marks {label : String} {set : Bool} (hlabel : OneLine label) :
    ∀ p ∈ marks label set, OneLine p.lead := by
  cases set with
  | false => exact fun _ h => absurd h List.not_mem_nil
  | true => exact List.forall_mem_singleton.mpr hlabel

theorem Expr.oneLine_lead (e : Expr) : ∀ p ∈ e.parts, OneLine p.lead := by
  cases e <;> simp [parts, Part.lead, OneLine]

theorem Stmt.oneLine_lead (s : Stmt) : ∀ p ∈ s.parts, OneLine p.lead := by
  cases s with
  | expr e => exact e.oneLine_lead
  | _ => simp [parts, Part.lead, OneLine]

theorem Decl.oneLine_lead (d : Decl) : ∀ p ∈ d.parts, OneLine p.lead := by
  cases d with
  | ofLocal d => exact (Stmt.decl d).oneLine_lead
  | ofClass d => simp [parts, Part.lead, OneLine, or_imp, forall_and]
  | ofField d | ofParam d =>
    rw [parts, List.forall_mem_append]
    exact ⟨by simp [Part.lead, OneLine, or_imp, forall_and], Part.oneLine_lead_marks (by decide)⟩
  | ofFunc d =>
    simp only [parts, List.forall_mem_append]
    refine ⟨⟨⟨⟨by simp [Part.lead, OneLine], ?_⟩, ?_⟩, ?_⟩, by simp [Part.lead, OneLine]⟩
    all_goals exact Part.oneLine_lead_marks (by decide)

theorem Node.oneLine_lead (node : Node) : ∀ p ∈ node.parts, OneLine p.lead := by
  cases node with
  | unit u => simp [parts, Part.lead, OneLine]
  | decl d => exact d.oneLine_lead
  | stmt s => exact s.oneLine_lead
  | expr e => exact e.oneLine_lead
  | name n => exact fun _ h => absurd h List.not_mem_nil

/-! ## 2. Lines below a line -/

/-- A part behind the blanks of its line, at some depth: a node with the blanks of that depth behind each
    line break of its own text. -/
def Part.text (depth : Nat) : Part → String
  | .node role part => role ++ ": " ++ indented depth part.outline.text
  | .type role t => role ++ ": " ++ t.text
  | .mark label => label

/-- Parts on lines of their own at some depth. -/
def Part.lines (depth : Nat) (ps : List Part) : String :=
  String.join (ps.map fun p => "\n" ++ indent depth ++ p.text depth)

/-- A part whose own words are on one line. -/
def Part.Plain (p : Part) : Prop := OneLine p.lead ∧ ∀ name ∈ p.typeNames, OneLine name

theorem Part.Plain.type {role : String} {t : Ty} (h : (Part.type role t).Plain) :
    OneLine (role ++ ": " ++ t.text) :=
  (h.1.append (by decide)).append (Ty.oneLine_text (h.2 _ (List.mem_singleton_self _)))

/-- A part at no depth is the same part at another depth but for the blanks. -/
theorem Part.Plain.indented_text {p : Part} (h : p.Plain) (depth : Nat) :
    indented depth (p.text 0) = p.text depth := by
  cases p with
  | node role part =>
    have hlead : OneLine (role ++ ": ") := h.1.append (by decide)
    rw [text, text, indented_append, indented_of_oneLine hlead, indented_zero]
  | type role t => exact indented_of_oneLine h.type
  | mark label => exact indented_of_oneLine h.1

theorem Part.lines_cons (depth : Nat) (p : Part) (ps : List Part) :
    lines depth (p :: ps) = "\n" ++ indent depth ++ p.text depth ++ lines depth ps := by
  rw [lines, List.map_cons, String.join_cons]
  rfl

section Parts

variable {ps : List Part} (hplain : ∀ p ∈ ps, p.Plain)

include hplain

theorem Part.indented_lines (depth : Nat) : indented depth (lines 0 ps) = lines depth ps := by
  have hblanks : indented depth (indent 0) = "" := rfl
  induction ps with
  | nil => rfl
  | cons p ps ih =>
    obtain ⟨hp, hps⟩ := List.forall_mem_cons.mp hplain
    simp only [lines_cons, indented_append, indented_break, hblanks, hp.indented_text, ih hps,
      String.append_empty]

theorem Part.writes_outlines
    (hparts : ∀ role part, .node role part ∈ ps → Writes part.outline part.outline.text) :
    Writes (outlines ps) (lines 0 ps) := by
  induction ps with
  | nil => exact writes_pure
  | cons p ps ih =>
    obtain ⟨hp, hps⟩ := List.forall_mem_cons.mp hplain
    have hhead : Writes p.outline ("\n" ++ p.text 0) := by
      cases p with
      | node role part =>
        rw [text, indented_zero, ← String.append_assoc]
        exact (hparts role part List.mem_cons_self).child hp.1
      | type role t => exact writes_line hp.type
      | mark label => exact writes_line hp.1
    have htail := ih hps fun role part h => hparts role part (List.mem_cons_of_mem _ h)
    rw [lines_cons]
    exact hhead.seq htail

end Parts

/-! ## 3. What a node writes -/

/-- The node stands somewhere in the first one, at this many levels below it. -/
inductive Within : Node → Nat → Node → Prop where
  | here (node : Node) : Within node 0 node
  | part {root part node : Node} {role : String} {depth : Nat} :
      .node role part ∈ root.parts → Within part depth node → Within root (depth + 1) node

namespace Node

/-- No name in the node contains a line break. -/
def PlainNames (root : Node) : Prop :=
  ∀ depth node, Within root depth node → ∀ name ∈ node.names, OneLine name

theorem PlainNames.of_part {node part : Node} {role : String} (h : node.PlainNames)
    (hpart : .node role part ∈ node.parts) : part.PlainNames :=
  fun depth inner hinner => h (depth + 1) inner (.part hpart hinner)

theorem PlainNames.of_parts {node : Node} (hnames : ∀ name ∈ node.names, OneLine name)
    (hparts : ∀ role part, .node role part ∈ node.parts → part.PlainNames) : node.PlainNames := by
  intro depth inner hinner
  cases hinner with
  | here => exact hnames
  | part hpart hinner => exact hparts _ _ hpart _ _ hinner

theorem PlainNames.of_within {root node : Node} {depth : Nat} (h : root.PlainNames)
    (hnode : Within root depth node) : node.PlainNames := by
  induction hnode with
  | here => exact h
  | part hpart _ ih => exact ih (h.of_part hpart)

theorem PlainNames.parts {node : Node} (h : node.PlainNames) : ∀ p ∈ node.parts, p.Plain := by
  intro p hp
  refine ⟨node.oneLine_lead p hp, fun name hname => ?_⟩
  have hnames : name ∈ node.parts.flatMap Part.typeNames := List.mem_flatMap.mpr ⟨p, hp, hname⟩
  exact h 0 node (.here node) name (List.mem_append_right _ hnames)

/-- Every node is shown with its own place, or with the one that was waiting if it has none, and leaves
    no place behind. -/
theorem after_outline {node : Node} (hplain : node.PlainNames)
    (hparts : ∀ role part, .node role part ∈ node.parts → Writes part.outline part.outline.text)
    (w : Writer) :
    node.outline.after w =
      ⟨w.written ++ (shown node.label (node.place?.or w.place) ++
        Part.lines (w.level + 1) node.parts), w.level, none⟩ := by
  have hwrites := Part.writes_outlines hplain.parts hparts
  rw [outline_eq, ← Part.indented_lines hplain.parts]
  cases node.place? with
  | none => exact after_node hwrites w
  | some span => exact after_node hwrites { w with place := some span }

theorem text_eq {node : Node} (hplain : node.PlainNames)
    (hparts : ∀ role part, .node role part ∈ node.parts → Writes part.outline part.outline.text) :
    node.outline.text = shown node.label node.place? ++ Part.lines 1 node.parts := by
  rw [Outline.text, after_outline hplain hparts, Option.or_none, String.empty_append]

/-- A unit is part of no node. -/
theorem ne_unit_of_mem_parts {node part : Node} {role : String} (h : .node role part ∈ node.parts)
    (u : SourceUnit) : part ≠ .unit u := by
  rintro rfl
  cases node with
  | unit _ => simp [parts] at h
  | decl _ => simpa using Decl.node_of_mem_parts h
  | stmt _ => simpa using Stmt.node_of_mem_parts h
  | expr _ => simpa using Expr.node_of_mem_parts h
  | name _ => simp [parts] at h

/-- **A node writes the same text at each depth.** -/
theorem writes_outline {node : Node} (hunit : ∀ u, node ≠ .unit u) (h : node.PlainNames) :
    Writes node.outline node.outline.text := by
  induction node using parts_induction with
  | step node ih =>
    have hparts (role : String) (part : Node) (hpart : .node role part ∈ node.parts) :=
      ih role part hpart (ne_unit_of_mem_parts hpart) (h.of_part hpart)
    have hline : OneLine (shown node.label node.place?) :=
      oneLine_shown (oneLine_label hunit (h 0 node (.here node))) _
    intro w hw
    -- What stands below the line is moved by one level alone and by the rest of the levels here.
    rw [after_outline h hparts, hw, Option.or_none, text_eq h hparts, indented_append,
      indented_of_oneLine hline, ← Part.indented_lines h.parts 1, indented_indented,
      Part.indented_lines h.parts]

theorem writes_parts {node : Node} (h : node.PlainNames) (role : String) (part : Node)
    (hpart : .node role part ∈ node.parts) : Writes part.outline part.outline.text :=
  writes_outline (ne_unit_of_mem_parts hpart) (h.of_part hpart)

end Node

/-! ## 4. Texts inside texts -/

theorem Outline.indented_infix {s t : String} (h : s.toList <:+: t.toList) (depth : Nat) :
    (indented depth s).toList <:+: (indented depth t).toList := by
  obtain ⟨before, behind, heq⟩ := h
  simp only [toList_indented, ← heq, List.flatMap_append]
  exact List.infix_append _ _ _

/-- A part that is a node is found below the line of its node. -/
theorem Part.infix_lines {ps : List Part} {role : String} {part : Node} (h : .node role part ∈ ps)
    (depth : Nat) : (indented depth part.outline.text).toList <:+: (lines depth ps).toList := by
  induction ps with
  | nil => cases h
  | cons p ps ih =>
    rw [lines_cons, String.toList_append]
    rcases List.mem_cons.mp h with rfl | h
    · rw [text, ← String.append_assoc, String.toList_append]
      exact (List.suffix_append _ _).isInfix.trans (List.prefix_append _ _).isInfix
    · exact (ih h).trans (List.suffix_append _ _).isInfix

theorem Node.infix_of_within {root node : Node} {depth : Nat} (h : root.PlainNames)
    (hnode : Within root depth node) :
    (indented depth node.outline.text).toList <:+: root.outline.text.toList := by
  induction hnode with
  | here root => simp only [indented_zero, List.infix_rfl]
  | part hpart hwithin ih =>
    rename_i root part node role depth
    have hnear := indented_infix (ih (h.of_part hpart)) 1
    rw [indented_indented, Nat.add_comm] at hnear
    rw [text_eq h (writes_parts h), String.toList_append]
    exact (hnear.trans (Part.infix_lines hpart 1)).trans (List.suffix_append _ _).isInfix

theorem TopDecl.text_part (d : TopDecl) :
    "\n" ++ indent 1 ++ (Part.node "decl" (.decl d.toDecl)).text 1 =
      "\n    decl: " ++ indented 1 d.outline.text := by
  have hlead : "\n" ++ indent 1 ++ ("decl" ++ ": ") = "\n    decl: " := by decide
  rw [Part.text, ← d.outline_eq, ← String.append_assoc, hlead]

/-- **The text of a unit is made of the texts of its parts**, as is that of each node inside the unit.
    A node shows its own place or none, and is found in the text of the unit indented by its depth.
    Whatever is waiting before it, no place is waiting behind it, and the depth is the same. -/
theorem outline_compositional (unit : SourceUnit) (hnames : (Node.unit unit).PlainNames) :
    unit.outline.text = "UNIT " ++ unit.file ++
      String.join (unit.decls.map fun d => "\n    decl: " ++ indented 1 d.outline.text) ∧
    ∀ depth node, Within (.unit unit) depth node →
      node.outline.text = shown node.label node.place? ++ Part.lines 1 node.parts ∧
      (indented depth node.outline.text).toList <:+: unit.outline.text.toList ∧
      ∀ w, (node.outline.after w).level = w.level ∧ (node.outline.after w).place = none := by
  constructor
  · have htext := Node.text_eq hnames (Node.writes_parts hnames)
    simp only [Node.parts, Part.lines, List.map_map, Function.comp_def, TopDecl.text_part] at htext
    exact htext
  · intro depth node hnode
    have hplain := hnames.of_within hnode
    have hparts := Node.writes_parts hplain
    have hinfix := Node.infix_of_within hnames hnode
    refine ⟨Node.text_eq hplain hparts, hinfix, fun w => ?_⟩
    rw [Node.after_outline hplain hparts]
    exact ⟨rfl, rfl⟩

/-- `int f() { return x; }` -/
def returningUnit : SourceUnit :=
  ⟨"f.cpp", none, [.ofFunc
    { qualifier := none, name := ⟨"f", ⟨⟨0, 4⟩, ⟨0, 5⟩⟩⟩, params := [], result := some (.named "int")
      isConst := false, isStatic := false, isVirtual := false
      body := some [.ret (some (.ident ⟨⟨0, 17⟩, ⟨0, 18⟩⟩ ⟨"x", ⟨⟨0, 17⟩, ⟨0, 18⟩⟩⟩))]
      extent := ⟨⟨0, 0⟩, ⟨0, 21⟩⟩ }], []⟩

example : returningUnit.outline.text =
    "UNIT f.cpp\n    decl: FUNC @ 1:1-1:22\n        name: f @ 1:5-1:6\n        result: int" ++
      "\n        stmt: RETURN\n            value: x @ 1:18-1:19" := by
  decide +kernel

/-- The names are `f`, `int` and `x`. -/
theorem plainNames_returningUnit : (Node.unit returningUnit).PlainNames := by
  refine .of_parts (by decide) fun role func hfunc => ?_
  obtain ⟨-, rfl⟩ := Part.node.inj (List.mem_singleton.mp hfunc)
  refine .of_parts (by decide) fun role part hpart => ?_
  simp [Node.parts, TopDecl.toDecl, Decl.parts, Part.marks, FuncDecl.statements] at hpart
  rcases hpart with ⟨-, rfl⟩ | ⟨-, rfl⟩
  · exact .of_parts (by decide) fun _ _ h => absurd h List.not_mem_nil
  · refine .of_parts (by decide) fun role value hvalue => ?_
    obtain ⟨-, rfl⟩ := Part.node.inj (List.mem_singleton.mp hvalue)
    exact .of_parts (by decide) fun _ _ h => absurd h List.not_mem_nil

/-- The text of the function stands in the text of the unit. -/
theorem outline_returningUnit :
    (Node.unit returningUnit).PlainNames ∧
      returningUnit.outline.text = "UNIT " ++ returningUnit.file ++ String.join
        (returningUnit.decls.map fun d => "\n    decl: " ++ indented 1 d.outline.text) := by
  have hplain := plainNames_returningUnit
  exact ⟨hplain, (outline_compositional returningUnit hplain).1⟩

end MemberRefs
