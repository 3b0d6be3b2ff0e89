import MemberRefs.Proofs.Resolve.Visit
import MemberRefs.Tree.Outline

/-!
# The parts of a node

A node of the syntax tree is shown as a line with its parts below it. Here the tree is taken as it is
shown: for a node of any kind its line (`Node.label`, `Node.place?`) and its parts (`Node.parts`), each
part with the role it plays.

* `Node.outline_eq`: a node writes its line and then its parts.
* `Node.parts_induction`: what holds of a node if it holds of its parts holds of every node.
-/

namespace MemberRefs

open Outline

/-! ## 1. Nodes and their parts -/

/-- A node of the syntax tree, of any kind. -/
inductive Node where
  | unit (u : SourceUnit)
  | decl (d : Decl)
  | stmt (s : Stmt)
  | expr (e : Expr)
  | name (n : SpannedName)

/-- A part of a node: a node with the role it plays, a type, or a mark. -/
inductive Part where
  | node (role : String) (part : Node)
  | type (role : String) (type : Ty)
  | mark (label : String)

/-- A mark that is there or not. -/
def Part.marks (label : String) (set : Bool) : List Part := if set then [.mark label] else []

/-- The declaration that a top-level declaration is. -/
def TopDecl.toDecl : TopDecl → Decl
  | ofClass d => .ofClass d
  | ofFunc d => .ofFunc d

/-- The parts of an expression. -/
def Expr.parts : Expr → List Part
  | .ident _ _ | .thisPtr _ | .literal _ _ => []
  | .paramRef _ name | .localRef _ name => [.node "name" (.name name)]
  | .member _ base _ name => [.node "base" (.expr base), .node "member" (.name name)]
  | .qualified _ owner name => [.node "class" (.name owner), .node "member" (.name name)]
  | .call _ callee args => .node "callee" (.expr callee) :: args.map fun arg => .node "arg" (.expr arg)
  | .unary _ op operand => [.node "op" (.name op), .node "operand" (.expr operand)]
  | .binary _ lhs op rhs =>
      [.node "lhs" (.expr lhs), .node "op" (.name op), .node "rhs" (.expr rhs)]

/-- The parts of a statement. -/
def Stmt.parts : Stmt → List Part
  | .decl d =>
      [.node "name" (.name d.name), .type "type" d.type]
        ++ d.init.toList.map fun e => .node "init" (.expr e)
  | .expr e => e.parts
  | .ret value => value.toList.map fun e => .node "value" (.expr e)
  | .block body => body.map fun s => .node "stmt" (.stmt s)
  | .ifThen cond onTrue => [.node "cond" (.expr cond), .node "then" (.stmt onTrue)]
  | .ifElse cond onTrue onFalse =>
      [.node "cond" (.expr cond), .node "then" (.stmt onTrue), .node "else" (.stmt onFalse)]
  | .loop cond body => [.node "cond" (.expr cond), .node "body" (.stmt body)]

/-- The parts of a declaration. -/
def Decl.parts : Decl → List Part
  | .ofClass d =>
      .node "name" (.name d.name) :: d.bases.map (fun b => .node "base" (.name b))
        ++ d.members.map fun m => .node "member" (.decl m.toDecl)
  | .ofField d =>
      [.node "name" (.name d.name), .type "type" d.type] ++ Part.marks "static" d.isStatic
  | .ofFunc d =>
      d.qualifier.toList.map (fun q => .node "qualifier" (.name q)) ++ [.node "name" (.name d.name)]
        ++ d.params.map (fun p => .node "param" (.decl (.ofParam p)))
        ++ d.result.toList.map (fun t => .type "result" t)
        ++ Part.marks "const" d.isConst ++ Part.marks "static" d.isStatic
        ++ Part.marks "virtual" d.isVirtual
        ++ d.statements.map fun s => .node "stmt" (.stmt s)
  | .ofParam d =>
      d.name.toList.map (fun n => .node "name" (.name n)) ++ [.type "type" d.type]
        ++ Part.marks "default" d.hasDefault
  | .ofLocal d => (Stmt.decl d).parts

/-- What stands in the line of an expression. -/
def Expr.label : Expr → String
  | .ident _ name => name.val
  | .paramRef _ _ => "PARAM_REF"
  | .localRef _ _ => "LOCAL_REF"
  | .thisPtr _ => "THIS"
  | .member _ _ op _ => op.label
  | .qualified _ _ _ => "SCOPED"
  | .call _ _ _ => "CALL"
  | .unary _ _ _ => "UNARY"
  | .binary _ _ _ _ => "BINARY"
  | .literal _ type => "LITERAL " ++ type.text

/-- The place that the line of an expression shows: its own, or for a name that of the name. -/
def Expr.shownPlace : Expr → Span
  | .ident _ name => name.span
  | e => e.span

namespace Node

/-- The outline of a node. -/
def outline : Node → Outline
  | unit u => u.outline
  | decl d => d.outline
  | stmt s => s.outline
  | expr e => e.outline
  | name n => n.outline

/-- What stands in the line of a node, but for the place. -/
def label : Node → String
  | unit u => "UNIT " ++ u.file
  | decl (.ofClass _) => "CLASS"
  | decl (.ofField _) => "FIELD"
  | decl (.ofFunc _) => "FUNC"
  | decl (.ofParam _) => "PARAM"
  | decl (.ofLocal _) | stmt (.decl _) => "LOCAL"
  | stmt (.expr e) | expr e => e.label
  | stmt (.ret _) => "RETURN"
  | stmt (.block _) => "BLOCK"
  | stmt (.ifThen _ _) | stmt (.ifElse _ _ _) => "IF"
  | stmt (.loop _ _) => "WHILE"
  | name n => n.val

/-- The place that the line of a node shows. -/
def place? : Node → Option Span
  | unit _ => none
  | decl d => some d.extent
  | stmt (.decl d) => some d.extent
  | stmt (.expr e) | expr e => some e.shownPlace
  | stmt (.ret _) | stmt (.block _) | stmt (.ifThen _ _) | stmt (.ifElse _ _ _)
  | stmt (.loop _ _) => none
  | name n => some n.span

/-- What stands below the line of a node. -/
def parts : Node → List Part
  | unit u => u.decls.map fun d => .node "decl" (.decl d.toDecl)
  | decl d => d.parts
  | stmt s => s.parts
  | expr e => e.parts
  | name _ => []

end Node

/-- The outline of a part. -/
def Part.outline : Part → Outline
  | .node role part => child role part.outline
  | .type role t => attr role t
  | .mark label => line label

/-- The outline of parts one after the other. -/
def Part.outlines : List Part → Outline
  | [] => pure ()
  | p :: ps => do
      p.outline
      Part.outlines ps

/-! ## 2. What a node writes -/

section Parts

variable {α : Type}

theorem Part.outlines_append (ps qs : List Part) :
    Part.outlines (ps ++ qs) = (do Part.outlines ps; Part.outlines qs) := by
  induction ps with
  | nil => rfl
  | cons p ps ih => rw [List.cons_append, Part.outlines, ih, Part.outlines, bind_assoc]

theorem Outline.children_map (role : String) (f : α → Node) (xs : List α) :
    children role (xs.map fun x => (f x).outline) =
      Part.outlines (xs.map fun x => .node role (f x)) := by
  induction xs with
  | nil => rfl
  | cons x xs ih => rw [List.map_cons, children, ih]; rfl

theorem Outline.childIfSome_map (role : String) (f : α → Node) (x : Option α) :
    childIfSome role (x.map fun x => (f x).outline) =
      Part.outlines (x.toList.map fun x => .node role (f x)) := by
  cases x <;> rfl

theorem Outline.attrIfSome_eq (role : String) (type : Option Ty) :
    attrIfSome role type = Part.outlines (type.toList.map fun t => .type role t) := by
  cases type <;> rfl

theorem Outline.flag_eq (label : String) (set : Bool) :
    flag label set = Part.outlines (Part.marks label set) := by
  cases set <;> rfl

theorem Expr.argsOutline_eq (args : List Expr) :
    Expr.argsOutline args = Part.outlines (args.map fun arg => .node "arg" (.expr arg)) := by
  induction args with
  | nil => rfl
  | cons arg args ih => rw [List.map_cons, Expr.argsOutline, ih]; rfl

theorem Stmt.bodyOutline_eq (body : List Stmt) :
    Stmt.bodyOutline body = Part.outlines (body.map fun s => .node "stmt" (.stmt s)) := by
  induction body with
  | nil => rfl
  | cons s body ih => rw [List.map_cons, Stmt.bodyOutline, ih]; rfl

end Parts

/-- A place that is set, or none, and then a label with its parts. -/
def Outline.opened (place? : Option Span) (label : String) (parts : Outline) : Outline :=
  match place? with
  | none => node label parts
  | some span => located span (node label parts)

theorem Expr.outline_eq (e : Expr) :
    e.outline = located e.shownPlace (Outline.node e.label (Part.outlines e.parts)) := by
  cases e with
  | ident _ _ | paramRef _ _ | localRef _ _ | thisPtr _ | member _ _ _ _ | qualified _ _ _
  | unary _ _ _ | binary _ _ _ _ | literal _ _ => rw [Expr.outline]; rfl
  | call span callee args => rw [Expr.outline, Expr.argsOutline_eq]; rfl

theorem LocalDecl.outline_eq (d : LocalDecl) :
    d.outline = located d.extent (Outline.node "LOCAL" (Part.outlines (Stmt.decl d).parts)) := by
  have hinit := Outline.childIfSome_map "init" Node.expr d.init
  rw [LocalDecl.outline, Stmt.parts, Part.outlines_append, ← hinit]
  rfl

theorem Stmt.outline_eq (s : Stmt) :
    s.outline = Outline.opened (Node.stmt s).place? (Node.stmt s).label (Part.outlines s.parts) := by
  cases s with
  | decl d => rw [Stmt.outline, LocalDecl.outline_eq]; rfl
  | expr e => rw [Stmt.outline, Expr.outline_eq]; rfl
  | ret value =>
    have hvalue := Outline.childIfSome_map "value" Node.expr value
    rw [Stmt.outline, Stmt.parts, ← hvalue]
    rfl
  | block body => rw [Stmt.outline, Stmt.bodyOutline_eq]; rfl
  | ifThen _ _ | ifElse _ _ _ | loop _ _ => rw [Stmt.outline]; rfl

theorem MemberDecl.outline_eq (m : MemberDecl) : m.outline = (Node.decl m.toDecl).outline := by
  cases m <;> rfl

theorem TopDecl.outline_eq (d : TopDecl) : d.outline = (Node.decl d.toDecl).outline := by
  cases d <;> rfl

theorem Decl.outline_eq (d : Decl) :
    d.outline = located d.extent (Outline.node (Node.decl d).label (Part.outlines d.parts)) := by
  cases d with
  | ofClass d =>
    have hbases := Outline.children_map "base" Node.name d.bases
    have hmembers := Outline.children_map "member" (fun m => Node.decl m.toDecl) d.members
    rw [Decl.outline, ClassDecl.outline, funext MemberDecl.outline_eq, hmembers, Decl.parts]
    rw [List.cons_append, Part.outlines, Part.outlines_append, ← hbases]
    rfl
  | ofField d =>
    rw [Decl.outline, FieldDecl.outline, Outline.flag_eq, Decl.parts, Part.outlines_append]
    rfl
  | ofFunc d =>
    have hqualifier := Outline.childIfSome_map "qualifier" Node.name d.qualifier
    have hparams := Outline.children_map "param" (fun p => Node.decl (.ofParam p)) d.params
    rw [Decl.outline, FuncDecl.outline, Decl.parts]
    simp only [Part.outlines_append, ← hqualifier, ← hparams, ← Outline.attrIfSome_eq,
      ← Outline.flag_eq, ← Stmt.bodyOutline_eq, bind_assoc]
    rfl
  | ofParam d =>
    have hname := Outline.childIfSome_map "name" Node.name d.name
    rw [Decl.outline, Param.outline, Outline.flag_eq, Decl.parts, Part.outlines_append,
      Part.outlines_append, ← hname]
    rfl
  | ofLocal d => exact d.outline_eq

/-- **A node writes its line, with the place it sets, and then its parts.** -/
theorem Node.outline_eq (node : Node) :
    node.outline = Outline.opened node.place? node.label (Part.outlines node.parts) := by
  cases node with
  | unit u =>
    have hdecls := Outline.children_map "decl" (fun d => Node.decl d.toDecl) u.decls
    rw [Node.outline, SourceUnit.outline, funext TopDecl.outline_eq, hdecls]
    rfl
  | decl d => exact d.outline_eq
  | stmt s => exact s.outline_eq
  | expr e => exact e.outline_eq
  | name n => rfl

/-! ## 3. Induction over the parts -/

theorem Stmt.nodeCount_le_nodeCounts {s : Stmt} :
    ∀ {ss : List Stmt}, s ∈ ss → s.nodeCount ≤ nodeCounts ss
  | _ :: ss, h => by
      rw [nodeCounts]
      rcases List.mem_cons.mp h with rfl | h
      · exact Nat.le_add_right _ _
      · exact Nat.le_trans (nodeCount_le_nodeCounts h) (Nat.le_add_left _ _)

/-- Induction over the statements in a statement. -/
theorem Stmt.children_induction {motive : Stmt → Prop}
    (step : ∀ s : Stmt, (∀ c ∈ s.children, motive c) → motive s) (s : Stmt) : motive s :=
  step s fun c _ => children_induction step c
  termination_by s.nodeCount
  decreasing_by exact Nat.lt_of_le_of_lt (nodeCount_le_nodeCounts ‹_›) (nodeCounts_children_lt s)

theorem Expr.node_of_mem_parts {e : Expr} {role : String} {part : Node}
    (h : .node role part ∈ e.parts) :
    (∃ n, part = .name n) ∨ ∃ c ∈ e.children, part = .expr c := by
  cases e <;> simp [parts, children] at h ⊢ <;> grind

theorem Stmt.node_of_mem_parts {s : Stmt} {role : String} {part : Node}
    (h : .node role part ∈ s.parts) :
    (∃ n, part = .name n) ∨ (∃ e, part = .expr e) ∨ ∃ c ∈ s.children, part = .stmt c := by
  cases s with
  | expr e =>
    rcases e.node_of_mem_parts h with hname | ⟨c, -, hexpr⟩
    · exact .inl hname
    · exact .inr (.inl ⟨c, hexpr⟩)
  | _ =>
    simp [parts, children] at h ⊢
    grind

/-- How deep declarations stand in a declaration: functions in classes and parameters in functions. -/
def Decl.rank : Decl → Nat
  | .ofClass _ => 2
  | .ofFunc _ => 1
  | .ofField _ | .ofParam _ | .ofLocal _ => 0

theorem MemberDecl.rank_toDecl (m : MemberDecl) : m.toDecl.rank < 2 := by
  cases m <;> simp [toDecl, Decl.rank]

theorem Part.node_not_mem_marks {role label : String} {part : Node} {set : Bool} :
    .node role part ∉ marks label set := by
  cases set <;> simp [marks]

theorem Decl.node_of_mem_parts {d : Decl} {role : String} {part : Node}
    (h : .node role part ∈ d.parts) :
    (∃ n, part = .name n) ∨ (∃ e, part = .expr e) ∨ (∃ s, part = .stmt s) ∨
      ∃ c : Decl, c.rank < d.rank ∧ part = .decl c := by
  cases d with
  | ofClass d =>
    simp only [parts, List.cons_append, List.mem_cons, List.mem_append, List.mem_map] at h
    rcases h with hname | ⟨b, -, hbase⟩ | ⟨m, -, hmember⟩
    · exact .inl ⟨_, (Part.node.inj hname).2⟩
    · exact .inl ⟨b, (Part.node.inj hbase).2.symm⟩
    · exact .inr (.inr (.inr ⟨_, m.rank_toDecl, (Part.node.inj hmember).2.symm⟩))
  | ofField d =>
    simp only [parts, List.cons_append, List.nil_append, List.mem_cons, reduceCtorEq,
      Part.node_not_mem_marks, or_false] at h
    exact .inl ⟨_, (Part.node.inj h).2⟩
  | ofFunc d =>
    simp only [parts, List.mem_append, List.mem_map, List.mem_singleton, reduceCtorEq, and_false,
      exists_false, Part.node_not_mem_marks, or_false] at h
    rcases h with ((⟨q, -, hqualifier⟩ | hname) | ⟨p, -, hparam⟩) | ⟨s, -, hstmt⟩
    · exact .inl ⟨q, (Part.node.inj hqualifier).2.symm⟩
    · exact .inl ⟨_, (Part.node.inj hname).2⟩
    · exact .inr (.inr (.inr ⟨.ofParam p, Nat.zero_lt_one, (Part.node.inj hparam).2.symm⟩))
    · exact .inr (.inr (.inl ⟨s, (Part.node.inj hstmt).2.symm⟩))
  | ofParam d =>
    simp only [parts, List.mem_append, List.mem_map, List.mem_singleton, reduceCtorEq,
      Part.node_not_mem_marks, or_false] at h
    obtain ⟨n, -, hname⟩ := h
    exact .inl ⟨n, (Part.node.inj hname).2.symm⟩
  | ofLocal d =>
    have h : .node role part ∈ (Stmt.decl d).parts := h
    rcases Stmt.node_of_mem_parts h with hname | hexpr | ⟨s, -, hstmt⟩
    · exact .inl hname
    · exact .inr (.inl hexpr)
    · exact .inr (.inr (.inl ⟨s, hstmt⟩))

/-- **What holds of a node if it holds of its parts holds of every node.** -/
theorem Node.parts_induction {motive : Node → Prop}
    (step : ∀ node, (∀ role part, .node role part ∈ node.parts → motive part) → motive node)
    (node : Node) : motive node := by
  -- Each kind of node is made of nodes of its own kind and of the kinds before it.
  have hname (n : SpannedName) : motive (.name n) :=
    step _ fun _ _ h => absurd h List.not_mem_nil
  have hexpr (e : Expr) : motive (.expr e) := by
    induction e using Expr.children_induction with
    | step e ih =>
      refine step _ fun role part h => ?_
      rcases Expr.node_of_mem_parts h with ⟨n, rfl⟩ | ⟨c, hc, rfl⟩
      · exact hname n
      · exact ih c hc
  have hstmt (s : Stmt) : motive (.stmt s) := by
    induction s using Stmt.children_induction with
    | step s ih =>
      refine step _ fun role part h => ?_
      rcases Stmt.node_of_mem_parts h with ⟨n, rfl⟩ | ⟨e, rfl⟩ | ⟨c, hc, rfl⟩
      · exact hname n
      · exact hexpr e
      · exact ih c hc
  have hdecl (rank : Nat) : ∀ d : Decl, d.rank = rank → motive (.decl d) := by
    induction rank using Nat.strongRecOn with
    | ind rank ih =>
      rintro d rfl
      refine step _ fun role part h => ?_
      rcases Decl.node_of_mem_parts h with ⟨n, rfl⟩ | ⟨e, rfl⟩ | ⟨s, rfl⟩ | ⟨c, hc, rfl⟩
      · exact hname n
      · exact hexpr e
      · exact hstmt s
      · exact ih _ hc c rfl
  cases node with
  | unit u =>
    refine step _ fun role part h => ?_
    obtain ⟨d, -, hd⟩ := List.mem_map.mp h
    rw [← (Part.node.inj hd).2]
    exact hdecl _ _ rfl
  | decl d => exact hdecl _ d rfl
  | stmt s => exact hstmt s
  | expr e => exact hexpr e
  | name n => exact hname n

end MemberRefs
