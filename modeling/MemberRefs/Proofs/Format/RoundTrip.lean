import Mathlib
import MemberRefs.Proofs.Format.Decoded

/-!
# Units read back

The JSON form of a tree is read as the tree again, when as many levels may be opened as the form has and
the spans and types in the tree read back (`ReadsAgain`). A unit that was read is of this kind, so it is
read again within the same bound.

* `Expr.readsAgain`, `Stmt.readsAgain`: by induction on the tree.
* `SourceUnit.readsAgain`: the form of a unit.
* `SourceUnit.reads_back`: a unit that was read, and its spans.
-/

namespace MemberRefs

open Json

/-- A tree is read from its JSON form within any bound that the form keeps, given that its leaves read
    back. -/
def ReadsAgain {α : Type} (read : Nat → Json → Option α) (json : Json) (leaves : List Leaf) (a : α) :
    Prop :=
  ∀ n, json.depth ≤ n → (∀ leaf ∈ leaves, leaf.ReadsBack) → read n json = some a

namespace ReadsAgain

variable {α : Type} {read : Nat → Json → Option α} {write : α → Json} {leavesOf : α → List Leaf}

/-! ## 1. Building blocks -/

theorem type_ne_null (t : Ty) : t.toJson ≠ .null := nofun

theorem type (t : Ty) : ReadsAgain (fun _ => Ty.ofJson?) t.toJson [.type t] t :=
  fun _ _ hleaves => hleaves _ List.mem_cons_self

/-- The JSON form of a list of trees. -/
theorem list {as : List α} (h : ∀ a ∈ as, ReadsAgain read (write a) (leavesOf a) a) :
    ReadsAgain (list? read) (.arr (as.map write)) (as.flatMap leavesOf) as := by
  intro n hdepth hleaves
  obtain ⟨k, rfl, hitems⟩ := depth_arr_le.mp hdepth
  have hrun : (as.map write).mapM (read k) = some as := by
    refine mapM_map_eq_some fun a ha => h a ha k (hitems _ (List.mem_map_of_mem ha)) ?_
    exact fun leaf hleaf => hleaves leaf (List.mem_flatMap.mpr ⟨a, ha, hleaf⟩)
  exact hrun

/-- The JSON form of a tree that may be absent. -/
theorem option {a : Option α} (hnull : ∀ x, write x ≠ .null)
    (h : ∀ x, ReadsAgain read (write x) (leavesOf x) x) :
    ReadsAgain (fun n => nullable (read n)) (.ofOption (a.map write)) (a.toList.flatMap leavesOf)
      a := by
  intro n hdepth hleaves
  refine nullable_ofOption hnull fun x hx => ?_
  subst hx
  refine h x n hdepth fun leaf hleaf => hleaves leaf ?_
  rwa [Option.toList_some, List.flatMap_singleton]

end ReadsAgain

/-! ## 2. Names and tokens -/

theorem SpannedName.readsAgain (name : SpannedName) :
    ReadsAgain SpannedName.ofJson? name.toJson name.leaves name := by
  intro n hdepth hleaves
  obtain ⟨k, rfl, _⟩ := depth_obj_le.mp hdepth
  have hfields : name.toJson.fields? ["locatee", "span"] =
      some [some (.str name.val), some name.span.toJson] := fields?_obj rfl (by decide)
  have hspan : Span.ofJson? name.span.toJson = some name.span := hleaves _ List.mem_cons_self
  rw [SpannedName.ofJson?, hfields]
  simp only [Option.bind_eq_bind, Option.bind_some, str?, hspan]

theorem SpannedName.toJson_ne_null (name : SpannedName) : name.toJson ≠ .null := nofun

theorem TokenKind.ofTag?_tag (kind : TokenKind) : TokenKind.ofTag? kind.tag = some kind := by
  cases kind <;> rfl

theorem Token.readsAgain (token : Token) :
    ReadsAgain Token.ofJson? token.toJson token.leaves token := by
  intro n hdepth hleaves
  obtain ⟨k, rfl, _⟩ := depth_obj_le.mp hdepth
  have hfields : token.toJson.fields? ["kind", "spelling", "span"] =
      some [some (.str token.kind.tag), some (.str token.spelling), some token.span.toJson] :=
    fields?_obj rfl (by decide)
  have hspan : Span.ofJson? token.span.toJson = some token.span := hleaves _ List.mem_cons_self
  rw [Token.ofJson?, hfields]
  simp only [Option.bind_eq_bind, Option.bind_some, tag?, variant?, TokenKind.ofTag?_tag, str?, hspan]

/-! ## 3. Expressions -/

namespace Expr

theorem ofTag?_tag (op : AccessOp) : AccessOp.ofTag? op.tag = some op := by
  cases op <;> rfl

theorem toJson_ne_null (e : Expr) : e.toJson ≠ .null := by
  cases e <;> exact nofun

variable {span : Span} {tag : String} {leaves : List Leaf} {e : Expr}

/-- An expression is read from its node, when its place reads back. -/
theorem readsAgain_placed {data : Json}
    (h : ReadsAgain (fun n => Expr.ofData? (n + 1) span tag) data leaves e) :
    ReadsAgain Expr.ofJson? (placedJson (.obj [(tag, data)]) span) (.span span :: leaves) e := by
  intro n hdepth hleaves
  obtain ⟨k, rfl, hmembers⟩ := depth_obj_le.mp hdepth
  obtain ⟨m, rfl, hdata⟩ := depth_obj_le.mp (hmembers ("locatee", _) List.mem_cons_self)
  obtain ⟨hspan, hleaves⟩ := List.forall_mem_cons.mp hleaves
  have hspan : Span.ofJson? span.toJson = some span := hspan
  have hfields : (placedJson (.obj [(tag, data)]) span).fields? ["locatee", "span"] =
      some [some (.obj [(tag, data)]), some span.toJson] := fields?_obj rfl (by decide)
  rw [Expr.ofJson?, hfields]
  simp only [Option.bind_eq_bind, Option.bind_some, hspan, variant?]
  exact h m (hdata (tag, data) List.mem_cons_self) hleaves

/-- An expression that holds nothing but a name. -/
theorem readsAgain_name {make : SpannedName → Expr} (name : SpannedName)
    (hdata : ∀ n data, Expr.ofData? (n + 1) span tag data = (SpannedName.ofJson? n data).map make) :
    ReadsAgain Expr.ofJson? (placedJson (.obj [(tag, name.toJson)]) span) (.span span :: name.leaves)
      (make name) := by
  refine readsAgain_placed fun n hdepth hleaves => ?_
  dsimp only
  rw [hdata, name.readsAgain n hdepth hleaves]
  rfl

/-- An expression of several parts. -/
theorem readsAgain_parts {parts : List Json}
    (hdata : ∀ n data, Expr.ofData? (n + 1) span tag data = Expr.ofParts? n span tag data)
    (h : ∀ n, (∀ part ∈ parts, part.depth ≤ n) → (∀ leaf ∈ leaves, leaf.ReadsBack) →
      Expr.ofParts? (n + 1) span tag (.arr parts) = some e) :
    ReadsAgain Expr.ofJson? (placedJson (.obj [(tag, .arr parts)]) span) (.span span :: leaves) e := by
  refine readsAgain_placed fun n hdepth hleaves => ?_
  obtain ⟨k, rfl, hparts⟩ := depth_arr_le.mp hdepth
  dsimp only
  rw [hdata]
  exact h k hparts hleaves

/-! Each kind of expression, given that its parts are read again. -/

theorem readsAgain_thisPtr (span : Span) :
    ReadsAgain Expr.ofJson? (thisPtr span).toJson (thisPtr span).leaves (thisPtr span) := by
  intro n hdepth hleaves
  obtain ⟨k, rfl, _⟩ := depth_obj_le.mp hdepth
  have hspan : Span.ofJson? span.toJson = some span := hleaves _ List.mem_cons_self
  have hfields : (thisPtr span).toJson.fields? ["locatee", "span"] =
      some [some (.str "this"), some span.toJson] := fields?_obj rfl (by decide)
  rw [Expr.ofJson?, hfields]
  simp only [Option.bind_eq_bind, Option.bind_some, hspan, variant?]

theorem readsAgain_literal (span : Span) (t : Ty) :
    ReadsAgain Expr.ofJson? (literal span t).toJson (literal span t).leaves (literal span t) := by
  refine readsAgain_placed fun n _ hleaves => ?_
  have ht : Ty.ofJson? t.toJson = some t := hleaves _ List.mem_cons_self
  exact congrArg (Option.map (Expr.literal span)) ht

theorem readsAgain_member {base : Expr} (op : AccessOp) (name : SpannedName)
    (hbase : ReadsAgain Expr.ofJson? base.toJson base.leaves base) :
    ReadsAgain Expr.ofJson? (member span base op name).toJson (member span base op name).leaves
      (member span base op name) := by
  refine readsAgain_parts (fun _ _ => rfl) fun n hparts hleaves => ?_
  simp only [List.forall_mem_cons] at hparts
  obtain ⟨hbaseDepth, _, hnameDepth, _⟩ := hparts
  obtain ⟨hbaseLeaves, hnameLeaves⟩ := List.forall_mem_append.mp hleaves
  have hbase := hbase n hbaseDepth hbaseLeaves
  have hname := name.readsAgain n hnameDepth hnameLeaves
  simp only [Expr.ofParts?, Option.bind_eq_bind, hbase, Option.bind_some, tag?, variant?, ofTag?_tag,
    hname]

theorem readsAgain_qualified (owner name : SpannedName) :
    ReadsAgain Expr.ofJson? (qualified span owner name).toJson (qualified span owner name).leaves
      (qualified span owner name) := by
  refine readsAgain_parts (fun _ _ => rfl) fun n hparts hleaves => ?_
  simp only [List.forall_mem_cons] at hparts
  obtain ⟨hownerDepth, hnameDepth, _⟩ := hparts
  obtain ⟨hownerLeaves, hnameLeaves⟩ := List.forall_mem_append.mp hleaves
  have howner := owner.readsAgain n hownerDepth hownerLeaves
  have hname := name.readsAgain n hnameDepth hnameLeaves
  simp only [Expr.ofParts?, Option.bind_eq_bind, howner, Option.bind_some, hname]

theorem readsAgain_call {callee : Expr} {args : List Expr}
    (hcallee : ReadsAgain Expr.ofJson? callee.toJson callee.leaves callee)
    (hargs : ∀ arg ∈ args, ReadsAgain Expr.ofJson? arg.toJson arg.leaves arg) :
    ReadsAgain Expr.ofJson? (call span callee args).toJson (call span callee args).leaves
      (call span callee args) := by
  rw [toJson, leaves, toJsons_eq, leavesOf_eq]
  refine readsAgain_parts (fun _ _ => rfl) fun n hparts hleaves => ?_
  simp only [List.forall_mem_cons] at hparts
  obtain ⟨hcalleeDepth, hargsDepth, _⟩ := hparts
  obtain ⟨hcalleeLeaves, hargsLeaves⟩ := List.forall_mem_append.mp hleaves
  have hcallee := hcallee n hcalleeDepth hcalleeLeaves
  have hargs := ReadsAgain.list hargs n hargsDepth hargsLeaves
  -- the arguments are an array of their own, which is opened here
  obtain ⟨k, rfl, _⟩ := depth_arr_le.mp hargsDepth
  have hargs : (args.map toJson).mapM (Expr.ofJson? k) = some args := hargs
  simp only [Expr.ofParts?, Option.bind_eq_bind, hcallee, Option.bind_some, hargs]

theorem readsAgain_unary (op : SpannedName) {operand : Expr}
    (hoperand : ReadsAgain Expr.ofJson? operand.toJson operand.leaves operand) :
    ReadsAgain Expr.ofJson? (unary span op operand).toJson (unary span op operand).leaves
      (unary span op operand) := by
  refine readsAgain_parts (fun _ _ => rfl) fun n hparts hleaves => ?_
  simp only [List.forall_mem_cons] at hparts
  obtain ⟨hopDepth, hoperandDepth, _⟩ := hparts
  obtain ⟨hopLeaves, hoperandLeaves⟩ := List.forall_mem_append.mp hleaves
  have hop := op.readsAgain n hopDepth hopLeaves
  have hoperand := hoperand n hoperandDepth hoperandLeaves
  simp only [Expr.ofParts?, Option.bind_eq_bind, hop, Option.bind_some, hoperand]

theorem readsAgain_binary (op : SpannedName) {lhs rhs : Expr}
    (hlhs : ReadsAgain Expr.ofJson? lhs.toJson lhs.leaves lhs)
    (hrhs : ReadsAgain Expr.ofJson? rhs.toJson rhs.leaves rhs) :
    ReadsAgain Expr.ofJson? (binary span lhs op rhs).toJson (binary span lhs op rhs).leaves
      (binary span lhs op rhs) := by
  refine readsAgain_parts (fun _ _ => rfl) fun n hparts hleaves => ?_
  simp only [List.forall_mem_cons] at hparts
  obtain ⟨hlhsDepth, hopDepth, hrhsDepth, _⟩ := hparts
  obtain ⟨hleftLeaves, hrhsLeaves⟩ := List.forall_mem_append.mp hleaves
  obtain ⟨hlhsLeaves, hopLeaves⟩ := List.forall_mem_append.mp hleftLeaves
  have hlhs := hlhs n hlhsDepth hlhsLeaves
  have hop := op.readsAgain n hopDepth hopLeaves
  have hrhs := hrhs n hrhsDepth hrhsLeaves
  simp only [Expr.ofParts?, Option.bind_eq_bind, hlhs, Option.bind_some, hop, hrhs]

mutual

/-- **The form of an expression is read as the expression.** -/
theorem readsAgain : ∀ e : Expr, ReadsAgain Expr.ofJson? e.toJson e.leaves e
  | .ident _ name => readsAgain_name name fun _ _ => rfl
  | .paramRef _ name => readsAgain_name name fun _ _ => rfl
  | .localRef _ name => readsAgain_name name fun _ _ => rfl
  | .thisPtr span => readsAgain_thisPtr span
  | .member _ base op name => readsAgain_member op name (readsAgain base)
  | .qualified _ owner name => readsAgain_qualified owner name
  | .call _ callee args => readsAgain_call (readsAgain callee) (readsAgain_args args)
  | .unary _ op operand => readsAgain_unary op (readsAgain operand)
  | .binary _ lhs op rhs => readsAgain_binary op (readsAgain lhs) (readsAgain rhs)
  | .literal span t => readsAgain_literal span t

/-- The forms of the arguments of a call are read as these. -/
theorem readsAgain_args : ∀ es : List Expr, ∀ e ∈ es,
    ReadsAgain Expr.ofJson? e.toJson e.leaves e
  | [] => fun _ h => absurd h List.not_mem_nil
  | e :: es => List.forall_mem_cons.mpr ⟨readsAgain e, readsAgain_args es⟩

end

end Expr

/-! ## 4. Statements -/

theorem LocalDecl.readsAgain (d : LocalDecl) :
    ReadsAgain LocalDecl.ofJson? d.toJson d.leaves d := by
  intro n hdepth hleaves
  obtain ⟨k, rfl, hmembers⟩ := depth_obj_le.mp hdepth
  simp only [List.forall_mem_cons] at hmembers
  obtain ⟨hnameDepth, _, hinitDepth, _⟩ := hmembers
  simp only [leaves, List.forall_mem_append, List.forall_mem_singleton] at hleaves
  obtain ⟨⟨⟨hnameLeaves, htype⟩, hinitLeaves⟩, hextent⟩ := hleaves
  have hfields : d.toJson.fields? ["name", "type", "init", "extent"] =
      some [some d.name.toJson, some d.type.toJson, some (.ofOption (d.init.map Expr.toJson)),
        some d.extent.toJson] := fields?_obj rfl (by decide)
  have hname := d.name.readsAgain k hnameDepth hnameLeaves
  have hinit := ReadsAgain.option Expr.toJson_ne_null Expr.readsAgain k hinitDepth hinitLeaves
  have htype : Ty.ofJson? d.type.toJson = some d.type := htype
  have hextent : Span.ofJson? d.extent.toJson = some d.extent := hextent
  rw [LocalDecl.ofJson?, hfields]
  simp only [Option.bind_eq_bind, Option.bind_some, hname, htype, orDefault, hinit, hextent]

namespace Stmt

theorem toJson_ne_null (s : Stmt) : s.toJson ≠ .null := by
  cases s <;> exact nofun

variable {tag : String} {leaves : List Leaf} {s : Stmt}

/-- A statement is read from its data. -/
theorem readsAgain_data {data : Json}
    (h : ReadsAgain (fun n json => Stmt.ofJson? (n + 1) (.obj [(tag, json)])) data leaves s) :
    ReadsAgain Stmt.ofJson? (.obj [(tag, data)]) leaves s := by
  intro n hdepth hleaves
  obtain ⟨k, rfl, hdata⟩ := depth_obj_le.mp hdepth
  exact h k (hdata (tag, data) List.mem_cons_self) hleaves

/-- A statement of several parts. -/
theorem readsAgain_parts {parts : List Json}
    (hdata : ∀ n data, Stmt.ofJson? (n + 1) (.obj [(tag, data)]) = Stmt.ofParts? n tag data)
    (h : ∀ n, (∀ part ∈ parts, part.depth ≤ n) → (∀ leaf ∈ leaves, leaf.ReadsBack) →
      Stmt.ofParts? (n + 1) tag (.arr parts) = some s) :
    ReadsAgain Stmt.ofJson? (.obj [(tag, .arr parts)]) leaves s := by
  refine readsAgain_data fun n hdepth hleaves => ?_
  obtain ⟨k, rfl, hparts⟩ := depth_arr_le.mp hdepth
  dsimp only
  rw [hdata]
  exact h k hparts hleaves

/-! Each kind of statement, given that the statements in it are read again. -/

theorem readsAgain_decl (d : LocalDecl) :
    ReadsAgain Stmt.ofJson? (decl d).toJson (decl d).leaves (decl d) :=
  readsAgain_data fun n hdepth hleaves =>
    congrArg (Option.map Stmt.decl) (d.readsAgain n hdepth hleaves)

theorem readsAgain_expr (e : Expr) :
    ReadsAgain Stmt.ofJson? (expr e).toJson (expr e).leaves (expr e) :=
  readsAgain_data fun n hdepth hleaves =>
    congrArg (Option.map Stmt.expr) (e.readsAgain n hdepth hleaves)

theorem readsAgain_ret (value : Option Expr) :
    ReadsAgain Stmt.ofJson? (ret value).toJson (ret value).leaves (ret value) :=
  readsAgain_data fun n hdepth hleaves => congrArg (Option.map Stmt.ret)
    (ReadsAgain.option Expr.toJson_ne_null Expr.readsAgain n hdepth hleaves)

theorem readsAgain_block {body : List Stmt}
    (hbody : ∀ s ∈ body, ReadsAgain Stmt.ofJson? s.toJson s.leaves s) :
    ReadsAgain Stmt.ofJson? (block body).toJson (block body).leaves (block body) := by
  rw [toJson, leaves, toJsons_eq, leavesOf_eq]
  refine readsAgain_parts (fun _ _ => rfl) fun n hparts hleaves => ?_
  have hrun : (body.map toJson).mapM (Stmt.ofJson? n) = some body :=
    ReadsAgain.list hbody (n + 1) (depth_arr_le.mpr ⟨n, rfl, hparts⟩) hleaves
  simp only [Stmt.ofParts?, Option.bind_eq_bind, hrun, Option.bind_some]

theorem readsAgain_ifThen (cond : Expr) {onTrue : Stmt}
    (honTrue : ReadsAgain Stmt.ofJson? onTrue.toJson onTrue.leaves onTrue) :
    ReadsAgain Stmt.ofJson? (ifThen cond onTrue).toJson (ifThen cond onTrue).leaves
      (ifThen cond onTrue) := by
  refine readsAgain_parts (fun _ _ => rfl) fun n hparts hleaves => ?_
  simp only [List.forall_mem_cons] at hparts
  obtain ⟨hcondDepth, honTrueDepth, _⟩ := hparts
  obtain ⟨hcondLeaves, honTrueLeaves⟩ := List.forall_mem_append.mp hleaves
  have hcond := cond.readsAgain n hcondDepth hcondLeaves
  have honTrue := honTrue n honTrueDepth honTrueLeaves
  simp only [Stmt.ofParts?, Option.bind_eq_bind, hcond, Option.bind_some, honTrue]

/-- A branch has an alternative when there is a third part other than `null`. -/
theorem ofParts?_ifElse {n : Nat} {cond onTrue onFalse : Json} (h : onFalse ≠ .null) :
    Stmt.ofParts? (n + 1) "if" (.arr [cond, onTrue, onFalse]) = (do
      some (.ifElse (← Expr.ofJson? n cond) (← Stmt.ofJson? n onTrue) (← Stmt.ofJson? n onFalse))) := by
  cases onFalse with
  | null => exact absurd rfl h
  | bool _ | num _ | str _ | arr _ | obj _ | broken => rfl

theorem readsAgain_ifElse (cond : Expr) {onTrue onFalse : Stmt}
    (honTrue : ReadsAgain Stmt.ofJson? onTrue.toJson onTrue.leaves onTrue)
    (honFalse : ReadsAgain Stmt.ofJson? onFalse.toJson onFalse.leaves onFalse) :
    ReadsAgain Stmt.ofJson? (ifElse cond onTrue onFalse).toJson (ifElse cond onTrue onFalse).leaves
      (ifElse cond onTrue onFalse) := by
  refine readsAgain_parts (fun _ _ => rfl) fun n hparts hleaves => ?_
  simp only [List.forall_mem_cons] at hparts
  obtain ⟨hcondDepth, honTrueDepth, honFalseDepth, _⟩ := hparts
  obtain ⟨hleftLeaves, honFalseLeaves⟩ := List.forall_mem_append.mp hleaves
  obtain ⟨hcondLeaves, honTrueLeaves⟩ := List.forall_mem_append.mp hleftLeaves
  have hcond := cond.readsAgain n hcondDepth hcondLeaves
  have honTrue := honTrue n honTrueDepth honTrueLeaves
  have honFalse := honFalse n honFalseDepth honFalseLeaves
  rw [ofParts?_ifElse onFalse.toJson_ne_null]
  simp only [Option.bind_eq_bind, hcond, Option.bind_some, honTrue, honFalse]

theorem readsAgain_loop (cond : Expr) {body : Stmt}
    (hbody : ReadsAgain Stmt.ofJson? body.toJson body.leaves body) :
    ReadsAgain Stmt.ofJson? (loop cond body).toJson (loop cond body).leaves (loop cond body) := by
  refine readsAgain_parts (fun _ _ => rfl) fun n hparts hleaves => ?_
  simp only [List.forall_mem_cons] at hparts
  obtain ⟨hcondDepth, hbodyDepth, _⟩ := hparts
  obtain ⟨hcondLeaves, hbodyLeaves⟩ := List.forall_mem_append.mp hleaves
  have hcond := cond.readsAgain n hcondDepth hcondLeaves
  have hbody := hbody n hbodyDepth hbodyLeaves
  simp only [Stmt.ofParts?, Option.bind_eq_bind, hcond, Option.bind_some, hbody]

mutual

/-- **The form of a statement is read as the statement.** -/
theorem readsAgain : ∀ s : Stmt, ReadsAgain Stmt.ofJson? s.toJson s.leaves s
  | .decl d => readsAgain_decl d
  | .expr e => readsAgain_expr e
  | .ret value => readsAgain_ret value
  | .block body => readsAgain_block (readsAgain_body body)
  | .ifThen cond onTrue => readsAgain_ifThen cond (readsAgain onTrue)
  | .ifElse cond onTrue onFalse =>
      readsAgain_ifElse cond (readsAgain onTrue) (readsAgain onFalse)
  | .loop cond body => readsAgain_loop cond (readsAgain body)

/-- The forms of the statements of a body are read as these. -/
theorem readsAgain_body : ∀ ss : List Stmt, ∀ s ∈ ss, ReadsAgain Stmt.ofJson? s.toJson s.leaves s
  | [] => fun _ h => absurd h List.not_mem_nil
  | s :: ss => List.forall_mem_cons.mpr ⟨readsAgain s, readsAgain_body ss⟩

end

theorem toJsons_ne_null (body : List Stmt) : Json.arr (toJsons body) ≠ .null := nofun

/-- The form of a body is read as the body. -/
theorem readsAgain_list (body : List Stmt) :
    ReadsAgain (list? Stmt.ofJson?) (.arr (toJsons body)) (leavesOf body) body := by
  rw [toJsons_eq, leavesOf_eq]
  exact .list fun s _ => readsAgain s

end Stmt

/-! ## 5. Declarations -/

theorem Param.readsAgain (d : Param) : ReadsAgain Param.ofJson? d.toJson d.leaves d := by
  intro n hdepth hleaves
  obtain ⟨k, rfl, hmembers⟩ := depth_obj_le.mp hdepth
  simp only [List.forall_mem_cons] at hmembers
  obtain ⟨hnameDepth, _⟩ := hmembers
  simp only [leaves, List.forall_mem_append, List.forall_mem_cons] at hleaves
  obtain ⟨hnameLeaves, htype, hextent, _⟩ := hleaves
  have hfields : d.toJson.fields? ["name", "type", "has_default", "extent"] =
      some [some (.ofOption (d.name.map Spanned.toJson)), some d.type.toJson,
        some (.bool d.hasDefault), some d.extent.toJson] := fields?_obj rfl (by decide)
  have hname := ReadsAgain.option SpannedName.toJson_ne_null SpannedName.readsAgain k hnameDepth
    hnameLeaves
  have htype : Ty.ofJson? d.type.toJson = some d.type := htype
  have hextent : Span.ofJson? d.extent.toJson = some d.extent := hextent
  rw [Param.ofJson?, hfields]
  simp only [Option.bind_eq_bind, Option.bind_some, SpannedName.field?, orDefault, hname, htype, flag?,
    bool?, hextent]

theorem FuncDecl.readsAgain (d : FuncDecl) : ReadsAgain FuncDecl.ofJson? d.toJson d.leaves d := by
  intro n hdepth hleaves
  obtain ⟨k, rfl, hmembers⟩ := depth_obj_le.mp hdepth
  simp only [List.forall_mem_cons] at hmembers
  obtain ⟨hqualifierDepth, hnameDepth, hparamsDepth, hresultDepth, _, _, _, hbodyDepth, _⟩ := hmembers
  simp only [leaves, List.forall_mem_append, List.forall_mem_singleton] at hleaves
  obtain ⟨⟨⟨⟨⟨hqualifierLeaves, hnameLeaves⟩, hparamsLeaves⟩, hresultLeaves⟩, hbodyLeaves⟩,
    hextent⟩ := hleaves
  have hfields : d.toJson.fields? ["qualifier", "name", "params", "return_type", "is_const",
      "is_static", "is_virtual", "body", "extent"] =
      some [some (.ofOption (d.qualifier.map Spanned.toJson)), some d.name.toJson,
        some (.arr (d.params.map Param.toJson)), some (.ofOption (d.result.map Ty.toJson)),
        some (.bool d.isConst), some (.bool d.isStatic), some (.bool d.isVirtual),
        some (.ofOption (d.body.map fun body => .arr (Stmt.toJsons body))), some d.extent.toJson] :=
    fields?_obj rfl (by decide)
  have hqualifier := ReadsAgain.option SpannedName.toJson_ne_null SpannedName.readsAgain k
    hqualifierDepth hqualifierLeaves
  have hname := d.name.readsAgain k hnameDepth hnameLeaves
  have hparams := ReadsAgain.list (fun p (_ : p ∈ d.params) => p.readsAgain) k hparamsDepth
    hparamsLeaves
  have hresult := ReadsAgain.option ReadsAgain.type_ne_null ReadsAgain.type k hresultDepth
    hresultLeaves
  have hbody := ReadsAgain.option Stmt.toJsons_ne_null Stmt.readsAgain_list k hbodyDepth hbodyLeaves
  have hextent : Span.ofJson? d.extent.toJson = some d.extent := hextent
  rw [FuncDecl.ofJson?, hfields]
  simp only [Option.bind_eq_bind, Option.bind_some, SpannedName.field?, listField?, flag?, orDefault,
    hqualifier, hname, hparams, hresult, bool?, hbody, hextent]

theorem FieldDecl.readsAgain (d : FieldDecl) :
    ReadsAgain FieldDecl.ofJson? d.toJson d.leaves d := by
  intro n hdepth hleaves
  obtain ⟨k, rfl, hmembers⟩ := depth_obj_le.mp hdepth
  simp only [List.forall_mem_cons] at hmembers
  obtain ⟨hnameDepth, _⟩ := hmembers
  simp only [leaves, List.forall_mem_append, List.forall_mem_cons] at hleaves
  obtain ⟨hnameLeaves, htype, hextent, _⟩ := hleaves
  have hfields : d.toJson.fields? ["name", "type", "is_static", "extent"] =
      some [some d.name.toJson, some d.type.toJson, some (.bool d.isStatic), some d.extent.toJson] :=
    fields?_obj rfl (by decide)
  have hname := d.name.readsAgain k hnameDepth hnameLeaves
  have htype : Ty.ofJson? d.type.toJson = some d.type := htype
  have hextent : Span.ofJson? d.extent.toJson = some d.extent := hextent
  rw [FieldDecl.ofJson?, hfields]
  simp only [Option.bind_eq_bind, Option.bind_some, hname, htype, flag?, orDefault, bool?, hextent]

theorem MemberDecl.readsAgain (d : MemberDecl) :
    ReadsAgain MemberDecl.ofJson? d.toJson d.leaves d := by
  intro n hdepth hleaves
  cases d with
  | field d =>
    obtain ⟨k, rfl, hdata⟩ := depth_obj_le.mp hdepth
    have hd := d.readsAgain k (hdata ("field", _) List.mem_cons_self) hleaves
    exact congrArg (Option.map MemberDecl.field) hd
  | method d =>
    obtain ⟨k, rfl, hdata⟩ := depth_obj_le.mp hdepth
    have hd := d.readsAgain k (hdata ("method", _) List.mem_cons_self) hleaves
    exact congrArg (Option.map MemberDecl.method) hd

theorem ClassDecl.readsAgain (d : ClassDecl) :
    ReadsAgain ClassDecl.ofJson? d.toJson d.leaves d := by
  intro n hdepth hleaves
  obtain ⟨k, rfl, hmembers⟩ := depth_obj_le.mp hdepth
  simp only [List.forall_mem_cons] at hmembers
  obtain ⟨hnameDepth, hbasesDepth, hmembersDepth, _⟩ := hmembers
  simp only [leaves, List.forall_mem_append, List.forall_mem_singleton] at hleaves
  obtain ⟨⟨⟨hnameLeaves, hbasesLeaves⟩, hmembersLeaves⟩, hextent⟩ := hleaves
  have hfields : d.toJson.fields? ["name", "bases", "members", "extent"] =
      some [some d.name.toJson, some (.arr (d.bases.map Spanned.toJson)),
        some (.arr (d.members.map MemberDecl.toJson)), some d.extent.toJson] :=
    fields?_obj rfl (by decide)
  have hname := d.name.readsAgain k hnameDepth hnameLeaves
  have hbases := ReadsAgain.list (fun base (_ : base ∈ d.bases) => SpannedName.readsAgain base) k
    hbasesDepth hbasesLeaves
  have hmembers := ReadsAgain.list (fun member (_ : member ∈ d.members) => member.readsAgain) k
    hmembersDepth hmembersLeaves
  have hextent : Span.ofJson? d.extent.toJson = some d.extent := hextent
  rw [ClassDecl.ofJson?, hfields]
  simp only [Option.bind_eq_bind, Option.bind_some, hname, listField?, orDefault, hbases, hmembers,
    hextent]

theorem TopDecl.readsAgain (d : TopDecl) : ReadsAgain TopDecl.ofJson? d.toJson d.leaves d := by
  intro n hdepth hleaves
  cases d with
  | ofClass d =>
    obtain ⟨k, rfl, hdata⟩ := depth_obj_le.mp hdepth
    have hd := d.readsAgain k (hdata ("class", _) List.mem_cons_self) hleaves
    exact congrArg (Option.map TopDecl.ofClass) hd
  | ofFunc d =>
    obtain ⟨k, rfl, hdata⟩ := depth_obj_le.mp hdepth
    have hd := d.readsAgain k (hdata ("func", _) List.mem_cons_self) hleaves
    exact congrArg (Option.map TopDecl.ofFunc) hd

/-! ## 6. Units -/

/-- **The form of a unit is read as the unit**, when its spans and types read back. -/
theorem SourceUnit.readsAgain (unit : SourceUnit) :
    ReadsAgain SourceUnit.ofJsonWithin? unit.toJson unit.leaves unit := by
  intro n hdepth hleaves
  obtain ⟨k, rfl, hmembers⟩ := depth_obj_le.mp hdepth
  simp only [List.forall_mem_cons] at hmembers
  obtain ⟨_, _, hdeclsDepth, htokensDepth, _⟩ := hmembers
  obtain ⟨hdeclsLeaves, htokensLeaves⟩ := List.forall_mem_append.mp hleaves
  have hfields : unit.toJson.fields? ["file", "source", "decls", "tokens"] =
      some [some (.str unit.file), some (.ofOption (unit.source.map Json.str)),
        some (.arr (unit.decls.map TopDecl.toJson)), some (.arr (unit.tokens.map Token.toJson))] :=
    fields?_obj rfl (by decide)
  have hsource : nullable str? (.ofOption (unit.source.map Json.str)) = some unit.source :=
    nullable_ofOption (fun _ => nofun) fun _ _ => rfl
  have hdecls := ReadsAgain.list (fun decl (_ : decl ∈ unit.decls) => decl.readsAgain) k hdeclsDepth
    hdeclsLeaves
  have htokens := ReadsAgain.list (fun token (_ : token ∈ unit.tokens) => token.readsAgain) k
    htokensDepth htokensLeaves
  rw [SourceUnit.ofJsonWithin?, hfields]
  simp only [Option.bind_eq_bind, Option.bind_some, str?, orDefault, hsource, hdecls, listField?, htokens]

/-- **A unit that was read is written and read back.** Every span in it can be written. Where no type
    has an lvalue reference directly inside another reference, the JSON form of the unit is read as the
    unit, within the bound that the unit was read in and without one. -/
theorem SourceUnit.reads_back {limit : Nat} {json : Json} {unit : SourceUnit}
    (h : SourceUnit.ofJsonWithin? limit json = some unit)
    (hrefs : ∀ t ∈ unit.types, t.refsApart = true) :
    (∀ s ∈ unit.spans, s.Writable) ∧
      SourceUnit.ofJsonWithin? limit unit.toJson = some unit ∧
        SourceUnit.ofJson? unit.toJson = some unit := by
  have hread := SourceUnit.readWithin h
  have hleaves : ∀ leaf ∈ unit.leaves, leaf.ReadsBack := by
    intro leaf hleaf
    refine Leaf.readsBack_of_isRead (hread.isRead leaf hleaf) fun t ht => hrefs t ?_
    rwa [mem_types, ← ht]
  refine ⟨fun s hs => ?_, ?_, ?_⟩
  · exact Leaf.writable_of_isRead (hread.isRead _ (mem_spans.mp hs))
  · exact unit.readsAgain limit hread.depth_le hleaves
  · exact unit.readsAgain unit.toJson.depth (Nat.le_refl _) hleaves

/-- A form of a unit in short: fields are absent, records are arrays, and types and spans are spelled
    freely. -/
def sparseJson : Json :=
  .obj [("decls", .arr [
      .obj [("class", .obj [("name", .arr [.str "Widget", .str "1:7-1:13"]), ("extent", .str "1:1-3:2"),
        ("members", .arr [.obj [("field", .arr [.arr [.str "size", .str "2:7-2:11"],
          .str " unsigned  int const * &", .bool false, .str "02:3-2:+12"])]])])],
      .obj [("func", .obj [("name", .arr [.str "main", .str "4:5-4:9"]), ("extent", .str "4:1-6:2"),
        ("body", .arr [.obj [("return", .obj [("span", .str "5:10-5:20"),
          ("locatee", .obj [("member", .arr [.arr [.obj [("this", .null)], .str "5:10-5:14"],
            .str "arrow", .arr [.str "size", .str "5:16-5:20"]])])])]])])]]),
    ("file", .str "widget.cpp")]

/-- The unit of which `sparseJson` is a form. -/
def sparseUnit : SourceUnit where
  file := "widget.cpp"
  source := none
  decls := [
    .ofClass ⟨⟨"Widget", ⟨⟨0, 6⟩, ⟨0, 12⟩⟩⟩, [],
      [.field ⟨⟨"size", ⟨⟨1, 6⟩, ⟨1, 10⟩⟩⟩, .lref (.pointer (.const (.named "unsigned int"))), false,
        ⟨⟨1, 2⟩, ⟨1, 11⟩⟩⟩], ⟨⟨0, 0⟩, ⟨2, 1⟩⟩⟩,
    .ofFunc ⟨none, ⟨"main", ⟨⟨3, 4⟩, ⟨3, 8⟩⟩⟩, [], none, false, false, false,
      some [.ret (some (.member ⟨⟨4, 9⟩, ⟨4, 19⟩⟩ (.thisPtr ⟨⟨4, 9⟩, ⟨4, 13⟩⟩) .arrow
        ⟨"size", ⟨⟨4, 15⟩, ⟨4, 19⟩⟩⟩))], ⟨⟨3, 0⟩, ⟨5, 1⟩⟩⟩]
  tokens := []

/-- What was left out is written, and the form reads back. -/
theorem sparseUnit_reads_back : SourceUnit.ofJsonWithin? 11 sparseJson = some sparseUnit ∧
    SourceUnit.ofJsonWithin? 11 sparseUnit.toJson = some sparseUnit := by
  have hread : SourceUnit.ofJsonWithin? 11 sparseJson = some sparseUnit := by cbv
  exact ⟨hread, (SourceUnit.reads_back hread (by decide)).2.1⟩

end MemberRefs
