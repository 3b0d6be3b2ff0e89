import MemberRefs.Proofs.Format.Leaves
import MemberRefs.Proofs.Json.Record

/-!
# What was read within a bound

Reading opens no more levels than a bound allows. The tree that is read is written with no more levels
than that, although absent fields are written too: where a list may be absent, a name beside it takes a
level. The spans and types in the tree are all read from texts (`ReadWithin`).

* `Expr.readWithin`, `Stmt.readWithin`: by induction on the bound.
* `SourceUnit.readWithin`: a unit that was read.
-/

namespace MemberRefs

open Json

/-- A tree with some JSON form and some leaves, as it is read within a bound. -/
structure ReadWithin (n : Nat) (json : Json) (leaves : List Leaf) : Prop where
  depth_le : json.depth ≤ n
  isRead : ∀ leaf ∈ leaves, leaf.IsRead

namespace ReadWithin

variable {n : Nat} {json : Json} {leaves : List Leaf}

/-! ## 1. Building blocks -/

theorem span {s : Span} (h : Span.ofJson? json = some s) : ReadWithin n s.toJson [.span s] :=
  ⟨Nat.zero_le n, List.forall_mem_singleton.mpr ⟨json, h⟩⟩

theorem type {t : Ty} (h : Ty.ofJson? json = some t) : ReadWithin n t.toJson [.type t] :=
  ⟨Nat.zero_le n, List.forall_mem_singleton.mpr ⟨json, h⟩⟩

/-- A text without a notation of its own. -/
theorem str (text : String) : ReadWithin n (.str text) [] :=
  ⟨Nat.zero_le n, List.forall_mem_nil _⟩

/-- An object whose values are no deeper than the bound below. -/
theorem obj {members : List (String × Json)} (hdepth : ∀ member ∈ members, member.2.depth ≤ n)
    (hread : ∀ leaf ∈ leaves, leaf.IsRead) : ReadWithin (n + 1) (.obj members) leaves :=
  ⟨depth_obj_le.mpr ⟨n, rfl, hdepth⟩, hread⟩

/-- An array whose items are no deeper than the bound below. -/
theorem arr {items : List Json} (hdepth : ∀ item ∈ items, item.depth ≤ n)
    (hread : ∀ leaf ∈ leaves, leaf.IsRead) : ReadWithin (n + 1) (.arr items) leaves :=
  ⟨depth_arr_le.mpr ⟨n, rfl, hdepth⟩, hread⟩

/-- A variant is one level deeper than its data. -/
theorem variant (tag : String) (h : ReadWithin n json leaves) :
    ReadWithin (n + 1) (.obj [(tag, json)]) leaves :=
  obj (List.forall_mem_singleton.mpr h.depth_le) h.isRead

section Fields

variable {α : Type} {read : Nat → Json → Option α} {write : α → Json} {leavesOf : α → List Leaf}

/-- A list of trees. -/
theorem list {as : List α} (h : ∀ a ∈ as, ReadWithin n (write a) (leavesOf a)) :
    ReadWithin (n + 1) (.arr (as.map write)) (as.flatMap leavesOf) := by
  refine arr (fun item hitem => ?_) fun leaf hleaf => ?_
  · obtain ⟨a, ha, rfl⟩ := List.mem_map.mp hitem
    exact (h a ha).depth_le
  · obtain ⟨a, ha, hleaf⟩ := List.mem_flatMap.mp hleaf
    exact (h a ha).isRead leaf hleaf

/-- A value that may be absent. -/
theorem option {a : Option α} (h : ∀ x, a = some x → ReadWithin n (write x) (leavesOf x)) :
    ReadWithin n (.ofOption (a.map write)) (a.toList.flatMap leavesOf) := by
  cases a with
  | none => exact ⟨Nat.zero_le n, List.forall_mem_nil _⟩
  | some x =>
    have hx := h x rfl
    refine ⟨hx.depth_le, ?_⟩
    rw [Option.toList_some, List.flatMap_singleton]
    exact hx.isRead

variable (hread : ∀ {n json a}, read n json = some a → ReadWithin n (write a) (leavesOf a))

include hread

/-- An array of trees. -/
theorem of_list? {as : List α} (h : list? read n json = some as) :
    ReadWithin n (.arr (as.map write)) (as.flatMap leavesOf) := by
  unfold list? at h
  split at h
  · exact list (forall_of_mapM_eq_some (fun _ _ => hread) h)
  · cases h

/-- An array that may be absent, beside something that takes a level. -/
theorem of_listField? {field : Option Json} {as : List α} (hn : 0 < n)
    (h : listField? read n field = some as) :
    ReadWithin n (.arr (as.map write)) (as.flatMap leavesOf) := by
  cases field with
  | none =>
    cases h
    obtain ⟨k, rfl⟩ := Nat.exists_eq_add_of_lt hn
    exact list fun _ ha => absurd ha List.not_mem_nil
  | some json => exact of_list? hread h

omit hread in
/-- A field that may be absent or `null`. -/
theorem of_nullable {readAt : Json → Option α} {field : Option Json} {a : Option α}
    (hreadAt : ∀ {json a}, readAt json = some a → ReadWithin n (write a) (leavesOf a))
    (h : orDefault (nullable readAt) none field = some a) :
    ReadWithin n (.ofOption (a.map write)) (a.toList.flatMap leavesOf) := by
  refine option fun x hx => ?_
  subst hx
  cases field with
  | none => cases h
  | some json => exact hreadAt (exists_of_nullable h)

end Fields

end ReadWithin

/-! ## 2. Names and tokens -/

theorem SpannedName.readWithin {n : Nat} {json : Json} {name : SpannedName}
    (h : SpannedName.ofJson? n json = some name) : ReadWithin n name.toJson name.leaves := by
  cases n with
  | zero => cases h
  | succ n =>
    simp only [SpannedName.ofJson?, Option.bind_eq_bind, Option.bind_eq_some_iff] at h
    obtain ⟨_, _, h⟩ := h
    split at h
    · simp only [Option.bind_eq_some_iff] at h
      obtain ⟨_, _, span, hspan, h⟩ := h
      cases h
      refine .obj ?_ (ReadWithin.span (n := n) hspan).isRead
      simp only [List.forall_mem_cons]
      exact ⟨Nat.zero_le n, Nat.zero_le n, List.forall_mem_nil _⟩
    · cases h

/-- A name takes a level. -/
theorem SpannedName.pos_of_ofJson? {n : Nat} {json : Json} {name : SpannedName}
    (h : SpannedName.ofJson? n json = some name) : 0 < n := by
  cases n with
  | zero => cases h
  | succ n => exact Nat.succ_pos n

theorem Token.readWithin {n : Nat} {json : Json} {token : Token}
    (h : Token.ofJson? n json = some token) : ReadWithin n token.toJson token.leaves := by
  cases n with
  | zero => cases h
  | succ n =>
    simp only [Token.ofJson?, Option.bind_eq_bind, Option.bind_eq_some_iff] at h
    obtain ⟨_, _, h⟩ := h
    split at h
    · simp only [Option.bind_eq_some_iff] at h
      obtain ⟨_, _, _, _, _, _, span, hspan, h⟩ := h
      cases h
      refine .obj ?_ (ReadWithin.span (n := n) hspan).isRead
      simp only [List.forall_mem_cons]
      exact ⟨Nat.zero_le n, Nat.zero_le n, Nat.zero_le n, List.forall_mem_nil _⟩
    · cases h

/-! ## 3. Expressions -/

namespace Expr

/-- What an expression that is read within the bound is like. -/
def ReadsWithin (n : Nat) : Prop :=
  ∀ {json e}, Expr.ofJson? n json = some e → ReadWithin n e.toJson e.leaves

variable {n : Nat} {span : Span} {tag : String} {data : Json} {e : Expr}

/-- A node with its place. -/
theorem readWithin_placed {node : Json} {leaves : List Leaf} (hspan : (Leaf.span span).IsRead)
    (h : ReadWithin n node leaves) :
    ReadWithin (n + 1) (placedJson node span) (.span span :: leaves) := by
  refine .obj ?_ (List.forall_mem_cons.mpr ⟨hspan, h.isRead⟩)
  simp only [List.forall_mem_cons]
  exact ⟨h.depth_le, Nat.zero_le n, List.forall_mem_nil _⟩

/-- A node of several parts with its place. -/
theorem readWithin_parts {parts : List Json} {leaves : List Leaf} (hspan : (Leaf.span span).IsRead)
    (hdepth : ∀ part ∈ parts, part.depth ≤ n) (hread : ∀ leaf ∈ leaves, leaf.IsRead) :
    ReadWithin (n + 3) (placedJson (.obj [(tag, .arr parts)]) span) (.span span :: leaves) :=
  readWithin_placed hspan (.variant tag (.arr hdepth hread))

theorem readWithin_of_ofParts? (ih : ∀ k < n, ReadsWithin k) (hspan : (Leaf.span span).IsRead)
    (h : Expr.ofParts? n span tag data = some e) : ReadWithin (n + 2) e.toJson e.leaves := by
  unfold Expr.ofParts? at h
  split at h
  · rename_i depth parts
    have ih' : ReadsWithin depth := ih depth (Nat.lt_succ_self depth)
    split at h
    · -- an access to a member: its operator is a word, not a tree
      simp only [Option.bind_eq_bind, Option.bind_eq_some_iff] at h
      obtain ⟨base, hbase, _, _, op, _, name, hname, h⟩ := h
      cases h
      have hbase := ih' hbase
      have hname := SpannedName.readWithin hname
      refine readWithin_parts hspan ?_ ?_
      · simp only [List.forall_mem_cons]
        exact ⟨hbase.depth_le, Nat.zero_le depth, hname.depth_le, List.forall_mem_nil _⟩
      · exact List.forall_mem_append.mpr ⟨hbase.isRead, hname.isRead⟩
    · -- a qualified name
      simp only [Option.bind_eq_bind, Option.bind_eq_some_iff] at h
      obtain ⟨owner, howner, name, hname, h⟩ := h
      cases h
      have howner := SpannedName.readWithin howner
      have hname := SpannedName.readWithin hname
      refine readWithin_parts hspan ?_ ?_
      · simp only [List.forall_mem_cons]
        exact ⟨howner.depth_le, hname.depth_le, List.forall_mem_nil _⟩
      · exact List.forall_mem_append.mpr ⟨howner.isRead, hname.isRead⟩
    · -- a call: the arguments are read two levels below, hence the strong induction
      obtain ⟨callee, hcallee, h⟩ := Option.bind_eq_some_iff.mp h
      split at h
      · rename_i k _ args
        obtain ⟨args', hargs, h⟩ := Option.bind_eq_some_iff.mp h
        cases h
        have hcallee := ih' hcallee
        have hk : ReadsWithin k := ih k (Nat.lt_succ_of_lt (Nat.lt_succ_self k))
        have hargs := ReadWithin.list (forall_of_mapM_eq_some (fun _ _ => hk) hargs)
        rw [toJson, leaves, toJsons_eq, leavesOf_eq]
        refine readWithin_parts hspan ?_ ?_
        · simp only [List.forall_mem_cons]
          exact ⟨hcallee.depth_le, hargs.depth_le, List.forall_mem_nil _⟩
        · exact List.forall_mem_append.mpr ⟨hcallee.isRead, hargs.isRead⟩
      · cases h
    · -- an operator with one operand
      simp only [Option.bind_eq_bind, Option.bind_eq_some_iff] at h
      obtain ⟨op, hop, operand, hoperand, h⟩ := h
      cases h
      have hop := SpannedName.readWithin hop
      have hoperand := ih' hoperand
      refine readWithin_parts hspan ?_ ?_
      · simp only [List.forall_mem_cons]
        exact ⟨hop.depth_le, hoperand.depth_le, List.forall_mem_nil _⟩
      · exact List.forall_mem_append.mpr ⟨hop.isRead, hoperand.isRead⟩
    · -- an operator with two operands
      simp only [Option.bind_eq_bind, Option.bind_eq_some_iff] at h
      obtain ⟨lhs, hlhs, op, hop, rhs, hrhs, h⟩ := h
      cases h
      have hlhs := ih' hlhs
      have hop := SpannedName.readWithin hop
      have hrhs := ih' hrhs
      refine readWithin_parts hspan ?_ ?_
      · simp only [List.forall_mem_cons]
        exact ⟨hlhs.depth_le, hop.depth_le, hrhs.depth_le, List.forall_mem_nil _⟩
      · exact List.forall_mem_append.mpr
          ⟨List.forall_mem_append.mpr ⟨hlhs.isRead, hop.isRead⟩, hrhs.isRead⟩
    · cases h
  · cases h

/-- An expression that holds nothing but a name. -/
theorem readWithin_name {make : SpannedName → Expr} (hspan : (Leaf.span span).IsRead)
    (hjson : ∀ name, (make name).toJson = placedJson (.obj [(tag, name.toJson)]) span)
    (hleaves : ∀ name, (make name).leaves = .span span :: name.leaves)
    (h : (SpannedName.ofJson? n data).map make = some e) :
    ReadWithin (n + 2) e.toJson e.leaves := by
  obtain ⟨name, hname, rfl⟩ := Option.map_eq_some_iff.mp h
  rw [hjson, hleaves]
  exact readWithin_placed hspan (.variant tag (SpannedName.readWithin hname))

theorem readWithin_of_ofData? (ih : ∀ k < n, ReadsWithin k) (hspan : (Leaf.span span).IsRead)
    (h : Expr.ofData? n span tag data = some e) : ReadWithin (n + 1) e.toJson e.leaves := by
  have hthis : ∀ m, ReadWithin (m + 1) (Expr.thisPtr span).toJson (Expr.thisPtr span).leaves :=
    fun m => readWithin_placed hspan (.str "this")
  unfold Expr.ofData? at h
  split at h
  · cases h
  · rename_i depth
    split at h
    · exact readWithin_name hspan (fun _ => rfl) (fun _ => rfl) h
    · exact readWithin_name hspan (fun _ => rfl) (fun _ => rfl) h
    · exact readWithin_name hspan (fun _ => rfl) (fun _ => rfl) h
    · obtain ⟨t, ht, rfl⟩ := Option.map_eq_some_iff.mp h
      exact readWithin_placed hspan (.variant "literal" (.type ht))
    · split at h
      · cases h
        exact hthis _
      · cases h
    · exact readWithin_of_ofParts? (fun k hk => ih k (Nat.lt_succ_of_lt hk)) hspan h

/-- **What an expression that was read is like.** -/
theorem readWithin (n : Nat) : ReadsWithin n := by
  induction n using Nat.strongRecOn with
  | _ n ih =>
    intro json e h
    cases n with
    | zero => cases h
    | succ n =>
      simp only [Expr.ofJson?, Option.bind_eq_bind, Option.bind_eq_some_iff] at h
      obtain ⟨_, _, h⟩ := h
      split at h
      · obtain ⟨span, hspan, h⟩ := Option.bind_eq_some_iff.mp h
        have hspan : (Leaf.span span).IsRead := ⟨_, hspan⟩
        split at h
        · cases h
          exact readWithin_placed hspan (.str "this")
        · exact readWithin_of_ofData? (fun k hk => ih k (Nat.lt_succ_of_lt hk)) hspan h
        · cases h
      · cases h

end Expr

/-! ## 4. Statements -/

theorem LocalDecl.readWithin {n : Nat} {json : Json} {d : LocalDecl}
    (h : LocalDecl.ofJson? n json = some d) : ReadWithin n d.toJson d.leaves := by
  cases n with
  | zero => cases h
  | succ n =>
    simp only [LocalDecl.ofJson?, Option.bind_eq_bind, Option.bind_eq_some_iff] at h
    obtain ⟨_, _, h⟩ := h
    split at h
    · simp only [Option.bind_eq_some_iff] at h
      obtain ⟨name, hname, t, ht, init, hinit, extent, hextent, h⟩ := h
      cases h
      have hname := SpannedName.readWithin hname
      have hinit := ReadWithin.of_nullable (fun h => Expr.readWithin n h) hinit
      refine .obj ?_ ?_
      · simp only [List.forall_mem_cons]
        exact ⟨hname.depth_le, Nat.zero_le n, hinit.depth_le, Nat.zero_le n, List.forall_mem_nil _⟩
      · simp only [LocalDecl.leaves, List.forall_mem_append, List.forall_mem_singleton]
        exact ⟨⟨⟨hname.isRead, _, ht⟩, hinit.isRead⟩, _, hextent⟩
    · cases h

namespace Stmt

/-- What a statement that is read within the bound is like. -/
def ReadsWithin (n : Nat) : Prop :=
  ∀ {json s}, Stmt.ofJson? n json = some s → ReadWithin n s.toJson s.leaves

theorem readWithin_of_ofParts? {n : Nat} {tag : String} {data : Json} {s : Stmt}
    (ih : ∀ k < n, ReadsWithin k) (h : Stmt.ofParts? n tag data = some s) :
    ReadWithin (n + 1) s.toJson s.leaves := by
  unfold Stmt.ofParts? at h
  split at h
  · rename_i depth _
    have ih' : ReadsWithin depth := ih depth (Nat.lt_succ_self depth)
    split at h
    · -- a block
      obtain ⟨body, hbody, h⟩ := Option.bind_eq_some_iff.mp h
      cases h
      have hbody := ReadWithin.list (forall_of_mapM_eq_some (fun _ _ => ih') hbody)
      rw [toJson, leaves, toJsons_eq, leavesOf_eq]
      exact .variant "block" hbody
    · -- a branch without an alternative: `null` is written in its place
      simp only [Option.bind_eq_bind, Option.bind_eq_some_iff] at h
      obtain ⟨cond, hcond, onTrue, honTrue, h⟩ := h
      cases h
      have hcond := Expr.readWithin depth hcond
      have honTrue := ih' honTrue
      refine .variant "if" (.arr ?_ ?_)
      · simp only [List.forall_mem_cons]
        exact ⟨hcond.depth_le, honTrue.depth_le, Nat.zero_le depth, List.forall_mem_nil _⟩
      · exact List.forall_mem_append.mpr ⟨hcond.isRead, honTrue.isRead⟩
    · -- a branch with an alternative
      simp only [Option.bind_eq_bind, Option.bind_eq_some_iff] at h
      obtain ⟨cond, hcond, onTrue, honTrue, onFalse, honFalse, h⟩ := h
      cases h
      have hcond := Expr.readWithin depth hcond
      have honTrue := ih' honTrue
      have honFalse := ih' honFalse
      refine .variant "if" (.arr ?_ ?_)
      · simp only [List.forall_mem_cons]
        exact ⟨hcond.depth_le, honTrue.depth_le, honFalse.depth_le, List.forall_mem_nil _⟩
      · simp only [leaves, List.forall_mem_append]
        exact ⟨⟨hcond.isRead, honTrue.isRead⟩, honFalse.isRead⟩
    · -- a loop
      simp only [Option.bind_eq_bind, Option.bind_eq_some_iff] at h
      obtain ⟨cond, hcond, body, hbody, h⟩ := h
      cases h
      have hcond := Expr.readWithin depth hcond
      have hbody := ih' hbody
      refine .variant "while" (.arr ?_ ?_)
      · simp only [List.forall_mem_cons]
        exact ⟨hcond.depth_le, hbody.depth_le, List.forall_mem_nil _⟩
      · exact List.forall_mem_append.mpr ⟨hcond.isRead, hbody.isRead⟩
    · cases h
  · cases h

/-- **What a statement that was read is like.** -/
theorem readWithin (n : Nat) : ReadsWithin n := by
  induction n using Nat.strongRecOn with
  | _ n ih =>
    intro json s h
    unfold Stmt.ofJson? at h
    split at h
    · rename_i depth tag data
      split at h
      · obtain ⟨d, hd, rfl⟩ := Option.map_eq_some_iff.mp h
        exact .variant "local" (LocalDecl.readWithin hd)
      · obtain ⟨e, he, rfl⟩ := Option.map_eq_some_iff.mp h
        exact .variant "expr" (Expr.readWithin depth he)
      · obtain ⟨value, hvalue, rfl⟩ := Option.map_eq_some_iff.mp h
        refine .variant "return" (.option fun e he => ?_)
        subst he
        exact Expr.readWithin depth (exists_of_nullable hvalue)
      · exact readWithin_of_ofParts? (fun k hk => ih k (Nat.lt_succ_of_lt hk)) h
    · cases h

/-- The statements of a body. -/
theorem readWithin_body {n : Nat} {json : Json} {body : List Stmt}
    (h : list? Stmt.ofJson? n json = some body) :
    ReadWithin n (.arr (toJsons body)) (leavesOf body) := by
  rw [toJsons_eq, leavesOf_eq]
  exact ReadWithin.of_list? (fun h => readWithin _ h) h

end Stmt

/-! ## 5. Declarations -/

theorem Param.readWithin {n : Nat} {json : Json} {d : Param} (h : Param.ofJson? n json = some d) :
    ReadWithin n d.toJson d.leaves := by
  cases n with
  | zero => cases h
  | succ n =>
    simp only [Param.ofJson?, Option.bind_eq_bind, Option.bind_eq_some_iff] at h
    obtain ⟨_, _, h⟩ := h
    split at h
    · simp only [Option.bind_eq_some_iff] at h
      obtain ⟨name, hname, t, ht, _, _, extent, hextent, h⟩ := h
      cases h
      have hname := ReadWithin.of_nullable SpannedName.readWithin hname
      refine .obj ?_ ?_
      · simp only [List.forall_mem_cons]
        exact ⟨hname.depth_le, Nat.zero_le n, Nat.zero_le n, Nat.zero_le n, List.forall_mem_nil _⟩
      · simp only [Param.leaves, List.forall_mem_append, List.forall_mem_cons]
        exact ⟨hname.isRead, ⟨_, ht⟩, ⟨_, hextent⟩, List.forall_mem_nil _⟩
    · cases h

theorem FuncDecl.readWithin {n : Nat} {json : Json} {d : FuncDecl}
    (h : FuncDecl.ofJson? n json = some d) : ReadWithin n d.toJson d.leaves := by
  cases n with
  | zero => cases h
  | succ n =>
    simp only [FuncDecl.ofJson?, Option.bind_eq_bind, Option.bind_eq_some_iff] at h
    obtain ⟨_, _, h⟩ := h
    split at h
    · simp only [Option.bind_eq_some_iff] at h
      obtain ⟨qualifier, hqualifier, name, hname, params, hparams, result, hresult, _, _, _, _, _, _,
        body, hbody, extent, hextent, h⟩ := h
      cases h
      have hn := SpannedName.pos_of_ofJson? hname
      have hqualifier := ReadWithin.of_nullable SpannedName.readWithin hqualifier
      have hname := SpannedName.readWithin hname
      have hparams := ReadWithin.of_listField? Param.readWithin hn hparams
      have hresult := ReadWithin.of_nullable (n := n) ReadWithin.type hresult
      have hbody := ReadWithin.of_nullable Stmt.readWithin_body hbody
      refine .obj ?_ ?_
      · simp only [List.forall_mem_cons]
        exact ⟨hqualifier.depth_le, hname.depth_le, hparams.depth_le, hresult.depth_le, Nat.zero_le n,
          Nat.zero_le n, Nat.zero_le n, hbody.depth_le, Nat.zero_le n, List.forall_mem_nil _⟩
      · simp only [FuncDecl.leaves, List.forall_mem_append, List.forall_mem_singleton]
        exact ⟨⟨⟨⟨⟨hqualifier.isRead, hname.isRead⟩, hparams.isRead⟩, hresult.isRead⟩, hbody.isRead⟩,
          _, hextent⟩
    · cases h

theorem FieldDecl.readWithin {n : Nat} {json : Json} {d : FieldDecl}
    (h : FieldDecl.ofJson? n json = some d) : ReadWithin n d.toJson d.leaves := by
  cases n with
  | zero => cases h
  | succ n =>
    simp only [FieldDecl.ofJson?, Option.bind_eq_bind, Option.bind_eq_some_iff] at h
    obtain ⟨_, _, h⟩ := h
    split at h
    · simp only [Option.bind_eq_some_iff] at h
      obtain ⟨name, hname, t, ht, _, _, extent, hextent, h⟩ := h
      cases h
      have hname := SpannedName.readWithin hname
      refine .obj ?_ ?_
      · simp only [List.forall_mem_cons]
        exact ⟨hname.depth_le, Nat.zero_le n, Nat.zero_le n, Nat.zero_le n, List.forall_mem_nil _⟩
      · simp only [FieldDecl.leaves, List.forall_mem_append, List.forall_mem_cons]
        exact ⟨hname.isRead, ⟨_, ht⟩, ⟨_, hextent⟩, List.forall_mem_nil _⟩
    · cases h

theorem MemberDecl.readWithin {n : Nat} {json : Json} {d : MemberDecl}
    (h : MemberDecl.ofJson? n json = some d) : ReadWithin n d.toJson d.leaves := by
  unfold MemberDecl.ofJson? at h
  split at h
  · obtain ⟨field, hfield, rfl⟩ := Option.map_eq_some_iff.mp h
    exact .variant "field" (FieldDecl.readWithin hfield)
  · obtain ⟨method, hmethod, rfl⟩ := Option.map_eq_some_iff.mp h
    exact .variant "method" (FuncDecl.readWithin hmethod)
  · cases h

theorem ClassDecl.readWithin {n : Nat} {json : Json} {d : ClassDecl}
    (h : ClassDecl.ofJson? n json = some d) : ReadWithin n d.toJson d.leaves := by
  cases n with
  | zero => cases h
  | succ n =>
    simp only [ClassDecl.ofJson?, Option.bind_eq_bind, Option.bind_eq_some_iff] at h
    obtain ⟨_, _, h⟩ := h
    split at h
    · simp only [Option.bind_eq_some_iff] at h
      obtain ⟨name, hname, bases, hbases, members, hmembers, extent, hextent, h⟩ := h
      cases h
      have hn := SpannedName.pos_of_ofJson? hname
      have hname := SpannedName.readWithin hname
      have hbases := ReadWithin.of_listField? SpannedName.readWithin hn hbases
      have hmembers := ReadWithin.of_listField? MemberDecl.readWithin hn hmembers
      refine .obj ?_ ?_
      · simp only [List.forall_mem_cons]
        exact ⟨hname.depth_le, hbases.depth_le, hmembers.depth_le, Nat.zero_le n, List.forall_mem_nil _⟩
      · simp only [ClassDecl.leaves, List.forall_mem_append, List.forall_mem_singleton]
        exact ⟨⟨⟨hname.isRead, hbases.isRead⟩, hmembers.isRead⟩, _, hextent⟩
    · cases h

theorem TopDecl.readWithin {n : Nat} {json : Json} {d : TopDecl}
    (h : TopDecl.ofJson? n json = some d) : ReadWithin n d.toJson d.leaves := by
  unfold TopDecl.ofJson? at h
  split at h
  · obtain ⟨c, hc, rfl⟩ := Option.map_eq_some_iff.mp h
    exact .variant "class" (ClassDecl.readWithin hc)
  · obtain ⟨f, hf, rfl⟩ := Option.map_eq_some_iff.mp h
    exact .variant "func" (FuncDecl.readWithin hf)
  · cases h

/-! ## 6. Units -/

/-- The text of a unit's source has no leaves. -/
theorem readWithin_source {n : Nat} (source : Option String) :
    ReadWithin n (.ofOption (source.map Json.str)) (source.toList.flatMap fun _ => []) :=
  .option fun text _ => .str text

/-- **What a unit that was read is like.** -/
theorem SourceUnit.readWithin {n : Nat} {json : Json} {unit : SourceUnit}
    (h : SourceUnit.ofJsonWithin? n json = some unit) : ReadWithin n unit.toJson unit.leaves := by
  cases n with
  | zero => cases h
  | succ n =>
    simp only [SourceUnit.ofJsonWithin?, Option.bind_eq_bind, Option.bind_eq_some_iff] at h
    obtain ⟨_, _, h⟩ := h
    split at h
    · simp only [Option.bind_eq_some_iff] at h
      obtain ⟨_, _, source, _, decls, hdecls, tokens, htokens, h⟩ := h
      cases h
      have hn : 0 < n := by
        unfold list? at hdecls
        split at hdecls
        · exact Nat.succ_pos _
        · cases hdecls
      have hdecls := ReadWithin.of_list? TopDecl.readWithin hdecls
      have htokens := ReadWithin.of_listField? Token.readWithin hn htokens
      refine .obj ?_ ?_
      · simp only [List.forall_mem_cons]
        exact ⟨Nat.zero_le n, (readWithin_source source).depth_le, hdecls.depth_le, htokens.depth_le,
          List.forall_mem_nil _⟩
      · exact List.forall_mem_append.mpr ⟨hdecls.isRead, htokens.isRead⟩
    · cases h

end MemberRefs
