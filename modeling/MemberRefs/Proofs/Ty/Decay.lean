import Mathlib.Data.List.Basic
import Mathlib.Data.List.Induction
import MemberRefs.Proofs.Table.Overload
import MemberRefs.Proofs.Ty.Grammar
import MemberRefs.Proofs.Ty.Layers

/-!
# Decay as a normal form

Decay takes the outer references off a type and then the `const` behind them, and looks no further. A
reference that is itself `const` therefore stays (`int& const` decays to `int&`), and nothing else does:
in every other type neither a reference nor `const` is left, a second decay changes nothing, and layers
of both around the type do not count when an argument is compared with a parameter.

* `decay_within_eq_iff`: the layers around a type that decay sees through.
* `isReference_decay_eq_false_iff`, `decay_decay_iff`: the types of which no reference is left.
* `hasConstRef_foldl_iff`: the texts that spell these types.
* `matchesParam_within_iff`, `matchesParam_paramWithin_iff`: the layers that do not count when an argument
  is compared with a parameter.
* `decay_normal_form`: what decay leaves, and what it does not see.
-/

namespace MemberRefs

namespace Ty

/-! ## 1. Layers around a type -/

/-- A layer that reading through a type takes off. -/
inductive Layer where
  | const
  | lref
  | rref
  deriving DecidableEq, Repr

/-- The type inside one layer. -/
def Layer.around : Layer → Ty → Ty
  | const, type => .const type
  | lref, type => .lref type
  | rref, type => .rref type

/-- The type inside a stack of layers, of which the first is the outermost. -/
def within (type : Ty) (stack : List Layer) : Ty := stack.foldr Layer.around type

/-- The number of layers around the name. -/
def depth : Ty → Nat
  | named _ => 0
  | const inner | pointer inner | lref inner | rref inner => inner.depth + 1

/-- Whether some `const` of a stack stands directly around a reference, of the stack or of the type. -/
def makesConstRef (type : Ty) : List Layer → Bool
  | [] => false
  | .const :: stack => (type.within stack).isReference || type.makesConstRef stack
  | .lref :: stack | .rref :: stack => type.makesConstRef stack

/-- Whether some `const` stands directly around a reference, outside of the name or pointer. -/
def hasConstRef : Ty → Bool
  | const inner => inner.isReference || inner.hasConstRef
  | lref inner | rref inner => inner.hasConstRef
  | named _ | pointer _ => false

theorem makesConstRef_const (type : Ty) (stack : List Layer) :
    type.makesConstRef (.const :: stack) =
      ((type.within stack).isReference || type.makesConstRef stack) := rfl

theorem hasConstRef_asConst (type : Ty) :
    type.asConst.hasConstRef = (type.isReference || type.hasConstRef) := by
  cases type <;> rfl

theorem isReference_asConst (type : Ty) : type.asConst.isReference = false := by
  cases type <;> rfl

/-! ## 2. What decay leaves -/

theorem isConst_of_isReference {type : Ty} (h : type.isReference = true) : type.isConst = false := by
  cases type with
  | lref _ | rref _ => rfl
  | named _ | const _ | pointer _ => cases h

/-- A `const` around a reference is taken off, and the reference stays. -/
theorem decay_const_of_isReference {type : Ty} (h : type.isReference = true) :
    (const type).decay = type :=
  stripConst_of_not_const (isConst_of_isReference h)

/-- A `const` around anything else does not count. -/
theorem decay_const_of_not_reference {type : Ty} (h : type.isReference = false) :
    (const type).decay = type.decay := by
  rw [decay, decay, stripRefs_of_not_reference h]
  rfl

theorem isConst_decay (type : Ty) : type.decay.isConst = false := isConst_stripConst _

theorem depth_stripConst_le (type : Ty) : type.stripConst.depth ≤ type.depth := by
  induction type with
  | const inner ih => exact Nat.le_succ_of_le ih
  | named _ | pointer _ | lref _ | rref _ => exact Nat.le_refl _

theorem depth_stripRefs_le (type : Ty) : type.stripRefs.depth ≤ type.depth := by
  induction type with
  | lref inner ih | rref inner ih => exact Nat.le_succ_of_le ih
  | named _ | const _ | pointer _ => exact Nat.le_refl _

theorem depth_decay_le (type : Ty) : type.decay.depth ≤ type.depth :=
  Nat.le_trans (depth_stripConst_le _) (depth_stripRefs_le type)

theorem depth_decay_lt {type : Ty} (h : type.isReference = true) : type.decay.depth < type.depth := by
  cases type with
  | lref inner | rref inner => exact Nat.lt_succ_of_le (depth_decay_le inner)
  | named _ | const _ | pointer _ => cases h

theorem decay_ne_of_isReference {type : Ty} (h : type.isReference = true) : type.decay ≠ type :=
  fun heq => Nat.lt_irrefl _ (heq ▸ depth_decay_lt h)

theorem depth_within (type : Ty) (stack : List Layer) :
    (type.within stack).depth = stack.length + type.depth := by
  induction stack with
  | nil => exact (Nat.zero_add _).symm
  | cons layer stack ih =>
    have hlayer : ∀ inner : Ty, (layer.around inner).depth = inner.depth + 1 := by
      intro inner
      cases layer <;> rfl
    rw [within, List.foldr_cons, hlayer, ← within, ih, List.length_cons, Nat.add_right_comm]

/-- **Decay does not see layers around a type exactly when they make no reference `const`.** -/
theorem decay_within_eq_iff (type : Ty) (stack : List Layer) :
    (type.within stack).decay = type.decay ↔ type.makesConstRef stack = false := by
  induction stack with
  | nil => exact iff_of_true rfl rfl
  | cons layer stack ih =>
    cases layer with
    | lref | rref => exact ih
    | const =>
      rw [within, List.foldr_cons, ← within, Layer.around, makesConstRef_const]
      cases href : (type.within stack).isReference with
      | false =>
        rw [decay_const_of_not_reference href, Bool.false_or]
        exact ih
      | true =>
        rw [decay_const_of_isReference href, Bool.true_or]
        refine iff_of_false (fun heq => ?_) Bool.noConfusion
        -- The reference inside the `const` would have to be what the type inside it decays to.
        cases stack with
        | nil => exact decay_ne_of_isReference href heq.symm
        | cons layer stack =>
          have hdepth := congrArg depth heq
          have hle := depth_decay_le type
          rw [depth_within, List.length_cons] at hdepth
          omega

/-- **No reference is left exactly where none is `const`.** -/
theorem isReference_decay_eq_false_iff (type : Ty) :
    type.decay.isReference = false ↔ type.hasConstRef = false := by
  induction type with
  | named _ | pointer _ => exact iff_of_true rfl rfl
  | lref inner ih | rref inner ih => exact ih
  | const inner ih =>
    rw [hasConstRef]
    cases href : inner.isReference with
    | false =>
      rw [decay_const_of_not_reference href, Bool.false_or]
      exact ih
    | true =>
      rw [decay_const_of_isReference href, href, Bool.true_or]

/-- **Decay is idempotent exactly where no reference is `const`.** -/
theorem decay_decay_iff (type : Ty) :
    type.decay.decay = type.decay ↔ type.hasConstRef = false := by
  rw [← isReference_decay_eq_false_iff]
  cases href : type.decay.isReference with
  | false =>
    have hfixed : type.decay.decay = type.decay := by
      rw [decay, stripRefs_of_not_reference href, stripConst_of_not_const (isConst_decay type)]
    exact iff_of_true hfixed rfl
  | true =>
    exact iff_of_false (decay_ne_of_isReference href) Bool.noConfusion

/-! ## 3. Texts that spell a `const` reference -/

/-- Whether the suffix makes a reference. -/
def Suffix.isReference : Suffix → Bool
  | lref | rref => true
  | const | pointer => false

/-- Behind every `const` that directly follows a reference stands a pointer. -/
def ConstRefsPointedTo (suffixes : List Suffix) : Prop :=
  ∀ front ref back, suffixes = front ++ ref :: .const :: back → ref.isReference = true →
    .pointer ∈ back

theorem isReference_wrap (type : Ty) (suffix : Suffix) :
    (suffix.wrap type).isReference = suffix.isReference := by
  cases suffix with
  | const => exact isReference_asConst type
  | pointer | lref | rref => rfl

theorem constRefsPointedTo_nil : ConstRefsPointedTo [] :=
  fun _ _ _ heq _ => absurd heq (by simp)

theorem isReference_namedBy (words : List (List Char)) : (namedBy words).isReference = false := by
  unfold namedBy
  dsimp only
  split <;> rfl

theorem hasConstRef_namedBy (words : List (List Char)) : (namedBy words).hasConstRef = false := by
  unfold namedBy
  dsimp only
  split <;> rfl

/-- A place between the suffixes before the last one, or right in front of the last one. -/
theorem snoc_eq_append_iff {suffixes front back : List Suffix} {suffix ref : Suffix} :
    suffixes ++ [suffix] = front ++ ref :: .const :: back ↔
      (back = [] ∧ suffix = .const ∧ suffixes = front ++ [ref]) ∨
        ∃ inner, back = inner ++ [suffix] ∧ suffixes = front ++ ref :: .const :: inner := by
  rcases List.eq_nil_or_concat' back with rfl | ⟨inner, last, rfl⟩
  · have hsplit : front ++ [ref, .const] = (front ++ [ref]) ++ [.const] := by
      rw [List.append_assoc, List.singleton_append]
    rw [hsplit, List.append_singleton_inj]
    simp [and_comm]
  · have hsplit : front ++ ref :: .const :: (inner ++ [last]) =
        (front ++ ref :: .const :: inner) ++ [last] := by
      rw [List.append_assoc, List.cons_append, List.cons_append]
    rw [hsplit, List.append_singleton_inj]
    constructor
    · rintro ⟨hfront, rfl⟩
      exact .inr ⟨inner, rfl, hfront⟩
    · rintro (⟨hnil, -⟩ | ⟨inner', hback, hfront⟩)
      · exact absurd hnil (by simp)
      · obtain ⟨rfl, rfl⟩ := List.append_singleton_inj.mp hback
        exact ⟨hfront, rfl⟩

/-- A pointer at the end stands behind everything else. -/
theorem constRefsPointedTo_pointer (suffixes : List Suffix) :
    ConstRefsPointedTo (suffixes ++ [.pointer]) := by
  intro front ref back heq _
  rcases snoc_eq_append_iff.mp heq with ⟨-, hconst, -⟩ | ⟨inner, rfl, -⟩
  · cases hconst
  · exact List.mem_append_right inner List.mem_cons_self

/-- Another suffix at the end is no pointer, and as a `const` it must not follow a reference. -/
theorem constRefsPointedTo_snoc {suffixes : List Suffix} {suffix : Suffix} (hne : suffix ≠ .pointer) :
    ConstRefsPointedTo (suffixes ++ [suffix]) ↔ ConstRefsPointedTo suffixes ∧
      (suffix = .const → ∀ front ref, suffixes = front ++ [ref] → ref.isReference = false) := by
  constructor
  · intro h
    refine ⟨fun front ref back heq href => ?_, fun hconst front ref heq => ?_⟩
    · have hmem : Suffix.pointer ∈ back ++ [suffix] :=
        h front ref _ (snoc_eq_append_iff.mpr (.inr ⟨back, rfl, heq⟩)) href
      exact (List.mem_append.mp hmem).resolve_right fun hlast => hne (List.mem_singleton.mp hlast).symm
    · rw [← Bool.not_eq_true]
      intro href
      exact absurd (h front ref [] (snoc_eq_append_iff.mpr (.inl ⟨rfl, hconst, heq⟩)) href)
        List.not_mem_nil
  · rintro ⟨hbefore, hlast⟩ front ref back heq href
    rcases snoc_eq_append_iff.mp heq with ⟨-, hconst, hfront⟩ | ⟨inner, rfl, hfront⟩
    · rw [hlast hconst front ref hfront] at href
      cases href
    · exact List.mem_append_left _ (hbefore front ref inner hfront href)

/-- What is spelled is a reference if the last suffix makes one. -/
theorem isReference_foldl_iff {base : Ty} (href : base.isReference = false) (suffixes : List Suffix) :
    (suffixes.foldl Suffix.wrap base).isReference = false ↔
      ∀ front ref, suffixes = front ++ [ref] → ref.isReference = false := by
  rcases List.eq_nil_or_concat' suffixes with rfl | ⟨front, last, rfl⟩
  · exact iff_of_true href fun _ _ heq => absurd heq (by simp)
  · rw [List.foldl_append, List.foldl_cons, List.foldl_nil, isReference_wrap]
    refine ⟨fun h _ ref heq => ?_, fun h => h front last rfl⟩
    exact (List.append_singleton_inj.mp heq).2 ▸ h

/-- **A spelled type has a `const` reference exactly when a `const` directly follows a reference and no
    pointer comes behind.** -/
theorem hasConstRef_foldl_iff {base : Ty} (href : base.isReference = false)
    (hbase : base.hasConstRef = false) (suffixes : List Suffix) :
    (suffixes.foldl Suffix.wrap base).hasConstRef = false ↔ ConstRefsPointedTo suffixes := by
  induction suffixes using List.reverseRecOn with
  | nil => exact iff_of_true hbase constRefsPointedTo_nil
  | append_singleton suffixes suffix ih =>
    rw [List.foldl_append, List.foldl_cons, List.foldl_nil]
    cases suffix with
    | pointer => exact iff_of_true rfl (constRefsPointedTo_pointer suffixes)
    | lref | rref =>
      rw [constRefsPointedTo_snoc (by decide), ← ih]
      exact (and_iff_left nofun).symm
    | const =>
      rw [constRefsPointedTo_snoc (by decide), Suffix.wrap, hasConstRef_asConst, Bool.or_eq_false_iff,
        ih, isReference_foldl_iff href, and_comm]
      exact and_congr_right fun _ => ⟨fun h _ => h, fun h => h rfl⟩

end Ty

/-! ## 4. Arguments and parameters -/

/-- **Layers around the type of an argument do not count for the parameters that it matches** exactly when
    they make no reference `const`. -/
theorem matchesParam_within_iff (type : Ty) (stack : List Ty.Layer) :
    (∀ param, matchesParam (some (type.within stack)) param = matchesParam (some type) param) ↔
      type.makesConstRef stack = false := by
  rw [← Ty.decay_within_eq_iff]
  constructor
  · intro h
    -- A parameter of the type itself tells the two decayed types apart.
    have hself : ((type.within stack).decay == type.decay) = (type.decay == type.decay) :=
      h ⟨none, type, false, default⟩
    rw [beq_self_eq_true, beq_iff_eq] at hself
    exact hself
  · intro h param
    exact congrArg (· == param.type.decay) h

/-- **Layers around the type of a parameter do not count for the arguments that match it** exactly when they
    make no reference `const`. -/
theorem matchesParam_paramWithin_iff (param : Param) (stack : List Ty.Layer) :
    (∀ arg, matchesParam arg { param with type := param.type.within stack } = matchesParam arg param) ↔
      param.type.makesConstRef stack = false := by
  rw [← Ty.decay_within_eq_iff]
  constructor
  · intro h
    have hself : (param.type.decay == (param.type.within stack).decay) =
        (param.type.decay == param.type.decay) := h (some param.type)
    rw [beq_self_eq_true, beq_iff_eq] at hself
    exact hself.symm
  · intro h arg
    rw [matchesParam, matchesParam, h]

/-! ## 5. Decay as a normal form -/

namespace Ty

/-- **Decay as a normal form.** What is left of a type that was read is not `const`. It is no reference
    either, and decays to itself, exactly when the type has no `const` reference: when behind every `const`
    that directly follows a reference in its spelling stands a pointer. A stack of references and `const`
    around the type does not change what it decays to, as which parameters it matches as the type of an
    argument, or which arguments as the type of a parameter, exactly when it makes no reference `const`; the
    same overloads are chosen then. -/
theorem decay_normal_form {text : String} {type : Ty} (h : parse text = .ok type) :
    type.decay.isConst = false ∧
    (type.decay.isReference = false ↔ type.hasConstRef = false) ∧
    (type.decay.decay = type.decay ↔ type.hasConstRef = false) ∧
    (∃ words suffixes, Grammar (Text.trim text.toList) words suffixes ∧ type = meaning words suffixes ∧
      (type.hasConstRef = false ↔ ConstRefsPointedTo suffixes)) ∧
    ∀ stack,
      ((type.within stack).decay = type.decay ↔ type.makesConstRef stack = false) ∧
      ((∀ param, matchesParam (some (type.within stack)) param = matchesParam (some type) param) ↔
        type.makesConstRef stack = false) ∧
      (∀ param : Param, param.type = type →
        ((∀ arg, matchesParam arg { param with type := type.within stack } = matchesParam arg param) ↔
          type.makesConstRef stack = false)) ∧
      (type.makesConstRef stack = false →
        ∀ (table : SymbolTable) (name : String) (candidates : List MemberId)
          (before after : List (Option Ty)) (objectConst : Bool),
          table.selectOverload name candidates (some (before ++ some (type.within stack) :: after))
              objectConst =
            table.selectOverload name candidates (some (before ++ some type :: after)) objectConst) := by
  obtain ⟨words, suffixes, hgrammar, -, htype⟩ := exists_grammar_of_ofChars? (parse_eq_ok.mp h)
  have hspelled : type.hasConstRef = false ↔ ConstRefsPointedTo suffixes := by
    rw [htype]
    exact hasConstRef_foldl_iff (isReference_namedBy words) (hasConstRef_namedBy words) suffixes
  refine ⟨isConst_decay type, isReference_decay_eq_false_iff type, decay_decay_iff type,
    ⟨words, suffixes, hgrammar, htype, hspelled⟩, fun stack => ⟨decay_within_eq_iff type stack,
      matchesParam_within_iff type stack, ?_, fun hstack table name candidates before after _ => ?_⟩⟩
  · rintro param rfl
    exact matchesParam_paramWithin_iff param stack
  · refine SymbolTable.selectOverload_of_decay_eq ?_
    have hdecay : (type.within stack).decay = type.decay := (decay_within_eq_iff type stack).mpr hstack
    simp [hdecay]

/-- A pointer to a `const` reference, which is none itself, behind `const` and a reference. -/
theorem decay_normal_form_pointer :
    parse "int& const*" = .ok (pointer (const (lref (named "int")))) ∧
      (pointer (const (lref (named "int")))).decay.isReference = false ∧
      (within (pointer (const (lref (named "int")))) [.lref, .const]).decay =
        pointer (const (lref (named "int"))) := by
  have hparse : parse "int& const*" = .ok (pointer (const (lref (named "int")))) := rfl
  obtain ⟨-, href, -, -, hstack⟩ := decay_normal_form hparse
  exact ⟨hparse, href.mpr rfl, (hstack [.lref, .const]).1.mpr rfl⟩

/-- A reference that was made `const` is left and decays further. It is not what the reference in it
    decays to, and does not match the parameter that this reference matches. -/
theorem decay_of_const_reference :
    parse "int& const" = .ok (const (lref (named "int"))) ∧
      (const (lref (named "int"))).decay.isReference = true ∧
      (const (lref (named "int"))).decay.decay ≠ (const (lref (named "int"))).decay ∧
      parse "int&" = .ok (lref (named "int")) ∧
      (within (lref (named "int")) [.const]).decay ≠ (lref (named "int")).decay ∧
      matchesParam (some (within (lref (named "int")) [.const])) ⟨none, named "int", false, default⟩ ≠
        matchesParam (some (lref (named "int"))) ⟨none, named "int", false, default⟩ :=
  ⟨rfl, rfl, by decide, rfl, by decide, by decide⟩

end Ty

end MemberRefs
