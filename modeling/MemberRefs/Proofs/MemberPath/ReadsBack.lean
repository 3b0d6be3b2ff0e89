import MemberRefs.Proofs.MemberPath.Forms
import MemberRefs.Proofs.MemberPath.Params
import MemberRefs.Proofs.Ty.Layers

/-!
# Member paths read back

A path that was read is an identifier, the name of a member and perhaps a signature whose parameter
types are not `const`. Written as text it is read as a path again, with the same class. The member and
the signature are the same too, unless the text is that of another path (`ReadsBack`): a parameter type
is spelled like another type, a single `void` is spelled like no parameters, and the member `operator`
without parameters like the call operator.

* `parts_of_parse`: what a path that was read is made of.
* `parse_text`: what the text of a path is read as.
* `path_reads_back`: when a path is the one that its text denotes.
-/

namespace MemberRefs

open Text

namespace Ty

theorem Spelled.stripConst {type : Ty} (h : type.Spelled) : type.stripConst.Spelled := by
  induction type with
  | const inner ih => exact ih h.2
  | named _ | pointer _ | lref _ | rref _ => exact h

theorem refsApart_stripConst {type : Ty} (h : type.refsApart = true) :
    type.stripConst.refsApart = true := by
  induction type with
  | const inner ih => exact ih h
  | named _ | pointer _ | lref _ | rref _ => exact h

theorem isConst_addAmpersand (type : Ty) : type.addAmpersand.isConst = false := by
  cases type <;> rfl

theorem isConst_reread {type : Ty} (h : type.isConst = false) : type.reread.isConst = false := by
  cases type with
  | const _ => cases h
  | named _ | pointer _ => rfl
  | lref inner | rref inner => exact isConst_addAmpersand _

end Ty

/-! ## 1. Paths that read back -/

namespace Signature

/-- A parameter list that is not spelled like another one. -/
def ReadsBack (s : Signature) : Prop :=
  (∀ type ∈ s.params, type.refsApart = true) ∧ s.params ≠ [.named "void"]

/-- What the text of a signature spells. -/
def reread (s : Signature) : Signature :=
  ⟨if s.params = [.named "void"] then [] else s.params.map Ty.reread, s.isConst⟩

theorem reread_eq_iff {s : Signature} (h : ∀ type ∈ s.params, type.Spelled) :
    s.reread = s ↔ s.ReadsBack := by
  obtain ⟨params, isConst⟩ := s
  have hparams : (params.map Ty.reread = params) ↔ ∀ type ∈ params, type.refsApart = true := by
    conv_lhs => rhs; rw [← List.map_id params]
    rw [List.map_inj_left]
    exact forall₂_congr fun type htype => Ty.reread_eq_iff (h type htype)
  rw [reread, ReadsBack, mk.injEq, and_iff_left rfl]
  by_cases hvoid : params = [.named "void"]
  · rw [if_pos hvoid, hvoid]
    exact ⟨fun heq => absurd heq (List.cons_ne_nil _ _).symm, fun hback => absurd rfl hback.2⟩
  · rw [if_neg hvoid, hparams]
    exact (and_iff_left hvoid).symm

/-- The parameter types of a signature are not `const`, so they are taken as they are read. -/
theorem ofParams_reread {params : List Ty} {isConst : Bool} (h : ∀ type ∈ params, type.isConst = false) :
    ofParams (reread ⟨params, isConst⟩).params isConst = reread ⟨params, isConst⟩ := by
  rw [ofParams, reread, mk.injEq, and_iff_left rfl]
  split
  · rfl
  · rw [List.map_map, List.map_inj_left]
    exact fun type htype => Ty.stripConst_of_not_const (Ty.isConst_reread (h type htype))

end Signature

namespace MemberPath

/-- A path that is not written like another one. -/
def ReadsBack (path : MemberPath) : Prop :=
  ∀ s, path.signature = some s → s.ReadsBack ∧ ¬ (path.member = "operator" ∧ s = ⟨[], false⟩)

/-- The member has a blank behind `operator` only as an allocation function. -/
def Unspaced (path : MemberPath) : Prop :=
  Name.operatorWord ++ [' '] <+: path.member.toList →
    ∃ op ∈ allocators, path.member.toList = Name.operatorWord ++ ' ' :: op

/-- What a path that was read is made of. -/
structure Parts (path : MemberPath) : Prop where
  owner : IsIdentifier path.owner.toList
  member : MemberName path.member.toList
  params : ∀ s, path.signature = some s → ∀ type ∈ s.params, type.Spelled ∧ type.isConst = false

/-! ## 2. Reading -/

theorem spelled_of_readParams {cs : List Char} {types : List Ty} (h : readParams cs = .ok types) :
    ∀ type ∈ types, type.Spelled := by
  unfold readParams at h
  intro type htype
  dsimp only at h
  split at h
  · cases h
    exact absurd htype List.not_mem_nil
  · obtain ⟨piece, _, hpiece⟩ := exists_of_mem_mapM_ok h htype
    exact Ty.spelled_of_ofChars? (Ty.parse_eq_ok.mp hpiece)

theorem parts_of_cut {cs : List Char} {c : Cut} (h : cut cs = some c) :
    IsIdentifier c.owner ∧ MemberName (normalize c.member) := by
  unfold cut at h
  obtain ⟨⟨owner, rest⟩, howner, h⟩ := Option.bind_eq_some_iff.mp h
  obtain ⟨rest', _, h⟩ := Option.bind_eq_some_iff.mp h
  rw [cutMember_eq] at h
  obtain ⟨form, _, hform⟩ := List.exists_of_findSome?_eq_some h
  obtain ⟨_, _, _, rfl⟩ := exists_of_cutBy hform
  exact ⟨isIdentifier_of_readIdentifier howner, memberName_of_cutMember h⟩

/-- **What a path that was read is made of.** -/
theorem parts_of_parse {text : String} {path : MemberPath} (h : parse text = .ok path) :
    path.Parts := by
  unfold parse at h
  split at h
  · cases h
  · rename_i owner member tail hcut
    obtain ⟨howner, hmember⟩ := parts_of_cut hcut
    dsimp only at h
    split at h
    · cases h
      exact ⟨by rwa [String.toList_ofList], by rwa [String.toList_ofList], fun _ hs => by cases hs⟩
    · split at h
      · rename_i types htypes
        cases h
        refine ⟨by rwa [String.toList_ofList], by rwa [String.toList_ofList], fun s hs type htype => ?_⟩
        cases hs
        obtain ⟨declared, hdeclared, rfl⟩ := List.mem_map.mp htype
        exact ⟨(spelled_of_readParams htypes declared hdeclared).stripConst,
          Ty.isConst_stripConst declared⟩
      · cases h

/-! ## 3. Reading again -/

theorem MemberName.solid {name : List Char} (h : MemberName name) :
    name ≠ [] ∧ Stops isBlank name := by
  cases h with
  | plain hname =>
    obtain ⟨c, cs, rfl, _⟩ := id hname
    exact ⟨List.cons_ne_nil c cs, hname.stops⟩
  | call | allocator _ | symbols _ _ | destructor _ | spaced _ =>
    exact ⟨List.cons_ne_nil _ _, stops_cons.mpr (by decide)⟩

/-- The class of a path is cut off as a whole. -/
theorem cut_append {owner member tail : List Char} (howner : IsIdentifier owner)
    (hmember : MemberName member) :
    cut (owner ++ ':' :: ':' :: (member ++ tail)) = cutMember owner (member ++ tail) := by
  obtain ⟨hne, hsolid⟩ := hmember.solid
  have hfirst : Stops isBlank (owner ++ ':' :: ':' :: (member ++ tail)) := by
    refine howner.stops.append fun _ => stops_cons.mpr (by decide)
  have hcolon : Stops isWordChar (':' :: ':' :: (member ++ tail)) := stops_cons.mpr (by decide)
  have hcolons : after? [':', ':'] (':' :: ':' :: (member ++ tail)) = some (member ++ tail) :=
    after?_append [':', ':'] (member ++ tail)
  have hrest : Stops isBlank (member ++ tail) := hsolid.append fun hnil => absurd hnil hne
  rw [cut, dropBlanks_eq_self hfirst, readIdentifier_append howner hcolon]
  simp only [Option.bind_eq_bind, Option.bind_some]
  rw [dropBlanks_cons_solid (by decide), hcolons, Option.bind_some, dropBlanks_eq_self hrest]

theorem toList_text (path : MemberPath) :
    path.text.toList = path.owner.toList ++ ':' :: ':' :: (path.member.toList ++
      (path.signature.elim [] fun s => s.text.toList)) := by
  cases hsignature : path.signature <;> simp [MemberPath.text, hsignature]

/-- What stands behind the member is no empty parameter list, so no call operator is read. -/
theorem cutBy_call_text {owner : List Char} {s : Signature} (h : ∀ type ∈ s.params, type.Spelled)
    (hne : s ≠ ⟨[], false⟩) :
    cutBy owner (Name.operatorWord ++ s.text.toList) (operatorForm (readBrackets '(' ')')) =
      none := by
  obtain ⟨params, isConst⟩ := s
  cases params with
  | nil =>
    cases isConst with
    | false => exact absurd rfl hne
    | true => rfl
  | cons type types =>
    -- a type stands between the parentheses
    have hsolid := solid_paramsText (List.cons_ne_nil type types) h
    have hclosing : ∀ c ∈ paramsText (type :: types), c ≠ ')' := by
      refine forall_mem_paramsText (by decide) (fun c hc => ?_) h
      rintro rfl
      exact absurd hc (by decide)
    obtain ⟨c, cs, htext⟩ := List.exists_cons_of_ne_nil hsolid.ne_nil
    have hc : isBlank c = false := stops_cons.mp (htext ▸ hsolid.first)
    refine cutBy_of_none ?_
    rw [toList_signatureText, htext, operatorForm_append]
    simp only [List.cons_append]
    rw [dropBlanks_cons_solid (by decide), readBrackets_cons, dropBlanks_cons_solid hc,
      after?_cons_of_ne (hclosing c (htext ▸ List.mem_cons_self)).symm]
    rfl

/-- What stands behind the member of a path is read as the signature's parts. -/
theorem readTail_signature {path : MemberPath} (h : path.Parts) :
    readTail (path.signature.elim [] fun s => s.text.toList) =
      some (path.signature.map fun s => (paramsText s.params, s.isConst)) := by
  cases hsignature : path.signature with
  | none => rfl
  | some s => exact readTail_text fun type htype => (h.params s hsignature type htype).1

theorem isTail_signature (signature : Option Signature) :
    IsTail (signature.elim [] fun s => s.text.toList) := by
  cases signature with
  | none => exact fun c hc => by cases hc
  | some s =>
    intro c hc
    rw [Option.elim_some, toList_signatureText] at hc
    exact (Option.some.inj hc).symm

/-- A path cut into its parts is read as them. -/
theorem parse_of_cut {text : String} {owner member : List Char} {signature : Option Signature}
    (h : ∀ s, signature = some s → ∀ type ∈ s.params, type.Spelled ∧ type.isConst = false)
    (hcut : cut text.toList = some ⟨owner, member,
      signature.map fun s => (paramsText s.params, s.isConst)⟩) :
    parse text = .ok ⟨String.ofList owner, String.ofList (normalize member),
      signature.map Signature.reread⟩ := by
  rw [parse, hcut]
  cases signature with
  | none => rfl
  | some s =>
    have hparams := readParams_text fun type htype => (h s rfl type htype).1
    have hsignature := @Signature.ofParams_reread s.params s.isConst fun type htype =>
      (h s rfl type htype).2
    simp only [Option.map_some, hparams]
    exact congrArg (fun s => Except.ok (MemberPath.mk _ _ (some s))) hsignature

/-- **What the text of a path is read as**: the path with its signature read again, unless it is taken
    for a call operator. -/
theorem parse_text {path : MemberPath} (h : path.Parts) (hunspaced : path.Unspaced)
    (hcall : ¬ (path.member = "operator" ∧ path.signature = some ⟨[], false⟩)) :
    parse path.text = .ok ⟨path.owner, path.member, path.signature.map Signature.reread⟩ := by
  have hnocall : path.member.toList = Name.operatorWord →
      cutBy path.owner.toList
        (Name.operatorWord ++ path.signature.elim [] fun s => s.text.toList)
        (operatorForm (readBrackets '(' ')')) = none := by
    intro hmember
    have hoperator : path.member = "operator" := String.toList_inj.mp hmember
    cases hsignature : path.signature with
    | none => rfl
    | some s =>
      refine cutBy_call_text (fun type htype => (h.params s hsignature type htype).1) ?_
      rintro rfl
      exact hcall ⟨hoperator, hsignature⟩
  obtain ⟨raw, hraw, hnormal⟩ := cutMember_memberName h.member hunspaced
    (isTail_signature path.signature) (readTail_signature h) hnocall
  have hcut : cut path.text.toList =
      cutMember path.owner.toList (path.member.toList ++ _) :=
    path.toList_text ▸ cut_append h.owner h.member
  rw [hraw] at hcut
  have hparse := parse_of_cut h.params hcut
  rwa [hnormal, String.ofList_toList, String.ofList_toList] at hparse

/-- The method `operator` without parameters is written like the call operator. -/
theorem parse_text_call {path : MemberPath} (h : path.Parts) (hmember : path.member = "operator")
    (hsignature : path.signature = some ⟨[], false⟩) :
    parse path.text = .ok ⟨path.owner, "operator()", none⟩ := by
  have hword : path.member.toList = Name.operatorWord := congrArg String.toList hmember
  have htext : path.text.toList =
      path.owner.toList ++ ':' :: ':' :: (Name.operatorWord ++ ['(', ')']) := by
    rw [toList_text, hsignature, hword]
    rfl
  have hcut : cut path.text.toList =
      some ⟨path.owner.toList, Name.operatorWord ++ ['(', ')'], none⟩ := by
    rw [htext, cut_append h.owner (hword ▸ h.member)]
    exact @cutMember_call path.owner.toList [] none rfl
  rw [parse, hcut]
  simp only [String.ofList_toList]
  rfl

/-- **A path that was read is written as a path.** It reads back as the path itself exactly when it is
    not written like another one. -/
theorem path_reads_back {text : String} {path : MemberPath} (h : parse text = .ok path)
    (hunspaced : path.Unspaced) :
    (∃ again, parse path.text = .ok again) ∧
      (parse path.text = .ok path ↔ path.ReadsBack) := by
  have hparts := parts_of_parse h
  by_cases hcall : path.member = "operator" ∧ path.signature = some ⟨[], false⟩
  · obtain ⟨hmember, hsignature⟩ := hcall
    have hagain := parse_text_call hparts hmember hsignature
    refine ⟨⟨_, hagain⟩, ?_⟩
    have hne : parse path.text ≠ .ok path := by
      intro hsame
      rw [hagain, Except.ok.injEq] at hsame
      have hname : "operator()" = path.member := congrArg MemberPath.member hsame
      exact absurd (hname.trans hmember) (by decide)
    exact iff_of_false hne fun hback => (hback _ hsignature).2 ⟨hmember, rfl⟩
  · have hagain := parse_text hparts hunspaced hcall
    refine ⟨⟨_, hagain⟩, ?_⟩
    obtain ⟨owner, member, signature⟩ := path
    rw [hagain, Except.ok.injEq, mk.injEq, and_iff_right rfl, and_iff_right rfl, ReadsBack]
    cases signature with
    | none => exact iff_of_true rfl fun s hs => by cases hs
    | some s =>
      have hreread := @Signature.reread_eq_iff s fun type htype => (hparts.params s rfl type htype).1
      rw [Option.map_some, Option.some.injEq, hreread]
      refine ⟨fun hback s' hs' => ?_, fun hback => (hback s rfl).1⟩
      cases hs'
      refine ⟨hback, fun hboth => hcall ⟨hboth.1, congrArg some hboth.2⟩⟩

/-- An operator with a parameter list is written and read back. -/
theorem path_reads_back_operator :
    parse "A :: operator + (int, const B&) const" =
        .ok ⟨"A", "operator+", some ⟨[.named "int", .lref (.const (.named "B"))], true⟩⟩ ∧
      parse (MemberPath.text
          ⟨"A", "operator+", some ⟨[.named "int", .lref (.const (.named "B"))], true⟩⟩) =
        .ok ⟨"A", "operator+", some ⟨[.named "int", .lref (.const (.named "B"))], true⟩⟩ := by
  refine ⟨by decide, (@path_reads_back "A :: operator + (int, const B&) const" _ (by decide) ?_).2.mpr ?_⟩
  · exact fun hstart => absurd hstart (by decide)
  · rintro s hs
    cases hs
    refine ⟨⟨by decide, by decide⟩, by decide⟩

/-- Paths whose text is that of another one: with a reference to a reference, with a single `const void`
    and with a method `operator` that has no parameters. -/
theorem text_of_another_path :
    (∃ path, parse "A::f(int& &)" = .ok path ∧ parse path.text ≠ .ok path) ∧
      (∃ path, parse "A::f(const void)" = .ok path ∧ parse path.text ≠ .ok path) ∧
        ∃ path, parse "A::operator(void)" = .ok path ∧ parse path.text ≠ .ok path := by
  refine ⟨⟨⟨"A", "f", some ⟨[.lref (.lref (.named "int"))], false⟩⟩, by decide, by decide⟩,
    ⟨⟨"A", "f", some ⟨[.named "void"], false⟩⟩, by decide, by decide⟩,
    ⟨⟨"A", "operator", some ⟨[], false⟩⟩, by decide, by decide⟩⟩

end MemberPath

end MemberRefs
