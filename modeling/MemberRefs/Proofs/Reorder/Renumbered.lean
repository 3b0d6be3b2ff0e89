import MemberRefs.Proofs.Reorder.Rearranged
import MemberRefs.Proofs.Table.Effective
import MemberRefs.Table.Overload

/-!
# Renumbered tables

Classes, members and functions are numbered by their places, and top-level declarations are found at
theirs. A table may differ from another one in these numbers alone (`Renumbered`). What a name means in a
class, which members a class has, what it derives from and which overload is chosen is then the same in
both, except that the answers have the new numbers.

* `Renumbered.lookupMember`, `Renumbered.effectiveMembers`: what is visible in a class.
* `Renumbered.derivesFrom`: the classes above a class.
* `Renumbered.selectOverload`: the overload that is called.
-/

namespace MemberRefs

/-! ## 1. New numbers -/

/-- The path of a declaration, when the top-level declarations are moved to other places. -/
def DeclPath.move (π : Equiv.Perm Nat) : DeclPath → DeclPath
  | .top i => .top (π i)
  | .member i j => .member (π i) j
  | .param func k => .param (func.move π) k
  | .variable func k => .variable (func.move π) k

theorem DeclPath.move_move (π τ : Equiv.Perm Nat) (path : DeclPath) :
    (path.move π).move τ = path.move (π.trans τ) := by
  induction path with
  | top i => rfl
  | member i j => rfl
  | param func k ih => exact congrArg (DeclPath.param · k) ih
  | «variable» func k ih => exact congrArg (DeclPath.variable · k) ih

theorem DeclPath.move_refl (path : DeclPath) : path.move (Equiv.refl Nat) = path := by
  induction path with
  | top i => rfl
  | member i j => rfl
  | param func k ih => exact congrArg (DeclPath.param · k) ih
  | «variable» func k ih => exact congrArg (DeclPath.variable · k) ih

/-- Moving the declarations back moves every path back. -/
theorem DeclPath.move_symm_move (π : Equiv.Perm Nat) (path : DeclPath) :
    (path.move π).move π.symm = path := by
  rw [move_move, Equiv.self_trans_symm, move_refl]

theorem DeclPath.move_injective (π : Equiv.Perm Nat) : (DeclPath.move π).Injective :=
  Function.LeftInverse.injective (move_symm_move π)

theorem DeclPath.move_surjective (π : Equiv.Perm Nat) : (DeclPath.move π).Surjective :=
  Function.LeftInverse.surjective (move_symm_move π.symm)

/-- New numbers for the top-level declarations of a unit and for its classes, members and functions. -/
structure Renumbering where
  decls : Equiv.Perm Nat
  classes : Equiv.Perm ClassId
  members : Equiv.Perm MemberId
  funcs : Equiv.Perm FuncId

/-- A definition at its new path. -/
def Definition.renumber (r : Renumbering) (d : Definition) : Definition :=
  ⟨d.decl, d.path.move r.decls⟩

theorem Definition.renumber_injective (r : Renumbering) : (Definition.renumber r).Injective := by
  intro d d' h
  obtain ⟨hdecl, hpath⟩ := Definition.mk.inj h
  cases d
  cases d'
  cases hdecl
  exact congrArg _ (DeclPath.move_injective r.decls hpath)

theorem Definition.renumber_surjective (r : Renumbering) : (Definition.renumber r).Surjective := by
  intro d
  obtain ⟨path, hpath⟩ := DeclPath.move_surjective r.decls d.path
  exact ⟨⟨d.decl, path⟩, congrArg (Definition.mk d.decl) hpath⟩

/-- A class with the new numbers of its bases and members. -/
def ClassInfo.renumber (r : Renumbering) (info : ClassInfo) : ClassInfo :=
  ⟨info.decl, info.bases.map r.classes, info.members.map r.members⟩

/-- A function with the new numbers of its class and of the member it is. -/
def FuncInfo.renumber (r : Renumbering) (info : FuncInfo) : FuncInfo :=
  ⟨info.decl, info.owner.map (Prod.map r.classes r.members)⟩

/-- A member with new numbers; its definitions may come in another order. -/
structure MemberInfo.Renumbered (r : Renumbering) (info info' : MemberInfo) : Prop where
  decl : info'.decl = info.decl
  owner : info'.owner = r.classes info.owner
  path : info'.path = info.path.move r.decls
  definitions : info'.definitions.Perm (info.definitions.map (Definition.renumber r))

/-- **The second table is the first one with new numbers.** -/
structure Renumbered (r : Renumbering) (table table' : SymbolTable) : Prop where
  wellFormed : table.WellFormed
  wellFormed' : table'.WellFormed
  classes : Rearranged r.classes (table.classes.map (ClassInfo.renumber r)) table'.classes
  /-- Classes are found by their names under the new numbers. -/
  named : ∀ name, table'.classNamed? name = (table.classNamed? name).map r.classes
  members : ∀ m, Option.Rel (MemberInfo.Renumbered r) table.members[m]? table'.members[r.members m]?
  funcs : Rearranged r.funcs (table.funcs.map (FuncInfo.renumber r)) table'.funcs

namespace Renumbered

open Relation

variable {r : Renumbering} {table table' : SymbolTable}

/-! ## 2. What a number stands for -/

theorem getElem?_classes (h : Renumbered r table table') (c : ClassId) :
    table'.classes[r.classes c]? = (table.classes[c]?).map (ClassInfo.renumber r) := by
  rw [h.classes c, List.getElem?_map]

theorem getElem?_funcs (h : Renumbered r table table') (f : FuncId) :
    table'.funcs[r.funcs f]? = (table.funcs[f]?).map (FuncInfo.renumber r) := by
  rw [h.funcs f, List.getElem?_map]

theorem className (h : Renumbered r table table') (c : ClassId) :
    table'.className (r.classes c) = table.className c := by
  unfold SymbolTable.className
  rw [h.getElem?_classes c]
  cases table.classes[c]? <;> rfl

theorem bases (h : Renumbered r table table') (c : ClassId) :
    table'.bases (r.classes c) = (table.bases c).map r.classes := by
  unfold SymbolTable.bases
  rw [h.getElem?_classes c]
  cases table.classes[c]? <;> rfl

theorem membersOf (h : Renumbered r table table') (c : ClassId) :
    table'.membersOf (r.classes c) = (table.membersOf c).map r.members := by
  unfold SymbolTable.membersOf
  rw [h.getElem?_classes c]
  cases table.classes[c]? <;> rfl

/-- A number that stands for a member goes to one that does. -/
theorem getElem?_members (h : Renumbered r table table') (m : MemberId) :
    (table.members[m]? = none ∧ table'.members[r.members m]? = none) ∨
      ∃ info info', table.members[m]? = some info ∧ table'.members[r.members m]? = some info' ∧
        info.Renumbered r info' := by
  have hm := h.members m
  generalize table.members[m]? = info at hm
  generalize table'.members[r.members m]? = info' at hm
  cases hm with
  | none => exact .inl ⟨rfl, rfl⟩
  | some hinfo => exact .inr ⟨_, _, rfl, rfl, hinfo⟩

/-- **What is read off the declarations of members** is the same under the new numbers. -/
theorem bind_members (h : Renumbered r table table') {β : Type} {read : MemberInfo → Option β}
    (hread : ∀ info info' : MemberInfo, info'.decl = info.decl → read info' = read info)
    (m : MemberId) : (table'.members[r.members m]?).bind read = (table.members[m]?).bind read := by
  rcases h.getElem?_members m with ⟨hm, hm'⟩ | ⟨info, info', hm, hm', hinfo⟩
  · rw [hm, hm']
  · rw [hm, hm']
    exact hread _ _ hinfo.decl

theorem method? (h : Renumbered r table table') (m : MemberId) :
    table'.method? (r.members m) = table.method? m := by
  refine h.bind_members (fun info info' hdecl => ?_) m
  rw [MemberInfo.method?, hdecl, MemberInfo.method?]

theorem memberName (h : Renumbered r table table') (m : MemberId) :
    table'.memberName (r.members m) = table.memberName m := by
  unfold SymbolTable.memberName
  rcases h.getElem?_members m with ⟨hm, hm'⟩ | ⟨info, info', hm, hm', hinfo⟩
  · rw [hm, hm']
  · rw [hm, hm']
    exact congrArg (fun decl => decl.name.val) hinfo.decl

theorem ownMembers (h : Renumbered r table table') (c : ClassId) (name : String) :
    table'.ownMembers (r.classes c) name = (table.ownMembers c name).map r.members := by
  unfold SymbolTable.ownMembers
  rw [h.membersOf, List.filter_map]
  simp only [Function.comp_def, h.memberName]

/-! ## 3. Looking up -/

/-- Answers are joined in the same way when members have new numbers. -/
theorem mergeBases_map {number : MemberId → MemberId} (hnumber : number.Injective)
    (owner name : String) (found : Option (List MemberId)) (rs : List Found) :
    SymbolTable.mergeBases owner name (found.map (List.map number))
        (rs.map (Except.map (List.map number))) =
      (SymbolTable.mergeBases owner name found rs).map (List.map number) := by
  fun_induction SymbolTable.mergeBases owner name found rs with
  | case1 ms => rfl
  | case2 => rfl
  | case3 ms rest ih => exact ih
  | case4 ms rest ih =>
    simpa [SymbolTable.mergeBases, Except.map] using ih
  | case5 previous ms rest hne =>
    have hne' : previous.map number ≠ ms.map number :=
      fun heq => hne (List.map_injective_iff.mpr hnumber heq)
    simp [SymbolTable.mergeBases, Except.map, hne']
  | case6 found o n rest ih =>
    simpa [SymbolTable.mergeBases, Except.map] using ih
  | case7 found reason rest hnot =>
    simp [SymbolTable.mergeBases, Except.map]

/-- What is reached from a class under its new number has a number already. -/
theorem exists_of_reaches (h : Renumbered r table table') {c d : ClassId}
    (hway : Reaches table'.bases (r.classes c) d) : ∃ d', r.classes d' = d ∧ Reaches table.bases c d' := by
  induction hway with
  | refl => exact ⟨c, rfl, .refl⟩
  | tail _ hb ih =>
    obtain ⟨d, rfl, hway⟩ := ih
    rw [h.bases] at hb
    obtain ⟨b, hbase, rfl⟩ := List.mem_map.mp hb
    exact ⟨b, rfl, hway.tail hbase⟩

/-- **What a name means in a class** is the same under the new numbers, and so is the failure. -/
theorem lookupMember (h : Renumbered r table table') (c : ClassId) (name : String) :
    table'.lookupMember (r.classes c) name = (table.lookupMember c name).map (List.map r.members) := by
  induction c using h.wellFormed.bases_induction with
  | step c ih =>
    rw [SymbolTable.lookupMember_eq h.wellFormed', SymbolTable.lookupMember_eq h.wellFormed]
    unfold SymbolTable.lookupBelow
    rw [h.ownMembers, h.bases, h.className]
    cases table.ownMembers c name with
    | cons m ms => rfl
    | nil =>
      have hbases : ((table.bases c).map r.classes).map (fun b => table'.lookupMember b name) =
          ((table.bases c).map fun b => table.lookupMember b name).map
            (Except.map (List.map r.members)) := by
        rw [List.map_map, List.map_map]
        exact List.map_congr_left ih
      rw [hbases]
      exact mergeBases_map r.members.injective _ name none _

/-- **The members visible in a class** are the same under the new numbers, in the same order. -/
theorem effectiveMembers (h : Renumbered r table table') (c : ClassId) :
    table'.effectiveMembers (r.classes c) = (table.effectiveMembers c).map r.members := by
  induction c using h.wellFormed.bases_induction with
  | step c ih =>
    have hinherited : ((table.bases c).map r.classes).flatMap table'.effectiveMembers =
        ((table.bases c).flatMap table.effectiveMembers).map r.members := by
      rw [List.flatMap_map, List.map_flatMap]
      exact List.flatMap_congr ih
    have hunhidden : table'.unhidden (r.classes c) = (table.unhidden c).map r.members := by
      unfold SymbolTable.unhidden
      rw [h.bases, hinherited, h.membersOf, List.map_map, List.filter_map]
      simp only [Function.comp_def, h.memberName]
    rw [SymbolTable.effectiveMembers_eq h.wellFormed', SymbolTable.effectiveMembers_eq h.wellFormed]
    unfold SymbolTable.effectiveBelow
    rw [hunhidden, h.membersOf, eraseDups_map r.members.injective, List.map_append]

/-- **A class derives from the same classes** under the new numbers. -/
theorem derivesFrom (h : Renumbered r table table') (c d : ClassId) :
    table'.derivesFrom (r.classes c) (r.classes d) = table.derivesFrom c d := by
  rw [Bool.eq_iff_iff, SymbolTable.derivesFrom_iff, SymbolTable.derivesFrom_iff]
  constructor
  · intro hway
    obtain ⟨d', hd, hway⟩ := h.exists_of_reaches hway
    rwa [← r.classes.injective hd]
  · intro hway
    refine hway.lift r.classes fun a b hb => ?_
    show r.classes b ∈ table'.bases (r.classes a)
    rw [h.bases]
    exact List.mem_map_of_mem hb

/-! ## 4. Overloads -/

/-- The ranked members that no other one beats are chosen by their ranks. -/
theorem unbeaten_map (number : MemberId → MemberId) (ranked : List (MemberId × Rank)) :
    SymbolTable.unbeaten (ranked.map (Prod.map number id)) =
      (SymbolTable.unbeaten ranked).map (Prod.map number id) := by
  unfold SymbolTable.unbeaten
  rw [List.filter_map]
  simp only [Function.comp_def, List.all_map, Prod.map_snd, id_eq]

theorem viable (h : Renumbered r table table') (candidates : List MemberId)
    (args : List (Option Ty)) (objectConst : Bool) :
    table'.viable (candidates.map r.members) args objectConst =
      (table.viable candidates args objectConst).map (Prod.map r.members id) := by
  unfold SymbolTable.viable
  rw [List.filterMap_map, List.map_filterMap]
  refine List.filterMap_congr fun m _ => ?_
  have hrank : table'.rank? args objectConst (r.members m) = table.rank? args objectConst m := by
    unfold SymbolTable.rank?
    rw [h.method?]
  rw [Function.comp_apply, hrank, Option.map_map]
  rfl

/-- **The same overload is called**, or the choice fails for the same reason. -/
theorem selectOverload (h : Renumbered r table table') (name : String) (candidates : List MemberId)
    (args : Option (List (Option Ty))) (objectConst : Bool) :
    table'.selectOverload name (candidates.map r.members) args objectConst =
      (table.selectOverload name candidates args objectConst).map r.members := by
  unfold SymbolTable.selectOverload
  match candidates, args with
  | [m], _ => rfl
  | [], none | _ :: _ :: _, none => rfl
  | [], some args => rfl
  | m :: m' :: ms, some args =>
    have hviable := h.viable (m :: m' :: ms) args objectConst
    simp only [List.map_cons] at hviable ⊢
    rw [hviable, unbeaten_map]
    match SymbolTable.unbeaten (table.viable (m :: m' :: ms) args objectConst) with
    | [] | [_] | _ :: _ :: _ => rfl

end Renumbered

end MemberRefs
