import MemberRefs.Proofs.Tree.Parts
import MemberRefs.Tree.Decl

/-!
# Local variables of a function

The local variables of a body are found by working off a list of statements still to visit. Here they are
compared with the walk that visits a statement and then, one after the other, the statements in it
(`Stmt.preorder`), and with the addresses of statements. An address is the list of the positions that lead
to a statement from the outside in. In lexicographic order a statement comes before the statements in it,
and the first part of a branch before its alternative.

* `locals_eq_filterMap_preorderAll`: working off a list of statements is walking over each of them.
* `map_at?_addresses`, `mem_addresses_iff`, `pairwise_addresses`: the walk comes to every address once, in
  order.
* `FuncDecl.locals_in_order`: the local variables are what is declared at the addresses of declarations.
-/

namespace MemberRefs

namespace Stmt

/-! ## 1. Walking over statements -/

mutual

/-- A statement and all statements in it, from a walk that visits a statement before those in it. -/
def preorder : Stmt → List Stmt
  | decl d => [decl d]
  | expr e => [expr e]
  | ret value => [ret value]
  | block body => block body :: preorderAll body
  | ifThen cond onTrue => ifThen cond onTrue :: onTrue.preorder
  | ifElse cond onTrue onFalse => ifElse cond onTrue onFalse :: (onTrue.preorder ++ onFalse.preorder)
  | loop cond body => loop cond body :: body.preorder

/-- The walks over several statements, one after the other. -/
def preorderAll : List Stmt → List Stmt
  | [] => []
  | s :: ss => s.preorder ++ preorderAll ss

end

theorem preorder_eq (s : Stmt) : s.preorder = s :: preorderAll s.children := by
  cases s <;> simp [preorder, preorderAll, children]

theorem preorderAll_append (ss ts : List Stmt) :
    preorderAll (ss ++ ts) = preorderAll ss ++ preorderAll ts := by
  induction ss with
  | nil => rfl
  | cons s ss ih => rw [List.cons_append, preorderAll, ih, preorderAll, List.append_assoc]

/-- **Working off a list of statements is walking over each of them**: what is pending behind a statement
    stays behind the statements in it. -/
theorem locals_eq_filterMap_preorderAll (pending : List Stmt) :
    locals pending = (preorderAll pending).filterMap localDecl? := by
  fun_induction locals pending with
  | case1 => rfl
  | case2 s pending ih =>
    rw [ih, preorderAll_append, preorderAll, preorder_eq, List.cons_append, List.filterMap_cons]
    cases s.localDecl? <;> rfl

/-! ## 2. Addresses -/

/-- The statement at an address in a statement. -/
def at? (s : Stmt) : List Nat → Option Stmt
  | [] => some s
  | i :: address => s.children[i]?.bind fun c => c.at? address

mutual

/-- The addresses of a statement and of all statements in it, in the order of the walk. -/
def addresses : Stmt → List (List Nat)
  | decl _ | expr _ | ret _ => [[]]
  | block body => [] :: addressesFrom 0 body
  | ifThen _ onTrue => [] :: onTrue.addresses.map (0 :: ·)
  | ifElse _ onTrue onFalse =>
      [] :: (onTrue.addresses.map (0 :: ·) ++ onFalse.addresses.map (1 :: ·))
  | loop _ body => [] :: body.addresses.map (0 :: ·)

/-- The addresses of statements that stand one after the other, the first one at position `i`. -/
def addressesFrom (i : Nat) : List Stmt → List (List Nat)
  | [] => []
  | s :: ss => s.addresses.map (i :: ·) ++ addressesFrom (i + 1) ss

end

theorem addresses_eq (s : Stmt) : s.addresses = [] :: addressesFrom 0 s.children := by
  cases s <;> simp [addresses, addressesFrom, children]

theorem mem_addressesFrom_iff {address : List Nat} : ∀ {ss : List Stmt} {i : Nat},
    address ∈ addressesFrom i ss ↔
      ∃ j s rest, ss[j]? = some s ∧ rest ∈ s.addresses ∧ address = (i + j) :: rest
  | [], i => by simp [addressesFrom]
  | s :: ss, i => by
      rw [addressesFrom, List.mem_append, mem_addressesFrom_iff]
      constructor
      · rintro (h | ⟨j, c, rest, hc, hrest, rfl⟩)
        · obtain ⟨rest, hrest, rfl⟩ := List.mem_map.mp h
          exact ⟨0, s, rest, rfl, hrest, rfl⟩
        · exact ⟨j + 1, c, rest, hc, hrest, by rw [Nat.add_assoc, Nat.add_comm 1]⟩
      · rintro ⟨j, c, rest, hc, hrest, rfl⟩
        match j with
        | 0 =>
          cases hc
          exact .inl (List.mem_map_of_mem hrest)
        | j + 1 => exact .inr ⟨j, c, rest, hc, hrest, by rw [Nat.add_assoc, Nat.add_comm 1]⟩

/-- **Every statement has its address.** -/
theorem mem_addresses_iff : ∀ {address : List Nat} {s : Stmt},
    address ∈ s.addresses ↔ ∃ c, s.at? address = some c
  | [], s => by simp [addresses_eq, at?]
  | i :: address, s => by
      have hrest : ∀ c : Stmt, address ∈ c.addresses ↔ ∃ d, c.at? address = some d :=
        fun _ => mem_addresses_iff
      rw [addresses_eq, List.mem_cons, mem_addressesFrom_iff, at?]
      constructor
      · rintro (h | ⟨j, c, rest, hc, hmem, heq⟩)
        · cases h
        · obtain ⟨rfl, rfl⟩ := List.cons.inj heq
          obtain ⟨d, hd⟩ := (hrest c).mp hmem
          exact ⟨d, by rw [Nat.zero_add, hc, Option.bind_some, hd]⟩
      · rintro ⟨d, hd⟩
        obtain ⟨c, hc, hd⟩ := Option.bind_eq_some_iff.mp hd
        exact .inr ⟨i, c, address, hc, (hrest c).mpr ⟨d, hd⟩, by rw [Nat.zero_add]⟩

/-- **The walk comes to the addresses in order.** -/
theorem pairwise_addresses (s : Stmt) : s.addresses.Pairwise (· < ·) := by
  induction s using children_induction with
  | step s ih =>
    have hfrom : ∀ (ss : List Stmt) (i : Nat), (∀ c ∈ ss, c.addresses.Pairwise (· < ·)) →
        (addressesFrom i ss).Pairwise (· < ·) := by
      intro ss
      induction ss with
      | nil => exact fun _ _ => .nil
      | cons c ss ihs =>
        intro i hall
        obtain ⟨hc, hss⟩ := List.forall_mem_cons.mp hall
        refine List.pairwise_append.mpr ⟨?_, ihs (i + 1) hss, ?_⟩
        · exact hc.map _ fun _ _ h => List.cons_lt_cons_iff.mpr (.inr ⟨rfl, h⟩)
        · intro a ha b hb
          obtain ⟨rest, -, rfl⟩ := List.mem_map.mp ha
          obtain ⟨j, _, rest', -, -, rfl⟩ := mem_addressesFrom_iff.mp hb
          exact List.cons_lt_cons_iff.mpr (.inl (by omega))
    rw [addresses_eq]
    refine List.pairwise_cons.mpr ⟨fun a ha => ?_, hfrom _ 0 ih⟩
    obtain ⟨j, _, rest, -, -, rfl⟩ := mem_addressesFrom_iff.mp ha
    exact List.nil_lt_cons _ _

/-- **At the addresses stand the statements of the walk.** -/
theorem map_at?_addresses (s : Stmt) : s.addresses.map s.at? = s.preorder.map some := by
  induction s using children_induction with
  | step s ih =>
    have hfrom : ∀ (ss before : List Stmt), s.children = before ++ ss →
        (addressesFrom before.length ss).map s.at? = (preorderAll ss).map some := by
      intro ss
      induction ss with
      | nil => exact fun _ _ => rfl
      | cons c ss ihs =>
        intro before heq
        have hc : c ∈ s.children := by simp [heq]
        have hget : s.children[before.length]? = some c := by simp [heq]
        have hbelow : (c.addresses.map (before.length :: ·)).map s.at? = c.addresses.map c.at? := by
          rw [List.map_map]
          refine List.map_congr_left fun address _ => ?_
          rw [Function.comp_apply, at?, hget, Option.bind_some]
        have hrest := ihs (before ++ [c]) (by simp [heq])
        rw [List.length_append, List.length_singleton] at hrest
        rw [addressesFrom, preorderAll, List.map_append, List.map_append, hbelow, ih c hc, hrest]
    have hchildren := hfrom s.children [] rfl
    rw [List.length_nil] at hchildren
    rw [addresses_eq, preorder_eq, List.map_cons, List.map_cons, hchildren, at?]

/-! ## 3. Declarations -/

theorem localDecl?_eq_some {s : Stmt} {d : LocalDecl} : s.localDecl? = some d ↔ s = decl d := by
  cases s <;> simp [localDecl?]

/-- Of some statements, those that declare a variable are the declarations of the variables. -/
theorem filter_localDecl? (ss : List Stmt) :
    (ss.filter fun s => s.localDecl?.isSome) = (ss.filterMap localDecl?).map decl := by
  induction ss with
  | nil => rfl
  | cons s ss ih =>
    rw [List.filter_cons, List.filterMap_cons]
    cases hs : s.localDecl? with
    | none => simpa using ih
    | some d => simpa [localDecl?_eq_some.mp hs] using ih

/-- The addresses of the statements that declare a variable, in the order of the walk. -/
def declAddresses (s : Stmt) : List (List Nat) :=
  s.addresses.filter fun address => ((s.at? address).bind localDecl?).isSome

theorem mem_declAddresses_iff {s : Stmt} {address : List Nat} :
    address ∈ s.declAddresses ↔ ∃ d, s.at? address = some (decl d) := by
  rw [declAddresses, List.mem_filter, mem_addresses_iff, Option.isSome_iff_exists]
  constructor
  · rintro ⟨-, d, hd⟩
    obtain ⟨c, hc, hd⟩ := Option.bind_eq_some_iff.mp hd
    exact ⟨d, by rw [hc, localDecl?_eq_some.mp hd]⟩
  · rintro ⟨d, hd⟩
    exact ⟨⟨decl d, hd⟩, d, by rw [hd]; rfl⟩

/-- At these addresses stand the declarations, in the order in which the walk comes to them. -/
theorem map_at?_declAddresses (s : Stmt) :
    s.declAddresses.map s.at? = (s.preorder.filterMap localDecl?).map fun d => some (decl d) := by
  have hfilter := List.filter_map (p := fun c => (c.bind localDecl?).isSome) (f := s.at?) (l := s.addresses)
  calc s.declAddresses.map s.at?
      = (s.addresses.map s.at?).filter fun c => (c.bind localDecl?).isSome := hfilter.symm
    _ = (s.preorder.map some).filter fun c => (c.bind localDecl?).isSome := by rw [map_at?_addresses]
    _ = (s.preorder.filter fun c => c.localDecl?.isSome).map some := List.filter_map
    _ = (s.preorder.filterMap localDecl?).map fun d => some (decl d) := by
        rw [filter_localDecl?, List.map_map]
        rfl

end Stmt

/-- **The local variables of a function, each one once and in order.** They are the variables that the
    walk over the statements of the body comes to. In lexicographic order, in which a statement comes
    before those in it and the first part of a branch before its alternative, the addresses in the body at
    which a variable is declared lead to them one by one. -/
theorem FuncDecl.locals_in_order (f : FuncDecl) :
    f.locals = (Stmt.preorderAll f.statements).filterMap Stmt.localDecl? ∧
    ∃ addresses : List (List Nat), addresses.Pairwise (· < ·) ∧
      (∀ address, address ∈ addresses ↔
        ∃ d, (Stmt.block f.statements).at? address = some (.decl d)) ∧
      addresses.map (Stmt.block f.statements).at? = f.locals.map fun d => some (.decl d) := by
  have hlocals := Stmt.locals_eq_filterMap_preorderAll f.statements
  refine ⟨hlocals, (Stmt.block f.statements).declAddresses, ?_,
    fun _ => Stmt.mem_declAddresses_iff, ?_⟩
  · exact (Stmt.pairwise_addresses _).filter _
  · rw [Stmt.map_at?_declAddresses, FuncDecl.locals, hlocals]
    rfl

end MemberRefs
