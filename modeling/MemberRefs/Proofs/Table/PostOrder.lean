import MemberRefs.Proofs.Table.Built

/-!
# Bases in post-order

Member look-up and the set of visible members read what is known of the bases of a class from what they
have collected before, and take a missing entry for a base without members. So they rest on the order in
which a tour lists the classes, with every base in front of the classes that derive from it. Here the
list is described by the ways through base lists (`BaseWay`).

* `exists_baseWay_iff`: a way on which all classes before the last satisfy a predicate is a way of steps
  that satisfy it.
* `basesPostOrder_exact`: what a tour through a table that was built lists.
-/

namespace MemberRefs.SymbolTable

open Relation

variable {unit : SourceUnit} {options : Options} {table : SymbolTable}

/-! ## 1. Ways -/

/-- **A way through base lists**, with the classes on it before its last one. -/
inductive BaseWay (table : SymbolTable) : ClassId → List ClassId → ClassId → Prop
  | here {c} : BaseWay table c [] c
  | up {c b d passed} (base : b ∈ table.bases c) (rest : BaseWay table b passed d) :
      BaseWay table c (c :: passed) d

/-- **A way whose classes before the last satisfy `P`** is one of steps from classes that satisfy it. -/
theorem exists_baseWay_iff {P : ClassId → Prop} {c d : ClassId} :
    (∃ passed, table.BaseWay c passed d ∧ ∀ e ∈ passed, P e) ↔
      ReflTransGen (fun a b => P a ∧ b ∈ table.bases a) c d := by
  constructor
  · rintro ⟨passed, hway, hpassed⟩
    induction hway with
    | here => exact .refl
    | up base _ ih =>
      obtain ⟨hc, hrest⟩ := List.forall_mem_cons.mp hpassed
      exact .head ⟨hc, base⟩ (ih hrest)
  · intro hway
    induction hway using ReflTransGen.head_induction_on with
    | refl => exact ⟨[], .here, fun _ h => absurd h List.not_mem_nil⟩
    | head hstep _ ih =>
      obtain ⟨passed, hrest, hpassed⟩ := ih
      exact ⟨_ :: passed, .up hstep.2 hrest, List.forall_mem_cons.mpr ⟨hstep.1, hpassed⟩⟩

/-! ## 2. The order of a tour -/

theorem mem_basesWhere_iff {expand : ClassId → Bool} {b c : ClassId} :
    b ∈ table.basesWhere expand c ↔ expand c = true ∧ b ∈ table.bases c := by
  unfold basesWhere
  split <;> simp_all

/-- What a tour lists, by ways. -/
theorem mem_basesPostOrder_iff (hw : table.WellFormed) {c d : ClassId} {expand : ClassId → Bool} :
    d ∈ table.basesPostOrder c expand ↔
      ∃ passed, table.BaseWay c passed d ∧ ∀ e ∈ passed, expand e = true := by
  obtain ⟨_, hg⟩ := hw.graded
  rw [mem_basesPostOrder hg, exists_baseWay_iff]
  simp only [Reaches, mem_basesWhere_iff]

/-- **A tour ends and lists the bases of a class in post-order.** In a table that was built a tour from
    any class, with any predicate, comes to its end. It lists each class once, exactly those to which a
    way leads on which all classes before the last satisfy the predicate. The class that it starts from
    comes last, and every class that satisfies the predicate comes behind its direct bases. -/
theorem basesPostOrder_exact (h : build unit options = .ok table) (c : ClassId)
    (expand : ClassId → Bool) :
    (table.tourFrom c expand).IsOver ∧
    (table.basesPostOrder c expand).Nodup ∧
    (∀ d, d ∈ table.basesPostOrder c expand ↔
      ∃ passed, table.BaseWay c passed d ∧ ∀ e ∈ passed, expand e = true) ∧
    (table.basesPostOrder c expand).getLast? = some c ∧
    ∀ before d after, table.basesPostOrder c expand = before ++ d :: after → expand d = true →
      ∀ b ∈ table.bases d, b ∈ before := by
  have hw := wellFormed_of_build h
  obtain ⟨_, hg⟩ := hw.graded
  refine ⟨table.isOver_tourFrom c expand, nodup_basesPostOrder hg c expand,
    fun d => mem_basesPostOrder_iff hw, getLast?_basesPostOrder hg c expand, ?_⟩
  intro before d after heq hd b hb
  exact basesPostOrder_nextFirst hg c expand before d after heq b (mem_basesWhere_iff.mpr ⟨hd, hb⟩)

/-- A class `Bottom` that derives from `Root` in two ways: through `Left`, and through `Outer` and
    `Right`. -/
def lopsidedUnit : SourceUnit :=
  bareUnit [.ofClass (bareClass "Root" [] []), .ofClass (bareClass "Left" ["Root"] []),
    .ofClass (bareClass "Right" ["Root"] []), .ofClass (bareClass "Outer" ["Right"] []),
    .ofClass (bareClass "Bottom" ["Left", "Outer"] [])]

/-- The tour from `Bottom` that does not look below `Left` comes to `Root` past `Outer` and `Right`. -/
theorem basesPostOrder_lopsidedUnit : ∃ table, build lopsidedUnit {} = .ok table ∧
    table.basesPostOrder 4 (· != 1) = [1, 0, 2, 3, 4] ∧
    (∃ passed, table.BaseWay 4 passed 0 ∧ ∀ e ∈ passed, (e != 1) = true) ∧
    ∀ b ∈ table.bases 3, b ∈ [1, 0, 2] := by
  have horder : ∀ table, build lopsidedUnit {} = .ok table →
      table.basesPostOrder 4 (· != 1) = [1, 0, 2, 3, 4] := by
    rintro table h
    cases h
    rfl
  refine ⟨_, rfl, horder _ rfl, ?_, ?_⟩
  · obtain ⟨-, -, hmem, -⟩ := @basesPostOrder_exact lopsidedUnit {} _ rfl 4 (· != 1)
    exact (hmem 0).mp (by rw [horder _ rfl]; decide)
  · obtain ⟨-, -, -, -, hfirst⟩ := @basesPostOrder_exact lopsidedUnit {} _ rfl 4 (· != 1)
    exact hfirst [1, 0, 2] 3 [4] (horder _ rfl) rfl

end MemberRefs.SymbolTable
