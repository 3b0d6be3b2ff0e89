import MemberRefs.Proofs.Table.Effective
import MemberRefs.Proofs.Table.PostOrder

/-!
# Inherited and hidden members

Which members of the classes above it a class has. The set of visible members is collected from base to
base, with every class leaving out what it hides of its bases. Here hiding is told from the ways through
base lists instead: a member is hidden when every way to its class comes through a class that declares
the same name.

* `derivesFrom_refl`, `derivesFrom_trans`, `derivesFrom_antisymm`: deriving is a partial order.
* `mem_effectiveMembers_iff`: a member is visible when some way to its class is free of its name.
* `inherited_exact`: what a class of a table that was built inherits, and what it does not.
-/

namespace MemberRefs.SymbolTable

open Relation

variable {unit : SourceUnit} {options : Options} {table : SymbolTable}

/-! ## 1. Deriving -/

theorem derivesFrom_refl (table : SymbolTable) (c : ClassId) : table.derivesFrom c c = true :=
  derivesFrom_iff.mpr .refl

theorem derivesFrom_trans {c d e : ClassId} (hcd : table.derivesFrom c d = true)
    (hde : table.derivesFrom d e = true) : table.derivesFrom c e = true :=
  derivesFrom_iff.mpr ((derivesFrom_iff.mp hcd).trans (derivesFrom_iff.mp hde))

/-- Two classes do not derive from each other. -/
theorem derivesFrom_antisymm (hw : table.WellFormed) {c d : ClassId}
    (hcd : table.derivesFrom c d = true) (hdc : table.derivesFrom d c = true) : c = d := by
  obtain ⟨_, hg⟩ := hw.graded
  exact hg.reaches_antisymm (derivesFrom_iff.mp hcd) (derivesFrom_iff.mp hdc)

/-! ## 2. Visible members -/

/-- **A member is visible in a class when a way to its class comes through no class that declares the
    name.** -/
theorem mem_effectiveMembers_iff (hw : table.WellFormed) {c b : ClassId} {m : MemberId}
    (hm : m ∈ table.membersOf b) :
    m ∈ table.effectiveMembers c ↔
      ∃ passed, table.BaseWay c passed b ∧ ∀ e ∈ passed, ¬ table.Declares (table.memberName m) e := by
  have hnamed : m ∈ table.effectiveMembers c ↔ m ∈ table.membersNamed c (table.memberName m) := by
    simp [membersNamed]
  rw [hnamed, exists_baseWay_iff]
  constructor
  · intro hmem
    exact (visible_of_mem_membersNamed hw hmem hm).1
  · intro hway
    have hown : m ∈ table.ownMembers b (table.memberName m) := by simp [ownMembers, hm]
    exact (mem_membersNamed hw).mpr ⟨b, ⟨hway, m, hm, rfl⟩, hown⟩

/-- A visible member is one of a class derived from. -/
theorem exists_of_mem_effectiveMembers (hw : table.WellFormed) {c : ClassId} {m : MemberId}
    (hm : m ∈ table.effectiveMembers c) :
    ∃ b, m ∈ table.membersOf b ∧ table.derivesFrom c b = true := by
  have hnamed : m ∈ table.membersNamed c (table.memberName m) := by simp [membersNamed, hm]
  obtain ⟨b, ⟨hway, _⟩, hown⟩ := (mem_membersNamed hw).mp hnamed
  exact ⟨b, List.mem_of_mem_filter hown, derivesFrom_iff.mpr (hway.lift id fun _ _ h => h.2)⟩

/-- **What a class inherits.** In a table that was built a class derives from itself and from the classes
    that it reaches through base lists, which is a partial order. Every member visible in a class is
    declared in a class that it derives from. Of the members of these, exactly those are missing for which
    every way to their class comes, before its end, through a class that declares the name. -/
theorem inherited_exact (h : build unit options = .ok table) :
    (∀ c b, table.derivesFrom c b = true ↔ b = c ∨ TransGen (fun a d => d ∈ table.bases a) c b) ∧
    (∀ c, table.derivesFrom c c = true) ∧
    (∀ c d e, table.derivesFrom c d = true → table.derivesFrom d e = true →
      table.derivesFrom c e = true) ∧
    (∀ c d, table.derivesFrom c d = true → table.derivesFrom d c = true → c = d) ∧
    (∀ c, ∀ m ∈ table.effectiveMembers c,
      ∃ b, m ∈ table.membersOf b ∧ table.derivesFrom c b = true) ∧
    ∀ c b, table.derivesFrom c b = true → ∀ m ∈ table.membersOf b,
      (m ∉ table.effectiveMembers c ↔ ∀ passed, table.BaseWay c passed b →
        ∃ e ∈ passed, table.Declares (table.memberName m) e) := by
  have hw := wellFormed_of_build h
  refine ⟨fun c b => ?_, derivesFrom_refl table, fun _ _ _ => derivesFrom_trans,
    fun _ _ => derivesFrom_antisymm hw, fun _ _ => exists_of_mem_effectiveMembers hw, ?_⟩
  · rw [derivesFrom_iff, Reaches, reflTransGen_iff_eq_or_transGen]
  · intro c b _ m hm
    rw [mem_effectiveMembers_iff hw hm]
    simp only [not_exists, not_and, not_forall, not_not, exists_prop]

/-- Two classes that each declare the field `id` of their common base again, and a class below both. -/
def coveredUnit : SourceUnit :=
  bareUnit [.ofClass (bareClass "Root" [] ["id", "size"]),
    .ofClass (bareClass "Left" ["Root"] ["id"]), .ofClass (bareClass "Right" ["Root"] ["id"]),
    .ofClass (bareClass "Bottom" ["Left", "Right"] [])]

/-- Of the members of `Root` the class `Bottom` misses `id`, which every way to `Root` hides, and has
    `size`. -/
theorem inherited_coveredUnit : ∃ table, build coveredUnit {} = .ok table ∧
    table.effectiveMembers 3 = [2, 1, 3] ∧ table.derivesFrom 3 0 = true ∧
    table.derivesFrom 0 3 = false ∧
    (∀ passed, table.BaseWay 3 passed 0 → ∃ e ∈ passed, table.Declares "id" e) ∧
    ¬ ∀ passed, table.BaseWay 3 passed 0 → ∃ e ∈ passed, table.Declares "size" e := by
  obtain ⟨-, -, -, hantisymm, -, hhidden⟩ := @inherited_exact coveredUnit {} _ rfl
  refine ⟨_, rfl, rfl, rfl, ?_, ?_, ?_⟩
  · refine Bool.eq_false_iff.mpr fun hback => ?_
    exact absurd (hantisymm 0 3 hback rfl) (by decide)
  · exact (hhidden 3 0 rfl 0 (by decide)).mp (by decide)
  · exact mt (hhidden 3 0 rfl 1 (by decide)).mpr (by decide)

end MemberRefs.SymbolTable
