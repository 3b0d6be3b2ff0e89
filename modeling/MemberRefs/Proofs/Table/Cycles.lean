import MemberRefs.Proofs.Table.Acceptance

/-!
# Which classes lie on a cycle

The search for cycles works on the numbers that bases are linked to. Here its answer is compared with the
declarations: a base is an edge to the first class that has its name (`SourceUnit.BaseEdge`), and the names
of the classes need not be different.

* `checkAcyclic_error_iff`: the check fails when a class reaches itself.
* `cycle_of_error`: the class that the error names reaches itself.
* `checkAcyclic_exact`: the search ends, and its answer is right in both directions.
-/

namespace MemberRefs

open Relation

namespace SymbolTable

variable {unit : SourceUnit} {bases : List (List ClassId)} {e : PlacedError}

/-- The edges are the bases that the search follows. -/
theorem transGen_basesAt_iff (hlink : linkBases unit.classes = .ok bases) {i j : ClassId} :
    TransGen (fun a b => b ∈ basesAt bases a) i j ↔ TransGen unit.BaseEdge i j := by
  have hedges : (fun a b => b ∈ basesAt bases a) = unit.BaseEdge :=
    funext₂ fun _ _ => propext (mem_basesAt_iff hlink)
  rw [hedges]

/-- **The class that the error names reaches itself.** -/
theorem cycle_of_error (hlink : linkBases unit.classes = .ok bases)
    (h : checkAcyclic unit.classes bases = .error e) :
    ∃ i c, unit.classes[i]? = some c ∧ TransGen unit.BaseEdge i i ∧
      e = ⟨.cyclicInheritance c.name.val, c.name.span⟩ := by
  obtain ⟨i, c, hfound, hc, he⟩ := checkAcyclic_eq_error h
  have hcycle := transGen_of_findCycle? (inRange_of_linkBases hlink) hfound
  exact ⟨i, c, hc, (transGen_basesAt_iff hlink).mp hcycle, he⟩

/-- **The check fails exactly when a class reaches itself.** -/
theorem checkAcyclic_error_iff (hlink : linkBases unit.classes = .ok bases) :
    (∃ e, checkAcyclic unit.classes bases = .error e) ↔ ∃ i, TransGen unit.BaseEdge i i := by
  constructor
  · rintro ⟨e, he⟩
    obtain ⟨i, _, _, hcycle, _⟩ := cycle_of_error hlink he
    exact ⟨i, hcycle⟩
  · rintro ⟨i, hcycle⟩
    cases h : checkAcyclic unit.classes bases with
    | error e => exact ⟨e, rfl⟩
    | ok done =>
      obtain ⟨height, hgraded⟩ :=
        exists_graded_of_checkAcyclic (length_of_linkBases hlink) (inRange_of_linkBases hlink) h
      exact absurd ((transGen_basesAt_iff hlink).mpr hcycle) hgraded.not_transGen

/-- **Cycles are found exactly.** Where all bases are known, the search through them ends: it has closed a
    cycle, or there is nothing left to visit. The check fails exactly when some class reaches itself
    through one or more bases, and the class that the error names, at the place of its name, is one that
    does. -/
theorem checkAcyclic_exact (hknown : ∀ c ∈ unit.classes, unit.KnownBasesOf c) :
    ∃ bases, linkBases unit.classes = .ok bases ∧
      ((∃ c, CycleSearch.run bases (CycleSearch.stepCount bases) (.start bases.length) = .error c) ∨
        ∃ s, CycleSearch.run bases (CycleSearch.stepCount bases) (.start bases.length) = .ok s ∧
          s.IsOver) ∧
      ((∃ e, checkAcyclic unit.classes bases = .error e) ↔ ∃ i, TransGen unit.BaseEdge i i) ∧
      ∀ e, checkAcyclic unit.classes bases = .error e →
        ∃ i c, unit.classes[i]? = some c ∧ TransGen unit.BaseEdge i i ∧
          e = ⟨.cyclicInheritance c.name.val, c.name.span⟩ := by
  obtain ⟨bases, hlink⟩ := linkBases_ok_iff.mpr hknown
  exact ⟨bases, hlink, search_ends (inRange_of_linkBases hlink), checkAcyclic_error_iff hlink,
    fun _ => cycle_of_error hlink⟩

/-- Two classes that derive from each other, and in front of them one that derives from the second. -/
def tailedUnit : SourceUnit :=
  bareUnit [.ofClass (bareClass "Leaf" ["Front"] []), .ofClass (bareClass "Back" ["Front"] []),
    .ofClass (bareClass "Front" ["Back"] [])]

theorem known_tailedUnit : ∀ c ∈ tailedUnit.classes, tailedUnit.KnownBasesOf c :=
  linkBases_ok_iff.mp ⟨[[2], [2], [1]], rfl⟩

/-- The search starts at a class that is on no cycle and names one that is. -/
theorem checkAcyclic_tailedUnit :
    (∃ i, TransGen tailedUnit.BaseEdge i i) ∧
      ∃ i c, tailedUnit.classes[i]? = some c ∧ TransGen tailedUnit.BaseEdge i i ∧
        c.name.val = "Front" := by
  obtain ⟨bases, hlink, _, hiff, hnamed⟩ := checkAcyclic_exact known_tailedUnit
  have hbases : linkBases tailedUnit.classes = .ok [[2], [2], [1]] := rfl
  cases Except.ok.inj (hlink.symm.trans hbases)
  have herror : checkAcyclic tailedUnit.classes [[2], [2], [1]] =
      .error ⟨.cyclicInheritance "Front", Span.atStart⟩ := rfl
  refine ⟨hiff.mp ⟨_, herror⟩, ?_⟩
  obtain ⟨i, c, hc, hcycle, he⟩ := hnamed _ herror
  exact ⟨i, c, hc, hcycle, (Error.cyclicInheritance.inj (congrArg Spanned.val he)).symm⟩

end SymbolTable

end MemberRefs
