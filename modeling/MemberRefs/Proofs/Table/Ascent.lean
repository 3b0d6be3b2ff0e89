import MemberRefs.Proofs.Table.Inheritance

/-!
# Ascents through base lists

What an ascent from a class to another says about them. It needs no order among the classes: that the
base lists have no cycle plays no part.

* `Ascent.Sound`: what every step keeps: nothing that is reached gets lost, because what is next to a
  class visited is visited or pending.
* `Ascent.Sound.exists_run`: an ascent ends within the steps that it has to do, with the right answer.
* `derivesFrom_iff`: to derive from a class is to reach it through base lists.
-/

namespace MemberRefs

open Relation

/-! ## 1. What an ascent keeps -/

namespace Ascent

variable {next : ClassId → List ClassId} {root goal : ClassId} {a : Ascent}

/-- A class that an ascent visited or still is to visit. -/
def Covers (a : Ascent) (c : ClassId) : Prop := c ∈ a.pending ∨ c ∈ a.visited

/-- **The invariant of an ascent from `root`**: all that is pending is reached, and all that is next to
    a class visited is visited or pending. The classes visited are not `goal`. -/
structure Sound (next : ClassId → List ClassId) (root goal : ClassId) (a : Ascent) : Prop where
  reached : ∀ c ∈ a.pending, Reaches next root c
  root : a.Covers root
  next : ∀ c ∈ a.visited, ∀ b ∈ next c, a.Covers b
  goal : goal ∉ a.visited

theorem sound_start (next : ClassId → List ClassId) (root goal : ClassId) :
    Sound next root goal ⟨[root], []⟩ where
  reached _ hc := List.mem_singleton.mp hc ▸ .refl
  root := .inl List.mem_cons_self
  next _ h := absurd h List.not_mem_nil
  goal := List.not_mem_nil

/-- When nothing is pending, what is reached was visited, so `goal` is not reached. -/
theorem Sound.not_reaches {visited : List ClassId} (hs : Sound next root goal ⟨[], visited⟩) :
    ¬ Reaches next root goal := by
  have hcovers : ∀ c, Covers ⟨[], visited⟩ c → c ∈ visited :=
    fun _ hc => hc.resolve_left List.not_mem_nil
  have hvisited : ∀ c, Reaches next root c → c ∈ visited := by
    intro c hr
    induction hr with
    | refl => exact hcovers root hs.root
    | tail _ hb ih => exact hcovers _ (hs.next _ ih _ hb)
  exact fun hr => hs.goal (hvisited goal hr)

variable {c : ClassId} {pending visited : List ClassId}

/-- A class that was visited before is passed over. -/
theorem Sound.pass (hs : Sound next root goal ⟨c :: pending, visited⟩) (hmet : c ∈ visited) :
    Sound next root goal ⟨pending, visited⟩ := by
  have hcovers : ∀ d, Covers ⟨c :: pending, visited⟩ d → Covers ⟨pending, visited⟩ d := by
    rintro d (hd | hd)
    · rcases List.mem_cons.mp hd with rfl | hd
      · exact .inr hmet
      · exact .inl hd
    · exact .inr hd
  exact ⟨fun d hd => hs.reached d (List.mem_cons_of_mem _ hd), hcovers _ hs.root,
    fun d hd b hb => hcovers b (hs.next d hd b hb), hs.goal⟩

/-- A class that is visited leaves the classes next to it to visit. -/
theorem Sound.visit (hs : Sound next root goal ⟨c :: pending, visited⟩) (hc : c ≠ goal) :
    Sound next root goal ⟨(next c).reverse ++ pending, c :: visited⟩ := by
  have hcovers : ∀ d, Covers ⟨c :: pending, visited⟩ d →
      Covers ⟨(next c).reverse ++ pending, c :: visited⟩ d := by
    rintro d (hd | hd)
    · rcases List.mem_cons.mp hd with rfl | hd
      · exact .inr List.mem_cons_self
      · exact .inl (List.mem_append_right _ hd)
    · exact .inr (List.mem_cons_of_mem _ hd)
  refine ⟨fun d hd => ?_, hcovers _ hs.root, fun d hd b hb => ?_, ?_⟩
  · rcases List.mem_append.mp hd with hd | hd
    · exact (hs.reached c List.mem_cons_self).tail (List.mem_reverse.mp hd)
    · exact hs.reached d (List.mem_cons_of_mem _ hd)
  · rcases List.mem_cons.mp hd with rfl | hd
    · exact .inl (List.mem_append_left _ (List.mem_reverse.mpr hb))
    · exact hcovers b (hs.next d hd b hb)
  · exact List.not_mem_cons_of_ne_of_not_mem hc.symm hs.goal

/-! ## 2. How an ascent ends -/

/-- The steps that an ascent has before it: one for each class pending, and one for each base of the
    classes not visited. -/
def work (next : ClassId → List ClassId) (count : Nat) (a : Ascent) : Nat :=
  a.pending.length + unseenBases next count a.visited

/-- **An ascent ends, and with the right answer**, when it is given a step more than it has to do. -/
theorem Sound.exists_run {count : Nat} (hcount : ∀ c, count ≤ c → next c = []) :
    ∀ {n : Nat} {a : Ascent}, Sound next root goal a → a.work next count < n →
      ∃ found, run next goal n a = some found ∧ (found = true ↔ Reaches next root goal)
  | n + 1, ⟨[], visited⟩, hs, _ => ⟨false, rfl, iff_of_false Bool.false_ne_true hs.not_reaches⟩
  | n + 1, ⟨c :: pending, visited⟩, hs, hn => by
      simp only [work, List.length_cons] at hn
      rw [run]
      split
      · rename_i hc
        exact ⟨true, rfl, iff_of_true rfl (hc ▸ hs.reached c List.mem_cons_self)⟩
      · rename_i hc
        split
        · rename_i hmet
          exact (hs.pass hmet).exists_run hcount (by simp only [work]; omega)
        · rename_i hnew
          have hseen := unseenBases_cons hcount hnew
          refine (hs.visit hc).exists_run hcount ?_
          simp only [work, List.length_append, List.length_reverse]
          omega

end Ascent

/-! ## 3. Deriving from a class -/

namespace SymbolTable

variable {table : SymbolTable}

/-- **To derive from a class is to reach it through base lists.** -/
theorem derivesFrom_iff {c base : ClassId} :
    table.derivesFrom c base = true ↔ Reaches table.bases c base := by
  have hwork : Ascent.work table.bases table.classes.length ⟨[c], []⟩ < table.baseCount + 2 := by
    have hall := unseenBases_le table.bases table.classes.length []
    simp only [Ascent.work, List.length_singleton, baseCount, classIds]
    omega
  obtain ⟨found, hrun, hfound⟩ :=
    (Ascent.sound_start table.bases c base).exists_run (fun _ => bases_eq_nil) hwork
  rw [derivesFrom, hrun, Option.getD_some, hfound]

end SymbolTable

end MemberRefs
