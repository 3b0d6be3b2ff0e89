import Mathlib.Data.List.Chain
import Mathlib.Logic.Relation
import MemberRefs.Proofs.Except
import MemberRefs.Proofs.Table.Inheritance
import MemberRefs.Table.Build

/-!
# The search for cycles

What the search for cycles in base lists says about them.

* `step_cases`: what one step can do: move on (`Moves`) or close a cycle (`Closes`).
* `Sound`: what every step keeps: the marks and the way agree, the way follows base lists, and the
  classes that are done can be laid out in layers, each one before the bases it derives from (`Layered`).
* `Sound.work_moves`: a step does one unit of work, so the search is over after as many steps as there is
  work (`search_ends`).
* `Sound.transGen_of_run`: a class at which the search comes back derives from itself.
* `exists_graded_of_checkAcyclic`: where no cycle is found the classes have heights, their places in the
  layers, which is the form in which walks use it.
-/

namespace MemberRefs

open Relation SymbolTable

namespace SymbolTable

/-- All bases are classes. -/
def InRange (bases : List (List ClassId)) : Prop :=
  ∀ c, ∀ b ∈ basesAt bases c, b < bases.length

theorem lt_of_mem_basesAt {bases : List (List ClassId)} {b c : ClassId} (h : b ∈ basesAt bases c) :
    c < bases.length := by
  refine Classical.byContradiction fun hc => ?_
  rw [basesAt, List.getElem?_eq_none (Nat.not_lt.mp hc)] at h
  exact absurd h List.not_mem_nil

/-! ## 1. Layers -/

/-- The classes next to a class of the list stand behind it, and no class stands twice. -/
def Layered (next : ClassId → List ClassId) : List ClassId → Prop
  | [] => True
  | c :: rest => c ∉ rest ∧ (∀ b ∈ next c, b ∈ rest) ∧ Layered next rest

/-- The place of a class counted from the end of the list, and zero for a class not in it. -/
def heightIn : List ClassId → ClassId → Nat
  | [], _ => 0
  | d :: rest, c => if c = d then rest.length + 1 else heightIn rest c

variable {next : ClassId → List ClassId}

theorem Layered.mem_of_next : ∀ {l : List ClassId}, Layered next l → ∀ {b c : ClassId}, c ∈ l →
    b ∈ next c → b ∈ l
  | _ :: _, ⟨_, hn, h⟩, b, c, hc, hb => by
      rcases List.mem_cons.mp hc with rfl | hc
      · exact List.mem_cons_of_mem _ (hn b hb)
      · exact List.mem_cons_of_mem _ (h.mem_of_next hc hb)

theorem heightIn_le : ∀ (l : List ClassId) (c : ClassId), heightIn l c ≤ l.length
  | [], _ => Nat.le_refl _
  | d :: rest, c => by
      unfold heightIn
      split
      · exact Nat.le_refl _
      · exact Nat.le_trans (heightIn_le rest c) (Nat.le_succ _)

theorem Layered.heightIn_lt : ∀ {l : List ClassId}, Layered next l → ∀ {b c : ClassId}, c ∈ l →
    b ∈ next c → heightIn l b < heightIn l c
  | d :: rest, ⟨hd, hn, h⟩, b, c, hc, hb => by
      have hrest : b ∈ rest := by
        rcases List.mem_cons.mp hc with rfl | hc
        · exact hn b hb
        · exact h.mem_of_next hc hb
      have hbd : b ≠ d := fun e => hd (e ▸ hrest)
      by_cases hcd : c = d
      · simp only [heightIn, hbd, hcd, ↓reduceIte]
        exact Nat.lt_succ_of_le (heightIn_le rest b)
      · simp only [heightIn, hbd, hcd, ↓reduceIte]
        exact h.heightIn_lt ((List.mem_cons.mp hc).resolve_left hcd) hb

end SymbolTable

namespace CycleSearch

variable {bases : List (List ClassId)} {s s' : CycleSearch} {b c : ClassId} {marks : List Mark}

/-! ## 2. What a step can do -/

/-- **A step that closes no cycle.** -/
inductive Moves (bases : List (List ClassId)) : CycleSearch → CycleSearch → Prop
  /-- A search that is over stays as it is. -/
  | rest {marks : List Mark} : Moves bases ⟨[], [], marks⟩ ⟨[], [], marks⟩
  /-- A class that was met is not started from. -/
  | skip {root : ClassId} {roots : List ClassId} {marks : List Mark}
      (met : marks[root]? ≠ some .unmet) :
      Moves bases ⟨root :: roots, [], marks⟩ ⟨roots, [], marks⟩
  /-- A class that was not met is started from. -/
  | begin {root : ClassId} {roots : List ClassId} {marks : List Mark}
      (new : marks[root]? = some .unmet) :
      Moves bases ⟨root :: roots, [], marks⟩ ⟨roots, [(root, 0)], marks.set root .active⟩
  /-- A class is left when all its bases were visited. -/
  | leave {c next : Nat} {roots : List ClassId} {way : List (ClassId × Nat)} {marks : List Mark}
      (last : (basesAt bases c)[next]? = none) :
      Moves bases ⟨roots, (c, next) :: way, marks⟩ ⟨roots, way, marks.set c .done⟩
  /-- A base that was not met is entered. -/
  | enter {b c next : Nat} {roots : List ClassId} {way : List (ClassId × Nat)} {marks : List Mark}
      (base : (basesAt bases c)[next]? = some b) (new : marks[b]? = some .unmet) :
      Moves bases ⟨roots, (c, next) :: way, marks⟩
        ⟨roots, (b, 0) :: (c, next + 1) :: way, marks.set b .active⟩
  /-- A base that was met and is not on the way is passed over. -/
  | pass {b c next : Nat} {roots : List ClassId} {way : List (ClassId × Nat)} {marks : List Mark}
      (base : (basesAt bases c)[next]? = some b) (met : marks[b]? ≠ some .unmet)
      (off : marks[b]? ≠ some .active) :
      Moves bases ⟨roots, (c, next) :: way, marks⟩ ⟨roots, (c, next + 1) :: way, marks⟩

/-- A step that closes a cycle comes to a base that is on the way. -/
inductive Closes (bases : List (List ClassId)) : CycleSearch → ClassId → Prop
  | intro {b c next : Nat} {roots : List ClassId} {way : List (ClassId × Nat)} {marks : List Mark}
      (base : (basesAt bases c)[next]? = some b) (onWay : marks[b]? = some .active) :
      Closes bases ⟨roots, (c, next) :: way, marks⟩ b

/-- **What a step can do.** -/
theorem step_cases (bases : List (List ClassId)) (s : CycleSearch) :
    (∃ s', s.step bases = .ok s' ∧ Moves bases s s') ∨
      ∃ b, s.step bases = .error b ∧ Closes bases s b := by
  obtain ⟨roots, way, marks⟩ := s
  match way, roots with
  | [], [] => exact .inl ⟨_, rfl, .rest⟩
  | [], root :: roots =>
    by_cases hroot : marks[root]? = some .unmet
    · exact .inl ⟨_, by simp only [step, hroot, ↓reduceIte]; rfl, .begin hroot⟩
    · exact .inl ⟨_, by simp only [step, hroot, ↓reduceIte], .skip hroot⟩
  | (c, next) :: way, roots =>
    cases hbase : (basesAt bases c)[next]? with
    | none => exact .inl ⟨_, by simp only [step, hbase], .leave hbase⟩
    | some b =>
      cases hmark : marks[b]? with
      | none =>
        exact .inl ⟨_, by simp only [step, hbase, hmark], .pass hbase (by simp [hmark]) (by simp [hmark])⟩
      | some mark =>
        cases mark with
        | unmet => exact .inl ⟨_, by simp only [step, hbase, hmark]; rfl, .enter hbase hmark⟩
        | active => exact .inr ⟨b, by simp only [step, hbase, hmark], .intro hbase hmark⟩
        | done =>
          exact .inl ⟨_, by simp only [step, hbase, hmark], .pass hbase (by simp [hmark]) (by simp [hmark])⟩

/-! ## 3. What a step keeps -/

/-- The classes on the way. -/
def onWay (s : CycleSearch) : List ClassId := s.way.map Prod.fst

/-- The bases of a class on the way that were visited are done, except for the one that the way goes on
    to, which is `above`. -/
def Visited (bases : List (List ClassId)) (marks : List Mark) :
    Option ClassId → List (ClassId × Nat) → Prop
  | _, [] => True
  | above, (c, next) :: way =>
      (∀ b ∈ (basesAt bases c).take next, marks[b]? = some .done ∨ above = some b) ∧
        Visited bases marks (some c) way

/-- **The invariant of the search.** -/
structure Sound (bases : List (List ClassId)) (s : CycleSearch) : Prop where
  /-- Every class has a mark. -/
  marked : s.marks.length = bases.length
  /-- The search still starts from every class that it has not met. -/
  waiting : ∀ c, s.marks[c]? = some .unmet → c ∈ s.roots
  /-- The active classes are those on the way. -/
  active : ∀ c, s.marks[c]? = some .active ↔ c ∈ s.onWay
  /-- No class is on the way twice. -/
  nodup : s.onWay.Nodup
  /-- The way goes from a class to one of its bases. -/
  linked : s.onWay.IsChain fun b c => b ∈ basesAt bases c
  /-- No class on the way has more bases visited than it has bases. -/
  within : ∀ p ∈ s.way, p.2 ≤ (basesAt bases p.1).length
  visited : Visited bases s.marks none s.way
  /-- The classes that are done are laid out in layers. -/
  layers : ∃ done, Layered (basesAt bases) done ∧ ∀ c, c ∈ done ↔ s.marks[c]? = some .done

theorem Visited.mono {marks' : List Mark}
    (hmono : ∀ b : ClassId, marks[b]? = some .done → marks'[b]? = some .done) :
    ∀ {above : Option ClassId} {way : List (ClassId × Nat)}, Visited bases marks above way →
      Visited bases marks' above way
  | _, [], _ => trivial
  | _, _ :: _, ⟨hbases, hway⟩ => ⟨fun b hb => (hbases b hb).imp_left (hmono b), hway.mono hmono⟩

/-- Once the class above is done, it is one of the bases that are. -/
theorem Visited.leave {marks' : List Mark} (hc : marks'[c]? = some .done)
    (hmono : ∀ b : ClassId, marks[b]? = some .done → marks'[b]? = some .done) :
    ∀ {way : List (ClassId × Nat)}, Visited bases marks (some c) way →
      Visited bases marks' none way
  | [], _ => trivial
  | _ :: _, ⟨hbases, hway⟩ => by
      refine ⟨fun b hb => .inl ?_, hway.mono hmono⟩
      rcases hbases b hb with hdone | habove
      · exact hmono b hdone
      · cases habove
        exact hc

/-- A mark that is set is the one found there afterwards, and the others stay. -/
theorem getElem?_set_mark {m m' : Mark} (h : marks[c]? = some m) (d : ClassId) :
    (marks.set c m')[d]? = if d = c then some m' else marks[d]? := by
  have hc : c < marks.length := (List.getElem?_eq_some_iff.mp h).1
  by_cases hd : d = c
  · subst hd
    rw [List.getElem?_set_self hc, if_pos rfl]
  · rw [List.getElem?_set_ne (Ne.symm hd), if_neg hd]

/-- Setting the mark of a class that is not done leaves those done that are. -/
theorem done_set {m m' : Mark} (h : marks[c]? = some m) (hm : m ≠ .done) (d : ClassId)
    (hd : marks[d]? = some .done) : (marks.set c m')[d]? = some .done := by
  have hne : d ≠ c := by
    rintro rfl
    exact hm (Option.some.inj (h.symm.trans hd))
  rw [getElem?_set_mark h, if_neg hne, hd]

/-- The base that comes next has been visited too, when it is done or when the way goes on to it. -/
theorem Visited.onward {above : Option ClassId} {next : Nat} {way : List (ClassId × Nat)}
    (h : Visited bases marks none ((c, next) :: way)) (hbase : (basesAt bases c)[next]? = some b)
    (hb : marks[b]? = some .done ∨ above = some b) :
    Visited bases marks above ((c, next + 1) :: way) := by
  refine ⟨fun d hd => ?_, h.2⟩
  rw [List.take_add_one, hbase] at hd
  rcases List.mem_append.mp hd with hd | hd
  · exact .inl ((h.1 d hd).resolve_right nofun)
  · cases List.mem_singleton.mp hd
    exact hb

/-- The search is sound before its first step. -/
theorem sound_start (bases : List (List ClassId)) : Sound bases (start bases.length) where
  marked := List.length_replicate
  waiting c hc := by
    have hlt := (List.getElem?_eq_some_iff.mp hc).1
    rw [start, List.length_replicate] at hlt
    exact List.mem_range.mpr hlt
  active c := by simp [start, onWay, List.getElem?_replicate]
  nodup := List.nodup_nil
  linked := List.isChain_nil
  within _ hp := absurd hp List.not_mem_nil
  visited := trivial
  layers := ⟨[], trivial, fun c => by simp [start, List.getElem?_replicate]⟩

namespace Sound

variable {roots roots' : List ClassId} {way way' : List (ClassId × Nat)} {next : Nat}

/-- A class that was not met is not on the way. -/
theorem not_mem_onWay (hs : Sound bases s) (hnew : s.marks[b]? = some .unmet) : b ∉ s.onWay := by
  intro hb
  rw [(hs.active b).mpr hb] at hnew
  cases hnew

theorem within_onward (hs : Sound bases ⟨roots, (c, next) :: way, marks⟩)
    (hbase : (basesAt bases c)[next]? = some b) :
    ∀ p ∈ (c, next + 1) :: way, p.2 ≤ (basesAt bases p.1).length :=
  List.forall_mem_cons.mpr
    ⟨(List.getElem?_eq_some_iff.mp hbase).1, (List.forall_mem_cons.mp hs.within).2⟩

/-- Another start is left out when its class was met. -/
theorem skip (hs : Sound bases ⟨b :: roots, way, marks⟩) (hmet : marks[b]? ≠ some .unmet) :
    Sound bases ⟨roots, way, marks⟩ :=
  { hs with
    waiting := fun c hc => (List.mem_cons.mp (hs.waiting c hc)).resolve_left
      fun hcb => hmet (hcb ▸ hc) }

/-- A class that was not met is added to a way of the same classes. -/
theorem enter (hs : Sound bases ⟨roots, way, marks⟩) (hnew : marks[b]? = some .unmet)
    (hroots : ∀ c ∈ roots, c ≠ b → c ∈ roots') (hclasses : way'.map Prod.fst = way.map Prod.fst)
    (hlink : ∀ c ∈ (way.map Prod.fst).head?, b ∈ basesAt bases c)
    (hwithin : ∀ p ∈ way', p.2 ≤ (basesAt bases p.1).length)
    (hvisited : Visited bases marks (some b) way') :
    Sound bases ⟨roots', (b, 0) :: way', marks.set b .active⟩ where
  marked := by rw [List.length_set]; exact hs.marked
  waiting c hc := by
    rw [getElem?_set_mark hnew] at hc
    split at hc
    · cases hc
    · rename_i hcb
      exact hroots c (hs.waiting c hc) hcb
  active c := by
    have hc := hs.active c
    rw [getElem?_set_mark hnew]
    by_cases hcb : c = b
    · simp [onWay, hcb]
    · simpa [onWay, hcb, hclasses] using hc
  nodup := by
    rw [onWay, List.map_cons, hclasses]
    exact List.nodup_cons.mpr ⟨hs.not_mem_onWay hnew, hs.nodup⟩
  linked := by
    rw [onWay, List.map_cons, hclasses]
    exact hs.linked.cons hlink
  within := List.forall_mem_cons.mpr ⟨Nat.zero_le _, hwithin⟩
  visited := ⟨fun c hc => absurd hc List.not_mem_nil, hvisited.mono (done_set hnew nofun)⟩
  layers := by
    obtain ⟨done, hlayered, hdone⟩ := hs.layers
    refine ⟨done, hlayered, fun c => (hdone c).trans ?_⟩
    rw [getElem?_set_mark hnew]
    by_cases hcb : c = b
    · subst hcb
      simp [hnew]
    · simp [hcb]

/-- A class whose bases were all visited is done, before all that was done. -/
theorem leave (hs : Sound bases ⟨roots, (c, next) :: way, marks⟩)
    (hlast : (basesAt bases c)[next]? = none) :
    Sound bases ⟨roots, way, marks.set c .done⟩ := by
  have hc : marks[c]? = some .active := (hs.active c).mpr List.mem_cons_self
  obtain ⟨hnew, hnodup⟩ := List.nodup_cons.mp hs.nodup
  have hall : ∀ b ∈ basesAt bases c, marks[b]? = some .done := by
    intro b hb
    rw [← List.take_of_length_le (List.getElem?_eq_none_iff.mp hlast)] at hb
    exact (hs.visited.1 b hb).resolve_right nofun
  refine ⟨?_, fun d hd => ?_, fun d => ?_, hnodup, hs.linked.tail,
    (List.forall_mem_cons.mp hs.within).2, hs.visited.2.leave ?_ (done_set hc nofun), ?_⟩
  · rw [List.length_set]
    exact hs.marked
  · rw [getElem?_set_mark hc] at hd
    split at hd
    · cases hd
    · exact hs.waiting d hd
  · have hd := hs.active d
    rw [getElem?_set_mark hc]
    by_cases hdc : d = c
    · subst hdc
      exact iff_of_false (by simp) hnew
    · simpa [onWay, hdc] using hd
  · rw [getElem?_set_mark hc, if_pos rfl]
  · obtain ⟨done, hlayered, hdone⟩ := hs.layers
    refine ⟨c :: done, ⟨fun hmem => ?_, fun b hb => (hdone b).mpr (hall b hb), hlayered⟩, fun d => ?_⟩
    · cases hc.symm.trans ((hdone c).mp hmem)
    · rw [getElem?_set_mark hc, List.mem_cons, hdone]
      by_cases hdc : d = c <;> simp [hdc]

/-- A base that is done is passed over. -/
theorem pass (hs : Sound bases ⟨roots, (c, next) :: way, marks⟩)
    (hbase : (basesAt bases c)[next]? = some b) (hdone : marks[b]? = some .done) :
    Sound bases ⟨roots, (c, next + 1) :: way, marks⟩ :=
  { hs with
    within := hs.within_onward hbase
    visited := hs.visited.onward hbase (.inl hdone) }

/-- In base lists that hold classes only, a base that was met and is not on the way is done. -/
theorem done_of_met (hs : Sound bases s) (hb : InRange bases)
    (hbase : (basesAt bases c)[next]? = some b) (hmet : s.marks[b]? ≠ some .unmet)
    (hoff : s.marks[b]? ≠ some .active) : s.marks[b]? = some .done := by
  have hlt : b < s.marks.length := hs.marked ▸ hb c b (List.mem_of_getElem? hbase)
  cases hmark : s.marks[b]? with
  | none => exact absurd hlt (Nat.not_lt.mpr (List.getElem?_eq_none_iff.mp hmark))
  | some mark =>
    cases mark with
    | unmet => exact absurd hmark hmet
    | active => exact absurd hmark hoff
    | done => rfl

/-- **A step keeps the invariant.** -/
theorem moves (hs : Sound bases s) (hb : InRange bases) (h : Moves bases s s') :
    Sound bases s' := by
  cases h with
  | rest => exact hs
  | skip met => exact hs.skip met
  | begin new =>
    exact hs.enter new (fun c hc hcb => (List.mem_cons.mp hc).resolve_left hcb) rfl nofun nofun trivial
  | leave last => exact hs.leave last
  | enter base new =>
    refine hs.enter new (fun _ hc _ => hc) rfl (fun c hc => ?_) (hs.within_onward base)
      (hs.visited.onward base (.inr rfl))
    cases hc
    exact List.mem_of_getElem? base
  | pass base met off => exact hs.pass base (hs.done_of_met hb base met off)

/-- **A step that closes a cycle names a class that derives from itself.** -/
theorem closes (hs : Sound bases s) (h : Closes bases s b) :
    TransGen (fun a b => b ∈ basesAt bases a) b b := by
  obtain ⟨base, onWay⟩ := h
  rename_i c next roots way marks
  -- the way leads from `b` down to `c`, of which `b` is a base
  have hdown : ReflTransGen (fun a b => b ∈ basesAt bases a) b c := by
    rcases List.mem_cons.mp ((hs.active b).mp onWay) with rfl | hmem
    · exact .refl
    · exact List.IsChain.cons_induction
        (fun d => ReflTransGen (fun a b => b ∈ basesAt bases a) d c) _ hs.linked
        (fun _ _ hbase hreach => .head hbase hreach) .refl b hmem
  exact .tail' hdown (List.mem_of_getElem? base)

end Sound

/-! ## 4. Whole searches -/

theorem moves_of_step (h : s.step bases = .ok s') : Moves bases s s' := by
  rcases step_cases bases s with ⟨_, hstep, hmoves⟩ | ⟨_, hstep, _⟩
  · cases hstep.symm.trans h
    exact hmoves
  · cases hstep.symm.trans h

theorem closes_of_step (h : s.step bases = .error b) : Closes bases s b := by
  rcases step_cases bases s with ⟨_, hstep, _⟩ | ⟨_, hstep, hcloses⟩
  · cases hstep.symm.trans h
  · cases hstep.symm.trans h
    exact hcloses

/-- **A search keeps the invariant.** -/
theorem Sound.run (hb : InRange bases) : ∀ {n : Nat} {s : CycleSearch}, Sound bases s →
    run bases n s = .ok s' → Sound bases s'
  | 0, _, hs, h => Except.ok.inj h ▸ hs
  | n + 1, s, hs, h => by
      obtain ⟨mid, hstep, h⟩ := bind_eq_ok.mp h
      exact (hs.moves hb (moves_of_step hstep)).run hb h

/-- **A class at which a search comes back derives from itself.** -/
theorem Sound.transGen_of_run (hb : InRange bases) : ∀ {n : Nat} {s : CycleSearch}, Sound bases s →
    CycleSearch.run bases n s = .error c → TransGen (fun a b => b ∈ basesAt bases a) c c
  | 0, _, _, h => nomatch h
  | n + 1, s, hs, h => by
      rcases bind_eq_error.mp h with h | ⟨mid, hstep, h⟩
      · exact hs.closes (closes_of_step h)
      · exact (hs.moves hb (moves_of_step hstep)).transGen_of_run hb h

/-! ## 5. How long a search takes -/

/-- A search is over: there is no class to start from and no way to go back on. -/
def IsOver (s : CycleSearch) : Prop := s.roots = [] ∧ s.way = []

/-- The steps that a class with a mark will take when it is met: one for each base and one to leave it. -/
def unmetWork : List (List ClassId) → List Mark → Nat
  | bs :: bases, mark :: marks =>
      (if mark = .unmet then bs.length + 1 else 0) + unmetWork bases marks
  | _, _ => 0

/-- The steps that the classes on the way will still take. -/
def wayWork (bases : List (List ClassId)) : List (ClassId × Nat) → Nat
  | [] => 0
  | (c, next) :: way => ((basesAt bases c).length + 1 - next) + wayWork bases way

/-- **The steps that a search has before it**: to start from a class, to visit the remaining bases of the
    classes on the way and to leave these, and the same for the classes not met. -/
def work (bases : List (List ClassId)) (s : CycleSearch) : Nat :=
  s.roots.length + wayWork bases s.way + unmetWork bases s.marks

/-- A mark that is set changes the work by that of its class. -/
theorem unmetWork_set : ∀ {bases : List (List ClassId)} {marks : List Mark} {c : ClassId} {m : Mark},
    marks.length = bases.length → marks[c]? = some m → ∀ m' : Mark,
    unmetWork bases (marks.set c m') + (if m = .unmet then (basesAt bases c).length + 1 else 0) =
      unmetWork bases marks + if m' = .unmet then (basesAt bases c).length + 1 else 0
  | [], [], _, _, _, h, _ => nomatch h
  | bs :: bases, mark :: marks, 0, m, hlen, h, m' => by
      cases h
      simp only [List.set_cons_zero, unmetWork, basesAt, List.getElem?_cons_zero, Option.getD_some]
      omega
  | bs :: bases, mark :: marks, c + 1, m, hlen, h, m' => by
      have ih := unmetWork_set (Nat.succ.inj hlen) (List.getElem?_cons_succ ▸ h) m'
      have hbases : basesAt (bs :: bases) (c + 1) = basesAt bases c := rfl
      simp only [List.set_cons_succ, unmetWork, hbases]
      omega

theorem unmetWork_replicate : ∀ bases : List (List ClassId),
    unmetWork bases (List.replicate bases.length .unmet) = bases.length + bases.flatten.length
  | [] => rfl
  | bs :: bases => by
      simp only [List.length_cons, List.replicate_succ, unmetWork, ↓reduceIte, List.flatten_cons,
        List.length_append, unmetWork_replicate bases]
      omega

theorem work_start (bases : List (List ClassId)) :
    (start bases.length).work bases = stepCount bases := by
  simp only [work, start, List.length_range, wayWork, unmetWork_replicate, stepCount]
  omega

theorem unmetWork_eq_zero : ∀ {bases : List (List ClassId)} {marks : List Mark},
    (∀ m ∈ marks, m ≠ .unmet) → unmetWork bases marks = 0
  | [], _, _ | _ :: _, [], _ => rfl
  | _ :: bases, mark :: marks, h => by
      obtain ⟨hmark, hmarks⟩ := List.forall_mem_cons.mp h
      rw [unmetWork, if_neg hmark, unmetWork_eq_zero hmarks]

/-- A search that is over has nothing before it. -/
theorem Sound.work_eq_zero (hs : Sound bases s) (hover : s.IsOver) : s.work bases = 0 := by
  have hmet : ∀ m ∈ s.marks, m ≠ .unmet := by
    rintro m hm rfl
    obtain ⟨c, hc⟩ := List.getElem?_of_mem hm
    have hroot := hs.waiting c hc
    rw [hover.1] at hroot
    exact absurd hroot List.not_mem_nil
  rw [work, hover.1, hover.2, unmetWork_eq_zero hmet]
  rfl

/-- Only a search that is over has nothing before it. -/
theorem Sound.isOver (hs : Sound bases s) (h : s.work bases = 0) : s.IsOver := by
  obtain ⟨roots, way, marks⟩ := s
  rw [work, Nat.add_eq_zero_iff, Nat.add_eq_zero_iff] at h
  refine ⟨List.eq_nil_of_length_eq_zero h.1.1, ?_⟩
  -- a class on the way is at least to be left
  match way with
  | [] => rfl
  | (c, next) :: way =>
    have hnext : next ≤ (basesAt bases c).length := hs.within (c, next) List.mem_cons_self
    have hway := h.1.2
    rw [wayWork] at hway
    omega

/-- **A step does one unit of work**, unless the search is over. -/
theorem Sound.work_moves (hs : Sound bases s) (h : Moves bases s s') :
    s'.work bases + 1 = s.work bases ∨ s' = s ∧ s.work bases = 0 := by
  cases h with
  | rest => exact .inr ⟨rfl, hs.work_eq_zero ⟨rfl, rfl⟩⟩
  | skip met =>
    left
    simp only [work, List.length_cons]
    omega
  | begin new =>
    left
    have hset := unmetWork_set hs.marked new .active
    simp only [↓reduceIte, reduceCtorEq] at hset
    simp only [work, List.length_cons, wayWork]
    omega
  | leave last =>
    left
    rename_i c next roots way marks
    have hc : marks[c]? = some .active := (hs.active c).mpr List.mem_cons_self
    have hset := unmetWork_set hs.marked hc .done
    have hnext : next ≤ (basesAt bases c).length := hs.within (c, next) List.mem_cons_self
    have hlast := List.getElem?_eq_none_iff.mp last
    simp only [reduceCtorEq, ↓reduceIte] at hset
    simp only [work, wayWork]
    omega
  | enter base new =>
    left
    have hset := unmetWork_set hs.marked new .active
    have hlt := (List.getElem?_eq_some_iff.mp base).1
    simp only [↓reduceIte, reduceCtorEq] at hset
    simp only [work, wayWork]
    omega
  | pass base met off =>
    left
    have hlt := (List.getElem?_eq_some_iff.mp base).1
    simp only [work, wayWork]
    omega

/-- **A search is over after as many steps as there is work.** -/
theorem Sound.isOver_run (hb : InRange bases) : ∀ {n : Nat} {s : CycleSearch}, Sound bases s →
    s.work bases ≤ n → CycleSearch.run bases n s = .ok s' → s'.IsOver
  | 0, s, hs, hn, h => Except.ok.inj h ▸ hs.isOver (Nat.le_zero.mp hn)
  | n + 1, s, hs, hn, h => by
      obtain ⟨mid, hstep, h⟩ := bind_eq_ok.mp h
      have hmoves := moves_of_step hstep
      refine (hs.moves hb hmoves).isOver_run hb ?_ h
      rcases hs.work_moves hmoves with hwork | ⟨rfl, hwork⟩
      · omega
      · omega

/-- When a sound search is over every class is done. -/
theorem Sound.done_of_isOver (hs : Sound bases s) (hover : s.IsOver) (hc : c < bases.length) :
    s.marks[c]? = some .done := by
  cases hmark : s.marks[c]? with
  | none => exact absurd (hs.marked ▸ hc) (Nat.not_lt.mpr (List.getElem?_eq_none_iff.mp hmark))
  | some mark =>
    cases mark with
    | unmet =>
      have hroot := hs.waiting c hmark
      rw [hover.1] at hroot
      exact absurd hroot List.not_mem_nil
    | active =>
      have hway := (hs.active c).mp hmark
      rw [onWay, hover.2] at hway
      exact absurd hway List.not_mem_nil
    | done => rfl

/-- **A sound search that is over gives heights to the classes.** -/
theorem Sound.exists_graded (hs : Sound bases s) (hover : s.IsOver) :
    ∃ height, Graded (basesAt bases) height := by
  obtain ⟨done, hlayered, hdone⟩ := hs.layers
  refine ⟨heightIn done, ⟨fun {c b} hmem => ?_⟩⟩
  have hcd : c ∈ done := (hdone c).mpr (hs.done_of_isOver hover (lt_of_mem_basesAt hmem))
  exact hlayered.heightIn_lt hcd hmem

end CycleSearch

namespace SymbolTable

open CycleSearch

variable {bases : List (List ClassId)}

/-! ## 6. The search from every class -/

/-- **The search for cycles ends**: it comes back to a class, or it is over. -/
theorem search_ends (hb : InRange bases) :
    (∃ c, run bases (stepCount bases) (start bases.length) = .error c) ∨
      ∃ s, run bases (stepCount bases) (start bases.length) = .ok s ∧ s.IsOver := by
  cases h : run bases (stepCount bases) (start bases.length) with
  | error c => exact .inl ⟨c, rfl⟩
  | ok s => exact .inr ⟨s, rfl, (sound_start bases).isOver_run hb (work_start bases).le h⟩

/-- The class that the search names derives from itself. -/
theorem transGen_of_findCycle? (hb : InRange bases) {c : ClassId} (h : findCycle? bases = some c) :
    TransGen (fun a b => b ∈ basesAt bases a) c c := by
  unfold findCycle? at h
  split at h
  · cases h
  · rename_i e he
    cases h
    exact (sound_start bases).transGen_of_run hb he

/-- **A search that finds no cycle gives heights to the classes.** -/
theorem exists_graded_of_findCycle? (hb : InRange bases) (h : findCycle? bases = none) :
    ∃ height, Graded (basesAt bases) height := by
  unfold findCycle? at h
  split at h
  · rename_i s hs
    exact ((sound_start bases).run hb hs).exists_graded
      ((sound_start bases).isOver_run hb (work_start bases).le hs)
  · cases h

/-- The error of the check names the class at which the search comes back. -/
theorem checkAcyclic_eq_error {classes : List ClassDecl} {e : PlacedError}
    (h : checkAcyclic classes bases = .error e) :
    ∃ i c, findCycle? bases = some i ∧ classes[i]? = some c ∧
      e = ⟨.cyclicInheritance c.name.val, c.name.span⟩ := by
  unfold checkAcyclic at h
  split at h
  · rename_i c hc
    cases h
    obtain ⟨i, hfound, hi⟩ := Option.bind_eq_some_iff.mp hc
    exact ⟨i, c, hfound, hi, rfl⟩
  · cases h

/-- A class that derives from itself is named by the error, so where there is no error there is none. -/
theorem exists_graded_of_checkAcyclic {classes : List ClassDecl} (hlen : bases.length = classes.length)
    (hb : InRange bases) (h : checkAcyclic classes bases = .ok ()) :
    ∃ height, Graded (basesAt bases) height := by
  cases hf : findCycle? bases with
  | none => exact exists_graded_of_findCycle? hb hf
  | some c =>
    obtain ⟨b, hbase, _⟩ := TransGen.head'_iff.mp (transGen_of_findCycle? hb hf)
    have hc : c < classes.length := hlen ▸ lt_of_mem_basesAt hbase
    simp [checkAcyclic, hf, List.getElem?_eq_getElem hc] at h

end SymbolTable

end MemberRefs
