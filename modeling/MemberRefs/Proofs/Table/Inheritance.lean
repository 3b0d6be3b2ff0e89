import Mathlib.Algebra.Order.BigOperators.Group.Finset
import Mathlib.Data.List.Chain
import Mathlib.Logic.Relation
import MemberRefs.Table.Inheritance

/-!
# Tours through base lists

What a tour meets and in which order, when the base lists have no cycle. Being without a cycle is used
in one form only: a height for every class, above the heights of its bases (`Graded`).

* `Tour.moves_step`: what one step of a tour can do (`Tour.Moves`).
* `Tour.Sound`: what every step keeps. Written down in the order in which they will be done (`Tour.line`),
  the classes met differ, the start is the last of them, and the bases visited so far stand before the
  class they are bases of.
* `Tour.isOver_run`: every step leaves less to do, so a tour ends, with or without cycles.
* `mem_basesPostOrder`: the tour returns what is reached from its start through classes to look below.
* `basesPostOrder_nextFirst`: bases come before the classes that derive from them.
-/

namespace MemberRefs

open Relation

variable {next : ClassId → List ClassId} {height : ClassId → Nat}

/-! ## 1. Reaching and heights -/

/-- `d` is reached from `c` by stepping to classes next to each other. -/
abbrev Reaches (next : ClassId → List ClassId) (c d : ClassId) : Prop :=
  ReflTransGen (fun a b => b ∈ next a) c d

/-- Every class is higher than the classes next to it. -/
structure Graded (next : ClassId → List ClassId) (height : ClassId → Nat) : Prop where
  next_lt : ∀ {c b}, b ∈ next c → height b < height c

/-- What is reached is not higher than where the way begins. -/
theorem Graded.reaches_le (hg : Graded next height) {c d : ClassId}
    (h : Reaches next c d) : height d ≤ height c := by
  induction h with
  | refl => exact Nat.le_refl _
  | tail _ hb ih => exact Nat.le_trans (Nat.le_of_lt (hg.next_lt hb)) ih

/-- Classes that reach each other are the same. -/
theorem Graded.reaches_antisymm (hg : Graded next height) {c d : ClassId} (h : Reaches next c d)
    (hback : Reaches next d c) : c = d := by
  rcases ReflTransGen.cases_head h with heq | ⟨b, hb, hrest⟩
  · exact heq
  · exact absurd (hg.reaches_le (hrest.trans hback)) (Nat.not_le.mpr (hg.next_lt hb))

/-- A way of one step or more goes down, so none comes back to where it begins. -/
theorem Graded.not_transGen (hg : Graded next height) {c : ClassId} :
    ¬ TransGen (fun a b => b ∈ next a) c c := by
  intro hcycle
  obtain ⟨b, hb, hback⟩ := TransGen.head'_iff.mp hcycle
  exact absurd (hg.reaches_le hback) (Nat.not_le.mpr (hg.next_lt hb))

/-! ## 2. Steps of a tour -/

namespace Tour

/-- **What one step of a tour can do.** -/
inductive Moves (next : ClassId → List ClassId) : Tour → Tour → Prop
  /-- The tour is over. -/
  | rest {seen order : List ClassId} : Moves next ⟨[], seen, order⟩ ⟨[], seen, order⟩
  /-- All bases of the class were visited, and it is done. -/
  | leave {c i : Nat} {way : List (ClassId × Nat)} {seen order : List ClassId}
      (last : (next c)[i]? = none) :
      Moves next ⟨(c, i) :: way, seen, order⟩ ⟨way, seen, order ++ [c]⟩
  /-- A base that was not met yet is the next class on the way. -/
  | enter {c i b : Nat} {way : List (ClassId × Nat)} {seen order : List ClassId}
      (base : (next c)[i]? = some b) (new : b ∉ seen) :
      Moves next ⟨(c, i) :: way, seen, order⟩ ⟨(b, 0) :: (c, i + 1) :: way, b :: seen, order⟩
  /-- A base that was met is passed over. -/
  | pass {c i b : Nat} {way : List (ClassId × Nat)} {seen order : List ClassId}
      (base : (next c)[i]? = some b) (met : b ∈ seen) :
      Moves next ⟨(c, i) :: way, seen, order⟩ ⟨(c, i + 1) :: way, seen, order⟩

variable {t t' : Tour} {c b : ClassId} {i : Nat} {way : List (ClassId × Nat)}
  {seen order : List ClassId}

theorem moves_step (next : ClassId → List ClassId) (t : Tour) : Moves next t (t.step next) := by
  obtain ⟨way, seen, order⟩ := t
  match way with
  | [] => exact .rest
  | (c, i) :: way =>
    cases hbase : (next c)[i]? with
    | none =>
      simp only [step, hbase]
      exact .leave hbase
    | some b =>
      by_cases hmet : b ∈ seen
      · simp only [step, hbase, if_pos hmet]
        exact .pass hbase hmet
      · simp only [step, hbase, if_neg hmet]
        exact .enter hbase hmet

/-! ## 3. What a tour keeps -/

/-- The classes met, those that are done in front of those on the way. The top of the way is the next to
    be done, so a class that is done keeps its place. -/
def line (t : Tour) : List ClassId := t.order ++ t.way.map Prod.fst

/-- The classes next to a class of the list stand before it. -/
def NextFirst (next : ClassId → List ClassId) (order : List ClassId) : Prop :=
  ∀ before c after, order = before ++ c :: after → ∀ b ∈ next c, b ∈ before

theorem NextFirst.snoc {order : List ClassId} {c : ClassId} (h : NextFirst next order)
    (hc : ∀ b ∈ next c, b ∈ order) : NextFirst next (order ++ [c]) := by
  intro before d after he b hb
  rcases List.eq_nil_or_concat after with rfl | ⟨rest, e, rfl⟩
  · obtain ⟨rfl, hd⟩ := List.append_inj' he rfl
    cases hd
    exact hc b hb
  · have he' : order ++ [c] = (before ++ d :: rest) ++ [e] := by simpa using he
    exact h before d rest (List.append_inj' he' rfl).1 b hb

/-- What is next to classes of the list is in it, and so is all that is reached from them. -/
theorem NextFirst.mem_of_reaches {order : List ClassId} (h : NextFirst next order) {c d : ClassId}
    (hc : c ∈ order) (hr : Reaches next c d) : d ∈ order := by
  induction hr with
  | refl => exact hc
  | tail _ hb ih =>
    obtain ⟨before, after, heq⟩ := List.append_of_mem ih
    rw [heq]
    exact List.mem_append_left _ (h before _ after heq _ hb)

/-- Of every class on the way, the bases visited so far are done or are above it on the way; `front` are
    the classes that are done. -/
def Visited (next : ClassId → List ClassId) : List ClassId → List (ClassId × Nat) → Prop
  | _, [] => True
  | front, (c, i) :: way =>
      (∀ b ∈ (next c).take i, b ∈ front) ∧ Visited next (front ++ [c]) way

theorem snoc_subset {front front' : List ClassId} (h : front ⊆ front') (c : ClassId) :
    front ++ [c] ⊆ front' ++ [c] :=
  List.append_subset_of_subset_of_subset (List.subset_append_of_subset_left _ h)
    (List.subset_append_right _ _)

theorem Visited.mono : ∀ {way : List (ClassId × Nat)} {front front' : List ClassId},
    Visited next front way → front ⊆ front' → Visited next front' way
  | [], _, _, _, _ => trivial
  | (c, _) :: _, _, _, ⟨hc, hway⟩, hsub =>
      ⟨fun b hb => hsub (hc b hb), hway.mono (snoc_subset hsub c)⟩

/-- One base more of the first class on the way was visited. -/
theorem Visited.onward (h : Visited next order ((c, i) :: way)) (hbase : (next c)[i]? = some b)
    {front : List ClassId} (hsub : order ⊆ front) (hb : b ∈ front) :
    Visited next front ((c, i + 1) :: way) := by
  refine ⟨fun d hd => ?_, h.2.mono (snoc_subset hsub c)⟩
  rw [List.take_add_one, hbase, Option.toList_some, List.mem_append, List.mem_singleton] at hd
  rcases hd with hd | rfl
  · exact hsub (h.1 d hd)
  · exact hb

/-- **The invariant of a tour from `root`.** -/
structure Sound (next : ClassId → List ClassId) (root : ClassId) (t : Tour) : Prop where
  nodup : t.line.Nodup
  seen : ∀ d, d ∈ t.seen ↔ d ∈ t.line
  reached : ∀ d ∈ t.line, Reaches next root d
  last : t.line.getLast? = some root
  /-- Each class on the way is a base of the one below it. -/
  linked : t.way.IsChain fun above below => above.1 ∈ next below.1
  visited : Visited next t.order t.way
  nextFirst : NextFirst next t.order

theorem sound_start (next : ClassId → List ClassId) (c : ClassId) : Sound next c (.start c) where
  nodup := List.nodup_singleton c
  seen _ := Iff.rfl
  reached d hd := List.mem_singleton.mp hd ▸ .refl
  last := rfl
  linked := .singleton _
  visited := ⟨fun _ h => absurd h List.not_mem_nil, trivial⟩
  nextFirst before c after h := by simp [start] at h

namespace Sound

variable {root : ClassId}

/-- Every class on the way reaches the first one. -/
theorem reaches_top (hs : Sound next root ⟨(c, i) :: way, seen, order⟩) {d : ClassId}
    (hd : d ∈ ((c, i) :: way).map Prod.fst) : Reaches next d c := by
  obtain ⟨frame, hframe, rfl⟩ := List.mem_map.mp hd
  rcases List.mem_cons.mp hframe with rfl | hbelow
  · exact .refl
  · exact List.IsChain.cons_induction (fun frame : ClassId × Nat => Reaches next frame.1 c) _ hs.linked
      (fun _ _ hbase hreach => .head hbase hreach) .refl frame hbelow

/-- A base that was met is done: on the way it would lie on a cycle. -/
theorem done_of_met (hg : Graded next height)
    (hs : Sound next root ⟨(c, i) :: way, seen, order⟩) (hbase : (next c)[i]? = some b)
    (hmet : b ∈ seen) : b ∈ order := by
  refine (List.mem_append.mp ((hs.seen b).mp hmet)).resolve_right fun hway => ?_
  have hlt : height b < height c := hg.next_lt (List.mem_of_getElem? hbase)
  exact absurd (hg.reaches_le (hs.reaches_top hway)) (Nat.not_le.mpr hlt)

/-- A class whose bases were all visited is done. -/
theorem leave (hs : Sound next root ⟨(c, i) :: way, seen, order⟩) (hlast : (next c)[i]? = none) :
    Sound next root ⟨way, seen, order ++ [c]⟩ := by
  have hline : line ⟨way, seen, order ++ [c]⟩ = line ⟨(c, i) :: way, seen, order⟩ :=
    List.append_assoc order [c] _
  have hall : ∀ b ∈ next c, b ∈ order := by
    intro b hb
    rw [← List.take_of_length_le (List.getElem?_eq_none_iff.mp hlast)] at hb
    exact hs.visited.1 b hb
  exact ⟨hline ▸ hs.nodup, hline ▸ hs.seen, hline ▸ hs.reached, hline ▸ hs.last, hs.linked.tail,
    hs.visited.2, hs.nextFirst.snoc hall⟩

/-- A base that was not met comes to stand right before the class it is a base of. -/
theorem enter (hs : Sound next root ⟨(c, i) :: way, seen, order⟩) (hbase : (next c)[i]? = some b)
    (hnew : b ∉ seen) :
    Sound next root ⟨(b, 0) :: (c, i + 1) :: way, b :: seen, order⟩ := by
  have hmid : (line ⟨(b, 0) :: (c, i + 1) :: way, b :: seen, order⟩).Perm
      (b :: line ⟨(c, i) :: way, seen, order⟩) := List.perm_middle
  have hb : b ∈ next c := List.mem_of_getElem? hbase
  have hc : c ∈ line ⟨(c, i) :: way, seen, order⟩ := List.mem_append_right _ List.mem_cons_self
  refine ⟨?_, fun d => ?_, fun d hd => ?_, ?_, ?_, ?_, hs.nextFirst⟩
  · exact hmid.nodup_iff.mpr (List.nodup_cons.mpr ⟨fun h => hnew ((hs.seen b).mpr h), hs.nodup⟩)
  · rw [hmid.mem_iff, List.mem_cons, List.mem_cons]
    exact or_congr_right (hs.seen d)
  · rcases List.mem_cons.mp (hmid.mem_iff.mp hd) with rfl | hd
    · exact (hs.reached c hc).tail hb
    · exact hs.reached d hd
  · have hlast := hs.last
    simp only [line, List.map_cons, List.getLast?_append_cons, List.getLast?_cons_cons] at hlast ⊢
    exact hlast
  · exact .cons_cons hb (List.IsChain.imp_head (x := (c, i)) (y := (c, i + 1)) (fun h => h) hs.linked)
  · refine ⟨fun _ h => absurd h List.not_mem_nil, ?_⟩
    exact hs.visited.onward hbase (List.subset_append_left _ _)
      (List.mem_append_right _ (List.mem_singleton_self b))

/-- A base that is done is passed over. -/
theorem pass (hs : Sound next root ⟨(c, i) :: way, seen, order⟩) (hbase : (next c)[i]? = some b)
    (hdone : b ∈ order) : Sound next root ⟨(c, i + 1) :: way, seen, order⟩ where
  nodup := hs.nodup
  seen := hs.seen
  reached := hs.reached
  last := hs.last
  linked := List.IsChain.imp_head (x := (c, i)) (y := (c, i + 1)) (fun h => h) hs.linked
  visited := hs.visited.onward hbase (fun _ h => h) hdone
  nextFirst := hs.nextFirst

/-- **A step keeps the invariant.** -/
theorem moves (hg : Graded next height) (hs : Sound next root t) (h : Moves next t t') :
    Sound next root t' := by
  cases h with
  | rest => exact hs
  | leave last => exact hs.leave last
  | enter base new => exact hs.enter base new
  | pass base met => exact hs.pass base (hs.done_of_met hg base met)

/-- **A tour keeps the invariant.** -/
theorem run (hg : Graded next height) : ∀ {n : Nat} {t : Tour}, Sound next root t →
    Sound next root (Tour.run next n t)
  | 0, _, hs => hs
  | _ + 1, t, hs => (hs.moves hg (moves_step next t)).run hg

end Sound

/-! ## 4. How long a tour takes -/

/-- A tour is over when there is no class left on the way. -/
def IsOver (t : Tour) : Prop := t.way = []

/-- A tour that is over stays as it is. -/
theorem run_of_isOver : ∀ {n : Nat} {t : Tour}, t.IsOver → run next n t = t
  | 0, _, _ => rfl
  | n + 1, ⟨[], _, _⟩, h => run_of_isOver (n := n) h

end Tour

/-- How many bases the classes below `count` have that are not among `seen`. -/
def unseenBases (next : ClassId → List ClassId) (count : Nat) (seen : List ClassId) : Nat :=
  ∑ c ∈ (Finset.range count).filter (· ∉ seen), (next c).length

/-- A class that is seen takes its bases away. -/
theorem unseenBases_cons {count : Nat} (hcount : ∀ c, count ≤ c → next c = []) {b : ClassId}
    {seen : List ClassId} (hnew : b ∉ seen) :
    unseenBases next count (b :: seen) + (next b).length = unseenBases next count seen := by
  have herase : (Finset.range count).filter (· ∉ b :: seen) =
      ((Finset.range count).filter (· ∉ seen)).erase b := by
    ext c
    simp only [Finset.mem_filter, Finset.mem_erase, List.mem_cons, not_or]
    exact and_left_comm
  rw [unseenBases, herase]
  by_cases hb : b < count
  · exact Finset.sum_erase_add _ _ (Finset.mem_filter.mpr ⟨Finset.mem_range.mpr hb, hnew⟩)
  · rw [Finset.erase_eq_of_notMem (by simp [hb]), hcount b (Nat.not_lt.mp hb)]
    rfl

theorem unseenBases_le (next : ClassId → List ClassId) (count : Nat) (seen : List ClassId) :
    unseenBases next count seen ≤ ((List.range count).flatMap next).length := by
  rw [List.length_flatMap]
  exact Finset.sum_le_sum_of_subset (Finset.filter_subset _ _)

namespace Tour

variable {t t' : Tour} {count : Nat}

/-- The steps that the classes on the way will still take: at most two for each base not visited, and
    one to leave the class. -/
def wayWork (next : ClassId → List ClassId) : List (ClassId × Nat) → Nat
  | [] => 0
  | (c, i) :: way => 2 * ((next c).length - i) + 1 + wayWork next way

/-- **A bound of the steps that a tour has before it**, when only classes below `count` have bases. -/
def work (next : ClassId → List ClassId) (count : Nat) (t : Tour) : Nat :=
  wayWork next t.way + 2 * unseenBases next count t.seen

/-- **A step leaves less to do**, unless the tour is over. -/
theorem Moves.work_lt (hcount : ∀ c, count ≤ c → next c = []) (h : Moves next t t') :
    t'.work next count < t.work next count ∨ t.IsOver := by
  cases h with
  | rest => exact .inr rfl
  | leave last =>
    left
    simp only [work, wayWork]
    omega
  | enter base new =>
    left
    have hlt := (List.getElem?_eq_some_iff.mp base).1
    have hseen := unseenBases_cons hcount new
    simp only [work, wayWork]
    omega
  | pass base met =>
    left
    have hlt := (List.getElem?_eq_some_iff.mp base).1
    simp only [work, wayWork]
    omega

/-- **A tour is over after as many steps as there is to do.** -/
theorem isOver_run (hcount : ∀ c, count ≤ c → next c = []) : ∀ {n : Nat} {t : Tour},
    t.work next count ≤ n → (run next n t).IsOver
  | 0, ⟨[], _, _⟩, _ => rfl
  | 0, ⟨(c, i) :: way, seen, order⟩, hn => by
      simp only [work, wayWork] at hn
      omega
  | n + 1, t, hn => by
      rw [run]
      rcases (moves_step next t).work_lt hcount with hlt | hover
      · exact isOver_run hcount (by omega)
      · have hstay : t.step next = t := run_of_isOver (n := 1) hover
        rw [hstay, run_of_isOver hover]
        exact hover

end Tour

/-! ## 5. Tours through a table -/

namespace SymbolTable

variable {table : SymbolTable}

/-- The heights of the classes, when looking below some classes only. -/
theorem graded_basesWhere (hg : Graded table.bases height) (expand : ClassId → Bool) :
    Graded (table.basesWhere expand) height where
  next_lt {c b} h := by
    unfold basesWhere at h
    split at h
    · exact hg.next_lt h
    · exact absurd h List.not_mem_nil

/-- Only classes have bases. -/
theorem bases_eq_nil {c : ClassId} (hc : table.classes.length ≤ c) : table.bases c = [] := by
  rw [bases, List.getElem?_eq_none hc]

theorem basesWhere_eq_nil {expand : ClassId → Bool} {c : ClassId} (hc : table.classes.length ≤ c) :
    table.basesWhere expand c = [] := by
  rw [basesWhere, bases_eq_nil hc, ite_self]

theorem length_basesWhere_le (expand : ClassId → Bool) (c : ClassId) :
    (table.basesWhere expand c).length ≤ (table.bases c).length := by
  unfold basesWhere
  split
  · exact Nat.le_refl _
  · exact Nat.zero_le _

/-- **Every tour ends** within the steps that it is given. -/
theorem isOver_tourFrom (table : SymbolTable) (c : ClassId) (expand : ClassId → Bool) :
    (table.tourFrom c expand).IsOver := by
  have hcount : ∀ d, table.classes.length ≤ d → table.basesWhere expand d = [] :=
    fun _ => basesWhere_eq_nil
  have hseen := unseenBases_cons hcount (List.not_mem_nil (a := c))
  have hall : unseenBases (table.basesWhere expand) table.classes.length [] ≤ table.baseCount := by
    refine (unseenBases_le _ _ _).trans ?_
    rw [baseCount, classIds, List.length_flatMap, List.length_flatMap]
    exact List.sum_le_sum fun d _ => length_basesWhere_le expand d
  refine Tour.isOver_run hcount ?_
  simp only [Tour.work, Tour.wayWork, Tour.start]
  omega

/-- What the tour from a class keeps, at its end. -/
theorem sound_tourFrom (hg : Graded table.bases height) (c : ClassId)
    (expand : ClassId → Bool) :
    Tour.Sound (table.basesWhere expand) c (table.tourFrom c expand) :=
  (Tour.sound_start _ c).run (graded_basesWhere hg expand)

/-- At its end every class that a tour met is done. -/
theorem line_tourFrom (table : SymbolTable) (c : ClassId) (expand : ClassId → Bool) :
    (table.tourFrom c expand).line = table.basesPostOrder c expand := by
  have hover := table.isOver_tourFrom c expand
  rw [Tour.line, hover, List.map_nil, List.append_nil, basesPostOrder]

/-- The bases to look at come before the classes that derive from them. -/
theorem basesPostOrder_nextFirst (hg : Graded table.bases height) (c : ClassId)
    (expand : ClassId → Bool) :
    Tour.NextFirst (table.basesWhere expand) (table.basesPostOrder c expand) :=
  (sound_tourFrom hg c expand).nextFirst

/-- No class comes twice. -/
theorem nodup_basesPostOrder (hg : Graded table.bases height) (c : ClassId)
    (expand : ClassId → Bool) : (table.basesPostOrder c expand).Nodup :=
  line_tourFrom table c expand ▸ (sound_tourFrom hg c expand).nodup

/-- The class from which the tour starts comes last. -/
theorem getLast?_basesPostOrder (hg : Graded table.bases height) (c : ClassId)
    (expand : ClassId → Bool) : (table.basesPostOrder c expand).getLast? = some c :=
  line_tourFrom table c expand ▸ (sound_tourFrom hg c expand).last

/-- **A tour returns exactly what is reached from its start.** -/
theorem mem_basesPostOrder (hg : Graded table.bases height) {c d : ClassId}
    {expand : ClassId → Bool} :
    d ∈ table.basesPostOrder c expand ↔ Reaches (table.basesWhere expand) c d := by
  constructor
  · intro hd
    exact (sound_tourFrom hg c expand).reached d (line_tourFrom table c expand ▸ hd)
  · intro hr
    have hc : c ∈ table.basesPostOrder c expand :=
      List.mem_of_getLast? (getLast?_basesPostOrder hg c expand)
    exact (basesPostOrder_nextFirst hg c expand).mem_of_reaches hc hr

end SymbolTable

end MemberRefs
