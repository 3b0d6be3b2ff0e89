import MemberRefs.Proofs.Table.Layout
import MemberRefs.Proofs.Table.Lookup

/-!
# All members visible in a class

The set of all members visible in a class is built from the sets of its bases, a look-up is made for one
name at a time. Both follow one notion of visible classes, and so they agree.

* `effectiveMembers_eq`: the set of a class, from those of its bases.
* `membersNamed_eq_inherited`: the same for the members of one name.
* `mem_membersNamed`: a member is in the set when its class is visible for its name.
* `lookupMember_iff_membersNamed`: what a look-up gives, said by the set.
-/

namespace MemberRefs

/-! ## 1. Each one once -/

section Repetitions

variable {α β : Type} [BEq β] [LawfulBEq β]

theorem nodup_eraseDups (xs : List β) : xs.eraseDups.Nodup := by
  match xs with
  | [] => exact List.nodup_nil
  | x :: xs =>
    rw [List.eraseDups_cons, List.nodup_cons]
    exact ⟨by simp, nodup_eraseDups _⟩
  termination_by xs.length
  decreasing_by exact Nat.lt_succ_of_le (List.length_filter_le _ _)

theorem eraseDups_of_nodup : ∀ {xs : List β}, xs.Nodup → xs.eraseDups = xs
  | [], _ => rfl
  | x :: xs, h => by
      obtain ⟨hx, hxs⟩ := List.nodup_cons.mp h
      have hkeep : (xs.filter fun y => !y == x) = xs :=
        List.filter_eq_self.mpr fun y hy => by simpa using fun e : y = x => hx (e ▸ hy)
      rw [List.eraseDups_cons, hkeep, eraseDups_of_nodup hxs]

/-- Picking out and taking each one once may be done in either order. -/
theorem filter_eraseDups (p : β → Bool) (xs : List β) :
    xs.eraseDups.filter p = (xs.filter p).eraseDups := by
  match xs with
  | [] => rfl
  | x :: xs =>
    have hrest := filter_eraseDups p (xs.filter fun y => !y == x)
    rw [List.eraseDups_cons]
    by_cases hx : p x
    · rw [List.filter_cons_of_pos hx, List.filter_cons_of_pos hx, List.eraseDups_cons, hrest,
        List.filter_comm]
    · -- what is picked out is not `x` anyway
      have hkeep : (xs.filter p).filter (fun y => !y == x) = xs.filter p := by
        refine List.filter_eq_self.mpr fun y hy => ?_
        have hne : y ≠ x := fun e => hx (e ▸ List.of_mem_filter hy)
        simpa using hne
      rw [List.filter_cons_of_neg hx, List.filter_cons_of_neg hx, hrest, List.filter_comm, hkeep]
  termination_by xs.length
  decreasing_by exact Nat.lt_succ_of_le (List.length_filter_le _ _)

/-- Taking each one once may be done before or after renaming. -/
theorem eraseDups_map {γ : Type} [BEq γ] [LawfulBEq γ] {f : β → γ} (hf : f.Injective)
    (xs : List β) : (xs.map f).eraseDups = xs.eraseDups.map f := by
  match xs with
  | [] => rfl
  | x :: xs =>
    have hrest : (xs.map f).filter (fun y => !y == f x) = (xs.filter fun y => !y == x).map f := by
      rw [List.filter_map]
      refine congrArg (List.map f) (List.filter_congr fun y _ => congrArg not ?_)
      rw [Bool.eq_iff_iff, beq_iff_eq, beq_iff_eq, hf.eq_iff]
    rw [List.map_cons, List.eraseDups_cons, List.eraseDups_cons, hrest, eraseDups_map hf,
      List.map_cons]
  termination_by xs.length
  decreasing_by exact Nat.lt_succ_of_le (List.length_filter_le _ _)

/-- Copies of a list without repetitions leave that list, if there is one. -/
theorem eraseDups_flatMap_copies {f : α → List β} {ys : List β} (hys : ys.Nodup) :
    ∀ {xs : List α}, (∀ x ∈ xs, f x = [] ∨ f x = ys) →
      (xs.flatMap f).eraseDups = [] ∨ (xs.flatMap f).eraseDups = ys
  | [], _ => .inl rfl
  | x :: xs, h => by
      rw [List.flatMap_cons]
      rcases h x List.mem_cons_self with hx | hx
      · rw [hx, List.nil_append]
        exact eraseDups_flatMap_copies hys fun y hy => h y (List.mem_cons_of_mem _ hy)
      · right
        have hrest : (xs.flatMap f).removeAll ys = [] := by
          refine List.filter_eq_nil_iff.mpr fun a ha => ?_
          obtain ⟨y, hy, ha⟩ := List.mem_flatMap.mp ha
          rcases h y (List.mem_cons_of_mem _ hy) with hfy | hfy
          · exact absurd (hfy ▸ ha) List.not_mem_nil
          · simpa using hfy ▸ ha
        rw [hx, List.eraseDups_append, hrest, List.eraseDups_nil, List.append_nil,
          eraseDups_of_nodup hys]

end Repetitions

namespace SymbolTable

variable {unit : SourceUnit} {options : Options} {table : SymbolTable} {name : String}

/-! ## 2. The set of a class, from those of its bases -/

/-- The members of the bases of a class that the class does not hide, with repetitions. -/
def unhidden (table : SymbolTable) (c : ClassId) : List MemberId :=
  ((table.bases c).flatMap table.effectiveMembers).filter fun m =>
    !((table.membersOf c).map table.memberName).contains (table.memberName m)

/-- The members visible in a class, when its bases are asked for theirs. -/
def effectiveBelow (table : SymbolTable) (c : ClassId) : List MemberId :=
  table.membersOf c ++ (table.unhidden c).eraseDups

/-- A step of the walk is right when the bases are remembered. -/
theorem effectiveStep_eq {sets : List (ClassId × List MemberId)} {d : ClassId}
    (h : ∀ b ∈ table.bases d, sets.lookup b = some (table.effectiveMembers b)) :
    table.effectiveStep sets d = table.effectiveBelow d := by
  have hinherited : ((table.bases d).flatMap fun b => (sets.lookup b).getD []) =
      (table.bases d).flatMap table.effectiveMembers :=
    List.flatMap_congr fun b hb => by rw [h b hb, Option.getD_some]
  simp only [effectiveStep, hinherited]
  rfl

/-- **The members visible in a class are its own and those of its bases that it does not hide**, each one
    once. -/
theorem effectiveMembers_eq (hw : table.WellFormed) (c : ClassId) :
    table.effectiveMembers c = table.effectiveBelow c := by
  have hread : ∀ d set, ((table.basesPostOrder d fun _ => true).foldl
      (fun sets d => (d, table.effectiveStep sets d) :: sets) []).lookup d = some set →
        table.effectiveMembers d = set := by
    intro d set hset
    unfold effectiveMembers
    simp only [hset, Option.getD_some]
  exact hw.memo_eq hread (fun _ _ => effectiveStep_eq) c

/-- A member that a class does not hide has another name than its own members. -/
theorem ne_memberName_of_mem_unhidden {c : ClassId} {m own : MemberId} (h : m ∈ table.unhidden c)
    (hown : own ∈ table.membersOf c) : table.memberName m ≠ table.memberName own := by
  intro hname
  have hnot := List.of_mem_filter h
  rw [hname, List.contains_iff_mem.mpr (List.mem_map_of_mem hown)] at hnot
  cases hnot

/-- **No member is twice in the set.** -/
theorem nodup_effectiveMembers (hw : table.WellFormed) (c : ClassId) :
    (table.effectiveMembers c).Nodup := by
  rw [effectiveMembers_eq hw, effectiveBelow]
  refine List.nodup_append.mpr ⟨hw.nodup_membersOf c, nodup_eraseDups _, fun own hown m hm heq => ?_⟩
  exact ne_memberName_of_mem_unhidden (List.mem_eraseDups.mp hm) hown (heq ▸ rfl)

/-! ## 3. One name -/

/-- The members of one name that are visible in a class. -/
def membersNamed (table : SymbolTable) (c : ClassId) (name : String) : List MemberId :=
  (table.effectiveMembers c).filter fun m => table.memberName m == name

/-- In a class that declares the name its own members are all. -/
theorem membersNamed_eq_own (hw : table.WellFormed) {c : ClassId} (hc : table.Declares name c) :
    table.membersNamed c name = table.ownMembers c name := by
  obtain ⟨own, hown, hname⟩ := hc
  have hnone : (table.unhidden c).eraseDups.filter (fun m => table.memberName m == name) = [] := by
    refine List.filter_eq_nil_iff.mpr fun m hm => ?_
    have hne := ne_memberName_of_mem_unhidden (List.mem_eraseDups.mp hm) hown
    simpa [hname] using hne
  rw [membersNamed, effectiveMembers_eq hw, effectiveBelow, List.filter_append, hnone,
    List.append_nil]
  rfl

/-- **In a class that does not declare the name they are those of the bases**, each one once. -/
theorem membersNamed_eq_inherited (hw : table.WellFormed) {c : ClassId}
    (hc : ¬ table.Declares name c) :
    table.membersNamed c name =
      ((table.bases c).flatMap fun b => table.membersNamed b name).eraseDups := by
  have hown : (table.membersOf c).filter (fun m => table.memberName m == name) = [] :=
    ownMembers_eq_nil_iff.mpr hc
  -- a class that does not declare the name hides no member that has it
  have hunhidden : (table.unhidden c).filter (fun m => table.memberName m == name) =
      ((table.bases c).flatMap table.effectiveMembers).filter
        fun m => table.memberName m == name := by
    rw [unhidden, List.filter_filter]
    refine List.filter_congr fun m _ => ?_
    by_cases hm : table.memberName m = name
    · have hfree : name ∉ (table.membersOf c).map table.memberName :=
        fun hmem => hc (List.mem_map.mp hmem)
      simp [hm, hfree]
    · simp [hm]
  rw [membersNamed, effectiveMembers_eq hw, effectiveBelow, List.filter_append, hown,
    List.nil_append, filter_eraseDups, hunhidden, List.filter_flatMap]
  rfl

/-- **A member is visible under a name when its class is.** -/
theorem mem_membersNamed (hw : table.WellFormed) {c : ClassId} {m : MemberId} :
    m ∈ table.membersNamed c name ↔
      ∃ d, table.Visible name c d ∧ m ∈ table.ownMembers d name := by
  induction c using hw.bases_induction with
  | step c ih =>
    by_cases hc : table.Declares name c
    · simp [membersNamed_eq_own hw hc, visible_iff_of_declares hc]
    · rw [membersNamed_eq_inherited hw hc, List.mem_eraseDups, List.mem_flatMap]
      simp only [visible_iff_of_not_declares hc]
      constructor
      · rintro ⟨b, hb, hm⟩
        obtain ⟨d, hd, hm⟩ := (ih b hb).mp hm
        exact ⟨d, ⟨b, hb, hd⟩, hm⟩
      · rintro ⟨d, ⟨b, hb, hd⟩, hm⟩
        exact ⟨b, hb, (ih b hb).mpr ⟨d, hd, hm⟩⟩

/-- Where at most one class is visible, the set has all its members of the name or none. -/
theorem membersNamed_of_visible_eq (hw : table.WellFormed) {c d : ClassId}
    (h : ∀ d', table.Visible name c d' → d' = d) :
    table.membersNamed c name = [] ∨ table.membersNamed c name = table.ownMembers d name := by
  induction c using hw.bases_induction with
  | step c ih =>
    by_cases hc : table.Declares name c
    · obtain rfl : c = d := h c ((visible_iff_of_declares hc).mpr rfl)
      exact .inr (membersNamed_eq_own hw hc)
    · rw [membersNamed_eq_inherited hw hc]
      refine eraseDups_flatMap_copies ((hw.nodup_membersOf d).filter _) fun b hb => ih b hb ?_
      exact fun d' hd' => h d' ((visible_iff_of_not_declares hc).mpr ⟨b, hb, hd'⟩)

/-! ## 4. The set and the look-up -/

theorem visible_of_mem_membersNamed (hw : table.WellFormed) {c d : ClassId} {m : MemberId}
    (hm : m ∈ table.membersNamed c name) (hd : m ∈ table.membersOf d) :
    table.Visible name c d := by
  obtain ⟨d', hvis, hown⟩ := (mem_membersNamed hw).mp hm
  rwa [hw.owner_unique hd (List.mem_of_mem_filter hown)]

/-- A visible class has a member in the set. -/
theorem exists_of_visible (hw : table.WellFormed) {c d : ClassId} (hd : table.Visible name c d) :
    ∃ m ∈ table.membersNamed c name, m ∈ table.membersOf d := by
  obtain ⟨m, hm, hname⟩ := hd.2
  have hown : m ∈ table.ownMembers d name := List.mem_filter.mpr ⟨hm, beq_iff_eq.mpr hname⟩
  exact ⟨m, (mem_membersNamed hw).mpr ⟨d, hd, hown⟩, hm⟩

/-- Where one class is visible, the set has the own members of that class. -/
theorem membersNamed_of_visible_iff (hw : table.WellFormed) {c d : ClassId}
    (hone : ∀ d', table.Visible name c d' ↔ d' = d) :
    table.membersNamed c name = table.ownMembers d name := by
  obtain ⟨m, hm, _⟩ := exists_of_visible hw ((hone d).mpr rfl)
  exact (membersNamed_of_visible_eq hw fun d' => (hone d').mp).resolve_left
    (List.ne_nil_of_mem hm)

/-- One class is visible exactly when the set has members of the name and all are of that class. -/
theorem visible_iff_eq_iff (hw : table.WellFormed) {c d : ClassId} :
    (∀ d', table.Visible name c d' ↔ d' = d) ↔
      table.membersNamed c name ≠ [] ∧ ∀ m ∈ table.membersNamed c name, m ∈ table.membersOf d := by
  constructor
  · intro hone
    obtain ⟨m, hm, _⟩ := exists_of_visible hw ((hone d).mpr rfl)
    refine ⟨List.ne_nil_of_mem hm, fun m' hm' => ?_⟩
    exact List.mem_of_mem_filter (membersNamed_of_visible_iff hw hone ▸ hm')
  · rintro ⟨hne, hall⟩ d'
    constructor
    · intro hd'
      obtain ⟨m, hm, hmd'⟩ := exists_of_visible hw hd'
      exact hw.owner_unique hmd' (hall m hm)
    · rintro rfl
      obtain ⟨m, hm⟩ := List.exists_mem_of_ne_nil _ hne
      exact visible_of_mem_membersNamed hw hm (hall m hm)

/-- No class is visible exactly when the set has no member of the name. -/
theorem not_visible_iff (hw : table.WellFormed) {c : ClassId} :
    (∀ d, ¬ table.Visible name c d) ↔ table.membersNamed c name = [] := by
  rw [List.eq_nil_iff_forall_not_mem]
  constructor
  · intro hnone m hm
    obtain ⟨d, hd, _⟩ := (mem_membersNamed hw).mp hm
    exact hnone d hd
  · intro hnone d hd
    obtain ⟨m, hm, _⟩ := exists_of_visible hw hd
    exact hnone m hm

/-- **The set of all visible members and the look-up of a name agree.** The set has no member twice and
    starts with those that the class itself declares, in order. A look-up gives members exactly when the
    set has some of the name and all of these are of one class, and it gives these; it misses the member
    exactly when the set has none, and is ambiguous exactly when it has some of different classes. -/
theorem lookupMember_iff_membersNamed (h : build unit options = .ok table) (c : ClassId)
    (name : String) :
    (table.effectiveMembers c).Nodup ∧
    table.membersOf c <+: table.effectiveMembers c ∧
    (∀ info, table.classes[c]? = some info →
      (table.membersOf c).map table.memberDecl? = info.decl.members.map some) ∧
    (∀ ms, table.lookupMember c name = .ok ms ↔
      table.membersNamed c name ≠ [] ∧
        (∃ d, ∀ m ∈ table.membersNamed c name, m ∈ table.membersOf d) ∧
          ms = table.membersNamed c name) ∧
    (∀ owner n, table.lookupMember c name = .error (.noSuchMember owner n) ↔
      owner = table.className c ∧ n = name ∧ table.membersNamed c name = []) ∧
    ((∃ owner n, table.lookupMember c name = .error (.ambiguousBase owner n)) ↔
      ∃ m ∈ table.membersNamed c name, ∃ m' ∈ table.membersNamed c name,
        ∃ d d', m ∈ table.membersOf d ∧ m' ∈ table.membersOf d' ∧ d ≠ d') := by
  have hw := wellFormed_of_build h
  have hout := lookupMember_outcome hw c name
  refine ⟨nodup_effectiveMembers hw c, ?_, fun info => map_memberDecl?_membersOf h, fun ms => ?_,
    fun owner n => ?_, ?_⟩
  · rw [effectiveMembers_eq hw]
    exact List.prefix_append _ _
  · rw [hout.eq_ok_iff]
    constructor
    · rintro ⟨d, hone, rfl⟩
      obtain ⟨hne, hall⟩ := (visible_iff_eq_iff hw).mp hone
      exact ⟨hne, ⟨d, hall⟩, (membersNamed_of_visible_iff hw hone).symm⟩
    · rintro ⟨hne, ⟨d, hall⟩, rfl⟩
      have hone := (visible_iff_eq_iff hw).mpr ⟨hne, hall⟩
      exact ⟨d, hone, membersNamed_of_visible_iff hw hone⟩
  · rw [hout.eq_missing_iff, not_visible_iff hw]
  · rw [hout.eq_ambiguous_iff]
    constructor
    · rintro ⟨d, d', hd, hd', hne⟩
      obtain ⟨m, hm, hmd⟩ := exists_of_visible hw hd
      obtain ⟨m', hm', hmd'⟩ := exists_of_visible hw hd'
      exact ⟨m, hm, m', hm', d, d', hmd, hmd', hne⟩
    · rintro ⟨m, hm, m', hm', d, d', hmd, hmd', hne⟩
      exact ⟨d, d', visible_of_mem_membersNamed hw hm hmd,
        visible_of_mem_membersNamed hw hm' hmd', hne⟩

/-- A class `Left` that hides the field `id` of its base `Root`, a class `Right` that does not, and a
    class below both. -/
def halfHiddenUnit : SourceUnit :=
  bareUnit [.ofClass (bareClass "Root" [] ["id", "size"]),
    .ofClass (bareClass "Left" ["Root"] ["id"]), .ofClass (bareClass "Right" ["Root"] []),
    .ofClass (bareClass "Bottom" ["Left", "Right"] [])]

/-- Below both classes the field `id` of `Left` and that of `Root` are visible, which is an ambiguity, and
    `size` once. -/
theorem lookupMember_halfHiddenUnit : ∃ table, build halfHiddenUnit {} = .ok table ∧
    table.effectiveMembers 3 = [2, 1, 0] ∧
    (∃ owner n, table.lookupMember 3 "id" = .error (.ambiguousBase owner n)) ∧
    table.lookupMember 3 "size" = .ok [1] := by
  refine ⟨_, rfl, rfl, ?_, ?_⟩
  · refine (@lookupMember_iff_membersNamed halfHiddenUnit {} _ rfl 3 "id").2.2.2.2.2.mpr ?_
    exact ⟨2, by decide, 0, by decide, 1, 0, by decide, by decide, by decide⟩
  · refine ((@lookupMember_iff_membersNamed halfHiddenUnit {} _ rfl 3 "size").2.2.2.1 [1]).mpr ?_
    exact ⟨by decide, ⟨0, by decide⟩, rfl⟩

end SymbolTable

end MemberRefs
