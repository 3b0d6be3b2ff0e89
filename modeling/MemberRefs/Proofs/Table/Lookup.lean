import Mathlib.Data.List.Induction
import MemberRefs.Proofs.Table.Ascent
import MemberRefs.Proofs.Table.Built
import MemberRefs.Table.Lookup

/-!
# Member lookup along paths

Looking a name up is a walk over the classes below a class that remembers what the name means in each of
them. Here it is compared with paths: a class is visible for a name when it declares it and is reached
through classes that do not (`Visible`).

* `lookup_foldl_memo`: what a walk remembers, when it takes every class after the ones it asks for.
* `WellFormed.memo_eq`: what is read off the walk from a class is what asking the bases gives.
* `lookupMember_eq`: looking up is asking the bases, unless the class itself declares the name.
* `merged_mergeBases`: the four ways in which the answers of the bases are joined.
* `lookupMember_outcome`: one visible class is the answer, none is a missing member, several are an
  ambiguity, which arises at a class between whose bases it is.
-/

namespace MemberRefs

open Relation

/-! ## 1. Walks that remember -/

/-- **What a walk remembers**: where every step is right once the classes next to its own are remembered
    rightly, so is everything in the end. -/
theorem lookup_foldl_memo {β : Type} {next : ClassId → List ClassId} (value : ClassId → β)
    (step : List (ClassId × β) → ClassId → β) (order : List ClassId)
    (hnext : Tour.NextFirst next order)
    (hstep : ∀ d ∈ order, ∀ results : List (ClassId × β),
      (∀ b ∈ next d, results.lookup b = some (value b)) → step results d = value d) :
    ∀ d ∈ order, (order.foldl (fun results d => (d, step results d) :: results) []).lookup d =
      some (value d) := by
  induction order using List.reverseRecOn with
  | nil => exact fun _ h => absurd h List.not_mem_nil
  | append_singleton before e ih =>
    have hbefore : Tour.NextFirst next before := fun front d after he =>
      hnext front d (after ++ [e]) (by simp [he])
    have hold := ih hbefore fun d hd => hstep d (List.mem_append_left _ hd)
    have hlast := hstep e (List.mem_append_right _ List.mem_cons_self) _ fun b hb =>
      hold b (hnext before e [] rfl b hb)
    intro d hd
    rw [List.foldl_append, List.foldl_cons, List.foldl_nil, List.lookup_cons, hlast]
    by_cases hde : d = e
    · simp [hde]
    · have hd' : d ∈ before := by simpa [hde] using hd
      rw [beq_false_of_ne hde]
      exact hold d hd'

namespace SymbolTable

variable {table : SymbolTable} {name : String}

/-- **A walk that remembers answers as if every class asked its bases**: the answer of a class is what the
    walk from it remembers for it, and a step is right once the bases that it asks have their answers. -/
theorem WellFormed.memo_eq {β : Type} (hw : table.WellFormed) {expand : ClassId → Bool}
    {step : List (ClassId × β) → ClassId → β} {answer below : ClassId → β}
    (hread : ∀ c value, ((table.basesPostOrder c expand).foldl
      (fun results d => (d, step results d) :: results) []).lookup c = some value → answer c = value)
    (hstep : ∀ d results, (∀ b ∈ table.basesWhere expand d, results.lookup b = some (answer b)) →
      step results d = below d) (c : ClassId) : answer c = below c := by
  obtain ⟨height, hg⟩ := hw.graded
  -- the walk from `c` meets only classes that are not higher; below `c` the answers are known
  induction hh : height c using Nat.strongRecOn generalizing c with
  | _ n ih =>
    have hbelow : ∀ b, height b < height c → answer b = below b :=
      fun b hb => ih (height b) (hh ▸ hb) b rfl
    have hmemo := lookup_foldl_memo below step _ (basesPostOrder_nextFirst hg c expand)
      (fun d hd results hresults => hstep d results fun b hb => by
        have hlt : height b < height d := (graded_basesWhere hg expand).next_lt hb
        have hle : height d ≤ height c :=
          (graded_basesWhere hg expand).reaches_le ((mem_basesPostOrder hg).mp hd)
        rw [hresults b hb, hbelow b (Nat.lt_of_lt_of_le hlt hle)])
      c ((mem_basesPostOrder hg).mpr .refl)
    exact hread c _ hmemo

/-! ## 2. Visible classes -/

/-- A class declares a name when one of the members it lists has it. -/
def Declares (table : SymbolTable) (name : String) (c : ClassId) : Prop :=
  ∃ m ∈ table.membersOf c, table.memberName m = name

/-- `d` is reached from `c` through base lists, and no class on the way before `d` declares the name. -/
abbrev Uncovered (table : SymbolTable) (name : String) (c d : ClassId) : Prop :=
  ReflTransGen (fun a b => ¬ table.Declares name a ∧ b ∈ table.bases a) c d

/-- `d` declares the name, and no class on some way from `c` down to it hides that. -/
def Visible (table : SymbolTable) (name : String) (c d : ClassId) : Prop :=
  table.Uncovered name c d ∧ table.Declares name d

theorem ownMembers_eq_nil_iff {c : ClassId} :
    table.ownMembers c name = [] ↔ ¬ table.Declares name c := by
  simp [ownMembers, Declares, List.filter_eq_nil_iff]

/-- A class that declares the name sees itself alone. -/
theorem visible_iff_of_declares {c d : ClassId} (hc : table.Declares name c) :
    table.Visible name c d ↔ d = c := by
  constructor
  · rintro ⟨hway, _⟩
    rcases ReflTransGen.cases_head hway with h | ⟨_, ⟨hn, _⟩, _⟩
    · exact h.symm
    · exact absurd hc hn
  · rintro rfl
    exact ⟨.refl, hc⟩

/-- A class that does not declare the name sees what its bases see. -/
theorem visible_iff_of_not_declares {c d : ClassId} (hc : ¬ table.Declares name c) :
    table.Visible name c d ↔ ∃ b ∈ table.bases c, table.Visible name b d := by
  constructor
  · rintro ⟨hway, hd⟩
    rcases ReflTransGen.cases_head hway with rfl | ⟨b, ⟨_, hb⟩, hway⟩
    · exact absurd hd hc
    · exact ⟨b, hb, hway, hd⟩
  · rintro ⟨b, hb, hway, hd⟩
    exact ⟨.head ⟨hc, hb⟩ hway, hd⟩

/-! ## 3. Looking up without remembering -/

/-- What a name means in a class, when its bases are asked by looking the name up in each of them. -/
def lookupBelow (table : SymbolTable) (name : String) (c : ClassId) : Found :=
  match table.ownMembers c name with
  | [] => mergeBases (table.className c) name none
      ((table.bases c).map fun b => table.lookupMember b name)
  | own => .ok own

/-- A step of the walk is right when the bases it asks for are remembered. -/
theorem lookupStep_eq {results : List (ClassId × Found)} {d : ClassId}
    (h : ∀ b ∈ table.basesWhere (fun c => (table.ownMembers c name).isEmpty) d,
      results.lookup b = some (table.lookupMember b name)) :
    table.lookupStep name results d = table.lookupBelow name d := by
  unfold lookupStep lookupBelow
  cases hown : table.ownMembers d name with
  | cons m ms => rfl
  | nil =>
    have hbases : table.basesWhere (fun c => (table.ownMembers c name).isEmpty) d =
        table.bases d := by
      simp [basesWhere, hown]
    rw [hbases] at h
    have hmap : (table.bases d).filterMap (fun b => results.lookup b) =
        (table.bases d).map fun b => table.lookupMember b name := by
      rw [List.filterMap_congr h]
      exact congrFun List.filterMap_eq_map' _
    rw [hmap]

/-- **Looking up is asking the bases**, unless the class itself declares the name. -/
theorem lookupMember_eq (hw : table.WellFormed) (c : ClassId) (name : String) :
    table.lookupMember c name = table.lookupBelow name c := by
  have hread : ∀ d found, ((table.basesPostOrder d fun d => (table.ownMembers d name).isEmpty).foldl
      (fun results d => (d, table.lookupStep name results d) :: results) []).lookup d = some found →
        table.lookupMember d name = found := by
    intro d found hfound
    unfold lookupMember
    simp only [hfound]
  exact hw.memo_eq hread (fun _ _ => lookupStep_eq) c

/-! ## 4. Joining the answers of the bases -/

/-- A look-up that found no member. -/
def Missing (r : Found) : Prop := ∃ owner n, r = .error (.noSuchMember owner n)

/-- How answers `rs` that come after `found` are joined for the class `owner`. -/
inductive Merged (owner name : String) (found : Option (List MemberId)) (rs : List Found) :
    Found → Prop where
  /-- All that was found is the same. -/
  | agreed {ms} (hsome : found = some ms ∨ found = none ∧ .ok ms ∈ rs)
      (hall : ∀ r ∈ rs, r = .ok ms ∨ Missing r) : Merged owner name found rs (.ok ms)
  /-- Nothing was found. -/
  | missing (hnone : found = none) (hall : ∀ r ∈ rs, Missing r) :
      Merged owner name found rs (.error (.noSuchMember owner name))
  /-- Different members were found. -/
  | split {ms ms'} (hms : found = some ms ∨ .ok ms ∈ rs) (hms' : .ok ms' ∈ rs) (hne : ms ≠ ms') :
      Merged owner name found rs (.error (.ambiguousBase owner name))
  /-- One of the answers is a failure of another kind. -/
  | failed {reason} (hmem : .error reason ∈ rs) (hnot : ¬ Missing (.error reason)) :
      Merged owner name found rs (.error reason)

/-- An answer that agrees with what was found before changes nothing. -/
theorem Merged.cons_same {owner : String} {ms : List MemberId} {rs : List Found} {r : Found}
    (h : Merged owner name (some ms) rs r) : Merged owner name (some ms) (.ok ms :: rs) r := by
  cases h with
  | agreed hsome hall =>
    obtain rfl : ms = _ := Option.some.inj (hsome.resolve_right fun h => by cases h.1)
    exact .agreed (.inl rfl) (List.forall_mem_cons.mpr ⟨.inl rfl, hall⟩)
  | missing hnone => cases hnone
  | split hms hms' hne =>
    exact .split (hms.imp id (List.mem_cons_of_mem _)) (List.mem_cons_of_mem _ hms') hne
  | failed hmem hnot => exact .failed (List.mem_cons_of_mem _ hmem) hnot

/-- The first members that are found count from then on. -/
theorem Merged.cons_first {owner : String} {ms : List MemberId} {rs : List Found} {r : Found}
    (h : Merged owner name (some ms) rs r) : Merged owner name none (.ok ms :: rs) r := by
  cases h with
  | agreed hsome hall =>
    obtain rfl : ms = _ := Option.some.inj (hsome.resolve_right fun h => by cases h.1)
    exact .agreed (.inr ⟨rfl, List.mem_cons_self⟩) (List.forall_mem_cons.mpr ⟨.inl rfl, hall⟩)
  | missing hnone => cases hnone
  | split hms hms' hne =>
    refine .split (.inr ?_) (List.mem_cons_of_mem _ hms') hne
    rcases hms with hms | hms
    · rw [Option.some.inj hms]
      exact List.mem_cons_self
    · exact List.mem_cons_of_mem _ hms
  | failed hmem hnot => exact .failed (List.mem_cons_of_mem _ hmem) hnot

/-- A base without the member changes nothing. -/
theorem Merged.cons_missing {owner : String} {found : Option (List MemberId)} {rs : List Found}
    {q r : Found} (hq : Missing q) (h : Merged owner name found rs r) :
    Merged owner name found (q :: rs) r := by
  cases h with
  | agreed hsome hall =>
    exact .agreed (hsome.imp id (And.imp id (List.mem_cons_of_mem _)))
      (List.forall_mem_cons.mpr ⟨.inr hq, hall⟩)
  | missing hnone hall => exact .missing hnone (List.forall_mem_cons.mpr ⟨hq, hall⟩)
  | split hms hms' hne =>
    exact .split (hms.imp id (List.mem_cons_of_mem _)) (List.mem_cons_of_mem _ hms') hne
  | failed hmem hnot => exact .failed (List.mem_cons_of_mem _ hmem) hnot

/-- **The answers of the bases are joined in one of four ways.** -/
theorem merged_mergeBases (owner name : String) (found : Option (List MemberId))
    (rs : List Found) : Merged owner name found rs (mergeBases owner name found rs) := by
  fun_induction mergeBases owner name found rs with
  | case1 ms => exact .agreed (.inl rfl) fun _ h => absurd h List.not_mem_nil
  | case2 => exact .missing rfl fun _ h => absurd h List.not_mem_nil
  | case3 ms rest ih => exact ih.cons_first
  | case4 ms rest ih => exact ih.cons_same
  | case5 previous ms rest hne => exact .split (.inl rfl) List.mem_cons_self hne
  | case6 found o n rest ih => exact ih.cons_missing ⟨o, n, rfl⟩
  | case7 found reason rest hnot =>
    refine .failed List.mem_cons_self ?_
    rintro ⟨o, n, h⟩
    exact hnot o n (Except.error.inj h)

/-! ## 5. What a look-up gives -/

/-- What looking a name up in `c` gives, in terms of the classes that are visible for the name. -/
inductive Outcome (table : SymbolTable) (name : String) (c : ClassId) : Found → Prop where
  /-- One class is visible, and its own members are the answer. -/
  | single {d} (hd : table.Visible name c d) (hone : ∀ d', table.Visible name c d' → d' = d) :
      Outcome table name c (.ok (table.ownMembers d name))
  /-- No class is visible. -/
  | missing (hnone : ∀ d, ¬ table.Visible name c d) :
      Outcome table name c (.error (.noSuchMember (table.className c) name))
  /-- Several classes are visible; they part at a class with bases that give different members. -/
  | ambiguous {d d' k b b' ms ms'} (hd : table.Visible name c d) (hd' : table.Visible name c d')
      (hne : d ≠ d') (hk : table.Uncovered name c k) (hb : b ∈ table.bases k)
      (hb' : b' ∈ table.bases k) (hms : table.lookupMember b name = .ok ms)
      (hms' : table.lookupMember b' name = .ok ms') (hne' : ms ≠ ms') :
      Outcome table name c (.error (.ambiguousBase (table.className k) name))

/-- Where a look-up gives members, it is those of the one visible class. -/
theorem Outcome.of_ok {c : ClassId} {ms : List MemberId} (h : Outcome table name c (.ok ms)) :
    ∃ d, table.Visible name c d ∧ (∀ d', table.Visible name c d' → d' = d) ∧
      ms = table.ownMembers d name := by
  cases h with
  | single hd hone => exact ⟨_, hd, hone, rfl⟩

/-- Where a look-up misses the member, no class is visible. -/
theorem Outcome.of_missing {c : ClassId} {r : Found} (h : Outcome table name c r)
    (hr : Missing r) : ∀ d, ¬ table.Visible name c d := by
  obtain ⟨o, n, rfl⟩ := hr
  cases h with
  | missing hnone => exact hnone

/-- Classes that declare the name differ in the members they have for it. -/
theorem eq_of_ownMembers_eq (hw : table.WellFormed) {d d' : ClassId} (hd : table.Declares name d)
    (h : table.ownMembers d name = table.ownMembers d' name) : d = d' := by
  obtain ⟨m, hm, hn⟩ := hd
  have hmem : m ∈ table.ownMembers d name := by simp [ownMembers, hm, hn]
  have hmem' : m ∈ table.ownMembers d' name := h ▸ hmem
  exact hw.owner_unique hm (List.mem_of_mem_filter hmem')

/-- The answer of a class that does not declare the name, from the answers of its bases. -/
theorem Outcome.of_bases (hw : table.WellFormed) {c : ClassId} (hc : ¬ table.Declares name c)
    (hbases : ∀ b ∈ table.bases c, Outcome table name b (table.lookupMember b name)) {r : Found}
    (hr : Merged (table.className c) name none
      ((table.bases c).map fun b => table.lookupMember b name) r) : Outcome table name c r := by
  have hup : ∀ {b d}, b ∈ table.bases c → table.Visible name b d → table.Visible name c d :=
    fun hb hd => (visible_iff_of_not_declares hc).mpr ⟨_, hb, hd⟩
  have hfrom : ∀ {b ms}, b ∈ table.bases c → table.lookupMember b name = .ok ms →
      ∃ d, table.Visible name b d ∧ (∀ d', table.Visible name b d' → d' = d) ∧
        ms = table.ownMembers d name := fun hb hms => (hms ▸ hbases _ hb).of_ok
  cases hr with
  | agreed hsome hall =>
    obtain ⟨_, hmem⟩ := hsome.resolve_left fun h => by cases h
    obtain ⟨b, hb, hms⟩ := List.mem_map.mp hmem
    obtain ⟨d, hd, _, rfl⟩ := hfrom hb hms
    refine .single (hup hb hd) fun d' hd' => ?_
    obtain ⟨b', hb', hvis⟩ := (visible_iff_of_not_declares hc).mp hd'
    rcases hall _ (List.mem_map_of_mem hb') with hsame | hnone
    · obtain ⟨e, _, hone, hown⟩ := hfrom hb' hsame
      rw [hone d' hvis, eq_of_ownMembers_eq hw hd.2 hown]
    · exact absurd hvis ((hbases b' hb').of_missing hnone d')
  | missing _ hall =>
    refine .missing fun d hd => ?_
    obtain ⟨b, hb, hvis⟩ := (visible_iff_of_not_declares hc).mp hd
    exact (hbases b hb).of_missing (hall _ (List.mem_map_of_mem hb)) d hvis
  | split hms hms' hne =>
    obtain ⟨b, hb, hms⟩ := List.mem_map.mp (hms.resolve_left fun h => by cases h)
    obtain ⟨b', hb', hms'⟩ := List.mem_map.mp hms'
    obtain ⟨d, hd, _, rfl⟩ := hfrom hb hms
    obtain ⟨d', hd', _, rfl⟩ := hfrom hb' hms'
    exact .ambiguous (hup hb hd) (hup hb' hd') (fun e => hne (by rw [e])) .refl hb hb' hms hms' hne
  | failed hmem hnot =>
    obtain ⟨b, hb, hlook⟩ := List.mem_map.mp hmem
    have hout := hbases b hb
    rw [hlook] at hout
    cases hout with
    | missing _ => exact absurd ⟨_, _, rfl⟩ hnot
    | ambiguous hd hd' hne hk hbk hbk' hms hms' hne' =>
      exact .ambiguous (hup hb hd) (hup hb hd') hne (.head ⟨hc, hb⟩ hk) hbk hbk' hms hms' hne'

/-- **What a look-up gives is decided by the visible classes.** -/
theorem lookupMember_outcome (hw : table.WellFormed) (c : ClassId) (name : String) :
    Outcome table name c (table.lookupMember c name) := by
  induction c using hw.bases_induction with
  | step c hbases =>
    rw [lookupMember_eq hw]
    unfold lookupBelow
    split
    · rename_i hown
      exact .of_bases hw (ownMembers_eq_nil_iff.mp hown) hbases (merged_mergeBases _ _ _ _)
    · rename_i hown
      have hc : table.Declares name c := Classical.byContradiction fun h =>
        hown (ownMembers_eq_nil_iff.mpr h)
      exact .single ((visible_iff_of_declares hc).mpr rfl)
        fun d' hd' => (visible_iff_of_declares hc).mp hd'

/-- **A member that is found has the name, and its class is the one looked in or a base of that.** -/
theorem of_mem_lookupMember (hw : table.WellFormed) {c : ClassId} {ms : List MemberId} {m : MemberId}
    (hms : table.lookupMember c name = .ok ms) (hm : m ∈ ms) :
    ∃ info, table.members[m]? = some info ∧ info.name = name ∧
      table.derivesFrom c info.owner = true := by
  obtain ⟨d, ⟨hway, _⟩, _, rfl⟩ := (hms ▸ lookupMember_outcome hw c name).of_ok
  obtain ⟨hlisted, hname⟩ := List.mem_filter.mp hm
  obtain ⟨info, hinfo, rfl⟩ := hw.owner_of_mem hlisted
  have hreach : Reaches table.bases c info.owner := hway.lift id fun _ _ h => h.2
  refine ⟨info, hinfo, ?_, derivesFrom_iff.mpr hreach⟩
  simpa [memberName, hinfo] using hname

theorem Outcome.eq_ok_iff {c : ClassId} {r : Found} (h : Outcome table name c r)
    (ms : List MemberId) : r = .ok ms ↔
      ∃ d, (∀ d', table.Visible name c d' ↔ d' = d) ∧ ms = table.ownMembers d name := by
  constructor
  · rintro rfl
    obtain ⟨d, hd, hone, hms⟩ := h.of_ok
    exact ⟨d, fun d' => ⟨hone d', fun e => e ▸ hd⟩, hms⟩
  · rintro ⟨d, hiff, rfl⟩
    cases h with
    | single hd _ => rw [(hiff _).mp hd]
    | missing hnone => exact absurd ((hiff d).mpr rfl) (hnone d)
    | ambiguous hd hd' hne => exact absurd (((hiff _).mp hd).trans ((hiff _).mp hd').symm) hne

theorem Outcome.eq_missing_iff {c : ClassId} {r : Found} (h : Outcome table name c r)
    (owner n : String) : r = .error (.noSuchMember owner n) ↔
      owner = table.className c ∧ n = name ∧ ∀ d, ¬ table.Visible name c d := by
  constructor
  · rintro rfl
    cases h with
    | missing hnone => exact ⟨rfl, rfl, hnone⟩
  · rintro ⟨rfl, rfl, hnone⟩
    cases h with
    | single hd _ => exact absurd hd (hnone _)
    | missing _ => rfl
    | ambiguous hd => exact absurd hd (hnone _)

theorem Outcome.eq_ambiguous_iff {c : ClassId} {r : Found} (h : Outcome table name c r) :
    (∃ owner n, r = .error (.ambiguousBase owner n)) ↔
      ∃ d d', table.Visible name c d ∧ table.Visible name c d' ∧ d ≠ d' := by
  constructor
  · rintro ⟨owner, n, rfl⟩
    cases h with
    | ambiguous hd hd' hne => exact ⟨_, _, hd, hd', hne⟩
  · rintro ⟨d, d', hd, hd', hne⟩
    cases h with
    | single _ hone => exact absurd ((hone d hd).trans (hone d' hd').symm) hne
    | missing hnone => exact absurd hd (hnone d)
    | ambiguous => exact ⟨_, _, rfl⟩

/-- An ambiguity is named after a class with bases that give different members. -/
theorem Outcome.of_ambiguous {c : ClassId} {owner n : String}
    (h : Outcome table name c (.error (.ambiguousBase owner n))) :
    n = name ∧ ∃ k, owner = table.className k ∧ table.Uncovered name c k ∧
      ∃ b ∈ table.bases k, ∃ b' ∈ table.bases k, ∃ ms ms',
        table.lookupMember b name = .ok ms ∧ table.lookupMember b' name = .ok ms' ∧ ms ≠ ms' := by
  cases h with
  | ambiguous hd hd' hne hk hb hb' hms hms' hne' =>
    exact ⟨rfl, _, rfl, hk, _, hb, _, hb', _, _, hms, hms', hne'⟩

/-- **A look-up gives members exactly when one class is visible, misses the member exactly when none is,
    and is ambiguous exactly when several are.** The members are the own ones of the visible class, and
    an ambiguity is that of the class itself or of one it reaches through classes without the name,
    between bases that give different members. -/
theorem lookupMember_iff_visible {unit : SourceUnit} {options : Options}
    (h : build unit options = .ok table) (c : ClassId) (name : String) :
    (∀ ms, table.lookupMember c name = .ok ms ↔
      ∃ d, (∀ d', table.Visible name c d' ↔ d' = d) ∧ ms = table.ownMembers d name) ∧
    (∀ owner n, table.lookupMember c name = .error (.noSuchMember owner n) ↔
      owner = table.className c ∧ n = name ∧ ∀ d, ¬ table.Visible name c d) ∧
    ((∃ owner n, table.lookupMember c name = .error (.ambiguousBase owner n)) ↔
      ∃ d d', table.Visible name c d ∧ table.Visible name c d' ∧ d ≠ d') ∧
    (∀ owner n, table.lookupMember c name = .error (.ambiguousBase owner n) →
      n = name ∧ ∃ k, owner = table.className k ∧ table.Uncovered name c k ∧
        ∃ b ∈ table.bases k, ∃ b' ∈ table.bases k, ∃ ms ms',
          table.lookupMember b name = .ok ms ∧ table.lookupMember b' name = .ok ms' ∧ ms ≠ ms') := by
  have hout := lookupMember_outcome (wellFormed_of_build h) c name
  exact ⟨hout.eq_ok_iff, hout.eq_missing_iff, hout.eq_ambiguous_iff,
    fun owner n he => (he ▸ hout).of_ambiguous⟩

/-- Two classes with a field `id`, one of them behind a base, below a class that joins them and a class
    that derives from that one. -/
def joinedUnit : SourceUnit :=
  bareUnit [.ofClass (bareClass "Root" [] ["id"]), .ofClass (bareClass "Left" ["Root"] []),
    .ofClass (bareClass "Right" [] ["id"]), .ofClass (bareClass "Bottom" ["Left", "Right"] []),
    .ofClass (bareClass "Below" ["Bottom"] [])]

/-- Below the class that joins them two classes are visible, and the ambiguity is named after it. -/
theorem lookupMember_joinedUnit : ∃ table, build joinedUnit {} = .ok table ∧
    table.lookupMember 4 "id" = .error (.ambiguousBase "Bottom" "id") ∧
    (∃ d d', table.Visible "id" 4 d ∧ table.Visible "id" 4 d' ∧ d ≠ d') ∧
    ∃ k, "Bottom" = table.className k ∧ table.Uncovered "id" 4 k := by
  refine ⟨_, rfl, rfl, ?_, ?_⟩
  · exact (@lookupMember_iff_visible _ joinedUnit {} rfl 4 "id").2.2.1.mp ⟨_, _, rfl⟩
  · obtain ⟨_, k, hname, hk, _⟩ :=
      (@lookupMember_iff_visible _ joinedUnit {} rfl 4 "id").2.2.2 "Bottom" "id" rfl
    exact ⟨k, hname, hk⟩

end SymbolTable

end MemberRefs
