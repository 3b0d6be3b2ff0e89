import Mathlib.Data.Finset.Max
import Mathlib.Data.Prod.Lex
import MemberRefs.Proofs.Table.Built
import MemberRefs.Proofs.Table.Overload

/-!
# The best rank wins

Among several candidates a call means the one that fits best. What fits how well is said here without the
selection (`Fits`): a method that can be called is ranked by the number of positions at which a known
argument type decays to the type of the parameter, and between equals by whether its constness is that of
the object. The order of the candidates does not matter.

* `Rank.key_lt_iff`: one rank beats another when it is higher in the lexicographic order.
* `mem_winners_iff`: the candidates that are left are those that nothing outranks.
* `selectOverload_eq_ok_iff`, `selectOverload_eq_noViable_iff`, `selectOverload_eq_ambiguous_iff`: when each
  answer is given.
* `selectOverload_lone`: when the types of the arguments do not matter.
* `selectOverload_best`: the rule as a whole.
-/

namespace MemberRefs

/-! ## 1. Ranks -/

/-- Whether a known argument type at a position decays to the type of the parameter there. -/
def matchesAt (params : List Param) (args : List (Option Ty)) (i : Nat) : Bool :=
  match args[i]?, params[i]? with
  | some (some type), some param => type.decay == param.type.decay
  | _, _ => false

/-- The rank of a method for a call on an object, higher ranks being better: first the number of positions
    that match exactly, then whether the constness of the method is that of the object. -/
def FuncDecl.fit (f : FuncDecl) (args : List (Option Ty)) (objectConst : Bool) : ℕ ×ₗ Bool :=
  toLex ((List.range args.length).countP (matchesAt f.params args), f.isConst == objectConst)

/-- A rank in the lexicographic order. -/
def Rank.key (r : Rank) : ℕ ×ₗ Bool := toLex (r.exact, r.sameConst)

theorem Rank.key_lt_iff {a b : Rank} : b.key < a.key ↔ a.beats b = true := by
  simp only [key, beats, Prod.Lex.toLex_lt_toLex, Bool.or_eq_true, decide_eq_true_eq,
    Bool.and_eq_true, beq_iff_eq, Bool.not_eq_true', Bool.lt_iff, and_assoc]
  constructor
  · rintro (h | ⟨h, hb, ha⟩)
    · exact .inl h
    · exact .inr ⟨h.symm, ha, hb⟩
  · rintro (h | ⟨h, ha, hb⟩)
    · exact .inl h
    · exact .inr ⟨h.symm, hb, ha⟩

/-- The positions that match are those of the pairs that match. -/
theorem countP_matchesAt : ∀ (params : List Param) (args : List (Option Ty)),
    (List.range args.length).countP (matchesAt params args) =
      ((args.zip params).filter fun (arg, param) => matchesParam arg param).length
  | [], args => by
      have hnone : ∀ i ∈ List.range args.length, ¬ matchesAt [] args i = true := by
        intro i _
        unfold matchesAt
        cases args[i]? with
        | none => exact Bool.false_ne_true
        | some arg => cases arg <;> exact Bool.false_ne_true
      rw [List.countP_eq_zero.mpr hnone, List.zip_nil_right]
      rfl
  | _ :: _, [] => rfl
  | param :: params, arg :: args => by
      have ih := countP_matchesAt params args
      have hfirst : matchesAt (param :: params) (arg :: args) 0 = matchesParam arg param := by
        cases arg <;> rfl
      have hrest : matchesAt (param :: params) (arg :: args) ∘ Nat.succ = matchesAt params args := rfl
      rw [List.length_cons, List.range_succ_eq_map, List.countP_cons, List.countP_map, hrest, ih,
        hfirst, List.zip_cons_cons, List.filter_cons]
      cases h : matchesParam arg param <;> simp [h]

theorem FuncDecl.key_rank (f : FuncDecl) (args : List (Option Ty)) (objectConst : Bool) :
    (f.rank args objectConst).key = f.fit args objectConst := by
  rw [fit, countP_matchesAt]
  rfl

namespace SymbolTable

variable {table : SymbolTable} {name : String} {candidates : List MemberId}
  {args : List (Option Ty)} {objectConst : Bool} {m : MemberId}

/-- **A member that can be called, with its rank**: a method that accepts the number of arguments and, on
    a `const` object, is `const` or static. -/
inductive Fits (table : SymbolTable) (args : List (Option Ty)) (objectConst : Bool) :
    MemberId → ℕ ×ₗ Bool → Prop
  | intro {m : MemberId} {f : FuncDecl} (method : table.method? m = some f)
      (arity : f.acceptsArity args.length = true)
      (constness : objectConst = true → f.isConst = true ∨ f.isStatic = true) :
      Fits table args objectConst m (f.fit args objectConst)

theorem isViable_iff {f : FuncDecl} {n : Nat} : f.isViable n objectConst = true ↔
    f.acceptsArity n = true ∧ (objectConst = true → f.isConst = true ∨ f.isStatic = true) := by
  unfold FuncDecl.isViable
  cases objectConst <;> simp

/-- What is ranked is what fits. -/
theorem fits_iff {key : ℕ ×ₗ Bool} : table.Fits args objectConst m key ↔
    ∃ rank, table.rank? args objectConst m = some rank ∧ rank.key = key := by
  constructor
  · rintro ⟨hmethod, harity, hconst⟩
    refine ⟨_, ?_, FuncDecl.key_rank _ args objectConst⟩
    rw [rank?, hmethod, Option.bind_some, if_pos (isViable_iff.mpr ⟨harity, hconst⟩)]
  · rintro ⟨rank, hrank, rfl⟩
    obtain ⟨f, hmethod, hrank⟩ := Option.bind_eq_some_iff.mp hrank
    split at hrank
    · rename_i hviable
      cases hrank
      obtain ⟨harity, hconst⟩ := isViable_iff.mp hviable
      rw [FuncDecl.key_rank]
      exact .intro hmethod harity hconst
    · cases hrank

theorem mem_viable_iff {rank : Rank} : (m, rank) ∈ table.viable candidates args objectConst ↔
    m ∈ candidates ∧ table.rank? args objectConst m = some rank := by
  constructor
  · intro h
    obtain ⟨c, hc, hrank⟩ := List.mem_filterMap.mp h
    obtain ⟨_, hr, heq⟩ := Option.map_eq_some_iff.mp hrank
    cases heq
    exact ⟨hc, hr⟩
  · rintro ⟨hm, hrank⟩
    refine List.mem_filterMap.mpr ⟨m, hm, ?_⟩
    rw [hrank]
    rfl

/-! ## 2. Winners -/

/-- A candidate of the highest rank. -/
def IsBest (table : SymbolTable) (candidates : List MemberId) (args : List (Option Ty))
    (objectConst : Bool) (m : MemberId) (key : ℕ ×ₗ Bool) : Prop :=
  m ∈ candidates ∧ table.Fits args objectConst m key ∧
    ∀ n ∈ candidates, ∀ other, table.Fits args objectConst n other → other ≤ key

/-- The candidates that nothing outranks. -/
def winners (table : SymbolTable) (candidates : List MemberId) (args : List (Option Ty))
    (objectConst : Bool) : List MemberId :=
  (unbeaten (table.viable candidates args objectConst)).map Prod.fst

theorem mem_unbeaten_iff {ranked : List (MemberId × Rank)} {a : MemberId × Rank} :
    a ∈ unbeaten ranked ↔ a ∈ ranked ∧ ∀ b ∈ ranked, b.2.key ≤ a.2.key := by
  simp only [unbeaten, List.mem_filter, List.all_eq_true, Bool.not_eq_true', ← Bool.not_eq_true,
    ← Rank.key_lt_iff, not_lt]

/-- **The candidates that are left are those of the highest rank.** -/
theorem mem_winners_iff : m ∈ table.winners candidates args objectConst ↔
    ∃ key, table.IsBest candidates args objectConst m key := by
  constructor
  · intro h
    obtain ⟨⟨_, rank⟩, hmem, rfl⟩ := List.mem_map.mp h
    obtain ⟨hviable, hbest⟩ := mem_unbeaten_iff.mp hmem
    obtain ⟨hm, hrank⟩ := mem_viable_iff.mp hviable
    refine ⟨rank.key, hm, fits_iff.mpr ⟨rank, hrank, rfl⟩, fun n hn other hother => ?_⟩
    obtain ⟨r, hr, rfl⟩ := fits_iff.mp hother
    exact hbest (n, r) (mem_viable_iff.mpr ⟨hn, hr⟩)
  · rintro ⟨_, hm, hfits, hbest⟩
    obtain ⟨rank, hrank, rfl⟩ := fits_iff.mp hfits
    refine List.mem_map.mpr ⟨(m, rank), mem_unbeaten_iff.mpr ⟨mem_viable_iff.mpr ⟨hm, hrank⟩, ?_⟩, rfl⟩
    rintro ⟨n, r⟩ hn
    obtain ⟨hn, hr⟩ := mem_viable_iff.mp hn
    exact hbest n hn _ (fits_iff.mpr ⟨r, hr, rfl⟩)

/-- Something wins where something fits. -/
theorem exists_best {key : ℕ ×ₗ Bool} (hm : m ∈ candidates)
    (hfits : table.Fits args objectConst m key) :
    ∃ n best, table.IsBest candidates args objectConst n best := by
  obtain ⟨rank, hrank, _⟩ := fits_iff.mp hfits
  have hmem : (m, rank) ∈ table.viable candidates args objectConst := mem_viable_iff.mpr ⟨hm, hrank⟩
  obtain ⟨⟨n, best⟩, hn, hbest⟩ := Finset.exists_max_image
    (table.viable candidates args objectConst).toFinset (fun a => a.2.key)
    ⟨_, List.mem_toFinset.mpr hmem⟩
  have hwins : n ∈ table.winners candidates args objectConst :=
    List.mem_map.mpr ⟨(n, best), mem_unbeaten_iff.mpr
      ⟨List.mem_toFinset.mp hn, fun b hb => hbest b (List.mem_toFinset.mpr hb)⟩, rfl⟩
  obtain ⟨key, hkey⟩ := mem_winners_iff.mp hwins
  exact ⟨n, key, hkey⟩

theorem isSome_rank? : (table.rank? args objectConst m).isSome =
    (table.method? m).any fun f => f.isViable args.length objectConst := by
  unfold rank?
  cases table.method? m with
  | none => rfl
  | some f =>
    dsimp only [Option.bind_some, Option.any_some]
    cases f.isViable args.length objectConst <;> rfl

/-- The candidates that can be called, without their ranks. -/
theorem map_fst_viable (ms : List MemberId) : (table.viable ms args objectConst).map Prod.fst =
    ms.filter fun m => (table.method? m).any fun f => f.isViable args.length objectConst := by
  simp only [← isSome_rank?]
  induction ms with
  | nil => rfl
  | cons n ms ih =>
    unfold viable at ih ⊢
    rw [List.filterMap_cons, List.filter_cons]
    cases table.rank? args objectConst n with
    | none => simpa using ih
    | some rank => simpa using ih

/-- Each candidate that is left is left once. -/
theorem nodup_winners (h : candidates.Nodup) : (table.winners candidates args objectConst).Nodup := by
  have hsub : (table.winners candidates args objectConst).Sublist candidates := by
    refine (List.filter_sublist.map Prod.fst).trans ?_
    rw [map_fst_viable]
    exact List.filter_sublist
  exact h.sublist hsub

/-! ## 3. Answers -/

/-- Among several candidates the answer depends on how many are left. -/
theorem selectOverload_eq (hlen : 2 ≤ candidates.length) :
    table.selectOverload name candidates (some args) objectConst =
      match table.winners candidates args objectConst with
      | [] => .error (.noViableOverload name)
      | [m] => .ok m
      | _ => .error (.ambiguousOverload name) := by
  match candidates, hlen with
  | c :: d :: cs, _ =>
    unfold selectOverload winners
    dsimp only
    match unbeaten (table.viable (c :: d :: cs) args objectConst) with
    | [] | [_] | _ :: _ :: _ => rfl

/-- A member has one rank. -/
theorem Fits.unique {key key' : ℕ ×ₗ Bool} (h : table.Fits args objectConst m key)
    (h' : table.Fits args objectConst m key') : key = key' := by
  obtain ⟨rank, hrank, rfl⟩ := fits_iff.mp h
  obtain ⟨rank', hrank', rfl⟩ := fits_iff.mp h'
  cases hrank.symm.trans hrank'
  rfl

theorem IsBest.key_unique {n : MemberId} {key key' : ℕ ×ₗ Bool}
    (h : table.IsBest candidates args objectConst m key)
    (h' : table.IsBest candidates args objectConst n key') : key = key' :=
  le_antisymm (h'.2.2 m h.1 key h.2.1) (h.2.2 n h'.1 key' h'.2.1)

theorem unbeaten_singleton (a : MemberId × Rank) : unbeaten [a] = [a] := by
  simp [unbeaten, Rank.beats]

/-- **Where at most one candidate can be called, the types of the arguments do not matter.** -/
theorem selectOverload_lone {args' : List (Option Ty)} (hcount : args'.length = args.length)
    (hlone : (table.viable candidates args objectConst).length ≤ 1) :
    table.selectOverload name candidates (some args') objectConst =
      table.selectOverload name candidates (some args) objectConst := by
  have hsame : (table.viable candidates args' objectConst).map Prod.fst =
      (table.viable candidates args objectConst).map Prod.fst := by
    rw [map_fst_viable, map_fst_viable, hcount]
  unfold selectOverload
  match candidates with
  | [_] => rfl
  | [] => rfl
  | c :: d :: cs =>
    dsimp only
    generalize table.viable (c :: d :: cs) args' objectConst = ranked' at hsame
    generalize table.viable (c :: d :: cs) args objectConst = ranked at hsame hlone
    cases ranked with
    | nil => rw [List.map_eq_nil_iff.mp hsame]
    | cons a ranked =>
      obtain rfl : ranked = [] := List.eq_nil_of_length_eq_zero (Nat.le_zero.mp (Nat.succ_le_succ_iff.mp hlone))
      obtain ⟨b, rfl, hm⟩ := List.map_eq_singleton_iff.mp hsame
      rw [unbeaten_singleton, unbeaten_singleton]
      exact congrArg Except.ok hm

section Several

variable (hlen : 2 ≤ candidates.length)

include hlen

/-- **A member is selected when every other one that fits ranks lower.** -/
theorem selectOverload_eq_ok_iff (hnodup : candidates.Nodup) :
    table.selectOverload name candidates (some args) objectConst = .ok m ↔
      ∃ key, m ∈ candidates ∧ table.Fits args objectConst m key ∧
        ∀ n ∈ candidates, n ≠ m → ∀ other, table.Fits args objectConst n other → other < key := by
  have hwinners := @nodup_winners table candidates args objectConst hnodup
  rw [selectOverload_eq hlen]
  constructor
  · intro h
    split at h
    · cases h
    · rename_i hone
      cases h
      have hm : m ∈ table.winners candidates args objectConst := hone ▸ List.mem_cons_self
      obtain ⟨key, hbest⟩ := mem_winners_iff.mp hm
      refine ⟨key, hbest.1, hbest.2.1, fun n hn hne other hother => ?_⟩
      refine lt_of_le_of_ne (hbest.2.2 n hn other hother) fun heq => hne ?_
      -- a rival of the same rank would be left as well
      have hrival : n ∈ table.winners candidates args objectConst :=
        mem_winners_iff.mpr ⟨other, hn, hother, heq ▸ hbest.2.2⟩
      rw [hone] at hrival
      exact List.mem_singleton.mp hrival
    · cases h
  · rintro ⟨key, hm, hfits, hbest⟩
    have hwins : table.IsBest candidates args objectConst m key := by
      refine ⟨hm, hfits, fun n hn other hother => ?_⟩
      by_cases hne : n = m
      · subst hne
        exact (hother.unique hfits).le
      · exact (hbest n hn hne other hother).le
    have honly : ∀ n ∈ table.winners candidates args objectConst, n = m := by
      intro n hn
      obtain ⟨key', hn⟩ := mem_winners_iff.mp hn
      by_contra hne
      exact absurd (hbest n hn.1 hne key' hn.2.1) (hwins.key_unique hn).not_gt
    have hmem := mem_winners_iff.mpr ⟨key, hwins⟩
    match hw : table.winners candidates args objectConst with
    | [] =>
      rw [hw] at hmem
      exact absurd hmem List.not_mem_nil
    | [n] =>
      rw [honly n (hw ▸ List.mem_cons_self)]
    | n :: n' :: rest =>
      rw [hw] at hwinners honly
      have heq : n = n' := (honly n (by simp)).trans (honly n' (by simp)).symm
      exact absurd hwinners (by simp [heq])

/-- **None can be called when nothing fits.** -/
theorem selectOverload_eq_noViable_iff :
    table.selectOverload name candidates (some args) objectConst = .error (.noViableOverload name) ↔
      ∀ n ∈ candidates, ∀ key, ¬ table.Fits args objectConst n key := by
  rw [selectOverload_eq hlen]
  constructor
  · intro h n hn key hfits
    obtain ⟨best, key', hbest⟩ := exists_best hn hfits
    have hmem := mem_winners_iff.mpr ⟨key', hbest⟩
    split at h
    · rename_i hnone
      rw [hnone] at hmem
      exact absurd hmem List.not_mem_nil
    · cases h
    · cases h
  · intro h
    have hnone : table.winners candidates args objectConst = [] := by
      refine List.eq_nil_iff_forall_not_mem.mpr fun n hn => ?_
      obtain ⟨key, hn, hfits, _⟩ := mem_winners_iff.mp hn
      exact h n hn key hfits
    rw [hnone]

/-- **The choice is ambiguous when two candidates share the highest rank.** -/
theorem selectOverload_eq_ambiguous_iff (hnodup : candidates.Nodup) :
    table.selectOverload name candidates (some args) objectConst = .error (.ambiguousOverload name) ↔
      ∃ m n key, m ≠ n ∧ table.IsBest candidates args objectConst m key ∧
        table.IsBest candidates args objectConst n key := by
  have hwinners := @nodup_winners table candidates args objectConst hnodup
  rw [selectOverload_eq hlen]
  constructor
  · intro h
    match hw : table.winners candidates args objectConst with
    | [] =>
      rw [hw] at h
      cases h
    | [n] =>
      rw [hw] at h
      cases h
    | m :: n :: rest =>
      rw [hw] at hwinners
      have hne : m ≠ n := fun heq => by simp [heq] at hwinners
      obtain ⟨key, hm⟩ := mem_winners_iff.mp (hw ▸ List.mem_cons_self)
      obtain ⟨key', hn⟩ := mem_winners_iff.mp (hw ▸ List.mem_cons_of_mem _ List.mem_cons_self)
      exact ⟨m, n, key, hne, hm, hm.key_unique hn ▸ hn⟩
  · rintro ⟨m, n, key, hne, hm, hn⟩
    have hm := mem_winners_iff.mpr ⟨key, hm⟩
    have hn := mem_winners_iff.mpr ⟨key, hn⟩
    match hw : table.winners candidates args objectConst with
    | [] =>
      rw [hw] at hm
      exact absurd hm List.not_mem_nil
    | [k] =>
      rw [hw] at hm hn
      exact absurd ((List.mem_singleton.mp hm).trans (List.mem_singleton.mp hn).symm) hne
    | _ :: _ :: _ => rfl

end Several

/-- **The order of the candidates does not matter.** -/
theorem selectOverload_perm (hlen : 2 ≤ candidates.length) (hnodup : candidates.Nodup)
    {others : List MemberId} (hperm : others.Perm candidates) :
    table.selectOverload name others (some args) objectConst =
      table.selectOverload name candidates (some args) objectConst := by
  have hnodup' : others.Nodup := hperm.nodup_iff.mpr hnodup
  have hlen' : 2 ≤ others.length := hperm.length_eq ▸ hlen
  cases hsel : table.selectOverload name candidates (some args) objectConst with
  | ok m =>
    rw [selectOverload_eq_ok_iff hlen hnodup] at hsel
    simpa only [selectOverload_eq_ok_iff hlen' hnodup', hperm.mem_iff] using hsel
  | error reason =>
    rcases selectOverload_error hsel with rfl | rfl
    · rw [selectOverload_eq_noViable_iff hlen] at hsel
      simpa only [selectOverload_eq_noViable_iff hlen', hperm.mem_iff] using hsel
    · rw [selectOverload_eq_ambiguous_iff hlen hnodup] at hsel
      simpa only [selectOverload_eq_ambiguous_iff hlen' hnodup', IsBest, hperm.mem_iff] using hsel

/-- **The best rank wins.** Among two or more different candidates the one is selected that fits and that
    every other fitting one ranks below; none can be called when nothing fits, and the choice is ambiguous
    when two share the highest rank. So the order of the candidates does not matter, and what is selected
    for a `const` object is `const` or static. -/
theorem selectOverload_best (hlen : 2 ≤ candidates.length) (hnodup : candidates.Nodup) :
    (∀ m, table.selectOverload name candidates (some args) objectConst = .ok m ↔
      ∃ key, m ∈ candidates ∧ table.Fits args objectConst m key ∧
        ∀ n ∈ candidates, n ≠ m → ∀ other, table.Fits args objectConst n other → other < key) ∧
    (table.selectOverload name candidates (some args) objectConst =
        .error (.noViableOverload name) ↔
      ∀ n ∈ candidates, ∀ key, ¬ table.Fits args objectConst n key) ∧
    (table.selectOverload name candidates (some args) objectConst =
        .error (.ambiguousOverload name) ↔
      ∃ m n key, m ≠ n ∧ table.IsBest candidates args objectConst m key ∧
        table.IsBest candidates args objectConst n key) ∧
    (∀ others, others.Perm candidates →
      table.selectOverload name others (some args) objectConst =
        table.selectOverload name candidates (some args) objectConst) ∧
    ∀ m, table.selectOverload name candidates (some args) objectConst = .ok m →
      objectConst = true →
        ∃ f, table.method? m = some f ∧ (f.isConst = true ∨ f.isStatic = true) := by
  refine ⟨fun m => selectOverload_eq_ok_iff hlen hnodup, selectOverload_eq_noViable_iff hlen,
    selectOverload_eq_ambiguous_iff hlen hnodup, fun others => selectOverload_perm hlen hnodup,
    fun m hm hobject => ?_⟩
  obtain ⟨_, _, ⟨hmethod, _, hconst⟩, _⟩ := (selectOverload_eq_ok_iff hlen hnodup).mp hm
  exact ⟨_, hmethod, hconst hobject⟩

/-- A class with the methods `put(int, int) const`, `put(char, int)` and `put(int)`. -/
def threeWaysUnit : SourceUnit :=
  let int : Ty := .named "int"
  let readOnly : FuncDecl := { bareFunc "put" [int, int] none with isConst := true }
  bareUnit [.ofClass { bareClass "Log" [] [] with
    members := [.method readOnly, .method (bareFunc "put" [.named "char", int] none),
      .method (bareFunc "put" [int] none)] }]

/-- With two `int` arguments on an object that is not `const`, the `const` method wins by its matches, in
    whichever order the candidates come. -/
theorem selectOverload_threeWaysUnit : ∃ table, build threeWaysUnit {} = .ok table ∧
    2 ≤ [1, 2, 0].length ∧ [1, 2, 0].Nodup ∧
    table.selectOverload "put" [1, 2, 0] (some [some (.named "int"), some (.named "int")]) false =
      .ok 0 := by
  have hselected : ∃ table, build threeWaysUnit {} = .ok table ∧
      table.selectOverload "put" [0, 1, 2] (some [some (.named "int"), some (.named "int")]) false =
        .ok 0 := ⟨_, rfl, rfl⟩
  obtain ⟨table, h, hselected⟩ := hselected
  refine ⟨table, h, by decide, by decide, ?_⟩
  rw [← hselected]
  exact ((selectOverload_best (by decide) (by decide)).2.2.2.1 [0, 1, 2] (by decide)).symm

end SymbolTable

end MemberRefs
