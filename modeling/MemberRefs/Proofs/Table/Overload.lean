import MemberRefs.Table.Overload

/-!
# Overload selection chooses among candidates

Selecting an overload never leaves the candidates it is given, and where it chooses none the reason is
that nothing or too much can be called.

* `mem_of_selectOverload`: the member selected is a candidate.
* `selectOverload_error`: the two reasons why none is selected.
* `selectOverload_of_decay_eq`: of the arguments only the decayed types count.
-/

namespace MemberRefs

/-- The arguments that match are counted by what their types decay to. -/
theorem length_filter_matchesParam (args : List (Option Ty)) (params : List Param) :
    ((args.zip params).filter fun (arg, param) => matchesParam arg param).length =
      ((args.map (Option.map Ty.decay)).zip params).countP
        fun (type, param) => type.any (· == param.type.decay) := by
  have hmatches : (fun (arg, param) => matchesParam arg param) =
      (fun (type, param) => type.any (· == param.type.decay)) ∘
        Prod.map (Option.map Ty.decay) (id : Param → Param) := by
    funext ⟨arg, param⟩
    cases arg <;> rfl
  rw [List.zip_map_left, List.countP_map, List.countP_eq_length_filter, hmatches]

namespace SymbolTable

variable {table : SymbolTable} {name : String} {candidates : List MemberId}
  {args : Option (List (Option Ty))} {objectConst : Bool}

/-- What is ranked is a candidate. -/
theorem mem_of_mem_viable {types : List (Option Ty)} {m : MemberId} {rank : Rank}
    (h : (m, rank) ∈ table.viable candidates types objectConst) : m ∈ candidates := by
  obtain ⟨c, hc, hrank⟩ := List.mem_filterMap.mp h
  obtain ⟨_, _, heq⟩ := Option.map_eq_some_iff.mp hrank
  cases heq
  exact hc

/-- **The member selected is a candidate.** -/
theorem mem_of_selectOverload {m : MemberId}
    (h : table.selectOverload name candidates args objectConst = .ok m) : m ∈ candidates := by
  unfold selectOverload at h
  split at h
  · cases h
    exact List.mem_cons_self
  · cases h
  · split at h
    · cases h
    · rename_i rank hunbeaten
      cases h
      have hmem : (m, rank) ∈ unbeaten (table.viable candidates _ objectConst) :=
        hunbeaten ▸ List.mem_cons_self
      exact mem_of_mem_viable (List.mem_filter.mp hmem).1
    · cases h

/-- **Where no member is selected, none can be called or several fit equally well.** -/
theorem selectOverload_error {reason : Unresolved}
    (h : table.selectOverload name candidates args objectConst = .error reason) :
    reason = .noViableOverload name ∨ reason = .ambiguousOverload name := by
  unfold selectOverload at h
  split at h
  · cases h
  · cases h
    exact Or.inr rfl
  · split at h
    · cases h
      exact Or.inl rfl
    · cases h
    · cases h
      exact Or.inr rfl

/-- **Overloads are chosen by the decayed types of the arguments.** -/
theorem selectOverload_of_decay_eq {types types' : List (Option Ty)}
    (h : types'.map (Option.map Ty.decay) = types.map (Option.map Ty.decay)) :
    table.selectOverload name candidates (some types') objectConst =
      table.selectOverload name candidates (some types) objectConst := by
  have hlength : types'.length = types.length := by simpa using congrArg List.length h
  have hrank : table.rank? types' objectConst = table.rank? types objectConst := by
    funext m
    refine Option.bind_congr fun f _ => ?_
    rw [hlength, FuncDecl.rank, FuncDecl.rank, length_filter_matchesParam, h,
      ← length_filter_matchesParam]
  have hviable : table.viable candidates types' objectConst = table.viable candidates types objectConst := by
    rw [viable, viable, hrank]
  unfold selectOverload
  match candidates with
  | [] | [_] => rfl
  | _ :: _ :: _ =>
    dsimp only
    rw [hviable]

end SymbolTable

end MemberRefs
