import BkLite.Alerts.MatchMemory

/-!
# In memory and in the database

`InstantMatcher` is to match what `StrategyMatcher` matches. A group of the rules may be *kept*,
*lost* or *gained* by the conditions that are turned on an event, and the evaluation in memory may
stop before it comes to a group (`Reached`). `parity_iff` says from these when the two agree on the
event.
-/

namespace Alerts
namespace MatchRules

open Py Scan

variable {N : Type} (env : Env N) (e : Event)

/-! ### Groups -/

def InMemory (c : Condition) : Prop := ¬(Holds env e c ↔ Turns env e c)

def StopsIn (group : List Condition) : Prop := Reaches (InMemory env e) (Stops env e) group

def Reached (rules : List (List Condition)) (group : List Condition) : Prop :=
  Reaches (fun group' => ¬StopsIn env e group') (· = group) rules

def Kept (group : List Condition) : Prop :=
  group ≠ [] ∧ ∀ c ∈ group, Holds env e c ∧ ¬Turns env e c

def Gained (group : List Condition) : Prop :=
  (∀ c ∈ group, InMemory env e c) ∧ ∃ c ∈ group, Turns env e c

def Lost (rules : List (List Condition)) (group : List Condition) : Prop :=
  group ≠ [] ∧ (∀ c ∈ group, Holds env e c) ∧
    ((∃ c ∈ group, Turns env e c) ∨ ¬Reached env e rules group)

/-- A query that fails finds nothing. Otherwise the rules gain a group if they lose one and only
then. -/
def Agree (rules : List (List Condition)) : Prop :=
  (QueryFails env e rules →
    ∀ group, Reached env e rules group → ¬Kept env e group ∧ ¬Gained env e group) ∧
  (¬QueryFails env e rules →
    (∃ group, Reached env e rules group ∧ Kept env e group) ∨
      ((∃ group ∈ rules, Lost env e rules group) ↔
        ∃ group, Reached env e rules group ∧ Gained env e group))

section Groups

variable {env e} {group : List Condition} {rules : List (List Condition)}

theorem evalAll_eq_true : evalAll env e group = .ok true ↔ ∀ c ∈ group, InMemory env e c := by
  induction group with
  | nil => simp [evalAll]
  | cons c group ih =>
    rw [List.forall_mem_cons, ← ih]
    unfold InMemory
    rw [← evalCondition_iff]
    match h_c : evalCondition env e c with
    | .error f => simp [evalAll, h_c]
    | .ok false => simp [evalAll, h_c]
    | .ok true => simp [evalAll, h_c]

theorem evalAll_eq_error : (∃ f, evalAll env e group = .error f) ↔ StopsIn env e group := by
  unfold StopsIn
  induction group with
  | nil => simp [evalAll]
  | cons c group ih =>
    rw [reaches_cons, ← ih, ← evalCondition_eq_error]
    unfold InMemory
    rw [← evalCondition_iff]
    match h_c : evalCondition env e c with
    | .error f => simp [evalAll, h_c]
    | .ok false => simp [evalAll, h_c]
    | .ok true => simp [evalAll, h_c]

theorem matchGroups_eq_true :
    matchGroups env e rules = .ok true ↔
      Reaches (fun group => ¬StopsIn env e group)
        (fun group => group ≠ [] ∧ ∀ c ∈ group, InMemory env e c) rules := by
  induction rules with
  | nil => simp [matchGroups]
  | cons group rules ih =>
    rw [reaches_cons, ← ih, ← evalAll_eq_error, ← evalAll_eq_true]
    cases group with
    | nil => simp [matchGroups, evalAll]
    | cons c group =>
      match h_group : evalAll env e (c :: group) with
      | .error f => simp [matchGroups, h_group]
      | .ok false => simp [matchGroups, h_group]
      | .ok true => simp [matchGroups, h_group]

theorem matchInMemory_iff (h : rules ≠ []) :
    matchInMemory env e rules = true ↔
      ∃ group, Reached env e rules group ∧ (Kept env e group ∨ Gained env e group) := by
  have h_run : matchInMemory env e rules = true ↔ matchGroups env e rules = .ok true := by
    unfold matchInMemory
    rw [if_neg (by simpa using h)]
    cases matchGroups env e rules <;> simp
  rw [h_run, matchGroups_eq_true, reaches_iff_exists]
  refine exists_congr fun group => and_congr_right fun _ => ?_
  constructor
  · rintro ⟨h_ne, h_memory⟩
    by_cases h_turns : ∃ c ∈ group, Turns env e c
    · exact .inr ⟨h_memory, h_turns⟩
    · refine .inl ⟨h_ne, fun c h_c => ?_⟩
      have h_straight : ¬Turns env e c := fun h_c' => h_turns ⟨c, h_c, h_c'⟩
      have h_holds : Holds env e c := by
        by_contra h_not
        exact h_memory c h_c (iff_of_false h_not h_straight)
      exact ⟨h_holds, h_straight⟩
  · rintro (⟨h_ne, h_kept⟩ | ⟨h_memory, c, h_c, -⟩)
    · refine ⟨h_ne, fun c h_c h_iff => ?_⟩
      exact (h_kept c h_c).2 (h_iff.mp (h_kept c h_c).1)
    · exact ⟨List.ne_nil_of_mem h_c, h_memory⟩

theorem exists_holds_iff :
    (∃ group ∈ rules, group ≠ [] ∧ ∀ c ∈ group, Holds env e c) ↔
      (∃ group, Reached env e rules group ∧ Kept env e group) ∨
        ∃ group ∈ rules, Lost env e rules group := by
  constructor
  · rintro ⟨group, h_mem, h_ne, h_holds⟩
    by_cases h_kept : Reached env e rules group ∧ ∀ c ∈ group, ¬Turns env e c
    · refine .inl ⟨group, h_kept.1, h_ne, fun c h_c => ⟨h_holds c h_c, h_kept.2 c h_c⟩⟩
    · refine .inr ⟨group, h_mem, h_ne, h_holds, ?_⟩
      by_contra h_not
      push Not at h_not
      exact h_kept ⟨h_not.2, h_not.1⟩
  · rintro (⟨group, h_reached, h_ne, h_kept⟩ | ⟨group, h_mem, h_ne, h_holds, -⟩)
    · exact ⟨group, mem_of_reaches h_reached, h_ne, fun c h_c => (h_kept c h_c).1⟩
    · exact ⟨group, h_mem, h_ne, h_holds⟩

/-- **One rule, two readings.** They agree exactly if the rules lose no group for good. -/
theorem parity_iff (h : rules ≠ []) :
    (matchInMemory env e rules = true ↔ matchEvents env e rules = true) ↔ Agree env e rules := by
  have h_memory : (∃ group, Reached env e rules group ∧
      (Kept env e group ∨ Gained env e group)) ↔
      (∃ group, Reached env e rules group ∧ Kept env e group) ∨
        ∃ group, Reached env e rules group ∧ Gained env e group := by
    simp only [and_or_left, exists_or]
  rw [matchInMemory_iff h, matchEvents_iff h, exists_holds_iff, h_memory]
  unfold Agree
  by_cases h_fails : QueryFails env e rules
  · -- the query finds nothing
    constructor
    · intro h_agree
      refine ⟨fun _ group h_group => ⟨fun h_kept => ?_, fun h_gained => ?_⟩, fun h_not => ?_⟩
      · exact (h_agree.mp (.inl ⟨group, h_group, h_kept⟩)).1 h_fails
      · exact (h_agree.mp (.inr ⟨group, h_group, h_gained⟩)).1 h_fails
      · exact absurd h_fails h_not
    · rintro ⟨h_none, -⟩
      refine ⟨?_, fun h_found => absurd h_fails h_found.1⟩
      rintro (⟨group, h_group, h_kept⟩ | ⟨group, h_group, h_gained⟩)
      · exact absurd h_kept (h_none h_fails group h_group).1
      · exact absurd h_gained (h_none h_fails group h_group).2
  · simp only [h_fails, not_false_eq_true, true_and, false_imp_iff, true_imp_iff]
    by_cases h_kept : ∃ group, Reached env e rules group ∧ Kept env e group
    · simp [h_kept]
    · simp only [h_kept, false_or]
      exact Iff.comm

end Groups

/-! ### A gateway -/

def gateway (level : String) : Event where
  sourceName := "lite"
  title := "API gateway timeout"
  level := level
  eventId := "EVENT-1"

def gatewayRules : List (List Condition) :=
  [[⟨.str "title", .str "contains", .str "Gateway"⟩,
      ⟨.str "level", .str "in", .list [.str "0", .str "1"]⟩],
    [⟨.str "service", .str "eq", .str "missing"⟩]]

/-- A level of 9 is not above 9 for either. -/
theorem parity_gateway :
    Agree plainEnv (gateway "9") (gatewayRules ++ [[⟨.str "level", .str "gt", .int 9⟩]]) :=
  (parity_iff (by simp)).mp (by decide +kernel)

/-- **Two readings.** A level of 10 is above 9 as a number and below it as a text. -/
theorem parity_level :
    matchInMemory plainEnv (gateway "10") [[⟨.str "level", .str "gt", .int 9⟩]] = true ∧
      matchEvents plainEnv (gateway "10") [[⟨.str "level", .str "gt", .int 9⟩]] = false ∧
      ¬(matchInMemory plainEnv (gateway "10") [[⟨.str "level", .str "gt", .int 9⟩]] = true ↔
        matchEvents plainEnv (gateway "10") [[⟨.str "level", .str "gt", .int 9⟩]] = true) := by
  decide +kernel

end MatchRules
end Alerts
