import BkLite.Alerts.MatchRules
import BkLite.Framework.Scan

/-!
# What the query of the match rules finds

`_build_condition_q` raises for a key or an operator that is no key of a dict and for a pattern that
is no text (`Breaks`); a lookup of a group that is built raises when its path leads nowhere
(`Missing`). Either ends the whole query (`QueryFails`). A query that does not fail finds the event
exactly if all conditions of some group hold of the row (`matchEvents_iff`).
-/

namespace Alerts
namespace MatchRules

open Py Scan

variable {N : Type} (env : Env N) (e : Event)

/-! ### What a condition asks for -/

/-- The condition has a key, an operator, and a value unless it is about `ne`. -/
def Complete (c : Condition) : Prop :=
  c.key.truthy = true ∧ isNone c.operator = false ∧ (isNone c.value = true → isNe c.operator = true)

def Asks (c : Condition) (op : Operator) : Prop :=
  c.key.truthy = true ∧ operatorOf c.operator = .ok (some op) ∧ (isNone c.value = true → op = .ne)

def Unhashable : Value → Prop
  | .list _ | .dict _ => True
  | _ => False

def Valid (c : Condition) : Prop := ∃ q, buildConditionQ env c = .ok (some q)

/-- Building the condition raises: a key or an operator that no dict has, or a pattern that is no
text. -/
def Breaks (c : Condition) : Prop :=
  Complete c ∧ (Unhashable c.key ∨ Unhashable c.operator ∨
    operatorOf c.operator = .ok (some (.lookup .iregex)) ∧ c.value.truthy = true ∧
      ∀ pattern, c.value ≠ .str pattern)

def Missing (c : Condition) : Prop :=
  ∃ q, buildConditionQ env c = .ok (some q) ∧ resolve env e q = none

def Holds (c : Condition) : Prop :=
  ∃ q, buildConditionQ env c = .ok (some q) ∧ resolve env e q = some true

def QueryFails (rules : List (List Condition)) : Prop :=
  ∃ group ∈ rules, Reaches (Valid env) Breaks group ∨
    (∀ c ∈ group, Valid env c) ∧ ∃ c ∈ group, Missing env e c

/-! ### What the query finds -/

section Query

variable {env e} {c : Condition} {group : List Condition} {rules : List (List Condition)}
  {op : Operator}

theorem fieldOf_eq_error {key : Value} : (∃ f, fieldOf key = .error f) ↔ Unhashable key := by
  cases key <;> simp [fieldOf, Unhashable]

theorem operatorOf_eq_error {operator : Value} :
    (∃ f, operatorOf operator = .error f) ↔ Unhashable operator := by
  cases operator <;> simp [operatorOf, Unhashable]

theorem operatorMap_eq_ne {s : String} : operatorMap s = some .ne ↔ s = "ne" ∨ s = "不等于" := by
  unfold operatorMap
  split <;> simp_all

theorem isNe_iff {operator : Value} (h : operatorOf operator = .ok (some op)) :
    isNe operator = true ↔ op = .ne := by
  cases operator with
  | str s =>
    have h_op : operatorMap s = some op := Except.ok.inj h
    constructor
    · intro h_ne
      have h_map : operatorMap s = some .ne := operatorMap_eq_ne.mpr (by simpa [isNe] using h_ne)
      exact Option.some.inj (h_op.symm.trans h_map)
    · rintro rfl
      simpa [isNe] using operatorMap_eq_ne.mp h_op
  | _ => cases h

theorem isNone_operator (h : operatorOf c.operator = .ok (some op)) :
    isNone c.operator = false := by
  cases h_operator : c.operator with
  | null =>
    rw [h_operator] at h
    cases h
  | _ => rfl

theorem Asks.unique {op' : Operator} (h : Asks c op) (h' : Asks c op') : op = op' :=
  Option.some.inj (Except.ok.inj (h.2.1.symm.trans h'.2.1))

theorem buildConditionQ_of_not_complete (h : ¬Complete c) : buildConditionQ env c = .ok none := by
  unfold buildConditionQ
  split_ifs with h_first h_value
  · rfl
  · rfl
  · refine absurd ⟨?_, ?_, ?_⟩ h <;> simp_all

theorem buildConditionQ_of_complete (h : Complete c) :
    buildConditionQ env c = (do
      let field ← fieldOf c.key
      let op ← operatorOf c.operator
      op.elim (.ok none) fun op => buildOperator env (env.text field) op c.value) := by
  obtain ⟨h_key, h_operator, h_value⟩ := h
  have h_ne : (isNone c.value && !isNe c.operator) = false := by
    cases h_none : isNone c.value with
    | false => rfl
    | true =>
      rw [h_value h_none]
      rfl
  unfold buildConditionQ
  rw [h_key, h_operator, h_ne]
  cases fieldOf c.key with
  | error f => rfl
  | ok field =>
    cases operatorOf c.operator with
    | error f => rfl
    | ok op => cases op <;> rfl

theorem asks_iff : Asks c op ↔ Complete c ∧ operatorOf c.operator = .ok (some op) := by
  constructor
  · rintro ⟨h_key, h_op, h_value⟩
    exact ⟨⟨h_key, isNone_operator h_op, fun h_none => (isNe_iff h_op).mpr (h_value h_none)⟩, h_op⟩
  · rintro ⟨⟨h_key, -, h_value⟩, h_op⟩
    exact ⟨h_key, h_op, fun h_none => (isNe_iff h_op).mp (h_value h_none)⟩

theorem buildConditionQ_eq_some {q : Q} :
    buildConditionQ env c = .ok (some q) ↔ ∃ op field, Asks c op ∧ fieldOf c.key = .ok field ∧
      buildOperator env (env.text field) op c.value = .ok (some q) := by
  by_cases h_complete : Complete c
  · rw [buildConditionQ_of_complete h_complete]
    constructor
    · intro h
      obtain ⟨field, h_field, h⟩ := bind_eq_ok.mp h
      obtain ⟨op, h_op, h⟩ := bind_eq_ok.mp h
      cases op with
      | none => cases h
      | some op => exact ⟨op, field, asks_iff.mpr ⟨h_complete, h_op⟩, h_field, h⟩
    · rintro ⟨op, field, h_asks, h_field, h⟩
      exact bind_eq_ok.mpr ⟨field, h_field, bind_eq_ok.mpr ⟨some op, h_asks.2.1, h⟩⟩
  · rw [buildConditionQ_of_not_complete h_complete]
    constructor
    · intro h
      cases h
    · rintro ⟨op, -, h_asks, -⟩
      exact absurd (asks_iff.mp h_asks).1 h_complete

theorem buildOperator_eq_error {path : String} {v : Value} :
    (∃ f, buildOperator env path op v = .error f) ↔
      op = .lookup .iregex ∧ v.truthy = true ∧ ∀ pattern, v ≠ .str pattern := by
  constructor
  · rintro ⟨f, h⟩
    match op with
    | .lookup .iregex =>
      cases h_truthy : v.truthy with
      | false => simp [buildOperator, h_truthy] at h
      | true =>
        refine ⟨rfl, rfl, ?_⟩
        rintro pattern rfl
        simp [buildOperator, h_truthy] at h
    | .lookup .isIn | .notIn => cases v <;> cases h
    | .lookup .exact | .lookup .icontains | .lookup .gt | .lookup .gte | .lookup .lt
    | .lookup .lte | .ne | .notContains => cases h
  · rintro ⟨rfl, h_truthy, h_text⟩
    refine ⟨.typeError, ?_⟩
    cases v with
    | str pattern => exact absurd rfl (h_text pattern)
    | _ => simp [buildOperator, h_truthy]

theorem buildConditionQ_eq_error : (∃ f, buildConditionQ env c = .error f) ↔ Breaks c := by
  by_cases h_complete : Complete c
  · rw [buildConditionQ_of_complete h_complete]
    constructor
    · rintro ⟨f, h⟩
      refine ⟨h_complete, ?_⟩
      rcases bind_eq_error.mp h with h_key | ⟨field, h_field, h⟩
      · exact .inl (fieldOf_eq_error.mp ⟨f, h_key⟩)
      rcases bind_eq_error.mp h with h_operator | ⟨op, h_op, h⟩
      · exact .inr (.inl (operatorOf_eq_error.mp ⟨f, h_operator⟩))
      cases op with
      | none => cases h
      | some op =>
        obtain ⟨rfl, h_truthy, h_text⟩ := buildOperator_eq_error.mp ⟨f, h⟩
        exact .inr (.inr ⟨h_op, h_truthy, h_text⟩)
    · rintro ⟨-, h⟩
      cases h_field : fieldOf c.key with
      | error f => exact ⟨f, rfl⟩
      | ok field =>
        cases h_op : operatorOf c.operator with
        | error f => exact ⟨f, rfl⟩
        | ok op =>
          -- both entries are read, so it is the pattern
          have h_key : ¬Unhashable c.key := fun h_key => by
            obtain ⟨f, h_f⟩ := fieldOf_eq_error.mpr h_key
            exact absurd (h_field.symm.trans h_f) (by simp)
          have h_operator : ¬Unhashable c.operator := fun h_operator => by
            obtain ⟨f, h_f⟩ := operatorOf_eq_error.mpr h_operator
            exact absurd (h_op.symm.trans h_f) (by simp)
          obtain ⟨h_regex, h_truthy, h_text⟩ := (h.resolve_left h_key).resolve_left h_operator
          obtain rfl : op = some (.lookup .iregex) := Except.ok.inj (h_op.symm.trans h_regex)
          exact buildOperator_eq_error.mpr ⟨rfl, h_truthy, h_text⟩
  · rw [buildConditionQ_of_not_complete h_complete]
    constructor
    · rintro ⟨f, h⟩
      cases h
    · rintro ⟨h, -⟩
      exact absurd h h_complete

/-! ### The groups of the query -/

theorem buildGroup_cons_of_valid {q : Q} (h : buildConditionQ env c = .ok (some q)) :
    buildGroup env (c :: group) = (buildGroup env group).map fun qs => qs.map (q :: ·) := by
  rw [buildGroup.eq_2, h]

theorem buildGroup_cons_eq_some {qs : List Q} :
    buildGroup env (c :: group) = .ok (some qs) ↔ ∃ q qs', buildConditionQ env c = .ok (some q) ∧
      buildGroup env group = .ok (some qs') ∧ qs = q :: qs' := by
  match h_c : buildConditionQ env c with
  | .error f => simp [buildGroup, h_c]
  | .ok none => simp [buildGroup, h_c]
  | .ok (some q) =>
    rw [buildGroup_cons_of_valid h_c]
    cases buildGroup env group with
    | error f => simp [Except.map]
    | ok qs' => cases qs' <;> simp [Except.map, eq_comm]

theorem buildGroup_eq_error :
    (∃ f, buildGroup env group = .error f) ↔ Reaches (Valid env) Breaks group := by
  induction group with
  | nil => simp [buildGroup]
  | cons c group ih =>
    have h_condition : (∃ f, buildConditionQ env c = .error f) ↔ _ := buildConditionQ_eq_error
    rw [reaches_cons, ← ih, ← h_condition]
    match h_c : buildConditionQ env c with
    | .error f => simp [buildGroup, h_c, Valid]
    | .ok none => simp [buildGroup, h_c, Valid]
    | .ok (some q) =>
      rw [buildGroup_cons_of_valid h_c]
      cases buildGroup env group <;> simp [Except.map, Valid, h_c]

theorem buildGroup_eq_some {qs : List Q} :
    buildGroup env group = .ok (some qs) ↔
      List.Forall₂ (fun c q => buildConditionQ env c = .ok (some q)) group qs := by
  induction group generalizing qs with
  | nil =>
    rw [List.forall₂_nil_left_iff]
    simp [buildGroup, eq_comm]
  | cons c group ih =>
    rw [List.forall₂_cons_left_iff, buildGroup_cons_eq_some]
    constructor
    · rintro ⟨q, qs', h_c, h_group, h_qs⟩
      exact ⟨q, qs', h_c, ih.mp h_group, h_qs⟩
    · rintro ⟨q, qs', h_c, h_group, h_qs⟩
      exact ⟨q, qs', h_c, ih.mpr h_group, h_qs⟩

theorem orConditions_eq_error :
    (∃ f, orConditions env rules = .error f) ↔
      ∃ group ∈ rules, ∃ f, buildGroup env group = .error f := by
  induction rules with
  | nil => simp [orConditions]
  | cons group rules ih =>
    rw [List.exists_mem_cons_iff, ← ih]
    match h_group : buildGroup env group with
    | .error f => simp [orConditions, h_group]
    | .ok none => simp [orConditions, h_group]
    | .ok (some []) => simp [orConditions, h_group]
    | .ok (some (q :: qs)) =>
      cases h_rest : orConditions env rules <;> simp [orConditions, h_group, h_rest, Except.map]

theorem ne_nil_iff_of_buildGroup {qs : List Q} (h : buildGroup env group = .ok (some qs)) :
    group ≠ [] ↔ qs ≠ [] := by
  have h_length := (buildGroup_eq_some.mp h).length_eq
  rw [← List.length_pos_iff, ← List.length_pos_iff, h_length]

theorem mem_of_orConditions_eq_ok {ors : List (List Q)} (h : orConditions env rules = .ok ors)
    {ands : List Q} :
    ands ∈ ors ↔ ∃ group ∈ rules, group ≠ [] ∧ buildGroup env group = .ok (some ands) := by
  induction rules generalizing ors with
  | nil =>
    cases h
    simp
  | cons group rules ih =>
    rw [List.exists_mem_cons_iff]
    match h_group : buildGroup env group with
    | .error f =>
      rw [orConditions, h_group] at h
      cases h
    | .ok none =>
      rw [orConditions, h_group] at h
      simpa using ih h
    | .ok (some []) =>
      rw [orConditions, h_group] at h
      have h_empty : ¬group ≠ [] := fun h_ne => (ne_nil_iff_of_buildGroup h_group).mp h_ne rfl
      simpa [h_empty] using ih h
    | .ok (some (q :: qs)) =>
      rw [orConditions, h_group] at h
      have h_ne : group ≠ [] := (ne_nil_iff_of_buildGroup h_group).mpr (List.cons_ne_nil q qs)
      cases h_rest : orConditions env rules with
      | error f =>
        rw [h_rest] at h
        cases h
      | ok rest =>
        rw [h_rest] at h
        cases h
        rw [List.mem_cons, ih h_rest]
        simp [h_ne, eq_comm]

theorem forall_lookups {p : Q → Prop} {ands : List Q}
    (h : List.Forall₂ (fun c q => buildConditionQ env c = .ok (some q)) group ands) :
    (∀ q ∈ ands, p q) ↔ ∀ c ∈ group, ∃ q, buildConditionQ env c = .ok (some q) ∧ p q := by
  induction h with
  | nil => simp
  | cons h_c h_group ih =>
    rw [List.forall_mem_cons, List.forall_mem_cons, ih, h_c]
    simp

theorem exists_buildGroup : (∃ ands, buildGroup env group = .ok (some ands)) ↔
    ∀ c ∈ group, Valid env c := by
  simp only [buildGroup_eq_some]
  induction group with
  | nil => simp
  | cons c group ih =>
    rw [List.forall_mem_cons, ← ih]
    simp only [List.forall₂_cons_left_iff]
    constructor
    · rintro ⟨ands, q, qs, h_c, h_group, -⟩
      exact ⟨⟨q, h_c⟩, qs, h_group⟩
    · rintro ⟨⟨q, h_c⟩, qs, h_group⟩
      exact ⟨q :: qs, q, qs, h_c, h_group, rfl⟩

theorem matchEvents_of_orConditions (h : rules ≠ []) {ors : List (List Q)}
    (h_ors : orConditions env rules = .ok ors) :
    matchEvents env e rules = (filter env e ors).getD false := by
  unfold matchEvents buildQFilter
  rw [h_ors, if_neg (by simpa using h)]
  cases ors with
  | nil => rfl
  | cons ands ors => rfl

theorem filter_eq_true {ors : List (List Q)} :
    (filter env e ors).getD false = true ↔
      (∀ ands ∈ ors, ∀ q ∈ ands, resolve env e q ≠ none) ∧
        ∃ ands ∈ ors, ∀ q ∈ ands, resolve env e q = some true := by
  unfold filter
  split_ifs with h_all
  · have h_some : ∀ ands ∈ ors, ∀ q ∈ ands, resolve env e q ≠ none := by
      simpa [Option.isSome_iff_ne_none] using h_all
    simpa using fun _ _ _ => h_some
  · have h_none : ¬∀ ands ∈ ors, ∀ q ∈ ands, resolve env e q ≠ none := by
      simpa [Option.isSome_iff_ne_none] using h_all
    simp only [Option.getD_none, Bool.false_eq_true, false_iff]
    exact fun h => h_none h.1

theorem queryFails_iff {ors : List (List Q)} (h_ors : orConditions env rules = .ok ors) :
    QueryFails env e rules ↔ ∃ ands ∈ ors, ∃ q ∈ ands, resolve env e q = none := by
  have h_built : ∀ group ∈ rules, ¬Reaches (Valid env) Breaks group := by
    intro group h_mem h_reach
    have h_error := orConditions_eq_error.mpr ⟨group, h_mem, buildGroup_eq_error.mpr h_reach⟩
    rw [h_ors] at h_error
    obtain ⟨f, h_f⟩ := h_error
    cases h_f
  constructor
  · rintro ⟨group, h_mem, h_reach | ⟨h_valid, c, h_c, h_missing⟩⟩
    · exact absurd h_reach (h_built group h_mem)
    obtain ⟨ands, h_ands⟩ := exists_buildGroup.mpr h_valid
    refine ⟨ands, (mem_of_orConditions_eq_ok h_ors).mpr
      ⟨group, h_mem, List.ne_nil_of_mem h_c, h_ands⟩, ?_⟩
    by_contra h_resolve
    push Not at h_resolve
    obtain ⟨q, h_q, h_none⟩ := h_missing
    obtain ⟨q', h_q', h_some⟩ :=
      (forall_lookups (buildGroup_eq_some.mp h_ands)).mp h_resolve c h_c
    obtain rfl : q = q' := Option.some.inj (Except.ok.inj (h_q.symm.trans h_q'))
    exact h_some h_none
  · rintro ⟨ands, h_ands, q, h_q, h_none⟩
    obtain ⟨group, h_mem, -, h_group⟩ := (mem_of_orConditions_eq_ok h_ors).mp h_ands
    refine ⟨group, h_mem, .inr ⟨exists_buildGroup.mp ⟨ands, h_group⟩, ?_⟩⟩
    by_contra h_resolve
    have h_some : ∀ q ∈ ands, resolve env e q ≠ none := by
      refine (forall_lookups (buildGroup_eq_some.mp h_group)).mpr ?_
      intro c h_c
      obtain ⟨q', h_q'⟩ := exists_buildGroup.mp ⟨ands, h_group⟩ c h_c
      exact ⟨q', h_q', fun h_none' => h_resolve ⟨c, h_c, q', h_q', h_none'⟩⟩
    exact h_some q h_q h_none

theorem matchEvents_iff (h : rules ≠ []) :
    matchEvents env e rules = true ↔ ¬QueryFails env e rules ∧
      ∃ group ∈ rules, group ≠ [] ∧ ∀ c ∈ group, Holds env e c := by
  cases h_ors : orConditions env rules with
  | error f =>
    obtain ⟨group, h_mem, h_error⟩ := orConditions_eq_error.mp ⟨f, h_ors⟩
    have h_fails : QueryFails env e rules :=
      ⟨group, h_mem, .inl (buildGroup_eq_error.mp h_error)⟩
    have h_false : matchEvents env e rules = false := by
      unfold matchEvents buildQFilter
      rw [h_ors, if_neg (by simpa using h)]
      rfl
    simp [h_fails, h_false]
  | ok ors =>
    rw [matchEvents_of_orConditions h h_ors, filter_eq_true, queryFails_iff h_ors]
    push Not
    refine and_congr_right fun _ => ?_
    constructor
    · rintro ⟨ands, h_ands, h_holds⟩
      obtain ⟨group, h_mem, h_ne, h_group⟩ := (mem_of_orConditions_eq_ok h_ors).mp h_ands
      exact ⟨group, h_mem, h_ne, (forall_lookups (buildGroup_eq_some.mp h_group)).mp h_holds⟩
    · rintro ⟨group, h_mem, h_ne, h_holds⟩
      have h_valid : ∀ c ∈ group, Valid env c := by
        intro c h_c
        obtain ⟨q, h_q, -⟩ := h_holds c h_c
        exact ⟨q, h_q⟩
      obtain ⟨ands, h_group⟩ := exists_buildGroup.mpr h_valid
      exact ⟨ands, (mem_of_orConditions_eq_ok h_ors).mpr ⟨group, h_mem, h_ne, h_group⟩,
        (forall_lookups (buildGroup_eq_some.mp h_group)).mpr h_holds⟩

end Query

end MatchRules
end Alerts
