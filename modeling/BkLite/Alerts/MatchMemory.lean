import BkLite.Alerts.MatchQuery

/-!
# What a condition finds in memory

A condition is *turned* on an event if it holds of the row and not in memory, or the other way round
(`Turns`). On a text column that happens (`TurnsText`)

* for `contains` with an empty text, or where the case is folded differently;
* for a regular expression that matches the empty text, on NULL, or where the engines differ;
* for `in` and `not_in` with `None` on the list, on NULL;
* for the ordering operators where the order of the numbers is not the order of the texts.
-/

namespace Alerts
namespace MatchRules

open Py Scan

variable {N : Type} (env : Env N) (e : Event)

/-! ### What the memory finds -/

/-- On a text column, the condition holds for one evaluator and not for the other. -/
def TurnsText (column : Option String) (op : Operator) (v : Value) : Prop :=
  match op with
  | .lookup .exact | .ne => False
  | .lookup .icontains =>
    ∃ s, column = some s ∧
      (v = .str "" ∨ containsLower env s (env.text v) ≠ env.db.icontains s (env.text v))
  | .notContains =>
    isBlank v = false ∧ ∃ s, column = some s ∧
      containsLower env s (env.text v) ≠ env.db.icontains s (env.text v)
  | .lookup .iregex =>
    v.truthy = true ∧ ∃ search, env.compile (env.text v) = some search ∧
      match v, column with
      | .str pattern, some s => search s ≠ env.db.iregex s pattern
      | _, _ => search (column.getD "") = true
  | .lookup .isIn | .notIn =>
    column = none ∧ ∃ vs, v = .list vs ∧ ∃ v' ∈ vs, isNone v' = true
  | .lookup l =>
    ¬(numericCompare env (.ofColumn column) v l = .ok true ↔
      ∃ s, column = some s ∧ compareBy env.db.lt env.db.le l s (env.text v) = true)

/-- The condition holds for one evaluator and not for the other. -/
def Turns (c : Condition) : Prop :=
  ∃ op, Asks c op ∧
    match c.key with
    | .str key =>
      match e.textColumn (fieldMap key) with
      | some column => TurnsText env column op c.value
      | none =>
        ¬((∃ left, getFieldValue e (.str (fieldMap key)) = .ok left ∧
          evalOperator env left op c.value = .ok true) ↔ Holds env e c)
    | _ => Holds env e c

/-- The evaluation of the condition raises. -/
def Stops (c : Condition) : Prop :=
  c.key.truthy = true ∧
    (Unhashable c.operator ∨
      ∃ op, operatorOf c.operator = .ok (some op) ∧
        ((∀ key, c.key ≠ .str key) ∨
          ∃ key, c.key = .str key ∧
            ((∃ f, getFieldValue e (.str (fieldMap key)) = .error f) ∨
              ∃ left l, getFieldValue e (.str (fieldMap key)) = .ok left ∧ op = .lookup l ∧
                l ∈ [Lookup.gt, .gte, .lt, .lte] ∧ isNone c.value = false ∧
                ∃ f, numericCompare env left c.value l = .error f)))

def HoldsAt (path : String) (op : Operator) (v : Value) : Prop :=
  ∃ q, buildOperator env path op v = .ok (some q) ∧ resolve env e q = some true

section Memory

variable {env e} {c : Condition} {group : List Condition} {rules : List (List Condition)}
  {op : Operator} {column : Option String} {v : Value}

theorem getFieldValue_of_textColumn {name : String} (h : e.textColumn name = some column) :
    getFieldValue e (.str name) = .ok (.ofColumn column) := by
  unfold getFieldValue
  unfold Event.textColumn at h
  dsimp only
  split_ifs at h ⊢ with h_source
  · cases h
    rfl
  · unfold Event.getattr
    rw [h]

theorem evalCondition_of_not_reads (h : c.key.truthy = false ∨ isNone c.operator = true) :
    evalCondition env e c = .ok false := by
  unfold evalCondition
  rw [if_pos (by simpa [or_comm] using h)]

theorem evalCondition_of_reads (h_key : c.key.truthy = true)
    (h_operator : isNone c.operator = false) :
    evalCondition env e c = (do
      let op ← operatorOf c.operator
      op.elim (.ok false) fun op => do
        let field ← fieldOf c.key
        let left ← getFieldValue e field
        if isNone c.value && op ≠ .ne then .ok false else evalOperator env left op c.value) := by
  unfold evalCondition
  rw [h_key, h_operator]
  cases operatorOf c.operator with
  | error f => rfl
  | ok op =>
    cases op with
    | none => rfl
    | some op =>
      cases fieldOf c.key with
      | error f => rfl
      | ok field =>
        dsimp only [bind, Except.bind, Option.elim]
        cases getFieldValue e field <;> rfl

theorem evalCondition_eq_true :
    evalCondition env e c = .ok true ↔ ∃ op field left, Asks c op ∧ fieldOf c.key = .ok field ∧
      getFieldValue e field = .ok left ∧ evalOperator env left op c.value = .ok true := by
  by_cases h_reads : c.key.truthy = true ∧ isNone c.operator = false
  · rw [evalCondition_of_reads h_reads.1 h_reads.2]
    constructor
    · intro h
      obtain ⟨op, h_op, h⟩ := bind_eq_ok.mp h
      cases op with
      | none => cases h
      | some op =>
        obtain ⟨field, h_field, h⟩ := bind_eq_ok.mp h
        obtain ⟨left, h_left, h⟩ := bind_eq_ok.mp h
        split_ifs at h with h_value
        · cases h
        · have h_ne : isNone c.value = true → op = .ne := by simpa using h_value
          exact ⟨op, field, left, ⟨h_reads.1, h_op, h_ne⟩, h_field, h_left, h⟩
    · rintro ⟨op, field, left, ⟨-, h_op, h_value⟩, h_field, h_left, h⟩
      refine bind_eq_ok.mpr ⟨some op, h_op, bind_eq_ok.mpr ⟨field, h_field, bind_eq_ok.mpr
        ⟨left, h_left, ?_⟩⟩⟩
      rw [if_neg (by simpa using h_value)]
      exact h
  · have h_or : c.key.truthy = false ∨ isNone c.operator = true := by
      by_contra h_not
      simp at h_not
      exact h_reads h_not
    rw [evalCondition_of_not_reads h_or]
    constructor
    · intro h
      cases h
    · rintro ⟨op, -, -, h_asks, -⟩
      exact absurd ⟨h_asks.1, isNone_operator h_asks.2.1⟩ h_reads

theorem evalOperator_eq_error {left : Attr} :
    (∃ f, evalOperator env left op v = .error f) ↔
      ∃ l, op = .lookup l ∧ l ∈ [Lookup.gt, .gte, .lt, .lte] ∧
        ∃ f, numericCompare env left v l = .error f := by
  match op with
  | .lookup .exact | .lookup .icontains | .ne | .notContains => simp [evalOperator]
  | .lookup .iregex =>
    unfold evalOperator
    split_ifs
    · simp
    · cases env.compile (env.text v) <;> simp
  | .lookup .isIn | .notIn => cases v <;> simp [evalOperator]
  | .lookup .gt | .lookup .gte | .lookup .lt | .lookup .lte => simp [evalOperator]

theorem getFieldValue_of_not_text {field : Value} (h : ∀ name, field ≠ .str name) :
    getFieldValue e field = .error .typeError := by
  cases field with
  | str name => exact absurd rfl (h name)
  | _ => rfl

theorem evalCondition_eq_error :
    (∃ f, evalCondition env e c = .error f) ↔ Stops env e c := by
  by_cases h_reads : c.key.truthy = true ∧ isNone c.operator = false
  · rw [evalCondition_of_reads h_reads.1 h_reads.2]
    constructor
    · rintro ⟨f, h⟩
      refine ⟨h_reads.1, ?_⟩
      rcases bind_eq_error.mp h with h_operator | ⟨op, h_op, h⟩
      · exact .inl (operatorOf_eq_error.mp ⟨f, h_operator⟩)
      cases op with
      | none => cases h
      | some op =>
        refine .inr ⟨op, h_op, ?_⟩
        by_cases h_text : ∃ key, c.key = .str key
        · obtain ⟨key, h_key⟩ := h_text
          refine .inr ⟨key, h_key, ?_⟩
          rw [h_key] at h
          rcases bind_eq_error.mp h with h_field | ⟨field, h_field, h⟩
          · cases h_field
          cases h_field
          rcases bind_eq_error.mp h with h_left | ⟨left, h_left, h⟩
          · exact .inl ⟨f, h_left⟩
          split_ifs at h with h_value
          obtain ⟨l, rfl, h_order, h_error⟩ := evalOperator_eq_error.mp ⟨f, h⟩
          exact .inr ⟨left, l, h_left, rfl, h_order, by simpa using h_value, h_error⟩
        · exact .inl fun key h_key => h_text ⟨key, h_key⟩
    · rintro ⟨-, h_operator | ⟨op, h_op, h⟩⟩
      · obtain ⟨f, h_f⟩ := operatorOf_eq_error.mpr h_operator
        exact ⟨f, bind_eq_error.mpr (.inl h_f)⟩
      rw [h_op]
      rcases h with h_text | ⟨key, h_key, h⟩
      · cases h_key : c.key with
        | str key => exact absurd h_key (h_text key)
        | _ => exact ⟨.typeError, rfl⟩
      rw [h_key]
      rcases h with ⟨f, h_left⟩ | ⟨left, l, h_left, rfl, h_order, h_value, h_error⟩
      · exact ⟨f, bind_eq_error.mpr (.inr ⟨_, rfl, bind_eq_error.mpr (.inr ⟨_, rfl,
          bind_eq_error.mpr (.inl h_left)⟩)⟩)⟩
      · obtain ⟨f, h_f⟩ := evalOperator_eq_error.mpr ⟨l, rfl, h_order, h_error⟩
        refine ⟨f, bind_eq_error.mpr (.inr ⟨_, rfl, bind_eq_error.mpr (.inr ⟨_, rfl,
          bind_eq_error.mpr (.inr ⟨left, h_left, ?_⟩)⟩)⟩)⟩
        rw [if_neg (by simp [h_value])]
        exact h_f
  · have h_or : c.key.truthy = false ∨ isNone c.operator = true := by
      by_contra h_not
      simp at h_not
      exact h_reads h_not
    rw [evalCondition_of_not_reads h_or]
    constructor
    · rintro ⟨f, h⟩
      cases h
    · rintro ⟨h_key, h⟩
      refine absurd ⟨h_key, ?_⟩ h_reads
      rcases h with h_operator | ⟨op, h_op, -⟩
      · cases h_none : c.operator <;> simp_all [Unhashable, isNone]
      · exact isNone_operator h_op

/-! ### A text column -/

theorem toStr_ofColumn : toStr env (.ofColumn column) = column.getD "" := by
  cases column <;> rfl

theorem toStr_json (h : isNone v = false) : toStr env (.json v) = env.text v := by
  cases v with
  | null => cases h
  | _ => rfl

theorem isNone_ofColumn : (Attr.ofColumn column).isNone = column.isNone := by
  cases column <;> rfl

theorem equal_ofColumn :
    equal env (.ofColumn column) v = true ↔
      column = none ∧ isNone v = true ∨
        ∃ s, column = some s ∧ isNone v = false ∧ s = env.text v := by
  unfold equal
  rw [isNone_ofColumn, toStr_ofColumn]
  cases h_none : isNone v with
  | true => cases column <;> simp
  | false =>
    rw [toStr_json h_none]
    cases column <;> simp

section Column

variable {path : String} (h_column : e.textColumn path = some column)

include h_column in
theorem holdsAt_iff {negated : Bool} {l : Lookup}
    (h : buildOperator env path op v = .ok (some ⟨negated, path, l, v⟩)) :
    HoldsAt env e path op v ↔ (negated ^^ textLookup env column l v) = true := by
  unfold HoldsAt resolve
  rw [h]
  constructor
  · rintro ⟨q, h_q, h_true⟩
    cases h_q
    rw [h_column] at h_true
    exact Option.some.inj h_true
  · intro h_true
    refine ⟨_, rfl, ?_⟩
    rw [h_column]
    exact congrArg some h_true

theorem not_holdsAt (h : ∀ q, buildOperator env path op v ≠ .ok (some q)) :
    ¬HoldsAt env e path op v := by
  rintro ⟨q, h_q, -⟩
  exact h q h_q

include h_column in
theorem exact_column (h_value : isNone v = false) :
    evalOperator env (.ofColumn column) (.lookup .exact) v = .ok true ↔
      HoldsAt env e path (.lookup .exact) v := by
  rw [holdsAt_iff h_column rfl]
  show Except.ok _ = _ ↔ _
  rw [Except.ok.injEq, equal_ofColumn, h_value]
  cases column <;> simp [textLookup, h_value]

include h_column in
theorem ne_column :
    evalOperator env (.ofColumn column) .ne v = .ok true ↔ HoldsAt env e path .ne v := by
  rw [holdsAt_iff h_column rfl]
  show Except.ok (!_) = _ ↔ _
  rw [Except.ok.injEq, Bool.not_eq_true', ← Bool.not_eq_true, equal_ofColumn]
  cases column with
  | none => simp [textLookup]
  | some s =>
    simp [textLookup]
    tauto

theorem containsLower_empty {s : String} (h : s ≠ "") : containsLower env "" s = false := by
  have h_empty : env.lower "" = "" := (env.lower_eq_empty "").mpr rfl
  have h_lower : env.lower s ≠ "" := fun h_s => h ((env.lower_eq_empty s).mp h_s)
  unfold containsLower
  rw [h_empty]
  simpa using h_lower

theorem text_ne_empty (h : isBlank v = false) : env.text v ≠ "" := by
  cases v with
  | str s =>
    have h_s : s ≠ "" := by simpa [isBlank] using h
    exact h_s
  | null => cases h
  | _ => exact env.repr_ne_empty _

theorem icontains_ofColumn (h : isBlank v = false) :
    icontains env (.ofColumn column) v = true ↔
      ∃ s, column = some s ∧ containsLower env s (env.text v) = true := by
  unfold icontains
  rw [h, toStr_ofColumn]
  cases column with
  | none => simp [containsLower_empty (text_ne_empty h)]
  | some s => simp

include h_column in
theorem icontains_column (h_value : isNone v = false) :
    evalOperator env (.ofColumn column) (.lookup .icontains) v = .ok true ↔
      ¬(HoldsAt env e path (.lookup .icontains) v ↔
        TurnsText env column (.lookup .icontains) v) := by
  rw [holdsAt_iff h_column rfl]
  show Except.ok _ = _ ↔ _
  rw [Except.ok.injEq]
  cases h_blank : isBlank v with
  | false =>
    have h_ne : v ≠ .str "" := by
      rintro rfl
      cases h_blank
    rw [icontains_ofColumn h_blank]
    cases column with
    | none => simp [TurnsText, textLookup]
    | some s =>
      simp only [TurnsText, textLookup, Option.some.injEq, exists_eq_left', h_ne, false_or]
      cases containsLower env s (env.text v) <;> cases env.db.icontains s (env.text v) <;> simp
  | true =>
    obtain rfl : v = .str "" := by
      cases v with
      | null => cases h_value
      | str s => simpa [isBlank] using h_blank
      | _ => cases h_blank
    -- every text contains the empty text for the database, and none in memory
    cases column with
    | none => simp [TurnsText, textLookup, icontains, isBlank]
    | some s => simp [TurnsText, textLookup, icontains, isBlank, Env.text, env.db.icontains_empty]

include h_column in
theorem notContains_column :
    evalOperator env (.ofColumn column) .notContains v = .ok true ↔
      ¬(HoldsAt env e path .notContains v ↔ TurnsText env column .notContains v) := by
  cases h_blank : isBlank v with
  | true =>
    have h_not : ¬HoldsAt env e path .notContains v :=
      not_holdsAt fun q h_q => by simp [buildOperator, h_blank] at h_q
    simp [evalOperator, TurnsText, h_blank, h_not]
  | false =>
    have h_build : buildOperator env path .notContains v =
        .ok (some ⟨true, path, .icontains, v⟩) := by
      simp [buildOperator, h_blank]
    rw [holdsAt_iff h_column h_build]
    show Except.ok (_ && !_) = _ ↔ _
    rw [Except.ok.injEq, h_blank, Bool.not_false, Bool.true_and, Bool.not_eq_true',
      ← Bool.not_eq_true, icontains_ofColumn h_blank]
    cases column with
    | none => simp [TurnsText, textLookup]
    | some s =>
      simp only [TurnsText, textLookup, Option.some.injEq, exists_eq_left', h_blank, true_and]
      cases containsLower env s (env.text v) <;> cases env.db.icontains s (env.text v) <;> simp

theorem evalOperator_iregex (h : v.truthy = true) :
    evalOperator env (.ofColumn column) (.lookup .iregex) v = .ok true ↔
      ∃ search, env.compile (env.text v) = some search ∧ search (column.getD "") = true := by
  simp only [evalOperator, h, Bool.not_true, Bool.false_eq_true, if_false]
  cases env.compile (env.text v) with
  | none => simp
  | some search => simp [toStr_ofColumn]

theorem not_holdsAt_iregex (h : ∀ pattern, v ≠ .str pattern) :
    ¬HoldsAt env e path (.lookup .iregex) v := by
  refine not_holdsAt fun q h_q => ?_
  cases v with
  | str pattern => exact h pattern rfl
  | _ =>
    simp only [buildOperator] at h_q
    split_ifs at h_q
    cases h_q

include h_column in
theorem iregex_column :
    evalOperator env (.ofColumn column) (.lookup .iregex) v = .ok true ↔
      ¬(HoldsAt env e path (.lookup .iregex) v ↔ TurnsText env column (.lookup .iregex) v) := by
  cases h_truthy : v.truthy with
  | false =>
    have h_not : ¬HoldsAt env e path (.lookup .iregex) v :=
      not_holdsAt fun q h_q => by simp [buildOperator, h_truthy] at h_q
    simp [evalOperator, TurnsText, h_truthy, h_not]
  | true =>
    rw [evalOperator_iregex h_truthy]
    by_cases h_text : ∃ pattern, v = .str pattern
    · obtain ⟨pattern, rfl⟩ := h_text
      cases h_compile : env.compile pattern with
      | none =>
        have h_not : ¬HoldsAt env e path (.lookup .iregex) (.str pattern) :=
          not_holdsAt fun q h_q => by simp [buildOperator, h_compile] at h_q
        simp [TurnsText, Env.text, h_compile, h_not]
      | some search =>
        have h_build : buildOperator env path (.lookup .iregex) (.str pattern) =
            .ok (some ⟨false, path, .iregex, .str pattern⟩) := by
          simp [buildOperator, h_truthy, h_compile]
        rw [holdsAt_iff h_column h_build]
        cases column with
        | none => simp [TurnsText, textLookup, Env.text, h_compile, h_truthy]
        | some s =>
          simp only [TurnsText, textLookup, Env.text, h_compile, h_truthy, Option.some.injEq,
            exists_eq_left', true_and, Option.getD_some]
          cases search s <;> cases env.db.iregex s pattern <;> simp
    · have h_text' : ∀ pattern, v ≠ .str pattern := fun pattern h_v => h_text ⟨pattern, h_v⟩
      have h_not : ¬HoldsAt env e path (.lookup .iregex) v := not_holdsAt_iregex h_text'
      cases v with
      | str pattern => exact absurd rfl (h_text' pattern)
      | _ => simp [TurnsText, h_truthy, h_not]

theorem any_equal_ofColumn {vs : List Value} :
    vs.any (equal env (.ofColumn column)) = true ↔
      (column = none ∧ ∃ v ∈ vs, isNone v = true) ∨
        textLookup env column .isIn (.list vs) = true := by
  rw [List.any_eq_true]
  simp only [equal_ofColumn]
  cases column with
  | none => simp [textLookup, isNone]
  | some s => simp [textLookup, and_comm]

theorem textLookup_isIn_none {vs : List Value} :
    textLookup env none .isIn (.list vs) = false := by
  simp [textLookup]

theorem not_membership (h_op : op = .lookup .isIn ∨ op = .notIn) (h : ¬∃ vs, v = .list vs) :
    ¬HoldsAt env e path op v ∧ ¬TurnsText env column op v := by
  constructor
  · refine not_holdsAt fun q h_q => ?_
    cases v with
    | list vs => exact h ⟨vs, rfl⟩
    | _ => obtain rfl | rfl := h_op <;> cases h_q
  · obtain rfl | rfl := h_op
    · rintro ⟨-, vs, h_v, -⟩
      exact h ⟨vs, h_v⟩
    · rintro ⟨-, vs, h_v, -⟩
      exact h ⟨vs, h_v⟩

include h_column in
theorem isIn_column :
    evalOperator env (.ofColumn column) (.lookup .isIn) v = .ok true ↔
      ¬(HoldsAt env e path (.lookup .isIn) v ↔ TurnsText env column (.lookup .isIn) v) := by
  by_cases h_list : ∃ vs, v = .list vs
  · obtain ⟨vs, rfl⟩ := h_list
    rw [holdsAt_iff h_column rfl]
    show Except.ok _ = _ ↔ _
    rw [Except.ok.injEq, any_equal_ofColumn]
    cases column with
    | none => simp [TurnsText, textLookup_isIn_none]
    | some s => simp [TurnsText]
  · obtain ⟨h_not, h_turns⟩ : ¬HoldsAt env e path (.lookup .isIn) v ∧ ¬TurnsText env column (.lookup .isIn) v :=
      not_membership (.inl rfl) h_list
    cases v with
    | list vs => exact absurd ⟨vs, rfl⟩ h_list
    | _ => simp [evalOperator, h_not, h_turns]

include h_column in
theorem notIn_column :
    evalOperator env (.ofColumn column) .notIn v = .ok true ↔
      ¬(HoldsAt env e path .notIn v ↔ TurnsText env column .notIn v) := by
  by_cases h_list : ∃ vs, v = .list vs
  · obtain ⟨vs, rfl⟩ := h_list
    rw [holdsAt_iff h_column rfl]
    show Except.ok (!_) = _ ↔ _
    rw [Except.ok.injEq, Bool.not_eq_true', ← Bool.not_eq_true, any_equal_ofColumn]
    cases column with
    | none => simp [TurnsText, textLookup_isIn_none]
    | some s => simp [TurnsText]
  · obtain ⟨h_not, h_turns⟩ : ¬HoldsAt env e path .notIn v ∧ ¬TurnsText env column .notIn v :=
      not_membership (.inr rfl) h_list
    cases v with
    | list vs => exact absurd ⟨vs, rfl⟩ h_list
    | _ => simp [evalOperator, h_not, h_turns]

include h_column in
theorem order_column {l : Lookup} (h_order : l ∈ [Lookup.gt, .gte, .lt, .lte]) :
    evalOperator env (.ofColumn column) (.lookup l) v = .ok true ↔
      ¬(HoldsAt env e path (.lookup l) v ↔ TurnsText env column (.lookup l) v) := by
  simp only [List.mem_cons, List.not_mem_nil, or_false] at h_order
  have h_text : textLookup env column l v = true ↔
      ∃ s, column = some s ∧ compareBy env.db.lt env.db.le l s (env.text v) = true := by
    cases column with
    | none => rcases h_order with rfl | rfl | rfl | rfl <;> simp [textLookup]
    | some s => rcases h_order with rfl | rfl | rfl | rfl <;> simp [textLookup]
  have h_build : buildOperator env path (.lookup l) v = .ok (some ⟨false, path, l, v⟩) := by
    rcases h_order with rfl | rfl | rfl | rfl <;> rfl
  have h_turns : TurnsText env column (.lookup l) v ↔
      ¬(numericCompare env (.ofColumn column) v l = .ok true ↔
        ∃ s, column = some s ∧ compareBy env.db.lt env.db.le l s (env.text v) = true) := by
    rcases h_order with rfl | rfl | rfl | rfl <;> rfl
  have h_eval : evalOperator env (.ofColumn column) (.lookup l) v =
      numericCompare env (.ofColumn column) v l := by
    rcases h_order with rfl | rfl | rfl | rfl <;> rfl
  rw [h_eval, holdsAt_iff h_column h_build, Bool.false_xor, h_turns, ← h_text]
  tauto

include h_column in
/-- **Text columns.** The memory tells what the column tells unless the condition is turned. -/
theorem evalOperator_column (h_value : isNone v = true → op = .ne) :
    evalOperator env (.ofColumn column) op v = .ok true ↔
      ¬(HoldsAt env e path op v ↔ TurnsText env column op v) := by
  have h_some : op ≠ .ne → isNone v = false := fun h_ne => by
    cases h_none : isNone v with
    | false => rfl
    | true => exact absurd (h_value h_none) h_ne
  match op with
  | .lookup .exact => simp [exact_column h_column (h_some (by simp)), TurnsText]
  | .ne => simp [ne_column h_column, TurnsText]
  | .lookup .icontains => exact icontains_column h_column (h_some (by simp))
  | .notContains => exact notContains_column h_column
  | .lookup .iregex => exact iregex_column h_column
  | .lookup .isIn => exact isIn_column h_column
  | .notIn => exact notIn_column h_column
  | .lookup .gt | .lookup .gte | .lookup .lt | .lookup .lte =>
    exact order_column h_column (by simp)

end Column

/-! ### Conditions and groups in memory -/

theorem holds_iff_holdsAt : Holds env e c ↔ ∃ op field, Asks c op ∧ fieldOf c.key = .ok field ∧
    HoldsAt env e (env.text field) op c.value := by
  unfold Holds
  simp only [buildConditionQ_eq_some]
  constructor
  · rintro ⟨q, ⟨op, field, h_asks, h_field, h_q⟩, h_true⟩
    exact ⟨op, field, h_asks, h_field, q, h_q, h_true⟩
  · rintro ⟨op, field, h_asks, h_field, q, h_q, h_true⟩
    exact ⟨q, ⟨op, field, h_asks, h_field, h_q⟩, h_true⟩

section Asked

variable (h_asks : Asks c op)

include h_asks

theorem evalCondition_of_asks : evalCondition env e c = .ok true ↔ ∃ field left,
    fieldOf c.key = .ok field ∧ getFieldValue e field = .ok left ∧
      evalOperator env left op c.value = .ok true := by
  rw [evalCondition_eq_true]
  constructor
  · rintro ⟨op', field, left, h_asks', h⟩
    obtain rfl := h_asks.unique h_asks'
    exact ⟨field, left, h⟩
  · rintro ⟨field, left, h⟩
    exact ⟨op, field, left, h_asks, h⟩

theorem evalCondition_of_column {key : String} (h_key : c.key = .str key)
    (h_column : e.textColumn (fieldMap key) = some column) :
    evalCondition env e c = .ok true ↔ ¬(Holds env e c ↔ Turns env e c) := by
  have h_holds : Holds env e c ↔ HoldsAt env e (fieldMap key) op c.value := by
    rw [holds_iff_holdsAt, h_key]
    constructor
    · rintro ⟨op', field, h_asks', h_field, h⟩
      obtain rfl := h_asks.unique h_asks'
      cases h_field
      exact h
    · intro h
      exact ⟨op, _, h_asks, rfl, h⟩
  have h_turns : Turns env e c ↔ TurnsText env column op c.value := by
    unfold Turns
    rw [h_key]
    dsimp only
    rw [h_column]
    constructor
    · rintro ⟨op', h_asks', h⟩
      obtain rfl := h_asks.unique h_asks'
      exact h
    · intro h
      exact ⟨op, h_asks, h⟩
  have h_memory : evalCondition env e c = .ok true ↔
      evalOperator env (.ofColumn column) op c.value = .ok true := by
    rw [evalCondition_of_asks h_asks, h_key]
    constructor
    · rintro ⟨field, left, h_field, h_left, h⟩
      cases h_field
      rw [getFieldValue_of_textColumn h_column] at h_left
      cases h_left
      exact h
    · intro h
      exact ⟨_, _, rfl, getFieldValue_of_textColumn h_column, h⟩
  rw [h_memory, h_holds, h_turns]
  exact evalOperator_column h_column h_asks.2.2

theorem evalCondition_of_no_column {key : String} (h_key : c.key = .str key)
    (h_column : e.textColumn (fieldMap key) = none) :
    evalCondition env e c = .ok true ↔ ¬(Holds env e c ↔ Turns env e c) := by
  have h_memory : evalCondition env e c = .ok true ↔
      ∃ left, getFieldValue e (.str (fieldMap key)) = .ok left ∧
        evalOperator env left op c.value = .ok true := by
    rw [evalCondition_of_asks h_asks, h_key]
    constructor
    · rintro ⟨field, left, h_field, h⟩
      cases h_field
      exact ⟨left, h⟩
    · rintro ⟨left, h⟩
      exact ⟨_, left, rfl, h⟩
  have h_turns : Turns env e c ↔ ¬(evalCondition env e c = .ok true ↔ Holds env e c) := by
    rw [h_memory]
    unfold Turns
    rw [h_key]
    dsimp only
    rw [h_column]
    constructor
    · rintro ⟨op', h_asks', h⟩
      obtain rfl := h_asks.unique h_asks'
      exact h
    · intro h
      exact ⟨op, h_asks, h⟩
  rw [h_turns]
  by_cases h_true : evalCondition env e c = .ok true <;> by_cases h : Holds env e c <;>
    simp [h_true, h]

theorem evalCondition_of_not_text (h_key : ∀ key, c.key ≠ .str key) :
    evalCondition env e c = .ok true ↔ ¬(Holds env e c ↔ Turns env e c) := by
  have h_turns : Turns env e c ↔ Holds env e c := by
    unfold Turns
    cases h : c.key with
    | str key => exact absurd h (h_key key)
    | _ => exact ⟨fun ⟨_, _, h_holds⟩ => h_holds, fun h_holds => ⟨op, h_asks, h_holds⟩⟩
  rw [h_turns, evalCondition_of_asks h_asks]
  simp only [iff_self, not_true_eq_false, iff_false]
  rintro ⟨field, left, h_field, h_left, -⟩
  have h_name : ∀ name, field ≠ .str name := by
    rintro name rfl
    cases h : c.key with
    | str key => exact h_key key h
    | _ =>
      rw [h] at h_field
      cases h_field
  rw [getFieldValue_of_not_text h_name] at h_left
  cases h_left

end Asked

theorem evalCondition_iff :
    evalCondition env e c = .ok true ↔ ¬(Holds env e c ↔ Turns env e c) := by
  by_cases h_asks : ∃ op, Asks c op
  · obtain ⟨op, h_asks⟩ := h_asks
    by_cases h_text : ∃ key, c.key = .str key
    · obtain ⟨key, h_key⟩ := h_text
      cases h_column : e.textColumn (fieldMap key) with
      | some column => exact evalCondition_of_column h_asks h_key h_column
      | none => exact evalCondition_of_no_column h_asks h_key h_column
    · exact evalCondition_of_not_text h_asks fun key h_key => h_text ⟨key, h_key⟩
  · have h_holds : ¬Holds env e c := by
      rw [holds_iff_holdsAt]
      rintro ⟨op, -, h, -⟩
      exact h_asks ⟨op, h⟩
    have h_turns : ¬Turns env e c := by
      rintro ⟨op, h, -⟩
      exact h_asks ⟨op, h⟩
    rw [evalCondition_eq_true]
    simp only [h_holds, h_turns, not_true_eq_false, iff_false]
    rintro ⟨op, -, -, h, -⟩
    exact h_asks ⟨op, h⟩

end Memory

end MatchRules
end Alerts
