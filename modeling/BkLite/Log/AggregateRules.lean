import BkLite.Framework.Doubles
import BkLite.Framework.OrderedDict
import BkLite.Log.AlertGroups

/-!
# The rules of aggregate policies

An aggregate policy asks the logs for one stats function for each condition of its rule, under an
alias made of the function and of the field with its dots replaced (`_build_aggregation_query`),
reads the numbers back from the row of a group under the same aliases (`_extract_aggregate_data`),
and compares each with the value of its condition (`_check_rule_conditions`, `_compare_values` of
`services/policy_scan.py`).

The numbers of the row are the aggregates exactly; doubles round them.
-/

namespace Log.AggregateRules

open Py
open AlertGroups (Text Row value str)

/-- What Python brings: the text of a float, the printable characters, and the doubles. -/
structure Env where
  ft : FloatText
  printable : Char → Bool
  rounding : Rounding

/-- A condition; a missing value is `null`. -/
structure Condition where
  func : Option String
  field : Option String
  op : Option String
  value : Value

structure Rule where
  mode : Option String
  conditions : List Condition

/-- `condition.get("field", "_msg")`. -/
def Condition.fieldName (c : Condition) : String := c.field.getD "_msg"

/-- `field.replace('.', '_')`. -/
def dotted (field : String) : String :=
  String.ofList (field.toList.map fun c => if c = '.' then '_' else c)

/-- `f"{func}_{field.replace('.', '_')}"`. -/
def aliasName (func field : String) : String := func ++ "_" ++ dotted field

/-- `f"{func}_{field}"`. -/
def key (func field : String) : String := func ++ "_" ++ field

/-! ### The query -/

def fieldFunctions : List String := ["sum", "avg", "max", "min"]

structure StatsFunction where
  call : String
  aliasName : String
deriving DecidableEq

def StatsFunction.text (s : StatsFunction) : String := s.call ++ " as " ++ s.aliasName

def Condition.statsFunction (c : Condition) : Option StatsFunction :=
  c.func.bind fun func =>
    if func = "count" then some ⟨"count()", AggregateRules.aliasName func c.fieldName⟩
    else if func ∈ fieldFunctions then
      some ⟨func ++ "(" ++ c.fieldName ++ ")", AggregateRules.aliasName func c.fieldName⟩
    else none

def Rule.statsFunctions (rule : Rule) : List StatsFunction :=
  rule.conditions.filterMap Condition.statsFunction

def buildAggregationQuery (baseQuery : String) (groupBy : List String) (rule : Rule) :
    Except String String :=
  if rule.conditions.isEmpty then .error "rule conditions cannot be empty"
  else
    let functions := rule.statsFunctions.map StatsFunction.text
    let functions := if functions = [] then ["count() as total_count"] else functions
    let clause := ", ".intercalate (fromKeys functions)
    if groupBy = [] then .ok (baseQuery ++ " | stats " ++ clause)
    else .ok (baseQuery ++ " | stats by (" ++ ", ".intercalate groupBy ++ ") " ++ clause)

/-! ### The numbers of a row -/

/-- A value of the aggregate data. A `float` that is read may be an infinity or NaN. -/
inductive Datum
  | value (v : Value)
  | float (d : Double)

abbrev Data := OrderedDict String Datum

/-- `raw_value in [None, ""]`. -/
def blank : Value → Bool
  | .null | .str "" => true
  | _ => false

section Model

variable (env : Env)

/-- `float(str(raw_value))`. -/
def readDouble (raw : Value) : Option Double :=
  floatOfText env.rounding (str env.ft env.printable raw)

/-- The number of a count, 0 where it is none; `none` is `OverflowError`, of an infinity. -/
def readCount (raw : Value) : Option ℤ :=
  if blank raw then some 0
  else
    match readDouble env raw with
    | none | some .nan => some 0
    | some d => d.trunc

def readFloat (raw : Value) : Double :=
  if blank raw then .fin 0 else (readDouble env raw).getD (.fin 0)

def extractCondition (row : Row) (data : Data) (c : Condition) : Option Data :=
  match c.func with
  | none | some "" => some data
  | some func =>
    let raw := value row (aliasName func c.fieldName)
    if func = "count" then do
      let n ← readCount env (raw.getD ((value row "total_count").getD (.int 0)))
      let data := OrderedDict.set data (key func c.fieldName) (.value (.int n))
      return if (OrderedDict.get data "count").isSome then data
        else OrderedDict.set data "count" (.value (.int n))
    else if func ∈ fieldFunctions then
      some (OrderedDict.set data (key func c.fieldName)
        (.float (readFloat env (raw.getD (.int 0)))))
    else some (OrderedDict.set data (key func c.fieldName) (.value (raw.getD (.int 0))))

def extractAggregateData (row : Row) (rule : Rule) : Option Data :=
  rule.conditions.foldlM (extractCondition env row) []

/-! ### The comparison -/

/-- `1e-10`. -/
def tolerance : Double := env.rounding.round (1 / 10 ^ 10)

def comparison (op : String) : Option (Double → Double → Bool) :=
  match op with
  | ">" => some fun x y => y.lt x
  | "<" => some fun x y => x.lt y
  | "=" => some fun x y => (env.rounding.sub x y).abs.lt (tolerance env)
  | "!=" => some fun x y => (tolerance env).le (env.rounding.sub x y).abs
  | ">=" => some fun x y => y.le x
  | "<=" => some fun x y => x.le y
  | _ => none

/-- The double that a value is compared as: none if it is no number, or if `float` raises. -/
def asDouble : Datum → Option Double
  | .float d => some d
  | .value (.bool b) => some (.fin (if b then 1 else 0))
  | .value (.int i) =>
    match env.rounding.round i with
    | .inf _ => none
    | d => some d
  | .value (.float q) => some (.fin q)
  | .value (.str s) =>
    if isDigits (s.toList.filter fun c => c ≠ '.' && c ≠ '-') then
      floatOfText env.rounding s.toList
    else none
  | .value _ => none

/-- `str` of a value of the data. -/
def Datum.str : Datum → Text
  | .value v => AlertGroups.str env.ft env.printable v
  | .float (.fin q) => env.ft.text q
  | .float (.inf neg) => (if neg then "-inf" else "inf").toList
  | .float .nan => "nan".toList

/-- `actual_value == x`. -/
def Datum.equal : Datum → Value → Bool
  | .value v, x => v.equal x
  | .float (.fin q), x => (Value.float q).equal x
  | .float _, _ => false

/-- `actual_value in expected_value`. -/
def within (actual : Datum) : Value → Bool
  | .list xs => xs.any actual.equal
  | v => str env.ft env.printable v <:+: actual.str env

def compareValues (actual : Datum) (op : String) (expected : Value) : Bool :=
  match comparison env op with
  | some compare =>
    match asDouble env actual, asDouble env (.value expected) with
    | some x, some y => compare x y
    -- two numbers have been compared above; what is left are no operands of `op`, or an exception
    | _, _ => false
  | none =>
    match op with
    | "in" => within env actual expected
    | "nin" => !within env actual expected
    | _ => false

/-- `aggregate_data.get(..)`. -/
def actualValue (data : Data) (func field : String) : Datum :=
  let own := (OrderedDict.get data (key func field)).getD (.value (.int 0))
  if func = "count" then (OrderedDict.get data "count").getD own else own

/-- `expected_value is None`. -/
def missing : Value → Bool
  | .null => true
  | _ => false

def checkCondition (data : Data) (c : Condition) : Option Bool :=
  match c.func, c.op with
  | some func, some op =>
    if func = "" ∨ op = "" ∨ missing c.value then none
    else some (compareValues env (actualValue data func c.fieldName) op c.value)
  | _, _ => none

def checkRuleConditions (data : Data) (rule : Rule) : Bool :=
  let results := rule.conditions.filterMap (checkCondition env data)
  if results = [] then false
  else
    match rule.mode.getD "and" with
    | "and" => results.all id
    | "or" => results.any id
    | _ => false

/-- A rule on a row; `none` is an exception. -/
def evaluate (row : Row) (rule : Rule) : Option Bool :=
  (extractAggregateData env row rule).map fun data => checkRuleConditions env data rule

end Model

/-! ### What is asked of a rule -/

structure Group where
  count : ℕ
  stat : String → String → ℚ
  few : count < 2 ^ 64

def Group.aggregate (g : Group) (func field : String) : ℚ :=
  if func = "count" then g.count else g.stat func field

def number : Value → Option ℚ
  | .int i => some i
  | .float q => some q
  | .str s => if isDecimal s.toList then numeral s.toList else none
  | _ => none

def operators : List String := [">", "<", "=", "!=", ">=", "<="]

def exactly (op : String) (q r : ℚ) : Bool :=
  match op with
  | ">" => r < q
  | "<" => q < r
  | "=" => |q - r| < 1 / 10 ^ 10
  | "!=" => 1 / 10 ^ 10 ≤ |q - r|
  | ">=" => r ≤ q
  | "<=" => q ≤ r
  | _ => false

def Condition.met (c : Condition) (g : Group) : Bool :=
  match c.func, c.op, number c.value with
  | some func, some op, some r => exactly op (g.aggregate func c.fieldName) r
  | _, _, _ => false

def Rule.holds (rule : Rule) (g : Group) : Bool :=
  if rule.mode = some "or" then rule.conditions.any (·.met g) else rule.conditions.all (·.met g)

section Spec

variable (env : Env)

/-- A supported function, an operator of numbers and a number; a float is a double. -/
structure Condition.Valid (c : Condition) : Prop where
  func : ∃ func ∈ "count" :: fieldFunctions, c.func = some func
  op : ∃ op ∈ operators, c.op = some op
  value : (number c.value).isSome
  double : ∀ q, c.value = .float q → env.rounding.round q = .fin q

structure Rule.Valid (rule : Rule) : Prop where
  mode : rule.mode = none ∨ rule.mode = some "and" ∨ rule.mode = some "or"
  nonempty : rule.conditions ≠ []
  conditions : ∀ c ∈ rule.conditions, c.Valid env

def Returns (g : Group) (rule : Rule) (row : Row) : Prop :=
  ∀ c ∈ rule.conditions, ∀ func, c.func = some func →
    ∃ raw, value row (aliasName func c.fieldName) = some raw ∧
      numeral (str env.ft env.printable raw) = some (g.aggregate func c.fieldName)

/-- **What is asked.** No two aggregates have one alias, and the rule comes out as in exact
arithmetic. -/
def Evaluated (g : Group) (rule : Rule) (row : Row) : Prop :=
  (∀ s ∈ rule.statsFunctions, ∀ s' ∈ rule.statsFunctions,
      s.aliasName = s'.aliasName → s.call = s'.call) ∧
    evaluate env row rule = some (rule.holds g)

/-! ### When it is so -/

def Rule.Apart (rule : Rule) : Prop :=
  ∀ c ∈ rule.conditions, ∀ c' ∈ rule.conditions, c.func = c'.func → c.func ≠ some "count" →
    dotted c.fieldName = dotted c'.fieldName → c.fieldName = c'.fieldName

def Readable (v : Value) : Prop :=
  (∀ s, v = .str s → '+' ∉ s.toList) ∧
    ∀ i : ℤ, v = .int i → ∃ q, env.rounding.round i = .fin q

/-- Rounding does not take the two numbers together, nor across the tolerance. -/
def Kept (op : String) (q r : ℚ) : Prop :=
  match op with
  | ">" | "<=" => r < q → env.rounding.round q ≠ env.rounding.round r
  | "<" | ">=" => q < r → env.rounding.round q ≠ env.rounding.round r
  | "=" =>
    (env.rounding.sub (env.rounding.round q) (env.rounding.round r)).abs.lt (tolerance env) = true ↔
      |q - r| < 1 / 10 ^ 10
  | _ =>
    (tolerance env).le (env.rounding.sub (env.rounding.round q) (env.rounding.round r)).abs = true ↔
      1 / 10 ^ 10 ≤ |q - r|

/-- A condition is compared right. -/
def Condition.Sound (c : Condition) (g : Group) : Prop :=
  (Readable env c.value → ∀ func op r, c.func = some func → c.op = some op →
      number c.value = some r → Kept env op (g.aggregate func c.fieldName) r) ∧
    (¬Readable env c.value → c.met g = false)

def Rule.decisive (rule : Rule) : Bool := rule.mode = some "or"

/-- The conditions that are compared wrong do not decide. -/
def Rule.Undistorted (rule : Rule) (g : Group) : Prop :=
  if ∃ c ∈ rule.conditions, c.met g = rule.decisive then
    ∃ c ∈ rule.conditions, c.met g = rule.decisive ↔ c.Sound env g
  else ∀ c ∈ rule.conditions, c.Sound env g

end Spec

/-! ### Aliases -/

section Aliases

variable {func func' field field' : String} {c c' : Condition}

theorem notMem_of_supported (h : func ∈ "count" :: fieldFunctions) : '_' ∉ func.toList := by
  simp only [fieldFunctions, List.mem_cons, List.not_mem_nil, or_false] at h
  obtain rfl | rfl | rfl | rfl | rfl := h
  all_goals decide

theorem key_inj (h : func ∈ "count" :: fieldFunctions) (h' : func' ∈ "count" :: fieldFunctions)
    (h_eq : key func field = key func' field') : func = func' ∧ field = field' := by
  have h_list : func.toList ++ '_' :: field.toList = func'.toList ++ '_' :: field'.toList := by
    simpa [key, String.toList_append] using congrArg String.toList h_eq
  obtain ⟨h_func, h_field⟩ :=
    List.cut_inj (notMem_of_supported h) (notMem_of_supported h') h_list
  exact ⟨String.toList_inj.mp h_func, String.toList_inj.mp h_field⟩

theorem key_ne_count : key func field ≠ "count" := by
  intro h_eq
  have h_in : '_' ∈ "count".toList := by
    rw [← h_eq]
    simp [key, String.toList_append]
  exact absurd h_in (by decide)

theorem call_inj : func ++ "(" ++ field ++ ")" = func ++ "(" ++ field' ++ ")" ↔
    field = field' := by
  constructor
  · intro h_eq
    have h_list := congrArg String.toList h_eq
    simpa [String.toList_append, String.toList_inj] using h_list
  · rintro rfl
    rfl

theorem statsFunction_of_supported (h : func ∈ "count" :: fieldFunctions)
    (h_func : c.func = some func) : c.statsFunction =
      some ⟨if func = "count" then "count()" else func ++ "(" ++ c.fieldName ++ ")",
        aliasName func c.fieldName⟩ := by
  unfold Condition.statsFunction
  rw [h_func, Option.bind_some]
  split_ifs with h_count h_field
  · rfl
  · rfl
  · exact absurd (List.mem_cons.mp h) (by simp [h_count, h_field])

theorem aliases_iff {rule : Rule}
    (h : ∀ c ∈ rule.conditions, ∃ func ∈ "count" :: fieldFunctions, c.func = some func) :
    (∀ s ∈ rule.statsFunctions, ∀ s' ∈ rule.statsFunctions,
      s.aliasName = s'.aliasName → s.call = s'.call) ↔ rule.Apart := by
  constructor
  · intro h_call c h_c c' h_c' h_same h_count h_dotted
    obtain ⟨func, h_in, h_func⟩ := h c h_c
    have h_ne : func ≠ "count" := fun h_eq => h_count (h_func.trans (congrArg some h_eq))
    have h_s := statsFunction_of_supported h_in h_func
    have h_s' := statsFunction_of_supported h_in (h_same ▸ h_func)
    have h_calls := h_call _ (List.mem_filterMap.mpr ⟨c, h_c, h_s⟩) _
      (List.mem_filterMap.mpr ⟨c', h_c', h_s'⟩)
      (by show aliasName _ _ = aliasName _ _; rw [aliasName, h_dotted]; rfl)
    dsimp only at h_calls
    rw [if_neg h_ne, if_neg h_ne] at h_calls
    exact call_inj.mp h_calls
  · intro h_apart s h_s s' h_s' h_alias
    obtain ⟨c, h_c, h_s⟩ := List.mem_filterMap.mp h_s
    obtain ⟨c', h_c', h_s'⟩ := List.mem_filterMap.mp h_s'
    obtain ⟨func, h_in, h_func⟩ := h c h_c
    obtain ⟨func', h_in', h_func'⟩ := h c' h_c'
    cases h_s.symm.trans (statsFunction_of_supported h_in h_func)
    cases h_s'.symm.trans (statsFunction_of_supported h_in' h_func')
    obtain ⟨rfl, h_dotted⟩ := key_inj h_in h_in' h_alias
    dsimp only
    split_ifs with h_count
    · rfl
    · have h_not : c.func ≠ some "count" := fun h_eq =>
        h_count (Option.some.inj (h_func.symm.trans h_eq))
      rw [h_apart c h_c c' h_c' (h_func.trans h_func'.symm) h_not h_dotted]

end Aliases

/-! ### The numbers are read as they are -/

section Reading

variable {env : Env} {g : Group} {rule : Rule} {row : Row} {c : Condition} {raw : Value} {q : ℚ}
  {func : String} {data : Data} {done : List Condition}

theorem blank_eq_false (h : numeral (str env.ft env.printable raw) = some q) :
    blank raw = false := by
  unfold blank
  split
  · have h_none : numeral "None".toList = some q := h
    rw [show numeral "None".toList = none by decide] at h_none
    cases h_none
  · have h_none : numeral "".toList = some q := h
    rw [show numeral "".toList = none by decide] at h_none
    cases h_none
  · rfl

theorem readDouble_eq (h : numeral (str env.ft env.printable raw) = some q) :
    readDouble env raw = some (env.rounding.round q) := floatOfText_of_numeral h

theorem readFloat_eq (h : numeral (str env.ft env.printable raw) = some q) :
    readFloat env raw = env.rounding.round q := by
  rw [readFloat, blank_eq_false h, readDouble_eq h]
  rfl

theorem readCount_eq (h : numeral (str env.ft env.printable raw) = some (g.count : ℚ)) :
    ∃ n, readCount env raw = some n ∧
      asDouble env (.value (.int n)) = some (env.rounding.round g.count) := by
  have h_small : |(g.count : ℚ)| ≤ 2 ^ 1023 := by
    rw [abs_of_nonneg (Nat.cast_nonneg _)]
    calc (g.count : ℚ) ≤ 2 ^ 64 := by exact_mod_cast g.few.le
      _ ≤ 2 ^ 1023 := pow_le_pow_right₀ one_le_two (by decide)
  obtain ⟨r, h_r⟩ := env.rounding.finite h_small
  obtain ⟨m, rfl⟩ := @Rounding.int env.rounding (g.count : ℤ) r (by exact_mod_cast h_r)
  refine ⟨m, ?_, ?_⟩
  · rw [readCount, blank_eq_false h, readDouble_eq h, h_r]
    exact Double.trunc_fin_int m
  · unfold asDouble
    dsimp only
    rw [env.rounding.idem h_r, h_r]

/-- What the data holds once some of the conditions are extracted. -/
structure Extracted (env : Env) (g : Group) (done : List Condition) (data : Data) : Prop where
  count : ∀ d, OrderedDict.get data "count" = some d →
    asDouble env d = some (env.rounding.round g.count)
  counted : ∀ c ∈ done, c.func = some "count" → (OrderedDict.get data "count").isSome
  field : ∀ c ∈ done, ∀ func ∈ fieldFunctions, c.func = some func →
    ∃ d, OrderedDict.get data (key func c.fieldName) = some d ∧
      asDouble env d = some (env.rounding.round (g.stat func c.fieldName))

theorem Extracted.concat_field (h : Extracted env g done data) {d : Datum}
    (h_in : func ∈ fieldFunctions) (h_func : c.func = some func)
    (h_d : asDouble env d = some (env.rounding.round (g.stat func c.fieldName))) :
    Extracted env g (done ++ [c]) (OrderedDict.set data (key func c.fieldName) d) := by
  have h_supported : func ∈ "count" :: fieldFunctions := List.mem_cons_of_mem _ h_in
  have h_same : OrderedDict.get (OrderedDict.set data (key func c.fieldName) d) "count" =
      OrderedDict.get data "count" := by
    rw [OrderedDict.get_set, if_neg key_ne_count]
  refine ⟨fun d' h_d' => h.count d' (h_same ▸ h_d'), fun c' h_c' h_count => ?_,
    fun c' h_c' func' h_in' h_func' => ?_⟩
  · rw [h_same]
    obtain h_old | h_new := List.mem_append.mp h_c'
    · exact h.counted c' h_old h_count
    · rw [List.mem_singleton.mp h_new, h_func] at h_count
      rw [Option.some.inj h_count] at h_in
      exact absurd h_in (by decide)
  · rw [OrderedDict.get_set]
    split_ifs with h_key
    · -- the same key is that of the same function and field
      obtain ⟨rfl, h_field⟩ := key_inj h_supported (List.mem_cons_of_mem _ h_in') h_key
      exact ⟨d, rfl, h_field ▸ h_d⟩
    · obtain h_old | h_new := List.mem_append.mp h_c'
      · exact h.field c' h_old func' h_in' h_func'
      · rw [List.mem_singleton.mp h_new] at h_func' h_key
        exact absurd (Option.some.inj (h_func.symm.trans h_func') ▸ rfl) h_key

theorem Extracted.concat_count (h : Extracted env g done data) {d : Datum}
    (h_func : c.func = some "count")
    (h_d : asDouble env d = some (env.rounding.round g.count)) {field : String} :
    Extracted env g (done ++ [c])
      (if (OrderedDict.get (OrderedDict.set data (key "count" field) d) "count").isSome then
        OrderedDict.set data (key "count" field) d
      else OrderedDict.set (OrderedDict.set data (key "count" field) d) "count" d) := by
  have h_same : OrderedDict.get (OrderedDict.set data (key "count" field) d) "count" =
      OrderedDict.get data "count" := by
    rw [OrderedDict.get_set, if_neg key_ne_count]
  have h_kept : ∀ c' ∈ done ++ [c], ∀ func' ∈ fieldFunctions, c'.func = some func' →
      ∃ d', OrderedDict.get (OrderedDict.set data (key "count" field) d)
        (key func' c'.fieldName) = some d' ∧
          asDouble env d' = some (env.rounding.round (g.stat func' c'.fieldName)) := by
    intro c' h_c' func' h_in' h_func'
    have h_ne : func' ≠ "count" := by
      rintro rfl
      exact absurd h_in' (by decide)
    rw [OrderedDict.get_set, if_neg fun h_key =>
      h_ne (key_inj List.mem_cons_self (List.mem_cons_of_mem _ h_in') h_key).1.symm]
    obtain h_old | h_new := List.mem_append.mp h_c'
    · exact h.field c' h_old func' h_in' h_func'
    · rw [List.mem_singleton.mp h_new] at h_func'
      exact absurd (Option.some.inj (h_func'.symm.trans h_func)) h_ne
  split_ifs with h_there
  · refine ⟨fun d' h_d' => h.count d' (h_same ▸ h_d'), fun _ _ _ => h_there, h_kept⟩
  · refine ⟨fun d' h_d' => ?_, fun _ _ _ => ?_, fun c' h_c' func' h_in' h_func' => ?_⟩
    · rw [OrderedDict.get_set, if_pos rfl] at h_d'
      exact Option.some.inj h_d' ▸ h_d
    · rw [OrderedDict.get_set, if_pos rfl]
      rfl
    · rw [OrderedDict.get_set, if_neg (Ne.symm key_ne_count)]
      exact h_kept c' h_c' func' h_in' h_func'

theorem Extracted.step (h : Extracted env g done data)
    (h_func : func ∈ "count" :: fieldFunctions) (h_c : c.func = some func)
    (h_row : ∃ raw, value row (aliasName func c.fieldName) = some raw ∧
      numeral (str env.ft env.printable raw) = some (g.aggregate func c.fieldName)) :
    ∃ data', extractCondition env row data c = some data' ∧
      Extracted env g (done ++ [c]) data' := by
  obtain ⟨raw, h_raw, h_numeral⟩ := h_row
  have h_ne : func ≠ "" := by
    rintro rfl
    exact absurd h_func (by decide)
  unfold extractCondition
  rw [h_c]
  split
  · next h_eq => cases h_eq
  · next h_eq => exact absurd (Option.some.inj h_eq) h_ne
  · next func' _ h_eq =>
    obtain rfl := Option.some.inj h_eq
    dsimp only
    rw [h_raw, Option.getD_some, Option.getD_some]
    unfold Group.aggregate at h_numeral
    split_ifs at h_numeral ⊢ with h_count h_field
    · subst h_count
      obtain ⟨n, h_n, h_double⟩ := readCount_eq h_numeral
      exact ⟨_, by rw [h_n]; rfl, h.concat_count h_c h_double⟩
    · refine ⟨_, rfl, h.concat_field h_field h_c ?_⟩
      rw [readFloat_eq h_numeral]
      rfl
    · exact absurd (List.mem_cons.mp h_func) (by simp [h_count, h_field])

theorem extracted (h_valid : ∀ c ∈ rule.conditions, c.Valid env) (h_row : Returns env g rule row) :
    ∃ data, extractAggregateData env row rule = some data ∧
      Extracted env g rule.conditions data := by
  have h_run : ∀ cs done data, (∀ c ∈ cs, c ∈ rule.conditions) → Extracted env g done data →
      ∃ data', cs.foldlM (extractCondition env row) data = some data' ∧
        Extracted env g (done ++ cs) data' := by
    intro cs
    induction cs with
    | nil =>
      intro done data _ h
      exact ⟨data, rfl, by rwa [List.append_nil]⟩
    | cons c cs ih =>
      intro done data h_in h
      have h_c := h_in c List.mem_cons_self
      obtain ⟨func, h_func, h_some⟩ := (h_valid c h_c).func
      obtain ⟨data', h_data', h'⟩ := h.step h_func h_some (h_row c h_c func h_some)
      obtain ⟨data'', h_data'', h''⟩ :=
        ih (done ++ [c]) data' (fun c' h_c' => h_in c' (List.mem_cons_of_mem c h_c')) h'
      refine ⟨data'', ?_, by rwa [List.append_assoc] at h''⟩
      rw [List.foldlM_cons, h_data']
      exact h_data''
  exact h_run rule.conditions [] [] (fun _ h_c => h_c)
    ⟨fun d h_d => absurd h_d (Option.some_ne_none d).symm, fun _ h_c => absurd h_c List.not_mem_nil,
      fun _ h_c => absurd h_c List.not_mem_nil⟩

theorem Extracted.actual (h : Extracted env g done data) (h_c : c ∈ done)
    (h_in : func ∈ "count" :: fieldFunctions) (h_func : c.func = some func) :
    asDouble env (actualValue data func c.fieldName) =
      some (env.rounding.round (g.aggregate func c.fieldName)) := by
  unfold actualValue Group.aggregate
  dsimp only
  split_ifs with h_count
  · obtain ⟨d, h_d⟩ := Option.isSome_iff_exists.mp (h.counted c h_c (h_count ▸ h_func))
    rw [h_d]
    exact h.count d h_d
  · have h_field : func ∈ fieldFunctions := (List.mem_cons.mp h_in).resolve_left h_count
    obtain ⟨d, h_d, h_double⟩ := h.field c h_c func h_field h_func
    rw [h_d]
    exact h_double

end Reading

/-! ### The comparison of one condition -/

section Comparison

variable {env : Env} {g : Group} {rule : Rule} {row : Row} {c : Condition} {q r : ℚ}
  {func op : String} {v : Value} {actual : Datum}

theorem comparison_kept (h_op : op ∈ operators) : ∃ compare, comparison env op = some compare ∧
    (compare (env.rounding.round q) (env.rounding.round r) = exactly op q r ↔ Kept env op q r) := by
  have h_lt := @Rounding.lt_round_iff env.rounding
  have h_le := @Rounding.le_round_iff env.rounding
  simp only [operators, List.mem_cons, List.not_mem_nil, or_false] at h_op
  obtain rfl | rfl | rfl | rfl | rfl | rfl := h_op
  · refine ⟨_, rfl, ?_⟩
    show (Double.lt _ _ = decide (r < q)) ↔ (r < q → _)
    rw [Bool.eq_iff_iff, h_lt, decide_eq_true_iff]
    exact ⟨fun h h_rq => (h.mpr h_rq).2.symm, fun h =>
      ⟨And.left, fun h_rq => ⟨h_rq, (h h_rq).symm⟩⟩⟩
  · refine ⟨_, rfl, ?_⟩
    show (Double.lt _ _ = decide (q < r)) ↔ (q < r → _)
    rw [Bool.eq_iff_iff, h_lt, decide_eq_true_iff]
    exact ⟨fun h h_qr => (h.mpr h_qr).2, fun h => ⟨And.left, fun h_qr => ⟨h_qr, h h_qr⟩⟩⟩
  · refine ⟨_, rfl, ?_⟩
    show (Double.lt _ _ = decide (|q - r| < 1 / 10 ^ 10)) ↔ (_ = true ↔ _)
    rw [Bool.eq_iff_iff, decide_eq_true_iff]
  · refine ⟨_, rfl, ?_⟩
    show (Double.le _ _ = decide (1 / 10 ^ 10 ≤ |q - r|)) ↔ (_ = true ↔ _)
    rw [Bool.eq_iff_iff, decide_eq_true_iff]
  · refine ⟨_, rfl, ?_⟩
    show (Double.le _ _ = decide (r ≤ q)) ↔ (q < r → _)
    rw [Bool.eq_iff_iff, h_le, decide_eq_true_iff]
    refine ⟨fun h h_qr h_eq => not_le.mpr h_qr (h.mp (.inr h_eq.symm)), fun h => ⟨?_, .inl⟩⟩
    exact fun h_or => h_or.elim id fun h_eq => not_lt.mp fun h_qr => h h_qr h_eq.symm
  · refine ⟨_, rfl, ?_⟩
    show (Double.le _ _ = decide (q ≤ r)) ↔ (r < q → _)
    rw [Bool.eq_iff_iff, h_le, decide_eq_true_iff]
    refine ⟨fun h h_rq h_eq => not_le.mpr h_rq (h.mp (.inr h_eq)), fun h => ⟨?_, .inl⟩⟩
    exact fun h_or => h_or.elim id fun h_eq => not_lt.mp fun h_rq => h h_rq h_eq

theorem readable_int {i : ℤ} :
    Readable env (.int i) ↔ ∃ q, env.rounding.round i = .fin q := by
  simp [Readable]

theorem readable_float : Readable env (.float q) := by
  simp [Readable]

theorem readable_str {s : String} : Readable env (.str s) ↔ '+' ∉ s.toList := by
  simp [Readable]

theorem asDouble_value (h : number v = some r) (h_double : ∀ q, v = .float q →
    env.rounding.round q = .fin q) :
    (Readable env v → asDouble env (.value v) = some (env.rounding.round r)) ∧
      (¬Readable env v → asDouble env (.value v) = none) := by
  cases v with
  | null => cases h
  | bool b => cases h
  | list xs => cases h
  | dict kvs => cases h
  | int i =>
    obtain rfl := Option.some.inj h
    rw [readable_int]
    have h_self := env.rounding.mono (le_refl (i : ℚ))
    unfold asDouble
    dsimp only
    cases h_round : env.rounding.round i with
    | fin q => exact ⟨fun _ => rfl, fun h => absurd ⟨q, rfl⟩ h⟩
    | inf neg => exact ⟨fun ⟨q, h_q⟩ => absurd h_q (by simp), fun _ => rfl⟩
    | nan =>
      rw [h_round] at h_self
      exact absurd h_self (by decide)
  | float q =>
    obtain rfl := Option.some.inj h
    refine ⟨fun _ => ?_, fun h => absurd readable_float h⟩
    rw [h_double q rfl]
    rfl
  | str s =>
    unfold number at h
    dsimp only at h
    split_ifs at h with h_decimal
    rw [readable_str, ← isDigits_filter_iff h_decimal]
    unfold asDouble
    dsimp only
    refine ⟨fun h_true => ?_, fun h_not => if_neg h_not⟩
    rw [if_pos h_true, floatOfText_of_numeral h]

theorem compareValues_eq_iff (h : c.Valid env) (h_func : c.func = some func) (h_op : c.op = some op)
    (h_actual : asDouble env actual = some (env.rounding.round (g.aggregate func c.fieldName))) :
    compareValues env actual op c.value = c.met g ↔ c.Sound env g := by
  obtain ⟨op', h_in, h_op'⟩ := h.op
  obtain rfl := Option.some.inj (h_op.symm.trans h_op')
  obtain ⟨r, h_r⟩ := Option.isSome_iff_exists.mp h.value
  obtain ⟨compare, h_compare, h_kept⟩ :=
    @comparison_kept env (g.aggregate func c.fieldName) r op h_in
  obtain ⟨h_read, h_not⟩ := asDouble_value h_r h.double
  have h_met : c.met g = exactly op (g.aggregate func c.fieldName) r := by
    unfold Condition.met
    rw [h_func, h_op, h_r]
  unfold compareValues Condition.Sound
  rw [h_compare, h_actual]
  by_cases h_readable : Readable env c.value
  · rw [h_read h_readable, h_met]
    refine h_kept.trans ⟨fun h_k => ⟨fun _ func' op' r' h_func' h_op' h_r' => ?_,
      fun h_n => absurd h_readable h_n⟩, fun h_s => h_s.1 h_readable func op r h_func h_op h_r⟩
    obtain rfl := Option.some.inj (h_func.symm.trans h_func')
    obtain rfl := Option.some.inj (h_op.symm.trans h_op')
    obtain rfl := Option.some.inj (h_r.symm.trans h_r')
    exact h_k
  · rw [h_not h_readable]
    exact ⟨fun h_false => ⟨fun h_y => absurd h_y h_readable, fun _ => h_false.symm⟩,
      fun h_s => (h_s.2 h_readable).symm⟩

end Comparison

/-! ### A rule -/

section Evaluation

variable {env : Env} {g : Group} {rule : Rule} {row : Row} {c : Condition} {data : Data}

theorem checkCondition_eq (h : c.Valid env) (h_data : Extracted env g rule.conditions data)
    (h_c : c ∈ rule.conditions) :
    ∃ b, checkCondition env data c = some b ∧ (b = c.met g ↔ c.Sound env g) := by
  obtain ⟨func, h_func, h_some⟩ := h.func
  obtain ⟨op, h_op, h_some_op⟩ := h.op
  have h_actual := h_data.actual h_c h_func h_some
  refine ⟨_, ?_, compareValues_eq_iff h h_some h_some_op h_actual⟩
  have h_complete : ¬(func = "" ∨ op = "" ∨ missing c.value = true) := by
    rintro (rfl | rfl | h_missing)
    · exact absurd h_func (by decide)
    · exact absurd h_op (by decide)
    · have h_value := h.value
      cases h_v : c.value <;> simp_all [missing, number]
  unfold checkCondition
  rw [h_some, h_some_op]
  exact if_neg h_complete

def Condition.result (env : Env) (data : Data) (c : Condition) : Bool :=
  (checkCondition env data c).getD false

theorem checkRuleConditions_eq (h : rule.Valid env)
    (h_data : Extracted env g rule.conditions data) :
    checkRuleConditions env data rule =
      if rule.mode = some "or" then rule.conditions.any (·.result env data)
      else rule.conditions.all (·.result env data) := by
  have h_results : rule.conditions.filterMap (checkCondition env data) =
      rule.conditions.map (·.result env data) := by
    rw [← List.filterMap_eq_map]
    refine List.filterMap_congr fun c h_c => ?_
    obtain ⟨b, h_b, -⟩ := checkCondition_eq (h.conditions c h_c) h_data h_c
    simp [Condition.result, h_b]
  unfold checkRuleConditions
  dsimp only
  rw [h_results, if_neg (by simpa using h.nonempty)]
  obtain h_mode | h_mode | h_mode := h.mode
  all_goals
    rw [h_mode]
    simp [List.all_map, List.any_map]

theorem combine_eq_iff {f f' : Condition → Bool} :
    ((if rule.mode = some "or" then rule.conditions.any f else rule.conditions.all f) =
      if rule.mode = some "or" then rule.conditions.any f' else rule.conditions.all f') ↔
    ((∃ c ∈ rule.conditions, f c = rule.decisive) ↔
      ∃ c ∈ rule.conditions, f' c = rule.decisive) := by
  unfold Rule.decisive
  split_ifs with h_mode
  · rw [decide_eq_true h_mode, Bool.eq_iff_iff, List.any_eq_true, List.any_eq_true]
  · have h_all : ∀ f : Condition → Bool,
        rule.conditions.all f = true ↔ ¬∃ c ∈ rule.conditions, f c = false := by
      intro f
      rw [List.all_eq_true]
      push Not
      simp only [ne_eq, Bool.not_eq_false]
    rw [decide_eq_false h_mode, Bool.eq_iff_iff, h_all, h_all, not_iff_not]

/-- **When a rule is evaluated on the right numbers.** -/
theorem evaluated_iff (h : rule.Valid env) (h_row : Returns env g rule row) :
    Evaluated env g rule row ↔ rule.Apart ∧ rule.Undistorted env g := by
  obtain ⟨data, h_extract, h_data⟩ := extracted h.conditions h_row
  have h_each : ∀ c ∈ rule.conditions, c.result env data = c.met g ↔ c.Sound env g := by
    intro c h_c
    obtain ⟨b, h_b, h_iff⟩ := checkCondition_eq (h.conditions c h_c) h_data h_c
    rwa [Condition.result, h_b]
  have h_check : evaluate env row rule = some (rule.holds g) ↔ rule.Undistorted env g := by
    unfold evaluate Rule.holds
    rw [h_extract, Option.map_some, Option.some_inj, checkRuleConditions_eq h h_data,
      combine_eq_iff, List.exists_answer_iff h_each]
    rfl
  exact and_congr (aliases_iff fun c h_c => (h.conditions c h_c).func) h_check

section Examples

private def plain : Env := ⟨AlertGroups.floats, fun _ => true, .exact⟩

private def threeLogs : Group := ⟨3, fun _ _ => 12, by decide⟩

private def busy : Rule :=
  ⟨none, [⟨some "count", none, some ">", .int 2⟩,
    ⟨some "sum", some "bytes", some ">=", .str "12"⟩]⟩

private def busyRow : Row := [("count__msg", .str "3"), ("sum_bytes", .str "12")]

private def twoSums : Rule :=
  ⟨none, [⟨some "sum", some "a.b", some ">", .int 2⟩, ⟨some "sum", some "a_b", some ">", .int 2⟩]⟩

private def sumRow : Row := [("sum_a_b", .str "12")]

private theorem busy_valid : busy.Valid plain where
  mode := .inl rfl
  nonempty := List.cons_ne_nil _ _
  conditions c h_c := by
    obtain rfl | h_c := List.mem_cons.mp h_c
    · exact ⟨⟨_, List.mem_cons_self, rfl⟩, ⟨_, List.mem_cons_self, rfl⟩, rfl, fun _ _ => rfl⟩
    · obtain rfl := List.mem_singleton.mp h_c
      exact ⟨⟨"sum", by decide, rfl⟩, ⟨">=", by decide, rfl⟩, by decide +kernel, fun _ _ => rfl⟩

private theorem busy_returns : Returns plain threeLogs busy busyRow := by
  intro c h_c func h_func
  obtain rfl | h_c := List.mem_cons.mp h_c
  · obtain rfl := Option.some.inj h_func
    exact ⟨.str "3", rfl, by decide +kernel⟩
  · obtain rfl := List.mem_singleton.mp h_c
    obtain rfl := Option.some.inj h_func
    exact ⟨.str "12", rfl, by decide +kernel⟩

theorem evaluated_busy : busy.Valid plain ∧ Returns plain threeLogs busy busyRow ∧
    (Evaluated plain threeLogs busy busyRow ↔ busy.Apart ∧ busy.Undistorted plain threeLogs) :=
  ⟨busy_valid, busy_returns, evaluated_iff busy_valid busy_returns⟩

theorem not_evaluated : ¬∀ (env : Env) (g : Group) (rule : Rule) (row : Row), rule.Valid env →
    Returns env g rule row → Evaluated env g rule row := by
  intro h
  have h_valid : twoSums.Valid plain := by
    refine ⟨.inl rfl, List.cons_ne_nil _ _, fun c h_c => ?_⟩
    obtain rfl | h_c := List.mem_cons.mp h_c
    · exact ⟨⟨"sum", by decide, rfl⟩, ⟨_, List.mem_cons_self, rfl⟩, rfl, fun _ _ => rfl⟩
    · obtain rfl := List.mem_singleton.mp h_c
      exact ⟨⟨"sum", by decide, rfl⟩, ⟨_, List.mem_cons_self, rfl⟩, rfl, fun _ _ => rfl⟩
  have h_returns : Returns plain threeLogs twoSums sumRow := by
    intro c h_c func h_func
    obtain rfl | h_c := List.mem_cons.mp h_c
    · obtain rfl := Option.some.inj h_func
      exact ⟨.str "12", rfl, by decide +kernel⟩
    · obtain rfl := List.mem_singleton.mp h_c
      obtain rfl := Option.some.inj h_func
      exact ⟨.str "12", rfl, by decide +kernel⟩
  have h_call := (h plain threeLogs twoSums sumRow h_valid h_returns).1
    ⟨"sum(a.b)", "sum_a_b"⟩ (by decide +kernel) ⟨"sum(a_b)", "sum_a_b"⟩ (by decide +kernel) rfl
  exact absurd h_call (by decide)

end Examples

end Evaluation

end Log.AggregateRules
