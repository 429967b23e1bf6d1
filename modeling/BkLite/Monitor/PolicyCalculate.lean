import BkLite.Framework.Collect
import BkLite.Framework.Doubles
import BkLite.Framework.OrderedDict
import BkLite.Monitor.PolicyScan

/-!
# Threshold evaluation

`calculate_alerts` of `tasks/utils/policy_calculate.py`. Each series with enough values gets an
event: an alert of the first threshold, in the order of the level weights, that all of its last
values meet, or an info event. Since the order is by weight, the order in which the thresholds are
given changes neither the weight of an alert nor which series are alerts.
-/

namespace Monitor.PolicyCalculate

open Py PolicyScan

/-! ### Data -/

structure Row where
  instanceId : List Cell
  values : List (ℤ × String)
  /-- The other columns. -/
  columns : List (String × Cell) := []
deriving DecidableEq

structure TemplateContext where
  monitorObject : String := ""
  metricName : String := ""
  instancesMap : List (String × String) := []
  instanceIdKeys : List String := []
  displayUnit : String := ""
  enumValueMap : List (ℤ × String) := []
  dimensionNameMap : List (String × String) := []

/-- An event, with `raw_data` as the row it is about. -/
structure Event (Value : Type) where
  metricInstanceId : String
  monitorInstanceId : String
  dimensions : List (String × Cell)
  value : Value
  timestamp : ℤ
  level : String
  content : String
  rawData : Row
deriving DecidableEq

abbrev Verdict := Event Double ⊕ Event String

inductive Err
  | baseApp (message : String)
  /-- `float()` of a text that is no numeral. -/
  | noFloat
  /-- `int()` of an infinite value or NaN. -/
  | noInteger
deriving DecidableEq, Repr

/-- The rounding of numerals, the characters `repr` prints, the format `.2f`, and
`Template(_).safe_substitute` of a row with further entries. -/
structure Env where
  rounding : Rounding
  printable : Char → Bool
  fixed2 : Double → String
  safeSubstitute : String → Row → List (String × String) → String

/-! ### Texts -/

section Model

variable (env : Env)

/-- `str` of a label. -/
def cellText : Cell → String
  | .str s => s
  | .nan => "nan"
  | .none => "None"

/-- `build_dimensions` of a tuple. -/
def buildDimensions (instanceId : List Cell) (instanceIdKeys : List String) :
    List (String × Cell) :=
  (instanceIdKeys.zip instanceId).foldl (fun d kv => OrderedDict.set d kv.1 kv.2) []

/-- `extract_monitor_instance_id` of a tuple. -/
def extractMonitorInstanceId : List Cell → String
  | [] => strTuple env.printable []
  | t :: _ => strTuple env.printable [t]

def formatDimensionStr (dimensions : List (String × Cell)) (instanceIdKeys : List String) :
    String :=
  let firstKey := if instanceIdKeys = [] then (dimensions.map (·.1)).head? else instanceIdKeys.head?
  ", ".intercalate ((dimensions.filter fun kv => some kv.1 ≠ firstKey).map fun kv =>
    kv.1 ++ ":" ++ cellText kv.2)

def formatDimensionValue (dimensions : List (String × Cell)) (orderedKeys : List String)
    (nameMap : List (String × String)) : String :=
  let part (key : String) (value : Cell) : String :=
    let name := (nameMap.lookup key).getD ""
    (if name = "" then key else name) ++ ":" ++ (if value = .none then "" else cellText value)
  ",".intercalate (orderedKeys.filterMap fun key =>
    (OrderedDict.get dimensions key).map (part key))

def buildMetricTemplateVars (dimensions : List (String × Cell)) : List (String × String) :=
  dimensions.map fun kv => ("metric__" ++ kv.1, cellText kv.2)

def formatValueWithUnit (value : Option Double) (unit : String) (enumValueMap : List (ℤ × String)) :
    Except Err String :=
  match value with
  | none => .ok "N/A"
  | some value => do
    let name ←
      if enumValueMap = [] then pure none
      else
        match value.trunc with
        | some intValue => pure (enumValueMap.lookup intValue)
        | none => throw .noInteger
    match name with
    | some name => return name
    | none => return env.fixed2 value ++ unit

/-! ### Thresholds -/

/-- `x == y` of floats. -/
def eqFloat (x y : Double) : Bool := x.le y && y.le x

/-- `THRESHOLD_METHODS.get(method)`. -/
def thresholdMethods (method : String) : Option (Double → Double → Bool) :=
  if method = ">" then some fun x y => y.lt x
  else if method = "<" then some fun x y => x.lt y
  else if method = "=" then some fun x y => eqFloat x y
  else if method = "!=" then some fun x y => !eqFloat x y
  else if method = ">=" then some fun x y => y.le x
  else if method = "<=" then some fun x y => x.le y
  else none

/-- `float(text)`. -/
def float (text : String) : Except Err Double :=
  match floatOfText env.rounding text.toList with
  | some x => .ok x
  | none => .error .noFloat

/-- `all(method(float(v[1]), value) for v in values)`. -/
def allMeet (method : Double → Double → Bool) (value : Double) :
    List (ℤ × String) → Except Err Bool
  | [] => .ok true
  | v :: values => do
    let x ← float env v.2
    if method x value then allMeet method value values else return false

def firstMet (values : List (ℤ × String)) :
    List (Threshold Double) → Except Err (Option (Threshold Double))
  | [] => .ok none
  | threshold :: thresholds =>
    match thresholdMethods threshold.method with
    | none => .error (.baseApp ("Invalid threshold method: " ++ threshold.method))
    | some method => do
      let met ← allMeet env method threshold.value values
      if met then return some threshold else firstMet values thresholds

/-- `sorted(thresholds, key=LEVEL_WEIGHT, reverse=True)`. -/
def sortedThresholds (thresholds : List (Threshold Double)) : List (Threshold Double) :=
  thresholds.insertionSort fun t u => levelWeight u.level ≤ levelWeight t.level

/-! ### The evaluation -/

/-- `values[-n:]`. -/
def lastValues (n : ℕ) (values : List (ℤ × String)) : List (ℤ × String) :=
  if n = 0 then values else values.drop (values.length - n)

variable (alertName : String) (thresholds : List (Threshold Double)) (context : TemplateContext)
  (n : ℕ)

def eventOf {Value : Type} (row : Row) (values : List (ℤ × String)) (value : Value)
    (level content : String) : Event Value where
  metricInstanceId := strTuple env.printable row.instanceId
  monitorInstanceId := extractMonitorInstanceId env row.instanceId
  dimensions := buildDimensions row.instanceId context.instanceIdKeys
  value := value
  timestamp := (values.getLast?.map (·.1)).getD 0
  level := level
  content := content
  rawData := { row with values := values }

def contentOf (row : Row) (values : List (ℤ × String)) (level formattedValue : String) : String :=
  let dimensions := buildDimensions row.instanceId context.instanceIdKeys
  let monitorInstanceId := extractMonitorInstanceId env row.instanceId
  let resourceName := (context.instancesMap.lookup monitorInstanceId).getD monitorInstanceId
  let dimensionStr := formatDimensionStr dimensions context.instanceIdKeys
  let displayName :=
    if dimensionStr = "" then resourceName else resourceName ++ " - " ++ dimensionStr
  let dimensionValue := formatDimensionValue dimensions
    (context.instanceIdKeys.filter (· ≠ "instance_id")) context.dimensionNameMap
  env.safeSubstitute alertName { row with values := values } ([
    ("monitor_object", context.monitorObject),
    ("instance_name", displayName),
    ("resource_name", resourceName),
    ("metric_name", context.metricName),
    ("level", level),
    ("value", formattedValue),
    ("dimension_value", dimensionValue)] ++ buildMetricTemplateVars dimensions)

def verdictOf (row : Row) (values : List (ℤ × String)) :
    Option (Threshold Double) → Except Err Verdict
  | some threshold => do
    let alertValue ← float env ((values.getLast?.map (·.2)).getD "")
    let formattedValue ←
      formatValueWithUnit env (some alertValue) context.displayUnit context.enumValueMap
    return .inl (eventOf env context row values alertValue threshold.level
      (contentOf env alertName context row values threshold.level formattedValue))
  | none => return .inr (eventOf env context row values ((values.getLast?.map (·.2)).getD "")
      "info" "info")

def calculateRow (row : Row) : Except Err (Option Verdict) := do
  let values := lastValues n row.values
  if values.length < n then
    return none
  let met ← firstMet env values (sortedThresholds thresholds)
  let verdict ← verdictOf env alertName context row values met
  return some verdict

def calculateAlerts (rows : List Row) :
    Except Err (List (Event Double) × List (Event String)) := do
  let verdicts ← rows.mapM (calculateRow env alertName thresholds context n)
  let events := verdicts.filterMap id
  return (events.filterMap Sum.getLeft?, events.filterMap Sum.getRight?)

end Model

/-! ### The threshold that counts -/

def Meets (env : Env) (threshold : Threshold Double) (text : String) : Prop :=
  ∃ method, thresholdMethods threshold.method = some method ∧
    ∃ x, float env text = .ok x ∧ method x threshold.value = true

def Satisfied (env : Env) (threshold : Threshold Double) (values : List (ℤ × String)) : Prop :=
  ∀ v ∈ values, Meets env threshold v.2

def Numeric (env : Env) (values : List (ℤ × String)) : Prop :=
  ∀ v ∈ values, ∃ x, float env v.2 = .ok x

def Known (thresholds : List (Threshold Double)) : Prop :=
  ∀ t ∈ thresholds, (thresholdMethods t.method).isSome = true

/-- The threshold decides the level: the values meet it, and none of a greater weight. -/
structure Decides (env : Env) (thresholds : List (Threshold Double)) (values : List (ℤ × String))
    (t : Threshold Double) : Prop where
  mem : t ∈ thresholds
  satisfied : Satisfied env t values
  greatest : ∀ u ∈ thresholds, Satisfied env u values → levelWeight u.level ≤ levelWeight t.level

section Thresholds

variable {env : Env} {thresholds thresholds' : List (Threshold Double)}
  {values : List (ℤ × String)} {t : Threshold Double} {n : ℕ}

theorem allMeet_eq {method : Double → Double → Bool}
    (h_method : thresholdMethods t.method = some method) (h : Numeric env values) :
    ∃ b, allMeet env method t.value values = .ok b ∧ (b = true ↔ Satisfied env t values) := by
  induction values with
  | nil => exact ⟨true, rfl, iff_of_true rfl fun v h_v => absurd h_v List.not_mem_nil⟩
  | cons v values ih =>
    obtain ⟨x, h_x⟩ := h v List.mem_cons_self
    obtain ⟨b, h_b, h_iff⟩ := ih fun w h_w => h w (List.mem_cons_of_mem _ h_w)
    have h_meets : Meets env t v.2 ↔ method x t.value = true := by
      constructor
      · rintro ⟨method', h_method', x', h_x', h_true⟩
        cases h_method.symm.trans h_method'
        cases h_x.symm.trans h_x'
        exact h_true
      · exact fun h_true => ⟨method, h_method, x, h_x, h_true⟩
    by_cases h_v : method x t.value = true
    · refine ⟨b, ?_, ?_⟩
      · simp [allMeet, h_x, bind, Except.bind, h_v, h_b]
      · rw [h_iff, Satisfied, Satisfied, List.forall_mem_cons, and_iff_right (h_meets.mpr h_v)]
    · refine ⟨false, ?_, iff_of_false Bool.false_ne_true fun h_all => ?_⟩
      · simp [allMeet, h_x, bind, Except.bind, h_v, pure, Except.pure]
      · exact h_v (h_meets.mp (h_all v List.mem_cons_self))

theorem firstMet_eq (h_known : Known thresholds) (h : Numeric env values) :
    ∃ met, firstMet env values thresholds = .ok met ∧
      (∀ t, met = some t → t ∈ thresholds ∧ Satisfied env t values ∧
        ∀ u ∈ thresholds, Satisfied env u values → u = t ∨ [t, u].Sublist thresholds) ∧
      (met = none → ∀ u ∈ thresholds, ¬Satisfied env u values) := by
  induction thresholds with
  | nil =>
    refine ⟨none, rfl, fun t h_t => (by cases h_t), fun _ u h_u => ?_⟩
    exact absurd h_u List.not_mem_nil
  | cons threshold thresholds ih =>
    obtain ⟨met, h_met, h_some, h_none⟩ := ih fun t h_t => h_known t (List.mem_cons_of_mem _ h_t)
    obtain ⟨method, h_method⟩ := Option.isSome_iff_exists.mp
      (h_known threshold List.mem_cons_self)
    obtain ⟨b, h_all, h_iff⟩ := allMeet_eq h_method h
    cases b with
    | true =>
      refine ⟨some threshold, ?_, ?_, fun h_eq => by cases h_eq⟩
      · simp [firstMet, h_method, h_all, bind, Except.bind, pure, Except.pure]
      · intro t h_t
        cases h_t
        refine ⟨List.mem_cons_self, h_iff.mp rfl, fun u h_u _ => ?_⟩
        rcases List.mem_cons.mp h_u with rfl | h_u
        · exact .inl rfl
        · exact .inr ((List.singleton_sublist.mpr h_u).cons_cons _)
    | false =>
      have h_not : ¬Satisfied env threshold values := fun h_sat =>
        Bool.false_ne_true (h_iff.mpr h_sat)
      refine ⟨met, ?_, ?_, ?_⟩
      · simp [firstMet, h_method, h_all, bind, Except.bind, h_met]
      · intro t h_t
        obtain ⟨h_mem, h_sat, h_first⟩ := h_some t h_t
        refine ⟨List.mem_cons_of_mem _ h_mem, h_sat, fun u h_u h_usat => ?_⟩
        rcases List.mem_cons.mp h_u with rfl | h_u
        · exact absurd h_usat h_not
        · exact (h_first u h_u h_usat).imp_right fun h_sub => h_sub.cons _
      · intro h_eq u h_u h_usat
        rcases List.mem_cons.mp h_u with rfl | h_u
        · exact h_not h_usat
        · exact h_none h_eq u h_u h_usat

theorem mem_sortedThresholds : t ∈ sortedThresholds thresholds ↔ t ∈ thresholds :=
  List.mem_insertionSort _

theorem pairwise_sortedThresholds : (sortedThresholds thresholds).Pairwise fun t u =>
    levelWeight u.level ≤ levelWeight t.level := by
  have : Std.Total fun t u : Threshold Double => levelWeight u.level ≤ levelWeight t.level :=
    ⟨fun t u => le_total _ _⟩
  have : IsTrans (Threshold Double) fun t u => levelWeight u.level ≤ levelWeight t.level :=
    ⟨fun t u v h_tu h_uv => h_uv.trans h_tu⟩
  exact List.pairwise_insertionSort _ thresholds

/-- **The threshold of a series.** By the order of the weights, the first one that is satisfied has
the greatest weight. -/
theorem firstMet_sorted (h_known : Known thresholds) (h : Numeric env values) :
    ∃ met, firstMet env values (sortedThresholds thresholds) = .ok met ∧
      (∀ t, met = some t → Decides env thresholds values t) ∧
      (met = none → ∀ u ∈ thresholds, ¬Satisfied env u values) := by
  have h_sorted : Known (sortedThresholds thresholds) := fun t h_t =>
    h_known t (mem_sortedThresholds.mp h_t)
  obtain ⟨met, h_met, h_some, h_none⟩ := firstMet_eq h_sorted h
  refine ⟨met, h_met, fun t h_t => ?_, fun h_eq u h_u => ?_⟩
  · obtain ⟨h_mem, h_sat, h_first⟩ := h_some t h_t
    refine ⟨mem_sortedThresholds.mp h_mem, h_sat, fun u h_u h_usat => ?_⟩
    rcases h_first u (mem_sortedThresholds.mpr h_u) h_usat with rfl | h_sub
    · exact le_rfl
    · exact List.rel_of_pairwise_cons (pairwise_sortedThresholds.sublist h_sub) List.mem_cons_self
  · exact h_none h_eq u (mem_sortedThresholds.mpr h_u)

theorem Decides.weight_eq {t' : Threshold Double} (h : Decides env thresholds values t)
    (h' : Decides env thresholds' values t') (h_perm : thresholds'.Perm thresholds) :
    levelWeight t'.level = levelWeight t.level :=
  le_antisymm (h.greatest t' (h_perm.mem_iff.mp h'.mem) h'.satisfied)
    (h'.greatest t (h_perm.mem_iff.mpr h.mem) h.satisfied)

theorem numeric_lastValues (h : Numeric env values) : Numeric env (lastValues n values) := by
  rw [lastValues]
  split_ifs
  · exact h
  · exact fun v h_v => h v (List.mem_of_mem_drop h_v)

theorem length_lastValues (h_n : 1 ≤ n) :
    (lastValues n values).length < n ↔ values.length < n := by
  rw [lastValues, if_neg (Nat.one_le_iff_ne_zero.mp h_n), List.length_drop]
  omega

theorem getLast_lastValues (h_n : 1 ≤ n) :
    (lastValues n values).getLast? = values.getLast? := by
  rw [lastValues, if_neg (Nat.one_le_iff_ne_zero.mp h_n), List.getLast?_drop]
  split_ifs with h
  · have h_nil : values = [] := List.length_eq_zero_iff.mp (by omega)
    rw [h_nil, List.getLast?_nil]
  · rfl

end Thresholds

/-! ### Rows -/

def LastFinite (env : Env) (row : Row) : Prop :=
  ∃ v ∈ row.values.getLast?, ∃ q, float env v.2 = .ok (.fin q)

/-- What a row with enough values is to give. -/
inductive Judged (env : Env) (thresholds : List (Threshold Double)) (n : ℕ) (row : Row) :
    Verdict → Prop
  | alert (e : Event Double) (t : Threshold Double)
      (metricInstanceId : e.metricInstanceId = strTuple env.printable row.instanceId)
      (decides : Decides env thresholds (lastValues n row.values) t)
      (level : e.level = t.level) : Judged env thresholds n row (.inl e)
  | info (e : Event String)
      (metricInstanceId : e.metricInstanceId = strTuple env.printable row.instanceId)
      (none : ∀ u ∈ thresholds, ¬Satisfied env u (lastValues n row.values))
      (level : e.level = "info") : Judged env thresholds n row (.inr e)

section Rows

variable {env : Env} {alertName : String} {thresholds thresholds' : List (Threshold Double)}
  {context : TemplateContext} {n : ℕ} {row : Row}

variable (env) in
theorem formatValueWithUnit_eq (x : Double) (unit : String) (enumValueMap : List (ℤ × String)) :
    (∃ text, formatValueWithUnit env (some x) unit enumValueMap = .ok text) ↔
      enumValueMap = [] ∨ ∃ q, x = .fin q := by
  rw [formatValueWithUnit]
  by_cases h : enumValueMap = []
  · simp [h, bind, Except.bind, pure, Except.pure]
  · cases x with
    | fin q =>
      refine iff_of_true ?_ (.inr ⟨q, rfl⟩)
      simp only [if_neg h, Double.trunc, bind, Except.bind, pure, Except.pure]
      split <;> exact ⟨_, rfl⟩
    | inf neg => simp [h, Double.trunc, bind, Except.bind, throw, throwThe, MonadExceptOf.throw]
    | nan => simp [h, Double.trunc, bind, Except.bind, throw, throwThe, MonadExceptOf.throw]

variable (alertName context) in
theorem verdictOf_some (t : Threshold Double) (h_n : 1 ≤ n) (h_long : n ≤ row.values.length)
    (h_values : Numeric env row.values) :
    ((context.enumValueMap = [] ∨ LastFinite env row) ∧ ∃ alertValue content,
      (∃ v ∈ row.values.getLast?, float env v.2 = .ok alertValue) ∧
      verdictOf env alertName context row (lastValues n row.values) (some t) =
        .ok (.inl (eventOf env context row (lastValues n row.values) alertValue t.level
          content))) ∨
    ¬(context.enumValueMap = [] ∨ LastFinite env row) ∧
      ∃ fault, verdictOf env alertName context row (lastValues n row.values) (some t) =
        .error fault := by
  -- there is a last value, and it is a numeral
  obtain ⟨v, h_last⟩ : ∃ v, row.values.getLast? = some v := by
    cases h_values : row.values.getLast? with
    | some v => exact ⟨v, rfl⟩
    | none =>
      rw [List.getLast?_eq_none_iff.mp h_values, List.length_nil] at h_long
      omega
  obtain ⟨x, h_x⟩ := h_values v (List.mem_of_getLast? h_last)
  have h_finite : LastFinite env row ↔ ∃ q, x = .fin q := by
    constructor
    · rintro ⟨w, h_w, q, h_q⟩
      cases h_last.symm.trans h_w
      cases h_x.symm.trans h_q
      exact ⟨q, rfl⟩
    · rintro ⟨q, rfl⟩
      exact ⟨v, h_last, q, h_x⟩
  have h_format := formatValueWithUnit_eq env x context.displayUnit context.enumValueMap
  rw [← h_finite] at h_format
  rw [← h_format]
  cases h_text : formatValueWithUnit env (some x) context.displayUnit context.enumValueMap with
  | ok text =>
    refine .inl ⟨⟨text, rfl⟩, x, contentOf env alertName context row (lastValues n row.values)
      t.level text, ⟨v, h_last, h_x⟩, ?_⟩
    simp [verdictOf, getLast_lastValues h_n, h_last, h_x, h_text, bind, Except.bind, pure,
      Except.pure]
  | error fault =>
    refine .inr ⟨?_, fault, ?_⟩
    · rintro ⟨text, h_ok⟩
      cases h_ok
    · simp [verdictOf, getLast_lastValues h_n, h_last, h_x, h_text, bind, Except.bind]

variable (alertName context) in
/-- **A row.** Too short a series is passed over; otherwise no threshold is met, or one decides. -/
theorem calculateRow_cases (h_n : 1 ≤ n) (h_known : Known thresholds)
    (h_values : Numeric env row.values) :
    (row.values.length < n ∧
      calculateRow env alertName thresholds context n row = .ok none) ∨
    (n ≤ row.values.length ∧ ∃ met,
      (∀ t, met = some t → Decides env thresholds (lastValues n row.values) t) ∧
      (met = none → ∀ u ∈ thresholds, ¬Satisfied env u (lastValues n row.values)) ∧
      calculateRow env alertName thresholds context n row =
        (verdictOf env alertName context row (lastValues n row.values) met).map some) := by
  by_cases h_short : row.values.length < n
  · refine .inl ⟨h_short, ?_⟩
    rw [calculateRow, if_pos ((length_lastValues h_n).mpr h_short)]
    rfl
  · obtain ⟨met, h_met, h_some, h_none⟩ := firstMet_sorted h_known
      (numeric_lastValues (n := n) h_values)
    refine .inr ⟨Nat.le_of_not_lt h_short, met, h_some, h_none, ?_⟩
    rw [calculateRow, if_neg (mt (length_lastValues h_n).mp h_short)]
    simp only [h_met, bind, Except.bind, pure, Except.pure]
    cases verdictOf env alertName context row (lastValues n row.values) met <;> rfl

def verdict? (env : Env) (alertName : String) (thresholds : List (Threshold Double))
    (context : TemplateContext) (n : ℕ) (row : Row) : Option Verdict :=
  match calculateRow env alertName thresholds context n row with
  | .ok verdict => verdict
  | .error _ => none

def Formats (env : Env) (thresholds : List (Threshold Double)) (context : TemplateContext) (n : ℕ)
    (row : Row) : Prop :=
  n ≤ row.values.length → (∃ t ∈ thresholds, Satisfied env t (lastValues n row.values)) →
    context.enumValueMap = [] ∨ LastFinite env row

theorem calculateRow_eq_ok (h_n : 1 ≤ n) (h_known : Known thresholds)
    (h_values : Numeric env row.values) :
    (∃ verdict, calculateRow env alertName thresholds context n row = .ok verdict) ↔
      Formats env thresholds context n row := by
  rcases calculateRow_cases alertName context h_n h_known h_values with
    ⟨h_short, h_row⟩ | ⟨h_long, met, h_some, h_none, h_row⟩
  · exact iff_of_true ⟨none, h_row⟩ fun h_long => absurd h_short (Nat.not_lt_of_le h_long)
  · rw [h_row]
    cases met with
    | none =>
      refine iff_of_true ⟨_, rfl⟩ fun _ h_met => ?_
      obtain ⟨t, h_t, h_sat⟩ := h_met
      exact absurd h_sat (h_none rfl t h_t)
    | some t =>
      have h_decides := h_some t rfl
      rcases verdictOf_some alertName context t h_n h_long h_values with
        ⟨h_text, value, content, -, h_verdict⟩ | ⟨h_text, fault, h_verdict⟩
      · rw [h_verdict]
        exact iff_of_true ⟨_, rfl⟩ fun _ _ => h_text
      · rw [h_verdict]
        refine iff_of_false ?_ fun h => h_text (h h_long ⟨t, h_decides.mem, h_decides.satisfied⟩)
        rintro ⟨verdict, h_ok⟩
        cases h_ok

theorem calculateRow_eq_verdict?
    (h : ∃ verdict, calculateRow env alertName thresholds context n row = .ok verdict) :
    calculateRow env alertName thresholds context n row =
      .ok (verdict? env alertName thresholds context n row) := by
  obtain ⟨verdict, h_row⟩ := h
  rw [verdict?, h_row]

variable (alertName) in
theorem verdict?_of_le (h_n : 1 ≤ n) (h_known : Known thresholds)
    (h_values : Numeric env row.values) (h_formats : Formats env thresholds context n row) :
    (row.values.length < n ∧ verdict? env alertName thresholds context n row = none) ∨
    n ≤ row.values.length ∧ ∃ verdict,
      verdict? env alertName thresholds context n row = some verdict ∧
        Judged env thresholds n row verdict := by
  rw [verdict?]
  rcases calculateRow_cases alertName context h_n h_known h_values with
    ⟨h_short, h_row⟩ | ⟨h_long, met, h_some, h_none, h_row⟩
  · exact .inl ⟨h_short, by rw [h_row]⟩
  · refine .inr ⟨h_long, ?_⟩
    rw [h_row]
    cases met with
    | none => exact ⟨_, rfl, .info _ rfl (h_none rfl) rfl⟩
    | some t =>
      have h_decides := h_some t rfl
      have h_text := h_formats h_long ⟨t, h_decides.mem, h_decides.satisfied⟩
      rcases verdictOf_some alertName context t h_n h_long h_values with
        ⟨-, value, content, -, h_verdict⟩ | ⟨h_no, -⟩
      · rw [h_verdict]
        exact ⟨_, rfl, .alert _ t rfl h_decides rfl⟩
      · exact absurd h_text h_no

def weightOf (e : Event Double) : String × ℤ × ℕ :=
  (e.metricInstanceId, e.timestamp, levelWeight e.level)

variable (alertName) in
theorem verdict?_perm (h_n : 1 ≤ n) (h_known : Known thresholds)
    (h_values : Numeric env row.values) (h_formats : Formats env thresholds context n row)
    (h_perm : thresholds'.Perm thresholds) :
    (verdict? env alertName thresholds' context n row).bind Sum.getRight? =
      (verdict? env alertName thresholds context n row).bind Sum.getRight? ∧
    ((verdict? env alertName thresholds' context n row).bind Sum.getLeft?).map weightOf =
      ((verdict? env alertName thresholds context n row).bind Sum.getLeft?).map weightOf := by
  have h_known' : Known thresholds' := fun t h_t => h_known t (h_perm.mem_iff.mp h_t)
  rw [verdict?, verdict?]
  rcases calculateRow_cases alertName context h_n h_known h_values with
    ⟨h_short, h_row⟩ | ⟨h_long, met, h_some, h_none, h_row⟩
  · -- too short for either order
    rcases calculateRow_cases alertName context h_n h_known' h_values
      with ⟨-, h_row'⟩ | ⟨h_long, -⟩
    · rw [h_row, h_row']
      exact ⟨rfl, rfl⟩
    · exact absurd h_short (Nat.not_lt_of_le h_long)
  · rcases calculateRow_cases alertName context h_n h_known' h_values
      with ⟨h_short, -⟩ | ⟨-, met', h_some', h_none', h_row'⟩
    · exact absurd h_short (Nat.not_lt_of_le h_long)
    rw [h_row, h_row']
    cases met with
    | none =>
      cases met' with
      | none => exact ⟨rfl, rfl⟩
      | some t' =>
        have h_decides' := h_some' t' rfl
        exact absurd h_decides'.satisfied (h_none rfl t' (h_perm.mem_iff.mp h_decides'.mem))
    | some t =>
      have h_decides := h_some t rfl
      cases met' with
      | none => exact absurd h_decides.satisfied (h_none' rfl t (h_perm.mem_iff.mpr h_decides.mem))
      | some t' =>
        have h_text := h_formats h_long ⟨t, h_decides.mem, h_decides.satisfied⟩
        rcases verdictOf_some alertName context t h_n h_long h_values
          with ⟨-, value, content, -, h_verdict⟩ | ⟨h_no, -⟩
        · rcases verdictOf_some alertName context t' h_n h_long h_values
            with ⟨-, value', content', -, h_verdict'⟩ | ⟨h_no, -⟩
          · rw [h_verdict, h_verdict']
            have h_weight := h_decides.weight_eq (h_some' t' rfl) h_perm
            refine ⟨rfl, congrArg some ?_⟩
            exact congrArg (fun w => (_, _, w)) h_weight
          · exact absurd h_text h_no
        · exact absurd h_text h_no

end Rows

/-! ### The whole evaluation -/

section Evaluation

variable (env : Env) (alertName : String) (thresholds : List (Threshold Double))
  (context : TemplateContext) (n : ℕ) (rows : List Row)

/-- **Evaluation.** One event for a series, of the greatest weight, in any order of the
thresholds. -/
def Evaluates : Prop :=
  ∃ alerts infos, calculateAlerts env alertName thresholds context n rows = .ok (alerts, infos) ∧
    (∃ verdicts,
      List.Forall₂ (Judged env thresholds n) (rows.filter (n ≤ ·.values.length)) verdicts ∧
        alerts = verdicts.filterMap Sum.getLeft? ∧ infos = verdicts.filterMap Sum.getRight?) ∧
    ∀ thresholds', thresholds'.Perm thresholds → ∃ alerts',
      calculateAlerts env alertName thresholds' context n rows = .ok (alerts', infos) ∧
        alerts'.map weightOf = alerts.map weightOf

variable {env alertName thresholds context n rows}

theorem calculateAlerts_eq (h : ∀ row ∈ rows,
      ∃ verdict, calculateRow env alertName thresholds context n row = .ok verdict) :
    calculateAlerts env alertName thresholds context n rows =
      .ok (((rows.filterMap (verdict? env alertName thresholds context n)).filterMap Sum.getLeft?),
        ((rows.filterMap (verdict? env alertName thresholds context n)).filterMap
          Sum.getRight?)) := by
  have h_mapM := List.mapM_eq_ok fun row h_row => calculateRow_eq_verdict? (h row h_row)
  rw [calculateAlerts, h_mapM]
  simp only [bind, Except.bind, pure, Except.pure, List.filterMap_map, Function.id_comp]

theorem forall₂_verdict? (h_n : 1 ≤ n) (h_known : Known thresholds)
    (h_values : ∀ row ∈ rows, Numeric env row.values)
    (h_formats : ∀ row ∈ rows, Formats env thresholds context n row) :
    List.Forall₂ (Judged env thresholds n) (rows.filter (n ≤ ·.values.length))
      (rows.filterMap (verdict? env alertName thresholds context n)) := by
  induction rows with
  | nil => exact .nil
  | cons row rows ih =>
    have h_rest := ih (fun r h_r => h_values r (List.mem_cons_of_mem _ h_r))
      fun r h_r => h_formats r (List.mem_cons_of_mem _ h_r)
    rcases verdict?_of_le alertName h_n h_known (h_values row List.mem_cons_self)
      (h_formats row List.mem_cons_self) with
      ⟨h_short, h_none⟩ | ⟨h_long, verdict, h_some, h_judged⟩
    · rw [List.filter_cons_of_neg (by simpa using h_short), List.filterMap_cons_none h_none]
      exact h_rest
    · rw [List.filter_cons_of_pos (by simpa using h_long), List.filterMap_cons_some h_some]
      exact .cons h_judged h_rest

theorem formats_perm {thresholds' : List (Threshold Double)} {row : Row}
    (h_perm : thresholds'.Perm thresholds) (h : Formats env thresholds context n row) :
    Formats env thresholds' context n row := by
  rintro h_long ⟨t, h_t, h_sat⟩
  exact h h_long ⟨t, h_perm.mem_iff.mp h_t, h_sat⟩

end Evaluation

/-- **When thresholds are evaluated.** No named value is infinite or NaN. -/
theorem evaluates_iff (env : Env) (alertName : String) (thresholds : List (Threshold Double))
    (context : TemplateContext) (n : ℕ) (rows : List Row) (h_n : 1 ≤ n) (h_known : Known thresholds)
    (h_values : ∀ row ∈ rows, Numeric env row.values) :
    Evaluates env alertName thresholds context n rows ↔
      ∀ row ∈ rows, n ≤ row.values.length →
        (∃ t ∈ thresholds, Satisfied env t (lastValues n row.values)) →
          context.enumValueMap = [] ∨ LastFinite env row := by
  constructor
  · rintro ⟨alerts, infos, h_ok, -⟩ row h_row
    rw [calculateAlerts] at h_ok
    obtain ⟨verdicts, h_mapM, -⟩ := bind_eq_ok.mp h_ok
    exact (calculateRow_eq_ok h_n h_known (h_values row h_row)).mp
      (List.exists_of_mapM_eq_ok h_mapM row h_row)
  · intro h_formats
    have h_rows (ts : List (Threshold Double)) (h_perm : ts.Perm thresholds) : ∀ row ∈ rows,
        ∃ verdict, calculateRow env alertName ts context n row = .ok verdict := by
      intro row h_row
      have h_known' : Known ts := fun t h_t => h_known t (h_perm.mem_iff.mp h_t)
      exact (calculateRow_eq_ok h_n h_known' (h_values row h_row)).mpr
        (formats_perm h_perm (h_formats row h_row))
    refine ⟨_, _, calculateAlerts_eq (h_rows thresholds (.refl _)),
      ⟨_, forall₂_verdict? h_n h_known h_values h_formats, rfl, rfl⟩, fun ts h_perm => ?_⟩
    have h_eq := calculateAlerts_eq (h_rows ts h_perm)
    have h_row (row) (h_row : row ∈ rows) := verdict?_perm alertName h_n h_known
      (h_values row h_row) (h_formats row h_row) h_perm
    have h_infos : (rows.filterMap (verdict? env alertName ts context n)).filterMap
        Sum.getRight? = (rows.filterMap (verdict? env alertName thresholds context n)).filterMap
          Sum.getRight? := by
      rw [List.filterMap_filterMap, List.filterMap_filterMap]
      exact List.filterMap_congr fun row h_mem => (h_row row h_mem).1
    refine ⟨_, by rw [h_eq, h_infos], ?_⟩
    simp only [List.filterMap_filterMap, List.map_filterMap]
    exact List.filterMap_congr fun row h_mem => (h_row row h_mem).2

section Examples

private def exactEnv : Env where
  rounding := .exact
  printable _ := true
  fixed2 _ := ""
  safeSubstitute alertName _ _ := alertName

/-- `> 80` of one level. -/
private def aboveEighty (level : String) : Threshold Double := ⟨">", .fin 80, level⟩

private def hostRow : Row := ⟨[.str "h1"], [(1, "85"), (2, "90")], []⟩

/-- A warning, and then an error for the same values. -/
theorem hostRow_evaluates :
    Evaluates exactEnv "cpu" [aboveEighty "warning", aboveEighty "error"] {} 2 [hostRow] := by
  refine (evaluates_iff exactEnv "cpu" [aboveEighty "warning", aboveEighty "error"] {} 2 [hostRow]
    (by decide) ?_ ?_).mpr fun row h_row h_long h_met => .inl rfl
  · simp [Known, aboveEighty, thresholdMethods]
  · intro row h_row v h_v
    rw [List.mem_singleton.mp h_row] at h_v
    rcases List.mem_pair.mp h_v with rfl | rfl
    · exact ⟨.fin 85, by decide +kernel⟩
    · exact ⟨.fin 90, by decide +kernel⟩

private def namedContext : TemplateContext := { enumValueMap := [(1, "up")] }

/-- An infinite value above a threshold ends the evaluation, if the metric has names for its
values. -/
theorem infinite_raises :
    ¬∀ env alertName thresholds context n rows, 1 ≤ n → Known thresholds →
      (∀ row ∈ rows, Numeric env row.values) →
        Evaluates env alertName thresholds context n rows := by
  intro h
  have h_values : ∀ row ∈ [(⟨[.str "h1"], [(1, "+Inf")], []⟩ : Row)],
      Numeric exactEnv row.values := by
    intro row h_row v h_v
    rw [List.mem_singleton.mp h_row] at h_v
    rw [List.mem_singleton.mp h_v]
    exact ⟨.inf false, by decide +kernel⟩
  obtain ⟨alerts, infos, h_ok, -⟩ := h exactEnv "cpu" [aboveEighty "error"] namedContext 1
    [⟨[.str "h1"], [(1, "+Inf")], []⟩] le_rfl (by simp [Known, aboveEighty, thresholdMethods])
    h_values
  have h_error : calculateAlerts exactEnv "cpu" [aboveEighty "error"] namedContext 1
      [⟨[.str "h1"], [(1, "+Inf")], []⟩] = .error .noInteger := by decide +kernel
  cases h_error.symm.trans h_ok

end Examples

end Monitor.PolicyCalculate
