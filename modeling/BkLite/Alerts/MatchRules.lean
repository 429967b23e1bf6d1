import BkLite.Framework.Value
import Mathlib.Data.List.Infix

/-!
# The match rules of a strategy

`match_rules` is a disjunction of groups, each a conjunction of conditions on an event. Two
evaluators read it:

* `StrategyMatcher` (`matchEvents`) turns it into a query. It gives up on the query when a condition
  raises or a lookup does not exist, and leaves out a group with an invalid condition.
* `InstantMatcher` (`matchInMemory`) evaluates it on the Python object, a group after the other, up
  to the first that matches. A key that is no attribute is looked up in the labels and the tags.

The columns that hold text are listed; what Django makes of another path is `Event.columns`. A
negated lookup keeps the rows on which the lookup is not true, those with NULL included.
-/

namespace Alerts
namespace MatchRules

open Py

inductive Failure
  | typeError
  | valueError
  | overflowError
deriving DecidableEq, Repr

/-! ### Conditions -/

/-- A condition; an entry that is missing is `None`. -/
structure Condition where
  key : Value
  operator : Value
  value : Value

inductive Lookup
  | exact
  | icontains
  | iregex
  | isIn
  | gt
  | gte
  | lt
  | lte
deriving DecidableEq, Repr

/-- The operators behind `OPERATOR_MAP`. -/
inductive Operator
  | lookup (l : Lookup)
  | ne
  | notContains
  | notIn
deriving DecidableEq, Repr

def operatorMap : String → Option Operator
  | "eq" | "等于" => some (.lookup .exact)
  | "ne" | "不等于" => some .ne
  | "contains" | "包含" => some (.lookup .icontains)
  | "not_contains" | "不包含" => some .notContains
  | "正则" | "re" | "regex" => some (.lookup .iregex)
  | "gt" | "大于" => some (.lookup .gt)
  | "gte" | "大于等于" => some (.lookup .gte)
  | "lt" | "小于" => some (.lookup .lt)
  | "lte" | "小于等于" => some (.lookup .lte)
  | "in" | "字中串" => some (.lookup .isIn)
  | "not_in" => some .notIn
  | _ => none

/-- `FIELD_MAP.get(key, key)` of a text. -/
def fieldMap : String → String
  | "标题" => "title"
  | "告警源" | "source" => "source__name"
  | "级别" => "level"
  | "类型对象" => "resource_type"
  | "对象实例" => "resource_name"
  | "内容" => "description"
  | "告警类型" => "event_type"
  | "服务" => "service"
  | "位置" => "location"
  | "来源" => "push_source_id"
  | "事件ID" => "event_id"
  | "资源ID" => "resource_id"
  | "指标" => "item"
  | key => key

/-- `OPERATOR_MAP.get(operator)`. -/
def operatorOf : Value → Except Failure (Option Operator)
  | .str s => .ok (operatorMap s)
  | .list _ | .dict _ => .error .typeError
  | _ => .ok none

/-- `FIELD_MAP.get(key, key)`. -/
def fieldOf : Value → Except Failure Value
  | .str s => .ok (.str (fieldMap s))
  | .list _ | .dict _ => .error .typeError
  | key => .ok key

/-- `value is None`. -/
def isNone : Value → Bool
  | .null => true
  | _ => false

/-- `value in (None, "")`. -/
def isBlank : Value → Bool
  | .null => true
  | .str s => s = ""
  | _ => false

/-- `operator in ["ne", "不等于"]`. -/
def isNe : Value → Bool
  | .str s => s = "ne" || s = "不等于"
  | _ => false

/-! ### Events -/

/-- What `getattr` finds: a JSON value, or another object by its text. -/
inductive Attr
  | json (v : Value)
  | object (text : String)

/-- An event. `columns` is what Django makes of a path that is not listed; `none` is a `FieldError`,
or a rejected lookup. -/
structure Event where
  sourceName : String
  pushSourceId : String := "default"
  title : String
  description : Option String := none
  level : String
  service : Option String := none
  location : Option String := none
  externalId : Option String := none
  action : String := "created"
  ingestKey : Option String := none
  ruleId : Option String := none
  eventId : String
  item : Option String := none
  resourceId : Option String := none
  resourceType : Option String := none
  resourceName : Option String := none
  status : String := "received"
  labels : Value := .dict []
  tags : Value := .dict []
  attributes : String → Option Attr := fun _ => none
  columns : String → Option (Bool → Lookup → Value → Option Bool) := fun _ => none

def Event.textField (e : Event) : String → Option (Option String)
  | "push_source_id" => some e.pushSourceId
  | "title" => some e.title
  | "description" => some e.description
  | "level" => some e.level
  | "service" => some e.service
  | "location" => some e.location
  | "external_id" => some e.externalId
  | "action" => some e.action
  | "ingest_key" => some e.ingestKey
  | "rule_id" => some e.ruleId
  | "event_id" => some e.eventId
  | "item" => some e.item
  | "resource_id" => some e.resourceId
  | "resource_type" => some e.resourceType
  | "resource_name" => some e.resourceName
  | "status" => some e.status
  | _ => none

def Event.textColumn (e : Event) (path : String) : Option (Option String) :=
  if path = "source__name" then some e.sourceName else e.textField path

def Attr.ofColumn (column : Option String) : Attr :=
  .json (column.elim .null .str)

/-- `getattr(event, name)` where `hasattr(event, name)`. -/
def Event.getattr (e : Event) (name : String) : Option Attr :=
  match e.textField name with
  | some column => some (.ofColumn column)
  | none =>
    if name = "labels" then some (.json e.labels)
    else if name = "tags" then some (.json e.tags)
    else e.attributes name

/-! ### Python and the database -/

structure Database where
  icontains : String → String → Bool
  iregex : String → String → Bool
  lt : String → String → Bool
  le : String → String → Bool
  icontains_empty : ∀ s, icontains s "" = true

/-- `str()`, `str.lower`, `re.compile(_, re.IGNORECASE)`, and `float()` with its comparisons. -/
structure Env (N : Type) where
  repr : Value → String
  lower : String → String
  compile : String → Option (String → Bool)
  float : Value → Except Failure N
  lt : N → N → Bool
  le : N → N → Bool
  db : Database
  repr_ne_empty : ∀ v, repr v ≠ ""
  lower_eq_empty : ∀ s, lower s = "" ↔ s = ""

variable {N : Type} (env : Env N) (e : Event)

/-- `str(value)`. -/
def Env.text : Value → String
  | .str s => s
  | v => env.repr v

def compareBy {α : Type} (lt le : α → α → Bool) (l : Lookup) (left right : α) : Bool :=
  match l with
  | .gt => lt right left
  | .gte => le right left
  | .lt => lt left right
  | .lte => le left right
  | _ => false

/-! ### `StrategyMatcher` -/

/-- A lookup of a query; with `negated` it is under `~`. -/
structure Q where
  negated : Bool
  path : String
  lookup : Lookup
  value : Value

/-- `_build_condition_q` behind its first checks; `none` is an invalid condition. -/
def buildOperator (path : String) (op : Operator) (value : Value) : Except Failure (Option Q) :=
  match op with
  | .notContains => .ok (if isBlank value then none else some ⟨true, path, .icontains, value⟩)
  | .ne => .ok (some ⟨true, path, .exact, value⟩)
  | .notIn =>
    match value with
    | .list _ => .ok (some ⟨true, path, .isIn, value⟩)
    | _ => .ok none
  | .lookup .iregex =>
    if !value.truthy then .ok none
    else
      -- `re.compile` takes a text only
      match value with
      | .str pattern =>
        .ok (if (env.compile pattern).isSome then some ⟨false, path, .iregex, value⟩ else none)
      | _ => .error .typeError
  | .lookup .isIn =>
    match value with
    | .list _ => .ok (some ⟨false, path, .isIn, value⟩)
    | _ => .ok none
  | .lookup l => .ok (some ⟨false, path, l, value⟩)

def buildConditionQ (c : Condition) : Except Failure (Option Q) :=
  if !c.key.truthy || isNone c.operator then .ok none
  else if isNone c.value && !isNe c.operator then .ok none
  else
    match fieldOf c.key with
    | .error failure => .error failure
    | .ok field =>
      match operatorOf c.operator with
      | .error failure => .error failure
      | .ok none => .ok none
      | .ok (some op) => buildOperator env (env.text field) op c.value

def buildGroup : List Condition → Except Failure (Option (List Q))
  | [] => .ok (some [])
  | c :: cs =>
    match buildConditionQ env c with
    | .error failure => .error failure
    | .ok none => .ok none
    | .ok (some q) => (buildGroup cs).map fun qs => qs.map (q :: ·)

def orConditions : List (List Condition) → Except Failure (List (List Q))
  | [] => .ok []
  | group :: groups =>
    match buildGroup env group with
    | .error failure => .error failure
    | .ok (some (q :: qs)) => (orConditions groups).map ((q :: qs) :: ·)
    | .ok _ => orConditions groups

def buildQFilter (rules : List (List Condition)) : Except Failure (Option (List (List Q))) :=
  (orConditions env rules).map fun ors => if ors.isEmpty then none else some ors

/-- A lookup on a text column. `exact` with `None` asks for NULL, `in` leaves `None` out, and
nothing else holds of NULL. -/
def textLookup (column : Option String) (l : Lookup) (value : Value) : Bool :=
  match column with
  | none => l = .exact && isNone value
  | some s =>
    match l with
    | .exact => !isNone value && s = env.text value
    | .icontains => env.db.icontains s (env.text value)
    | .iregex => env.db.iregex s (env.text value)
    | .isIn =>
      match value with
      | .list vs => vs.any fun v => !isNone v && s = env.text v
      | _ => false
    | l => compareBy env.db.lt env.db.le l s (env.text value)

/-- Whether the row satisfies a lookup; `none` is a lookup that raises. -/
def resolve (q : Q) : Option Bool :=
  match e.textColumn q.path with
  | some column => some (q.negated ^^ textLookup env column q.lookup q.value)
  | none => (e.columns q.path).bind fun lookup => lookup q.negated q.lookup q.value

/-- `events_queryset.filter(q)` of the one event; a lookup that raises ends it. -/
def filter (ors : List (List Q)) : Option Bool :=
  if ors.all fun ands => ands.all fun q => (resolve env e q).isSome then
    some (ors.any fun ands => ands.all fun q => resolve env e q = some true)
  else none

/-- `match_events_to_strategy` of the one event. -/
def matchEvents (rules : List (List Condition)) : Bool :=
  if rules.isEmpty then true
  else
    match buildQFilter env rules with
    | .ok (some ors) => (filter env e ors).getD false
    | .ok none | .error _ => false

/-! ### `InstantMatcher` -/

def entryOf (labels : Value) (name : String) : Except Failure (Option Value) :=
  if !labels.truthy then .ok none
  else
    match labels with
    | .dict kvs => .ok ((kvs.find? (·.1 = name)).map (·.2))
    -- `in` finds the name, and it is no index
    | .list vs =>
      if vs.any fun | .str s => s = name | _ => false then .error .typeError else .ok none
    | .str s => if name.toList <:+: s.toList then .error .typeError else .ok none
    | _ => .error .typeError

def getFieldValue (field : Value) : Except Failure Attr :=
  match field with
  | .str name =>
    if name = "source__name" then .ok (.json (.str e.sourceName))
    else
      match e.getattr name with
      | some attr => .ok attr
      | none =>
        match entryOf e.labels name with
        | .error failure => .error failure
        | .ok (some v) => .ok (.json v)
        | .ok none =>
          match entryOf e.tags name with
          | .error failure => .error failure
          | .ok (some v) => .ok (.json v)
          | .ok none => .ok (.json .null)
  -- `hasattr` takes a text only
  | _ => .error .typeError

def toStr : Attr → String
  | .json .null => ""
  | .json v => env.text v
  | .object text => text

/-- `value is None`. -/
def Attr.isNone : Attr → Bool
  | .json v => MatchRules.isNone v
  | .object _ => false

def equal (left : Attr) (right : Value) : Bool :=
  if left.isNone && isNone right then true
  else if left.isNone || isNone right then false
  else toStr env left = toStr env (.json right)

/-- `needle.lower() in haystack.lower()`. -/
def containsLower (haystack needle : String) : Bool :=
  (env.lower needle).toList <:+: (env.lower haystack).toList

def icontains (haystack : Attr) (needle : Value) : Bool :=
  if isBlank needle then false else containsLower env (toStr env haystack) (env.text needle)

/-- `float(attr)`. -/
def floatOf : Attr → Except Failure N
  | .json v => env.float v
  | .object _ => .error .typeError

def numericCompare (left : Attr) (right : Value) (l : Lookup) : Except Failure Bool :=
  match floatOf env left with
  | .error .overflowError => .error .overflowError
  | .error _ => .ok false
  | .ok x =>
    match env.float right with
    | .error .overflowError => .error .overflowError
    | .error _ => .ok false
    | .ok y => .ok (compareBy env.lt env.le l x y)

/-- `_eval_condition` behind its checks. -/
def evalOperator (left : Attr) (op : Operator) (value : Value) : Except Failure Bool :=
  match op with
  | .lookup .exact => .ok (equal env left value)
  | .ne => .ok (!equal env left value)
  | .lookup .icontains => .ok (icontains env left value)
  | .notContains => .ok (!isBlank value && !icontains env left value)
  | .lookup .iregex =>
    if !value.truthy then .ok false
    else
      match env.compile (env.text value) with
      | none => .ok false
      | some search => .ok (search (toStr env left))
  | .lookup .isIn =>
    match value with
    | .list vs => .ok (vs.any (equal env left))
    | _ => .ok false
  | .notIn =>
    match value with
    | .list vs => .ok (!vs.any (equal env left))
    | _ => .ok false
  | .lookup l => numericCompare env left value l

def evalCondition (c : Condition) : Except Failure Bool :=
  if !c.key.truthy || isNone c.operator then .ok false
  else
    match operatorOf c.operator with
    | .error failure => .error failure
    | .ok none => .ok false
    | .ok (some op) =>
      match fieldOf c.key with
      | .error failure => .error failure
      | .ok field =>
        match getFieldValue e field with
        | .error failure => .error failure
        | .ok left =>
          if isNone c.value && op ≠ .ne then .ok false else evalOperator env left op c.value

/-- `all(_eval_condition(event, cond) for cond in and_group)`. -/
def evalAll : List Condition → Except Failure Bool
  | [] => .ok true
  | c :: cs =>
    match evalCondition env e c with
    | .error failure => .error failure
    | .ok false => .ok false
    | .ok true => evalAll cs

def matchGroups : List (List Condition) → Except Failure Bool
  | [] => .ok false
  | group :: groups =>
    if group.isEmpty then matchGroups groups
    else
      match evalAll env e group with
      | .error failure => .error failure
      | .ok true => .ok true
      | .ok false => matchGroups groups

def matchInMemory (rules : List (List Condition)) : Bool :=
  if rules.isEmpty then false
  else
    match matchGroups env e rules with
    | .ok hit => hit
    | .error _ => false

/-! ### Plain texts -/

/-- Texts in ASCII, compared by their code points, with patterns that stand for themselves. -/
def plainDatabase : Database where
  icontains s t := (t.toList.map Char.toLower) <:+: (s.toList.map Char.toLower)
  iregex s t := (t.toList.map Char.toLower) <:+: (s.toList.map Char.toLower)
  lt s t := textLt s.toList t.toList
  le s t := !textLt t.toList s.toList
  icontains_empty s := by
    simp

def plainEnv : Env ℤ where
  repr
    | .int 9 => "9"
    | _ => "…"
  lower s := String.ofList (s.toList.map Char.toLower)
  compile pattern := some fun s =>
    (pattern.toList.map Char.toLower) <:+: (s.toList.map Char.toLower)
  float
    | .int i => .ok i
    | .str s => (intOfText s.toList).elim (.error .valueError) .ok
    | _ => .error .typeError
  lt x y := x < y
  le x y := x ≤ y
  db := plainDatabase
  repr_ne_empty v := by
    split <;> decide
  lower_eq_empty s := by
    rw [← String.toList_inj, String.toList_ofList, String.toList_empty, List.map_eq_nil_iff,
      String.toList_eq_nil_iff]

end MatchRules
end Alerts
