import BkLite.Framework.QueryText

/-!
# Log groups

A search is confined to log groups by its text: the rules of the groups are written as LogsQL
(`jsonToLogsqlExpression`), the query of the user is cut at its first bar, the part in front is put
in parentheses, and the rules are put behind it with `AND` (`buildQueryWithGroups` in
`utils/log_group.py`; the searches of `services/search.py` and the requests of
`utils/query_log.py`). Nothing looks at what the query says: one that closes the parenthesis around
it puts an alternative in front of the rules, and one that leaves a quote open takes the `AND` into
a quoted text.
-/

namespace LogGroups

open LogsQL

abbrev Text := List Char

local instance : LawfulBEq Text := inferInstance

/-! ### Rules -/

/-- A condition of a rule, each value as `str` writes it; none for a key that is missing. -/
structure Condition where
  field : Option Text
  op : Option Text
  value : Option Text
deriving DecidableEq, Repr

/-- A key of a rule: it may be missing, and its value may have a type the code cannot use. -/
inductive Entry (α : Type)
  | missing
  | unusable
  | value (a : α)
deriving DecidableEq, Repr

/-- The `rule` column. -/
inductive Rule
  | falsy
  | notDict
  | dict (mode : Entry Text) (conditions : Entry (List Condition))
deriving DecidableEq, Repr

structure LogGroup where
  id : Text
  name : Text
  rule : Rule
deriving DecidableEq, Repr

/-- `escape_regex_value`: a backslash in front of each special character, one kind at a time. -/
def escapeRegexValue (value : Text) : Text :=
  "\\.^$*+?\x7b\x7d[]|()".toList.foldl
    (fun escaped char => escaped.flatMap fun c => if c = char then ['\\', c] else [c]) value

/-- `op_map.get(op)`. -/
def opMap (op : Text) : Option (Text → Text → Text) :=
  if op = "==".toList then some fun f v => f ++ ":\"".toList ++ v ++ "\"".toList
  else if op = "!=".toList then some fun f v => "!".toList ++ f ++ ":\"".toList ++ v ++ "\"".toList
  else if op = "contains".toList then
    some fun f v => f ++ ":re(\".*".toList ++ escapeRegexValue v ++ ".*\")".toList
  else if op = "!contains".toList then
    some fun f v => "!".toList ++ f ++ ":re(\".*".toList ++ escapeRegexValue v ++ ".*\")".toList
  else if op = "startswith".toList then some fun f v => f ++ ":".toList ++ v ++ "*".toList
  else if op = "endswith".toList then some fun f v => f ++ ":*".toList ++ v
  else none

def conditionExpression (rule : Condition) : Except Py.PyError Text := do
  let field ← rule.field.elim (.error .keyError) .ok
  let op ← rule.op.elim (.error .keyError) .ok
  let value ← rule.value.elim (.error .keyError) .ok
  match opMap op with
  | some exprFunc => .ok (exprFunc field value)
  | none => .error .valueError

/-- `connector.join(expressions)`. -/
def join (connector : Text) : List Text → Text
  | [] => []
  | [expression] => expression
  | expression :: expressions => expression ++ connector ++ join connector expressions

def jsonToLogsqlExpression : Rule → Except Py.PyError Text
  | .falsy => .ok []
  | .notDict => .error .attributeError
  | .dict mode conditions => do
    let mode ← match mode with
      | .missing => .ok "AND".toList
      | .unusable => .error .attributeError
      | .value mode => .ok (mode.map Char.toUpper)
    let connector := if mode = "AND".toList then " AND ".toList else " OR ".toList
    let conditions ← match conditions with
      | .missing => .ok []
      | .unusable => .error .typeError
      | .value conditions => .ok conditions
    let expressions ← conditions.mapM conditionExpression
    match expressions with
    | [] => .ok []
    | [expression] => .ok expression
    | expressions => .ok ("(".toList ++ join connector expressions ++ ")".toList)

/-! ### The query of the groups -/

inductive Status
  | emptyRule
  | invalidRule
  | applied
deriving DecidableEq, Repr

/-- `_build_group_conditions`: the conditions, and the writes to `invalid_group_status`. -/
def buildGroupConditions : List LogGroup → List Text × List (Text × Status)
  | [] => ([], [])
  | group :: groups =>
    let rest := buildGroupConditions groups
    match group.rule with
    | .falsy => (rest.1, (group.id, .emptyRule) :: rest.2)
    | rule =>
      match jsonToLogsqlExpression rule with
      | .ok condition =>
        if Py.strip condition ≠ [] then (condition :: rest.1, rest.2)
        else (rest.1, (group.id, .emptyRule) :: rest.2)
      | .error _ => (rest.1, (group.id, .invalidRule) :: rest.2)

structure GroupInfo where
  id : Text
  name : Text
  status : Status
deriving DecidableEq, Repr

/-- `group_info`: the last write for an id counts. -/
def groupInfo (groups : List LogGroup) : List GroupInfo :=
  let invalidGroupStatus := (buildGroupConditions groups).2.reverse
  groups.map fun group =>
    { id := group.id, name := group.name
      status := (invalidGroupStatus.lookup group.id).getD .applied }

def denyAllQuery : Text :=
  "(__bk_lite_log_scope__:\"deny-1\") AND (__bk_lite_log_scope__:\"deny-2\")".toList

def groupFilter : List Text → Text
  | [condition] => condition
  | conditions => "(".toList ++ join " OR ".toList conditions ++ ")".toList

def combineQueryAndGroups (userQuery : Text) (groupConditions : List Text) : Text :=
  let userQuery := Py.strip userQuery
  if groupConditions = [] then denyAllQuery
  else
    let groupFilter := groupFilter groupConditions
    if '|' ∈ userQuery then
      let filterPart := Py.strip (userQuery.takeWhile (· ≠ '|'))
      let aggregationPart := Py.strip (userQuery.dropWhile (· ≠ '|')).tail
      let combinedFilter :=
        if filterPart ≠ [] then
          "(".toList ++ filterPart ++ ") AND (".toList ++ groupFilter ++ ")".toList
        else groupFilter
      combinedFilter ++ " | ".toList ++ aggregationPart
    else if userQuery ≠ [] then
      "(".toList ++ userQuery ++ ") AND (".toList ++ groupFilter ++ ")".toList
    else groupFilter

/-- `build_query_with_groups`; `store` is what `LogGroup.objects.filter(id__in=…)` returns, nothing
if it fails. -/
def buildQueryWithGroups (store : List Text → List LogGroup) (userQuery : Text)
    (logGroupIds : List Text) (resolvedGroups : Option (List LogGroup)) :
    Text × List GroupInfo :=
  if logGroupIds = [] then (userQuery, [])
  else
    let normalizedIds := (logGroupIds.map Py.strip).filter (· ≠ [])
    let validGroups := resolvedGroups.getD (store normalizedIds)
    if validGroups = [] then (denyAllQuery, [])
    else
      let groupConditions := (buildGroupConditions validGroups).1
      let info := groupInfo validGroups
      let unscoped := if userQuery ≠ [] then Py.strip userQuery else "*".toList
      if "default".toList ∈ normalizedIds then
        let default : GroupInfo :=
          { id := "default".toList, name := "Default".toList, status := .emptyRule }
        (unscoped, if ∃ item ∈ info, item.id = "default".toList then info else default :: info)
      else if groupConditions = [] then
        if ∀ item ∈ info, item.status = .emptyRule then (unscoped, info)
        else (denyAllQuery, info)
      else (combineQueryAndGroups userQuery groupConditions, info)

/-! ### The searches -/

def appendFilter (query extraFilter : Text) : Text :=
  let baseQuery := Py.strip query
  if baseQuery = [] ∨ baseQuery = "*".toList then extraFilter
  else "(".toList ++ baseQuery ++ ") AND ".toList ++ extraFilter

inductive Search
  | searchLogs
  | searchHits
  | tail
  | allFieldNames
  | fieldValues (field : Text)
  | topStats (attr : Text) (topNum : ℤ)
deriving DecidableEq, Repr

/-- The query a search hands to `build_query_with_groups`. -/
def Search.userQuery : Search → Text → Text
  | .fieldValues field, query => appendFilter query (field ++ ":*".toList)
  | .topStats attr _, query => appendFilter query (attr ++ ":*".toList)
  | _, query => query

def Search.suffixes : Search → List Text
  | .topStats attr topNum =>
    [" | stats count() as total_count".toList,
      " | stats by (".toList ++ attr ++
        ") count() as entry_count | sort by (entry_count) desc | limit ".toList ++
        (toString topNum).toList]
  | _ => [[]]

/-- `json.loads` of a text, if that is a string. A JSON string is one quoted text of LogsQL. -/
structure Env where
  loads : Text → Option Text
  loads_quoted : ∀ text decoded, loads text = some decoded → ∃ s, lex text = some [.quoted s]

/-- The loop of `_normalize_logsql_query`, the number of rounds given. -/
def decode (env : Env) : ℕ → Text → Text
  | 0, current => current
  | n + 1, current =>
    match env.loads current with
    | none => current
    | some decoded =>
      if Py.strip decoded = [] ∨ Py.strip decoded = current then Py.strip decoded
      else decode env n (Py.strip decoded)

def normalizeLogsqlQuery (env : Env) (query : Text) : Text :=
  if Py.strip query = [] then [] else decode env 2 (Py.strip query)

/-- `query or …` of a request. -/
def Search.request (env : Env) (search : Search) (query : Text) : Text :=
  let normalized := normalizeLogsqlQuery env query
  match search with
  | .allFieldNames => if normalized = [] then "*".toList else normalized
  | .fieldValues field => if normalized = [] then field ++ ":*".toList else normalized
  | _ => normalized

def sent (env : Env) (store : List Text → List LogGroup) (search : Search) (query : Text)
    (logGroups : List Text) (resolvedGroups : Option (List LogGroup)) : List Text :=
  let final := buildQueryWithGroups store (search.userQuery query) logGroups resolvedGroups
  search.suffixes.map fun suffix => search.request env (final.1 ++ suffix)

end LogGroups
