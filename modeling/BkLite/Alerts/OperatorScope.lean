import BkLite.Alerts.Model

/-!
# Who an alert may be handed to

`utils/operator_scope.py`: the personnel of a dispatch are normalised to a list of
distinct non-empty user names, and every one of them must be a known user who
belongs to one of the alert's organisations.
-/

namespace Alerts

open Py

/-- `username.strip()`. -/
def stripped (s : String) : String := String.ofList (strip s.toList)

def usernameItems : Value → List String
  | .str s => if s = "" then [] else [s]
  | .list xs => xs.filterMap fun
    | .str s => some s
    | _ => none
  | _ => []

def normalizeUsernames (usernames : Value) : List String :=
  fromKeys (((usernameItems usernames).map stripped).filter (· ≠ ""))

/-- `normalize_group_ids`: the entries that `int()` accepts. -/
def normalizeGroupIds (groupValues : List Value) : List ℤ :=
  groupValues.filterMap fun group =>
    let groupId := match group with
      | .dict kvs => Value.lookup kvs "id"
      | g => g
    groupId.toInt.toOption

def normalizeTeamIds : Value → Except PyError (List ℤ)
  | .null | .str "" => .ok []
  | .list teamIds => (teamIds.mapM Value.toInt).mapError fun _ => .valueError
  | _ => .error .valueError

def safeTeam (dispatchTeam : Value) : List Value :=
  match normalizeTeamIds dispatchTeam with
  | .ok teamIds => teamIds.map .int
  | .error _ => []

def buildMissingUsersMessage (usernames : List String) : String :=
  "以下处理人不存在: " ++ ", ".intercalate usernames

def buildOutOfScopeMessage (usernames : List String) (scopeName : String) : String :=
  "以下处理人不在" ++ scopeName ++ "组织范围内: " ++ ", ".intercalate usernames

def findUser (users : List User) (username : String) : Option User :=
  users.find? (·.username = username)

def inGroups (users : List User) (allowedGroupIds : List ℤ) (username : String) : Bool :=
  (findUser users username).any fun user =>
    (normalizeGroupIds user.groupList).any (· ∈ allowedGroupIds)

def validateUsernamesInGroups (users : List User) (usernames : Value)
    (allowedGroupIds : List ℤ) (scopeName : String) : List String × Option String :=
  let normalized := normalizeUsernames usernames
  let missing := normalized.filter fun u => (findUser users u).isNone
  let invalid := normalized.filter fun u => !inGroups users allowedGroupIds u
  if normalized = [] then (normalized, none)
  else if missing ≠ [] then (normalized, some (buildMissingUsersMessage missing))
  else if invalid ≠ [] then (normalized, some (buildOutOfScopeMessage invalid scopeName))
  else (normalized, none)

def validateAlertAssignees (users : List User) (alert : Alert) (usernames : Value) :
    List String × Option String :=
  validateUsernamesInGroups users usernames (normalizeGroupIds alert.team) "告警所属"

@[simp] theorem validateUsernamesInGroups_fst (users : List User) (usernames : Value)
    (allowed : List ℤ) (scope : String) :
    (validateUsernamesInGroups users usernames allowed scope).1 = normalizeUsernames usernames := by
  simp only [validateUsernamesInGroups]
  split_ifs <;> rfl

end Alerts
