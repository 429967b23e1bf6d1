import BkLite.Framework.OrderedDict
import Mathlib.Data.List.Dedup

/-!
# Permission rules

A `GroupDataRule` holds for each module the instances that a user of the rule may see: a list of
entries, or a dict of child modules whose data is a list or, one level down, again a dict of lists.
The rules of a user are read in two ways. `get_user_rules_by_app` looks for one child module in
every rule, and `permission_filter` goes by what it finds; `get_user_rules_by_module` collects the
data of all child modules, and `get_instance_permissions` picks the one of the object.

An id stands in an entry as a number or as its text; ids are compared as texts. Which roles a user
has and what is below a group are read from the directory.
-/

namespace Core
namespace PermissionRules

open OrderedDict (get Keyed)

/-! ### The rules -/

inductive EntryId
  | int (n : ℤ)
  | str (s : String)
deriving DecidableEq

/-- `str(id)`. -/
def EntryId.text : EntryId → String
  | .int n => toString n
  | .str s => s

structure Entry where
  id : EntryId
  permission : List String := []
deriving DecidableEq

inductive ChildData
  | entries (es : List Entry)
  | nested (subs : OrderedDict String (List Entry)) (keyed : Keyed subs)

inductive ModuleData
  | entries (es : List Entry)
  | children (cs : OrderedDict String ChildData) (keyed : Keyed cs)

structure GroupDataRule where
  groupId : ℕ
  groupName : String
  app : String
  rules : OrderedDict String ModuleData
  keyed : Keyed rules

/-- `UserRule`; a `GroupDataRule` is known by its place in the table. -/
structure UserRule where
  username : String
  domain : String
  groupRule : ℕ

structure Db where
  groupDataRules : List GroupDataRule
  userRules : List UserRule

/-! ### What a rule grants -/

/-- What `process_rule_data` is given: a list of entries, or some dict. -/
inductive RuleData
  | entries (es : List Entry)
  | dict

def ChildData.data : ChildData → RuleData
  | .entries es => .entries es
  | .nested _ _ => .dict

def ModuleData.data : ModuleData → RuleData
  | .entries es => .entries es
  | .children _ _ => .dict

def ChildData.sub (target : String) : ChildData → Option (List Entry)
  | .entries _ => none
  | .nested subs _ => get subs target

def findChildModuleData (moduleData : ModuleData) (target : String) : RuleData :=
  match moduleData with
  | .entries _ => .entries []
  | .children cs _ =>
    match get cs target with
    | some child => child.data
    | none => .entries ((cs.findSome? fun c => c.2.sub target).getD [])

def named (es : List Entry) : List Entry := es.filter fun e => e.id ≠ .str "-1" ∧ e.id ≠ .int (-1)

def hasZero (es : List Entry) : Bool := es.any fun e => e.id = .int 0 ∨ e.id = .str "0"

/-- `process_rule_data`: whether all instances are granted, and the entries otherwise. -/
def processRuleData : RuleData → Bool × List Entry
  | .dict => (true, [])
  | .entries es =>
    if es = [] then (true, [])
    else if hasZero (named es) = true then (true, [])
    else (false, named es)

structure Obj where
  id : String
  teams : List ℕ

def RuleData.Grants (data : RuleData) (groupId : ℕ) (o : Obj) : Prop :=
  if (processRuleData data).1 = true then groupId ∈ o.teams
  else ∃ e ∈ (processRuleData data).2, e.id.text = o.id

instance (data : RuleData) (groupId : ℕ) (o : Obj) : Decidable (data.Grants groupId o) := by
  unfold RuleData.Grants
  infer_instance

/-! ### Permissions -/

/-- `{"instance": [...], "team": [...]}`. -/
structure Permission where
  instances : List Entry := []
  team : List ℕ := []

/-- `permission_filter`, of one object. -/
def permissionFilter (permission : Permission) (o : Obj) : Bool :=
  let perInstanceIds := permission.instances.map (·.id)
  let perTeamIds := permission.team
  let byInstance := perInstanceIds.any fun id => id.text = o.id
  let byTeam := o.teams.any (· ∈ perTeamIds)
  if perInstanceIds = [] ∧ perTeamIds = [] then false
  else if perInstanceIds ≠ [] ∧ perTeamIds = [] then byInstance
  else byTeam || byInstance

def Permission.Passes (permission : Permission) (o : Obj) : Prop :=
  (∃ team ∈ o.teams, team ∈ permission.team) ∨ ∃ e ∈ permission.instances, e.id.text = o.id

theorem permissionFilter_iff {permission : Permission} {o : Obj} :
    permissionFilter permission o = true ↔ permission.Passes o := by
  obtain ⟨instances, team⟩ := permission
  unfold permissionFilter Permission.Passes
  cases instances <;> cases team <;> simp

def defaultPermission : List String := ["View", "Operate"]

def merge (currentPermissions : List String) (e : Entry) : List String :=
  let nextPermissions := if e.permission = [] then defaultPermission else e.permission
  let mergedPermissions := (currentPermissions ++ nextPermissions).eraseDups
  if mergedPermissions = [] then defaultPermission else mergedPermissions

def normalizeInstancePermissions (es : List Entry) : OrderedDict String (List String) :=
  es.foldl (fun permissionMap e => OrderedDict.set permissionMap e.id.text
    (merge ((get permissionMap e.id.text).getD []) e)) []

def getInstancePermissions (objectTypeId : String) (o : Obj)
    (permissions : OrderedDict String Permission) (curTeam : List ℕ) : List String :=
  let adminCurTeam := ((get permissions "all").map (·.team)).getD []
  if o.teams.any (· ∈ adminCurTeam) = true then defaultPermission
  else
    match get permissions objectTypeId with
    | none => if o.teams.any (· ∈ curTeam) = true then defaultPermission else []
    | some permission =>
      match get (normalizeInstancePermissions permission.instances) o.id with
      | some granted => granted
      | none => if o.teams.any (· ∈ permission.team) = true then defaultPermission else []

/-! ### The two readings of the rules -/

structure User where
  username : String
  domain : String
  groupList : List ℕ

structure Role where
  id : ℕ
  name : String
  app : String

/-- Users, roles and groups; `groupWithDescendants` finds the groups below one. -/
structure Directory where
  users : List User
  roles : List Role
  guestGroup : Option ℕ
  getUserAllRoles : User → List ℕ
  groupWithDescendants : ℕ → List ℕ → List ℕ

structure Query where
  groupId : ℕ
  username : String
  domain : String
  includeChildren : Bool := false

structure Prepared where
  queryGroupIds : List ℕ
  adminTeams : List ℕ
  hasGuestGroup : Bool
  isAdmin : Bool

def prepareUserRulesQuery (dir : Directory) (q : Query) (app : String) : Option Prepared :=
  (dir.users.find? fun u => u.username = q.username ∧ u.domain = q.domain).map fun u =>
    let adminList := (dir.roles.filter fun r => r.name = "admin" ∧ (r.app = "" ∨ r.app = app)).map
      (·.id)
    let queryGroupIds := ((if q.includeChildren = true then
      dir.groupWithDescendants q.groupId u.groupList else []) ++ [q.groupId]).dedup
    let hasGuestGroup := dir.guestGroup.any (· ∈ u.groupList)
    { queryGroupIds
      adminTeams := queryGroupIds ++ if hasGuestGroup = true then dir.guestGroup.toList else []
      hasGuestGroup
      isAdmin := (dir.getUserAllRoles u).any (· ∈ adminList) }

structure RuleOf where
  groupId : ℕ
  moduleData : ModuleData

def rulesOf (db : Db) (q : Query) (p : Prepared) (app module : String) : List RuleOf :=
  (db.userRules.filter fun u => u.username = q.username ∧ u.domain = q.domain).filterMap fun u =>
    match db.groupDataRules[u.groupRule]? with
    | none => none
    | some r =>
      if r.app = app ∧ (r.groupId ∈ p.queryGroupIds ∨
          p.hasGuestGroup = true ∧ r.groupName = "OpsPilotGuest") then
        (get r.rules module).map (⟨r.groupId, ·⟩)
      else none

def freeTeams (p : Prepared) (rules : List RuleOf) : List ℕ :=
  p.adminTeams.filter (· ∉ rules.map (·.groupId))

/-- What `get_user_rules_by_app` takes from the data of a rule. -/
def Permission.add (permission : Permission) (data : RuleData) (groupId : ℕ) : Permission :=
  let (hasAllPermission, instanceData) := processRuleData data
  if hasAllPermission = true then { permission with team := permission.team ++ [groupId] }
  else { permission with instances := permission.instances ++ instanceData }

/-- The data of a rule that `get_user_rules_by_app` goes by. -/
def targetData (moduleData : ModuleData) (childModule : String) : RuleData :=
  if childModule = "" then moduleData.data else findChildModuleData moduleData childModule

def getUserRulesByApp (dir : Directory) (db : Db) (q : Query) (app module childModule : String) :
    Permission :=
  match prepareUserRulesQuery dir q app with
  | none => {}
  | some p =>
    if p.isAdmin = true then { team := p.adminTeams }
    else
      let rules := rulesOf db q p app module
      if rules.isEmpty = true then { team := p.adminTeams }
      else rules.foldl (fun permission rule =>
        permission.add (targetData rule.moduleData childModule) rule.groupId)
          { team := freeTeams p rules }

def accumulateRuleResult (result : OrderedDict String Permission) (key : String) (data : RuleData)
    (groupId : ℕ) (allPermissionTeam : List ℕ) : OrderedDict String Permission :=
  let permission := (get result key).getD { team := allPermissionTeam }
  OrderedDict.set result key <|
    if (processRuleData data).1 = true ∧ groupId ∈ permission.team then permission
    else permission.add data groupId

def ChildData.items (category : String) : ChildData → List (String × List Entry)
  | .entries es => [(category, es)]
  | .nested subs _ => subs

/-- All data of a module; `none` where the module has a list and there is no `.items()`. -/
def ModuleData.items? : ModuleData → Option (List (String × List Entry))
  | .entries _ => none
  | .children cs _ => some (cs.flatMap fun c => c.2.items c.1)

def ModuleData.items (moduleData : ModuleData) : List (String × List Entry) :=
  moduleData.items?.getD []

def ChildData.subNames : ChildData → List String
  | .entries _ => []
  | .nested subs _ => subs.map (·.1)

def ModuleData.names : ModuleData → List String
  | .entries _ => []
  | .children cs _ => cs.flatMap fun c => c.1 :: c.2.subNames

/-- `{"data": ..., "team": ...}`. -/
structure ModuleRules where
  data : OrderedDict String Permission := []
  team : List ℕ := []

/-- What is read of a rule: the name of the child module, its entries, and the group. -/
structure Mention where
  key : String
  es : List Entry
  groupId : ℕ

def RuleOf.mentions (rule : RuleOf) : List Mention :=
  rule.moduleData.items.map fun item => ⟨item.1, item.2, rule.groupId⟩

def mentions? (rules : List RuleOf) : Option (List Mention) :=
  if rules.all (·.moduleData.items?.isSome) = true then some (rules.flatMap RuleOf.mentions)
  else none

theorem mentions?_eq_some {rules : List RuleOf} {ms : List Mention} : mentions? rules = some ms ↔
    (∀ rule ∈ rules, rule.moduleData.items? ≠ none) ∧ rules.flatMap RuleOf.mentions = ms := by
  unfold mentions?
  rw [Option.ite_none_right_eq_some, Option.some_inj]
  simp only [List.all_eq_true, Option.isSome_iff_ne_none]

theorem mem_mentions {rules : List RuleOf} {m : Mention} : m ∈ rules.flatMap RuleOf.mentions ↔
    ∃ rule ∈ rules, ∃ item ∈ rule.moduleData.items, ⟨item.1, item.2, rule.groupId⟩ = m := by
  simp only [List.mem_flatMap, RuleOf.mentions, List.mem_map]

/-- `get_user_rules_by_module`; `none` is an exception. -/
def getUserRulesByModule (dir : Directory) (db : Db) (q : Query) (app module : String) :
    Option ModuleRules :=
  match prepareUserRulesQuery dir q app with
  | none => some {}
  | some p =>
    if p.isAdmin = true then some ⟨[("all", { team := p.adminTeams })], p.adminTeams⟩
    else
      let rules := rulesOf db q p app module
      (mentions? rules).map fun mentions =>
        ⟨mentions.foldl (fun result m => accumulateRuleResult result m.key (.entries m.es) m.groupId
          (freeTeams p rules)) [], p.adminTeams⟩

/-- `get_permissions_rules`: an exception leaves nothing. -/
def getPermissionsRules (dir : Directory) (db : Db) (q : Query) (app module : String) :
    ModuleRules :=
  (getUserRulesByModule dir db q app module).getD {}

/-! ### What the data of rules adds up to -/

section Grants

variable {permission : Permission} {data : RuleData} {groupId : ℕ} {o : Obj} {dir : Directory}
  {db : Db} {q : Query} {p : Prepared} {app module childModule key : String} {team : List ℕ}

theorem passes_add : (permission.add data groupId).Passes o ↔
    permission.Passes o ∨ data.Grants groupId o := by
  unfold Permission.add RuleData.Grants Permission.Passes
  generalize processRuleData data = processed
  obtain ⟨hasAll, es⟩ := processed
  cases hasAll with
  | true =>
    simp only [List.mem_append, List.mem_singleton, if_true]
    constructor
    · rintro (⟨t, h_t, h_team | rfl⟩ | h_entry)
      · exact .inl (.inl ⟨t, h_t, h_team⟩)
      · exact .inr h_t
      · exact .inl (.inr h_entry)
    · rintro ((⟨t, h_t, h_team⟩ | h_entry) | h_group)
      · exact .inl ⟨t, h_t, .inl h_team⟩
      · exact .inr h_entry
      · exact .inl ⟨groupId, h_group, .inr rfl⟩
  | false =>
    simp only [List.mem_append, Bool.false_eq_true, if_false]
    constructor
    · rintro (h_team | ⟨e, h_e | h_e, h_id⟩)
      · exact .inl (.inl h_team)
      · exact .inl (.inr ⟨e, h_e, h_id⟩)
      · exact .inr ⟨e, h_e, h_id⟩
    · rintro ((h_team | ⟨e, h_e, h_id⟩) | ⟨e, h_e, h_id⟩)
      · exact .inl h_team
      · exact .inr ⟨e, .inl h_e, h_id⟩
      · exact .inr ⟨e, .inr h_e, h_id⟩

theorem passes_foldl_add {Row : Type} (rows : List Row) (data : Row → RuleData)
    (groupId : Row → ℕ) : (rows.foldl (fun permission row =>
      permission.add (data row) (groupId row)) permission).Passes o ↔
        permission.Passes o ∨ ∃ row ∈ rows, (data row).Grants (groupId row) o := by
  induction rows generalizing permission with
  | nil => simp
  | cons row rows ih =>
    rw [List.foldl_cons, ih, passes_add, or_assoc]
    simp only [List.mem_cons, exists_eq_or_imp]

theorem passes_team : Permission.Passes { team } o ↔ ∃ t ∈ o.teams, t ∈ team := by
  simp [Permission.Passes]

/-- **One child module.** An object passes by a team that none of the rules is for, or by the data
that is found in some rule. -/
theorem passes_getUserRulesByApp (h_p : prepareUserRulesQuery dir q app = some p)
    (h_user : p.isAdmin = false) :
    permissionFilter (getUserRulesByApp dir db q app module childModule) o = true ↔
      (∃ t ∈ o.teams, t ∈ freeTeams p (rulesOf db q p app module)) ∨
        ∃ rule ∈ rulesOf db q p app module,
          (targetData rule.moduleData childModule).Grants rule.groupId o := by
  rw [permissionFilter_iff]
  unfold getUserRulesByApp
  rw [h_p]
  dsimp only
  rw [if_neg (by rw [h_user]; exact Bool.false_ne_true)]
  cases h_rules : rulesOf db q p app module with
  | nil => simp [passes_team, freeTeams]
  | cons rule rules =>
    rw [List.isEmpty_cons, if_neg Bool.false_ne_true, passes_foldl_add, passes_team]

theorem defaultPermission_ne_nil : defaultPermission ≠ [] := List.cons_ne_nil _ _

theorem merge_ne_nil (current : List String) (e : Entry) : merge current e ≠ [] := by
  unfold merge
  dsimp only
  by_cases h_merged : (current ++ if e.permission = [] then defaultPermission else
      e.permission).eraseDups = []
  · rw [if_pos h_merged]
    exact defaultPermission_ne_nil
  · rwa [if_neg h_merged]

theorem get_normalizeInstancePermissions (es : List Entry) (key : String) :
    (get (normalizeInstancePermissions es) key = none ↔ ∀ e ∈ es, e.id.text ≠ key) ∧
      get (normalizeInstancePermissions es) key ≠ some [] := by
  unfold normalizeInstancePermissions
  induction es using List.reverseRecOn with
  | nil => simp [OrderedDict.get_nil]
  | append_singleton es e ih =>
    rw [List.foldl_append, List.foldl_cons, List.foldl_nil, OrderedDict.get_set,
      List.forall_mem_append, List.forall_mem_singleton]
    by_cases h_key : e.id.text = key
    · rw [if_pos h_key]
      refine ⟨iff_of_false (Option.some_ne_none _) fun h => h.2 h_key, fun h_nil => ?_⟩
      exact merge_ne_nil _ e (Option.some.inj h_nil)
    · rw [if_neg h_key, and_iff_left h_key]
      exact ih

theorem ite_defaultPermission_ne_nil :
    (if o.teams.any (· ∈ team) = true then defaultPermission else []) ≠ [] ↔
      ∃ t ∈ o.teams, t ∈ team := by
  have h_any : o.teams.any (· ∈ team) = true ↔ ∃ t ∈ o.teams, t ∈ team := by simp
  rw [← h_any]
  split_ifs with h_team
  · exact iff_of_true defaultPermission_ne_nil h_team
  · exact iff_of_false (fun h => h rfl) h_team

/-- **Permissions of an instance.** It has some by a team of the administrator, or where it passes
what is read for its type. -/
theorem instancePermissions_ne_nil {typeId : String} {permissions : OrderedDict String Permission}
    {curTeam : List ℕ} : getInstancePermissions typeId o permissions curTeam ≠ [] ↔
      (∃ t ∈ o.teams, t ∈ ((get permissions "all").map (·.team)).getD []) ∨
        ((get permissions typeId).getD { team := curTeam }).Passes o := by
  unfold getInstancePermissions
  dsimp only
  by_cases h_admin : o.teams.any (· ∈ ((get permissions "all").map (·.team)).getD []) = true
  · rw [if_pos h_admin]
    exact iff_of_true defaultPermission_ne_nil (.inl (by simpa using h_admin))
  rw [if_neg h_admin, or_iff_right (by simpa using h_admin)]
  cases h_type : get permissions typeId with
  | none =>
    rw [Option.getD_none, passes_team]
    exact ite_defaultPermission_ne_nil
  | some permission =>
    rw [Option.getD_some]
    dsimp only
    obtain ⟨h_none, h_nonempty⟩ := get_normalizeInstancePermissions permission.instances o.id
    cases h_get : get (normalizeInstancePermissions permission.instances) o.id with
    | none =>
      have h_not := h_none.mp h_get
      unfold Permission.Passes
      rw [or_iff_left (not_exists.mpr fun e h => h_not e h.1 h.2)]
      exact ite_defaultPermission_ne_nil
    | some granted =>
      refine iff_of_true (fun h_nil => h_nonempty (h_get.trans (congrArg some h_nil))) (.inr ?_)
      by_contra h_not
      push Not at h_not
      rw [h_none.mpr h_not] at h_get
      cases h_get

theorem accumulate_iff {F : Permission → Prop} {G : RuleData → ℕ → Prop}
    (h_add : ∀ permission data groupId,
      F (permission.add data groupId) ↔ F permission ∨ G data groupId)
    (h_there : ∀ permission data groupId, (processRuleData data).1 = true →
      groupId ∈ permission.team → G data groupId → F permission)
    {result : OrderedDict String Permission} {key' : String} :
    F ((get (accumulateRuleResult result key' data groupId team) key).getD { team }) ↔
      F ((get result key).getD { team }) ∨ key' = key ∧ G data groupId := by
  unfold accumulateRuleResult
  dsimp only
  rw [OrderedDict.get_set]
  by_cases h_key : key' = key
  · subst h_key
    rw [if_pos rfl, Option.getD_some, and_iff_right rfl]
    split_ifs with h_group
    · exact (or_iff_left_of_imp (h_there _ data groupId h_group.1 h_group.2)).symm
    · exact h_add _ data groupId
  · rw [if_neg h_key, or_iff_left fun h => h_key h.1]

theorem foldl_accumulate_iff {F : Permission → Prop} {G : RuleData → ℕ → Prop}
    (h_add : ∀ permission data groupId,
      F (permission.add data groupId) ↔ F permission ∨ G data groupId)
    (h_there : ∀ permission data groupId, (processRuleData data).1 = true →
      groupId ∈ permission.team → G data groupId → F permission)
    {result : OrderedDict String Permission} (ms : List Mention) :
    F ((get (ms.foldl (fun result m => accumulateRuleResult result m.key (.entries m.es) m.groupId
      team) result) key).getD { team }) ↔ F ((get result key).getD { team }) ∨
        ∃ m ∈ ms, m.key = key ∧ G (.entries m.es) m.groupId := by
  induction ms generalizing result with
  | nil => simp
  | cons m ms ih =>
    rw [List.foldl_cons, ih, accumulate_iff h_add h_there, or_assoc]
    simp only [List.mem_cons, exists_eq_or_imp]

theorem get_foldl_accumulate {result : OrderedDict String Permission} (ms : List Mention) :
    get (ms.foldl (fun result m => accumulateRuleResult result m.key (.entries m.es) m.groupId
      team) result) key = none ↔ get result key = none ∧ ∀ m ∈ ms, m.key ≠ key := by
  induction ms generalizing result with
  | nil => simp
  | cons m ms ih =>
    rw [List.foldl_cons, ih, List.forall_mem_cons]
    unfold accumulateRuleResult
    dsimp only
    rw [OrderedDict.get_set]
    by_cases h_key : m.key = key
    · rw [if_pos h_key]
      exact iff_of_false (fun h => Option.some_ne_none _ h.1) fun h => h.2.1 h_key
    · rw [if_neg h_key, and_iff_right h_key]

def RuleData.Opens (data : RuleData) : Prop := (processRuleData data).1 = true

instance (data : RuleData) : Decidable data.Opens := inferInstanceAs (Decidable (_ = true))

theorem grants_of_opens (h : data.Opens) : data.Grants groupId o ↔ groupId ∈ o.teams := by
  unfold RuleData.Opens at h
  rw [RuleData.Grants, if_pos h]

theorem mem_team_add {t : ℕ} : t ∈ (permission.add data groupId).team ↔
    t ∈ permission.team ∨ data.Opens ∧ t = groupId := by
  unfold Permission.add RuleData.Opens
  dsimp only
  split_ifs with h_all
  · rw [List.mem_append, List.mem_singleton, and_iff_right h_all]
  · rw [or_iff_left fun h => h_all h.1]

def Mentioned (ms : List Mention) (key : String) : Prop := ∃ m ∈ ms, m.key = key

instance (ms : List Mention) (key : String) : Decidable (Mentioned ms key) :=
  inferInstanceAs (Decidable (∃ _ ∈ _, _))

def GrantedUnder (ms : List Mention) (key : String) (o : Obj) : Prop :=
  ∃ m ∈ ms, m.key = key ∧ (RuleData.entries m.es).Grants m.groupId o

/-- Some data that is read under `all` grants all objects of a group of the object. -/
def OpenUnderAll (ms : List Mention) (o : Obj) : Prop :=
  ∃ m ∈ ms, m.key = "all" ∧ (RuleData.entries m.es).Opens ∧ m.groupId ∈ o.teams

theorem get_mentions_eq_none {ms : List Mention} :
    get (ms.foldl (fun result m => accumulateRuleResult result m.key (.entries m.es) m.groupId
      team) []) key = none ↔ ¬Mentioned ms key := by
  rw [get_foldl_accumulate, and_iff_right OrderedDict.get_nil]
  unfold Mentioned
  push Not
  rfl

theorem getPermissionsRules_of_user {ms : List Mention}
    (h_p : prepareUserRulesQuery dir q app = some p) (h_user : p.isAdmin = false)
    (h_ms : mentions? (rulesOf db q p app module) = some ms) :
    getPermissionsRules dir db q app module =
      ⟨ms.foldl (fun result m => accumulateRuleResult result m.key (.entries m.es) m.groupId
        (freeTeams p (rulesOf db q p app module))) [], p.adminTeams⟩ := by
  unfold getPermissionsRules getUserRulesByModule
  rw [h_p]
  dsimp only
  rw [if_neg (by rw [h_user]; exact Bool.false_ne_true), h_ms]
  rfl

theorem instancePermissions_of_exception {typeId : String}
    (h_p : prepareUserRulesQuery dir q app = some p) (h_user : p.isAdmin = false)
    (h_ms : mentions? (rulesOf db q p app module) = none) :
    getInstancePermissions typeId o (getPermissionsRules dir db q app module).data
      (getPermissionsRules dir db q app module).team = [] := by
  by_contra h_some
  have h_rules : getPermissionsRules dir db q app module = {} := by
    unfold getPermissionsRules getUserRulesByModule
    rw [h_p]
    dsimp only
    rw [if_neg (by rw [h_user]; exact Bool.false_ne_true), h_ms]
    rfl
  rw [← ne_eq, instancePermissions_ne_nil, h_rules] at h_some
  simp [OrderedDict.get_nil, Permission.Passes] at h_some

theorem get_data_eq_none {ms : List Mention} (h_p : prepareUserRulesQuery dir q app = some p)
    (h_user : p.isAdmin = false) (h_ms : mentions? (rulesOf db q p app module) = some ms) :
    get (getPermissionsRules dir db q app module).data key = none ↔ ¬Mentioned ms key := by
  rw [getPermissionsRules_of_user h_p h_user h_ms]
  exact get_mentions_eq_none

/-- **All child modules.** By what is read under its type, or its organizations, or under `all`. -/
theorem instancePermissions_getPermissionsRules {ms : List Mention} {typeId : String}
    (h_p : prepareUserRulesQuery dir q app = some p) (h_user : p.isAdmin = false)
    (h_ms : mentions? (rulesOf db q p app module) = some ms) :
    getInstancePermissions typeId o (getPermissionsRules dir db q app module).data
        (getPermissionsRules dir db q app module).team ≠ [] ↔
      (Mentioned ms "all" ∧ ((∃ t ∈ o.teams, t ∈ freeTeams p (rulesOf db q p app module)) ∨
        OpenUnderAll ms o)) ∨
      if Mentioned ms typeId then
        (∃ t ∈ o.teams, t ∈ freeTeams p (rulesOf db q p app module)) ∨ GrantedUnder ms typeId o
      else ∃ t ∈ o.teams, t ∈ p.adminTeams := by
  rw [instancePermissions_ne_nil, getPermissionsRules_of_user h_p h_user h_ms]
  dsimp only
  generalize freeTeams p (rulesOf db q p app module) = free
  have h_none {key : String} := @get_mentions_eq_none key free ms
  have h_some {key : String} (h : Mentioned ms key) := Option.ne_none_iff_exists'.mp
    (mt h_none.mp (not_not.mpr h))
  refine or_congr ?_ ?_
  · by_cases h_all : Mentioned ms "all"
    · obtain ⟨permission, h_get⟩ := h_some h_all
      have h_mem (t : ℕ) := @foldl_accumulate_iff "all" free (t ∈ ·.team)
        (fun data groupId => data.Opens ∧ t = groupId) (fun _ _ _ => mem_team_add)
        (fun _ _ _ _ h_there h_eq => h_eq.2 ▸ h_there) [] ms
      rw [h_get, Option.getD_some, OrderedDict.get_nil, Option.getD_none] at h_mem
      rw [h_get, Option.map_some, Option.getD_some, and_iff_right h_all]
      simp only [h_mem]
      constructor
      · rintro ⟨t, h_t, h_free | ⟨m, h_m, h_key, h_opens, rfl⟩⟩
        · exact .inl ⟨t, h_t, h_free⟩
        · exact .inr ⟨m, h_m, h_key, h_opens, h_t⟩
      · rintro (⟨t, h_t, h_free⟩ | ⟨m, h_m, h_key, h_opens, h_t⟩)
        · exact ⟨t, h_t, .inl h_free⟩
        · exact ⟨m.groupId, h_t, .inr ⟨m, h_m, h_key, h_opens, rfl⟩⟩
    · rw [h_none.mpr h_all]
      simp [h_all]
  · split_ifs with h_type
    · obtain ⟨permission, h_get⟩ := h_some h_type
      have h_passes := @foldl_accumulate_iff typeId free (·.Passes o)
        (fun data groupId => data.Grants groupId o) (fun _ _ _ => passes_add)
        (fun _ _ groupId h_all h_there h_grants =>
          .inl ⟨groupId, (grants_of_opens h_all).mp h_grants, h_there⟩) [] ms
      rw [h_get, Option.getD_some, OrderedDict.get_nil, Option.getD_none, passes_team] at h_passes
      rw [h_get, Option.getD_some]
      exact h_passes
    · rw [h_none.mpr h_type, Option.getD_none, passes_team]

end Grants

end PermissionRules
end Core
