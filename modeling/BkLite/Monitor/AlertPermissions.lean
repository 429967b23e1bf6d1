import BkLite.Core.PermissionRules
import BkLite.Framework.Table
import BkLite.Framework.Value

/-!
# Two ways to the permission on a policy

Whether an object is visible is decided by `permission_filter` on the rules for its type, or by
`get_instance_permissions` on the rules for the whole module; the alert list of the monitor takes
the first way where it is restricted to one monitor object, and the second where it is not.
-/

namespace Monitor
namespace AlertPermissions

open Core PermissionRules
open OrderedDict (get Keyed)

/-! ### The alert list -/

/-- What is read of a `MonitorPolicy`; policies are rows under their ids. -/
structure MonitorPolicy where
  monitorObjectId : ℕ
  organizations : List ℕ

structure MonitorAlert where
  id : ℕ
  policyId : ℕ

def obj (policyId : ℕ) (policy : MonitorPolicy) : Obj := ⟨toString policyId, policy.organizations⟩

/-- The ids of the policies of which `p` holds. -/
def policyIdsWhere (policies : Table ℕ MonitorPolicy) (p : ℕ → MonitorPolicy → Bool) : List ℕ :=
  (policies.entries.filter fun e => p e.1 e.2).map (·.1)

variable (dir : Directory) (db : Db) (q : Query) (policies : Table ℕ MonitorPolicy)

/-- `str(k).isdigit()` and `int(k)`. -/
def typeIdOf (key : String) : Option ℕ :=
  if key.toList ≠ [] ∧ key.toList.all Char.isDigit = true then
    some (Nat.ofDigitChars 10 key.toList 0)
  else none

def isCandidate (permissions : OrderedDict String Permission) (policy : MonitorPolicy) : Bool :=
  if (get permissions "all").isSome = true then true
  else permissions.any fun e => e.1 ≠ "all" && typeIdOf e.1 = some policy.monitorObjectId

def getAllAccessiblePolicyIds : List ℕ :=
  let permissionsResult := getPermissionsRules dir db q "monitor" "policy"
  if permissionsResult.data.isEmpty = true then []
  else policyIdsWhere policies fun policyId policy =>
    isCandidate permissionsResult.data policy &&
      getInstancePermissions (toString policy.monitorObjectId) (obj policyId policy)
        permissionsResult.data permissionsResult.team ≠ []

def policyIdsOf (monitorObjectId : ℕ) : List ℕ :=
  let permission := getUserRulesByApp dir db q "monitor" "policy" (toString monitorObjectId)
  policyIdsWhere policies fun policyId policy =>
    permissionFilter permission (obj policyId policy) && policy.monitorObjectId = monitorObjectId

def list (alerts : List MonitorAlert) (monitorObjectId : Option ℕ) : List MonitorAlert :=
  let policyIds := match monitorObjectId with
    | some monitorObjectId => policyIdsOf dir db q policies monitorObjectId
    | none => getAllAccessiblePolicyIds dir db q policies
  alerts.filter (·.policyId ∈ policyIds)

/-! ### What is claimed -/

/-- The rules of a module for object types: a rule holds any of the types, each once, under its id
and at either level. -/
structure ByType (moduleData : ModuleData) : Prop where
  children : ∃ cs keyed, moduleData = .children cs keyed
  once : moduleData.names.Nodup
  types : ∀ item ∈ moduleData.items, ∃ typeId : ℕ, item.1 = toString typeId

def TypeRules (app module : String) : Prop :=
  ∀ row ∈ db.groupDataRules, row.app = app → ∀ moduleData, get row.rules module = some moduleData →
    ByType moduleData

/-- The two ways agree on an object, and the two lists on the alerts of a monitor object. -/
structure Agreement (app module : String) (typeId : ℕ) (o : Obj) (alerts : List MonitorAlert)
    (monitorObjectId : ℕ) : Prop where
  paths : permissionFilter (getUserRulesByApp dir db q app module (toString typeId)) o = true ↔
    getInstancePermissions (toString typeId) o (getPermissionsRules dir db q app module).data
      (getPermissionsRules dir db q app module).team ≠ []
  lists : ∀ alert ∈ alerts, ∀ policy, policies.lookup alert.policyId = some policy →
    policy.monitorObjectId = monitorObjectId →
    (alert ∈ list dir db q policies alerts (some monitorObjectId) ↔
      alert ∈ list dir db q policies alerts none)

/-! ### When they agree -/

def MentionedIn (rules : List RuleOf) (key : String) : Prop :=
  ∃ rule ∈ rules, ∃ item ∈ rule.moduleData.items, item.1 = key

instance (rules : List RuleOf) (key : String) : Decidable (MentionedIn rules key) :=
  inferInstanceAs (Decidable (∃ _ ∈ _, ∃ _ ∈ _, _))

def LeftOut (rule : RuleOf) (key : String) : Prop := ∀ item ∈ rule.moduleData.items, item.1 ≠ key

instance (rule : RuleOf) (key : String) : Decidable (LeftOut rule key) :=
  inferInstanceAs (Decidable (∀ _ ∈ _, _))

def GrantedBy (p : Prepared) (rules : List RuleOf) (key : String) (o : Obj) : Prop :=
  (∃ t ∈ o.teams, t ∈ freeTeams p rules) ∨ ∃ rule ∈ rules, ∃ item ∈ rule.moduleData.items,
    item.1 = key ∧ (RuleData.entries item.2).Grants rule.groupId o

instance (p : Prepared) (rules : List RuleOf) (key : String) (o : Obj) :
    Decidable (GrantedBy p rules key o) :=
  inferInstanceAs (Decidable (_ ∨ ∃ _ ∈ _, ∃ _ ∈ _, _))

def OpenByOmission (rules : List RuleOf) (key : String) (o : Obj) : Prop :=
  ∃ rule ∈ rules, LeftOut rule key ∧ rule.groupId ∈ o.teams

instance (rules : List RuleOf) (key : String) (o : Obj) : Decidable (OpenByOmission rules key o) :=
  inferInstanceAs (Decidable (∃ _ ∈ _, _))

/-- The two ways give the same, by the rules that leave the type out. -/
def PathsAgree (p : Prepared) (rules : List RuleOf) (key : String) (o : Obj) : Prop :=
  if MentionedIn rules key then OpenByOmission rules key o → GrantedBy p rules key o
  else OpenByOmission rules key o → ∃ t ∈ o.teams, t ∈ p.adminTeams

instance (p : Prepared) (rules : List RuleOf) (key : String) (o : Obj) :
    Decidable (PathsAgree p rules key o) := by
  unfold PathsAgree
  infer_instance

/-- The two lists: the same, and where no rule mentions the type, the object belongs to none of the
groups. -/
def ListsAgree (p : Prepared) (rules : List RuleOf) (key : String) (o : Obj) : Prop :=
  if MentionedIn rules key then OpenByOmission rules key o → GrantedBy p rules key o
  else ¬OpenByOmission rules key o ∧ ¬∃ t ∈ o.teams, t ∈ p.adminTeams

structure Condition (app module : String) (typeId : ℕ) (o : Obj) (alerts : List MonitorAlert)
    (monitorObjectId : ℕ) : Prop where
  paths : ∀ p, prepareUserRulesQuery dir q app = some p → p.isAdmin = false →
    PathsAgree p (rulesOf db q p app module) (toString typeId) o
  lists : ∀ p, prepareUserRulesQuery dir q "monitor" = some p → p.isAdmin = false →
    ∀ alert ∈ alerts, ∀ policy, policies.lookup alert.policyId = some policy →
      policy.monitorObjectId = monitorObjectId →
      ListsAgree p (rulesOf db q p "monitor" "policy") (toString monitorObjectId)
        (obj alert.policyId policy)

/-! ### How a rule for object types is read -/

section Reading

variable {moduleData : ModuleData} {rule : RuleOf} {rules : List RuleOf} {key : String}
  {es : List Entry} {o : Obj}

theorem typeIdOf_toString (n : ℕ) : typeIdOf (toString n) = some n := by
  have h_ne : (toString n).toList ≠ [] := fun h =>
    Py.toString_ne_empty n (String.toList_inj.mp h)
  have h_digits : (toString n).toList.all Char.isDigit = true := by
    rw [List.all_eq_true, Nat.toString_eq_ofList_toDigits, String.toList_ofList]
    intro c h_c
    exact Nat.isDigit_of_mem_toDigits (by decide) (by decide) h_c
  rw [typeIdOf, if_pos ⟨h_ne, h_digits⟩]
  simp

theorem toString_ne_all (n : ℕ) : toString n ≠ "all" := by
  intro h
  have h_type := typeIdOf_toString n
  rw [h] at h_type
  cases h_type

theorem opens_of_leftOut (h : ∀ item ∈ moduleData.items, item.1 ≠ key) :
    (findChildModuleData moduleData key).Opens := by
  cases moduleData with
  | entries es => rfl
  | children cs keyed =>
    unfold findChildModuleData
    dsimp only
    cases h_get : get cs key with
    | some child =>
      cases child with
      | entries es =>
        have h_mem := OrderedDict.mem_of_get h_get
        exact absurd rfl (h (key, es) (List.mem_flatMap.mpr
          ⟨_, h_mem, List.mem_singleton.mpr rfl⟩))
      | nested subs keyed => rfl
    | none =>
      dsimp only
      cases h_find : cs.findSome? fun c => c.2.sub key with
      | none => rfl
      | some es =>
        obtain ⟨c, h_c, h_sub⟩ := List.exists_of_findSome?_eq_some h_find
        obtain ⟨category, child⟩ := c
        cases child with
        | entries es => cases h_sub
        | nested subs keyed =>
          exact absurd rfl (h (key, es) (List.mem_flatMap.mpr
            ⟨_, h_c, OrderedDict.mem_of_get h_sub⟩))

theorem eq_of_nodup_flatMap {Row Name : Type} {f : Row → List Name} {rows : List Row}
    (h : (rows.flatMap f).Nodup) {row row' : Row} (h_row : row ∈ rows) (h_row' : row' ∈ rows)
    {name : Name} (h_name : name ∈ f row) (h_name' : name ∈ f row') : row = row' := by
  have : Std.Symm (Function.onFun List.Disjoint f) := ⟨fun _ _ h_apart => h_apart.symm⟩
  by_contra h_ne
  exact (List.nodup_flatMap.mp h).2.forall h_row h_row' h_ne h_name h_name'

theorem find_of_item (h : ByType moduleData) {item : String × List Entry}
    (h_item : item ∈ moduleData.items) :
    findChildModuleData moduleData item.1 = .entries item.2 := by
  obtain ⟨⟨cs, keyed, rfl⟩, h_once, -⟩ := h
  obtain ⟨⟨category, child⟩, h_c, h_in⟩ := List.mem_flatMap.mp h_item
  unfold findChildModuleData
  dsimp only
  cases child with
  | entries es =>
    obtain rfl := List.mem_singleton.mp h_in
    rw [OrderedDict.get_of_mem keyed h_c]
    rfl
  | nested subs keyed' =>
    have h_name : item.1 ∈ subs.map (·.1) := List.mem_map_of_mem h_in
    -- the category that has the type below it is the only one with the name
    have h_only (c : String × ChildData) (h_c' : c ∈ cs)
        (h_names : item.1 ∈ c.1 :: c.2.subNames) : c = (category, .nested subs keyed') :=
      eq_of_nodup_flatMap h_once h_c' h_c h_names (List.mem_cons_of_mem _ h_name)
    have h_none : get cs item.1 = none := by
      refine OrderedDict.get_eq_none.mpr fun c h_c' h_eq => ?_
      obtain rfl := h_only c h_c' (h_eq ▸ List.mem_cons_self)
      exact (List.nodup_cons.mp ((List.nodup_flatMap.mp h_once).1 _ h_c)).1 (h_eq ▸ h_name)
    rw [h_none]
    dsimp only
    cases h_find : cs.findSome? fun c => c.2.sub item.1 with
    | none =>
      have h_sub := List.findSome?_eq_none_iff.mp h_find _ h_c
      exact absurd ((OrderedDict.get_of_mem keyed' h_in).symm.trans h_sub) (Option.some_ne_none _)
    | some es =>
      obtain ⟨⟨category', child'⟩, h_c', h_sub⟩ := List.exists_of_findSome?_eq_some h_find
      cases child' with
      | entries es => cases h_sub
      | nested subs' keyed'' =>
        have h_mem := OrderedDict.mem_of_get h_sub
        cases h_only _ h_c' (List.mem_cons_of_mem _ (List.mem_map.mpr ⟨_, h_mem, rfl⟩))
        exact congrArg _ (Option.some.inj (h_sub.symm.trans (OrderedDict.get_of_mem keyed' h_in)))

variable (h_rules : ∀ rule ∈ rules, ByType rule.moduleData)

include h_rules in
theorem exists_grants_iff : (∃ rule ∈ rules,
    (findChildModuleData rule.moduleData key).Grants rule.groupId o) ↔
      (∃ rule ∈ rules, ∃ item ∈ rule.moduleData.items, item.1 = key ∧
        (RuleData.entries item.2).Grants rule.groupId o) ∨ OpenByOmission rules key o := by
  constructor
  · rintro ⟨rule, h_rule, h_grants⟩
    by_cases h_out : LeftOut rule key
    · exact .inr ⟨rule, h_rule, h_out, (grants_of_opens (opens_of_leftOut h_out)).mp h_grants⟩
    · unfold LeftOut at h_out
      push Not at h_out
      obtain ⟨item, h_item, rfl⟩ := h_out
      rw [find_of_item (h_rules rule h_rule) h_item] at h_grants
      exact .inl ⟨rule, h_rule, item, h_item, rfl, h_grants⟩
  · rintro (⟨rule, h_rule, item, h_item, rfl, h_grants⟩ | ⟨rule, h_rule, h_out, h_team⟩)
    · refine ⟨rule, h_rule, ?_⟩
      rwa [find_of_item (h_rules rule h_rule) h_item]
    · exact ⟨rule, h_rule, (grants_of_opens (opens_of_leftOut h_out)).mpr h_team⟩

include h_rules in
theorem mentions?_eq : mentions? rules = some (rules.flatMap RuleOf.mentions) := by
  refine mentions?_eq_some.mpr ⟨fun rule h_rule => ?_, rfl⟩
  obtain ⟨cs, keyed, h_eq⟩ := (h_rules rule h_rule).children
  rw [h_eq]
  exact Option.some_ne_none _

theorem mentioned_iff : Mentioned (rules.flatMap RuleOf.mentions) key ↔ MentionedIn rules key := by
  constructor
  · rintro ⟨m, h_m, rfl⟩
    obtain ⟨rule, h_rule, item, h_item, rfl⟩ := mem_mentions.mp h_m
    exact ⟨rule, h_rule, item, h_item, rfl⟩
  · rintro ⟨rule, h_rule, item, h_item, rfl⟩
    exact ⟨_, mem_mentions.mpr ⟨rule, h_rule, item, h_item, rfl⟩, rfl⟩

theorem grantedUnder_iff : GrantedUnder (rules.flatMap RuleOf.mentions) key o ↔
    ∃ rule ∈ rules, ∃ item ∈ rule.moduleData.items, item.1 = key ∧
      (RuleData.entries item.2).Grants rule.groupId o := by
  constructor
  · rintro ⟨m, h_m, rfl, h_grants⟩
    obtain ⟨rule, h_rule, item, h_item, rfl⟩ := mem_mentions.mp h_m
    exact ⟨rule, h_rule, item, h_item, rfl, h_grants⟩
  · rintro ⟨rule, h_rule, item, h_item, rfl, h_grants⟩
    exact ⟨_, mem_mentions.mpr ⟨rule, h_rule, item, h_item, rfl⟩, rfl, h_grants⟩

include h_rules in
theorem not_mentioned_all : ¬MentionedIn rules "all" := by
  rintro ⟨rule, h_rule, item, h_item, h_all⟩
  obtain ⟨typeId, h_type⟩ := (h_rules rule h_rule).types item h_item
  exact toString_ne_all typeId (h_type.symm.trans h_all)

end Reading

/-! ### The two ways -/

section Ways

variable {dir db q policies} {app module : String} {p : Prepared} {typeId : ℕ} {o : Obj}

theorem byType_of_mem_rulesOf (h_rules : TypeRules db app module) {rule : RuleOf}
    (h_rule : rule ∈ rulesOf db q p app module) : ByType rule.moduleData := by
  obtain ⟨userRule, -, h_rule⟩ := List.mem_filterMap.mp h_rule
  cases h_row : db.groupDataRules[userRule.groupRule]? with
  | none =>
    rw [h_row] at h_rule
    cases h_rule
  | some row =>
    rw [h_row] at h_rule
    dsimp only at h_rule
    split_ifs at h_rule with h_of
    obtain ⟨moduleData, h_get, rfl⟩ := Option.map_eq_some_iff.mp h_rule
    exact h_rules row (List.mem_iff_getElem?.mpr ⟨_, h_row⟩) h_of.1 moduleData h_get

theorem byApp_iff (h_rules : TypeRules db app module)
    (h_p : prepareUserRulesQuery dir q app = some p) (h_user : p.isAdmin = false) :
    permissionFilter (getUserRulesByApp dir db q app module (toString typeId)) o = true ↔
      GrantedBy p (rulesOf db q p app module) (toString typeId) o ∨
        OpenByOmission (rulesOf db q p app module) (toString typeId) o := by
  rw [passes_getUserRulesByApp h_p h_user]
  simp only [targetData, if_neg (Py.toString_ne_empty typeId)]
  rw [exists_grants_iff fun rule h_rule => byType_of_mem_rulesOf h_rules h_rule, ← or_assoc]
  rfl

theorem byModule_iff (h_rules : TypeRules db app module)
    (h_p : prepareUserRulesQuery dir q app = some p) (h_user : p.isAdmin = false) :
    getInstancePermissions (toString typeId) o (getPermissionsRules dir db q app module).data
        (getPermissionsRules dir db q app module).team ≠ [] ↔
      if MentionedIn (rulesOf db q p app module) (toString typeId) then
        GrantedBy p (rulesOf db q p app module) (toString typeId) o
      else ∃ t ∈ o.teams, t ∈ p.adminTeams := by
  have h_of (rule : RuleOf) (h_rule : rule ∈ rulesOf db q p app module) :=
    byType_of_mem_rulesOf h_rules h_rule
  rw [instancePermissions_getPermissionsRules h_p h_user (mentions?_eq h_of),
    or_iff_right fun h => not_mentioned_all h_of (mentioned_iff.mp h.1), grantedUnder_iff]
  simp only [mentioned_iff]
  rfl

theorem openByOmission_of_mem_adminTeams {rules : List RuleOf} {key : String} {t : ℕ}
    (h_not : ¬MentionedIn rules key) (h_t : t ∈ o.teams) (h_admin : t ∈ p.adminTeams) :
    (∃ t ∈ o.teams, t ∈ freeTeams p rules) ∨ OpenByOmission rules key o := by
  by_cases h_group : t ∈ rules.map (·.groupId)
  · obtain ⟨rule, h_rule, rfl⟩ := List.mem_map.mp h_group
    refine .inr ⟨rule, h_rule, fun item h_item h_key => ?_, h_t⟩
    exact h_not ⟨rule, h_rule, item, h_item, h_key⟩
  · exact .inl ⟨t, h_t, List.mem_filter.mpr ⟨h_admin, decide_eq_true h_group⟩⟩

theorem mem_adminTeams_of_freeTeams {rules : List RuleOf}
    (h : ∃ t ∈ o.teams, t ∈ freeTeams p rules) : ∃ t ∈ o.teams, t ∈ p.adminTeams := by
  obtain ⟨t, h_t, h_free⟩ := h
  exact ⟨t, h_t, (List.mem_filter.mp h_free).1⟩

theorem GrantedBy.free {rules : List RuleOf} {key : String} (h : GrantedBy p rules key o)
    (h_not : ¬MentionedIn rules key) : ∃ t ∈ o.teams, t ∈ freeTeams p rules := by
  obtain h_free | ⟨rule, h_rule, item, h_item, h_key, -⟩ := h
  · exact h_free
  · exact absurd ⟨rule, h_rule, item, h_item, h_key⟩ h_not

theorem pathsAgree_iff (h_rules : TypeRules db app module)
    (h_p : prepareUserRulesQuery dir q app = some p) (h_user : p.isAdmin = false) :
    (permissionFilter (getUserRulesByApp dir db q app module (toString typeId)) o = true ↔
      getInstancePermissions (toString typeId) o (getPermissionsRules dir db q app module).data
        (getPermissionsRules dir db q app module).team ≠ []) ↔
      PathsAgree p (rulesOf db q p app module) (toString typeId) o := by
  rw [byApp_iff h_rules h_p h_user, byModule_iff h_rules h_p h_user]
  unfold PathsAgree
  split_ifs with h_mentioned
  · exact or_iff_left_iff_imp
  · constructor
    · exact fun h_iff h_open => h_iff.mp (.inr h_open)
    · intro h
      constructor
      · rintro (h_granted | h_open)
        · exact mem_adminTeams_of_freeTeams (h_granted.free h_mentioned)
        · exact h h_open
      · rintro ⟨t, h_t, h_admin⟩
        obtain h_free | h_open := openByOmission_of_mem_adminTeams h_mentioned h_t h_admin
        · exact .inl (.inl h_free)
        · exact .inr h_open

/-! ### The two lists -/

theorem mem_policyIdsWhere {P : ℕ → MonitorPolicy → Bool} {policyId : ℕ} {policy : MonitorPolicy}
    (h_policy : policies.lookup policyId = some policy) :
    policyId ∈ policyIdsWhere policies P ↔ P policyId policy = true := by
  unfold policyIdsWhere
  rw [List.mem_map]
  constructor
  · rintro ⟨⟨policyId, policy'⟩, h_entry, rfl⟩
    obtain ⟨h_mem, h_P⟩ := List.mem_filter.mp h_entry
    rw [AList.mem_lookup_iff.mpr h_mem] at h_policy
    cases h_policy
    exact h_P
  · exact fun h_P => ⟨_, List.mem_filter.mpr ⟨AList.mem_lookup_iff.mp h_policy, h_P⟩, rfl⟩

variable {alerts : List MonitorAlert} {alert : MonitorAlert} {policy : MonitorPolicy}

theorem mem_list_of_object (h_alert : alert ∈ alerts)
    (h_policy : policies.lookup alert.policyId = some policy) :
    alert ∈ list dir db q policies alerts (some policy.monitorObjectId) ↔
      permissionFilter (getUserRulesByApp dir db q "monitor" "policy"
        (toString policy.monitorObjectId)) (obj alert.policyId policy) = true := by
  unfold list policyIdsOf
  rw [List.mem_filter, and_iff_right h_alert, decide_eq_true_iff, mem_policyIdsWhere h_policy,
    Bool.and_eq_true, decide_eq_true_iff, and_iff_left rfl]

theorem mem_list_of_all (h_alert : alert ∈ alerts)
    (h_policy : policies.lookup alert.policyId = some policy) :
    alert ∈ list dir db q policies alerts none ↔
      isCandidate (getPermissionsRules dir db q "monitor" "policy").data policy = true ∧
      getInstancePermissions (toString policy.monitorObjectId) (obj alert.policyId policy)
        (getPermissionsRules dir db q "monitor" "policy").data
        (getPermissionsRules dir db q "monitor" "policy").team ≠ [] := by
  unfold list getAllAccessiblePolicyIds
  dsimp only
  rw [List.mem_filter, and_iff_right h_alert, decide_eq_true_iff]
  split_ifs with h_empty
  · -- nothing is a candidate where nothing is mentioned
    rw [List.isEmpty_iff.mp h_empty]
    refine iff_of_false List.not_mem_nil fun h => ?_
    exact Bool.false_ne_true h.1
  · rw [mem_policyIdsWhere h_policy, Bool.and_eq_true, decide_eq_true_iff]

theorem isCandidate_iff (h_rules : TypeRules db app module)
    (h_p : prepareUserRulesQuery dir q app = some p) (h_user : p.isAdmin = false) :
    isCandidate (getPermissionsRules dir db q app module).data policy = true ↔
      MentionedIn (rulesOf db q p app module) (toString policy.monitorObjectId) := by
  have h_of (rule : RuleOf) (h_rule : rule ∈ rulesOf db q p app module) :=
    byType_of_mem_rulesOf h_rules h_rule
  have h_none {key : String} :
      get (getPermissionsRules dir db q app module).data key = none ↔
        ¬MentionedIn (rulesOf db q p app module) key :=
    (get_data_eq_none h_p h_user (mentions?_eq h_of)).trans (not_congr mentioned_iff)
  unfold isCandidate
  rw [h_none.mpr (not_mentioned_all h_of), Option.isSome_none, if_neg Bool.false_ne_true,
    List.any_eq_true]
  constructor
  · rintro ⟨e, h_e, h_type⟩
    rw [Bool.and_eq_true, decide_eq_true_iff, decide_eq_true_iff] at h_type
    have h_mentioned : MentionedIn (rulesOf db q p app module) e.1 := by
      by_contra h_not
      exact OrderedDict.get_eq_none.mp (h_none.mpr h_not) e h_e rfl
    obtain ⟨rule, h_rule, item, h_item, h_key⟩ := h_mentioned
    obtain ⟨typeId, h_typeId⟩ := (h_of rule h_rule).types item h_item
    rw [← h_key, h_typeId, typeIdOf_toString] at h_type
    obtain rfl := Option.some.inj h_type.2
    exact ⟨rule, h_rule, item, h_item, h_typeId⟩
  · intro h_mentioned
    obtain ⟨permission, h_get⟩ := Option.ne_none_iff_exists'.mp
      (mt h_none.mp (not_not.mpr h_mentioned))
    refine ⟨_, OrderedDict.mem_of_get h_get, ?_⟩
    rw [Bool.and_eq_true, decide_eq_true_iff, decide_eq_true_iff]
    exact ⟨toString_ne_all _, typeIdOf_toString _⟩

theorem listsAgree_iff (h_rules : TypeRules db "monitor" "policy")
    (h_p : prepareUserRulesQuery dir q "monitor" = some p) (h_user : p.isAdmin = false)
    (h_alert : alert ∈ alerts) (h_policy : policies.lookup alert.policyId = some policy) :
    (alert ∈ list dir db q policies alerts (some policy.monitorObjectId) ↔
      alert ∈ list dir db q policies alerts none) ↔
      ListsAgree p (rulesOf db q p "monitor" "policy") (toString policy.monitorObjectId)
        (obj alert.policyId policy) := by
  rw [mem_list_of_object h_alert h_policy, mem_list_of_all h_alert h_policy,
    isCandidate_iff h_rules h_p h_user, byModule_iff h_rules h_p h_user,
    byApp_iff h_rules h_p h_user]
  unfold ListsAgree
  split_ifs with h_mentioned
  · rw [and_iff_right h_mentioned]
    exact or_iff_left_iff_imp
  · refine (iff_false_right fun h => h_mentioned h.1).trans ?_
    rw [not_or]
    constructor
    · rintro ⟨h_granted, h_open⟩
      refine ⟨h_open, ?_⟩
      rintro ⟨t, h_t, h_admin⟩
      obtain h_free | h_omitted := openByOmission_of_mem_adminTeams h_mentioned h_t h_admin
      · exact h_granted (.inl h_free)
      · exact h_open h_omitted
    · rintro ⟨h_open, h_admin⟩
      exact ⟨fun h_granted =>
        h_admin (mem_adminTeams_of_freeTeams (h_granted.free h_mentioned)), h_open⟩

/-! ### Nobody, and administrators -/

theorem paths_of_no_rules
    (h : ∀ p, prepareUserRulesQuery dir q app = some p → p.isAdmin = true) :
    permissionFilter (getUserRulesByApp dir db q app module (toString typeId)) o = true ↔
      getInstancePermissions (toString typeId) o (getPermissionsRules dir db q app module).data
        (getPermissionsRules dir db q app module).team ≠ [] := by
  rw [permissionFilter_iff, instancePermissions_ne_nil]
  unfold getUserRulesByApp getPermissionsRules getUserRulesByModule
  cases h_p : prepareUserRulesQuery dir q app with
  | none => simp [OrderedDict.get_nil, Permission.Passes]
  | some p =>
    dsimp only
    rw [if_pos (h p h_p), if_pos (h p h_p), Option.getD_some]
    dsimp only
    rw [OrderedDict.get_cons, if_pos rfl, OrderedDict.get_cons,
      if_neg (toString_ne_all typeId).symm, OrderedDict.get_nil]
    simp [passes_team]

theorem lists_of_no_rules
    (h : ∀ p, prepareUserRulesQuery dir q "monitor" = some p → p.isAdmin = true)
    (h_alert : alert ∈ alerts) (h_policy : policies.lookup alert.policyId = some policy) :
    alert ∈ list dir db q policies alerts (some policy.monitorObjectId) ↔
      alert ∈ list dir db q policies alerts none := by
  rw [mem_list_of_object h_alert h_policy, mem_list_of_all h_alert h_policy, paths_of_no_rules h]
  refine (and_iff_right_of_imp fun h_some => ?_).symm
  -- nobody has no permissions, and an administrator has those under `all`
  unfold getPermissionsRules getUserRulesByModule at h_some ⊢
  cases h_p : prepareUserRulesQuery dir q "monitor" with
  | none =>
    rw [h_p] at h_some
    simp [instancePermissions_ne_nil, OrderedDict.get_nil, Permission.Passes] at h_some
  | some p =>
    dsimp only
    rw [if_pos (h p h_p)]
    rfl

end Ways

/-! ### The result -/

/-- The two ways agree exactly if the rules that leave a type out do not matter for the objects of
their groups. -/
theorem agreement_iff (dir : Directory) (db : Db) (q : Query) (policies : Table ℕ MonitorPolicy)
    (app module : String) (typeId : ℕ) (o : Obj) (alerts : List MonitorAlert)
    (monitorObjectId : ℕ) (h_rules : TypeRules db app module)
    (h_policies : TypeRules db "monitor" "policy") :
    Agreement dir db q policies app module typeId o alerts monitorObjectId ↔
      Condition dir db q policies app module typeId o alerts monitorObjectId := by
  constructor
  · intro h
    refine ⟨fun p h_p h_user => (pathsAgree_iff h_rules h_p h_user).mp h.paths, ?_⟩
    rintro p h_p h_user alert h_alert policy h_policy rfl
    exact (listsAgree_iff h_policies h_p h_user h_alert h_policy).mp
      (h.lists alert h_alert policy h_policy rfl)
  · intro h
    refine ⟨?_, ?_⟩
    · by_cases h_all : ∀ p, prepareUserRulesQuery dir q app = some p → p.isAdmin = true
      · exact paths_of_no_rules h_all
      · push Not at h_all
        obtain ⟨p, h_p, h_user⟩ := h_all
        have h_user' := Bool.eq_false_of_not_eq_true h_user
        exact (pathsAgree_iff h_rules h_p h_user').mpr (h.paths p h_p h_user')
    · rintro alert h_alert policy h_policy rfl
      by_cases h_all : ∀ p, prepareUserRulesQuery dir q "monitor" = some p → p.isAdmin = true
      · exact lists_of_no_rules h_all h_alert h_policy
      · push Not at h_all
        obtain ⟨p, h_p, h_user⟩ := h_all
        have h_user' := Bool.eq_false_of_not_eq_true h_user
        exact (listsAgree_iff h_policies h_p h_user' h_alert h_policy).mpr
          (h.lists p h_p h_user' alert h_alert policy h_policy rfl)

section Examples

private def viewer : Directory where
  users := [⟨"viewer", "domain.com", [1, 2]⟩]
  roles := []
  guestGroup := none
  getUserAllRoles _ := []
  groupWithDescendants _ _ := [1, 2]

private def query : Query := ⟨1, "viewer", "domain.com", true⟩

/-- The rule of group 1 lists an instance of type 7; that of group 2 is for type 8 only. -/
private def twoRules : Db where
  groupDataRules :=
    [⟨1, "first", "monitor",
        [("policy", .children [("7", .entries [⟨.int 5, []⟩])] (List.nodup_singleton _))],
        List.nodup_singleton _⟩,
      ⟨2, "second", "monitor",
        [("policy", .children [("8", .entries [⟨.int 6, []⟩])] (List.nodup_singleton _))],
        List.nodup_singleton _⟩]
  userRules := [⟨"viewer", "domain.com", 0⟩, ⟨"viewer", "domain.com", 1⟩]

private theorem typeRules_twoRules : TypeRules twoRules "monitor" "policy" := by
  intro row h_row _ moduleData h_get
  obtain rfl | rfl := List.mem_pair.mp h_row <;> obtain rfl := Option.some.inj h_get
  · exact ⟨⟨_, _, rfl⟩, by decide, by rintro _ (_ | ⟨_, ⟨⟩⟩); exact ⟨7, rfl⟩⟩
  · exact ⟨⟨_, _, rfl⟩, by decide, by rintro _ (_ | ⟨_, ⟨⟩⟩); exact ⟨8, rfl⟩⟩

theorem agreement_listed : permissionFilter (getUserRulesByApp viewer twoRules query "monitor"
      "policy" "7") ⟨"5", [1]⟩ = true ∧
    Agreement viewer twoRules query ∅ "monitor" "policy" 7 ⟨"5", [1]⟩ [] 7 := by
  refine ⟨by decide +kernel, (agreement_iff viewer twoRules query ∅ "monitor" "policy" 7 ⟨"5", [1]⟩
    [] 7 typeRules_twoRules typeRules_twoRules).mpr ⟨fun p h_p _ => ?_, ?_⟩⟩
  · obtain rfl := Option.some.inj h_p
    decide +kernel
  · exact fun _ _ _ _ h_alert => absurd h_alert List.not_mem_nil

/-- Policy 9 of type 7 belongs to group 2, whose rule leaves the type out. -/
theorem not_agreement : ¬∀ (dir : Directory) (db : Db) (q : Query)
    (policies : Table ℕ MonitorPolicy) (app module : String) (typeId : ℕ) (o : Obj)
    (alerts : List MonitorAlert) (monitorObjectId : ℕ), TypeRules db app module →
    TypeRules db "monitor" "policy" →
      Agreement dir db q policies app module typeId o alerts monitorObjectId := by
  intro h
  have h_paths := (h viewer twoRules query ∅ "monitor" "policy" 7 ⟨"9", [2]⟩ [] 7
    typeRules_twoRules typeRules_twoRules).paths
  exact absurd h_paths (by decide +kernel)

end Examples

end AlertPermissions
end Monitor
