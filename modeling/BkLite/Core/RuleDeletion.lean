import BkLite.Core.PermissionRules

/-!
# Deleting an object from the permission rules

`delete_rules` goes through the rules of some groups and takes the entries of an object out of the
list of one module or child module. To the readers an empty list means everything, and an entry
with the id 0 makes them pass over the others: taking an entry out can widen what a rule grants.
A rule whose module has another shape than the deleter expects is passed over, or stops it with
the rules behind it untouched.
-/

namespace Core
namespace RuleDeletion

open PermissionRules
open OrderedDict (get Keyed)

/-! ### The deletion -/

/-- The arguments of `delete_rules`. -/
structure Deletion where
  groupIds : List ℕ
  instanceId : EntryId
  app : String
  module : String
  childModule : String

variable (c : Deletion)

def isDeleted (e : Entry) : Bool := e.id.text = c.instanceId.text

def keep (es : List Entry) : List Entry := es.filter fun e => !isDeleted c e

/-- The data that is saved, if entries are taken out; the outer `none` is an exception. -/
def deleteFromModule : ModuleData → Option (Option ModuleData)
  | .entries es =>
    if c.childModule ≠ "" then some none
    else if (keep c es).length < es.length then some (some (.entries (keep c es)))
    else some none
  | .children cs keyed =>
    if c.childModule ≠ "" then
      match get cs c.childModule with
      | none => some none
      | some (.entries es) =>
        if (keep c es).length < es.length then
          some (some (.children (OrderedDict.set cs c.childModule (.entries (keep c es)))
            keyed.set))
        else some none
      | some (.nested subs _) => if subs.isEmpty = true then some none else none
    else if cs.isEmpty = true then some none else none

def deleteFromRule (r : GroupDataRule) : Option GroupDataRule :=
  match get r.rules c.module with
  | none => some r
  | some moduleData =>
    match deleteFromModule c moduleData with
    | none => none
    | some none => some r
    | some (some rewritten) =>
      some { r with rules := OrderedDict.set r.rules c.module rewritten, keyed := r.keyed.set }

def Addressed (r : GroupDataRule) : Prop := r.groupId ∈ c.groupIds ∧ r.app = c.app

instance : DecidablePred (Addressed c) := fun _ => inferInstanceAs (Decidable (_ ∧ _))

def deleteFromRules : List GroupDataRule → List GroupDataRule
  | [] => []
  | r :: rs =>
    if Addressed c r then
      match deleteFromRule c r with
      | some r' => r' :: deleteFromRules rs
      | none => r :: rs
    else r :: deleteFromRules rs

def deleteRules (db : Db) : Db :=
  { db with groupDataRules := deleteFromRules c db.groupDataRules }

/-! ### What is claimed -/

def addressedEntries : ModuleData → List Entry
  | .entries es => if c.childModule = "" then es else []
  | .children cs _ => cs.flatMap fun child =>
    ((child.2.items child.1).filter fun item =>
      c.childModule = "" ∨ child.1 = c.childModule ∨ item.1 = c.childModule).flatMap (·.2)

def Other (app module key : String) (o : Obj) : Prop :=
  ¬(app = c.app ∧ module = c.module ∧ key = c.childModule ∧ o.id = c.instanceId.text)

/-- The call widens no access of the user, in either reading of the rules, and leaves no entry. -/
structure Narrow (dir : Directory) (db : Db) (q : Query) : Prop where
  byApp : ∀ app module childModule o, Other c app module childModule o →
    permissionFilter (getUserRulesByApp dir (deleteRules c db) q app module childModule) o = true →
      permissionFilter (getUserRulesByApp dir db q app module childModule) o = true
  byModule : ∀ app module typeId o, Other c app module typeId o →
    getInstancePermissions typeId o (getPermissionsRules dir (deleteRules c db) q app module).data
      (getPermissionsRules dir (deleteRules c db) q app module).team ≠ [] →
    getInstancePermissions typeId o (getPermissionsRules dir db q app module).data
      (getPermissionsRules dir db q app module).team ≠ []
  clean : ∀ r ∈ (deleteRules c db).groupDataRules, Addressed c r → ∀ moduleData,
    get r.rules c.module = some moduleData → ∀ e ∈ addressedEntries c moduleData,
      isDeleted c e = false

/-! ### When it is so -/

def targetList : ModuleData → Option (List Entry)
  | .entries es => if c.childModule = "" then some es else none
  | .children cs _ =>
    if c.childModule = "" then none
    else match get cs c.childModule with
      | some (.entries es) => some es
      | _ => none

/-- The other entries that are addressed: those of nested lists, and of a whole module with child
modules. -/
def outerEntries : ModuleData → List Entry
  | .entries _ => []
  | .children cs _ => cs.flatMap fun child =>
    match child.2 with
    | .entries es => if c.childModule = "" then es else []
    | .nested subs _ => (subs.filter fun item =>
      c.childModule = "" ∨ child.1 = c.childModule ∨ item.1 = c.childModule).flatMap (·.2)

def Stops (r : GroupDataRule) : Prop := Addressed c r ∧ deleteFromRule c r = none

instance : DecidablePred (Stops c) := fun _ =>
  inferInstanceAs (Decidable (_ ∧ _ = none))

def Reached (rs : List GroupDataRule) (i : ℕ) : Prop := ∀ r ∈ rs.take i, ¬Stops c r

instance (rs : List GroupDataRule) (i : ℕ) : Decidable (Reached c rs i) :=
  inferInstanceAs (Decidable (∀ r ∈ rs.take i, ¬Stops c r))

def Emptied (es : List Entry) : Prop :=
  es ≠ [] ∧ hasZero (named es) = false ∧ ∀ e ∈ es, isDeleted c e = true

def Exposed (es : List Entry) (id : String) : Prop :=
  c.instanceId.text = "0" ∧ hasZero (named es) = true ∧ ∃ e ∈ named (keep c es), e.id.text = id

def Lists (data : RuleData) (id : String) : Prop :=
  ¬data.Opens ∧ ∃ e ∈ (processRuleData data).2, e.id.text = id

/-- What a list that is emptied or loses its 0 grants, other rules have granted: in the one
reading. -/
structure CoveredByApp (rules : List RuleOf) (groupId : ℕ) (es : List Entry) : Prop where
  emptied : Emptied c es → ∃ rule ∈ rules, rule.groupId = groupId ∧
    (targetData rule.moduleData c.childModule).Opens
  exposed : ∀ id, Exposed c es id → ∃ rule ∈ rules,
    Lists (targetData rule.moduleData c.childModule) id

/-- And in the other, where data under `all` counts for all types. -/
structure CoveredByModule (ms : List Mention) (groupId : ℕ) (es : List Entry) : Prop where
  emptied : Emptied c es → ∃ m ∈ ms, (m.key = c.childModule ∨ m.key = "all") ∧
    (RuleData.entries m.es).Opens ∧ m.groupId = groupId
  exposed : ∀ id, Exposed c es id → ∃ m ∈ ms, m.key = c.childModule ∧
    Lists (RuleData.entries m.es) id

/-- The `i`th rule is read for the user. -/
def Read (db : Db) (q : Query) (p : Prepared) (app module : String) (i groupId : ℕ)
    (moduleData : ModuleData) : Prop :=
  (∃ u ∈ db.userRules, (u.username = q.username ∧ u.domain = q.domain) ∧ u.groupRule = i) ∧
    ∃ r, db.groupDataRules[i]? = some r ∧ (r.app = app ∧ (r.groupId ∈ p.queryGroupIds ∨
      p.hasGuestGroup = true ∧ r.groupName = "OpsPilotGuest")) ∧
      get r.rules module = some moduleData ∧ r.groupId = groupId

def Hits (db : Db) (q : Query) (p : Prepared) (groupId : ℕ) (es : List Entry) : Prop :=
  ∃ i moduleData, Read db q p c.app c.module i groupId moduleData ∧ groupId ∈ c.groupIds ∧
    Reached c db.groupDataRules i ∧ targetList c moduleData = some es

/-- The condition: two parts about the rules of the user, one about all that are addressed. -/
structure Condition (dir : Directory) (db : Db) (q : Query) : Prop where
  byApp : ∀ p, prepareUserRulesQuery dir q c.app = some p → p.isAdmin = false →
    ∀ groupId es, Hits c db q p groupId es →
      CoveredByApp c (rulesOf db q p c.app c.module) groupId es
  byModule : ∀ p, prepareUserRulesQuery dir q c.app = some p → p.isAdmin = false →
    ∀ ms, mentions? (rulesOf db q p c.app c.module) = some ms →
    ∀ groupId es, Hits c db q p groupId es → CoveredByModule c ms groupId es
  clean : ∀ i r, db.groupDataRules[i]? = some r → Addressed c r → ∀ moduleData,
    get r.rules c.module = some moduleData →
      (∀ e ∈ outerEntries c moduleData, isDeleted c e = false) ∧
      ∀ es, targetList c moduleData = some es → (∃ e ∈ es, isDeleted c e = true) →
        Reached c db.groupDataRules i

/-! ### What becomes of the data -/

section Data

variable {c} {r : GroupDataRule} {rs : List GroupDataRule} {moduleData : ModuleData}
  {es : List Entry} {e : Entry} {i : ℕ}

def rewrite (c : Deletion) : ModuleData → ModuleData
  | .entries es => if c.childModule = "" then .entries (keep c es) else .entries es
  | .children cs keyed =>
    if c.childModule = "" then .children cs keyed
    else match get cs c.childModule with
      | some (.entries es) =>
        .children (OrderedDict.set cs c.childModule (.entries (keep c es))) keyed.set
      | _ => .children cs keyed

theorem mem_keep : e ∈ keep c es ↔ e ∈ es ∧ isDeleted c e = false := by
  rw [keep, List.mem_filter, Bool.not_eq_true']

theorem keep_eq_of_not_lt (h : ¬(keep c es).length < es.length) : keep c es = es :=
  List.filter_sublist.eq_of_length_le (not_lt.mp h)

theorem set_eq_of_get {Val : Type} {d : OrderedDict String Val} {k : String} {v : Val}
    (h : get d k = some v) : OrderedDict.set d k v = d := by
  have h_map := OrderedDict.map_set (f := id) h rfl
  rwa [List.map_id, List.map_id] at h_map

theorem deleteFromModule_spec {saved : Option ModuleData}
    (h : deleteFromModule c moduleData = some saved) :
    saved.getD moduleData = rewrite c moduleData := by
  cases moduleData with
  | entries es =>
    dsimp only [deleteFromModule] at h
    dsimp only [rewrite]
    by_cases h_child : c.childModule = ""
    · rw [if_neg (not_not.mpr h_child)] at h
      rw [if_pos h_child]
      split_ifs at h with h_lt <;> cases h
      · rfl
      · exact congrArg ModuleData.entries (keep_eq_of_not_lt h_lt).symm
    · rw [if_pos h_child] at h
      rw [if_neg h_child]
      cases h
      rfl
  | children cs keyed =>
    dsimp only [deleteFromModule] at h
    dsimp only [rewrite]
    by_cases h_child : c.childModule = ""
    · rw [if_neg (not_not.mpr h_child)] at h
      rw [if_pos h_child]
      split_ifs at h
      cases h
      rfl
    · rw [if_pos h_child] at h
      rw [if_neg h_child]
      cases h_get : get cs c.childModule with
      | none =>
        rw [h_get] at h
        cases h
        rfl
      | some child =>
        rw [h_get] at h
        cases child with
        | entries es =>
          dsimp only at h ⊢
          split_ifs at h with h_lt <;> cases h
          · rfl
          · simp only [keep_eq_of_not_lt h_lt, set_eq_of_get h_get, Option.getD_none]
        | nested subs keyed' =>
          dsimp only at h
          split_ifs at h
          cases h
          rfl

theorem deleteFromRule_spec {r' : GroupDataRule} (h : deleteFromRule c r = some r') :
    (r'.groupId = r.groupId ∧ r'.groupName = r.groupName ∧ r'.app = r.app) ∧
      ∀ module, get r'.rules module = (get r.rules module).map fun old =>
        if module = c.module then rewrite c old else old := by
  unfold deleteFromRule at h
  have h_same (h_eq : ∀ old, get r.rules c.module = some old → rewrite c old = old)
      (module : String) : get r.rules module = (get r.rules module).map fun old =>
        if module = c.module then rewrite c old else old := by
    cases h_get : get r.rules module with
    | none => rfl
    | some old =>
      rw [Option.map_some]
      split_ifs with h_module
      · rw [h_eq old (h_module ▸ h_get)]
      · rfl
  cases h_get : get r.rules c.module with
  | none =>
    rw [h_get] at h
    cases h
    exact ⟨⟨rfl, rfl, rfl⟩, h_same fun _ h_old => nomatch h_get.symm.trans h_old⟩
  | some moduleData =>
    rw [h_get] at h
    dsimp only at h
    cases h_saved : deleteFromModule c moduleData with
    | none =>
      rw [h_saved] at h
      cases h
    | some saved =>
      have h_rewrite := deleteFromModule_spec h_saved
      rw [h_saved] at h
      cases saved with
      | none =>
        cases h
        refine ⟨⟨rfl, rfl, rfl⟩, h_same fun old h_old => ?_⟩
        obtain rfl := Option.some.inj (h_get.symm.trans h_old)
        exact h_rewrite.symm
      | some rewritten =>
        cases h
        refine ⟨⟨rfl, rfl, rfl⟩, fun module => ?_⟩
        obtain rfl : rewritten = rewrite c moduleData := h_rewrite
        change get (OrderedDict.set r.rules c.module (rewrite c moduleData)) module = _
        rw [OrderedDict.get_set]
        by_cases h_module : c.module = module
        · subst h_module
          rw [if_pos rfl, h_get, Option.map_some, if_pos rfl]
        · rw [if_neg h_module]
          simp only [if_neg (Ne.symm h_module), Option.map_id']

theorem rewrite_of_stops (h : deleteFromRule c r = none)
    (h_get : get r.rules c.module = some moduleData) : rewrite c moduleData = moduleData := by
  unfold deleteFromRule at h
  rw [h_get] at h
  dsimp only at h
  cases h_saved : deleteFromModule c moduleData with
  | some saved =>
    rw [h_saved] at h
    cases saved <;> cases h
  | none =>
    cases moduleData with
    | entries es =>
      dsimp only [deleteFromModule] at h_saved
      split_ifs at h_saved
    | children cs keyed =>
      dsimp only [deleteFromModule] at h_saved
      dsimp only [rewrite]
      by_cases h_child : c.childModule = ""
      · rw [if_pos h_child]
      · rw [if_pos h_child] at h_saved
        rw [if_neg h_child]
        cases h_sub : get cs c.childModule with
        | none => rfl
        | some child =>
          rw [h_sub] at h_saved
          cases child with
          | entries es =>
            dsimp only at h_saved
            split_ifs at h_saved
          | nested subs keyed' => rfl

theorem deleted_spec (r : GroupDataRule) :
    ((((deleteFromRule c r).getD r).groupId = r.groupId ∧
      ((deleteFromRule c r).getD r).groupName = r.groupName) ∧
      ((deleteFromRule c r).getD r).app = r.app) ∧
      ∀ module, get ((deleteFromRule c r).getD r).rules module = (get r.rules module).map fun old =>
        if module = c.module then rewrite c old else old := by
  cases h_delete : deleteFromRule c r with
  | some r' =>
    obtain ⟨⟨h_group, h_name, h_app⟩, h_data⟩ := deleteFromRule_spec h_delete
    exact ⟨⟨⟨h_group, h_name⟩, h_app⟩, h_data⟩
  | none =>
    refine ⟨⟨⟨rfl, rfl⟩, rfl⟩, fun module => ?_⟩
    rw [Option.getD_none]
    cases h_get : get r.rules module with
    | none => rfl
    | some old =>
      rw [Option.map_some]
      split_ifs with h_module
      · rw [rewrite_of_stops h_delete (h_module ▸ h_get)]
      · rfl

/-- **All rules.** Those that are addressed and reached are worked on, as far as they do not stop
the deletion. -/
theorem getElem?_deleteFromRules (c : Deletion) (rs : List GroupDataRule) (i : ℕ) :
    (deleteFromRules c rs)[i]? = (rs[i]?).map fun r =>
      if Addressed c r ∧ Reached c rs i then (deleteFromRule c r).getD r else r := by
  induction rs generalizing i with
  | nil => rfl
  | cons first rs ih =>
    unfold deleteFromRules
    have h_reached_zero : Reached c (first :: rs) 0 := fun r h_r => absurd h_r List.not_mem_nil
    have h_reached_succ (i : ℕ) : Reached c (first :: rs) (i + 1) ↔
        ¬Stops c first ∧ Reached c rs i := List.forall_mem_cons
    by_cases h_first : Addressed c first
    · rw [if_pos h_first]
      cases h_delete : deleteFromRule c first with
      | none =>
        have h_stops : Stops c first := ⟨h_first, h_delete⟩
        cases i with
        | zero => simp [h_delete, h_first, h_reached_zero]
        | succ i =>
          simp only [List.getElem?_cons_succ, h_reached_succ, h_stops, not_true_eq_false,
            false_and, and_false, if_false, Option.map_id']
      | some first' =>
        have h_not : ¬Stops c first := fun h_stops => nomatch h_delete.symm.trans h_stops.2
        cases i with
        | zero => simp [h_delete, h_first, h_reached_zero]
        | succ i =>
          simp only [List.getElem?_cons_succ, h_reached_succ, h_not, not_false_eq_true, true_and]
          exact ih i
    · rw [if_neg h_first]
      have h_not : ¬Stops c first := fun h_stops => h_first h_stops.1
      cases i with
      | zero => simp [h_first]
      | succ i =>
        simp only [List.getElem?_cons_succ, h_reached_succ, h_not, not_false_eq_true, true_and]
        exact ih i

/-! ### What is read of it -/

theorem targetData_of_targetList (h : targetList c moduleData = some es) :
    targetData moduleData c.childModule = .entries es := by
  unfold targetData
  cases moduleData with
  | entries es' =>
    dsimp only [targetList] at h
    split_ifs at h ⊢ with h_child
    cases h
    rfl
  | children cs keyed =>
    dsimp only [targetList] at h
    split_ifs at h ⊢ with h_child
    dsimp only [findChildModuleData]
    cases h_get : get cs c.childModule with
    | none =>
      rw [h_get] at h
      cases h
    | some child =>
      rw [h_get] at h
      cases child with
      | entries es' =>
        cases h
        rfl
      | nested subs keyed' => cases h

theorem findSome?_sub_set {cs : OrderedDict String ChildData} {k key : String} {es' : List Entry}
    (h : get cs k = some (.entries es)) :
    ((OrderedDict.set cs k (.entries es')).findSome? fun c => c.2.sub key) =
      cs.findSome? fun c => c.2.sub key := by
  have h_map := OrderedDict.map_set (f := fun c => c.2.sub key) (v := .entries es') h rfl
  have h_find (cs : OrderedDict String ChildData) :
      (cs.findSome? fun c => c.2.sub key) = (cs.map fun c => c.2.sub key).findSome? id := by
    rw [List.findSome?_map]
    rfl
  rw [h_find, h_find, h_map]

theorem targetData_rewrite (moduleData : ModuleData) (key : String) :
    targetData (rewrite c moduleData) key = targetData moduleData key ∨
      key = c.childModule ∧ ∃ es, targetList c moduleData = some es ∧
        targetData (rewrite c moduleData) key = .entries (keep c es) := by
  cases moduleData with
  | entries es =>
    dsimp only [rewrite, targetList]
    split_ifs with h_child
    · by_cases h_key : key = ""
      · refine .inr ⟨h_key.trans h_child.symm, es, rfl, ?_⟩
        rw [targetData, if_pos h_key]
        rfl
      · refine .inl ?_
        rw [targetData, targetData, if_neg h_key, if_neg h_key]
        rfl
    · exact .inl rfl
  | children cs keyed =>
    dsimp only [rewrite, targetList]
    split_ifs with h_child
    · exact .inl rfl
    cases h_get : get cs c.childModule with
    | none => exact .inl rfl
    | some child =>
      cases child with
      | nested subs keyed' => exact .inl rfl
      | entries es =>
        dsimp only
        unfold targetData
        by_cases h_empty : key = ""
        · rw [if_pos h_empty, if_pos h_empty]
          exact .inl rfl
        · rw [if_neg h_empty, if_neg h_empty]
          dsimp only [findChildModuleData]
          by_cases h_key : c.childModule = key
          · refine .inr ⟨h_key.symm, es, rfl, ?_⟩
            rw [OrderedDict.get_set, if_pos h_key]
            rfl
          · refine .inl ?_
            rw [OrderedDict.get_set, if_neg h_key, findSome?_sub_set h_get]

theorem targetData_rewrite_of_targetList (h : targetList c moduleData = some es) :
    targetData (rewrite c moduleData) c.childModule = .entries (keep c es) := by
  cases moduleData with
  | entries es' =>
    dsimp only [targetList, rewrite] at h ⊢
    split_ifs at h ⊢ with h_child
    cases h
    rw [targetData, if_pos h_child]
    rfl
  | children cs keyed =>
    dsimp only [targetList, rewrite] at h ⊢
    split_ifs at h ⊢ with h_child
    cases h_get : get cs c.childModule with
    | none =>
      rw [h_get] at h
      cases h
    | some child =>
      rw [h_get] at h
      cases child with
      | nested subs keyed' => cases h
      | entries es' =>
        cases h
        dsimp only
        rw [targetData, if_neg h_child]
        dsimp only [findChildModuleData]
        rw [OrderedDict.get_set, if_pos rfl]
        rfl

theorem items?_rewrite : (rewrite c moduleData).items? = none ↔ moduleData.items? = none := by
  cases moduleData with
  | entries es =>
    dsimp only [rewrite]
    split_ifs <;> rfl
  | children cs keyed =>
    dsimp only [rewrite]
    split_ifs
    · rfl
    · split <;> exact iff_of_false (Option.some_ne_none _) (Option.some_ne_none _)

theorem mem_items_rewrite {item : String × List Entry} (h : item ∈ (rewrite c moduleData).items) :
    item ∈ moduleData.items ∨ ∃ es, targetList c moduleData = some es ∧
      item = (c.childModule, keep c es) := by
  cases moduleData with
  | entries es =>
    dsimp only [rewrite] at h
    split_ifs at h <;> exact absurd h List.not_mem_nil
  | children cs keyed =>
    dsimp only [rewrite, targetList] at h ⊢
    split_ifs at h ⊢ with h_child
    · exact .inl h
    cases h_get : get cs c.childModule with
    | none =>
      rw [h_get] at h
      exact .inl h
    | some child =>
      rw [h_get] at h
      cases child with
      | nested subs keyed' => exact .inl h
      | entries es =>
        obtain ⟨child, h_mem, h_item⟩ := List.mem_flatMap.mp h
        obtain ⟨h_key, h_data⟩ | h_old := OrderedDict.mem_set h_mem
        · rw [h_key, h_data] at h_item
          exact .inr ⟨es, rfl, List.mem_singleton.mp h_item⟩
        · exact .inl (List.mem_flatMap.mpr ⟨child, h_old, h_item⟩)

theorem mem_items_of_targetList (h : targetList c moduleData = some es)
    (h_items : moduleData.items? ≠ none) : (c.childModule, es) ∈ moduleData.items ∧
      (c.childModule, keep c es) ∈ (rewrite c moduleData).items := by
  cases moduleData with
  | entries es' => exact absurd rfl h_items
  | children cs keyed =>
    dsimp only [targetList, rewrite] at h ⊢
    split_ifs at h ⊢
    cases h_get : get cs c.childModule with
    | none =>
      rw [h_get] at h
      cases h
    | some child =>
      rw [h_get] at h
      cases child with
      | nested subs keyed' => cases h
      | entries es' =>
        cases h
        exact ⟨List.mem_flatMap.mpr ⟨_, OrderedDict.mem_of_get h_get, List.mem_singleton.mpr rfl⟩,
          List.mem_flatMap.mpr ⟨_, OrderedDict.mem_set_self, List.mem_singleton.mpr rfl⟩⟩

theorem exists_item_rewrite {item : String × List Entry} (h : item ∈ moduleData.items) :
    ∃ item' ∈ (rewrite c moduleData).items, item'.1 = item.1 := by
  by_cases h_list : ∃ es, targetList c moduleData = some es ∧ item = (c.childModule, es)
  · obtain ⟨es, h_target, rfl⟩ := h_list
    have h_items : moduleData.items? ≠ none := fun h_none => by
      rw [ModuleData.items, h_none] at h
      exact absurd h List.not_mem_nil
    exact ⟨_, (mem_items_of_targetList h_target h_items).2, rfl⟩
  · cases moduleData with
    | entries es => exact absurd h List.not_mem_nil
    | children cs keyed =>
      refine ⟨item, ?_, rfl⟩
      dsimp only [rewrite, targetList] at h_list ⊢
      split_ifs at h_list ⊢ with h_child
      · exact h
      cases h_get : get cs c.childModule with
      | none => exact h
      | some child =>
        rw [h_get] at h_list
        cases child with
        | nested subs keyed' => exact h
        | entries es =>
          obtain ⟨child, h_mem, h_item⟩ := List.mem_flatMap.mp h
          refine List.mem_flatMap.mpr ⟨child, OrderedDict.mem_set_of_ne h_mem ?_, h_item⟩
          intro h_key
          rw [← h_key, OrderedDict.get_of_mem keyed h_mem] at h_get
          rw [Option.some.inj h_get] at h_item
          exact h_list ⟨es, rfl, h_key ▸ List.mem_singleton.mp h_item⟩

/-! ### What it grants -/

theorem opens_entries : (RuleData.entries es).Opens ↔ es = [] ∨ hasZero (named es) = true := by
  unfold RuleData.Opens processRuleData
  dsimp only
  split_ifs with h_nil h_zero <;> simp [*]

theorem entries_of_not_opens (h : ¬(RuleData.entries es).Opens) :
    (processRuleData (.entries es)).2 = named es := by
  rw [opens_entries, not_or] at h
  dsimp only [processRuleData]
  rw [if_neg h.1, if_neg h.2]

theorem grants_of_lists {data : RuleData} {groupId : ℕ} {o : Obj} (h : Lists data o.id) :
    data.Grants groupId o := by
  have h_not := h.1
  unfold RuleData.Opens at h_not
  rw [RuleData.Grants, if_neg h_not]
  exact h.2

theorem opens_or_lists {data : RuleData} {groupId : ℕ} {o : Obj} (h : data.Grants groupId o) :
    data.Opens ∧ groupId ∈ o.teams ∨ Lists data o.id := by
  by_cases h_opens : data.Opens
  · exact .inl ⟨h_opens, (grants_of_opens h_opens).mp h⟩
  · refine .inr ⟨h_opens, ?_⟩
    unfold RuleData.Opens at h_opens
    rwa [RuleData.Grants, if_neg h_opens] at h

theorem mem_named_of_keep (h : e ∈ named (keep c es)) : e ∈ named es := by
  obtain ⟨h_mem, h_named⟩ := List.mem_filter.mp h
  exact List.mem_filter.mpr ⟨(mem_keep.mp h_mem).1, h_named⟩

theorem hasZero_iff : hasZero es = true ↔ ∃ e ∈ es, e.id = .int 0 ∨ e.id = .str "0" := by
  simp [hasZero]

theorem text_of_zero (h : e.id = .int 0 ∨ e.id = .str "0") : e.id.text = "0" := by
  obtain h_eq | h_eq := h <;> rw [h_eq] <;> rfl

theorem opens_keep (h : (RuleData.entries (keep c es)).Opens) :
    (RuleData.entries es).Opens ∨ Emptied c es := by
  by_cases h_before : (RuleData.entries es).Opens
  · exact .inl h_before
  rw [opens_entries, not_or, Bool.not_eq_true] at h_before
  obtain ⟨h_ne, h_zero⟩ := h_before
  refine .inr ⟨h_ne, h_zero, fun e h_e => ?_⟩
  obtain h_nil | h_still := opens_entries.mp h
  · by_contra h_kept
    have h_mem := mem_keep.mpr ⟨h_e, Bool.eq_false_of_not_eq_true h_kept⟩
    rw [h_nil] at h_mem
    exact absurd h_mem List.not_mem_nil
  · obtain ⟨z, h_z, h_is⟩ := hasZero_iff.mp h_still
    exact absurd (hasZero_iff.mpr ⟨z, mem_named_of_keep h_z, h_is⟩) (by rw [h_zero]; decide)

/-- **What the deletion opens.** A list that is worked on grants what it granted, or it is emptied,
or it loses its 0. -/
theorem grants_keep {groupId : ℕ} {o : Obj} (h : (RuleData.entries (keep c es)).Grants groupId o) :
    (RuleData.entries es).Grants groupId o ∨ (Emptied c es ∧ groupId ∈ o.teams) ∨
      Exposed c es o.id := by
  obtain ⟨h_opens, h_team⟩ | ⟨h_not, e, h_e, h_id⟩ := opens_or_lists h
  · obtain h_before | h_emptied := opens_keep h_opens
    · exact .inl ((grants_of_opens h_before).mpr h_team)
    · exact .inr (.inl ⟨h_emptied, h_team⟩)
  rw [entries_of_not_opens h_not] at h_e
  by_cases h_before : (RuleData.entries es).Opens
  · refine .inr (.inr ?_)
    have h_ne : es ≠ [] := fun h_nil => by
      rw [h_nil] at h_e
      exact absurd h_e List.not_mem_nil
    have h_zero := (opens_entries.mp h_before).resolve_left h_ne
    obtain ⟨z, h_z, h_is⟩ := hasZero_iff.mp h_zero
    -- the 0 is gone, so it is what was deleted
    have h_deleted : isDeleted c z = true := by
      by_contra h_kept
      obtain ⟨h_mem, h_named⟩ := List.mem_filter.mp h_z
      refine h_not (opens_entries.mpr (.inr (hasZero_iff.mpr ⟨z, ?_, h_is⟩)))
      exact List.mem_filter.mpr
        ⟨mem_keep.mpr ⟨h_mem, Bool.eq_false_of_not_eq_true h_kept⟩, h_named⟩
    exact ⟨(of_decide_eq_true h_deleted).symm.trans (text_of_zero h_is), h_zero, e, h_e, h_id⟩
  · refine .inl (grants_of_lists ⟨h_before, e, ?_, h_id⟩)
    rw [entries_of_not_opens h_before]
    exact mem_named_of_keep h_e

theorem opens_of_emptied (h : Emptied c es) : (RuleData.entries (keep c es)).Opens := by
  refine opens_entries.mpr (.inl (List.filter_eq_nil_iff.mpr fun e h_e => ?_))
  rw [h.2.2 e h_e]
  decide

theorem lists_of_exposed {id : String} (h : Exposed c es id) :
    Lists (.entries (keep c es)) id ∧ id ≠ c.instanceId.text := by
  obtain ⟨h_text, -, e, h_e, rfl⟩ := h
  have h_mem := (List.mem_filter.mp h_e).1
  have h_not : ¬(RuleData.entries (keep c es)).Opens := by
    rw [opens_entries]
    rintro (h_nil | h_zero)
    · rw [h_nil] at h_mem
      exact absurd h_mem List.not_mem_nil
    · obtain ⟨z, h_z, h_is⟩ := hasZero_iff.mp h_zero
      have h_kept := (mem_keep.mp (List.mem_filter.mp h_z).1).2
      exact of_decide_eq_false h_kept ((text_of_zero h_is).trans h_text.symm)
  refine ⟨⟨h_not, e, ?_, rfl⟩, of_decide_eq_false (mem_keep.mp h_mem).2⟩
  rwa [entries_of_not_opens h_not]

end Data

end RuleDeletion
end Core
