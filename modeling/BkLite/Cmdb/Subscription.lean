import BkLite.Cmdb.Instances
import Mathlib.Data.List.Sort
import Mathlib.Data.List.Infix

/-!
# Subscription checks

A subscription rule watches the instances of a model that meet a condition. A check compares what it
finds with the snapshot of the previous check, reads the change records since then, and reports the
instances that entered or left, the changes of watched fields, and the associations that were added
or removed (`services/subscription_trigger.py`).

A rule has the triggers `attribute_change` and `relation_change` here, and its filter is a
condition.
-/

namespace Cmdb.Subscription

open Py

/-- `str()`. -/
structure Env where
  str : Value → String

structure TriggerEvent where
  ruleId : ℕ
  ruleName : String
  modelId : String
  modelName : String
  triggerType : String
  instId : ℕ
  instName : Value
  changeSummary : String
  triggeredAt : String

structure RelationModel where
  relatedModel : String
  fields : List String
deriving DecidableEq, Repr

/-- `trigger_config["relation_change"]`. -/
structure RelationConfig where
  relatedModels : List RelationModel
  relatedModel : String
  fields : List String
deriving DecidableEq, Repr

structure Rule where
  id : ℕ
  name : String
  modelId : String
  modelName : String
  /-- `trigger_config["attribute_change"]["fields"]` -/
  fields : List String
  relationChange : RelationConfig
  createdAt : ℤ

inductive ChangeType
  | createInst
  | updateInst
  | deleteInst
  | createInstAsst
  | deleteInstAsst
  | execute
deriving DecidableEq, Repr

structure ChangeRecord where
  instId : ℕ
  modelId : String
  type : ChangeType
  beforeData : Props
  afterData : Props
  createdAt : ℤ

/-- What the queries of a check find; `none` where the query of an association fails. -/
structure World where
  instances : List Instance
  related : String → ℕ → Option (List ℕ)
  records : List ChangeRecord
  relatedInstances : String → List Instance

/-- `snapshot_data`: the instances of the previous check, and the related instances of each. -/
structure Snapshot where
  instances : List ℕ
  relations : List (ℕ × List (String × List ℕ))

structure RuleState where
  snapshot : Snapshot
  lastCheckTime : Option ℤ
  lastTriggeredAt : Option ℤ

/-! ### Sorting -/

/-- `sorted(set(..))` of ids. -/
def sortedIds (ids : List ℕ) : List ℕ := (fromKeys ids).mergeSort (· ≤ ·)

/-- `sorted(set(..))` of texts. -/
def sortedTexts (texts : List String) : List String :=
  (fromKeys texts).mergeSort fun a b => !textLt b.toList a.toList

def sortedByText (ids : List ℕ) : List ℕ :=
  (fromKeys ids).mergeSort fun a b => !textLt (toString b).toList (toString a).toList

@[simp] theorem mem_sortedIds {i : ℕ} {ids : List ℕ} : i ∈ sortedIds ids ↔ i ∈ ids := by
  rw [sortedIds, List.mem_mergeSort, mem_fromKeys]

@[simp] theorem mem_sortedByText {i : ℕ} {ids : List ℕ} : i ∈ sortedByText ids ↔ i ∈ ids := by
  rw [sortedByText, List.mem_mergeSort, mem_fromKeys]

/-! ### Change records -/

section Records

variable (env : Env)

def truncateValue (value : Value) : String :=
  match value with
  | .null => "(空)"
  | value =>
    let strValue := env.str value
    if 50 < strValue.length then String.ofList (strValue.toList.take 47) ++ "..." else strValue

/-- `_get_changed_fields`. -/
def changedFields (beforeData afterData : Props) : List String :=
  (fromKeys ((beforeData ++ afterData).map (·.1))).filter fun field =>
    !(beforeData.get field).equal (afterData.get field)

/-- The summary of a record: the changes of these fields, `none` if there is none. -/
def changeSummary (record : ChangeRecord) (matched : List String) : Option String :=
  if matched = [] then none
  else some ("字段变化: " ++ String.intercalate "; " (matched.map fun field =>
    field ++ ": " ++ truncateValue env (record.beforeData.get field) ++ " → " ++
      truncateValue env (record.afterData.get field)))

def watchedSummary (watchFields : List String) (record : ChangeRecord) : Option String :=
  changeSummary env record
    (sortedTexts ((changedFields record.beforeData record.afterData).filter (· ∈ watchFields)))

/-- The records of some instances of a model in `(last_check, checkpoint]`, in the order of time. -/
def windowRecords (records : List ChangeRecord) (modelId : String) (instIds : List ℕ)
    (lastCheck checkpoint : ℤ) : List ChangeRecord :=
  (records.filter fun record =>
    record.modelId = modelId ∧ record.type ∈ [.updateInst, .createInst, .deleteInst] ∧
      record.instId ∈ instIds ∧ lastCheck < record.createdAt ∧
      record.createdAt ≤ checkpoint).mergeSort fun a b => a.createdAt ≤ b.createdAt

end Records

/-! ### Attribute changes -/

/-- `inst.get("inst_name") or inst.get("ip_addr") or str(inst_id)`. -/
def nameOf (get : String → Value) (instId : ℕ) : Value :=
  ((get "inst_name").orElse (get "ip_addr")).orElse (.str (toString instId))

def resolveAttributeInstName (instances : List Instance) (instId : ℕ) (beforeData afterData : Props) :
    Value :=
  let inst := ((instances.reverse.find? (·.id = instId)).map (·.get)).getD fun _ => .null
  let name := nameOf inst instId
  if name.truthy && !name.equal (.str (toString instId)) then name
  else
    ((((afterData.get "inst_name").orElse (afterData.get "ip_addr")).orElse
      (beforeData.get "inst_name")).orElse (beforeData.get "ip_addr")).orElse
      (.str (toString instId))

/-- An entry of `merged_event_map`: the parts of the summary of one instance. -/
structure Merged where
  instId : ℕ
  instName : Value
  parts : List String

def enteredSummary : String := "实例进入订阅范围（可能为新建或属性变化命中过滤条件）"

def leftSummary : String := "实例离开订阅范围（可能为删除或属性变化不再命中过滤条件）"

/-- What `_merge_attribute_summary` does with the entry of the instance. -/
def Merged.add (merged : Merged) (instName : Value) (part : String) : Merged :=
  { merged with
    instName := if !merged.instName.truthy || merged.instName.equal (.str (toString merged.instId))
      then instName else merged.instName
    parts := if part ≠ "" ∧ part ∉ merged.parts then merged.parts ++ [part] else merged.parts }

def mergeAttributeSummary (map : List Merged) (instId : ℕ) (instName : Value) (part : String) :
    List Merged :=
  if map.any (·.instId = instId) then
    map.map fun merged => if merged.instId = instId then merged.add instName part else merged
  else map ++ [Merged.add ⟨instId, instName, []⟩ instName part]

/-- `_check_attribute_change`, in the mode `single` and with a condition as filter. -/
def checkAttributeChange (env : Env) (rule : Rule) (state : RuleState) (w : World)
    (checkpoint : ℤ) : List Merged :=
  if rule.fields = [] then []
  else
    let currentIds := w.instances.map (·.id)
    let previousIds := state.snapshot.instances
    let addedIds := sortedIds (currentIds.filter (· ∉ previousIds))
    let removedIds := sortedIds (previousIds.filter (· ∉ currentIds))
    let merged := addedIds.foldl (fun map instId => mergeAttributeSummary map instId
      (resolveAttributeInstName w.instances instId [] []) enteredSummary) []
    let merged := removedIds.foldl (fun map instId => mergeAttributeSummary map instId
      (resolveAttributeInstName w.instances instId [] []) leftSummary) merged
    let records := windowRecords w.records rule.modelId (sortedIds (currentIds ++ previousIds))
      (state.lastCheckTime.getD rule.createdAt) checkpoint
    -- returns the events so far, and in the mode `single` the merged ones are not among them yet
    if records = [] then []
    else
      records.foldl (fun map record =>
        match watchedSummary env rule.fields record with
        | none => map
        | some summary => mergeAttributeSummary map record.instId
          (resolveAttributeInstName w.instances record.instId record.beforeData record.afterData)
          summary) merged

def Merged.toEvent (rule : Rule) (nowStr : String) (merged : Merged) : TriggerEvent :=
  let changeSummary := String.intercalate " | " merged.parts
  { ruleId := rule.id
    ruleName := rule.name
    modelId := rule.modelId
    modelName := rule.modelName
    triggerType := "attribute_change"
    instId := merged.instId
    instName := merged.instName
    changeSummary :=
      if "实例进入订阅范围".toList <:+: changeSummary.toList ∧
          "字段变化:".toList <:+: changeSummary.toList then
        "创建并修改: " ++ changeSummary
      else changeSummary
    triggeredAt := nowStr }

/-! ### Relation changes -/

def normalizeRelationChangeModels (config : RelationConfig) : List RelationModel :=
  let normalized := config.relatedModels.filter (·.relatedModel ≠ "")
  if normalized ≠ [] then
    normalized.foldl (fun deduplicated item =>
      if deduplicated.any (·.relatedModel = item.relatedModel) then deduplicated
      else deduplicated ++ [item]) []
  else if config.relatedModel ≠ "" then [⟨config.relatedModel, config.fields⟩]
  else []

/-- `relations.get(inst_id, {}).get(related_model)`. -/
def Snapshot.relatedIds (snapshot : Snapshot) (instId : ℕ) (relatedModel : String) :
    Option (List ℕ) :=
  ((snapshot.relations.find? (·.1 = instId)).bind fun entry =>
    entry.2.find? (·.1 = relatedModel)).map (·.2)

/-- `_build_current_snapshot`: where the query has failed, the related instances are the previous
ones. -/
def buildCurrentSnapshot (rule : Rule) (state : RuleState) (w : World) : Snapshot where
  instances := w.instances.map (·.id)
  relations := (fromKeys (w.instances.map (·.id))).map fun instId =>
    (instId, (normalizeRelationChangeModels rule.relationChange).filterMap fun item =>
      match w.related item.relatedModel instId with
      | some ids => some (item.relatedModel, ids)
      | none => (state.snapshot.relatedIds instId item.relatedModel).map fun ids =>
        (item.relatedModel, ids))

/-- The change of the associations of one instance with the instances of one model. -/
structure RelationChange where
  instId : ℕ
  instName : Value
  relatedModel : String
  added : List ℕ
  removed : List ℕ
  changed : List String

def allRelatedIds (previous current : Snapshot) (relatedModel : String) : List ℕ :=
  sortedIds ((previous.relations ++ current.relations).flatMap fun entry =>
    ((entry.2.find? (·.1 = relatedModel)).map (·.2)).getD [])

/-- `_build_related_change_map`, by instance. -/
def relatedChanges (env : Env) (rule : Rule) (state : RuleState) (w : World) (checkpoint : ℤ)
    (item : RelationModel) (relatedIds : List ℕ) (relatedId : ℕ) : List String :=
  (windowRecords w.records item.relatedModel relatedIds
      (state.lastCheckTime.getD rule.createdAt) checkpoint).filterMap fun record =>
    if record.instId = relatedId then
      changeSummary env record (sortedTexts
        ((changedFields record.beforeData record.afterData).filter fun field =>
          item.fields = [] ∨ field ∈ item.fields))
    else none

/-- The texts of `changed_related_parts`. -/
def changedRelatedParts (env : Env) (rule : Rule) (state : RuleState) (w : World) (checkpoint : ℤ)
    (item : RelationModel) (relatedIds stable : List ℕ) : List String :=
  stable.filterMap fun relatedId =>
    match relatedChanges env rule state w checkpoint item relatedIds relatedId with
    | [] => none
    | summaries =>
      let name := ((w.relatedInstances item.relatedModel).reverse.find? (·.id = relatedId)).elim
        (toString relatedId) fun inst => env.str (nameOf inst.get relatedId)
      some ("关联实例[" ++ name ++ "]属性变化: " ++ String.intercalate " | " summaries)

def checkRelationChange (env : Env) (rule : Rule) (state : RuleState) (w : World)
    (current : Snapshot) (checkpoint : ℤ) : List RelationChange :=
  let previous := state.snapshot
  let allInstanceIds := sortedByText ((previous.relations ++ current.relations).map (·.1))
  (normalizeRelationChangeModels rule.relationChange).flatMap fun item =>
    let relatedIds := allRelatedIds previous current item.relatedModel
    -- an instance whose query has failed in this check is passed over
    let compared := allInstanceIds.filter fun instId =>
      ¬(instId ∈ w.instances.map (·.id) ∧ w.related item.relatedModel instId = none)
    (compared.map fun instId =>
      let prevRelated := (previous.relatedIds instId item.relatedModel).getD []
      let currRelated := (current.relatedIds instId item.relatedModel).getD []
      { instId := instId
        instName := ((w.instances.reverse.find? (·.id = instId)).map fun inst =>
          nameOf inst.get instId).getD (.str (toString instId))
        relatedModel := item.relatedModel
        added := sortedIds (currRelated.filter (· ∉ prevRelated))
        removed := sortedIds (prevRelated.filter (· ∉ currRelated))
        changed := changedRelatedParts env rule state w checkpoint item relatedIds
          (sortedIds (prevRelated.filter (· ∈ currRelated))) : RelationChange }).filter fun change =>
      change.added ≠ [] ∨ change.removed ≠ [] ∨ change.changed ≠ []

def idsText (ids : List ℕ) : String :=
  "[" ++ String.intercalate ", " (ids.map toString) ++ "]"

def RelationChange.toEvent (rule : Rule) (nowStr : String) (change : RelationChange) :
    TriggerEvent where
  ruleId := rule.id
  ruleName := rule.name
  modelId := rule.modelId
  modelName := rule.modelName
  triggerType := "relation_change"
  instId := change.instId
  instName := change.instName
  changeSummary := "关联模型[" ++ change.relatedModel ++ "]变化: " ++ String.intercalate "; "
    ((if change.added = [] then [] else ["新增关联: " ++ idsText change.added]) ++
      (if change.removed = [] then [] else ["删除关联: " ++ idsText change.removed]) ++
      change.changed)
  triggeredAt := nowStr

/-! ### A check -/

structure Detection where
  attributes : List Merged
  relations : List RelationChange

def Detection.events (rule : Rule) (nowStr : String) (d : Detection) : List TriggerEvent :=
  d.attributes.map (·.toEvent rule nowStr) ++ d.relations.map (·.toEvent rule nowStr)

/-- `process`: what is found, and the rule after `_update_snapshot`. -/
def process (env : Env) (rule : Rule) (state : RuleState) (w : World) (checkpoint : ℤ) :
    Detection × RuleState :=
  if w.instances = [] then
    (⟨[], []⟩, { state with snapshot := ⟨[], []⟩, lastCheckTime := some checkpoint })
  else
    let current := buildCurrentSnapshot rule state w
    let found : Detection :=
      ⟨checkAttributeChange env rule state w checkpoint,
        checkRelationChange env rule state w current checkpoint⟩
    (found,
      { snapshot := current
        lastCheckTime := some checkpoint
        lastTriggeredAt := if found.attributes = [] ∧ found.relations = [] then state.lastTriggeredAt
          else some checkpoint })

end Cmdb.Subscription
