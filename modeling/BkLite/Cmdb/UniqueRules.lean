import BkLite.Cmdb.Instances
import Mathlib.Data.List.DropRight
import Mathlib.Data.List.Sort

/-!
# The unique rules of a model

A model has attributes, some of which are `is_only`, and up to three unique rules, each a list of
required fields (`services/unique_rule.py`). No two instances of the model are to have the same
non-empty values in all fields of a rule, or in an `is_only` attribute. Whatever creates or updates
instances checks the submitted dict against the instances that are there (`graph/falkordb.py`).
-/

namespace Cmdb
namespace UniqueRules

open Py

/-! ### Comparing values -/

inductive Token
  | null
  | bool (b : Bool)
  | int (i : ℤ)
  | float (q : ℚ)
  | str (s : String)
  | openList
  | closeList
  | openDict
  | closeDict
deriving DecidableEq

mutual

/-- `json.dumps(value, sort_keys=True)`, as the tokens of the text. -/
def dumps : Value → List Token
  | .null => [.null]
  | .bool b => [.bool b]
  | .int i => [.int i]
  | .float q => [.float q]
  | .str s => [.str s]
  | .list xs => .openList :: (dumpsList xs ++ [.closeList])
  | .dict kvs =>
    .openDict :: (((dumpsDict kvs).insertionSort fun e e' =>
      !textLt e'.1.toList e.1.toList).flatMap fun entry => .str entry.1 :: entry.2) ++ [.closeDict]

def dumpsList : List Value → List Token
  | [] => []
  | x :: xs => dumps x ++ dumpsList xs

def dumpsDict : List (String × Value) → List (String × List Token)
  | [] => []
  | (key, x) :: kvs => (key, dumps x) :: dumpsDict kvs

end

/-- A token up to `==`: the numbers of all types are compared as numbers. -/
def Token.loose : Token → Token
  | .bool b => .float (if b then 1 else 0)
  | .int i => .float i
  | token => token

/-- What a value shares with exactly the values that are `==` to it. -/
def image (x : Value) : List Token := (dumps x).map Token.loose

example : image (.dict [("b", .int 1), ("a", .null)]) =
    image (.dict [("a", .null), ("b", .bool true)]) := by
  decide +kernel

/-! ### Attributes and rules -/

structure Attr where
  attrId : String
  attrName : String
  attrType : String
  isOnly : Bool
  isRequired : Bool
  editable : Bool
  isDisplayField : Bool
  named : attrId ≠ "_creator"

/-- `ModelUniqueRule`. -/
structure Rule where
  ruleId : String
  order : ℕ
  fieldIds : List String
deriving DecidableEq

/-- The attributes, the unsupported types, and the functions of the runtime. -/
structure Env where
  attrs : List Attr
  unsupported : List String
  format : Value → String
  toJson : Value → String
  loads : String → Value
  uuid : ℕ → String
  uuid_inj : Function.Injective uuid

variable (env : Env)

/-- `attrs_by_id.get(field_id)`. -/
def attrById (fieldId : String) : Option Attr :=
  (env.attrs.reverse.filter fun attr => !attr.isDisplayField && attr.attrId ≠ "").find?
    (·.attrId = fieldId)

def getAttrName (fieldId : String) : String :=
  match attrById env fieldId with
  | none => fieldId
  | some attr => if attr.attrName = "" then fieldId else attr.attrName

def normalizeRuleFieldIds (fieldIds : List String) : List String :=
  fromKeys ((fieldIds.map fun fieldId => String.ofList (strip fieldId.toList)).filter (· ≠ ""))

def reorderUniqueRules (rules : List Rule) : List Rule :=
  rules.zipIdx.map fun (rule, index) => { rule with order := index + 1 }

/-- The order of `(rule.order, rule.rule_id)`. -/
def Rule.before (rule rule' : Rule) : Bool :=
  rule.order < rule'.order ||
    (rule.order = rule'.order && !textLt rule'.ruleId.toList rule.ruleId.toList)

/-- `parse_unique_rules` of a list of rules. -/
def parseUniqueRules (raw : List Rule) : List Rule :=
  reorderUniqueRules (((raw.zipIdx.map fun (rule, index) =>
      { ruleId := rule.ruleId, order := if rule.order = 0 then index + 1 else rule.order,
        fieldIds := normalizeRuleFieldIds rule.fieldIds : Rule }).filter
    fun rule => rule.fieldIds ≠ []).insertionSort fun rule rule' => rule.before rule')

/-! ### Conflicts -/

def isEmptyUniqueRuleValue : Value → Bool
  | .null => true
  | .str s => (strip s.toList).isEmpty
  | _ => false

def buildRuleSignature (get : String → Value) (fieldIds : List String) :
    Option (List (List Token)) :=
  if fieldIds.any fun fieldId => isEmptyUniqueRuleValue (get fieldId) then none
  else some (fieldIds.map fun fieldId => dumps (get fieldId))

/-- `UniqueRuleConflict`, as far as its message goes. -/
structure Conflict where
  rule : Rule
  item : String → Value
  conflictPrefix : String

def Conflict.message (conflict : Conflict) : String :=
  "规则 " ++ toString conflict.rule.order ++ "【" ++
    " + ".intercalate (conflict.rule.fieldIds.map (getAttrName env)) ++ "】" ++
    conflict.conflictPrefix ++ "：" ++ "，".intercalate (conflict.rule.fieldIds.map fun fieldId =>
      getAttrName env fieldId ++ "=" ++ env.format (conflict.item fieldId))

/-- The conflicts of the items with signatures that are there (`exist`), and with those of the items
before them (`batch`). -/
def scanConflicts (rule : Rule) (exist : List (List (List Token))) (batchPrefix : String) :
    List (List (List Token)) → List (String → Value) → List Conflict
  | _, [] => []
  | batch, item :: items =>
    match buildRuleSignature item rule.fieldIds with
    | none => scanConflicts rule exist batchPrefix batch items
    | some signature =>
      if signature ∈ exist then
        ⟨rule, item, "与现有实例冲突"⟩ :: scanConflicts rule exist batchPrefix batch items
      else if signature ∈ batch then
        ⟨rule, item, batchPrefix⟩ :: scanConflicts rule exist batchPrefix batch items
      else scanConflicts rule exist batchPrefix (signature :: batch) items

def collectUniqueRuleConflicts (rules : List Rule) (items : List (String → Value))
    (existItems : List Instance) (excluded : List ℕ) : List Conflict :=
  rules.flatMap fun rule =>
    scanConflicts rule ((existItems.filter (·.id ∉ excluded)).filterMap fun item =>
      buildRuleSignature item.get rule.fieldIds) "与本批次数据冲突" [] items

def collectExistingInstanceConflicts (rules : List Rule) (existItems : List Instance) :
    List Conflict :=
  rules.flatMap fun rule =>
    scanConflicts rule [] "与现有实例冲突" [] (existItems.map Instance.get)

/-! ### Failures -/

inductive Failure
  | noFields
  | repeatedField
  | tooManyRules
  | unknownField (fieldId : String)
  | instName
  | organization
  | notRequired (fieldId : String)
  | unsupportedType (fieldId : String)
  | occupied (fieldId : String)
  | ruleNotFound
  | conflict (found : Conflict)
  | exist (attrNames : List String)
  | isEmpty (attrNames : List String)
  | instanceNotFound
  | noProperties
  /-- Another check refuses. -/
  | refused
  /-- What follows the write raises. -/
  | followUp

/-- The limit of `UNIQUE_RULE_MAX_COUNT`. -/
def uniqueRuleMaxCount : ℕ := 3

/-- `UNIQUE_RULE_UNSUPPORTED_ATTR_TYPES`. -/
def unsupportedAttrTypes : List String := ["enum", "tag", "bool"]

def Failure.message : Failure → String
  | .noFields => "field_ids 不能为空"
  | .repeatedField => "field_ids 内存在重复字段"
  | .tooManyRules => "每个模型最多只能配置 " ++ toString uniqueRuleMaxCount ++ " 条额外唯一规则"
  | .unknownField fieldId => "字段 " ++ fieldId ++ " 不存在于当前模型"
  | .instName => "额外唯一规则不允许包含 inst_name"
  | .organization => "额外唯一规则不允许包含 organization"
  | .notRequired fieldId => "字段 " ++ getAttrName env fieldId ++ " 不是必填字段"
  | .unsupportedType fieldId => "字段 " ++ getAttrName env fieldId ++ " 的类型不支持加入唯一规则"
  | .occupied fieldId => "字段 " ++ getAttrName env fieldId ++ " 已被其他唯一规则使用"
  | .ruleNotFound => "唯一规则不存在"
  | .conflict found => found.message env
  | .exist attrNames => String.join (attrNames.map (· ++ " exist；"))
  | .isEmpty attrNames => String.join (attrNames.map (· ++ " is empty；"))
  | .instanceNotFound => "实例不存在！"
  | .noProperties => "properties is empty"
  | .refused | .followUp => ""

/-! ### Checks of a write -/

def checkUniqueAttr (item : Props) (existItems : List Instance) (isUpdate : Bool) :
    Except Failure Unit :=
  match env.attrs.filter fun attr =>
      attr.isOnly && (!isUpdate || decide (item.Has attr.attrId)) && existItems.any fun row =>
        (row.get attr.attrId).truthy && (item.get attr.attrId).truthy &&
          image (item.get attr.attrId) = image (row.get attr.attrId) with
  | [] => .ok ()
  | clashes => .error (.exist (clashes.map Attr.attrName))

/-- `check_unique_rules` of one item. -/
def checkUniqueRules (item : Props) (rules : List Rule) (existItems : List Instance)
    (excluded : List ℕ) : Except Failure Unit :=
  match collectUniqueRuleConflicts (parseUniqueRules rules) [item.get] existItems excluded with
  | [] => .ok ()
  | conflict :: _ => .error (.conflict conflict)

def checkRequiredAttr (item : Props) (isUpdate : Bool) : Except Failure Unit :=
  match env.attrs.filter fun attr =>
      attr.isRequired && (!isUpdate || decide (item.Has attr.attrId)) &&
        !(item.get attr.attrId).truthy with
  | [] => .ok ()
  | missing => .error (.isEmpty (missing.map Attr.attrName))

def editable (attrId : String) : Bool :=
  env.attrs.any fun attr => attr.attrId = attrId && (attr.editable || attr.isDisplayField)

/-! ### Tables -/

def isTable (attrId : String) : Bool :=
  env.attrs.any fun attr => attr.attrId = attrId && attr.attrType = "table"

/-- `_serialize_table_fields` of one value. -/
def serializeValue (key : String) (x : Value) : Value :=
  match x with
  | .list xs => if isTable env key then .str (env.toJson (.list xs)) else .list xs
  | x => x

def serializeTableFields (props : Props) : Props :=
  props.map fun entry => (entry.1, serializeValue env entry.1 entry.2)

/-- `_deserialize_table_fields_in_result_list` of one instance. -/
def deserializeTableFields (get : String → Value) (key : String) : Value :=
  match get key with
  | .str s => if isTable env key then env.loads s else .str s
  | x => x

/-! ### The state -/

/-- The instances of the model, its saved rules, how many rules have been created, and the options
of its tag attribute. -/
structure State where
  store : Store
  saved : List Rule
  nextRule : ℕ
  options : List String

def State.create (s : State) (props : Props) : State := { s with store := s.store.create props }

def State.write (s : State) (ids : List ℕ) (props : Props) : State :=
  { s with store := s.store.write ids props }

/-- `query_entity_by_ids` finds nothing. -/
def missing (store : Store) (ids : List ℕ) : Bool := store.rows.all fun inst => inst.id ∉ ids

/-- `query_entity` of the instances of the model. -/
def queryEntity (s : State) : List Instance :=
  s.store.rows.map fun inst => { inst with get := deserializeTableFields env inst.get }

/-- `merge_tag_options_from_values`. -/
def mergeTagOptions (tags : List String) (s : State) : State where
  __ := s
  options := tags.foldl (fun options tag => if tag ∈ options then options else options ++ [tag])
    s.options

/-! ### Operations on the rules -/

def keptRules (rules : List Rule) (editing : Option String) : List Rule :=
  rules.filter fun rule => some rule.ruleId ≠ editing

/-- The checks of `validate_unique_rule_payload` on one field. -/
def checkField (rules : List Rule) (editing : Option String) (fieldId : String) :
    Except Failure Unit :=
  match attrById env fieldId with
  | none => .error (.unknownField fieldId)
  | some attr =>
    if fieldId = "inst_name" then .error .instName
    else if fieldId = "organization" then .error .organization
    else if attr.isRequired = false then .error (.notRequired fieldId)
    else if attr.attrType ∈ unsupportedAttrTypes ++ env.unsupported then
      .error (.unsupportedType fieldId)
    else if fieldId ∈ (keptRules rules editing).flatMap Rule.fieldIds then
      .error (.occupied fieldId)
    else .ok ()

/-- The loop of `validate_unique_rule_payload` over the fields. -/
def checkFields (rules : List Rule) (editing : Option String) : List String → Except Failure Unit
  | [] => .ok ()
  | fieldId :: fieldIds => do
    checkField env rules editing fieldId
    checkFields rules editing fieldIds

def validateUniqueRulePayload (rules : List Rule) (fieldIds : List String)
    (editing : Option String) : Except Failure Unit :=
  if normalizeRuleFieldIds fieldIds = [] then .error .noFields
  else if (normalizeRuleFieldIds fieldIds).length ≠ fieldIds.length then .error .repeatedField
  else if editing = none ∧ uniqueRuleMaxCount ≤ rules.length then .error .tooManyRules
  else checkFields env rules editing (normalizeRuleFieldIds fieldIds)

/-- The end of `_apply_unique_rule_mutation`. -/
def saveRules (rules : List Rule) (s : State) : Except Failure State :=
  match collectExistingInstanceConflicts rules (queryEntity env s) with
  | [] => .ok { s with saved := reorderUniqueRules rules }
  | conflict :: _ => .error (.conflict conflict)

def createUniqueRule (fieldIds : List String) (s : State) : Except Failure State := do
  let rules := parseUniqueRules s.saved
  validateUniqueRulePayload env rules fieldIds none
  saveRules env (reorderUniqueRules
      (rules ++ [⟨env.uuid s.nextRule, rules.length + 1, fieldIds⟩]))
    { s with nextRule := s.nextRule + 1 }

def updateUniqueRule (ruleId : String) (fieldIds : List String) (s : State) :
    Except Failure State :=
  let rules := parseUniqueRules s.saved
  if rules.all fun rule => rule.ruleId ≠ ruleId then throw .ruleNotFound
  else do
    validateUniqueRulePayload env rules fieldIds (some ruleId)
    saveRules env (reorderUniqueRules (rules.map fun rule =>
      if rule.ruleId = ruleId then { rule with fieldIds := fieldIds } else rule)) s

def deleteUniqueRule (ruleId : String) (s : State) : Except Failure State :=
  let rules := parseUniqueRules s.saved
  if (keptRules rules (some ruleId)).length = rules.length then throw .ruleNotFound
  else saveRules env (reorderUniqueRules (keptRules rules (some ruleId))) s

/-! ### Operations on the instances -/

/-- `{**properties, "_creator": operator}`. -/
def withCreator (operator : String) (props : Props) : Props :=
  if operator = "" then props
  else props.filter (·.1 ≠ "_creator") ++ [("_creator", .str operator)]

/-- `_create_entity`: the properties that are created. -/
def checkEntity (props : Props) (refused : Bool) (operator : String) (existItems : List Instance)
    (rules : List Rule) : Except Failure Props := do
  if refused then throw .refused
  checkUniqueAttr env props existItems false
  checkUniqueRules props rules existItems []
  checkRequiredAttr env props false
  return serializeTableFields env (withCreator operator props)

/-- The write of `instance_create`. -/
def instanceCreate (info : Props) (refused : Bool) (operator : String) (s : State) :
    Except Failure State := do
  let props ← checkEntity env info refused operator (queryEntity env s) (parseUniqueRules s.saved)
  return s.create props

/-- `batch_create_entity`: the result of creating an item is added to `exist_items` as it is. -/
def batchCreateEntity (operator : String) : List (Props × Bool) → List Instance → State → State
  | [], _, s => s
  | (info, refused) :: items, existItems, s =>
    match checkEntity env info refused operator existItems (parseUniqueRules s.saved) with
    | .error _ => batchCreateEntity operator items existItems s
    | .ok props =>
      batchCreateEntity operator items (existItems ++ [{ id := s.store.nextId, get := props.get }])
        (s.create props)

/-- `set_entity_properties` with its checks. -/
def setEntityProperties (ids : List ℕ) (props : Props) (refused : Bool)
    (existItems : List Instance) (s : State) : Except Failure State := do
  checkUniqueAttr env props existItems true
  checkUniqueRules props (parseUniqueRules s.saved) existItems ids
  checkRequiredAttr env props true
  if refused then throw .refused
  else if (props.getEditable (editable env)).isEmpty then throw .noProperties
  else return s.write ids (serializeTableFields env (props.getEditable (editable env)))

/-- The write of `batch_instance_update`, and of `instance_update` where there is one id. -/
def batchInstanceUpdate (ids : List ℕ) (attr : Props) (refused : Bool) (s : State) :
    Except Failure State :=
  if missing s.store ids then throw .instanceNotFound
  else setEntityProperties env ids attr refused ((queryEntity env s).filter (·.id ∉ ids)) s

def instanceUpdate (id : ℕ) (attr : Props) (refused : Bool) (s : State) : Except Failure State :=
  batchInstanceUpdate env [id] attr refused s

/-! ### Runs -/

structure Request where
  tags : List String
  refused : Bool
  followUpFails : Bool

inductive Op
  | createUniqueRule (fieldIds : List String)
  | updateUniqueRule (ruleId : String) (fieldIds : List String)
  | deleteUniqueRule (ruleId : String)
  | instanceCreate (info : Props) (operator : String) (request : Request)
  | instanceUpdate (id : ℕ) (attr : Props) (request : Request)
  | batchInstanceUpdate (ids : List ℕ) (attr : Props) (request : Request)
  | batchCreateEntity (items : List (Props × Bool)) (operator : String) (tags : List String)

def Op.tags (s : State) : Op → List String
  | .createUniqueRule _ | .updateUniqueRule _ _ | .deleteUniqueRule _ => []
  | .instanceCreate _ _ request => request.tags
  | .instanceUpdate id _ request => if missing s.store [id] then [] else request.tags
  | .batchInstanceUpdate ids _ request => if missing s.store ids then [] else request.tags
  | .batchCreateEntity _ _ tags => tags

def Op.followUpFails : Op → Bool
  | .instanceCreate _ _ request | .instanceUpdate _ _ request | .batchInstanceUpdate _ _ request =>
    request.followUpFails
  | _ => false

def Op.write (s : State) : Op → Except Failure State
  | .createUniqueRule fieldIds => Cmdb.UniqueRules.createUniqueRule env fieldIds s
  | .updateUniqueRule ruleId fieldIds => Cmdb.UniqueRules.updateUniqueRule env ruleId fieldIds s
  | .deleteUniqueRule ruleId => Cmdb.UniqueRules.deleteUniqueRule env ruleId s
  | .instanceCreate info operator request =>
    Cmdb.UniqueRules.instanceCreate env info request.refused operator s
  | .instanceUpdate id attr request =>
    Cmdb.UniqueRules.instanceUpdate env id attr request.refused s
  | .batchInstanceUpdate ids attr request =>
    Cmdb.UniqueRules.batchInstanceUpdate env ids attr request.refused s
  | .batchCreateEntity items operator _ =>
    .ok (Cmdb.UniqueRules.batchCreateEntity env operator items (queryEntity env s) s)

def step (s : State) (op : Op) : State :=
  match op.write env (mergeTagOptions (op.tags s) s) with
  | .ok t => t
  | .error _ => mergeTagOptions (op.tags s) s

def Op.failure (s : State) (op : Op) : Option Failure :=
  match op.write env (mergeTagOptions (op.tags s) s) with
  | .ok _ => if op.followUpFails then some .followUp else none
  | .error failure => some failure

end UniqueRules
end Cmdb
