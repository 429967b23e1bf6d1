import BkLite.Framework.Value
import Mathlib.Data.List.Sort

/-!
# The field groups of a model

The attributes of a model are one JSON text of the model, and each names its group. The groups are
rows of a table, with their place among the groups and, if someone has sorted them, the order of
their attributes. Seven operations write these three places (`services/field_group.py`).

A group is found by its name, which is a key of the table. A `FieldModel` is what is stored about one
model, which exists, and an operation returns what it leaves or the message of its error.
-/

namespace Cmdb.FieldGroups

open Py

structure Attr where
  attrId : String
  attrGroup : Option String
deriving DecidableEq, Repr

/-- A row of `FieldGroup`; an `attr_orders` of null is the empty list. -/
structure FieldGroup where
  groupName : String
  order : ℤ
  isCollapsed : Bool
  description : String
  attrOrders : List String
deriving DecidableEq, Repr

structure FieldModel where
  groups : List FieldGroup
  attrs : List Attr
deriving DecidableEq, Repr

/-- `str.strip()`. -/
def stripped (s : String) : String := String.ofList (strip s.toList)

/-- `FieldGroup.objects.filter(..).exists()`. -/
def FieldModel.HasGroup (m : FieldModel) (groupName : String) : Prop :=
  groupName ∈ m.groups.map (·.groupName)

instance (m : FieldModel) (groupName : String) : Decidable (m.HasGroup groupName) :=
  inferInstanceAs (Decidable (_ ∈ _))

/-- `order_by("order")`. -/
def byOrder (groups : List FieldGroup) : List FieldGroup :=
  groups.insertionSort fun a b => a.order ≤ b.order

def writeGroup (groups : List FieldGroup) (groupName : String) (f : FieldGroup → FieldGroup) :
    List FieldGroup :=
  groups.map fun group => if group.groupName = groupName then f group else group

/-! ### Groups -/

/-- `aggregate(max_order=Max("order"))["max_order"] or 0`. -/
def maxOrder (groups : List FieldGroup) : ℤ := ((groups.map (·.order)).max?).getD 0

def createGroup (m : FieldModel) (groupName description : String) (isCollapsed : Bool) :
    Except String FieldModel :=
  if stripped groupName = "" then .error "分组名称不能为空"
  else if m.HasGroup (stripped groupName) then
    .error ("分组名称'" ++ stripped groupName ++ "'已存在")
  else .ok { m with groups := m.groups ++
    [⟨stripped groupName, maxOrder m.groups + 1, isCollapsed, description, []⟩] }

/-- `attr["attr_group"] = ..` for the attributes of a group. -/
def renameAttrs (attrs : List Attr) (oldName newName : String) : List Attr :=
  attrs.map fun attr =>
    if attr.attrGroup = some oldName then { attr with attrGroup := some newName } else attr

def updateGroup (m : FieldModel) (group : FieldGroup) (newGroupName description : Option String)
    (isCollapsed : Option Bool) : Except String FieldModel :=
  let describe (group : FieldGroup) : FieldGroup :=
    { group with
      description := description.getD group.description
      isCollapsed := isCollapsed.getD group.isCollapsed }
  match newGroupName with
  | none => .ok { m with groups := writeGroup m.groups group.groupName describe }
  | some newGroupName =>
    if stripped newGroupName = "" then .error "分组名称不能为空"
    else if stripped newGroupName = group.groupName then
      .ok { m with groups := writeGroup m.groups group.groupName describe }
    else if m.HasGroup (stripped newGroupName) then
      .error ("分组名称'" ++ stripped newGroupName ++ "'已存在")
    else
      .ok
        { groups := writeGroup m.groups group.groupName fun group =>
            { describe group with groupName := stripped newGroupName }
          attrs := renameAttrs m.attrs group.groupName (stripped newGroupName) }

def reorderAfterDelete (groups : List FieldGroup) : List FieldGroup :=
  (byOrder groups).zipIdx.map fun entry => { entry.1 with order := (entry.2 : ℤ) + 1 }

/-- `delete_group`: the attributes of the group go to the first one, which may be the group
itself. -/
def deleteGroup (m : FieldModel) (group : FieldGroup) : Except String FieldModel :=
  if m.groups.length ≤ 1 then .error "至少保留一个分组，无法删除"
  else .ok
    { groups := reorderAfterDelete (m.groups.filter (·.groupName ≠ group.groupName))
      attrs := match (byOrder m.groups).head? with
        | some firstGroup => renameAttrs m.attrs group.groupName firstGroup.groupName
        | none => m.attrs }

def moveGroup (m : FieldModel) (groupName direction : String) : Except String FieldModel :=
  let groups := byOrder m.groups
  if groups.length ≤ 1 then .error "只有一个分组，无法调整顺序"
  else
    match groups.findIdx? (·.groupName = groupName) with
    | none => .error "分组不存在"
    | some currentIndex =>
      if direction = "up" ∧ currentIndex = 0 then .error "已经是第一个分组，无法上移"
      else if direction = "down" ∧ currentIndex = groups.length - 1 then
        .error "已经是最后一个分组，无法下移"
      else
        -- every other direction moves down, the last group past the end
        match groups[currentIndex]?,
          groups[if direction = "up" then currentIndex - 1 else currentIndex + 1]? with
        | some currentGroup, some swapGroup =>
          let moved := writeGroup m.groups currentGroup.groupName fun group =>
            { group with order := swapGroup.order }
          .ok
            { m with
              groups := writeGroup moved swapGroup.groupName fun group =>
                { group with order := currentGroup.order } }
        | _, _ => .error "list index out of range"

/-! ### Attributes -/

/-- `attr["attr_group"] = ..` for the first attribute with the id. -/
def setGroup (attrId groupName : String) : List Attr → List Attr
  | [] => []
  | attr :: attrs =>
    if attr.attrId = attrId then { attr with attrGroup := some groupName } :: attrs
    else attr :: setGroup attrId groupName attrs

def attrIdsOf (attrs : List Attr) (groupName : String) : List String :=
  (attrs.filter (·.attrGroup = some groupName)).map (·.attrId)

def applyUpdates : List (String × String) → List Attr → Except String (List Attr)
  | [], attrs => .ok attrs
  | (attrId, groupName) :: updates, attrs =>
    if attrId ∈ attrs.map (·.attrId) then applyUpdates updates (setGroup attrId groupName attrs)
    else .error ("字段'" ++ attrId ++ "'不存在")

def newOrders (groupAttrIds existingOrders : List String) : List String :=
  groupAttrIds.foldl (fun orders attrId => if attrId ∈ orders then orders else orders ++ [attrId])
    (existingOrders.filter (· ∈ groupAttrIds))

/-- `batch_update_attrs_group`: only the groups that get attributes are sorted anew. -/
def batchUpdateAttrsGroup (m : FieldModel) (updates : List (String × String)) :
    Except String FieldModel :=
  match updates.find? fun update => ¬m.HasGroup update.2 with
  | some update => .error ("分组'" ++ update.2 ++ "'不存在")
  | none =>
    (applyUpdates updates m.attrs).map fun attrs =>
      { groups := m.groups.map fun group =>
          if group.groupName ∈ updates.map (·.2) then
            { group with attrOrders := newOrders (attrIdsOf attrs group.groupName) group.attrOrders }
          else group
        attrs := attrs }

def insertPosition (orderId : Option ℤ) (orders : List String) : ℕ :=
  match orderId with
  | none => orders.length
  | some orderId => if orderId < 0 then 0 else min orderId.toNat orders.length

def removeAttrOrder (groups : List FieldGroup) (oldGroup : Option String) (attrId : String) :
    List FieldGroup :=
  match oldGroup with
  | some oldGroup =>
    if oldGroup = "" then groups
    else writeGroup groups oldGroup fun group =>
      { group with attrOrders := group.attrOrders.erase attrId }
  | none => groups

def insertAttrOrder (orderId : Option ℤ) (attrId : String) (group : FieldGroup) : FieldGroup :=
  let orders := group.attrOrders.erase attrId
  { group with attrOrders := orders.insertIdx (insertPosition orderId orders) attrId }

def updateAttrGroup (m : FieldModel) (attrId newGroupName : String) (orderId : Option ℤ) :
    Except String FieldModel :=
  if ¬m.HasGroup newGroupName then .error ("分组'" ++ newGroupName ++ "'不存在")
  else
    match m.attrs.find? (·.attrId = attrId) with
    | none => .error ("字段'" ++ attrId ++ "'不存在")
    | some attr => .ok
      { groups := writeGroup (removeAttrOrder m.groups attr.attrGroup attrId) newGroupName
          (insertAttrOrder orderId attrId)
        attrs := setGroup attrId newGroupName m.attrs }

/-- `str.endswith("_display")`. -/
def isDisplay (attrId : String) : Bool := "_display".toList.isSuffixOf attrId.toList

/-- `reorder_group_attrs`: the list is compared with the attributes of the group as a set. -/
def reorderGroupAttrs (m : FieldModel) (groupName : String) (attrOrders : List String) :
    Except String FieldModel :=
  if ¬m.HasGroup groupName then .error "分组不存在"
  else
    let groupAttrIds := attrIdsOf m.attrs groupName
    match attrOrders.find? (· ∉ groupAttrIds) with
    | some attrId => .error ("属性'" ++ attrId ++ "'不属于分组'" ++ groupName ++ "'")
    | none =>
      if (∀ attrId ∈ attrOrders, ¬isDisplay attrId) ∧
          ∀ attrId ∈ groupAttrIds, ¬isDisplay attrId → attrId ∈ attrOrders then
        .ok { m with groups := writeGroup m.groups groupName fun group =>
          { group with attrOrders := attrOrders } }
      else .error ("缺少属性：" ++
        String.intercalate ", " (groupAttrIds.filter (· ∉ attrOrders)))

end Cmdb.FieldGroups
