import BkLite.Framework.OrderedDict
import BkLite.Framework.Value

/-!
# The view sets of a canvas

`services/import_export/view_sets.py`: the form in which the view sets of a canvas are stored, and
the rewriting of the datasources its widgets refer to. A widget refers to one under
`valueConfig.dataSource`, anywhere in the tree.

Whether a reference is in a key map is asked of the hash of the value, so `True` and `1.0` are the
number 1, and a list or a dict raises `TypeError`.
-/

namespace OperationAnalysis

open Py

inductive ObjectType
  | dashboard
  | topology
  | architecture
  | screen
  | report
  | datasource
  | nameSpace
deriving DecidableEq

/-- The value of an `ObjectType`. -/
def ObjectType.value : ObjectType → String
  | .dashboard => "dashboard"
  | .topology => "topology"
  | .architecture => "architecture"
  | .screen => "screen"
  | .report => "report"
  | .datasource => "datasource"
  | .nameSpace => "namespace"

/-- A dict `ds_key_map` or `datasource_key_to_id`, as it is read. -/
abbrev KeyMap := Scalar → Option Value

/-! ### References -/

/-- The last part of `_rewrite_datasource_refs`, on a dict whose values are rewritten. -/
def rewriteValueConfig (keyMap : KeyMap) (cloned : OrderedDict String Value) :
    Except PyError Value :=
  match Value.lookup cloned "valueConfig" with
  | .dict valueConfig => do
    let dataSource ← (Value.lookup valueConfig "dataSource").key
    match keyMap dataSource with
    | some key =>
      let nextValueConfig := OrderedDict.set valueConfig "dataSource" key
      return .dict (OrderedDict.set cloned "valueConfig" (.dict nextValueConfig))
    | none => return .dict cloned
  | _ => return .dict cloned

mutual

def rewriteDatasourceRefs (keyMap : KeyMap) : Value → Except PyError Value
  | .list xs => do
    let items ← rewriteItems keyMap xs
    return .list items
  | .dict kvs => do
    let cloned ← rewriteEntries keyMap kvs
    rewriteValueConfig keyMap cloned
  | .null => return .null
  | .bool b => return .bool b
  | .int i => return .int i
  | .float q => return .float q
  | .str s => return .str s

def rewriteItems (keyMap : KeyMap) : List Value → Except PyError (List Value)
  | [] => return []
  | x :: xs => do
    let item ← rewriteDatasourceRefs keyMap x
    let items ← rewriteItems keyMap xs
    return item :: items

def rewriteEntries (keyMap : KeyMap) :
    List (String × Value) → Except PyError (List (String × Value))
  | [] => return []
  | (key, x) :: kvs => do
    let item ← rewriteDatasourceRefs keyMap x
    let entries ← rewriteEntries keyMap kvs
    return (key, item) :: entries

end

/-! ### The stored form -/

/-- `x if isinstance(x, list) else []`. -/
def listOrEmpty : Value → Value
  | .list xs => .list xs
  | _ => .list []

/-- `x if isinstance(x, dict) else {}`. -/
def dictOrEmpty : Value → Value
  | .dict kvs => .dict kvs
  | _ => .dict []

def requirePositiveInt : Value → Except PyError Value
  | .int i => if i ≤ 0 then .error .valueError else return .int i
  | _ => .error .valueError

def normalizeScreenViewSets : Value → Except PyError Value
  | .dict kvs =>
    match Value.lookup kvs "viewport", Value.lookup kvs "items", Value.lookup kvs "decorations" with
    | .dict viewport, .list items, .dict decorations => do
      let width ← requirePositiveInt (Value.lookup viewport "width")
      let height ← requirePositiveInt (Value.lookup viewport "height")
      let normalizedViewport := OrderedDict.set (OrderedDict.set viewport "width" width)
        "height" height
      let normalized := [("viewport", .dict normalizedViewport), ("items", .list items),
        ("decorations", .dict decorations)]
      if kvs.any (·.1 = "filters") then
        return .dict (normalized ++ [("filters", listOrEmpty (Value.lookup kvs "filters"))])
      else return .dict normalized
    | _, _, _ => .error .valueError
  | _ => .error .valueError

def normalizeCanvasViewSetsForStorage (viewSets : Value) : ObjectType → Except PyError Value
  | .dashboard => return listOrEmpty viewSets
  | .topology =>
    match viewSets with
    | .dict kvs =>
      return .dict [("nodes", listOrEmpty (Value.lookup kvs "nodes")),
        ("edges", listOrEmpty (Value.lookup kvs "edges")),
        ("filters", listOrEmpty (Value.lookup kvs "filters"))]
    | _ => return .dict [("nodes", .list []), ("edges", .list []), ("filters", .list [])]
  | .architecture =>
    match viewSets with
    | .dict kvs =>
      return .dict [("items", listOrEmpty (Value.lookup kvs "items")),
        ("views", listOrEmpty (Value.lookup kvs "views"))]
    | _ => return .dict [("items", .list []), ("views", .list [])]
  | .screen => normalizeScreenViewSets viewSets
  | .report =>
    match viewSets with
    | .dict kvs =>
      return .dict [("time_range", Value.lookup kvs "time_range"),
        ("sections", listOrEmpty (Value.lookup kvs "sections"))]
    | _ => return .dict [("time_range", .null), ("sections", .list [])]
  | .datasource | .nameSpace =>
    match viewSets with
    | .list xs => return .list xs
    | .dict kvs => return .dict kvs
    | _ => return .list []

def normalizeCanvasViewSetsForYaml (viewSets : Value) (objectType : ObjectType) :
    Except PyError Value := do
  let normalized ← normalizeCanvasViewSetsForStorage viewSets objectType
  if objectType = .dashboard then return listOrEmpty normalized else return dictOrEmpty normalized

/-! ### Rewriting a canvas -/

/-- What the two functions for the document and for the storage do with normalized view sets. -/
def rewriteCanvasViewSetsRefs (viewSets : Value) (objectType : ObjectType) (keyMap : KeyMap) :
    Except PyError Value :=
  match objectType, viewSets with
  | .dashboard, _ => rewriteDatasourceRefs keyMap (listOrEmpty viewSets)
  | .topology, .dict kvs => do
    let nodes ← rewriteDatasourceRefs keyMap (Value.lookup kvs "nodes")
    let edges ← rewriteDatasourceRefs keyMap (Value.lookup kvs "edges")
    return .dict [("nodes", nodes), ("edges", edges),
      ("filters", listOrEmpty (Value.lookup kvs "filters"))]
  | .architecture, .dict kvs => do
    let items ← rewriteDatasourceRefs keyMap (Value.lookup kvs "items")
    let views ← rewriteDatasourceRefs keyMap (Value.lookup kvs "views")
    return .dict [("items", items), ("views", views)]
  | .screen, .dict kvs => do
    let items ← rewriteDatasourceRefs keyMap (Value.lookup kvs "items")
    let result := [("viewport", dictOrEmpty (Value.lookup kvs "viewport")), ("items", items),
      ("decorations", dictOrEmpty (Value.lookup kvs "decorations"))]
    match Value.lookup kvs "filters" with
    | .list filters => return .dict (result ++ [("filters", .list filters)])
    | _ => return .dict result
  | .report, .dict kvs => do
    let sections ← rewriteDatasourceRefs keyMap (Value.lookup kvs "sections")
    return .dict [("time_range", Value.lookup kvs "time_range"), ("sections", sections)]
  | .datasource, _ => rewriteDatasourceRefs keyMap viewSets
  | .nameSpace, _ => rewriteDatasourceRefs keyMap viewSets
  | _, _ => .error .attributeError

def rewriteCanvasViewSetsRefsForYaml (viewSets : Value) (objectType : ObjectType)
    (dsKeyMap : KeyMap) : Except PyError Value :=
  rewriteCanvasViewSetsRefs viewSets objectType dsKeyMap

def rewriteCanvasViewSetsRefsForStorage (viewSets : Value) (objectType : ObjectType)
    (datasourceKeyToId : KeyMap) : Except PyError Value := do
  let normalized ← normalizeCanvasViewSetsForStorage viewSets objectType
  rewriteCanvasViewSetsRefs normalized objectType datasourceKeyToId

end OperationAnalysis
