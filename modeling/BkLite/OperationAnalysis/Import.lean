import BkLite.Framework.Table
import BkLite.OperationAnalysis.ViewSets

/-!
# The import of a document

`ImportService.execute`: the namespaces of a document, then its datasources, then its canvases. An
object of the same name is skipped, overwritten or left beside a renamed one, as it has been decided
for the key of the item; the key is the document's own and need not say the name. If an item fails
the transaction is rolled back, and so it is if an exception is raised.

The three functions for an item differ in the fields they write; `importObject` is what they share.
Tags are not imported: `tagId` finds those there are. A password is stored as it is set.
-/

namespace OperationAnalysis

open Py

/-! ### Items -/

structure NamespaceItem where
  key : String
  name : String
  domain : String
  nameSpace : String := "bklite"
  account : String
  password : String := ""
  enableTls : Bool := false
  desc : String := ""

structure DatasourceItem where
  key : String
  name : String
  restApi : String
  desc : String := ""
  isActive : Bool := true
  params : Value := .list []
  tags : List Value := []
  chartType : List Value := []
  fieldSchema : List Value := []
  namespaceKeys : List String := []

/-- `DashboardItem`, and without the filters `TopologyItem` and so on. -/
structure CanvasItem where
  key : String
  name : String
  desc : String := ""
  filters : List Value := []
  other : List (String × Value) := []
  viewSets : Value
  datasourceKeys : List String := []
  namespaceKeys : List String := []

/-- `YAMLDocument`, without its meta data. -/
structure Document where
  dashboards : List CanvasItem := []
  topologies : List CanvasItem := []
  architectures : List CanvasItem := []
  screens : List CanvasItem := []
  reports : List CanvasItem := []
  datasources : List DatasourceItem := []
  namespaces : List NamespaceItem := []

structure Item where
  objectType : ObjectType
  key : String
  name : String
  restApi : String := ""
deriving DecidableEq

def NamespaceItem.item (i : NamespaceItem) : Item where
  objectType := .nameSpace
  key := i.key
  name := i.name

def DatasourceItem.item (i : DatasourceItem) : Item where
  objectType := .datasource
  key := i.key
  name := i.name
  restApi := i.restApi

def CanvasItem.item (objectType : ObjectType) (i : CanvasItem) : Item where
  objectType := objectType
  key := i.key
  name := i.name

def Document.canvases (doc : Document) : List (ObjectType × CanvasItem) :=
  doc.dashboards.map (.dashboard, ·) ++ doc.topologies.map (.topology, ·) ++
    doc.architectures.map (.architecture, ·) ++ doc.screens.map (.screen, ·) ++
    doc.reports.map (.report, ·)

/-- `iter_import_items`. -/
def Document.items (doc : Document) : List Item :=
  doc.namespaces.map (·.item) ++ doc.datasources.map (·.item) ++
    doc.canvases.map fun c => c.2.item c.1

/-! ### The database -/

inductive Content
  | nameSpace (domain nameSpace account password : String) (enableTls : Bool) (desc : String)
  | datasource (desc : String) (isActive : Bool) (params : Value)
    (chartType fieldSchema : List Value) (namespaces tags : List ℕ)
  | canvas (desc : String) (filters : List Value) (other : List (String × Value)) (viewSets : Value)
    (directory : Option ℕ)

structure Row where
  objectType : ObjectType
  name : String
  restApi : String := ""
  groups : Option (List ℕ) := none
  content : Content

structure Db where
  objects : Table ℕ Row := ∅
  nextId : ℕ := 1
  below : Table.Below objects nextId

def Row.IsNamed (row : Row) (item : Item) : Prop :=
  row.objectType = item.objectType ∧ row.name = item.name ∧
    (item.objectType = .datasource → row.restApi = item.restApi)

instance (row : Row) (item : Item) : Decidable (row.IsNamed item) :=
  inferInstanceAs (Decidable (_ ∧ _ ∧ (_ → _)))

/-- `model.objects.filter(…).first()`: names are unique, those of datasources with their API. -/
def Db.existing (db : Db) (item : Item) : Option ℕ :=
  (db.objects.keysWhere fun row => row.IsNamed item).min?

/-- `model.objects.filter(name=…).exists()`. -/
def Db.nameTaken (db : Db) (objectType : ObjectType) (name : String) : Bool :=
  db.objects.anyRow fun row => row.objectType = objectType && row.name = name

def Db.create (db : Db) (row : Row) : Db where
  objects := db.objects.insert db.nextId row
  nextId := db.nextId + 1
  below := (db.below.mono (Nat.le_succ db.nextId)).insert (Nat.lt_succ_self db.nextId)

/-- `existing.save()` after its fields have been set. -/
def Db.update (db : Db) (id : ℕ) (f : Row → Row) : Db where
  objects := db.objects.modify id f
  nextId := db.nextId
  below := db.below.modify id

/-- `_generate_rename_name`. One of the names tried is free after as many as there are objects. -/
def generateRenameName (taken : String → Bool) : ℕ → String → String
  | 0, name => name ++ "_copy"
  | fuel + 1, name =>
    if taken (name ++ "_copy") = true then generateRenameName taken fuel (name ++ "_copy")
    else name ++ "_copy"

/-! ### The import of an item -/

inductive ConflictAction
  | skip
  | overwrite
  | rename
deriving DecidableEq

inductive ImportStatus
  | success
  | failed
  | skipped
  | overwritten
deriving DecidableEq

/-- An entry of `results`. -/
structure Result where
  objectKey : String
  objectType : ObjectType
  status : ImportStatus
  message : String
  newId : Option ℕ

/-- What an import is called with, and what it finds: the target directory with its groups and the
tags. -/
structure Settings where
  directory : Option (ℕ × Option (List ℕ)) := none
  conflictDecisions : OrderedDict String ConflictAction := []
  secretSupplements : String → String → Option String := fun _ _ => none
  groups : List ℕ := []
  tagId : Value → Option ℕ := fun _ => none

structure State where
  db : Db
  namespaceKeyToId : OrderedDict String ℕ := []
  datasourceKeyToId : OrderedDict String ℕ := []
  results : List Result := []

def getConflictAction (conflictDecisions : OrderedDict String ConflictAction) (objectKey : String) :
    ConflictAction :=
  (OrderedDict.get conflictDecisions objectKey).getD .rename

variable (settings : Settings)

def State.recordResult (s : State) (item : Item) (status : ImportStatus) (message : String)
    (newId : Option ℕ) : State :=
  { s with
    results := s.results ++ [⟨item.key, item.objectType, status, message, newId⟩] }

/-- How an item is written: over an object, and as a new one of a name. `missing` says why there can
be no new one. -/
structure Writer where
  item : Item
  label : String
  overwrite : Row → Row
  create : String → Row
  missing : Option String := none

/-- What `_import_namespace`, `_import_datasource` and `_import_canvas` share. -/
def importObject (w : Writer) (s : State) : State × Option ℕ :=
  match s.db.existing w.item with
  | some id =>
    match getConflictAction settings.conflictDecisions w.item.key with
    | .skip => (s.recordResult w.item .skipped ("跳过已存在的" ++ w.label) (some id), some id)
    | .overwrite =>
      ({ s with db := s.db.update id w.overwrite }.recordResult w.item .overwritten
        ("覆盖已存在的" ++ w.label) (some id), some id)
    | .rename =>
      let newName := generateRenameName (s.db.nameTaken w.item.objectType)
        s.db.objects.entries.length w.item.name
      ({ s with db := s.db.create (w.create newName) }.recordResult w.item .success
        ("重命名为 " ++ newName) (some s.db.nextId), some s.db.nextId)
  | none =>
    match w.missing with
    | some message => (s.recordResult w.item .failed message none, none)
    | none =>
      ({ s with db := s.db.create (w.create w.item.name) }.recordResult w.item .success
        ("新建" ++ w.label) (some s.db.nextId), some s.db.nextId)

def sensitivePlaceholder : String := "******"

/-- The password of a namespace: `_get_secret_value`, or what the document has. -/
def secretValue (i : NamespaceItem) : String :=
  let supplement := (settings.secretSupplements i.key "password").getD ""
  if supplement = "" ∨ supplement = sensitivePlaceholder then
    if i.password = sensitivePlaceholder then "" else i.password
  else supplement

def Content.password : Content → String
  | .nameSpace _ _ _ password _ _ => password
  | _ => ""

/-- `_import_namespace`. -/
def namespaceWriter (i : NamespaceItem) : Writer where
  item := i.item
  label := "命名空间"
  overwrite row :=
    { row with
      content := .nameSpace i.domain i.nameSpace i.account
        (if secretValue settings i = "" then row.content.password else secretValue settings i)
        i.enableTls i.desc }
  create name :=
    { objectType := .nameSpace
      name := name
      content := .nameSpace i.domain i.nameSpace i.account (secretValue settings i) i.enableTls
        i.desc }
  missing := if secretValue settings i = "" then some "新建命名空间缺少密码" else none

def importNamespace (s : State) (i : NamespaceItem) : State :=
  let imported := importObject settings (namespaceWriter settings i) s
  match imported.2 with
  | some id =>
    { imported.1 with
      namespaceKeyToId := OrderedDict.set imported.1.namespaceKeyToId i.key id }
  | none => imported.1

def namespaceIds (s : State) (i : DatasourceItem) : List ℕ :=
  i.namespaceKeys.filterMap fun nsKey =>
    match OrderedDict.get s.namespaceKeyToId nsKey with
    | some id => some id
    | none => s.db.existing { objectType := .nameSpace, key := nsKey, name := nsKey }

/-- `_import_datasource`. -/
def datasourceWriter (s : State) (i : DatasourceItem) : Writer :=
  let content := .datasource i.desc i.isActive i.params i.chartType i.fieldSchema (namespaceIds s i)
    (i.tags.filterMap settings.tagId)
  { item := i.item
    label := "数据源"
    overwrite := fun row => { row with content := content }
    create := fun name =>
      { objectType := .datasource
        name := name
        restApi := i.restApi
        groups := some settings.groups
        content := content } }

def importDatasource (s : State) (i : DatasourceItem) : State :=
  let imported := importObject settings (datasourceWriter settings s i) s
  match imported.2 with
  | some id =>
    { imported.1 with
      datasourceKeyToId := OrderedDict.set imported.1.datasourceKeyToId i.key id }
  | none => imported.1

/-- `datasource_key_to_id`, as a key map. -/
def keyToIdMap (datasourceKeyToId : OrderedDict String ℕ) : KeyMap
  | .str key => (OrderedDict.get datasourceKeyToId key).map fun id => .int id
  | _ => none

/-- `_import_canvas`, with the view sets that are to be stored. -/
def canvasWriter (objectType : ObjectType) (i : CanvasItem) (viewSets : Value) : Writer :=
  let groups := match settings.directory with
    | some directory => directory.2
    | none => some settings.groups
  let content := .canvas i.desc (if objectType = .dashboard then i.filters else []) i.other viewSets
    (settings.directory.map (·.1))
  { item := i.item objectType
    label := objectType.value
    overwrite := fun row => { row with groups := groups, content := content }
    create := fun name =>
      { objectType := objectType
        name := name
        groups := groups
        content := content } }

def importCanvas (s : State) (c : ObjectType × CanvasItem) : Except PyError State := do
  let normalized ← normalizeCanvasViewSetsForStorage c.2.viewSets c.1
  let viewSets ← rewriteCanvasViewSetsRefsForStorage normalized c.1 (keyToIdMap s.datasourceKeyToId)
  return (importObject settings (canvasWriter settings c.1 c.2 viewSets) s).1

/-! ### The import of a document -/

def State.hasFailedResults (s : State) : Bool := s.results.any (·.status = .failed)

structure Report where
  success : Bool
  results : List Result
  db : Db

/-- `execute`. An exception leaves the database as it was, too. -/
def execute (doc : Document) (db : Db) : Except PyError Report := do
  let s₁ := doc.namespaces.foldl (importNamespace settings) { db := db }
  if s₁.hasFailedResults = true then return ⟨false, s₁.results, db⟩
  let s₂ := doc.datasources.foldl (importDatasource settings) s₁
  if s₂.hasFailedResults = true then return ⟨false, s₂.results, db⟩
  let s₃ ← doc.canvases.foldlM (importCanvas settings) s₂
  if s₃.hasFailedResults = true then return ⟨false, s₃.results, db⟩
  return ⟨true, s₃.results, s₃.db⟩

end OperationAnalysis
