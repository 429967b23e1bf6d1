import BkLite.OperationAnalysis.Import

/-!
# Who may import what

The submission of a document: `identify_conflicts` lists the items whose object is there,
`apply_precheck_permissions` writes down which actions the caller may take on each conflict, the
decisions are checked against it, and `execute` does what has been decided.

A document has passed the checks of its text here: size, syntax, schema, declared counts and ids.
The team of a request is a positive number.
-/

namespace OperationAnalysis

open Py

/-! ### The caller -/

/-- The user of a request. `teams` and `instances` are the normalized ids of
`get_permission_rules`. -/
structure Caller where
  isSuperuser : Bool := false
  permissions : List String := []
  groupList : List ℕ := []
  teams : String → List ℕ := fun _ => []
  instances : String → List ℕ := fun _ => []

/-- `EXPORT_PERMISSION_MAP[object_type]["permission"]`. -/
def viewPermission : ObjectType → String
  | .datasource => "data_source-View"
  | .nameSpace => "namespace-View"
  | _ => "view-View"

/-- `EXPORT_PERMISSION_MAP[object_type]["permission_key"]`. -/
def permissionKey : ObjectType → Option String
  | .dashboard => some "directory.dashboard"
  | .topology => some "directory.topology"
  | .architecture => some "directory.architecture"
  | .screen => some "directory.screen"
  | .report => some "directory.report"
  | .datasource => some "datasource"
  | .nameSpace => none

/-- `IMPORT_ACTION_PERMISSION_MAP[object_type]["create"]`. -/
def createPermission : ObjectType → String
  | .datasource => "data_source-Add"
  | .nameSpace => "namespace-Add"
  | _ => "view-AddChart"

/-- `IMPORT_ACTION_PERMISSION_MAP[object_type]["overwrite"]`. -/
def overwritePermission : ObjectType → String
  | .datasource => "data_source-Edit"
  | .nameSpace => "namespace-Edit"
  | _ => "view-EditChart"

structure Request where
  caller : Caller
  currentTeam : Option ℕ
  doc : Document
  targetDirectoryId : Option ℕ := none
  /-- The groups of a directory that is there. -/
  directories : ℕ → Option (Option (List ℕ)) := fun _ => none
  conflictDecisions : List (String × ConflictAction) := []
  secretSupplements : List (String × String × String) := []
  tagId : Value → Option ℕ := fun _ => none

variable (r : Request) (db : Db)

def Request.hasPermission (permission : String) : Bool :=
  r.caller.isSuperuser || permission ∈ r.caller.permissions

/-- `validate_current_team` does not raise. -/
def Request.teamValid : Bool :=
  r.caller.isSuperuser || r.currentTeam.any (· ∈ r.caller.groupList)

def Request.canAccessExistingObject (id : ℕ) (row : Row) : Bool :=
  if r.caller.isSuperuser = true then true
  else if row.objectType ≠ .nameSpace ∧ r.currentTeam.any (· ∉ row.groups.getD []) = true then false
  else match permissionKey row.objectType with
    | none => true
    | some key => r.currentTeam.any (· ∈ r.caller.teams key) ||
      (r.currentTeam.isSome && id ∈ r.caller.instances key)

/-- `conflict_decisions`, with the action for a key. -/
def Request.action (key : String) : ConflictAction :=
  getConflictAction (r.conflictDecisions.foldl (fun d e => OrderedDict.set d e.1 e.2) []) key

/-! ### The precheck -/

/-- A conflict; the reason tells whether the caller has access to the object. -/
structure Conflict where
  objectKey : String
  objectType : ObjectType
  noPermission : Bool
  suggestedActions : List ConflictAction

def Db.existingObject (item : Item) : Option (ℕ × Row) := do
  let id ← db.existing item
  let row ← db.objects.lookup id
  return (id, row)

def Request.checkGroupPermission (row : Row) : Bool :=
  r.currentTeam.all fun team => row.groups.all (team ∈ ·)

def Request.identifyConflicts : List Conflict :=
  r.doc.items.filterMap fun item => (db.existingObject item).map fun existing =>
    { objectKey := item.key
      objectType := item.objectType
      noPermission := !r.checkGroupPermission existing.2
      suggestedActions :=
        if r.checkGroupPermission existing.2 = true then [.skip, .overwrite, .rename]
        else [.rename] }

/-- `check_dependencies` finds nothing missing. -/
def Document.dependenciesDeclared (doc : Document) : Bool :=
  let declaredNs := doc.namespaces.map (·.key)
  let declaredDs := doc.datasources.map (·.key)
  (doc.datasources.all fun i => i.namespaceKeys.all (· ∈ declaredNs)) &&
    doc.canvases.all fun c => c.2.datasourceKeys.all (· ∈ declaredDs) &&
      c.2.namespaceKeys.all (· ∈ declaredNs)

def importObjectLimit : ℕ := 200

/-- `precheck` of a parsed document, up to its conflicts. -/
def Request.precheck : Bool :=
  0 < r.doc.items.length && r.doc.items.length ≤ importObjectLimit &&
    r.doc.dependenciesDeclared && (r.doc.canvases.isEmpty || r.targetDirectoryId.isSome)

/-! ### Permissions -/

/-- `conflict_map.get(key)`. -/
def lastOf (conflicts : List Conflict) (key : String) : Option Conflict :=
  conflicts.reverse.find? (·.objectKey = key)

def updateFirst (key : String) (f : Conflict → Conflict) : List Conflict → List Conflict
  | [] => []
  | c :: cs => if c.objectKey = key then f c :: cs else c :: updateFirst key f cs

/-- Change the conflict that `conflict_map` has for the key. -/
def updateLast (key : String) (f : Conflict → Conflict) (conflicts : List Conflict) :
    List Conflict :=
  (updateFirst key f conflicts.reverse).reverse

def Request.mayView (id : ℕ) (row : Row) : Bool :=
  r.hasPermission (viewPermission row.objectType) && r.canAccessExistingObject id row

/-- What `apply_precheck_permissions` writes into the conflict. -/
def Request.permitted (item : Item) (existing : ℕ × Row) (c : Conflict) : Conflict :=
  let createAllowed := r.hasPermission (createPermission item.objectType)
  let overwriteAllowed := r.hasPermission (overwritePermission item.objectType)
  if r.mayView existing.1 existing.2 = true then
    { c with
      noPermission := false
      suggestedActions := (if overwriteAllowed = true then [.overwrite] else []) ++ [.skip] ++
        if createAllowed = true then [.rename] else [] }
  else
    { c with
      noPermission := true
      suggestedActions := if createAllowed = true then [.rename] else [] }

/-- `apply_precheck_permissions`, one item. -/
def Request.applyItem (conflicts : List Conflict) (item : Item) : List Conflict :=
  match db.existingObject item with
  | none => conflicts
  | some existing => updateLast item.key (r.permitted item existing) conflicts

/-- The conflicts after `apply_precheck_permissions`. -/
def Request.conflicts : List Conflict :=
  if r.caller.isSuperuser = true then r.identifyConflicts db
  else r.doc.items.foldl (r.applyItem db) (r.identifyConflicts db)

/-- `apply_precheck_permissions` finds no errors. -/
def Request.permissionsApplied : Bool :=
  r.caller.isSuperuser || r.doc.items.all fun item =>
    r.hasPermission (createPermission item.objectType) ||
      (db.existingObject item).any fun existing => r.mayView existing.1 existing.2

/-- `validate_conflict_decisions` finds no errors. -/
def Request.decisionsValid : Bool :=
  (r.conflicts db).all fun c =>
    c.suggestedActions.isEmpty || r.action c.objectKey ∈ c.suggestedActions

/-- `validate_import_submit_permissions` lets an item through. -/
def Request.itemPermitted (item : Item) : Bool :=
  let existing := (db.existingObject item).isSome
  let action := r.action item.key
  if (lastOf (r.conflicts db) item.key).any (action ∉ ·.suggestedActions) = true then false
  else if existing = true ∧ action = .skip then true
  else r.hasPermission
    (if existing = true ∧ action = .overwrite then overwritePermission item.objectType
      else createPermission item.objectType)

/-- `validate_import_submit_permissions`. -/
def Request.submitPermitted : Bool :=
  r.caller.isSuperuser || r.doc.items.all (r.itemPermitted db)

/-! ### The submission -/

def Request.settings : Settings where
  directory := do
    let id ← r.targetDirectoryId
    let groups ← r.directories id
    return (id, groups)
  conflictDecisions := r.conflictDecisions.foldl (fun d e => OrderedDict.set d e.1 e.2) []
  secretSupplements key field :=
    (r.secretSupplements.reverse.find? fun e => e.1 = key ∧ e.2.1 = field).map (·.2.2)
  groups := r.currentTeam.toList
  tagId := r.tagId

def Request.accepted : Bool :=
  r.precheck && r.teamValid && r.permissionsApplied db && r.decisionsValid db &&
    r.submitPermitted db

inductive Outcome
  | refused
  | raised (e : PyError)
  | executed (report : Report)

/-- `import_submit`. -/
def Request.submit : Outcome :=
  if r.accepted db = true then
    match execute r.settings r.doc db with
    | .ok report => .executed report
    | .error e => .raised e
  else .refused

def Outcome.after (outcome : Outcome) : Db :=
  match outcome with
  | .executed report => report.db
  | _ => db

/-! ### What is claimed -/

inductive Entry
  | nameSpace (i : NamespaceItem)
  | datasource (i : DatasourceItem)
  | canvas (objectType : ObjectType) (i : CanvasItem)

def Entry.item : Entry → Item
  | .nameSpace i => i.item
  | .datasource i => i.item
  | .canvas objectType i => i.item objectType

def Document.entries (doc : Document) : List Entry :=
  doc.namespaces.map .nameSpace ++ doc.datasources.map .datasource ++
    doc.canvases.map fun c => .canvas c.1 c.2

/-- The columns are those of the item. -/
def Entry.Wrote : Entry → Content → Prop
  | .nameSpace i, content => ∃ password,
    content = .nameSpace i.domain i.nameSpace i.account password i.enableTls i.desc
  | .datasource i, content => ∃ namespaces tags,
    content = .datasource i.desc i.isActive i.params i.chartType i.fieldSchema namespaces tags
  | .canvas objectType i, content => ∃ viewSets directory,
    content = .canvas i.desc (if objectType = .dashboard then i.filters else []) i.other viewSets
      directory

/-- An item is applied as decided: a new object where there is none of its name, and else what the
action says. -/
inductive AppliedAs (action : ConflictAction) (e : Entry) (before after : Db) : Prop
  | created (row : Row) (h_none : before.existing e.item = none) (h_named : row.IsNamed e.item)
    (h_wrote : e.Wrote row.content)
    (h_after : after.objects = before.objects.insert before.nextId row)
    (h_next : after.nextId = before.nextId + 1)
  | skipped (id : ℕ) (h_some : before.existing e.item = some id) (h_action : action = .skip)
    (h_after : after = before)
  | overwritten (id : ℕ) (row row' : Row) (h_some : before.existing e.item = some id)
    (h_action : action = .overwrite) (h_row : before.objects.lookup id = some row)
    (h_named : row'.IsNamed e.item ∧ row'.restApi = row.restApi) (h_wrote : e.Wrote row'.content)
    (h_after : after.objects = before.objects.insert id row')
    (h_next : after.nextId = before.nextId)
  | renamed (id : ℕ) (row : Row) (h_some : before.existing e.item = some id)
    (h_action : action = .rename) (h_type : row.objectType = e.item.objectType)
    (h_free : before.nameTaken e.item.objectType row.name = false) (h_wrote : e.Wrote row.content)
    (h_after : after.objects = before.objects.insert before.nextId row)
    (h_next : after.nextId = before.nextId + 1)

def AppliedAll (action : String → ConflictAction) : List Entry → Db → Db → Prop
  | [], before, after => after = before
  | e :: es, before, after =>
    ∃ between, AppliedAs (action e.item.key) e before between ∧ AppliedAll action es between after

def Outcome.Committed (outcome : Outcome) : Prop :=
  ∃ report, outcome = .executed report ∧ report.success = true

def Outcome.Modified (outcome : Outcome) (id : ℕ) : Prop :=
  (outcome.after db).objects.lookup id ≠ db.objects.lookup id ∨
    ∃ report, outcome = .executed report ∧ report.success = true ∧
      ∃ result ∈ report.results, result.status = .overwritten ∧ result.newId = some id

def Request.MayOverwrite (id : ℕ) (row : Row) : Prop :=
  r.hasPermission (overwritePermission row.objectType) = true ∧ r.mayView id row = true

instance (id : ℕ) (row : Row) : Decidable (r.MayOverwrite id row) :=
  inferInstanceAs (Decidable (_ ∧ _))

/-- **Authorised and atomic.** -/
structure Request.Proper : Prop where
  atomic : (r.submit db).after db = db ∨
    AppliedAll r.action r.doc.entries db ((r.submit db).after db)
  authorised : ∀ id row, db.objects.lookup id = some row → (r.submit db).Modified db id →
    ∃ item ∈ r.doc.items, row.IsNamed item ∧ r.action item.key = .overwrite ∧ r.MayOverwrite id row

/-- Items of one key are refused in front where they are refused behind. -/
def Request.Unshadowed : Prop :=
  r.doc.items.Pairwise fun i j => i.key = j.key → r.action i.key = .overwrite →
    ∀ x ∈ db.existingObject i, ∀ y ∈ db.existingObject j,
      r.MayOverwrite y.1 y.2 → r.MayOverwrite x.1 x.2

end OperationAnalysis
