import BkLite.Framework.Runs
import BkLite.Framework.TupleText
import BkLite.Framework.Value

/-!
# Synchronising the monitored instances

A run asks for the metric of each monitored object and takes the values of the object's keys as the
identity of an instance. It compares what it has discovered with the table of instances: new ones
are created, deleted ones come back, and automatic ones that are not discovered are marked inactive
and, if they already were, removed (`tasks/services/sync_instance.py`).

The names of the objects are unique, so `monitor_map` is the id of the object here. An organization
is what `parse_organization_id` reads; the sources of the policies that are cleaned up are left out.
-/

namespace Monitor.SyncInstances

open Py

/-! ### Discovery -/

structure MonitorObject where
  id : ℕ
  defaultMetric : String
  instanceIdKeys : List String
deriving DecidableEq, Repr

structure MetricInfo where
  metric : String → Option String
  organizationId : Option ℤ

/-- An entry of `instances_map`. -/
structure Discovered where
  id : String
  name : String
  monitorObjectId : ℕ
  organizationId : Option ℤ
deriving DecidableEq, Repr

def cellOf : Option String → Cell
  | some value => .str value
  | none => .none

/-- `str()` of a value of a key. -/
def textOf : Option String → String
  | some value => value
  | none => "None"

def discoverObject (printable : Char → Bool) (monitorInfo : MonitorObject)
    (result : List MetricInfo) : List Discovered :=
  if monitorInfo.defaultMetric = "" then []
  else result.filterMap fun metricInfo =>
    let instanceId := monitorInfo.instanceIdKeys.map metricInfo.metric
    if instanceId = [] then none
    else some
      { id := strTuple printable (instanceId.map cellOf)
        name := String.intercalate "__" (instanceId.map textOf)
        monitorObjectId := monitorInfo.id
        organizationId := metricInfo.organizationId }

def discover (printable : Char → Bool) (results : List (MonitorObject × List MetricInfo)) :
    List Discovered :=
  results.flatMap fun entry => discoverObject printable entry.1 entry.2

/-- `instances_map`: of the entries with one key the last one stays. -/
def instancesMap (entries : List Discovered) : List Discovered :=
  (fromKeys (entries.map (·.id))).filterMap fun id => entries.reverse.find? (·.id = id)

/-! ### The table -/

/-- A row of `MonitorInstance`. -/
structure MonitorInstance where
  id : String
  name : String
  monitorObjectId : ℕ
  auto : Bool
  isDeleted : Bool
  isActive : Bool
deriving DecidableEq, Repr

structure State where
  instances : List MonitorInstance
  organizations : List (String × ℤ)
deriving DecidableEq, Repr

/-- `MonitorInstance(**..)`. -/
def Discovered.toInstance (found : Discovered) : MonitorInstance :=
  ⟨found.id, found.name, found.monitorObjectId, true, false, true⟩

/-- `bulk_create`, which fails on a primary key that is there. -/
def bulkCreate (instances new : List MonitorInstance) : Option (List MonitorInstance) :=
  if (new.map (·.id)).Nodup ∧ ∀ row ∈ new, row.id ∉ instances.map (·.id) then
    some (instances ++ new)
  else none

/-- `filter(..).delete()`, with the organizations of what is deleted. -/
def State.delete (s : State) (p : MonitorInstance → Bool) : State where
  instances := s.instances.filter fun row => !p row
  organizations := s.organizations.filter fun entry =>
    entry.1 ∉ (s.instances.filter p).map (·.id)

/-- `filter(..).update(..)`. -/
def State.update (s : State) (p : MonitorInstance → Bool) (f : MonitorInstance → MonitorInstance) :
    State :=
  { s with instances := s.instances.map fun row => if p row then f row else row }

/-- `build_organization_relations` and the `bulk_create` that ignores conflicts. -/
def State.addOrganizations (s : State) (found : List Discovered) : State :=
  { s with
    organizations := found.foldl (fun organizations entry =>
      match entry.organizationId with
      | none => organizations
      | some organization =>
        if (entry.id, organization) ∈ organizations then organizations
        else organizations ++ [(entry.id, organization)]) s.organizations }

def idsWhere (instances : List MonitorInstance) (p : MonitorInstance → Bool) : List String :=
  (instances.filter p).map (·.id)

def tableDeleted (s : State) : List String :=
  idsWhere s.instances fun row => row.auto && row.isDeleted

/-- `delete_set`: what is deleted and not discovered. -/
def deleteSet (s : State) (vmAll : List String) : List String :=
  (tableDeleted s).filter (· ∈ (idsWhere s.instances (·.auto)).filter (· ∉ vmAll))

/-- `no_alive_set`: what is not deleted and not discovered. -/
def noAliveSet (s : State) (vmAll : List String) : List String :=
  ((idsWhere s.instances (·.auto)).filter (· ∉ tableDeleted s)).filter (· ∉ vmAll)

def removeDeleted (s : State) (vmAll : List String) : State :=
  s.delete fun row => row.id ∈ deleteSet s vmAll && row.isDeleted && row.auto

def restore (s : State) (updateSet : List Discovered) : State :=
  (s.update (fun row => row.id ∈ updateSet.map (·.id) && row.isDeleted && row.auto)
    fun row => { row with isDeleted := false }).addOrganizations updateSet

/-- The marks of this run, and the removal of the instances that were inactive before it. -/
def manageActive (s : State) (vmAll noAliveSet : List String) : State :=
  -- read before the marks are written
  let previousInactiveIds := idsWhere s.instances fun row => !row.isActive && row.auto
  let continuousInactiveSet := previousInactiveIds.filter (· ∈ noAliveSet)
  let s := s.update (fun row => row.id ∈ noAliveSet && row.auto) fun row =>
    { row with isActive := false }
  let s := s.update (fun row => row.id ∈ vmAll && row.auto) fun row => { row with isActive := true }
  s.delete fun row => row.id ∈ continuousInactiveSet && row.auto

/-- `sync_monitor_instances`: `none` is the error of an insert. -/
def syncMonitorInstances (s : State) (entries : List Discovered) : Option State := do
  let found := instancesMap entries
  let vmAll := found.map (·.id)
  let addSet := found.filter (·.id ∉ s.instances.map (·.id))
  let updateSet := found.filter (·.id ∈ tableDeleted s)
  let kept := removeDeleted s vmAll
  let instances ← bulkCreate kept.instances (addSet.map (·.toInstance))
  let full := State.addOrganizations { kept with instances := instances } addSet
  return manageActive (restore full updateSet) vmAll (noAliveSet s vmAll)

/-! ### Lookups -/

section Lookups

variable {entries : List Discovered} {found : Discovered} {id : String}
  {instances : List MonitorInstance} {row : MonitorInstance} {p : MonitorInstance → Bool}

theorem mem_instancesMap :
    found ∈ instancesMap entries ↔ entries.reverse.find? (·.id = found.id) = some found := by
  rw [instancesMap, List.mem_filterMap]
  constructor
  · rintro ⟨id, -, h_find⟩
    have h_id : decide (found.id = id) = true := by simpa using List.find?_some h_find
    rwa [of_decide_eq_true h_id]
  · intro h_find
    have h_mem : found ∈ entries := List.mem_reverse.mp (List.mem_of_find?_eq_some h_find)
    exact ⟨found.id, mem_fromKeys.mpr (List.mem_map_of_mem h_mem), h_find⟩

theorem mem_ids_instancesMap :
    id ∈ (instancesMap entries).map (·.id) ↔ id ∈ entries.map (·.id) := by
  constructor
  · intro h
    obtain ⟨found, h_found, rfl⟩ := List.mem_map.mp h
    have h_mem := List.mem_of_find?_eq_some (mem_instancesMap.mp h_found)
    exact List.mem_map_of_mem (List.mem_reverse.mp h_mem)
  · intro h
    obtain ⟨entry, h_entry, rfl⟩ := List.mem_map.mp h
    have h_some : (entries.reverse.find? (·.id = entry.id)).isSome := by
      rw [List.find?_isSome]
      exact ⟨entry, List.mem_reverse.mpr h_entry, decide_eq_true rfl⟩
    obtain ⟨found, h_find⟩ := Option.isSome_iff_exists.mp h_some
    have h_id : decide (found.id = entry.id) = true := by simpa using List.find?_some h_find
    have h_id := of_decide_eq_true h_id
    exact List.mem_map.mpr ⟨found, mem_instancesMap.mpr (h_id ▸ h_find), h_id⟩

theorem nodup_instancesMap : ((instancesMap entries).map (·.id)).Nodup := by
  rw [instancesMap, List.map_filterMap]
  refine List.Nodup.filterMap ?_ (nodup_fromKeys _)
  -- an entry of a key has the key as its id
  have h_own : ∀ key id, id ∈ Option.map (·.id) (entries.reverse.find? (·.id = key)) → id = key := by
    intro key id h_id
    obtain ⟨found, h_find, rfl⟩ := Option.map_eq_some_iff.mp h_id
    have h_key : decide (found.id = key) = true := by simpa using List.find?_some h_find
    exact of_decide_eq_true h_key
  exact fun a b id h_a h_b => (h_own a id h_a).symm.trans (h_own b id h_b)

theorem mem_idsWhere (h_keys : (instances.map (·.id)).Nodup) (h_row : row ∈ instances) :
    row.id ∈ idsWhere instances p ↔ p row = true := by
  rw [idsWhere, List.mem_map]
  constructor
  · rintro ⟨other, h_other, h_id⟩
    obtain ⟨h_mem, h_p⟩ := List.mem_filter.mp h_other
    rwa [← List.inj_on_of_nodup_map h_keys h_mem h_row h_id]
  · exact fun h_p => ⟨row, List.mem_filter.mpr ⟨h_row, h_p⟩, rfl⟩

theorem mem_of_mem_idsWhere (h : id ∈ idsWhere instances p) : id ∈ instances.map (·.id) := by
  obtain ⟨other, h_other, rfl⟩ := List.mem_map.mp h
  exact List.mem_map_of_mem (List.mem_filter.mp h_other).1

end Lookups

/-! ### What a run does to a row -/

def fate (vmAll : List String) (row : MonitorInstance) : Option MonitorInstance :=
  if row.auto = false then some row
  else if row.id ∈ vmAll then some { row with isDeleted := false, isActive := true }
  else if row.isDeleted ∨ row.isActive = false then none
  else some { row with isActive := false }

theorem fate_congr {a b : List String} {row : MonitorInstance} (h : ∀ id, id ∈ a ↔ id ∈ b) :
    fate a row = fate b row := by
  simp only [fate, h]

def created (s : State) (entries : List Discovered) : List MonitorInstance :=
  ((instancesMap entries).filter (·.id ∉ s.instances.map (·.id))).map (·.toInstance)

section Sync

variable {s t : State} {entries : List Discovered} {row : MonitorInstance}

theorem mem_created : row ∈ created s entries ↔
    ∃ found ∈ instancesMap entries, found.id ∉ s.instances.map (·.id) ∧ found.toInstance = row := by
  simp only [created, List.mem_map, List.mem_filter, decide_eq_true_iff, and_assoc]

theorem ids_created : (created s entries).map (·.id) =
    ((instancesMap entries).filter (·.id ∉ s.instances.map (·.id))).map (·.id) := by
  rw [created, List.map_map]
  rfl

theorem bulkCreate_created {instances : List MonitorInstance}
    (h : ∀ row ∈ instances, row ∈ s.instances) :
    bulkCreate instances (created s entries) = some (instances ++ created s entries) := by
  rw [bulkCreate, if_pos]
  constructor
  · rw [ids_created]
    exact (List.filter_sublist.map _).nodup nodup_instancesMap
  · intro row h_row h_there
    obtain ⟨found, -, h_new, rfl⟩ := mem_created.mp h_row
    obtain ⟨old, h_old, h_id⟩ := List.mem_map.mp h_there
    exact h_new (List.mem_map.mpr ⟨old, h old h_old, h_id⟩)

def marked (vmAll noAlive : List String) (row : MonitorInstance) : Option MonitorInstance :=
  if row.auto = false then some row
  else if row.id ∈ noAlive ∧ row.isActive = false then none
  else if row.id ∈ vmAll then some { row with isActive := true }
  else if row.id ∈ noAlive then some { row with isActive := false }
  else some row

theorem instances_manageActive {u : State} {vmAll noAlive : List String}
    (h_keys : (u.instances.map (·.id)).Nodup) :
    (manageActive u vmAll noAlive).instances = u.instances.filterMap (marked vmAll noAlive) := by
  simp only [manageActive, State.delete, State.update, List.map_map, List.filter_map]
  rw [← List.filterMap_eq_map, List.filterMap_filter]
  refine List.filterMap_congr fun row h_row => ?_
  have h_previous : row.id ∈ idsWhere u.instances (fun row => !row.isActive && row.auto) ↔
      (!row.isActive && row.auto) = true := mem_idsWhere h_keys h_row
  rw [marked]
  cases h_auto : row.auto with
  | false => simp [h_auto]
  | true =>
    by_cases h_vm : row.id ∈ vmAll <;> by_cases h_no : row.id ∈ noAlive <;>
      cases h_active : row.isActive <;> simp_all

def restored (updateSet : List Discovered) (row : MonitorInstance) : MonitorInstance :=
  if row.id ∈ updateSet.map (·.id) ∧ row.isDeleted = true ∧ row.auto = true then
    { row with isDeleted := false }
  else row

theorem instances_restore {u : State} {updateSet : List Discovered} :
    (restore u updateSet).instances = u.instances.map (restored updateSet) := by
  show List.map _ u.instances = _
  refine List.map_congr_left fun row _ => ?_
  simp only [restored, Bool.and_eq_true, decide_eq_true_iff, and_assoc]

@[simp] theorem id_restored {updateSet : List Discovered} : (restored updateSet row).id = row.id := by
  rw [restored]
  split_ifs <;> rfl

theorem nodup_append_created {rows : List MonitorInstance} (h_keys : (rows.map (·.id)).Nodup)
    (h_rows : ∀ row ∈ rows, row.id ∈ s.instances.map (·.id)) :
    ((rows ++ created s entries).map (·.id)).Nodup := by
  rw [List.map_append, List.nodup_append, ids_created]
  refine ⟨h_keys, (List.filter_sublist.map _).nodup nodup_instancesMap, ?_⟩
  rintro id h_id _ h_new rfl
  obtain ⟨row, h_row, rfl⟩ := List.mem_map.mp h_id
  obtain ⟨found, h_found, h_same⟩ := List.mem_map.mp h_new
  have h_absent := of_decide_eq_true (List.mem_filter.mp h_found).2
  exact h_absent (h_same ▸ h_rows row h_row)

theorem tableDeleted_iff (h_keys : (s.instances.map (·.id)).Nodup) (h_row : row ∈ s.instances) :
    row.id ∈ tableDeleted s ↔ row.auto = true ∧ row.isDeleted = true := by
  rw [tableDeleted, mem_idsWhere h_keys h_row, Bool.and_eq_true]

theorem deleteSet_iff (vmAll : List String) (h_keys : (s.instances.map (·.id)).Nodup)
    (h_row : row ∈ s.instances) :
    row.id ∈ deleteSet s vmAll ↔ row.auto = true ∧ row.isDeleted = true ∧ row.id ∉ vmAll := by
  rw [deleteSet, List.mem_filter, tableDeleted_iff h_keys h_row, decide_eq_true_iff, List.mem_filter,
    mem_idsWhere h_keys h_row, decide_eq_true_iff]
  tauto

theorem noAliveSet_iff (vmAll : List String) (h_keys : (s.instances.map (·.id)).Nodup)
    (h_row : row ∈ s.instances) :
    row.id ∈ noAliveSet s vmAll ↔ row.auto = true ∧ row.isDeleted = false ∧ row.id ∉ vmAll := by
  rw [noAliveSet, List.mem_filter, List.mem_filter, mem_idsWhere h_keys h_row, decide_eq_true_iff,
    decide_eq_true_iff, tableDeleted_iff h_keys h_row, not_and, Bool.not_eq_true]
  tauto

theorem notMem_of_new (vmAll : List String) {id : String} (h : id ∉ s.instances.map (·.id)) :
    id ∉ tableDeleted s ∧ id ∉ noAliveSet s vmAll :=
  ⟨fun h_id => h (mem_of_mem_idsWhere h_id), fun h_id =>
    h (mem_of_mem_idsWhere (List.mem_filter.mp (List.mem_filter.mp h_id).1).1)⟩

theorem marked_restored (h_keys : (s.instances.map (·.id)).Nodup) (h_row : row ∈ s.instances) :
    (if (!(decide (row.id ∈ deleteSet s ((instancesMap entries).map (·.id))) && row.isDeleted &&
        row.auto)) = true then
      marked ((instancesMap entries).map (·.id)) (noAliveSet s ((instancesMap entries).map (·.id)))
        (restored ((instancesMap entries).filter (·.id ∈ tableDeleted s)) row)
    else none) = fate (entries.map (·.id)) row := by
  have h_delete := deleteSet_iff ((instancesMap entries).map (·.id)) h_keys h_row
  have h_alive := noAliveSet_iff ((instancesMap entries).map (·.id)) h_keys h_row
  have h_update : row.id ∈ ((instancesMap entries).filter (·.id ∈ tableDeleted s)).map (·.id) ↔
      row.id ∈ (instancesMap entries).map (·.id) ∧ row.auto = true ∧ row.isDeleted = true := by
    rw [← tableDeleted_iff h_keys h_row, List.mem_map, List.mem_map]
    constructor
    · rintro ⟨found, h_found, h_id⟩
      obtain ⟨h_mem, h_in⟩ := List.mem_filter.mp h_found
      exact ⟨⟨found, h_mem, h_id⟩, h_id ▸ of_decide_eq_true h_in⟩
    · rintro ⟨⟨found, h_mem, h_id⟩, h_in⟩
      exact ⟨found, List.mem_filter.mpr ⟨h_mem, decide_eq_true (h_id ▸ h_in)⟩, h_id⟩
  rw [← fate_congr (fun id => mem_ids_instancesMap), fate, marked, id_restored, restored]
  cases h_auto : row.auto with
  | false => simp [h_auto]
  | true =>
    by_cases h_vm : row.id ∈ (instancesMap entries).map (·.id) <;>
      cases h_deleted : row.isDeleted <;> cases h_active : row.isActive <;> simp_all

theorem syncMonitorInstances_eq (entries : List Discovered)
    (h_keys : (s.instances.map (·.id)).Nodup) :
    ∃ t, syncMonitorInstances s entries = some t ∧
      t.instances = s.instances.filterMap (fate (entries.map (·.id))) ++ created s entries := by
  have h_kept : ∀ row ∈ (removeDeleted s ((instancesMap entries).map (·.id))).instances,
      row ∈ s.instances := fun row h_row => (List.mem_filter.mp h_row).1
  obtain ⟨t, h_sync, h_t⟩ : ∃ t, syncMonitorInstances s entries = some t ∧ t = manageActive
      (restore (State.addOrganizations
        { removeDeleted s ((instancesMap entries).map (·.id)) with
          instances := (removeDeleted s ((instancesMap entries).map (·.id))).instances ++
            created s entries }
        ((instancesMap entries).filter (·.id ∉ s.instances.map (·.id))))
        ((instancesMap entries).filter (·.id ∈ tableDeleted s)))
      ((instancesMap entries).map (·.id)) (noAliveSet s ((instancesMap entries).map (·.id))) := by
    refine ⟨_, ?_, rfl⟩
    rw [syncMonitorInstances]
    exact Option.bind_eq_some_iff.mpr ⟨_, bulkCreate_created h_kept, rfl⟩
  refine ⟨t, h_sync, ?_⟩
  subst h_t
  rw [instances_manageActive, instances_restore, List.filterMap_map]
  · show List.filterMap _ (List.filter _ s.instances ++ created s entries) = _
    rw [List.filterMap_append, List.filterMap_filter]
    congr 1
    · exact List.filterMap_congr fun row h_row => marked_restored h_keys h_row
    · -- the new rows are active, and no set of the run names them
      refine (List.filterMap_congr fun row h_row => ?_).trans List.filterMap_some
      obtain ⟨found, h_found, h_new, rfl⟩ := mem_created.mp h_row
      obtain ⟨h_deleted, h_alive⟩ := notMem_of_new ((instancesMap entries).map (·.id)) h_new
      have h_vm : found.toInstance.id ∈ (instancesMap entries).map (·.id) :=
        List.mem_map_of_mem h_found
      have h_same : restored ((instancesMap entries).filter (·.id ∈ tableDeleted s))
          found.toInstance = found.toInstance := if_neg fun h => Bool.false_ne_true h.2.1
      rw [Function.comp_apply, h_same, marked, if_neg Bool.noConfusion,
        if_neg fun h => h_alive h.1, if_pos h_vm]
      rfl
  · rw [instances_restore, List.map_map]
    show List.Nodup (List.map (fun row => (restored _ row).id) (List.filter _ s.instances ++ _))
    simp only [id_restored]
    exact nodup_append_created ((List.filter_sublist.map _).nodup h_keys) fun row h_row =>
      List.mem_map_of_mem (h_kept row h_row)

end Sync

/-! ### Runs of the synchronisation -/

structure System where
  db : State
  previous : List String
deriving DecidableEq, Repr

/-- A run of the task, with the result of each query, and the deletion of instances by a user. -/
inductive Action
  | sync (results : List (MonitorObject × List MetricInfo))
  | softDelete (instanceIds : List String)

def step (printable : Char → Bool) (s : System) : Action → System
  | .sync results =>
    match syncMonitorInstances s.db (discover printable results) with
    | some db => ⟨db, (discover printable results).map (·.id)⟩
    | none => s
  | .softDelete instanceIds =>
    { s with db := s.db.update (fun row => row.id ∈ instanceIds) fun row =>
        { row with isDeleted := true } }

/-- Each discovered id has its row, and no other automatic row stays for long. -/
structure Synced (s : System) (entries : List Discovered) (t : System) : Prop where
  manual : ∀ row, row.auto = false → (row ∈ t.db.instances ↔ row ∈ s.db.instances)
  inserts : (syncMonitorInstances s.db entries).isSome
  present : ∀ found ∈ entries, ∃ row ∈ t.db.instances, row.id = found.id ∧
    (row.auto = true → row.isActive = true ∧ row.isDeleted = false) ∧
    ((∃ old ∈ s.db.instances, old.id = row.id ∧ old.monitorObjectId = row.monitorObjectId) ∨
      row.id ∉ s.db.instances.map (·.id) ∧ row.auto = true ∧
        (entries.reverse.find? (·.id = row.id)).map (·.monitorObjectId) = some row.monitorObjectId)
  removed : ∀ row ∈ s.db.instances, row.auto = true → row.id ∉ t.db.instances.map (·.id) →
    row.id ∉ entries.map (·.id) ∧
      (row.isDeleted = true ∨ row.isActive = false ∧ row.id ∉ s.previous)

def SyncedRuns (printable : Char → Bool) (s : System) : Action → System → Prop
  | .sync results, t => Synced s (discover printable results) t
  | .softDelete _, _ => True

/-- Every discovered instance is there under its own object, active and, if automatic, not
deleted. -/
def UnderEach (printable : Char → Bool) (_ : System) : Action → System → Prop
  | .sync results, t => ∀ found ∈ discover printable results, ∃ row ∈ t.db.instances,
    row.id = found.id ∧ row.monitorObjectId = found.monitorObjectId ∧ row.isActive = true ∧
      (row.auto = true → row.isDeleted = false)
  | .softDelete _, _ => True

/-- Ids are keys, and an automatic instance is inactive because the last run has not discovered
it. -/
structure Kept (s : System) : Prop where
  keys : (s.db.instances.map (·.id)).Nodup
  inactive : ∀ row ∈ s.db.instances, row.auto = true → row.isActive = false → row.id ∉ s.previous

section Run

variable {printable : Char → Bool} {s : System} {t : State} {entries : List Discovered}
  {row : MonitorInstance} {vmAll : List String}

theorem fate_eq_some {old : MonitorInstance} (h : fate vmAll old = some row) :
    row.id = old.id ∧ row.monitorObjectId = old.monitorObjectId ∧ row.auto = old.auto := by
  rw [fate] at h
  split_ifs at h <;> obtain rfl := Option.some.inj h <;> exact ⟨rfl, rfl, rfl⟩

theorem fate_of_manual (h : row.auto = false) : fate vmAll row = some row := if_pos h

theorem fate_eq_none (h : fate vmAll row = none) :
    row.auto = true ∧ row.id ∉ vmAll ∧ (row.isDeleted = true ∨ row.isActive = false) := by
  rw [fate] at h
  split_ifs at h with h_auto h_vm h_gone
  exact ⟨Bool.not_eq_false _ |>.mp h_auto, h_vm, h_gone⟩

theorem fate_of_mem (row : MonitorInstance) (h : row.id ∈ vmAll) : ∃ next, fate vmAll row = some next ∧
    (next.auto = true → next.isActive = true ∧ next.isDeleted = false) := by
  by_cases h_auto : row.auto = false
  · refine ⟨row, fate_of_manual h_auto, fun h_true => ?_⟩
    exact absurd (h_auto.symm.trans h_true) Bool.false_ne_true
  · exact ⟨_, by rw [fate, if_neg h_auto, if_pos h], fun _ => ⟨rfl, rfl⟩⟩

theorem mem_synced
    (h : t.instances = s.db.instances.filterMap (fate (entries.map (·.id))) ++ created s.db entries) :
    row ∈ t.instances ↔
      (∃ old ∈ s.db.instances, fate (entries.map (·.id)) old = some row) ∨
        row ∈ created s.db entries := by
  rw [h, List.mem_append, List.mem_filterMap]

theorem ids_fates_sublist (vmAll : List String) (rows : List MonitorInstance) :
    ((rows.filterMap (fate vmAll)).map (·.id)).Sublist (rows.map (·.id)) := by
  induction rows with
  | nil => exact List.Sublist.slnil
  | cons row rows ih =>
    cases h_fate : fate vmAll row with
    | none =>
      rw [List.filterMap_cons_none h_fate]
      exact ih.cons _
    | some next =>
      rw [List.filterMap_cons_some h_fate, List.map_cons, (fate_eq_some h_fate).1]
      exact ih.cons_cons _

theorem nodup_synced (h_keys : (s.db.instances.map (·.id)).Nodup) :
    ((s.db.instances.filterMap (fate vmAll) ++ created s.db entries).map (·.id)).Nodup := by
  have h_sub := ids_fates_sublist vmAll s.db.instances
  exact nodup_append_created (h_sub.nodup h_keys) fun row h_row =>
    h_sub.subset (List.mem_map_of_mem h_row)

theorem Kept.synced (h : Kept s) {results : List (MonitorObject × List MetricInfo)} :
    Synced s (discover printable results) (step printable s (.sync results)) := by
  obtain ⟨t, h_sync, h_t⟩ := syncMonitorInstances_eq (discover printable results) h.keys
  rw [step, h_sync]
  refine ⟨fun row h_manual => ?_, Option.isSome_iff_exists.mpr ⟨t, h_sync⟩, fun found h_found => ?_,
    fun row h_row h_auto h_gone => ?_⟩
  · show row ∈ t.instances ↔ _
    rw [mem_synced h_t]
    constructor
    · rintro (⟨old, h_old, h_fate⟩ | h_new)
      · have h_old_manual : old.auto = false := (fate_eq_some h_fate).2.2 ▸ h_manual
        rw [fate_of_manual h_old_manual] at h_fate
        exact Option.some.inj h_fate ▸ h_old
      · obtain ⟨found, -, -, rfl⟩ := mem_created.mp h_new
        exact absurd h_manual Bool.noConfusion
    · exact fun h_row => .inl ⟨row, h_row, fate_of_manual h_manual⟩
  · have h_id : found.id ∈ (discover printable results).map (·.id) := List.mem_map_of_mem h_found
    by_cases h_there : found.id ∈ s.db.instances.map (·.id)
    · obtain ⟨old, h_old, h_same⟩ := List.mem_map.mp h_there
      obtain ⟨row, h_fate, h_active⟩ := fate_of_mem old (h_same ▸ h_id)
      obtain ⟨h_row_id, h_object, -⟩ := fate_eq_some h_fate
      exact ⟨row, (mem_synced h_t).mpr (.inl ⟨old, h_old, h_fate⟩), h_row_id.trans h_same, h_active,
        .inl ⟨old, h_old, h_row_id.symm, h_object.symm⟩⟩
    · obtain ⟨last, h_last, h_same⟩ := List.mem_map.mp (mem_ids_instancesMap.mpr h_id)
      have h_new : last.id ∉ s.db.instances.map (·.id) := h_same ▸ h_there
      refine ⟨last.toInstance, (mem_synced h_t).mpr (.inr (mem_created.mpr
        ⟨last, h_last, h_new, rfl⟩)), h_same, fun _ => ⟨rfl, rfl⟩, .inr ⟨h_new, rfl, ?_⟩⟩
      show Option.map _ ((discover printable results).reverse.find? (·.id = last.id)) = _
      rw [mem_instancesMap.mp h_last]
      rfl
  · cases h_fate : fate ((discover printable results).map (·.id)) row with
    | none =>
      obtain ⟨-, h_absent, h_state⟩ := fate_eq_none h_fate
      exact ⟨h_absent, h_state.imp_right fun h_inactive =>
        ⟨h_inactive, h.inactive row h_row h_auto h_inactive⟩⟩
    | some next =>
      refine absurd (List.mem_map.mpr ⟨next, (mem_synced h_t).mpr (.inl ⟨row, h_row, h_fate⟩), ?_⟩)
        h_gone
      exact (fate_eq_some h_fate).1

theorem Kept.step (h : Kept s) (a : Action) : Kept (step printable s a) := by
  cases a with
  | sync results =>
    obtain ⟨t, h_sync, h_t⟩ := syncMonitorInstances_eq (discover printable results) h.keys
    rw [SyncInstances.step, h_sync]
    constructor
    · show (t.instances.map (·.id)).Nodup
      rw [h_t]
      exact nodup_synced h.keys
    · intro row h_row h_auto h_inactive h_id
      obtain ⟨old, -, h_fate⟩ | h_new := (mem_synced h_t).mp h_row
      · -- a discovered row is active
        have h_old : old.id ∈ (discover printable results).map (·.id) :=
          (fate_eq_some h_fate).1 ▸ h_id
        obtain ⟨next, h_next, h_active⟩ := fate_of_mem _ h_old
        obtain rfl := Option.some.inj (h_fate.symm.trans h_next)
        exact absurd (h_inactive.symm.trans (h_active h_auto).1) Bool.false_ne_true
      · obtain ⟨found, -, -, rfl⟩ := mem_created.mp h_new
        exact absurd h_inactive Bool.noConfusion
  | softDelete instanceIds =>
    have h_ids : (s.db.instances.map fun row => if row.id ∈ instanceIds then
        { row with isDeleted := true } else row).map (·.id) = s.db.instances.map (·.id) := by
      rw [List.map_map]
      refine List.map_congr_left fun row _ => ?_
      rw [Function.comp_apply]
      split_ifs <;> rfl
    constructor
    · show (List.map _ (s.db.instances.map _)).Nodup
      simp only [decide_eq_true_iff, h_ids]
      exact h.keys
    · intro row h_row h_auto h_inactive
      obtain ⟨old, h_old, rfl⟩ := List.mem_map.mp h_row
      dsimp only at h_auto h_inactive ⊢
      split_ifs at h_auto h_inactive ⊢
      · exact h.inactive old h_old h_auto h_inactive
      · exact h.inactive old h_old h_auto h_inactive

/-- **The runs of the synchronisation are right.** -/
theorem synced_runs (h : Kept s) (as : List Action) :
    Runs.Along (SyncInstances.step printable) (SyncedRuns printable) s as :=
  Runs.along_of_step (I := Kept) (fun s a h_kept => ⟨h_kept.step a, by
    cases a with
    | sync results => exact h_kept.synced
    | softDelete instanceIds => trivial⟩) h as

section Examples

private def hosts : MonitorObject := ⟨1, "any({}) by (instance_id)", ["instance_id"]⟩

private def containers : MonitorObject := ⟨2, "any({}) by (instance_id)", ["instance_id"]⟩

private def h1 : MetricInfo := ⟨fun _ => some "h1", some 3⟩

private def stale : System where
  db := ⟨[⟨"('h0',)", "h0", 1, true, false, false⟩, ⟨"m1", "m1", 1, false, false, true⟩], []⟩
  previous := []

/-- A new instance comes, and one that was inactive goes. -/
theorem synced_stale : Runs.Along (SyncInstances.step fun _ => true) (SyncedRuns fun _ => true) stale
    [.sync [(hosts, [h1])], .softDelete ["('h1',)", "m1"], .sync []] :=
  synced_runs ⟨by decide, by decide⟩ _

/-- One id under two objects has a row under the last one. -/
theorem not_underEach : ¬∀ (printable : Char → Bool) (s : System) (as : List Action), Kept s →
    Runs.Along (SyncInstances.step printable) (UnderEach printable) s as := by
  intro h_claim
  obtain ⟨h_each, -⟩ := h_claim (fun _ => true) ⟨⟨[], []⟩, []⟩
    [.sync [(hosts, [h1]), (containers, [h1])]] ⟨by decide, by decide⟩
  obtain ⟨row, h_row, -, h_object, -⟩ := h_each ⟨"('h1',)", "h1", 1, some 3⟩ (by decide)
  revert row
  decide

end Examples

end Run

end Monitor.SyncInstances
