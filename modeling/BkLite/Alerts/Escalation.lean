import BkLite.Alerts.Notify
import BkLite.Framework.Sweep

/-!
# The escalation service

`service/escalation_service.py`. An assignment may carry an escalation config: a list of layers,
each with its personnel and the minutes to wait before the alert is handed to it.
`parseEscalationConfig` accepts a config only if it has a layer and every layer has somebody in it
and a positive wait, and the types say so: an `EscalationConfig` has a first layer, and a `UiLayer`
carries both facts.
-/

namespace Alerts

open Py

/-! ### The config -/

structure UiLayer extends Layer where
  /-- Somebody is in the layer. -/
  personnel_ne_nil : personnel ≠ []
  /-- The layer is waited for. -/
  wait_pos : 0 < waitMinutes

structure EscalationConfig where
  mode : EscalationMode
  first : UiLayer
  rest : List UiLayer

def EscalationConfig.layers (c : EscalationConfig) : List UiLayer := c.first :: c.rest

/-- The mode, if it is one of `VALID_MODES`. -/
def parseMode : Value → Option EscalationMode
  | .str "append" => some .append
  | .str "replace" => some .replace
  | _ => none

/-- One round of the loop over the raw layers; `none` rejects the config. -/
def parseLayer (layer : Value) : Except PyError (Option UiLayer) := do
  match (← layer.get "personnel").orElse (.list []) with
  | .list (p :: ps) =>
    -- `int()` failing rejects the config instead of raising
    match ((← layer.get "wait_minutes").orElse (.int 0)).toInt with
    | .error _ => return none
    | .ok waitMinutes =>
      if h_wait : 0 < waitMinutes then
        match h_names : fromKeysValue (p :: ps) with
        | .error e => throw e
        | .ok personnel =>
          return some
            { personnel, waitMinutes
              notifyChannels := (← layer.get "notify_channels").orElse (.list [])
              personnel_ne_nil := fromKeysValue_ne_nil h_names
              wait_pos := h_wait }
      else return none
  | _ => return none

def parseLayers : List Value → Except PyError (Option (List UiLayer))
  | [] => .ok (some [])
  | raw :: raws => do
    match ← parseLayer raw with
    | none => return none
    | some layer => return (← parseLayers raws).map (layer :: ·)

def parseEscalationConfig (config : Value) : Except PyError (Option EscalationConfig) := do
  let block := match config with
    | .dict kvs => Value.lookup kvs "escalation"
    | _ => .null
  if !block.truthy then return none
  if !(← block.get "enabled").truthy then return none
  match parseMode (← block.get "mode") with
  | none => return none
  | some mode =>
    match (← block.get "layers").orElse (.list []) with
    | .list (raw :: raws) =>
      match ← parseLayer raw with
      | none => return none
      | some first => return (← parseLayers raws).map fun rest => { mode, first, rest }
    | _ => return none

/-! ### The chain -/

/-- `assignment.personnel or []`. -/
def AlertAssignment.initialPersonnel (a : AlertAssignment) : List Scalar :=
  a.personnel.getD []

/-- The entry of the chain for layer `k`: it waits as long as the next layer asks
for, and `0` if there is none. -/
def chainLayer (uiLayers : List UiLayer) (k : ℕ) (layer : UiLayer) : Layer where
  personnel := layer.personnel
  waitMinutes := match uiLayers[k + 1]? with
    | some next => next.waitMinutes
    | none => 0
  notifyChannels := layer.notifyChannels.orElse (.list [])

def buildEffectiveChain (assignment : AlertAssignment) (config : EscalationConfig) :
    List Layer :=
  let tail := config.layers.mapIdx (chainLayer config.layers)
  if assignment.initialPersonnel = [] then tail
  else
    { personnel := assignment.initialPersonnel
      waitMinutes := config.first.waitMinutes
      notifyChannels := assignment.notifyChannels.orElse (.list []) } :: tail

def computeRoster (layers : List Layer) (currentIndex : ℕ) (mode : EscalationMode) :
    List Scalar :=
  match mode with
  | .replace => fromKeys ((layers[currentIndex]?.map (·.personnel)).getD [])
  | .append => fromKeys ((layers.take (currentIndex + 1)).flatMap (·.personnel))

theorem buildEffectiveChain_ne_nil (a : AlertAssignment) (c : EscalationConfig) :
    buildEffectiveChain a c ≠ [] := by
  unfold buildEffectiveChain
  split
  · simp [EscalationConfig.layers]
  · exact List.cons_ne_nil _ _

theorem buildEffectiveChain_wait {a : AlertAssignment} {c : EscalationConfig} {k : ℕ}
    {l : Layer} {ui : UiLayer} (h_init : a.initialPersonnel ≠ [])
    (h_layer : (buildEffectiveChain a c)[k]? = some l) (h_ui : c.layers[k]? = some ui) :
    l.waitMinutes = ui.waitMinutes := by
  unfold buildEffectiveChain at h_layer
  rw [if_neg h_init] at h_layer
  cases k with
  | zero =>
    rw [List.getElem?_cons_zero, Option.some_inj] at h_layer
    have h_first : c.first = ui := by simpa [EscalationConfig.layers] using h_ui
    rw [← h_layer, ← h_first]
  | succ k =>
    -- the entry stands for layer `k`, whose successor is the layer asked about
    rw [List.getElem?_cons_succ, List.getElem?_mapIdx] at h_layer
    obtain ⟨own, -, h_eq⟩ := Option.map_eq_some_iff.mp h_layer
    rw [← h_eq]
    simp only [chainLayer, h_ui]

theorem buildEffectiveChain_length {a : AlertAssignment} {c : EscalationConfig}
    (h_init : a.initialPersonnel ≠ []) :
    (buildEffectiveChain a c).length = c.layers.length + 1 := by
  unfold buildEffectiveChain
  rw [if_neg h_init]
  simp

/-! ### The service -/

/-- The row after the personnel were united into its operators; it is saved only
if somebody is new. -/
def Alert.unite (personnel : List Scalar) (now : ℤ) (alert : Alert) : Alert :=
  let merged := fromKeys (alert.operator ++ personnel)
  if merged ≠ alert.operator then { alert with operator := merged, updatedAt := now } else alert

def unionIntoOperator (alertId : AlertId) (personnel : List Scalar) (now : ℤ) (db : Db) :
    Db :=
  { db with alerts := Table.modify db.alerts alertId (Alert.unite personnel now) }

def startedTask (assignment : AlertAssignment) (config : EscalationConfig) (now : ℤ) :
    AlertEscalationTask where
  assignmentId := assignment.id
  isActive := true
  mode := config.mode
  layers := buildEffectiveChain assignment config
  currentLayerIndex := 0
  layerStartedAt := now

def createEscalationTask (alertId : AlertId) (assignment : AlertAssignment) (now : ℤ)
    (db : Db) : Except PyError Db := do
  match ← parseEscalationConfig assignment.config with
  | none => return db
  | some normalized =>
    let db := { db with
      escalations := db.escalations.insert alertId (startedTask assignment normalized now) }
    match (buildEffectiveChain assignment normalized)[0]? with
    | none => throw .indexError
    | some start => return unionIntoOperator alertId start.personnel now db

def stopEscalationTask (alertId : AlertId) (db : Db) : Db :=
  { db with
    escalations := Table.modify db.escalations alertId fun task => { task with isActive := false } }

/-- `reset_escalation_task`: without an assignment the existing task keeps its
own. -/
def resetEscalationTask (alertId : AlertId) (assignment : Option AlertAssignment) (now : ℤ)
    (db : Db) : Except PyError Db :=
  match assignment with
  | some assignment => createEscalationTask alertId assignment now db
  | none =>
    match (db.escalations.lookup alertId).bind fun task =>
      db.assignments.lookup task.assignmentId with
    | none => .ok db
    | some assignment => createEscalationTask alertId assignment now db

def resetReminderForNewRoster (alertId : AlertId) (now : ℤ) (db : Db) : Db :=
  { db with
    reminders := Table.modify db.reminders alertId fun reminder =>
      { reminder with
        reminderCount := 0
        isActive := true
        lastReminderTime := none
        nextReminderTime := now + minutes reminder.currentFrequencyMinutes } }

def sendEscalationNotification (alertId : AlertId) (alert : Alert)
    (assignment : AlertAssignment) (roster : List Scalar) (layerChannels : Value) (now : ℤ)
    (db : Db) : Except PyError Db := do
  if alert.isSessionAlert && alert.sessionStatus ≠ some .confirmed then
    return db
  let channels := (layerChannels.orElse assignment.notifyChannels).orElse (.list [])
  let params ← buildChannelParams roster channels alert.team
  return enqueueNotifications .escalation alertId now params db

inductive Visit
  /-- The row is locked by another transaction, or the visit fails and is rolled
  back. -/
  | skipped
  /-- The clock at the due check, at the advance and at the reminder reset. -/
  | at (check advance reset : ℤ)

/-- `_advance_layer`. An exception in it rolls the visit back. -/
def advanceLayer (alertId : AlertId) (alert : Alert) (task : AlertEscalationTask)
    (advance reset : ℤ) (db : Db) : Except PyError Db := do
  let nextIndex := task.currentLayerIndex + 1
  let moved := { task with currentLayerIndex := nextIndex, layerStartedAt := advance }
  match task.layers[nextIndex]?, db.assignments.lookup task.assignmentId with
  | some layer, some assignment =>
    let db := { db with escalations := db.escalations.insert alertId moved }
    let db := unionIntoOperator alertId layer.personnel advance db
    let db := resetReminderForNewRoster alertId reset db
    let roster := computeRoster task.layers nextIndex task.mode
    sendEscalationNotification alertId alert assignment roster
      (layer.notifyChannels.orElse (.list [])) reset db
  | _, _ => throw .indexError

/-- One round of the loop of `check_and_process_escalations`. -/
def escalateOne (visit : Visit) (alertId : AlertId) (db : Db) : Db :=
  match visit with
  | .skipped => db
  | .at check advance reset =>
    match db.escalations.lookup alertId, db.alerts.lookup alertId with
    | some task, some alert =>
      if !task.isActive then db
      else if alert.status ≠ .pending then stopEscalationTask alertId db
      else
        match task.layers[task.currentLayerIndex]? with
        | none => db
        | some layer =>
          if check < task.layerStartedAt + minutes layer.waitMinutes then db
          else if task.layers.length ≤ task.currentLayerIndex + 1 then
            stopEscalationTask alertId db
          else
            match advanceLayer alertId alert task advance reset db with
            | .ok db' => db'
            | .error _ => db
    | _, _ => db

def activeEscalations (db : Db) : List AlertId :=
  Table.keysWhere db.escalations (·.isActive)

theorem activeEscalations_nodup (db : Db) : (activeEscalations db).Nodup :=
  Table.keysWhere_nodup _ _

def checkAndProcessEscalations (visits : AlertId → Visit) (db : Db) : Db :=
  Sweep.sweep (fun alertId => escalateOne (visits alertId) alertId) (activeEscalations db) db

/-! ### What the operations do -/

section Effects

variable {alertId : AlertId} {now : ℤ} {db db' : Db}

@[simp] theorem Alert.unite_status (personnel : List Scalar) (now : ℤ) (alert : Alert) :
    (alert.unite personnel now).status = alert.status := by
  unfold Alert.unite
  dsimp only
  split <;> rfl

@[simp] theorem Alert.mem_unite_operator {personnel : List Scalar} {now : ℤ} {alert : Alert}
    {p : Scalar} :
    p ∈ (alert.unite personnel now).operator ↔ p ∈ alert.operator ∨ p ∈ personnel := by
  unfold Alert.unite
  dsimp only
  split
  · simp
  · -- nobody is new, so the merged list is the old one
    next h_same =>
    rw [not_ne_iff] at h_same
    refine ⟨Or.inl, fun h => ?_⟩
    rw [← h_same, mem_fromKeys, List.mem_append]
    exact h

theorem createEscalationTask_cases {a : AlertAssignment}
    (h : createEscalationTask alertId a now db = .ok db') :
    db' = db ∨ ∃ c start, parseEscalationConfig a.config = .ok (some c) ∧
      (buildEffectiveChain a c)[0]? = some start ∧
      db' = unionIntoOperator alertId start.personnel now
        { db with escalations := db.escalations.insert alertId (startedTask a c now) } := by
  unfold createEscalationTask at h
  obtain ⟨config, h_parse, h⟩ := bind_eq_ok.mp h
  cases config with
  | none => exact Or.inl (Except.ok.inj h).symm
  | some c =>
    cases h_start : (buildEffectiveChain a c)[0]? with
    | none =>
      simp only [h_start] at h
      cases h
    | some start =>
      simp only [h_start] at h
      exact Or.inr ⟨c, start, h_parse, h_start, (Except.ok.inj h).symm⟩

theorem createEscalationTask_outbox {a : AlertAssignment}
    (h : createEscalationTask alertId a now db = .ok db') : db'.outbox = db.outbox := by
  rcases createEscalationTask_cases h with rfl | ⟨c, start, -, -, rfl⟩ <;> rfl

variable (alertId now db) in
theorem createEscalationTask_of_parse {a : AlertAssignment} {c : EscalationConfig}
    (h_parse : parseEscalationConfig a.config = .ok (some c)) :
    ∃ start, (buildEffectiveChain a c)[0]? = some start ∧
      createEscalationTask alertId a now db = .ok (unionIntoOperator alertId start.personnel now
        { db with escalations := db.escalations.insert alertId (startedTask a c now) }) := by
  obtain ⟨start, chain, h_chain⟩ := List.exists_cons_of_ne_nil (buildEffectiveChain_ne_nil a c)
  have h_start : (buildEffectiveChain a c)[0]? = some start := by rw [h_chain]; rfl
  refine ⟨start, h_start, ?_⟩
  unfold createEscalationTask
  refine bind_eq_ok.mpr ⟨some c, h_parse, ?_⟩
  simp only [h_start]
  rfl

theorem sendEscalationNotification_ok {alert : Alert} {a : AlertAssignment}
    {roster : List Scalar} {channels : Value}
    (h : sendEscalationNotification alertId alert a roster channels now db = .ok db') :
    db' = db ∨ ∃ params, db' = enqueueNotifications .escalation alertId now params db := by
  unfold sendEscalationNotification at h
  split at h
  · exact Or.inl (Except.ok.inj h).symm
  · obtain ⟨params, -, h⟩ := bind_eq_ok.mp h
    exact Or.inr ⟨params, (Except.ok.inj h).symm⟩

/-- What an advance writes, when no exception rolls it back. -/
structure Advanced (alertId : AlertId) (task : AlertEscalationTask) (advance : ℤ)
    (db db' : Db) : Prop where
  alerts : ∃ next, task.layers[task.currentLayerIndex + 1]? = some next ∧
    db'.alerts = Table.modify db.alerts alertId (Alert.unite next.personnel advance)
  escalations : db'.escalations = db.escalations.insert alertId
    { task with currentLayerIndex := task.currentLayerIndex + 1, layerStartedAt := advance }
  outbox : ∃ new, db'.outbox = db.outbox ++ new ∧
    ∀ n ∈ new, n.alertId = alertId ∧ n.kind = .escalation

theorem advanceLayer_ok {alert : Alert} {task : AlertEscalationTask} {advance reset : ℤ}
    (h : advanceLayer alertId alert task advance reset db = .ok db') :
    Advanced alertId task advance db db' := by
  unfold advanceLayer at h
  cases h_next : task.layers[task.currentLayerIndex + 1]? with
  | none =>
    simp only [h_next] at h
    cases h
  | some next =>
    cases h_assignment : db.assignments.lookup task.assignmentId with
    | none =>
      simp only [h_next, h_assignment] at h
      cases h
    | some a =>
      simp only [h_next, h_assignment] at h
      rcases sendEscalationNotification_ok h with rfl | ⟨params, rfl⟩
      · exact ⟨⟨next, h_next, rfl⟩, rfl, [], (List.append_nil _).symm, by simp⟩
      · refine ⟨⟨next, h_next, by simp; rfl⟩, by simp; rfl, ?_⟩
        exact enqueueNotifications_outbox .escalation alertId reset params _

/-- **One visit.** The scan leaves a task alone, stops it, or advances it by one layer. -/
inductive EscalateEffect (visit : Visit) (alertId : AlertId) (db : Db) : Db → Prop
  | kept : EscalateEffect visit alertId db db
  | stopped : EscalateEffect visit alertId db (stopEscalationTask alertId db)
  | advanced {check advance reset : ℤ} {task : AlertEscalationTask} {alert : Alert}
      {layer : Layer} {db' : Db}
      (h_visit : visit = .at check advance reset)
      (h_task : db.escalations.lookup alertId = some task)
      (h_alert : db.alerts.lookup alertId = some alert)
      (h_active : task.isActive = true)
      (h_pending : alert.status = .pending)
      (h_layer : task.layers[task.currentLayerIndex]? = some layer)
      (h_due : task.layerStartedAt + minutes layer.waitMinutes ≤ check)
      (h_advanced : Advanced alertId task advance db db') :
      EscalateEffect visit alertId db db'

theorem escalateOne_effect (visit : Visit) (alertId : AlertId) (db : Db) :
    EscalateEffect visit alertId db (escalateOne visit alertId db) := by
  cases visit with
  | skipped => exact .kept
  | «at» check advance reset =>
    unfold escalateOne
    cases h_task : db.escalations.lookup alertId with
    | none => exact .kept
    | some task =>
      cases h_alert : db.alerts.lookup alertId with
      | none => exact .kept
      | some alert =>
        dsimp only
        split
        · exact .kept
        next h_active =>
        split
        · exact .stopped
        next h_pending =>
        cases h_layer : task.layers[task.currentLayerIndex]? with
        | none => exact .kept
        | some layer =>
          dsimp only
          split
          · exact .kept
          next h_due =>
          split
          · exact .stopped
          cases h_advance : advanceLayer alertId alert task advance reset db with
          | error e => exact .kept
          | ok db' =>
            refine .advanced rfl h_task h_alert ?_ ?_ h_layer ?_ (advanceLayer_ok h_advance)
            · simpa using h_active
            · exact not_ne_iff.mp h_pending
            · exact Int.not_lt.mp h_due

end Effects

end Alerts
