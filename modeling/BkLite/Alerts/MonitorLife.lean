import BkLite.Alerts.Ingest
import BkLite.Alerts.Writers
import BkLite.Monitor.AlertCompensation

/-!
# A monitor alert in the alert center

What the alert center makes of the life of a monitor alert. `_build_alert_center_payload` pushes the
start of the alert, each of its upgrades and its end, all under the id of the alert and with its
start time; the NATS adapter stores an event unless one of the same ingest key is stored, and hands
the end to the recovery handler.

The adapter makes an event of every payload. A payload is ingested by itself; the fields that
neither ingestion nor recovery reads are left out.
-/

namespace Alerts
namespace MonitorLife

open Aggregation (checkedAlert)
open Ingest
open Monitor.AlertCompensation (NoticeAction)
open Monitor.PolicyScan (levelWeight)

/-! ### The monitor -/

/-- `MonitorAlert`, as a notification finds it. -/
structure MonitorAlert where
  id : ℕ
  level : String
  monitorInstanceId : String
  monitorInstanceName : String
  startEventTime : Option ℤ
  endEventTime : Option ℤ

structure Payload where
  externalId : String
  level : String
  action : EventAction
  startTime : Option ℤ
  endTime : Option ℤ
  resourceId : String
  resourceName : String

def actionToAlertCenter : NoticeAction → EventAction
  | .created => .created
  | .upgraded => .created
  | .recovered => .recovery
  | .closed => .closed

/-- `LEVEL_TO_ALERT_CENTER.get(level, "3")`. -/
def levelToAlertCenter (level : String) : String :=
  if level = "critical" then "0"
  else if level = "error" then "1"
  else if level = "warning" then "2"
  else if level = "info" then "3"
  else if level = "no_data" then "2"
  else "3"

/-- `int(t.timestamp())`. -/
def seconds (t : ℤ) : ℤ := t.tdiv 1000000

def buildAlertCenterPayload (alert : MonitorAlert) (action : NoticeAction) : Payload where
  externalId := toString alert.id
  level := levelToAlertCenter alert.level
  action := actionToAlertCenter action
  startTime := alert.startEventTime.map seconds
  endTime := alert.endEventTime.map seconds
  resourceId := alert.monitorInstanceId
  resourceName := alert.monitorInstanceName

structure Life where
  id : ℕ
  monitorInstanceId : String
  monitorInstanceName : String
  level : String
  upgrades : List String
  /-- `_update_existing_alerts_from_events` takes a level of more weight, and not `no_data`. -/
  rising : (level :: upgrades).IsChain fun l l' => levelWeight l < levelWeight l'
  named : "no_data" ∉ upgrades
  start : ℤ
  finish : ℤ
  later : start < finish
  /-- It is closed, and not recovered. -/
  closed : Bool

def Life.alert (life : Life) (level : String) (endEventTime : Option ℤ) : MonitorAlert where
  id := life.id
  level := level
  monitorInstanceId := life.monitorInstanceId
  monitorInstanceName := life.monitorInstanceName
  startEventTime := some life.start
  endEventTime := endEventTime

def Life.created (life : Life) : Payload :=
  buildAlertCenterPayload (life.alert life.level none) .created

def Life.ended (life : Life) : Payload :=
  buildAlertCenterPayload (life.alert (life.upgrades.getLastD life.level) (some life.finish))
    (if life.closed = true then .closed else .recovered)

def Life.notifications (life : Life) : List Payload :=
  life.created ::
    (life.upgrades.map fun level => buildAlertCenterPayload (life.alert level none) .upgraded) ++
      [life.ended]

/-! ### The alert center -/

structure AlertSource where
  id : ℕ
  id_ne : id ≠ 0

/-- The tables of the center, the columns of the unique constraint, and the next event. -/
structure Center where
  store : Store
  stored : Table EventId StoredEvent
  nextEventId : EventId

section Center

variable (hash : IngestFingerprint → String) (source : AlertSource)

/-- The start time of the event: `add_start_time` fills in the present. -/
def startTime (p : Payload) (receivedAt : ℤ) : ℤ :=
  match p.startTime with
  | some t => t * 1000000
  | none => receivedAt

def newEvent (p : Payload) (receivedAt : ℤ) : NewEvent where
  sourceId := source.id
  pushSourceId := "lite-monitor"
  pushSourceId_ne := by decide
  externalId := p.externalId
  action := p.action
  startTime := startTime p receivedAt
  startTimeSynthesized := p.startTime.isNone

def toEvent (p : Payload) (receivedAt : ℤ) : Event where
  sourceId := source.id
  pushSourceId := "lite-monitor"
  action := p.action
  level := p.level
  resourceId := some p.resourceId
  resourceName := some p.resourceName
  externalId := some p.externalId
  receivedAt := receivedAt
  startTime := startTime p receivedAt
  endTime := p.endTime.map (· * 1000000)

/-- `handle_recovery_events`, with the checks after the commit. -/
def handleAndCheck (recoveryEvents : List (EventId × Event)) (now : ℤ) (s : Store) : Store :=
  let linked := handleRecoveryEvents recoveryEvents s
  linked.2.foldl (fun s k => checkAndRecoverAlert k now s) linked.1

/-- `main` with one payload. For one event the lookup of `bulk_save_events` asks what the unique
constraint asks. -/
def ingest (p : Payload) (receivedAt : ℤ) (c : Center) : Center :=
  let row := storedEvent hash (newEvent source p receivedAt)
  let event := toEvent source p receivedAt
  if conflicts c.stored row = true then c
  else
    let store := { c.store with events := c.store.events.insert c.nextEventId event }
    { store :=
        if p.action = .created then store
        else handleAndCheck [(c.nextEventId, event)] receivedAt store
      stored := c.stored.insert c.nextEventId row
      nextEventId := c.nextEventId + 1 }

structure Delivery where
  n : ℕ
  receivedAt : ℤ

def deliver (life : Life) (c : Center) (d : Delivery) : Center :=
  match life.notifications[d.n]? with
  | none => c
  | some p => ingest hash source p d.receivedAt c

/-! ### What is claimed -/

/-- The center knows nothing of the alert yet. -/
structure Fresh (c : Center) (life : Life) : Prop where
  events : ∀ k e, c.store.events.lookup k = some e → e.externalId ≠ some (toString life.id)
  below : Table.Below c.store.events c.nextEventId
  keys : ∀ p ∈ life.notifications, ∀ receivedAt,
    conflicts c.stored (storedEvent hash (newEvent source p receivedAt)) = false

/-- The notifications come in, each once or more and for the first time in their order. -/
structure Course (life : Life) where
  center : Center
  fresh : Fresh hash source center life
  before : List Delivery
  in_order : (before.map (·.n)).eraseDups = List.range (life.upgrades.length + 1)
  k : AlertId
  alert : Alert
  active : alert.status.IsActive
  events_ne : alert.events ≠ []
  built : ∀ id ∈ alert.events, ∃ e,
    (before.foldl (deliver hash source life) center).store.events.lookup id = some e ∧
      e.externalId = some (toString life.id)
  endedAt : ℤ
  after : List Delivery

variable {hash source}

def Course.ready {life : Life} (course : Course hash source life) : Center :=
  let c := course.before.foldl (deliver hash source life) course.center
  { c with
    store := { c.store with
      db := { c.store.db with alerts := c.store.db.alerts.insert course.k course.alert } } }

def Course.last {life : Life} (course : Course hash source life) : Center :=
  course.after.foldl (deliver hash source life)
    (deliver hash source life course.ready ⟨life.upgrades.length + 1, course.endedAt⟩)

/-- **The center follows the monitor.** -/
structure Course.Follows {life : Life} (course : Course hash source life) : Prop where
  levels : ∀ level ∈ life.level :: life.upgrades, ∃ id e,
    course.last.store.events.lookup id = some e ∧ e.externalId = some (toString life.id) ∧
      e.action = .created ∧ e.level = levelToAlertCenter level
  recovered : ∃ alert, course.last.store.db.alerts.lookup course.k = some alert ∧
    alert.status = .autoRecovery

variable (hash source)

def ingestKey (life : Life) (action : EventAction) : String :=
  hash
    { sourceId := source.id
      pushSourceId := normalizeIngestComponent "lite-monitor"
      externalId := normalizeIngestComponent (toString life.id)
      action := action
      startTime := seconds life.start * 1000000 }

/-- The alert is not upgraded, the second of its end is after that of its start, and the hashes for
the two differ. -/
structure Kept (life : Life) : Prop where
  level : life.upgrades = []
  second : seconds life.start < seconds life.finish
  keys : ingestKey hash source life .created ≠ ingestKey hash source life life.ended.action

end Center

/-! ### The life -/

section Life

variable {life : Life} {p : Payload} {n : ℕ}

theorem ended_action : life.ended.action ≠ .created := by
  unfold Life.ended buildAlertCenterPayload
  dsimp only
  split_ifs
  · exact nofun
  · exact nofun

theorem getElem?_notifications (h : life.notifications[n]? = some p) :
    p.externalId = toString life.id ∧ p.startTime = some (seconds life.start) ∧
      (p.action = .created ∨ n = life.upgrades.length + 1 ∧ p = life.ended) := by
  unfold Life.notifications at h
  rw [List.cons_append] at h
  cases n with
  | zero =>
    obtain rfl := Option.some.inj h
    exact ⟨rfl, rfl, .inl rfl⟩
  | succ n =>
    rw [List.getElem?_cons_succ] at h
    obtain h_upgrade | ⟨h_n, rfl⟩ := Rows.of_getElem?_concat h
    · rw [List.getElem?_map] at h_upgrade
      obtain ⟨level, h_level, rfl⟩ := Option.map_eq_some_iff.mp h_upgrade
      exact ⟨rfl, rfl, .inl rfl⟩
    · rw [List.length_map] at h_n
      exact ⟨rfl, rfl, .inr ⟨congrArg (· + 1) h_n, rfl⟩⟩

theorem getElem?_ended : life.notifications[life.upgrades.length + 1]? = some life.ended := by
  unfold Life.notifications
  rw [List.cons_append, List.getElem?_cons_succ, List.getElem?_append_right (by simp)]
  simp

theorem levelToAlertCenter_of_lt {l l' : String} (h : levelWeight l < levelWeight l')
    (h_named : l' ≠ "no_data") : levelToAlertCenter l ≠ levelToAlertCenter l' := by
  unfold levelWeight at h
  unfold levelToAlertCenter
  grind

theorem levels_kept : (∀ level ∈ life.level :: life.upgrades,
    levelToAlertCenter level = levelToAlertCenter life.level) ↔ life.upgrades = [] := by
  constructor
  · intro h
    cases h_upgrades : life.upgrades with
    | nil => rfl
    | cons level levels =>
      have h_rising := life.rising
      have h_named := life.named
      rw [h_upgrades] at h h_rising h_named
      have h_lt := (List.isChain_cons_cons.mp h_rising).1
      refine absurd (h level (by simp)) (Ne.symm (levelToAlertCenter_of_lt h_lt ?_))
      exact fun h_eq => h_named (h_eq ▸ List.mem_cons_self)
  · intro h level h_level
    rw [h, List.mem_singleton] at h_level
    rw [h_level]

end Life

/-! ### One ingestion -/

section Ingestion

variable {hash : IngestFingerprint → String} {source : AlertSource} {life : Life} {c : Center}

variable (hash source) in
def lifeRow (life : Life) (action : EventAction) : StoredEvent where
  sourceId := source.id
  pushSourceId := "lite-monitor"
  ingestKey := some (ingestKey hash source life action)
  action := action

theorem storedEvent_eq {p : Payload} {n : ℕ} (h : life.notifications[n]? = some p)
    (receivedAt : ℤ) :
    storedEvent hash (newEvent source p receivedAt) = lifeRow hash source life p.action := by
  obtain ⟨h_id, h_start, -⟩ := getElem?_notifications h
  have h_ne : toString life.id ≠ "" := Py.toString_ne_empty life.id
  unfold storedEvent lifeRow
  congr 1
  simp only [buildIngressDedupKey, newEvent, buildIngestKey, startTime, ingestKey, h_id, h_start,
    source.id_ne, h_ne, Option.isNone_some, Bool.false_eq_true, if_false, or_self]

theorem conflicts_insert {stored : Table EventId StoredEvent} {action action' : EventAction}
    (k : EventId) (h_free : conflicts stored (lifeRow hash source life action') = false) :
    conflicts (stored.insert k (lifeRow hash source life action))
        (lifeRow hash source life action') = true ↔
      ingestKey hash source life action = ingestKey hash source life action' := by
  rw [conflicts_eq_true]
  constructor
  · rintro ⟨-, k', row, h_row, h_source, h_push, h_key⟩
    rw [Table.lookup_insert] at h_row
    split_ifs at h_row with h_k
    · obtain rfl := Option.some.inj h_row
      exact Option.some.inj h_key
    · rw [← Bool.not_eq_true, conflicts_eq_true] at h_free
      exact absurd ⟨rfl, k', row, h_row, h_source, h_push, h_key⟩ h_free
  · intro h_key
    exact ⟨rfl, k, _, AList.lookup_insert _, rfl, rfl, congrArg some h_key⟩

theorem conflicts_of_lookup {stored : Table EventId StoredEvent} {action : EventAction}
    {k : EventId} (h : stored.lookup k = some (lifeRow hash source life action)) :
    conflicts stored (lifeRow hash source life action) = true :=
  conflicts_eq_true.mpr ⟨rfl, k, _, h, rfl, rfl, rfl⟩

theorem foldl_deliver_known {ds : List Delivery}
    (h : ∀ d ∈ ds, ∀ p, life.notifications[d.n]? = some p →
      conflicts c.stored (lifeRow hash source life p.action) = true) :
    ds.foldl (deliver hash source life) c = c := by
  induction ds with
  | nil => rfl
  | cons d ds ih =>
    have h_here : deliver hash source life c d = c := by
      unfold deliver
      cases h_p : life.notifications[d.n]? with
      | none => rfl
      | some p =>
        have h_known := h d List.mem_cons_self p h_p
        dsimp only [ingest]
        rw [storedEvent_eq h_p, if_pos h_known]
    rw [List.foldl_cons, h_here]
    exact ih fun d' h_d' => h d' (List.mem_cons_of_mem d h_d')

/-! ### The checks after a recovery event -/

theorem lookup_handleAndCheck {s : Store} {k : AlertId} {alert : Alert} {eid : EventId} {r : Event}
    (h_row : s.db.alerts.lookup k = some alert) (h_active : alert.status.IsActive)
    (h_id : hasExternalId r = true)
    (h_created : ∃ e ∈ linkedEvents s.events alert, e.action = .created ∧
      e.externalId = r.externalId) (now : ℤ) :
    (handleAndCheck [(eid, r)] now s).events = s.events ∧
      (handleAndCheck [(eid, r)] now s).db.alerts.lookup k =
        some (checkedAlert s.events now (addEvent eid alert)) := by
  obtain ⟨e, h_e, h_action, h_same⟩ := h_created
  have h_affected : k ∈ affectedAlerts [(eid, r)] s := by
    refine Table.mem_keysWhere.mpr ⟨alert, h_row, ?_⟩
    have h_asks : asksFor r e = true := by
      simp [asksFor, h_action, h_id, h_same]
    rw [decide_eq_true_iff]
    refine ⟨h_active, List.any_eq_true.mpr ⟨e, h_e, ?_⟩⟩
    rw [List.any_cons, h_asks, Bool.true_or]
  have h_nodup : (affectedAlerts [(eid, r)] s).Nodup := Table.keysWhere_nodup _ _
  -- it is matched by the external id
  let ks := (affectedAlerts [(eid, r)] s).filter fun k =>
    linkedAny s k (·.externalId = r.externalId)
  have h_k : k ∈ ks := by
    refine List.mem_filter.mpr ⟨h_affected, ?_⟩
    unfold linkedAny
    rw [h_row, Option.any_some, List.any_eq_true]
    exact ⟨e, h_e, decide_eq_true h_same⟩
  have h_matching : matchingAlerts (affectedAlerts [(eid, r)] s) r s = ks := by
    unfold matchingAlerts
    rw [h_id, if_neg (by decide), if_pos (List.ne_nil_of_mem h_k)]
  have h_ks : ks.Nodup := h_nodup.filter _
  have h_linked : (handleRecoveryEvents [(eid, r)] s).1.db.alerts.lookup k =
      some (addEvent eid alert) := by
    unfold handleRecoveryEvents
    dsimp only
    rw [List.map_singleton, h_matching, List.foldl_cons, List.foldl_nil, linkEvent]
    dsimp only
    rw [Table.lookup_foldl_modify (fun k => k) (fun _ => addEvent eid), h_row, List.filter_eq,
      List.count_eq_one_of_mem h_ks h_k]
    rfl
  have h_checks := lookup_checks (Py.nodup_fromKeys ks) now (handleRecoveryEvents [(eid, r)] s).1 k
  rw [if_pos (Py.mem_fromKeys.mpr h_k), h_linked] at h_checks
  have h_all : (handleRecoveryEvents [(eid, r)] s).2 = Py.fromKeys ks := by
    unfold handleRecoveryEvents
    dsimp only
    rw [List.map_singleton, h_matching, List.flatMap_singleton]
  unfold handleAndCheck
  dsimp only
  rw [h_all]
  exact h_checks

theorem shouldRecover_life {linked : List Event} {receivedAt endedAt : ℤ}
    (h_linked : ∀ e ∈ linked, e = toEvent source life.created receivedAt) (h_ne : linked ≠ []) :
    shouldRecover (linked ++ [toEvent source life.ended endedAt]) = true ↔
      seconds life.start < seconds life.finish := by
  have h_id : ∀ p receivedAt, p.externalId = toString life.id →
      hasExternalId (toEvent source p receivedAt) = true := by
    intro p receivedAt h_p
    unfold hasExternalId toEvent
    rw [Option.any_some, h_p]
    exact decide_eq_true (Py.toString_ne_empty life.id)
  have h_recovery : isRecovery (toEvent source life.ended endedAt) = true := by
    unfold isRecovery toEvent Life.ended buildAlertCenterPayload
    cases life.closed with
    | false => rfl
    | true => rfl
  have h_recovers : recovers (toEvent source life.created receivedAt)
      (toEvent source life.ended endedAt) = true ↔
        seconds life.start < seconds life.finish := by
    unfold recovers
    rw [h_recovery, h_id _ _ rfl]
    simp only [Bool.true_and, Bool.and_eq_true, decide_eq_true_eq]
    change some (toString life.id) = some (toString life.id) ∧
      seconds life.start * 1000000 < seconds life.finish * 1000000 ↔ _
    rw [and_iff_right rfl]
    omega
  -- no created event recovers another
  have h_start : ∀ e e', e' ∈ linked → recovers e e' = false := by
    intro e e' h_e'
    rw [h_linked e' h_e']
    rfl
  obtain ⟨first, h_first⟩ := List.exists_mem_of_ne_nil linked h_ne
  have h_created : ∀ e ∈ linked ++ [toEvent source life.ended endedAt],
      e.action = .created → e = toEvent source life.created receivedAt := by
    intro e h_e h_action
    obtain h_old | h_end := List.mem_append.mp h_e
    · exact h_linked e h_old
    · rw [List.mem_singleton.mp h_end] at h_action
      exact absurd h_action ended_action
  have h_any : ∀ e, (linked ++ [toEvent source life.ended endedAt]).any (recovers e) =
      recovers e (toEvent source life.ended endedAt) := by
    intro e
    have h_none : linked.any (recovers e) = false :=
      List.any_eq_false.mpr fun e' h_e' => by simp [h_start e e' h_e']
    rw [List.any_append, h_none, Bool.false_or, List.any_cons, List.any_nil, Bool.or_false]
  unfold shouldRecover
  dsimp only
  rw [Bool.and_eq_true, List.all_eq_true]
  have h_first_mem : first ∈ (linked ++ [toEvent source life.ended endedAt]).filter
      (·.action = .created) := by
    refine List.mem_filter.mpr ⟨List.mem_append_left _ h_first, ?_⟩
    rw [h_linked first h_first]
    rfl
  constructor
  · rintro ⟨-, h_all⟩
    have h_here := h_all first h_first_mem
    rw [Bool.and_eq_true, h_any, h_linked first h_first] at h_here
    exact h_recovers.mp h_here.2
  · intro h_later
    refine ⟨?_, fun e h_e => ?_⟩
    · have h_some := List.ne_nil_of_mem h_first_mem
      rw [List.isEmpty_eq_false_iff.mpr h_some]
      rfl
    · obtain ⟨h_mem, h_action⟩ := List.mem_filter.mp h_e
      rw [h_created e h_mem (of_decide_eq_true h_action), h_any, h_id _ _ rfl,
        h_recovers.mpr h_later]
      rfl

end Ingestion

/-! ### The course -/

section Course

variable {hash : IngestFingerprint → String} {source : AlertSource} {life : Life}
  (course : Course hash source life)

def Course.started (receivedAt : ℤ) : Center where
  store := { course.center.store with
    events := course.center.store.events.insert course.center.nextEventId
      (toEvent source life.created receivedAt) }
  stored := course.center.stored.insert course.center.nextEventId
    (lifeRow hash source life .created)
  nextEventId := course.center.nextEventId + 1

theorem Course.before_eq : ∃ receivedAt,
    course.before.foldl (deliver hash source life) course.center = course.started receivedAt := by
  have h_order := course.in_order
  have h_mem : ∀ d ∈ course.before, d.n < life.upgrades.length + 1 := by
    intro d h_d
    rw [← List.mem_range, ← h_order, List.mem_eraseDups]
    exact List.mem_map_of_mem h_d
  cases h_before : course.before with
  | nil =>
    rw [h_before, List.map_nil, List.eraseDups_nil, List.range_succ_eq_map] at h_order
    cases h_order
  | cons d ds =>
    rw [h_before] at h_order h_mem
    rw [List.map_cons, List.eraseDups_cons, List.range_succ_eq_map, List.cons.injEq] at h_order
    have h_first : life.notifications[d.n]? = some life.created := by
      rw [h_order.1]
      rfl
    have h_new := course.fresh.keys life.created (List.mem_of_getElem? h_first) d.receivedAt
    have h_started : deliver hash source life course.center d = course.started d.receivedAt := by
      unfold deliver
      rw [h_first]
      dsimp only [ingest]
      rw [h_new, if_neg Bool.false_ne_true, if_pos (show life.created.action = .created from rfl),
        storedEvent_eq h_first]
      rfl
    refine ⟨d.receivedAt, ?_⟩
    rw [List.foldl_cons, h_started]
    refine foldl_deliver_known fun d' h_d' p h_p => ?_
    obtain ⟨-, -, h_action | ⟨h_n, -⟩⟩ := getElem?_notifications h_p
    · rw [h_action]
      exact conflicts_of_lookup (AList.lookup_insert _)
    · have h_lt := h_mem d' (List.mem_cons_of_mem d h_d')
      omega

theorem Course.eq_of_started {receivedAt : ℤ} {id : EventId} {e : Event}
    (h_row : (course.started receivedAt).store.events.lookup id = some e)
    (h_id : e.externalId = some (toString life.id)) :
    id = course.center.nextEventId ∧ e = toEvent source life.created receivedAt := by
  unfold Course.started at h_row
  dsimp only at h_row
  rw [Table.lookup_insert] at h_row
  split_ifs at h_row with h_k
  · exact ⟨h_k, (Option.some.inj h_row).symm⟩
  · exact absurd h_id (course.fresh.events id e h_row)

theorem Course.events_eq {receivedAt : ℤ}
    (h_before : course.before.foldl (deliver hash source life) course.center =
      course.started receivedAt) : ∀ id ∈ course.alert.events, id = course.center.nextEventId := by
  intro id h_id
  obtain ⟨e, h_row, h_external⟩ := course.built id h_id
  rw [h_before] at h_row
  exact (course.eq_of_started h_row h_external).1

theorem Course.last_of_collision {receivedAt : ℤ}
    (h_before : course.before.foldl (deliver hash source life) course.center =
      course.started receivedAt)
    (h_key : ingestKey hash source life .created = ingestKey hash source life life.ended.action) :
    course.last = course.ready := by
  have h_stored : course.ready.stored = (course.started receivedAt).stored := by
    unfold Course.ready
    dsimp only
    rw [h_before]
  have h_known : ∀ action, action = .created ∨ action = life.ended.action →
      conflicts course.ready.stored (lifeRow hash source life action) = true := by
    rintro action (rfl | rfl)
    · rw [h_stored]
      exact conflicts_of_lookup (AList.lookup_insert _)
    · have h_free := course.fresh.keys life.ended (List.mem_of_getElem? getElem?_ended) 0
      rw [storedEvent_eq getElem?_ended] at h_free
      rw [h_stored]
      exact (conflicts_insert _ h_free).mpr h_key
  have h_all : ∀ ds : List Delivery,
      ds.foldl (deliver hash source life) course.ready = course.ready := by
    intro ds
    refine foldl_deliver_known fun d _ p h_p => h_known p.action ?_
    obtain ⟨-, -, h_action | ⟨-, rfl⟩⟩ := getElem?_notifications h_p
    · exact .inl h_action
    · exact .inr rfl
  exact h_all (⟨life.upgrades.length + 1, course.endedAt⟩ :: course.after)

def Course.stored (receivedAt : ℤ) : Store where
  events := (course.started receivedAt).store.events.insert (course.center.nextEventId + 1)
    (toEvent source life.ended course.endedAt)
  db := { course.center.store.db with
    alerts := course.center.store.db.alerts.insert course.k course.alert }
  nextAlertId := course.center.store.nextAlertId

theorem Course.lookup_first (receivedAt : ℤ) :
    (course.stored receivedAt).events.lookup course.center.nextEventId =
      some (toEvent source life.created receivedAt) := by
  unfold Course.stored
  dsimp only
  rw [AList.lookup_insert_ne (Nat.ne_of_lt (Nat.lt_succ_self _))]
  exact AList.lookup_insert _

theorem Course.mem_linkedEvents {receivedAt : ℤ}
    (h_before : course.before.foldl (deliver hash source life) course.center =
      course.started receivedAt) :
    toEvent source life.created receivedAt ∈
      linkedEvents (course.stored receivedAt).events course.alert := by
  obtain ⟨id, h_id⟩ := List.exists_mem_of_ne_nil _ course.events_ne
  refine List.mem_filterMap.mpr ⟨id, h_id, ?_⟩
  rw [course.events_eq h_before id h_id]
  exact course.lookup_first receivedAt

theorem Course.last_of_apart {receivedAt : ℤ}
    (h_before : course.before.foldl (deliver hash source life) course.center =
      course.started receivedAt)
    (h_key : ingestKey hash source life .created ≠ ingestKey hash source life life.ended.action) :
    course.last.store = handleAndCheck
      [(course.center.nextEventId + 1, toEvent source life.ended course.endedAt)] course.endedAt
      (course.stored receivedAt) := by
  have h_free := course.fresh.keys life.ended (List.mem_of_getElem? getElem?_ended) 0
  rw [storedEvent_eq getElem?_ended] at h_free
  have h_new : conflicts (course.started receivedAt).stored
      (lifeRow hash source life life.ended.action) = false := by
    rw [← Bool.not_eq_true, Course.started, conflicts_insert _ h_free]
    exact h_key
  have h_deliver : deliver hash source life course.ready
        ⟨life.upgrades.length + 1, course.endedAt⟩ =
      { store := handleAndCheck
          [(course.center.nextEventId + 1, toEvent source life.ended course.endedAt)]
          course.endedAt (course.stored receivedAt)
        stored := (course.started receivedAt).stored.insert (course.center.nextEventId + 1)
          (lifeRow hash source life life.ended.action)
        nextEventId := course.center.nextEventId + 1 + 1 } := by
    unfold deliver Course.ready
    rw [getElem?_ended, h_before]
    dsimp only [ingest]
    rw [storedEvent_eq getElem?_ended, h_new, if_neg Bool.false_ne_true, if_neg ended_action]
    rfl
  unfold Course.last
  rw [h_deliver, foldl_deliver_known fun d _ p h_p => ?_]
  -- later deliveries find the rows of the start and of the end
  obtain ⟨-, -, h_action | ⟨-, rfl⟩⟩ := getElem?_notifications h_p
  · rw [h_action]
    refine conflicts_of_lookup (k := course.center.nextEventId) ?_
    dsimp only
    rw [AList.lookup_insert_ne (Nat.ne_of_lt (Nat.lt_succ_self _))]
    exact AList.lookup_insert _
  · exact conflicts_of_lookup (AList.lookup_insert _)

theorem Course.lookup_last {receivedAt : ℤ}
    (h_before : course.before.foldl (deliver hash source life) course.center =
      course.started receivedAt)
    (h_key : ingestKey hash source life .created ≠ ingestKey hash source life life.ended.action) :
    course.last.store.events = (course.stored receivedAt).events ∧
      course.last.store.db.alerts.lookup course.k = some (checkedAlert
        (course.stored receivedAt).events course.endedAt
        (addEvent (course.center.nextEventId + 1) course.alert)) := by
  rw [course.last_of_apart h_before h_key]
  refine lookup_handleAndCheck (AList.lookup_insert _) course.active ?_ ?_ course.endedAt
  · exact decide_eq_true (Py.toString_ne_empty life.id)
  · exact ⟨toEvent source life.created receivedAt, course.mem_linkedEvents h_before, rfl, rfl⟩

theorem Course.shouldRecover_iff {receivedAt : ℤ}
    (h_before : course.before.foldl (deliver hash source life) course.center =
      course.started receivedAt) :
    shouldRecover (linkedEvents (course.stored receivedAt).events
        (addEvent (course.center.nextEventId + 1) course.alert)) = true ↔
      seconds life.start < seconds life.finish := by
  have h_events := course.events_eq h_before
  have h_end : (course.stored receivedAt).events.lookup (course.center.nextEventId + 1) =
      some (toEvent source life.ended course.endedAt) := AList.lookup_insert _
  have h_new : course.center.nextEventId + 1 ∉ course.alert.events := fun h_mem =>
    absurd (h_events _ h_mem) (Nat.succ_ne_self _)
  have h_linked : linkedEvents (course.stored receivedAt).events
        (addEvent (course.center.nextEventId + 1) course.alert) =
      linkedEvents (course.stored receivedAt).events course.alert ++
        [toEvent source life.ended course.endedAt] := by
    unfold linkedEvents addEvent
    rw [if_neg h_new, List.filterMap_append]
    congr 1
    rw [List.filterMap_cons, h_end]
    rfl
  have h_same : ∀ e ∈ linkedEvents (course.stored receivedAt).events course.alert,
      e = toEvent source life.created receivedAt := by
    intro e h_e
    obtain ⟨id, h_id, h_row⟩ := List.mem_filterMap.mp h_e
    rw [h_events id h_id, course.lookup_first receivedAt] at h_row
    exact (Option.some.inj h_row).symm
  rw [h_linked]
  exact shouldRecover_life h_same (List.ne_nil_of_mem (course.mem_linkedEvents h_before))

theorem Course.created_last {receivedAt : ℤ}
    (h_before : course.before.foldl (deliver hash source life) course.center =
      course.started receivedAt) :
    (∃ id, course.last.store.events.lookup id =
      some (toEvent source life.created receivedAt)) ∧
    ∀ id e, course.last.store.events.lookup id = some e →
      e.externalId = some (toString life.id) → e.action = .created →
        e = toEvent source life.created receivedAt := by
  by_cases h_key : ingestKey hash source life .created =
      ingestKey hash source life life.ended.action
  · have h_store : course.last.store.events = (course.started receivedAt).store.events := by
      rw [course.last_of_collision h_before h_key]
      unfold Course.ready
      dsimp only
      rw [h_before]
    rw [h_store]
    refine ⟨⟨course.center.nextEventId, AList.lookup_insert _⟩, ?_⟩
    intro id e h_row h_id _
    exact (course.eq_of_started h_row h_id).2
  · rw [(course.lookup_last h_before h_key).1]
    refine ⟨⟨course.center.nextEventId, course.lookup_first receivedAt⟩, ?_⟩
    intro id e h_row h_id h_action
    rw [Course.stored, Table.lookup_insert] at h_row
    split_ifs at h_row with h_k
    · obtain rfl := Option.some.inj h_row
      exact absurd h_action ended_action
    · exact (course.eq_of_started h_row h_id).2

theorem Course.levels_iff : (∀ level ∈ life.level :: life.upgrades, ∃ id e,
    course.last.store.events.lookup id = some e ∧ e.externalId = some (toString life.id) ∧
      e.action = .created ∧ e.level = levelToAlertCenter level) ↔ life.upgrades = [] := by
  obtain ⟨receivedAt, h_before⟩ := course.before_eq
  obtain ⟨⟨id₀, h_first⟩, h_only⟩ := course.created_last h_before
  rw [← levels_kept]
  refine forall_congr' fun level => imp_congr_right fun _ => ?_
  constructor
  · rintro ⟨id, e, h_row, h_id, h_action, h_level⟩
    rw [← h_level, h_only id e h_row h_id h_action]
    rfl
  · intro h_level
    exact ⟨id₀, _, h_first, rfl, rfl, h_level.symm⟩

theorem Course.recovered_iff : (∃ alert, course.last.store.db.alerts.lookup course.k = some alert ∧
    alert.status = .autoRecovery) ↔
      seconds life.start < seconds life.finish ∧
        ingestKey hash source life .created ≠ ingestKey hash source life life.ended.action := by
  have h_active : course.alert.status ≠ .autoRecovery := fun h_status =>
    absurd (h_status ▸ course.active) (by decide)
  obtain ⟨receivedAt, h_before⟩ := course.before_eq
  by_cases h_key : ingestKey hash source life .created =
      ingestKey hash source life life.ended.action
  · rw [course.last_of_collision h_before h_key]
    refine iff_of_false ?_ fun h => h.2 h_key
    rintro ⟨alert, h_row, h_status⟩
    unfold Course.ready at h_row
    rw [AList.lookup_insert] at h_row
    exact h_active (Option.some.inj h_row ▸ h_status)
  · rw [(course.lookup_last h_before h_key).2, and_iff_left h_key,
      ← course.shouldRecover_iff h_before]
    unfold checkedAlert
    constructor
    · rintro ⟨alert, h_row, h_status⟩
      by_contra h_not
      rw [if_neg h_not] at h_row
      obtain rfl := Option.some.inj h_row
      exact h_active h_status
    · intro h_recover
      rw [if_pos h_recover]
      exact ⟨_, rfl, rfl⟩

end Course

/-- **When the center follows.** -/
theorem follows_iff (hash : IngestFingerprint → String) (source : AlertSource) (life : Life)
    (course : Course hash source life) : course.Follows ↔ Kept hash source life := by
  constructor
  · rintro ⟨h_levels, h_recovered⟩
    obtain ⟨h_second, h_keys⟩ := course.recovered_iff.mp h_recovered
    exact ⟨course.levels_iff.mp h_levels, h_second, h_keys⟩
  · rintro ⟨h_level, h_second, h_keys⟩
    exact ⟨course.levels_iff.mpr h_level, course.recovered_iff.mpr ⟨h_second, h_keys⟩⟩

section Examples

private def nats : AlertSource where
  id := 1
  id_ne := by decide

private def upgraded : Life where
  id := 7
  monitorInstanceId := "host-1"
  monitorInstanceName := "host-1"
  level := "warning"
  upgrades := ["error"]
  rising := by decide
  named := by decide
  start := 0
  finish := minutes 1
  later := by decide
  closed := false

private def emptyCenter : Center where
  store :=
    { events := ∅
      db :=
        { alerts := ∅, assignments := ∅, escalations := ∅, reminders := ∅, users := [],
          outbox := [] }
      nextAlertId := 0 }
  stored := ∅
  nextEventId := 0

private def byAction (f : IngestFingerprint) : String :=
  match f.action with
  | .created => "a"
  | .recovery => "b"
  | .closed => "c"

private theorem fresh_emptyCenter (life : Life) : Fresh byAction nats emptyCenter life where
  events k e h_row := by cases h_row
  below k _ := by rfl
  keys p _ receivedAt := by
    rw [← Bool.not_eq_true, conflicts_eq_true]
    rintro ⟨-, k, row, h_row, -⟩
    cases h_row

private def onceEach : Course byAction nats upgraded where
  center := emptyCenter
  fresh := fresh_emptyCenter upgraded
  before := [⟨0, 0⟩, ⟨1, 0⟩]
  in_order := by decide
  k := 0
  alert := { events := [0] }
  active := by decide
  events_ne := by decide
  built := by
    intro id h_id
    obtain rfl := List.mem_singleton.mp h_id
    have h_first : (([⟨0, 0⟩, ⟨1, 0⟩].foldl (deliver byAction nats upgraded)
        emptyCenter).store.events.lookup 0).any (·.externalId = some (toString upgraded.id)) =
          true := by
      decide +kernel
    obtain ⟨e, h_row, h_id⟩ := (Option.any_eq_true _ _).mp h_first
    exact ⟨e, h_row, of_decide_eq_true h_id⟩
  endedAt := minutes 1
  after := []

theorem not_follows : ¬∀ hash source (life : Life) (course : Course hash source life),
    course.Follows := by
  intro h
  obtain ⟨h_levels, -⟩ := h byAction nats upgraded onceEach
  exact List.cons_ne_nil _ _ (onceEach.levels_iff.mp h_levels)

end Examples

end MonitorLife
end Alerts
