import BkLite.Alerts.OperatorScope
import BkLite.Framework.Runs

/-!
# Instant alerts

`_bulk_build_instant_alerts` of `aggregation/processor/instant_dispatcher.py`, and
the sequence of calls that the synchronous dispatch and the Celery task make of it.

A call sorts its hits into one bucket per strategy. A bucket drops the events whose
fingerprint an active alert has already, builds one alert for each of the others and
inserts alerts and links in one transaction. `alert_id` alone is unique in the
database, and it is fresh, so `ignore_conflicts` never skips a row: what keeps two
active alerts of one pair apart is the filter, and it reads the database, not the
rows that the bucket is about to insert.

An alert belongs to a pair of strategy and event by its rule and its fingerprint;
nothing is assumed of `md5`. The numbers that stand for `uuid4` are given in order.
-/

namespace Alerts
namespace InstantAlerts

open Py Runs

abbrev StrategyId := ℕ

structure InstantHit where
  strategyId : StrategyId
  eventId : EventId
deriving DecidableEq

structure InstantStrategy where
  params : Value := .dict []
  dispatchTeam : Value := .list []

/-- The tables a call reads and writes, and the next unused `alert_id`. -/
structure Store where
  strategies : Table StrategyId InstantStrategy
  events : Table EventId Event
  alerts : Table AlertId Alert
  nextAlertId : AlertId

/-! ### Building a row -/

/-- `str.format(**context)`. -/
abbrev Format := String → List (String × String) → Except PyError String

def templateContext (event : Event) : List (String × String) :=
  [("service", event.service.getD ""), ("location", event.location.getD ""),
   ("resource_name", event.resourceName.getD ""), ("resource_id", event.resourceId.getD ""),
   ("resource_type", event.resourceType.getD ""), ("item", event.item.getD ""),
   ("title", event.title), ("level", event.level), ("external_id", event.externalId.getD "")]

/-- `_render_template`. An invalid placeholder leaves the template as it is. -/
def renderTemplate (format : Format) (template : Value) (event : Event) :
    Except PyError String :=
  match template with
  | .str text =>
    if text = "" then .ok ""
    else
      match format text (templateContext event) with
      | .ok rendered => .ok rendered
      | .error .keyError | .error .indexError | .error .valueError => .ok text
      | .error e => .error e
  | other => if other.truthy then .error .attributeError else .ok ""

/-- `text or default`. -/
def textOr (text default : String) : String :=
  if text = "" then default else text

/-- `_build_alert_row`, but for the fresh `alert_id`. -/
def buildAlertRow (format : Format) (sid : StrategyId) (strategy : InstantStrategy)
    (event : Event) (fingerprint : String) : Except PyError Alert := do
  let params := strategy.params.orElse (.dict [])
  let template := (← params.get "alert_template").orElse (.dict [])
  let renderedTitle ← renderTemplate format (← template.get "title") event
  let renderedDesc ← renderTemplate format (← template.get "description") event
  return {
    fingerprint := fingerprint
    ruleId := some (toString sid)
    groupByField := some "instant"
    status := .unassigned
    level := event.level
    title := textOr renderedTitle (textOr event.title "即时告警")
    content := textOr renderedDesc (event.description.getD "")
    firstEventTime := some event.receivedAt
    lastEventTime := some event.receivedAt
    item := event.item
    resourceId := event.resourceId
    resourceName := event.resourceName
    resourceType := event.resourceType
    sourceName := some event.sourceName
    labels := event.labels.orElse (.dict [])
    team := safeTeam strategy.dispatchTeam }

section Build

variable (md5 : String → String) (format : Format)

def buildFingerprint (sid : StrategyId) (eid : EventId) : String :=
  md5 ("instant:" ++ toString sid ++ ":" ++ toString eid)

/-! ### A call -/

/-- The hits of one strategy, as `by_sid` collects them. -/
structure Bucket where
  sid : StrategyId
  strategy : InstantStrategy
  evtList : List (EventId × Event)

def eventsOf (s : Store) (hits : List InstantHit) (sid : StrategyId) : List (EventId × Event) :=
  (hits.filter (·.strategyId = sid)).filterMap fun hit =>
    (s.events.lookup hit.eventId).map fun event => (hit.eventId, event)

/-- The buckets of a call, in the order in which the strategies are first hit. A hit
on an unknown strategy or event is dropped. -/
def buckets (s : Store) (hits : List InstantHit) : List Bucket :=
  ((fromKeys (hits.map (·.strategyId))).filterMap fun sid =>
    (s.strategies.lookup sid).map fun strategy =>
      { sid := sid, strategy := strategy, evtList := eventsOf s hits sid }).filter
    fun b => b.evtList ≠ []

inductive Outcome
  | commits
  /-- `bulk_create` of the alerts raises. -/
  | createFails
  /-- `bulk_create` of the links raises, after the ids have been collected. -/
  | linkFails
  /-- The worker dies. -/
  | crashes
deriving DecidableEq

structure Progress where
  store : Store
  createdAlertIds : List AlertId
  /-- The call has ended with an exception. -/
  raised : Bool

def fingerprintActive (s : Store) (fp : String) : Bool :=
  Table.keysWhere s.alerts (fun alert => alert.fingerprint = fp ∧ alert.status.IsActive) ≠ []

def Bucket.fingerprint (b : Bucket) (e : EventId × Event) : String :=
  buildFingerprint md5 b.sid e.1

def newEventsWithFp (s : Store) (b : Bucket) : List (EventId × Event) :=
  b.evtList.filter fun e => !fingerprintActive s (b.fingerprint md5 e)

def alertsToCreate (s : Store) (b : Bucket) : Except PyError (List Alert) :=
  (newEventsWithFp md5 s b).mapM fun e =>
    buildAlertRow format b.sid b.strategy e.2 (b.fingerprint md5 e)

/-- The entry of `fp_to_event`: the last event with the fingerprint. -/
def fpToEvent (s : Store) (b : Bucket) (fp : String) : Option (EventId × Event) :=
  (newEventsWithFp md5 s b).reverse.find? fun e => b.fingerprint md5 e = fp

def linked (s : Store) (b : Bucket) (rows : List Alert) : List Alert :=
  rows.map fun row =>
    { row with events := ((fpToEvent md5 s b row.fingerprint).map (·.1)).toList }

/-- The transaction of a bucket, given its `alerts_to_create`. -/
def bucketTransaction (outcome : Outcome) (p : Progress) (b : Bucket) (rows : List Alert) :
    Progress :=
  let base := p.store.nextAlertId
  let ids := (List.range rows.length).map (base + ·)
  let used := { p.store with nextAlertId := base + rows.length }
  match outcome with
  | .commits =>
    { p with
      store := { used with
        alerts := p.store.alerts.insertRows base (linked md5 p.store b rows) }
      createdAlertIds := p.createdAlertIds ++ ids }
  | .createFails => { p with store := used }
  | .linkFails => { p with store := used, createdAlertIds := p.createdAlertIds ++ ids }
  | .crashes => { p with store := used, raised := true }

def bucketStep (outcome : StrategyId → Outcome) (p : Progress) (b : Bucket) : Progress :=
  if p.raised then p
  else if newEventsWithFp md5 p.store b = [] then p
  else
    match alertsToCreate md5 format p.store b with
    | .error _ => { p with raised := true }
    | .ok rows => bucketTransaction md5 (outcome b.sid) p b rows

def Progress.start (s : Store) : Progress := { store := s, createdAlertIds := [], raised := false }

/-- `_bulk_build_instant_alerts`. It returns the ids, unless it has raised. -/
def bulkBuildInstantAlerts (outcome : StrategyId → Outcome) (hits : List InstantHit) (s : Store) :
    Progress :=
  run (bucketStep md5 format outcome) (.start s) (buckets s hits)

/-! ### Sequences of calls -/

/-- What happens to the tables: a call, or a change that others make in between. -/
inductive Action
  | deliver (hits : List InstantHit) (outcome : StrategyId → Outcome)
  | other (s : Store)

def step (s : Store) : Action → Store
  | .deliver hits outcome => (bulkBuildInstantAlerts md5 format outcome hits s).store
  | .other s' => s'

/-! ### What the calls promise -/

def BuiltFor (sid : StrategyId) (eid : EventId) (alert : Alert) : Prop :=
  alert.groupByField = some "instant" ∧ alert.ruleId = some (toString sid) ∧
    alert.fingerprint = buildFingerprint md5 sid eid

def ActiveFor (s : Store) (sid : StrategyId) (eid : EventId) (k : AlertId) : Prop :=
  ∃ alert, s.alerts.lookup k = some alert ∧ alert.status.IsActive ∧ BuiltFor md5 sid eid alert

def UniqueActive (s : Store) : Prop :=
  ∀ sid eid k k', ActiveFor md5 s sid eid k → ActiveFor md5 s sid eid k' → k = k'

/-- The alert did not exist in `s₀`; it was built from the event of one of the hits
and is linked to exactly that event. -/
def CreatedFrom (s₀ : Store) (hits : List InstantHit) (s : Store) (k : AlertId) : Prop :=
  s₀.alerts.lookup k = none ∧
    ∃ hit ∈ hits, ∃ strategy event row,
      s₀.strategies.lookup hit.strategyId = some strategy ∧
      s₀.events.lookup hit.eventId = some event ∧
      buildAlertRow format hit.strategyId strategy event
        (buildFingerprint md5 hit.strategyId hit.eventId) = .ok row ∧
      s.alerts.lookup k = some { row with events := [hit.eventId] }

/-- What holds between two buckets of a call from `s₀`. -/
structure Right (s₀ : Store) (hits : List InstantHit) (p : Progress) : Prop where
  unique : UniqueActive md5 p.store
  created : ∀ k ∈ p.createdAlertIds, CreatedFrom md5 format s₀ hits p.store k

/-- The fingerprints to insert are distinct, and no id is collected for a row that is rolled
back. -/
def BucketFits (outcome : StrategyId → Outcome) (p : Progress) (b : Bucket) : Prop :=
  p.raised = false → newEventsWithFp md5 p.store b ≠ [] →
    (∃ rows, alertsToCreate md5 format p.store b = .ok rows) →
    match outcome b.sid with
    | .commits => ((newEventsWithFp md5 p.store b).map (b.fingerprint md5)).Nodup
    | .createFails | .crashes => True
    | .linkFails => False

/-- A delivery is right at each of its moments, and the pairs are apart after every
other step. -/
def DeliveryRight (s : Store) : Action → Store → Prop
  | .deliver hits outcome, _ =>
    Always (bucketStep md5 format outcome) (Right md5 format s hits) (.start s) (buckets s hits)
  | .other _, s' => UniqueActive md5 s'

/-- Every bucket of a delivery meets its condition. -/
def DeliveryFits (s : Store) : Action → Store → Prop
  | .deliver hits outcome, _ =>
    Along (bucketStep md5 format outcome) (fun p b _ => BucketFits md5 format outcome p b)
      (.start s) (buckets s hits)
  | .other _, _ => True

/-- A delivery of hits whose alerts are all active creates and returns nothing. -/
def RedeliveryIdle (s : Store) : Action → Store → Prop
  | .deliver hits outcome, _ =>
    (∀ hit ∈ hits, (s.strategies.lookup hit.strategyId).isSome →
        (s.events.lookup hit.eventId).isSome →
        ∃ k, ActiveFor md5 s hit.strategyId hit.eventId k) →
      bulkBuildInstantAlerts md5 format outcome hits s = .start s
  | .other _, _ => True

/-- The numbers from `nextAlertId` on are unused. -/
def Numbered (s : Store) : Prop :=
  Table.Below s.alerts s.nextAlertId

/-- Others neither build nor reactivate an instant alert. -/
def OthersFrame (s : Store) : Action → Store → Prop
  | .deliver _ _, _ => True
  | .other s', _ => Numbered s' ∧
    ∀ sid eid k, ActiveFor md5 s' sid eid k → ActiveFor md5 s sid eid k

end Build

/-! ### The rows of a bucket -/

section Rows

variable {md5 : String → String} {format : Format} {s : Store} {b : Bucket} {rows : List Alert}

theorem buildAlertRow_eq_ok {sid : StrategyId} {strategy : InstantStrategy} {event : Event}
    {fp : String} {row : Alert} (h : buildAlertRow format sid strategy event fp = .ok row) :
    row.groupByField = some "instant" ∧ row.ruleId = some (toString sid) ∧
      row.fingerprint = fp ∧ row.status = .unassigned := by
  unfold buildAlertRow at h
  obtain ⟨template, -, h⟩ := bind_eq_ok.mp h
  obtain ⟨title, -, h⟩ := bind_eq_ok.mp h
  obtain ⟨renderedTitle, -, h⟩ := bind_eq_ok.mp h
  obtain ⟨description, -, h⟩ := bind_eq_ok.mp h
  obtain ⟨renderedDesc, -, h⟩ := bind_eq_ok.mp h
  cases h
  exact ⟨rfl, rfl, rfl, rfl⟩

theorem fingerprintActive_eq_true {fp : String} :
    fingerprintActive s fp = true ↔
      ∃ k alert, s.alerts.lookup k = some alert ∧ alert.fingerprint = fp ∧
        alert.status.IsActive := by
  unfold fingerprintActive
  rw [decide_eq_true_iff, ne_eq, List.eq_nil_iff_forall_not_mem]
  push Not
  simp only [Table.mem_keysWhere, decide_eq_true_iff]

theorem alertsToCreate_forall₂ (h : alertsToCreate md5 format s b = .ok rows) :
    List.Forall₂ (fun e row => buildAlertRow format b.sid b.strategy e.2 (b.fingerprint md5 e) =
      .ok row) (newEventsWithFp md5 s b) rows := by
  unfold alertsToCreate at h
  generalize newEventsWithFp md5 s b = es at h ⊢
  induction es generalizing rows with
  | nil =>
    cases h
    exact .nil
  | cons e es ih =>
    rw [List.mapM_cons] at h
    obtain ⟨row, h_row, h⟩ := bind_eq_ok.mp h
    obtain ⟨rest, h_rest, h⟩ := bind_eq_ok.mp h
    cases h
    exact .cons h_row (ih h_rest)

theorem event_of_row (h : alertsToCreate md5 format s b = .ok rows) {i : ℕ} {row : Alert}
    (h_row : rows[i]? = some row) :
    ∃ e, (newEventsWithFp md5 s b)[i]? = some e ∧
      buildAlertRow format b.sid b.strategy e.2 (b.fingerprint md5 e) = .ok row := by
  obtain ⟨h_length, h_all⟩ := List.forall₂_iff_get.mp (alertsToCreate_forall₂ h)
  obtain ⟨h_i, rfl⟩ := List.getElem?_eq_some_iff.mp h_row
  have h_event : i < (newEventsWithFp md5 s b).length := h_length ▸ h_i
  exact ⟨_, List.getElem?_eq_getElem h_event, h_all i h_event h_i⟩

theorem row_of_event (h : alertsToCreate md5 format s b = .ok rows) {i : ℕ}
    {e : EventId × Event} (h_event : (newEventsWithFp md5 s b)[i]? = some e) :
    ∃ row, rows[i]? = some row ∧
      buildAlertRow format b.sid b.strategy e.2 (b.fingerprint md5 e) = .ok row := by
  obtain ⟨h_length, h_all⟩ := List.forall₂_iff_get.mp (alertsToCreate_forall₂ h)
  obtain ⟨h_i, rfl⟩ := List.getElem?_eq_some_iff.mp h_event
  have h_row : i < rows.length := h_length ▸ h_i
  exact ⟨_, List.getElem?_eq_getElem h_row, h_all i h_i h_row⟩

theorem fpToEvent_of_nodup
    (h_nodup : ((newEventsWithFp md5 s b).map (b.fingerprint md5)).Nodup)
    {e : EventId × Event} (h_mem : e ∈ newEventsWithFp md5 s b) :
    fpToEvent md5 s b (b.fingerprint md5 e) = some e := by
  unfold fpToEvent
  have h_found : ((newEventsWithFp md5 s b).reverse.find?
      fun e' => b.fingerprint md5 e' = b.fingerprint md5 e).isSome := by
    rw [List.find?_isSome]
    exact ⟨e, List.mem_reverse.mpr h_mem, decide_eq_true rfl⟩
  obtain ⟨e', h_find⟩ := Option.isSome_iff_exists.mp h_found
  have h_mem' := List.mem_reverse.mp (List.mem_of_find?_eq_some h_find)
  have h_fp : b.fingerprint md5 e' = b.fingerprint md5 e := by
    simpa using List.find?_some h_find
  rw [h_find, List.inj_on_of_nodup_map h_nodup h_mem' h_mem h_fp]

theorem linked_getElem? (i : ℕ) :
    (linked md5 s b rows)[i]? = rows[i]?.map fun row =>
      { row with events := ((fpToEvent md5 s b row.fingerprint).map (·.1)).toList } :=
  List.getElem?_map

theorem length_linked : (linked md5 s b rows).length = rows.length :=
  List.length_map _

end Rows

/-! ### One bucket -/

section Bucket

variable {md5 : String → String} {format : Format} {outcome : StrategyId → Outcome}
  {s₀ : Store} {hits : List InstantHit} {p : Progress} {b : Bucket} {rows : List Alert}

theorem mem_buckets (h : b ∈ buckets s₀ hits) :
    s₀.strategies.lookup b.sid = some b.strategy ∧
      ∀ e ∈ b.evtList, s₀.events.lookup e.1 = some e.2 ∧ ⟨b.sid, e.1⟩ ∈ hits := by
  obtain ⟨sid, -, h_bucket⟩ := List.mem_filterMap.mp (List.mem_filter.mp h).1
  obtain ⟨strategy, h_strategy, rfl⟩ := Option.map_eq_some_iff.mp h_bucket
  refine ⟨h_strategy, fun e h_mem => ?_⟩
  obtain ⟨hit, h_hit, h_found⟩ := List.mem_filterMap.mp h_mem
  obtain ⟨event, h_event, rfl⟩ := Option.map_eq_some_iff.mp h_found
  rw [List.mem_filter, decide_eq_true_iff] at h_hit
  obtain ⟨h_hit, rfl⟩ := h_hit
  exact ⟨h_event, h_hit⟩

/-- The numbers a call has not used are unused, and so were they when it began. -/
structure Kept (s₀ : Store) (p : Progress) : Prop where
  numbered : Numbered p.store
  start_le : s₀.nextAlertId ≤ p.store.nextAlertId

theorem Kept.bucketTransaction (h : Kept s₀ p) (outcome : Outcome) :
    Kept s₀ (bucketTransaction md5 outcome p b rows) := by
  have h_le : p.store.nextAlertId ≤ p.store.nextAlertId + rows.length := Nat.le_add_right _ _
  have h_same : Table.Below p.store.alerts (p.store.nextAlertId + rows.length) :=
    h.numbered.mono h_le
  cases outcome with
  | commits =>
    refine ⟨?_, h.start_le.trans h_le⟩
    have h_new := Table.below_insertRows h.numbered (linked md5 p.store b rows)
    rw [length_linked] at h_new
    exact h_new
  | createFails => exact ⟨h_same, h.start_le.trans h_le⟩
  | linkFails => exact ⟨h_same, h.start_le.trans h_le⟩
  | crashes => exact ⟨h_same, h.start_le.trans h_le⟩

theorem Kept.bucketStep (h : Kept s₀ p) (b : Bucket) :
    Kept s₀ (bucketStep md5 format outcome p b) := by
  unfold InstantAlerts.bucketStep
  split_ifs
  · exact h
  · exact h
  · split
    · exact ⟨h.numbered, h.start_le⟩
    · exact h.bucketTransaction _

theorem Right.congr {p' : Progress} (h : Right md5 format s₀ hits p)
    (h_alerts : p'.store.alerts = p.store.alerts)
    (h_ids : p'.createdAlertIds = p.createdAlertIds) : Right md5 format s₀ hits p' := by
  refine ⟨?_, ?_⟩
  · unfold UniqueActive ActiveFor
    rw [h_alerts]
    exact h.unique
  · unfold CreatedFrom
    rw [h_alerts, h_ids]
    exact h.created

theorem lookup_commits (h : Kept s₀ p) {k : AlertId} {alert : Alert}
    (h_row : (bucketTransaction md5 .commits p b rows).store.alerts.lookup k = some alert) :
    (k < p.store.nextAlertId ∧ p.store.alerts.lookup k = some alert) ∨
      ∃ i, k = p.store.nextAlertId + i ∧ (linked md5 p.store b rows)[i]? = some alert :=
  Table.lookup_insertRows_eq_some h.numbered h_row

theorem lookup_commits_add (h : Kept s₀ p) (i : ℕ) :
    (bucketTransaction md5 .commits p b rows).store.alerts.lookup (p.store.nextAlertId + i) =
      (linked md5 p.store b rows)[i]? :=
  Table.lookup_insertRows_add h.numbered _ i

theorem CreatedFrom.commits {k : AlertId} (h_created : CreatedFrom md5 format s₀ hits p.store k)
    (h : Kept s₀ p) :
    CreatedFrom md5 format s₀ hits (bucketTransaction md5 .commits p b rows).store k := by
  obtain ⟨h_fresh, hit, h_hit, strategy, event, row, h_strategy, h_event, h_build, h_row⟩ :=
    h_created
  refine ⟨h_fresh, hit, h_hit, strategy, event, row, h_strategy, h_event, h_build, ?_⟩
  have h_old : k < p.store.nextAlertId := h.numbered.lt h_row
  exact (Table.lookup_insertRows_of_lt _ h_old).trans h_row

theorem linked_eq_some (h_rows : alertsToCreate md5 format p.store b = .ok rows) {i : ℕ}
    {alert : Alert} (h_alert : (linked md5 p.store b rows)[i]? = some alert) :
    ∃ e row, (newEventsWithFp md5 p.store b)[i]? = some e ∧
      buildAlertRow format b.sid b.strategy e.2 (b.fingerprint md5 e) = .ok row ∧
      alert = { row with
        events := ((fpToEvent md5 p.store b (b.fingerprint md5 e)).map (·.1)).toList } := by
  rw [linked_getElem?] at h_alert
  obtain ⟨row, h_row, rfl⟩ := Option.map_eq_some_iff.mp h_alert
  obtain ⟨e, h_event, h_build⟩ := event_of_row h_rows h_row
  have h_fp : row.fingerprint = b.fingerprint md5 e := (buildAlertRow_eq_ok h_build).2.2.1
  refine ⟨e, row, h_event, h_build, ?_⟩
  rw [h_fp]

theorem activeFor_new (h : Kept s₀ p) (h_rows : alertsToCreate md5 format p.store b = .ok rows)
    {i : ℕ} {e : EventId × Event} (h_event : (newEventsWithFp md5 p.store b)[i]? = some e)
    {eid : EventId} (h_fp : b.fingerprint md5 e = buildFingerprint md5 b.sid eid) :
    ActiveFor md5 (bucketTransaction md5 .commits p b rows).store b.sid eid
      (p.store.nextAlertId + i) := by
  obtain ⟨row, h_row, h_build⟩ := row_of_event h_rows h_event
  obtain ⟨h_group, h_rule, h_print, h_status⟩ := buildAlertRow_eq_ok h_build
  refine ⟨{ row with
      events := ((fpToEvent md5 p.store b row.fingerprint).map (·.1)).toList },
    ?_, ?_, h_group, h_rule, h_print.trans h_fp⟩
  · rw [lookup_commits_add h, linked_getElem?, h_row]
    rfl
  · show row.status.IsActive
    rw [h_status]
    decide

theorem activeFor_commits (h : Kept s₀ p)
    (h_rows : alertsToCreate md5 format p.store b = .ok rows) {sid : StrategyId}
    {eid : EventId} {k : AlertId}
    (h_active : ActiveFor md5 (bucketTransaction md5 .commits p b rows).store sid eid k) :
    (k < p.store.nextAlertId ∧ ActiveFor md5 p.store sid eid k) ∨
      ∃ i e, k = p.store.nextAlertId + i ∧ (newEventsWithFp md5 p.store b)[i]? = some e ∧
        b.fingerprint md5 e = buildFingerprint md5 sid eid := by
  obtain ⟨alert, h_row, h_status, h_built⟩ := h_active
  rcases lookup_commits h h_row with ⟨h_old, h_row⟩ | ⟨i, h_key, h_alert⟩
  · exact Or.inl ⟨h_old, alert, h_row, h_status, h_built⟩
  · obtain ⟨e, row, h_event, h_build, rfl⟩ := linked_eq_some h_rows h_alert
    obtain ⟨-, -, h_print, -⟩ := buildAlertRow_eq_ok h_build
    exact Or.inr ⟨i, e, h_key, h_event, h_print.symm.trans h_built.2.2⟩

theorem not_activeFor_of_new {e : EventId × Event}
    (h_mem : e ∈ newEventsWithFp md5 p.store b) {sid : StrategyId} {eid : EventId} {k : AlertId}
    (h_fp : b.fingerprint md5 e = buildFingerprint md5 sid eid) :
    ¬ActiveFor md5 p.store sid eid k := by
  rintro ⟨alert, h_row, h_status, -, -, h_print⟩
  have h_not := (List.mem_filter.mp h_mem).2
  rw [Bool.not_eq_true', ← Bool.not_eq_true, fingerprintActive_eq_true] at h_not
  exact h_not ⟨k, alert, h_row, h_print.trans h_fp.symm, h_status⟩

theorem uniqueActive_commits_iff (h : Kept s₀ p) (h_unique : UniqueActive md5 p.store)
    (h_rows : alertsToCreate md5 format p.store b = .ok rows) :
    UniqueActive md5 (bucketTransaction md5 .commits p b rows).store ↔
      ((newEventsWithFp md5 p.store b).map (b.fingerprint md5)).Nodup := by
  rw [List.nodup_iff_getElem?_ne_getElem?]
  constructor
  · -- two rows with one fingerprint are two active alerts of one pair
    intro h_after i j h_lt h_j h_same
    rw [List.length_map] at h_j
    have h_i : i < (newEventsWithFp md5 p.store b).length := h_lt.trans h_j
    have h_event_i := List.getElem?_eq_getElem h_i
    have h_event_j := List.getElem?_eq_getElem h_j
    rw [List.getElem?_map, List.getElem?_map, h_event_i, h_event_j] at h_same
    have h_fp := Option.some.inj h_same
    have h_first := activeFor_new h h_rows h_event_i rfl
    have h_second := activeFor_new h h_rows h_event_j h_fp.symm
    have h_eq : i = j := Nat.add_left_cancel (h_after _ _ _ _ h_first h_second)
    exact absurd h_eq (Nat.ne_of_lt h_lt)
  · intro h_nodup sid eid k k' h_k h_k'
    rcases activeFor_commits h h_rows h_k with ⟨-, h_old⟩ | ⟨i, e, rfl, h_event, h_fp⟩
    · rcases activeFor_commits h h_rows h_k' with ⟨-, h_old'⟩ | ⟨j, e', rfl, h_event', h_fp'⟩
      · exact h_unique sid eid k k' h_old h_old'
      · have h_mem := List.mem_of_getElem? h_event'
        exact absurd h_old (not_activeFor_of_new h_mem h_fp')
    · have h_mem := List.mem_of_getElem? h_event
      rcases activeFor_commits h h_rows h_k' with ⟨-, h_old'⟩ | ⟨j, e', rfl, h_event', h_fp'⟩
      · exact absurd h_old' (not_activeFor_of_new h_mem h_fp)
      · -- both are new: one fingerprint stands at one place only
        have h_same : ((newEventsWithFp md5 p.store b).map (b.fingerprint md5))[i]? =
            ((newEventsWithFp md5 p.store b).map (b.fingerprint md5))[j]? := by
          rw [List.getElem?_map, List.getElem?_map, h_event, h_event', Option.map_some,
            Option.map_some, h_fp, h_fp']
        have h_i := (List.getElem?_eq_some_iff.mp h_event).1
        have h_j := (List.getElem?_eq_some_iff.mp h_event').1
        rcases Nat.lt_trichotomy i j with h_lt | h_eq | h_gt
        · exact absurd h_same (h_nodup i j h_lt (by rw [List.length_map]; exact h_j))
        · rw [h_eq]
        · exact absurd h_same.symm (h_nodup j i h_gt (by rw [List.length_map]; exact h_i))

theorem createdFrom_commits (h : Kept s₀ p) (h_start : Numbered s₀)
    (h_rows : alertsToCreate md5 format p.store b = .ok rows) (h_bucket : b ∈ buckets s₀ hits)
    (h_nodup : ((newEventsWithFp md5 p.store b).map (b.fingerprint md5)).Nodup) {i : ℕ}
    (h_i : i < rows.length) :
    CreatedFrom md5 format s₀ hits (bucketTransaction md5 .commits p b rows).store
      (p.store.nextAlertId + i) := by
  obtain ⟨e, h_event, h_build⟩ := event_of_row h_rows (List.getElem?_eq_getElem h_i)
  have h_new := List.mem_of_getElem? h_event
  obtain ⟨h_strategy, h_events⟩ := mem_buckets h_bucket
  obtain ⟨h_known, h_hit⟩ := h_events e (List.mem_filter.mp h_new).1
  have h_fresh : s₀.alerts.lookup (p.store.nextAlertId + i) = none :=
    h_start _ (h.start_le.trans (Nat.le_add_right _ _))
  refine ⟨h_fresh, _, h_hit, b.strategy, e.2, rows[i], h_strategy, h_known, h_build, ?_⟩
  have h_fp : rows[i].fingerprint = b.fingerprint md5 e := (buildAlertRow_eq_ok h_build).2.2.1
  rw [lookup_commits_add h, linked_getElem?, List.getElem?_eq_getElem h_i, Option.map_some,
    h_fp, fpToEvent_of_nodup h_nodup h_new]
  rfl

theorem bucketStep_right_iff (h : Kept s₀ p) (h_start : Numbered s₀)
    (h_bucket : b ∈ buckets s₀ hits) (h_right : Right md5 format s₀ hits p) :
    Right md5 format s₀ hits (bucketStep md5 format outcome p b) ↔
      BucketFits md5 format outcome p b := by
  unfold bucketStep BucketFits
  split_ifs with h_raised h_none
  · simp [h_raised, h_right]
  · simp [h_none, h_right]
  have h_running : p.raised = false := Bool.eq_false_iff.mpr h_raised
  cases h_rows : alertsToCreate md5 format p.store b with
  | error e =>
    refine iff_of_true (h_right.congr rfl rfl) ?_
    rintro - - ⟨rows, h_ok⟩
    cases h_ok
  | ok rows =>
    have h_goal : ∀ P : Prop, (p.raised = false → newEventsWithFp md5 p.store b ≠ [] →
        (∃ rows', Except.ok rows = (Except.ok rows' : Except PyError (List Alert))) → P) ↔ P :=
      fun P => ⟨fun h_imp => h_imp h_running h_none ⟨rows, rfl⟩, fun h_P _ _ _ => h_P⟩
    rw [h_goal]
    cases outcome b.sid with
    | commits =>
      refine ⟨fun h_after => (uniqueActive_commits_iff h h_right.unique h_rows).mp h_after.unique,
        fun h_nodup => ⟨(uniqueActive_commits_iff h h_right.unique h_rows).mpr h_nodup, ?_⟩⟩
      intro k h_k
      rcases List.mem_append.mp h_k with h_old | h_new
      · exact (h_right.created k h_old).commits h
      · obtain ⟨i, h_i, rfl⟩ := List.mem_map.mp h_new
        exact createdFrom_commits h h_start h_rows h_bucket h_nodup (List.mem_range.mp h_i)
    | createFails => exact iff_of_true (h_right.congr rfl rfl) trivial
    | crashes => exact iff_of_true (h_right.congr rfl rfl) trivial
    | linkFails =>
      -- the first id is collected, and its row is rolled back
      refine iff_of_false (fun h_after => ?_) id
      obtain ⟨e, h_mem⟩ := List.exists_mem_of_ne_nil _ h_none
      obtain ⟨i, h_event⟩ := List.mem_iff_getElem?.mp h_mem
      obtain ⟨row, h_row, -⟩ := row_of_event h_rows h_event
      have h_i := (List.getElem?_eq_some_iff.mp h_row).1
      have h_id : p.store.nextAlertId + i ∈
          (bucketTransaction md5 .linkFails p b rows).createdAlertIds :=
        List.mem_append_right _ (List.mem_map.mpr ⟨i, List.mem_range.mpr h_i, rfl⟩)
      obtain ⟨-, _, -, _, _, _, -, -, -, h_found⟩ := h_after.created _ h_id
      have h_missing : p.store.alerts.lookup (p.store.nextAlertId + i) = none :=
        h.numbered _ (Nat.le_add_right _ _)
      rw [show (bucketTransaction md5 .linkFails p b rows).store.alerts = p.store.alerts from rfl,
        h_missing] at h_found
      cases h_found

end Bucket

/-! ### Sequences of calls -/

section Deliveries

variable {md5 : String → String} {format : Format} {outcome : StrategyId → Outcome}
  {s : Store} {hits : List InstantHit}

theorem Right.start (h_unique : UniqueActive md5 s) : Right md5 format s hits (.start s) :=
  ⟨h_unique, fun _ h_k => absurd h_k List.not_mem_nil⟩

/-- **One call** is right at every moment exactly if each of its buckets meets the
condition. -/
theorem delivery_right_iff (h_start : Numbered s) (h_unique : UniqueActive md5 s) :
    Always (bucketStep md5 format outcome) (Right md5 format s hits) (.start s) (buckets s hits) ↔
      Along (bucketStep md5 format outcome) (fun p b _ => BucketFits md5 format outcome p b)
        (.start s) (buckets s hits) := by
  have h_kept : Kept s (.start s) := ⟨h_start, Nat.le_refl _⟩
  apply always_iff_along (K := Kept s) _ _ (fun _ h_b => h_b) h_kept (.start h_unique)
  · intro p b h
    exact h.bucketStep b
  · intro p b h_bucket h h_right
    exact bucketStep_right_iff h h_start h_bucket h_right

theorem numbered_bulkBuildInstantAlerts (h : Numbered s) :
    Numbered (bulkBuildInstantAlerts md5 format outcome hits s).store := by
  have h_kept : Kept s (.start s) := ⟨h, Nat.le_refl _⟩
  exact (run_invariant (fun p b h => h.bucketStep b) h_kept (buckets s hits)).numbered

theorem newEventsWithFp_eq_nil {b : Bucket} (h_bucket : b ∈ buckets s hits)
    (h_active : ∀ hit ∈ hits, (s.strategies.lookup hit.strategyId).isSome →
      (s.events.lookup hit.eventId).isSome →
      ∃ k, ActiveFor md5 s hit.strategyId hit.eventId k) :
    newEventsWithFp md5 s b = [] := by
  obtain ⟨h_strategy, h_events⟩ := mem_buckets h_bucket
  unfold newEventsWithFp
  rw [List.filter_eq_nil_iff]
  intro e h_mem
  obtain ⟨h_event, h_hit⟩ := h_events e h_mem
  obtain ⟨k, alert, h_row, h_status, -, -, h_print⟩ :=
    h_active _ h_hit (Option.isSome_of_mem h_strategy) (Option.isSome_of_mem h_event)
  have h_known : fingerprintActive s (b.fingerprint md5 e) = true :=
    fingerprintActive_eq_true.mpr ⟨k, alert, h_row, h_print, h_status⟩
  rw [h_known]
  decide

theorem redeliveryIdle (s : Store) (a : Action) (s' : Store) :
    RedeliveryIdle md5 format s a s' := by
  cases a with
  | other s' => trivial
  | deliver hits outcome =>
    intro h_active
    have h_new : ∀ b ∈ buckets s hits, newEventsWithFp md5 s b = [] :=
      fun b h_bucket => newEventsWithFp_eq_nil h_bucket h_active
    unfold bulkBuildInstantAlerts
    generalize buckets s hits = bs at h_new
    induction bs with
    | nil => rfl
    | cons b bs ih =>
      have h_none : newEventsWithFp md5 (Progress.start s).store b = [] :=
        h_new b List.mem_cons_self
      have h_here : bucketStep md5 format outcome (.start s) b = .start s := by
        unfold bucketStep
        rw [if_pos h_none, ite_self]
      rw [run_cons, h_here]
      exact ih fun b' h_mem => h_new b' (List.mem_cons_of_mem b h_mem)

/-- **Instant alerts.** Pairs have at most one active alert, and collected ids are right, exactly if
every bucket fits. -/
theorem deliveries_right_iff (md5 : String → String) (format : Format) (s : Store)
    (actions : List Action) (h_start : Numbered s) (h_unique : UniqueActive md5 s)
    (h_others : Along (step md5 format) (OthersFrame md5) s actions) :
    (Along (step md5 format) (DeliveryRight md5 format) s actions ↔
        Along (step md5 format) (DeliveryFits md5 format) s actions) ∧
      Along (step md5 format) (RedeliveryIdle md5 format) s actions := by
  refine ⟨?_, along_of_step (I := fun _ => True) (fun s a _ => ⟨trivial, redeliveryIdle s a _⟩)
    trivial actions⟩
  -- the calls keep the numbering, and those that are right keep the pairs apart
  apply along_iff (I := fun s => Numbered s ∧ UniqueActive md5 s) h_others _ ⟨h_start, h_unique⟩
  rintro s a ⟨h_numbered, h_unique⟩ h_other
  cases a with
  | other s' =>
    obtain ⟨h_numbered', h_active⟩ := h_other
    have h_unique' : UniqueActive md5 s' := fun sid eid k k' h_k h_k' =>
      h_unique sid eid k k' (h_active sid eid k h_k) (h_active sid eid k' h_k')
    exact ⟨iff_of_true h_unique' trivial, fun _ => ⟨h_numbered', h_unique'⟩⟩
  | deliver hits outcome =>
    refine ⟨delivery_right_iff h_numbered h_unique, fun h_right => ⟨?_, ?_⟩⟩
    · exact numbered_bulkBuildInstantAlerts h_numbered
    · exact (Always.last h_right).unique

def closeAlert (k : AlertId) (s : Store) : Store :=
  { s with alerts := s.alerts.modify k fun alert => { alert with status := .closed } }

theorem othersFrame_closeAlert (h : Numbered s) (k : AlertId) :
    OthersFrame md5 s (.other (closeAlert k s)) (closeAlert k s) := by
  refine ⟨fun k' h_k' => ?_, ?_⟩
  · show (s.alerts.modify k _).lookup k' = none
    rw [Table.lookup_modify]
    split_ifs with h_key
    · rw [← h_key, h k' h_k']
      rfl
    · exact h k' h_k'
  · rintro sid eid k' ⟨alert, h_row, h_status, h_built⟩
    obtain ⟨alert₀, h_row₀, h_eq⟩ := Table.lookup_modify_eq_some h_row
    split_ifs at h_eq with h_key
    · have h_closed : ¬AlertStatus.closed.IsActive := by decide
      rw [h_eq] at h_status
      exact absurd h_status h_closed
    · exact ⟨alert₀, h_row₀, h_eq ▸ h_status, h_eq ▸ h_built⟩

end Deliveries

def oneEvent : Store where
  strategies := (∅ : Table StrategyId InstantStrategy).insert 1 {}
  events := (∅ : Table EventId Event).insert 1 {}
  alerts := ∅
  nextAlertId := 0

def plainFormat : Format := fun text _ => .ok text

def deliverOnce : Action := .deliver [⟨1, 1⟩] fun _ => .commits

/-- The alert is built, an operator closes it, and the redelivered hit builds one
anew. -/
theorem deliveries_right_closed :
    Along (step id plainFormat) (DeliveryRight id plainFormat) oneEvent
      [deliverOnce, .other (closeAlert 0 (step id plainFormat oneEvent deliverOnce)),
        deliverOnce] := by
  have h_start : Numbered oneEvent := fun _ _ => rfl
  have h_none : UniqueActive id oneEvent := by
    rintro sid eid k k' ⟨alert, h_row, -⟩
    cases h_row
  have h_first : Numbered (step id plainFormat oneEvent deliverOnce) :=
    numbered_bulkBuildInstantAlerts h_start
  refine (deliveries_right_iff id plainFormat oneEvent _ h_start h_none ?_).1.mpr ?_
  · exact ⟨trivial, othersFrame_closeAlert h_first 0, trivial, trivial⟩
  refine ⟨⟨fun _ _ _ => ?_, trivial⟩, trivial, ⟨fun _ _ _ => ?_, trivial⟩, trivial⟩
  · show List.Nodup _
    decide
  · show List.Nodup _
    decide

/-- One call that names the pair twice leaves two active alerts of it. -/
theorem bulkBuildInstantAlerts_pair_twice :
    Numbered oneEvent ∧ UniqueActive id oneEvent ∧
      ¬UniqueActive id (step id plainFormat oneEvent
        (.deliver [⟨1, 1⟩, ⟨1, 1⟩] fun _ => .commits)) := by
  refine ⟨fun _ _ => rfl, ?_, fun h_unique => ?_⟩
  · rintro sid eid k k' ⟨alert, h_row, -⟩
    cases h_row
  · have h_first : ActiveFor id (step id plainFormat oneEvent
        (.deliver [⟨1, 1⟩, ⟨1, 1⟩] fun _ => .commits)) 1 1 0 :=
      ⟨_, rfl, by decide, rfl, rfl, rfl⟩
    have h_second : ActiveFor id (step id plainFormat oneEvent
        (.deliver [⟨1, 1⟩, ⟨1, 1⟩] fun _ => .commits)) 1 1 1 :=
      ⟨_, rfl, by decide, rfl, rfl, rfl⟩
    exact absurd (h_unique 1 1 0 1 h_first h_second) (by decide)

end InstantAlerts
end Alerts
