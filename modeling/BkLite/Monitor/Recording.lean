import BkLite.Framework.Collect
import BkLite.Monitor.PolicyScan

/-!
# What a scan records

`recordEvents` inserts one alert for each event that has no active alert, one row for each event,
and raises the levels of the alerts that events have joined. Three facts carry the results about
scans: an alert that was there is left as its events upgrade it (`lookup_old`), an alert with a
new id is that of an event (`lookup_new`), and the id that an event is linked to is that of an
alert with its key and type (`mem_linkedNewEvents`, `mem_existingAlertEvents`).
-/

namespace Monitor
namespace PolicyScan

open Py Identity

variable {Num : Type} {env : Env Num} {s : Scan Num} {c : Cache Num}

/-! ### Levels -/

@[simp] theorem Alert.upgrade_status (e : Event Num) (a : Alert Num) :
    (a.upgrade e).status = a.status := by
  unfold Alert.upgrade
  split_ifs <;> rfl

@[simp] theorem Alert.upgrade_policyId (e : Event Num) (a : Alert Num) :
    (a.upgrade e).policyId = a.policyId := by
  unfold Alert.upgrade
  split_ifs <;> rfl

@[simp] theorem Alert.upgrade_metricInstanceId (e : Event Num) (a : Alert Num) :
    (a.upgrade e).metricInstanceId = a.metricInstanceId := by
  unfold Alert.upgrade
  split_ifs <;> rfl

@[simp] theorem Alert.upgrade_alertType (e : Event Num) (a : Alert Num) :
    (a.upgrade e).alertType = a.alertType := by
  unfold Alert.upgrade
  split_ifs <;> rfl

@[simp] theorem Alert.upgrade_infoEventCount (e : Event Num) (a : Alert Num) :
    (a.upgrade e).infoEventCount = a.infoEventCount := by
  unfold Alert.upgrade
  split_ifs <;> rfl

def Alert.upgradeAll (events : List (ℕ × Event Num)) (a : Alert Num) : Alert Num :=
  events.foldl (fun a e => a.upgrade e.2) a

theorem Alert.upgradeAll_field {X : Type} {field : Alert Num → X}
    (h : ∀ e (a : Alert Num), field (a.upgrade e) = field a) (events : List (ℕ × Event Num))
    (a : Alert Num) : field (a.upgradeAll events) = field a := by
  unfold Alert.upgradeAll
  induction events generalizing a with
  | nil => rfl
  | cons e events ih => rw [List.foldl_cons, ih (a.upgrade e.2), h]

@[simp] theorem Alert.upgradeAll_status (events : List (ℕ × Event Num)) (a : Alert Num) :
    (a.upgradeAll events).status = a.status :=
  upgradeAll_field upgrade_status events a

@[simp] theorem Alert.upgradeAll_policyId (events : List (ℕ × Event Num)) (a : Alert Num) :
    (a.upgradeAll events).policyId = a.policyId :=
  upgradeAll_field upgrade_policyId events a

@[simp] theorem Alert.upgradeAll_metricInstanceId (events : List (ℕ × Event Num))
    (a : Alert Num) : (a.upgradeAll events).metricInstanceId = a.metricInstanceId :=
  upgradeAll_field upgrade_metricInstanceId events a

@[simp] theorem Alert.upgradeAll_alertType (events : List (ℕ × Event Num)) (a : Alert Num) :
    (a.upgradeAll events).alertType = a.alertType :=
  upgradeAll_field upgrade_alertType events a

@[simp] theorem Alert.upgradeAll_infoEventCount (events : List (ℕ × Event Num))
    (a : Alert Num) : (a.upgradeAll events).infoEventCount = a.infoEventCount :=
  upgradeAll_field upgrade_infoEventCount events a

/-! ### Counts and recoveries -/

section Counting

variable {db : Db Num} {detected : List (Event Num) × List Info} {id : ℕ} {a : Alert Num}

/-- The alert after `_increment_info_count`. -/
def incrementedAlert (env : Env Num) (c : Cache Num) (infoEvents : List Info) (id : ℕ)
    (a : Alert Num) : Alert Num :=
  if id ∈ countedAlertIds env c (infoEvents.map (·.metricInstanceId)) then a.increment else a

/-- The alert after `count_events`. -/
def countedAlert (env : Env Num) (c : Cache Num) (detected : List (Event Num) × List Info)
    (id : ℕ) (a : Alert Num) : Alert Num :=
  if id ∈ countedAlertIds env c (detected.1.map (·.metricInstanceId)) then
    (incrementedAlert env c detected.2 id a).clear
  else incrementedAlert env c detected.2 id a

/-- The ids among which `recover_threshold_alerts` looks. -/
def thresholdAlertIds (c : Cache Num) : List ℕ :=
  (c.activeAlerts.filter fun a => a.2.alertType = .alert).map (·.1)

def Reached (s : Scan Num) (c : Cache Num) (id : ℕ) (count : ℕ) : Prop :=
  0 < s.policy.recoveryCondition ∧ id ∈ thresholdAlertIds c ∧
    s.policy.recoveryCondition ≤ (count : ℤ)

instance (s : Scan Num) (c : Cache Num) (id count : ℕ) : Decidable (Reached s c id count) :=
  inferInstanceAs (Decidable (_ ∧ _ ∧ _))

def thresholdAlert (env : Env Num) (s : Scan Num) (c : Cache Num)
    (detected : List (Event Num) × List Info) (id : ℕ) (a : Alert Num) : Alert Num :=
  if Reached s c id (countedAlert env c detected id a).infoEventCount then
    (countedAlert env c detected id a).recover s.lastRunTime
  else countedAlert env c detected id a

theorem lookup_countEvents (db : Db Num) (id : ℕ) :
    (updateAlerts (countedAlertIds env c (detected.1.map (·.metricInstanceId))) Alert.clear
      (updateAlerts (countedAlertIds env c (detected.2.map (·.metricInstanceId)))
        Alert.increment db)).alerts.lookup id =
      (db.alerts.lookup id).map (countedAlert env c detected id) := by
  rw [lookup_updateAlerts, lookup_updateAlerts, Option.map_map]
  rfl

theorem lookup_recoverCounted (db : Db Num) (h : ¬s.policy.recoveryCondition ≤ 0) (id : ℕ) :
    (recoverCounted s (thresholdAlertIds c) db).alerts.lookup id =
      (db.alerts.lookup id).map fun a =>
        if Reached s c id a.infoEventCount then a.recover s.lastRunTime else a := by
  unfold recoverCounted
  rw [lookup_updateAlerts]
  congr 1
  funext a
  by_cases h_id : id ∈ thresholdAlertIds c
  · rw [if_pos h_id]
    have h_iff : Reached s c id a.infoEventCount ↔
        s.policy.recoveryCondition ≤ (a.infoEventCount : ℤ) :=
      ⟨fun h_reached => h_reached.2.2, fun h_le => ⟨Int.not_le.mp h, h_id, h_le⟩⟩
    simp only [h_iff]
  · have h_not : ¬Reached s c id a.infoEventCount := fun h_reached => h_id h_reached.2.1
    rw [if_neg h_id, if_neg h_not]

theorem lookup_thresholdDone (db : Db Num) (id : ℕ) :
    (thresholdDone env s c detected db).alerts.lookup id =
      (db.alerts.lookup id).map (thresholdAlert env s c detected id) := by
  unfold thresholdDone
  split_ifs with h_condition
  · rw [lookup_countEvents]
    congr 1
    funext a
    unfold thresholdAlert
    rw [if_neg (fun h => Int.not_lt.mpr h_condition h.1)]
  · have h_recover := lookup_recoverCounted (c := c) (s := s)
      (updateAlerts (countedAlertIds env c (detected.1.map (·.metricInstanceId))) Alert.clear
        (updateAlerts (countedAlertIds env c (detected.2.map (·.metricInstanceId)))
          Alert.increment db)) h_condition id
    rw [lookup_countEvents, Option.map_map] at h_recover
    exact h_recover

theorem thresholdAlert_field {X : Type} {field : Alert Num → X}
    (h_increment : ∀ a : Alert Num, field a.increment = field a)
    (h_clear : ∀ a : Alert Num, field a.clear = field a)
    (h_recover : ∀ t (a : Alert Num), field (a.recover t) = field a) (id : ℕ) (a : Alert Num) :
    field (thresholdAlert env s c detected id a) = field a := by
  have h_counted : field (countedAlert env c detected id a) = field a := by
    have h_incremented : field (incrementedAlert env c detected.2 id a) = field a := by
      unfold incrementedAlert
      split_ifs
      · exact h_increment a
      · rfl
    unfold countedAlert
    split_ifs
    · rw [h_clear, h_incremented]
    · exact h_incremented
  unfold thresholdAlert
  split_ifs
  · rw [h_recover, h_counted]
  · exact h_counted

theorem mem_countedAlertIds {keys : List String} :
    id ∈ countedAlertIds env c keys ↔
      ∃ key ∈ keys, ∃ a, activeAlert env c key .alert = some (id, a) := by
  unfold countedAlertIds
  rw [List.mem_filterMap]
  constructor
  · rintro ⟨key, h_key, h_some⟩
    obtain ⟨a, h_a, rfl⟩ := Option.map_eq_some_iff.mp h_some
    exact ⟨key, h_key, a.2, h_a⟩
  · rintro ⟨key, h_key, a, h_a⟩
    refine ⟨key, h_key, ?_⟩
    rw [h_a]
    rfl

theorem mem_thresholdAlertIds :
    id ∈ thresholdAlertIds c ↔ ∃ a, (id, a) ∈ c.activeAlerts ∧ a.alertType = .alert := by
  unfold thresholdAlertIds
  simp only [List.mem_map, List.mem_filter, decide_eq_true_iff, Prod.exists,
    exists_and_right, exists_eq_right]

theorem activeAlert_unique {a' : Alert Num} (h : (id, a) ∈ getActiveAlerts env s db)
    (h' : (id, a') ∈ getActiveAlerts env s db) : a = a' := by
  have h_row := (mem_getActiveAlerts.mp h).1
  rw [(mem_getActiveAlerts.mp h').1] at h_row
  exact (Option.some.inj h_row).symm

theorem thresholdAlert_of_cleared
    (h : id ∈ countedAlertIds env c (detected.1.map (·.metricInstanceId))) :
    (thresholdAlert env s c detected id a).status = a.status := by
  have h_count : (countedAlert env c detected id a).infoEventCount = 0 := by
    unfold countedAlert
    rw [if_pos h]
    rfl
  have h_not : ¬Reached s c id (countedAlert env c detected id a).infoEventCount := by
    rw [h_count]
    exact fun h_reached => Int.not_le.mpr h_reached.1 h_reached.2.2
  unfold thresholdAlert
  rw [if_neg h_not]
  unfold countedAlert incrementedAlert
  split_ifs
  · rfl
  · rfl

theorem thresholdAlert_of_noData (h : (id, a) ∈ getActiveAlerts env s db)
    (h_type : a.alertType = .noData) :
    thresholdAlert env s (buildCache env s db) detected id a = a := by
  have h_other : ∀ a', (id, a') ∈ getActiveAlerts env s db → a'.alertType ≠ .alert := by
    intro a' h_a' h_alert
    rw [activeAlert_unique h h_a', h_alert] at h_type
    cases h_type
  have h_not : ∀ keys, id ∉ countedAlertIds env (buildCache env s db) keys := by
    intro keys h_mem
    obtain ⟨key, -, a', h_a'⟩ := mem_countedAlertIds.mp h_mem
    obtain ⟨h_active, -, h_alert⟩ := mem_of_activeAlert h_a'
    exact h_other a' h_active h_alert
  have h_counted : countedAlert env (buildCache env s db) detected id a = a := by
    unfold countedAlert incrementedAlert
    rw [if_neg (h_not _), if_neg (h_not _)]
  unfold thresholdAlert
  rw [h_counted, if_neg]
  intro h_reached
  obtain ⟨a', h_a', h_alert⟩ := mem_thresholdAlertIds.mp h_reached.2.1
  exact h_other a' h_a' h_alert

theorem mem_heardAlertIds {keys : List String} :
    id ∈ heardAlertIds env c keys ↔ ∃ a, (id, a) ∈ c.activeAlerts ∧ a.alertType = .noData ∧
      getAlertMetricInstanceId env a ∈ keys := by
  unfold heardAlertIds
  simp only [List.mem_map, List.mem_filter, Bool.and_eq_true, decide_eq_true_iff, Prod.exists,
    exists_and_right, exists_eq_right]

end Counting

/-! ### The ids of events -/

theorem mem_existingAlertEvents {events : List (Event Num)} {id : ℕ} {e : Event Num} :
    (id, e) ∈ existingAlertEvents env c events ↔ e ∈ events ∧ ∃ a,
      activeAlert env c e.metricInstanceId (getEventAlertType e) = some (id, a) := by
  unfold existingAlertEvents
  rw [List.mem_filterMap]
  constructor
  · rintro ⟨e', h_e', h_some⟩
    obtain ⟨a, h_a, h_pair⟩ := Option.map_eq_some_iff.mp h_some
    cases h_pair
    exact ⟨h_e', a.2, h_a⟩
  · rintro ⟨h_e, a, h_a⟩
    refine ⟨e, h_e, ?_⟩
    rw [h_a]
    rfl

theorem mem_linkedNewEvents {base : ℕ} {events : List (Event Num)} {id : ℕ} {e : Event Num}
    (h : (id, e) ∈ linkedNewEvents base events) :
    e ∈ events ∧ ∃ i e', id = base + i ∧ events[i]? = some e' ∧
      e'.metricInstanceId = e.metricInstanceId ∧
        getEventAlertType e' = getEventAlertType e := by
  unfold linkedNewEvents at h
  rw [List.mem_filterMap] at h
  obtain ⟨e₀, h_e₀, h_some⟩ := h
  obtain ⟨id', h_id', h_pair⟩ := Option.map_eq_some_iff.mp h_some
  cases h_pair
  unfold createdAlertId at h_id'
  obtain ⟨p, h_find, h_p⟩ := Option.map_eq_some_iff.mp h_id'
  have h_keys := List.find?_some h_find
  rw [Bool.and_eq_true, decide_eq_true_iff, decide_eq_true_iff] at h_keys
  have h_mem : p ∈ events.zipIdx base := List.mem_reverse.mp (List.mem_of_find?_eq_some h_find)
  obtain ⟨h_le, h_get⟩ := List.mk_mem_zipIdx_iff_le_and_getElem?_sub.mp h_mem
  refine ⟨h_e₀, p.2 - base, p.1, ?_, h_get, h_keys⟩
  rw [← h_p]
  exact (Nat.add_sub_cancel' h_le).symm

theorem exists_mem_linkedNewEvents {base : ℕ} {events : List (Event Num)} {e : Event Num}
    (h : e ∈ events) : ∃ id, (id, e) ∈ linkedNewEvents base events := by
  have h_some : ∃ id, createdAlertId base events e = some id := by
    unfold createdAlertId
    cases h_find : (events.zipIdx base).reverse.find? fun p =>
        p.1.metricInstanceId = e.metricInstanceId &&
          getEventAlertType p.1 = getEventAlertType e with
    | some p => exact ⟨p.2, rfl⟩
    | none =>
      obtain ⟨i, h_i⟩ := List.mem_iff_getElem?.mp h
      have h_mem : (e, base + i) ∈ (events.zipIdx base).reverse := by
        rw [List.mem_reverse, List.mk_mem_zipIdx_iff_le_and_getElem?_sub]
        refine ⟨Nat.le_add_right base i, ?_⟩
        rw [Nat.add_sub_cancel_left]
        exact h_i
      refine absurd ?_ (List.find?_eq_none.mp h_find (e, base + i) h_mem)
      rw [Bool.and_eq_true, decide_eq_true_iff, decide_eq_true_iff]
      exact ⟨rfl, rfl⟩
  obtain ⟨id, h_id⟩ := h_some
  refine ⟨id, List.mem_filterMap.mpr ⟨e, h, ?_⟩⟩
  rw [h_id]
  rfl

theorem mem_newAlertEvents {events : List (Event Num)} {e : Event Num} :
    e ∈ newAlertEvents env c events ↔ e ∈ events ∧
      activeAlert env c e.metricInstanceId (getEventAlertType e) = none := by
  unfold newAlertEvents
  rw [List.mem_filter, Option.isNone_iff_eq_none]

/-! ### The alerts afterwards -/

section Alerts

variable {db : Db Num} {events : List (Event Num)}

def joining (env : Env Num) (c : Cache Num) (events : List (Event Num)) (id : ℕ) :
    List (ℕ × Event Num) :=
  (existingAlertEvents env c events).filter (·.1 = id)

theorem lookup_recordEvents (id : ℕ) :
    (recordEvents env s c events db).alerts.lookup id =
      ((Table.insertRows db.alerts db.nextAlertId
        ((newAlertEvents env c events).map (alertOfEvent s c))).lookup id).map
          (Alert.upgradeAll (joining env c events id)) :=
  Table.lookup_foldl_modify Prod.fst (fun (e : ℕ × Event Num) a => Alert.upgrade e.2 a) _ _ id

theorem lookup_old {id : ℕ} {a : Alert Num} (h_below : Table.Below db.alerts db.nextAlertId)
    (h : db.alerts.lookup id = some a) :
    (recordEvents env s c events db).alerts.lookup id =
      some (a.upgradeAll (joining env c events id)) := by
  rw [lookup_recordEvents, Table.lookup_insertRows_of_lt _ (h_below.lt h), h]
  rfl

def Cache.Below (c : Cache Num) (base : ℕ) : Prop :=
  ∀ id a, (id, a) ∈ c.activeAlerts → id < base

theorem joining_of_le {base i : ℕ} (h_cache : c.Below base) :
    joining env c events (base + i) = [] := by
  unfold joining
  rw [List.filter_eq_nil_iff]
  intro e h_e h_id
  obtain ⟨-, a, h_a⟩ := mem_existingAlertEvents.mp h_e
  have h_lt := h_cache e.1 a (mem_of_activeAlert h_a).1
  rw [of_decide_eq_true h_id] at h_lt
  exact Nat.not_lt.mpr (Nat.le_add_right base i) h_lt

theorem lookup_new (h_below : Table.Below db.alerts db.nextAlertId)
    (h_cache : c.Below db.nextAlertId) (i : ℕ) :
    (recordEvents env s c events db).alerts.lookup (db.nextAlertId + i) =
      ((newAlertEvents env c events)[i]?).map (alertOfEvent s c) := by
  rw [lookup_recordEvents, Table.lookup_insertRows_add h_below, List.getElem?_map,
    joining_of_le h_cache]
  -- no event joins a new alert
  show Option.map (fun a => a) _ = _
  rw [Option.map_id']

theorem below_recordEvents (h_below : Table.Below db.alerts db.nextAlertId) :
    Table.Below (recordEvents env s c events db).alerts
      (recordEvents env s c events db).nextAlertId := by
  intro id h_id
  have h_next : db.nextAlertId +
      ((newAlertEvents env c events).map (alertOfEvent s c)).length ≤ id := by
    rw [List.length_map]
    exact h_id
  rw [lookup_recordEvents, Table.below_insertRows h_below _ id h_next]
  rfl

theorem lookup_recordEvents_eq_some {id : ℕ} {a : Alert Num}
    (h_below : Table.Below db.alerts db.nextAlertId) (h_cache : c.Below db.nextAlertId)
    (h : (recordEvents env s c events db).alerts.lookup id = some a) :
    (∃ a₀, db.alerts.lookup id = some a₀ ∧ a = a₀.upgradeAll (joining env c events id)) ∨
    ∃ i e, id = db.nextAlertId + i ∧ (newAlertEvents env c events)[i]? = some e ∧
      a = alertOfEvent s c e := by
  by_cases h_lt : id < db.nextAlertId
  · rw [lookup_recordEvents, Table.lookup_insertRows_of_lt _ h_lt] at h
    obtain ⟨a₀, h_a₀, rfl⟩ := Option.map_eq_some_iff.mp h
    exact Or.inl ⟨a₀, h_a₀, rfl⟩
  · obtain ⟨i, rfl⟩ := Nat.exists_eq_add_of_le (Nat.not_lt.mp h_lt)
    rw [lookup_new h_below h_cache] at h
    obtain ⟨e, h_e, rfl⟩ := Option.map_eq_some_iff.mp h
    exact Or.inr ⟨i, e, rfl, h_e, rfl⟩

theorem drop_recordEvents :
    (recordEvents env s c events db).events.drop db.events.length =
      (linkedNewEvents db.nextAlertId (newAlertEvents env c events) ++
        existingAlertEvents env c events).map (eventRow s) :=
  List.drop_left

theorem recordEvents_nil (db : Db Num) : recordEvents env s c [] db = db := by
  obtain ⟨alerts, nextAlertId, rows, baselines⟩ := db
  show (⟨alerts, nextAlertId, rows ++ [], baselines⟩ : Db Num) = _
  rw [List.append_nil]

end Alerts

/-! ### A successful scan as a whole -/

section Whole

variable {db db' : Db Num} {detected : List (Event Num) × List Info}
  {noDataEvents : List (Event Num)}

def thresholdStage (env : Env Num) (s : Scan Num) (c : Cache Num)
    (detected : List (Event Num) × List Info) (id : ℕ) (a : Alert Num) : Alert Num :=
  if "threshold" ∈ s.policy.enableAlerts then thresholdAlert env s c detected id a else a

def collectedAlert (env : Env Num) (s : Scan Num) (c : Cache Num)
    (detected : List (Event Num) × List Info) (id : ℕ) (a : Alert Num) : Alert Num :=
  if id ∈ recoveredNoDataIds env s c then
    (thresholdStage env s c detected id a).recover s.lastRunTime
  else thresholdStage env s c detected id a

theorem collectedAlert_field {X : Type} {field : Alert Num → X}
    (h_increment : ∀ a : Alert Num, field a.increment = field a)
    (h_clear : ∀ a : Alert Num, field a.clear = field a)
    (h_recover : ∀ t (a : Alert Num), field (a.recover t) = field a) (id : ℕ) (a : Alert Num) :
    field (collectedAlert env s c detected id a) = field a := by
  have h_stage : field (thresholdStage env s c detected id a) = field a := by
    unfold thresholdStage
    split_ifs
    · exact thresholdAlert_field h_increment h_clear h_recover id a
    · rfl
  unfold collectedAlert
  split_ifs
  · rw [h_recover, h_stage]
  · exact h_stage

theorem thresholdStage_status {id : ℕ} {a : Alert Num}
    (h : (thresholdStage env s c detected id a).status = .new) : a.status = .new := by
  unfold thresholdStage thresholdAlert at h
  have h_counted : (countedAlert env c detected id a).status = a.status := by
    unfold countedAlert incrementedAlert
    split_ifs <;> rfl
  split_ifs at h
  · cases h
  · rw [← h_counted]
    exact h
  · exact h

theorem collectedAlert_status {id : ℕ} {a : Alert Num}
    (h : (collectedAlert env s c detected id a).status = .new) : a.status = .new := by
  unfold collectedAlert at h
  split_ifs at h
  · cases h
  · exact thresholdStage_status h

theorem collectedAlert_of_hidden {id : ℕ} (h : ∀ a, (id, a) ∉ c.activeAlerts) (a : Alert Num) :
    collectedAlert env s c detected id a = a := by
  have h_counted : ∀ keys, id ∉ countedAlertIds env c keys := by
    intro keys h_mem
    obtain ⟨key, -, a', h_a'⟩ := mem_countedAlertIds.mp h_mem
    exact h a' (mem_of_activeAlert h_a').1
  have h_reached : ∀ count, ¬Reached s c id count := by
    intro count h_reached
    obtain ⟨a', h_a', -⟩ := mem_thresholdAlertIds.mp h_reached.2.1
    exact h a' h_a'
  have h_heard : id ∉ recoveredNoDataIds env s c := by
    unfold recoveredNoDataIds
    split_ifs
    · intro h_mem
      obtain ⟨a', h_a', -⟩ := mem_heardAlertIds.mp h_mem
      exact h a' h_a'
    · exact List.not_mem_nil
  unfold collectedAlert thresholdStage thresholdAlert countedAlert incrementedAlert
  rw [if_neg h_heard, if_neg (h_counted _), if_neg (h_counted _), if_neg (h_reached _), ite_self]

/-- The database when the events have been collected. -/
structure Collected (env : Env Num) (s : Scan Num) (c : Cache Num)
    (detected : List (Event Num) × List Info) (noDataEvents : List (Event Num))
    (db db' : Db Num) : Prop where
  threshold : ThresholdFinds env s c detected
  noData : NoDataFinds env s c noDataEvents
  lookup : ∀ id, db'.alerts.lookup id =
    (db.alerts.lookup id).map (collectedAlert env s c detected id)
  nextAlertId : db'.nextAlertId = db.nextAlertId
  events : db'.events = db.events

theorem Collected.below (h : Collected env s c detected noDataEvents db db')
    (h_below : Table.Below db.alerts db.nextAlertId) :
    Table.Below db'.alerts db'.nextAlertId := by
  intro id h_id
  rw [h.nextAlertId] at h_id
  rw [h.lookup, h_below id h_id]
  rfl

theorem below_buildCache (h : Table.Below db.alerts db.nextAlertId) :
    (buildCache env s db).Below db.nextAlertId :=
  fun _ _ h_active => h.lt (mem_getActiveAlerts.mp h_active).1

theorem run_spec {u : Unit} (h : run env s db = .ok u db') :
    (s.policy.source = true ∧ (buildCache env s db).instancesMap = [] ∧ db' = db) ∨
    ¬(s.policy.source = true ∧ (buildCache env s db).instancesMap = []) ∧
    ∃ detected noDataEvents db₁,
      Collected env s (buildCache env s db) detected noDataEvents db db₁ ∧
      db' = recordEvents env s (buildCache env s db) (detected.1 ++ noDataEvents) db₁ := by
  rcases run_eq_ok h with h_empty |
    ⟨h_scans, detected, noDataEvents, db₁, db₂, baselines, h_threshold, h_db₁, h_noData, h_done,
      h_db'⟩
  · exact Or.inl h_empty
  · refine Or.inr ⟨h_scans, detected, noDataEvents, { db₂ with baselines }, ?_, ?_⟩
    · have h_first : (∀ id, db₁.alerts.lookup id = (db.alerts.lookup id).map
            (thresholdStage env s (buildCache env s db) detected id)) ∧
          db₁.nextAlertId = db.nextAlertId ∧ db₁.events = db.events := by
        unfold thresholdStage
        rw [h_db₁]
        split_ifs with h_enabled
        · refine ⟨lookup_thresholdDone db, ?_, ?_⟩
          · unfold thresholdDone
            split_ifs <;> rfl
          · unfold thresholdDone
            split_ifs <;> rfl
        · exact ⟨fun id => Option.map_id'.symm, rfl, rfl⟩
      refine ⟨h_threshold, h_noData, fun id => ?_, h_done.nextAlertId.trans h_first.2.1,
        h_done.events.trans h_first.2.2⟩
      rw [h_done.lookup, h_first.1, Option.map_map]
      rfl
    · rw [h_db']
      split_ifs with h_empty
      · rw [List.isEmpty_iff.mp h_empty, recordEvents_nil]
      · rfl

end Whole

/-! ### The keys of events -/

section Keys

variable {db : Db Num} {detected : List (Event Num) × List Info}
  {noDataEvents : List (Event Num)}

theorem calculateAlert_key {series : List Series} {x : Series} {e : Event Num}
    (h : calculateAlert env s series x = some (.alert e)) :
    ∃ ts, e.metricInstanceId = strTuple env.printable ts := by
  unfold calculateAlert at h
  obtain ⟨ts, -, h⟩ := Option.bind_eq_some_iff.mp h
  refine ⟨ts, ?_⟩
  split_ifs at h with h_short
  · cases h
  · obtain ⟨met, -, h⟩ := Option.bind_eq_some_iff.mp h
    cases met with
    | none => cases h
    | some t =>
      cases h
      rfl

theorem key_ne_of_detected (h : ThresholdFinds env s c detected) {e : Event Num}
    (h_e : e ∈ detected.1) : e.metricInstanceId ≠ "" := by
  unfold ThresholdFinds at h
  split_ifs at h
  · unfold detectThresholdAlerts at h
    obtain ⟨series, -, h⟩ := Option.bind_eq_some_iff.mp h
    obtain ⟨verdicts, h_verdicts, h⟩ := Option.bind_eq_some_iff.mp h
    cases h
    obtain ⟨verdict, h_verdict, h_event⟩ := List.mem_filterMap.mp (List.mem_filter.mp h_e).1
    obtain ⟨x, -, h_x⟩ := List.exists_of_mem_mapM h_verdicts h_verdict
    cases verdict with
    | skipped => cases h_event
    | info i => cases h_event
    | alert e' =>
      cases h_event
      obtain ⟨ts, h_key⟩ := calculateAlert_key h_x
      rw [h_key]
      exact strTuple_ne_empty env.printable ts
  · rw [h] at h_e
    cases h_e

theorem key_ne_of_watched {key : String} (h : key ∈ watchedKeys (buildCache env s db)) :
    key ≠ "" := by
  unfold watchedKeys at h
  split_ifs at h
  · rw [List.mem_dedup] at h
    obtain ⟨row, h_row, rfl⟩ := List.mem_map.mp h
    have h_instances : row ∈ buildInstancesMap s := h_row
    unfold buildInstancesMap at h_instances
    split_ifs at h_instances
    · exact s.named row h_instances
    · cases h_instances
  · rw [List.mem_dedup] at h
    obtain ⟨pair, h_pair, rfl⟩ := List.mem_map.mp h
    have h_baselines : pair ∈ buildBaselinesMap s db := h_pair
    unfold buildBaselinesMap at h_baselines
    split_ifs at h_baselines
    · obtain ⟨b, -, rfl⟩ := List.mem_map.mp h_baselines
      exact b.named
    · cases h_baselines

theorem mem_of_noDataFinds (h : NoDataFinds env s c noDataEvents) {e : Event Num}
    (h_e : e ∈ noDataEvents) :
    e.metricInstanceId ∈ watchedKeys c ∧ e.level = "no_data" ∧ s.policy.source = true := by
  unfold NoDataFinds at h
  split_ifs at h
  · unfold detectNoDataAlerts at h
    split_ifs at h with h_off
    · cases h
      cases h_e
    · rw [not_or, Bool.not_eq_false, Bool.not_eq_false] at h_off
      obtain ⟨series, -, h⟩ := Option.bind_eq_some_iff.mp h
      obtain ⟨keys, -, h⟩ := Option.bind_eq_some_iff.mp h
      cases h
      obtain ⟨key, h_key, rfl⟩ := List.mem_map.mp h_e
      exact ⟨(List.mem_filter.mp h_key).1, rfl, h_off.2⟩
  · rw [h] at h_e
    cases h_e

theorem key_ne_of_mem (h_threshold : ThresholdFinds env s (buildCache env s db) detected)
    (h_noData : NoDataFinds env s (buildCache env s db) noDataEvents) {e : Event Num}
    (h_e : e ∈ detected.1 ++ noDataEvents) : e.metricInstanceId ≠ "" := by
  rcases List.mem_append.mp h_e with h_e | h_e
  · exact key_ne_of_detected h_threshold h_e
  · exact key_ne_of_watched (mem_of_noDataFinds h_noData h_e).1

end Keys

end PolicyScan
end Monitor
