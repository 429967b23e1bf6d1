import BkLite.Framework.Runs
import BkLite.Monitor.Recording

/-!
# One alert for a series, at the highest level of its events

An event looks for its alert among those the scan sees. The filter of the source hides an alert
whose `monitor_instance_id` is not one of the instances, and an event of the same series then
makes a second one; where the filter hides none of the alerts of the events, every scan keeps one
alert for each series and type (`unique_iff`). The level of an alert is always the highest of its
events: it starts at that of the first, and each event that joins raises it if its own is higher.
-/

namespace Monitor
namespace UniqueAlerts

open PolicyScan Identity

variable {Num : Type}

/-! ### The law -/

/-- Two alerts are for one series and type. -/
structure SameSeries (a a' : Alert Num) : Prop where
  policyId : a.policyId = a'.policyId
  metricInstanceId : a.metricInstanceId = a'.metricInstanceId
  alertType : a.alertType = a'.alertType

theorem SameSeries.symm {a a' : Alert Num} (h : SameSeries a a') : SameSeries a' a :=
  ⟨h.policyId.symm, h.metricInstanceId.symm, h.alertType.symm⟩

theorem SameSeries.trans {a a' a'' : Alert Num} (h : SameSeries a a') (h' : SameSeries a' a'') :
    SameSeries a a'' :=
  ⟨h.policyId.trans h'.policyId, h.metricInstanceId.trans h'.metricInstanceId,
    h.alertType.trans h'.alertType⟩

theorem sameSeries_upgradeAll (es : List (ℕ × Event Num)) (a : Alert Num) :
    SameSeries (a.upgradeAll es) a :=
  ⟨Alert.upgradeAll_policyId es a, Alert.upgradeAll_metricInstanceId es a,
    Alert.upgradeAll_alertType es a⟩

def Unique (db : Db Num) : Prop :=
  ∀ id id' a a', db.alerts.lookup id = some a → db.alerts.lookup id' = some a' →
    a.status = .new → a'.status = .new → SameSeries a a' → id = id'

/-- The weight is the greatest of the events of the alert. -/
structure TopWeight (rows : List (EventRow Num)) (id weight : ℕ) : Prop where
  attained : ∃ row ∈ rows, row.alertId = id ∧ levelWeight row.level = weight
  bound : ∀ row ∈ rows, row.alertId = id → levelWeight row.level ≤ weight

def Severity (db : Db Num) : Prop :=
  ∀ id a, db.alerts.lookup id = some a → a.status = .new → a.alertType = .alert →
    TopWeight db.events id (levelWeight a.level)

/-- What the scans are to keep. -/
structure Law (db : Db Num) : Prop where
  unique : Unique db
  severity : Severity db

/-- Primary and foreign keys: every alert has a number below the next one, and every event is that
of an alert. -/
structure Consistent (db : Db Num) : Prop where
  below : Table.Below db.alerts db.nextAlertId
  linked : ∀ row ∈ db.events, ∃ a, db.alerts.lookup row.alertId = some a

def SameKey (e e' : Event Num) : Prop :=
  e.metricInstanceId = e'.metricInstanceId ∧ getEventAlertType e = getEventAlertType e'

/-- The filter hides no alert of these events, and no two are for one series and type. -/
structure Clear (env : Env Num) (s : Scan Num) (db : Db Num) (events : List (Event Num)) :
    Prop where
  noneHidden : ∀ e ∈ newAlertEvents env (buildCache env s db) events, ∀ id a,
    db.alerts.lookup id = some a → a.status = .new → a.policyId = s.policy.id →
      a.metricInstanceId = e.metricInstanceId → a.alertType ≠ getEventAlertType e
  separate : (newAlertEvents env (buildCache env s db) events).Pairwise fun e e' => ¬SameKey e e'

/-- The events of the scan, unless it passes its source for empty, are clear. -/
def ClearScan (env : Env Num) (db : Db Num) (s : Scan Num) : Prop :=
  (s.policy.source = true → buildInstancesMap s ≠ []) → ∀ detected noDataEvents,
    ThresholdFinds env s (buildCache env s db) detected →
      NoDataFinds env s (buildCache env s db) noDataEvents →
        Clear env s db (detected.1 ++ noDataEvents)

def step (env : Env Num) (db : Db Num) (s : Scan Num) : Db Num := (run env s).after db

/-! ### Levels -/

section Levels

variable {rows rows' : List (EventRow Num)} {id w : ℕ} {s : Scan Num}

theorem TopWeight.congr (h : TopWeight rows id w)
    (h_rows : ∀ row : EventRow Num, row.alertId = id → (row ∈ rows ↔ row ∈ rows')) :
    TopWeight rows' id w := by
  obtain ⟨row, h_row, h_id, h_weight⟩ := h.attained
  refine ⟨⟨row, (h_rows row h_id).mp h_row, h_id, h_weight⟩, fun row' h_row' h_id' => ?_⟩
  exact h.bound row' ((h_rows row' h_id').mpr h_row') h_id'

theorem TopWeight.upgrade {a : Alert Num} {e : Event Num}
    (h : TopWeight rows id (levelWeight a.level)) (h_level : e.level ≠ "no_data") :
    TopWeight (rows ++ [eventRow s (id, e)]) id (levelWeight (a.upgrade e).level) := by
  obtain ⟨row, h_row, h_id, h_weight⟩ := h.attained
  unfold Alert.upgrade
  rw [if_neg h_level]
  split_ifs with h_higher
  · refine ⟨⟨eventRow s (id, e), List.mem_append_right _ (List.mem_singleton_self _), rfl, rfl⟩,
      fun row' h_row' h_id' => ?_⟩
    rcases List.mem_append.mp h_row' with h_old | h_new
    · exact Nat.le_trans (h.bound row' h_old h_id') (Nat.le_of_lt h_higher)
    · rw [List.mem_singleton.mp h_new]
      exact Nat.le_refl _
  · refine ⟨⟨row, List.mem_append_left _ h_row, h_id, h_weight⟩, fun row' h_row' h_id' => ?_⟩
    rcases List.mem_append.mp h_row' with h_old | h_new
    · exact h.bound row' h_old h_id'
    · rw [List.mem_singleton.mp h_new]
      exact Nat.not_lt.mp h_higher

theorem TopWeight.upgradeAll {a : Alert Num} {es : List (ℕ × Event Num)}
    (h : TopWeight rows id (levelWeight a.level))
    (h_es : ∀ e ∈ es, e.1 = id ∧ e.2.level ≠ "no_data") :
    TopWeight (rows ++ es.map (eventRow s)) id (levelWeight (a.upgradeAll es).level) := by
  induction es generalizing a rows with
  | nil =>
    rw [List.map_nil, List.append_nil]
    exact h
  | cons e es ih =>
    rw [List.forall_mem_cons] at h_es
    obtain ⟨⟨rfl, h_level⟩, h_rest⟩ := h_es
    have h_next := ih (h.upgrade (s := s) (e := e.2) h_level) h_rest
    rw [List.append_assoc] at h_next
    exact h_next

end Levels

/-! ### One scan -/

theorem index_unique {events : List (Event Num)} (h : events.Pairwise fun e e' => ¬SameKey e e')
    {i j : ℕ} {e e' : Event Num} (h_e : events[i]? = some e) (h_e' : events[j]? = some e')
    (h_same : SameKey e e') : i = j := by
  obtain ⟨h_i, rfl⟩ := List.getElem?_eq_some_iff.mp h_e
  obtain ⟨h_j, rfl⟩ := List.getElem?_eq_some_iff.mp h_e'
  have h_pairs := List.pairwise_iff_getElem.mp h
  rcases Nat.lt_trichotomy i j with h_lt | h_eq | h_gt
  · exact absurd h_same (h_pairs i j h_i h_j h_lt)
  · exact h_eq
  · exact absurd ⟨h_same.1.symm, h_same.2.symm⟩ (h_pairs j i h_j h_i h_gt)

section Step

variable {env : Env Num} {s : Scan Num} {db db₁ : Db Num}
  {detected : List (Event Num) × List Info} {noDataEvents events : List (Event Num)} {id : ℕ}
  {a : Alert Num}

theorem exists_before (h : Collected env s (buildCache env s db) detected noDataEvents db db₁)
    (h_row : db₁.alerts.lookup id = some a) :
    ∃ a₀, db.alerts.lookup id = some a₀ ∧ (a.status = .new → a₀.status = .new) ∧
      SameSeries a a₀ ∧ a.level = a₀.level := by
  rw [h.lookup] at h_row
  obtain ⟨a₀, h_a₀, rfl⟩ := Option.map_eq_some_iff.mp h_row
  refine ⟨a₀, h_a₀, collectedAlert_status, ⟨?_, ?_, ?_⟩, ?_⟩
  · exact collectedAlert_field (fun _ => rfl) (fun _ => rfl) (fun _ _ => rfl) id a₀
  · exact collectedAlert_field (fun _ => rfl) (fun _ => rfl) (fun _ _ => rfl) id a₀
  · exact collectedAlert_field (fun _ => rfl) (fun _ => rfl) (fun _ _ => rfl) id a₀
  · exact collectedAlert_field (fun _ => rfl) (fun _ => rfl) (fun _ _ => rfl) id a₀

theorem Law.collected (h_law : Law db)
    (h : Collected env s (buildCache env s db) detected noDataEvents db db₁) : Law db₁ where
  unique := by
    intro id id' a a' h_row h_row' h_new h_new' h_same
    obtain ⟨a₀, h_a₀, h_status, h_series, -⟩ := exists_before h h_row
    obtain ⟨a₀', h_a₀', h_status', h_series', -⟩ := exists_before h h_row'
    exact h_law.unique id id' a₀ a₀' h_a₀ h_a₀' (h_status h_new) (h_status' h_new')
      (h_series.symm.trans (h_same.trans h_series'))
  severity := by
    intro id a h_row h_new h_type
    obtain ⟨a₀, h_a₀, h_status, h_series, h_level⟩ := exists_before h h_row
    rw [h.events, h_level]
    exact h_law.severity id a₀ h_a₀ (h_status h_new) (h_series.alertType ▸ h_type)

theorem Consistent.collected (h_db : Consistent db)
    (h : Collected env s (buildCache env s db) detected noDataEvents db db₁) :
    Consistent db₁ where
  below := h.below h_db.below
  linked := by
    intro row h_row
    rw [h.events] at h_row
    obtain ⟨a, h_a⟩ := h_db.linked row h_row
    refine ⟨collectedAlert env s (buildCache env s db) detected row.alertId a, ?_⟩
    rw [h.lookup, h_a]
    rfl

theorem below_cache (h_db : Consistent db)
    (h : Collected env s (buildCache env s db) detected noDataEvents db db₁) :
    (buildCache env s db).Below db₁.nextAlertId := by
  rw [h.nextAlertId]
  exact below_buildCache h_db.below

theorem Consistent.recorded {c : Cache Num} (h_db : Consistent db₁)
    (h_cache : c.Below db₁.nextAlertId)
    (h_seen : ∀ id a, (id, a) ∈ c.activeAlerts → ∃ a₁, db₁.alerts.lookup id = some a₁) :
    Consistent (recordEvents env s c events db₁) where
  below := below_recordEvents h_db.below
  linked := by
    intro row h_row
    rcases List.mem_append.mp h_row with h_old | h_new
    · obtain ⟨a, h_a⟩ := h_db.linked row h_old
      exact ⟨_, lookup_old h_db.below h_a⟩
    · obtain ⟨⟨id, e⟩, h_e, rfl⟩ := List.mem_map.mp h_new
      rcases List.mem_append.mp h_e with h_fresh | h_existing
      · obtain ⟨-, i, e', rfl, h_e', -⟩ := mem_linkedNewEvents h_fresh
        refine ⟨alertOfEvent s c e', ?_⟩
        show (recordEvents env s c events db₁).alerts.lookup (db₁.nextAlertId + i) = _
        rw [lookup_new h_db.below h_cache, h_e']
        rfl
      · obtain ⟨-, a, h_joined⟩ := mem_existingAlertEvents.mp h_existing
        obtain ⟨a₁, h_a₁⟩ := h_seen id a (mem_of_activeAlert h_joined).1
        exact ⟨_, lookup_old h_db.below h_a₁⟩

theorem hidden_of_newAlertEvents {e : Event Num}
    (h_e : e ∈ newAlertEvents env (buildCache env s db) events) (h_ne : e.metricInstanceId ≠ "")
    (h_row : db.alerts.lookup id = some a) (h_key : a.metricInstanceId = e.metricInstanceId)
    (h_type : a.alertType = getEventAlertType e) :
    ∀ a', (id, a') ∉ (buildCache env s db).activeAlerts := by
  intro a' h_active
  have h_row' := (mem_getActiveAlerts.mp h_active).1
  rw [h_row] at h_row'
  cases h_row'
  have h_none := activeAlert_eq_none_iff.mp (mem_newAlertEvents.mp h_e).2
  refine h_none id a h_active ?_ h_type
  unfold getAlertMetricInstanceId
  rw [h_key, if_neg h_ne]

section Record

variable (h_db : Consistent db)
  (h : Collected env s (buildCache env s db) detected noDataEvents db db₁)

include h_db h

theorem clear_of_unique (h_unique : Unique (recordEvents env s (buildCache env s db)
    (detected.1 ++ noDataEvents) db₁)) :
    Clear env s db (detected.1 ++ noDataEvents) := by
  have h_below₁ := h.below h_db.below
  have h_cache := below_cache h_db h
  have h_fresh : ∀ i e, (newAlertEvents env (buildCache env s db)
      (detected.1 ++ noDataEvents))[i]? = some e →
      (recordEvents env s (buildCache env s db) (detected.1 ++ noDataEvents)
        db₁).alerts.lookup (db₁.nextAlertId + i) =
          some (alertOfEvent s (buildCache env s db) e) := by
    intro i e h_e
    rw [lookup_new h_below₁ h_cache, h_e]
    rfl
  constructor
  · intro e h_e id a h_row h_new h_policy h_key h_type
    have h_ne := key_ne_of_mem h.threshold h.noData (mem_newAlertEvents.mp h_e).1
    have h_hidden := hidden_of_newAlertEvents h_e h_ne h_row h_key h_type
    have h_row₁ : db₁.alerts.lookup id = some a := by
      rw [h.lookup, h_row, Option.map_some, collectedAlert_of_hidden h_hidden]
    have h_after : (recordEvents env s (buildCache env s db) (detected.1 ++ noDataEvents)
        db₁).alerts.lookup id = some (a.upgradeAll (joining env (buildCache env s db)
          (detected.1 ++ noDataEvents) id)) := lookup_old h_below₁ h_row₁
    obtain ⟨i, h_i⟩ := List.mem_iff_getElem?.mp h_e
    have h_same : SameSeries a (alertOfEvent s (buildCache env s db) e) :=
      ⟨h_policy, h_key, h_type⟩
    have h_id := h_unique id (db₁.nextAlertId + i) _ _ h_after (h_fresh i e h_i)
      (by rw [Alert.upgradeAll_status, h_new]) rfl ((sameSeries_upgradeAll _ a).trans h_same)
    have h_lt := h_below₁.lt h_row₁
    omega
  · rw [List.pairwise_iff_getElem]
    intro i j h_i h_j h_lt h_same
    have h_id := h_unique (db₁.nextAlertId + i) (db₁.nextAlertId + j) _ _
      (h_fresh i _ (List.getElem?_eq_getElem h_i)) (h_fresh j _ (List.getElem?_eq_getElem h_j))
      rfl rfl ⟨rfl, h_same.1, h_same.2⟩
    omega

theorem unique_of_clear (h_law : Law db)
    (h_clear : Clear env s db (detected.1 ++ noDataEvents)) :
    Unique (recordEvents env s (buildCache env s db) (detected.1 ++ noDataEvents) db₁) := by
  have h_below₁ := h.below h_db.below
  have h_cache := below_cache h_db h
  -- an old alert and a new one are not for one series
  have h_apart : ∀ (id i : ℕ) (a₁ : Alert Num) (e : Event Num),
      db₁.alerts.lookup id = some a₁ → a₁.status = .new →
      (newAlertEvents env (buildCache env s db) (detected.1 ++ noDataEvents))[i]? = some e →
      ¬SameSeries a₁ (alertOfEvent s (buildCache env s db) e) := by
    intro id i a₁ e h_row₁ h_new₁ h_e h_same
    obtain ⟨a₀, h_a₀, h_status, h_series, -⟩ := exists_before h h_row₁
    have h_same₀ := h_series.symm.trans h_same
    exact h_clear.noneHidden e (List.mem_of_getElem? h_e) id a₀ h_a₀ (h_status h_new₁)
      h_same₀.policyId h_same₀.metricInstanceId h_same₀.alertType
  intro id id' a a' h_row h_row' h_new h_new' h_same
  rcases lookup_recordEvents_eq_some h_below₁ h_cache h_row with
    ⟨a₁, h_a₁, rfl⟩ | ⟨i, e, rfl, h_e, rfl⟩
  · have h_old := (sameSeries_upgradeAll _ a₁).symm.trans h_same
    rw [Alert.upgradeAll_status] at h_new
    rcases lookup_recordEvents_eq_some h_below₁ h_cache h_row' with
      ⟨a₁', h_a₁', rfl⟩ | ⟨i, e, rfl, h_e, rfl⟩
    · rw [Alert.upgradeAll_status] at h_new'
      exact (h_law.collected h).unique id id' a₁ a₁' h_a₁ h_a₁' h_new h_new'
        (h_old.trans (sameSeries_upgradeAll _ a₁'))
    · exact absurd h_old (h_apart id i a₁ e h_a₁ h_new h_e)
  · rcases lookup_recordEvents_eq_some h_below₁ h_cache h_row' with
      ⟨a₁', h_a₁', rfl⟩ | ⟨j, e', rfl, h_e', rfl⟩
    · rw [Alert.upgradeAll_status] at h_new'
      exact absurd ((sameSeries_upgradeAll _ a₁').symm.trans h_same.symm)
        (h_apart id' i a₁' e h_a₁' h_new' h_e)
    · rw [index_unique h_clear.separate h_e h_e' ⟨h_same.metricInstanceId, h_same.alertType⟩]

omit h_db in
theorem level_of_joining (h_row : db₁.alerts.lookup id = some a) (h_type : a.alertType = .alert) :
    ∀ e ∈ joining env (buildCache env s db) (detected.1 ++ noDataEvents) id,
      e.1 = id ∧ e.2.level ≠ "no_data" := by
  intro e h_e
  obtain ⟨h_existing, h_id⟩ := List.mem_filter.mp h_e
  have h_id' := of_decide_eq_true h_id
  obtain ⟨-, a', h_joined⟩ := mem_existingAlertEvents.mp h_existing
  obtain ⟨h_active, -, h_kind⟩ := mem_of_activeAlert h_joined
  refine ⟨h_id', fun h_level => ?_⟩
  obtain ⟨a₀, h_a₀, -, h_series, -⟩ := exists_before h h_row
  rw [← h_id', (mem_getActiveAlerts.mp h_active).1] at h_a₀
  cases h_a₀
  rw [← h_series.alertType, h_type] at h_kind
  unfold getEventAlertType at h_kind
  rw [if_pos h_level] at h_kind
  cases h_kind

theorem topWeight_old (h_law : Law db) (h_row : db₁.alerts.lookup id = some a)
    (h_new : a.status = .new) (h_type : a.alertType = .alert) :
    TopWeight (recordEvents env s (buildCache env s db) (detected.1 ++ noDataEvents) db₁).events id
      (levelWeight (a.upgradeAll (joining env (buildCache env s db)
        (detected.1 ++ noDataEvents) id)).level) := by
  have h_top := ((h_law.collected h).severity id a h_row h_new h_type).upgradeAll (s := s)
    (level_of_joining h h_row h_type)
  refine h_top.congr fun row h_id => ?_
  show row ∈ db₁.events ++ _ ↔ row ∈ db₁.events ++ _
  rw [List.mem_append, List.mem_append]
  refine or_congr_right ?_
  rw [List.map_append, List.mem_append]
  constructor
  · intro h_mem
    obtain ⟨e, h_e, rfl⟩ := List.mem_map.mp h_mem
    exact Or.inr (List.mem_map_of_mem (List.mem_filter.mp h_e).1)
  · rintro (h_mem | h_mem)
    · -- a new event is linked to a new alert
      obtain ⟨⟨id', e⟩, h_e, rfl⟩ := List.mem_map.mp h_mem
      obtain ⟨-, i, -, h_id', -⟩ := mem_linkedNewEvents h_e
      have h_lt := (h.below h_db.below).lt h_row
      have h_eq : id' = id := h_id
      omega
    · obtain ⟨e, h_e, rfl⟩ := List.mem_map.mp h_mem
      exact List.mem_map_of_mem (List.mem_filter.mpr ⟨h_e, decide_eq_true h_id⟩)

theorem topWeight_new (h_clear : Clear env s db (detected.1 ++ noDataEvents)) {i : ℕ}
    {e : Event Num} (h_e : (newAlertEvents env (buildCache env s db)
      (detected.1 ++ noDataEvents))[i]? = some e) :
    TopWeight (recordEvents env s (buildCache env s db) (detected.1 ++ noDataEvents) db₁).events
      (db₁.nextAlertId + i) (levelWeight e.level) := by
  have h_below₁ := h.below h_db.below
  have h_cache := below_cache h_db h
  refine ⟨?_, fun row h_row h_id => ?_⟩
  · obtain ⟨id', h_id'⟩ : ∃ id, (id, e) ∈ linkedNewEvents db₁.nextAlertId
        (newAlertEvents env (buildCache env s db) (detected.1 ++ noDataEvents)) :=
      exists_mem_linkedNewEvents (List.mem_of_getElem? h_e)
    obtain ⟨-, j, e', rfl, h_e', h_key, h_kind⟩ := mem_linkedNewEvents h_id'
    obtain rfl : i = j := index_unique h_clear.separate h_e h_e' ⟨h_key.symm, h_kind.symm⟩
    refine ⟨eventRow s (db₁.nextAlertId + i, e), ?_, rfl, rfl⟩
    exact List.mem_append_right _ (List.mem_map_of_mem (List.mem_append_left _ h_id'))
  · rcases List.mem_append.mp h_row with h_old | h_added
    · obtain ⟨a₁, h_a₁⟩ := (h_db.collected h).linked row h_old
      have h_lt := h_below₁.lt h_a₁
      omega
    · obtain ⟨⟨id', e'⟩, h_e', rfl⟩ := List.mem_map.mp h_added
      obtain rfl : id' = db₁.nextAlertId + i := h_id
      rcases List.mem_append.mp h_e' with h_fresh | h_existing
      · obtain ⟨h_mem, j, e'', h_j, h_e'', h_key, h_kind⟩ := mem_linkedNewEvents h_fresh
        obtain rfl : i = j := by omega
        obtain ⟨k, h_k⟩ := List.mem_iff_getElem?.mp h_mem
        have h_index := index_unique h_clear.separate h_k h_e'' ⟨h_key.symm, h_kind.symm⟩
        rw [h_index, h_e] at h_k
        cases h_k
        exact Nat.le_refl _
      · obtain ⟨-, a', h_joined⟩ := mem_existingAlertEvents.mp h_existing
        have h_lt := h_cache _ a' (mem_of_activeAlert h_joined).1
        omega

theorem severity_of_clear (h_law : Law db)
    (h_clear : Clear env s db (detected.1 ++ noDataEvents)) :
    Severity (recordEvents env s (buildCache env s db) (detected.1 ++ noDataEvents) db₁) := by
  intro id a h_row h_new h_type
  rcases lookup_recordEvents_eq_some (h.below h_db.below) (below_cache h_db h) h_row with
    ⟨a₁, h_a₁, rfl⟩ | ⟨i, e, rfl, h_e, rfl⟩
  · rw [Alert.upgradeAll_status] at h_new
    rw [Alert.upgradeAll_alertType] at h_type
    exact topWeight_old h_db h h_law h_a₁ h_new h_type
  · have h_level : e.level ≠ "no_data" := by
      intro h_level
      have h_kind : getEventAlertType e = .alert := h_type
      unfold getEventAlertType at h_kind
      rw [if_pos h_level] at h_kind
      cases h_kind
    have h_same : (alertOfEvent s (buildCache env s db) e).level = e.level := if_neg h_level
    rw [h_same]
    exact topWeight_new h_db h h_clear h_e

end Record

/-- **One scan.** A scan that succeeds keeps the law exactly if its events are clear. -/
theorem step_iff (h_db : Consistent db) (h_law : Law db)
    (h_completes : (run env s).completes db = true) :
    Consistent (step env db s) ∧ (Law (step env db s) ↔ ClearScan env db s) := by
  obtain ⟨u, h_run⟩ := Exec.completes_iff.mp h_completes
  unfold step
  rcases run_spec h_run with ⟨h_source, h_empty, h_db'⟩ |
    ⟨h_scans, detected, noDataEvents, db₁, h, h_db'⟩
  · rw [h_db']
    exact ⟨h_db, fun _ h_scans => absurd h_empty (h_scans h_source), fun _ => h_law⟩
  · rw [h_db']
    have h_seen : ∀ id a, (id, a) ∈ (buildCache env s db).activeAlerts →
        ∃ a₁, db₁.alerts.lookup id = some a₁ := by
      intro id a h_active
      refine ⟨collectedAlert env s (buildCache env s db) detected id a, ?_⟩
      rw [h.lookup, (mem_getActiveAlerts.mp h_active).1]
      rfl
    refine ⟨(h_db.collected h).recorded (below_cache h_db h) h_seen, ?_, ?_⟩
    · intro h_law' _ detected' noDataEvents' h_threshold h_noData
      rw [h_threshold.unique h.threshold, h_noData.unique h.noData]
      exact clear_of_unique h_db h h_law'.unique
    · intro h_clear
      have h_here := h_clear (fun h_source h_empty => h_scans ⟨h_source, h_empty⟩) detected
        noDataEvents h.threshold h.noData
      exact ⟨unique_of_clear h_db h h_law h_here, severity_of_clear h_db h h_law h_here⟩

end Step

/-! ### Runs of scans -/

/-- **One alert for a series.** It stays so exactly if the filter hides no alert that an event looks
for. -/
theorem unique_iff (env : Env Num) {db : Db Num} (h_db : Consistent db) (h_law : Law db)
    {scans : List (Scan Num)}
    (h_succeed : Runs.Along (step env) (fun db s _ => (run env s).completes db = true) db scans) :
    Runs.Always (step env) Law db scans ↔
      Runs.Along (step env) (fun db s _ => ClearScan env db s) db scans := by
  rw [Runs.always_iff_along_post, and_iff_right h_law]
  apply Runs.along_iff h_succeed (I := fun db => Consistent db ∧ Law db)
  · rintro db s ⟨h_db, h_law⟩ h_completes
    obtain ⟨h_next, h_iff⟩ := step_iff h_db h_law h_completes
    exact ⟨h_iff, fun h_law' => ⟨h_next, h_law'⟩⟩
  · exact ⟨h_db, h_law⟩

theorem consistent_empty : Consistent ({} : Db ℤ) where
  below := fun _ _ => rfl
  linked := fun _ h => absurd h List.not_mem_nil

theorem law_empty : Law ({} : Db ℤ) where
  unique := fun _ _ _ _ h_row => Option.noConfusion rfl (heq_of_eq h_row)
  severity := fun _ _ h_row => Option.noConfusion rfl (heq_of_eq h_row)

def hostScan : Scan ℤ where
  policy :=
    { id := 1
      source := true
      groupBy := ["instance_id"]
      enableAlerts := ["threshold"]
      threshold := [⟨">", 0, "warning"⟩] }
  instances := [("('host1',)", "host1")]
  named := named_host
  lastRunTime := 300
  thresholdResult := some [hostSeries "1"]

def hostEvent : Event ℤ := ⟨"('host1',)", "('host1',)", some 1, "warning", "warning"⟩

theorem unique_host : Runs.Always (step smallEnv) Law {} [hostScan] := by
  have h_succeed : Runs.Along (step smallEnv)
      (fun db s _ => (run smallEnv s).completes db = true) {} [hostScan] := ⟨rfl, trivial⟩
  refine (unique_iff smallEnv consistent_empty law_empty h_succeed).mpr ⟨?_, trivial⟩
  intro _ detected noDataEvents h_threshold h_noData
  have h_found : detected = ([hostEvent], []) :=
    h_threshold.unique (by unfold ThresholdFinds; rfl)
  have h_none : noDataEvents = [] := h_noData.unique (by unfold NoDataFinds; rfl)
  rw [h_found, h_none]
  refine ⟨fun e _ id a h_row => Option.noConfusion rfl (heq_of_eq h_row), ?_⟩
  exact List.pairwise_singleton _ hostEvent

/-- A scan for missing data of an instance with two dimensions; it has no baselines yet. -/
def clusterScan : Scan ℤ where
  policy :=
    { id := 1
      source := true
      groupBy := ["cluster", "instance_id"]
      enableAlerts := ["no_data"]
      noDataPeriod := true
      noDataLevel := "warning" }
  instances := [("('vc-a', 'host-1')", "host-1")]
  lastRunTime := 300

/-- **Two alerts.** The next scan does not see the first one. -/
theorem unique_cluster :
    Consistent ({} : Db ℤ) ∧ Law ({} : Db ℤ) ∧
      Runs.Along (step smallEnv) (fun db s _ => (run smallEnv s).completes db = true) {}
        [clusterScan, clusterScan] ∧
      ¬Runs.Always (step smallEnv) Law {} [clusterScan, clusterScan] := by
  refine ⟨consistent_empty, law_empty, ⟨rfl, rfl, trivial⟩, fun h => ?_⟩
  have h_unique := (Runs.Always.last h).unique
  have h_id : 1 = 2 := h_unique 1 2 _ _ rfl rfl rfl rfl ⟨rfl, rfl, rfl⟩
  cases h_id

end UniqueAlerts
end Monitor
