import BkLite.Alerts.Writers
import BkLite.Framework.Numerals
import Mathlib.Data.List.ReduceOption

/-!
# The isolation of strategies

The aggregation query puts the id of the strategy in front of the key of a group, and
`_normalize_fingerprint` hashes what stands behind it. The alert of a group is looked up by that
hash alone, so the id plays no part (`fingerprints_passResults`): a pass finds the active alert of
any strategy that has a group with the same key, and writes the group to it.
-/

namespace Alerts
namespace Isolation

open Py Aggregation

/-! ### The keys of a pass -/

/-- The keys of the groups of a pass; events without a dimension and without an `external_id` have
none. -/
def groupKeys (matching : Matches) (s : AlarmStrategy) (clock : PassClock) (store : Store) :
    List String :=
  (fromKeys (((matchedEvents matching s clock.now store.events).filter fun e =>
    clock.query - s.window ≤ e.2.receivedAt ∧ e.2.action = .created).map fun e =>
      effectiveDimension s.dimensions e.1 e.2)).reduceOption

def fingerprints (env : Env) (rs : List AggregationResult) : List String :=
  rs.filterMap fun r => (normalizeFingerprint env r).fingerprint

section Hash

variable {env : Env} {r : AggregationResult}

theorem behindBar_key (n : ℕ) (key : String) :
    behindBar (toString n ++ "|" ++ key) = key := by
  have h_digits : ∀ c ∈ (toString n).toList, (decide (c ≠ '|')) = true := by
    intro c h_c
    rw [Nat.toString_eq_ofList_toDigits, String.toList_ofList] at h_c
    have h_digit := Nat.isDigit_of_mem_toDigits (by decide) (by decide) h_c
    refine decide_eq_true fun h_bar => ?_
    rw [h_bar] at h_digit
    exact absurd h_digit (by decide)
  unfold behindBar
  rw [String.toList_append, String.toList_append, List.append_assoc,
    List.dropWhile_append_of_pos h_digits]
  exact String.ofList_toList

theorem normalizeFingerprint_fingerprint {fp : String} (h : r.fingerprint = some fp)
    (h_ne : fp ≠ "") :
    (normalizeFingerprint env r).fingerprint = some (env.md5 (behindBar fp)) := by
  unfold normalizeFingerprint
  rw [h]
  dsimp only
  rw [if_neg h_ne]
  split_ifs <;> rfl

theorem normalizeFingerprint_of_none (h : r.fingerprint = none) :
    (normalizeFingerprint env r).fingerprint = none := by
  unfold normalizeFingerprint
  rw [h]
  exact h

theorem fingerprint_aggregateGroup (n : ℕ) (key : Option String) (first : EventId × Event)
    (rest : List (EventId × Event)) :
    (normalizeFingerprint env (aggregateGroup env n key first rest)).fingerprint =
      key.map env.md5 := by
  cases key with
  | none => exact normalizeFingerprint_of_none rfl
  | some key =>
    have h_ne : toString n ++ "|" ++ key ≠ "" := by
      intro h_empty
      have h_chars := congrArg String.toList h_empty
      rw [String.toList_append, String.toList_append] at h_chars
      simp at h_chars
    rw [normalizeFingerprint_fingerprint rfl h_ne, behindBar_key]
    rfl

end Hash

section Query

variable (env : Env) (s : AlarmStrategy)

def queried (windowStart : ℤ) (events : List (EventId × Event)) : List (EventId × Event) :=
  events.filter fun e => windowStart ≤ e.2.receivedAt ∧ e.2.action = .created

theorem aggregationQuery_eq (windowStart : ℤ) (events : List (EventId × Event)) :
    List.Forall₂ (fun r key =>
        r.eventIds = ((queried windowStart events).filter fun e =>
          effectiveDimension s.dimensions e.1 e.2 = key).map Prod.fst ∧
        (normalizeFingerprint env r).fingerprint = key.map env.md5)
      (aggregationQuery env s windowStart events)
      (fromKeys ((queried windowStart events).map fun e =>
        effectiveDimension s.dimensions e.1 e.2)) := by
  unfold aggregationQuery queried
  dsimp only
  generalize events.filter (fun e =>
    decide (windowStart ≤ e.2.receivedAt ∧ e.2.action = .created)) = rows
  -- every key is that of a row, so no group is empty
  have h_keys : ∀ key ∈ fromKeys (rows.map fun e => effectiveDimension s.dimensions e.1 e.2),
      ∃ e ∈ rows, effectiveDimension s.dimensions e.1 e.2 = key :=
    fun key h_key => List.mem_map.mp (mem_fromKeys.mp h_key)
  generalize fromKeys (rows.map fun e => effectiveDimension s.dimensions e.1 e.2) = keys
    at h_keys ⊢
  induction keys with
  | nil => exact .nil
  | cons key keys ih =>
    have h_rest := ih fun key' h_key' => h_keys key' (List.mem_cons_of_mem key h_key')
    obtain ⟨e, h_e, h_key⟩ := h_keys key List.mem_cons_self
    have h_mem : e ∈ rows.filter fun e =>
        decide (effectiveDimension s.dimensions e.1 e.2 = key) :=
      List.mem_filter.mpr ⟨h_e, decide_eq_true h_key⟩
    obtain ⟨first, rest, h_group⟩ := List.exists_cons_of_ne_nil (List.ne_nil_of_mem h_mem)
    rw [List.filterMap_cons, h_group]
    refine .cons ⟨?_, fingerprint_aggregateGroup s.id key first rest⟩ h_rest
    rw [h_group]
    rfl

theorem map_fingerprint_aggregationQuery (windowStart : ℤ) (events : List (EventId × Event)) :
    (aggregationQuery env s windowStart events).map
        (fun r => (normalizeFingerprint env r).fingerprint) =
      (fromKeys ((queried windowStart events).map fun e =>
        effectiveDimension s.dimensions e.1 e.2)).map (Option.map env.md5) := by
  refine List.forall₂_eq_eq_eq.le _ _ ?_
  rw [List.forall₂_map_left_iff, List.forall₂_map_right_iff]
  exact (aggregationQuery_eq env s windowStart events).imp fun _ _ h => h.2

/-- **Fingerprints.** The alerts of a pass are looked up with the hashes of its keys: the id of
the strategy is in none of them. -/
theorem fingerprints_passResults (matching : Matches) (clock : PassClock) (store : Store) :
    fingerprints env (passResults env matching s clock store) =
      (groupKeys matching s clock store).map env.md5 := by
  have h_query := map_fingerprint_aggregationQuery env s (clock.query - s.window)
    (matchedEvents matching s clock.now store.events)
  calc fingerprints env (passResults env matching s clock store)
    _ = ((passResults env matching s clock store).map
          fun r => (normalizeFingerprint env r).fingerprint).reduceOption := by
        rw [List.reduceOption, List.filterMap_map]
        rfl
    _ = _ := by
        rw [passResults, h_query, List.reduceOption_map]
        rfl

end Query

/-! ### The alerts of the groups -/

/-- The alerts that the groups of a pass are written to, one after another, as they are written. -/
def raisedAlerts (env : Env) (s : AlarmStrategy) (now : ℤ) :
    Store → List AggregationResult → List (AlertId × Alert)
  | _, [] => []
  | store, r :: rs =>
    match (normalizeFingerprint env r).fingerprint with
    | none => raisedAlerts env s now store rs
    | some fp =>
      builtAlert env s (normalizeFingerprint env r) fp now store ::
        raisedAlerts env s now (processResult env s now store r) rs

def owner (s : AlarmStrategy) (db : Db) (fp : String) : Option String :=
  match findAlert fp db with
  | some (_, alert) => alert.ruleId
  | none => some (toString s.id)

section Raised

variable {env : Env} {s : AlarmStrategy} {r : AggregationResult} {rs : List AggregationResult}
  {fp fp' : String} {now : ℤ} {store : Store} {k : AlertId} {alert : Alert}

theorem builtAlert_ruleId :
    (builtAlert env s r fp now store).2.ruleId = owner s store.db fp := by
  unfold owner
  cases h_found : findAlert fp store.db with
  | none =>
    rw [builtAlert_of_none h_found]
    rfl
  | some found =>
    obtain ⟨k, alert⟩ := found
    rw [builtAlert_of_some h_found]
    rfl

theorem findAlert_processResult (h_below : Table.Below store.db.alerts store.nextAlertId)
    (h : (normalizeFingerprint env r).fingerprint = some fp') (h_ne : fp' ≠ fp) :
    findAlert fp (processResult env s now store r).db = findAlert fp store.db := by
  have h_other : ∀ alert : Alert, alert.fingerprint = fp' →
      decide (alert.fingerprint = fp ∧ alert.status.IsActive) = false := by
    intro alert h_fp
    refine decide_eq_false fun h_both => ?_
    exact h_ne (h_fp.symm.trans h_both.1)
  unfold findAlert
  rw [(processResult_of_some h).1]
  refine Table.latestWhere_insert_of_not ?_ ?_
  · refine h_other _ ?_
    rw [(checkedAlert_keeps store.events now _).1]
    exact builtAlert_keeps.1
  · intro alert₀ h_row
    cases h_found : findAlert fp' store.db with
    | none =>
      rw [builtAlert_of_none h_found, h_below _ le_rfl] at h_row
      cases h_row
    | some found =>
      obtain ⟨k, alert⟩ := found
      obtain ⟨h_alert, h_fp, -⟩ := findAlert_eq_some h_found
      rw [builtAlert_of_some h_found, h_alert] at h_row
      obtain rfl := Option.some.inj h_row
      exact h_other alert h_fp

theorem ruleIds_raisedAlerts (h_below : Table.Below store.db.alerts store.nextAlertId)
    (h_nodup : (fingerprints env rs).Nodup) :
    (raisedAlerts env s now store rs).map (·.2.ruleId) =
      (fingerprints env rs).map (owner s store.db) := by
  induction rs generalizing store with
  | nil => rfl
  | cons r rs ih =>
    cases h_fp : (normalizeFingerprint env r).fingerprint with
    | none =>
      have h_same : fingerprints env (r :: rs) = fingerprints env rs :=
        List.filterMap_cons_none h_fp
      rw [h_same] at h_nodup ⊢
      rw [raisedAlerts, h_fp]
      exact ih h_below h_nodup
    | some fp =>
      have h_cons : fingerprints env (r :: rs) = fp :: fingerprints env rs :=
        List.filterMap_cons_some h_fp
      rw [h_cons, List.nodup_cons] at h_nodup
      have h_later : (fingerprints env rs).map (owner s (processResult env s now store r).db) =
          (fingerprints env rs).map (owner s store.db) := by
        refine List.map_congr_left fun fp' h_mem => ?_
        have h_ne : fp ≠ fp' := fun h_eq => h_nodup.1 (h_eq ▸ h_mem)
        unfold owner
        rw [findAlert_processResult h_below h_fp h_ne]
      rw [h_cons, raisedAlerts, h_fp]
      dsimp only
      rw [List.map_cons, List.map_cons, builtAlert_ruleId,
        ih (below_processResult h_below) h_nodup.2, h_later]

theorem lookup_foldl_processResult (h_below : Table.Below store.db.alerts store.nextAlertId)
    (h_nodup : (fingerprints env rs).Nodup) (h_row : store.db.alerts.lookup k = some alert)
    (h_found : ∀ fp ∈ fingerprints env rs, ∀ a, findAlert fp store.db ≠ some (k, a)) :
    (rs.foldl (processResult env s now) store).db.alerts.lookup k = some alert := by
  induction rs generalizing store with
  | nil => exact h_row
  | cons r rs ih =>
    rw [List.foldl_cons]
    cases h_fp : (normalizeFingerprint env r).fingerprint with
    | none =>
      have h_same : fingerprints env (r :: rs) = fingerprints env rs :=
        List.filterMap_cons_none h_fp
      rw [h_same] at h_nodup h_found
      rw [processResult_of_none h_fp]
      exact ih h_below h_nodup h_row h_found
    | some fp =>
      have h_cons : fingerprints env (r :: rs) = fp :: fingerprints env rs :=
        List.filterMap_cons_some h_fp
      rw [h_cons] at h_nodup h_found
      rw [List.nodup_cons] at h_nodup
      have h_key : k ≠ (builtAlert env s (normalizeFingerprint env r) fp now store).1 := by
        cases h_find : findAlert fp store.db with
        | none =>
          rw [builtAlert_of_none h_find]
          exact Nat.ne_of_lt (h_below.lt h_row)
        | some found =>
          obtain ⟨k', a⟩ := found
          rw [builtAlert_of_some h_find]
          rintro rfl
          exact h_found fp List.mem_cons_self a h_find
      refine ih (below_processResult h_below) h_nodup.2 ?_ ?_
      · rw [(processResult_of_some h_fp).1, Table.lookup_insert, if_neg h_key]
        exact h_row
      · intro fp' h_mem a
        have h_ne : fp ≠ fp' := fun h_eq => h_nodup.1 (h_eq ▸ h_mem)
        rw [findAlert_processResult h_below h_fp h_ne]
        exact h_found fp' (List.mem_cons_of_mem fp h_mem) a

end Raised

/-! ### The law -/

/-- What a pass updates of an alert is as it was. -/
structure Unchanged (alert alert' : Alert) : Prop where
  level : alert'.level = alert.level
  lastEventTime : alert'.lastEventTime = alert.lastEventTime
  events : alert'.events = alert.events
  /-- `STANDARD_FIELDS`. -/
  standard : (alert'.sourceName, alert'.resourceId, alert'.resourceName, alert'.resourceType,
      alert'.item) =
    (alert.sourceName, alert.resourceId, alert.resourceName, alert.resourceType, alert.item)
  labels : alert'.labels = alert.labels
  enrichment : alert'.enrichment = alert.enrichment
  dimensions : alert'.dimensions = alert.dimensions

section Law

variable (env : Env) (matching : Matches) (s other : AlarmStrategy) (clock : PassClock)
  (store : Store)

/-- A pass over `s` is isolated from the strategy `other`. -/
structure Isolated : Prop where
  /-- The alerts that `other` created are not changed. -/
  unchanged : ∀ k alert, store.db.alerts.lookup k = some alert →
    alert.ruleId = some (toString other.id) →
      ∃ alert', (processStrategy env matching s clock store).db.alerts.lookup k = some alert' ∧
        Unchanged alert alert'
  /-- The groups, whatever their values, are raised in alerts that `other` did not create. -/
  separate : ∀ row ∈ raisedAlerts env s clock.write store (passResults env matching s clock store),
    row.2.ruleId ≠ some (toString other.id)

variable {env matching s other clock store}

theorem nodup_fingerprints
    (h_md5 : ∀ key ∈ groupKeys matching s clock store, ∀ key' ∈ groupKeys matching s clock store,
      env.md5 key = env.md5 key' → key = key') :
    (fingerprints env (passResults env matching s clock store)).Nodup := by
  rw [fingerprints_passResults]
  have h_keys : (groupKeys matching s clock store).Nodup := by
    refine (nodup_fromKeys _).filterMap ?_
    intro key key' x h_key h_key'
    exact h_key.trans h_key'.symm
  exact h_keys.map_on h_md5

end Law

/-! ### Two strategies for one host -/

def plainEnv : Env where
  md5 := id
  castLevel level := if level = "0" then some 0 else if level = "2" then some 2 else none
  dumps _ := ""
  alertLevels := [0, 1, 2]

def processorAlarms : AlarmStrategy := { id := 1, groupBy := [.str "resource_name"] }

def diskAlarms : AlarmStrategy := { id := 2, groupBy := [.str "resource_name"] }

def oneEach : Matches := fun s eid _ => s.id = eid

def passClock : PassClock := ⟨100, 100, 101⟩

def hostEvents : Store where
  events := ((∅ : Table EventId Event).insert 1
    { level := "0", resourceName := some "db-1", receivedAt := 50 }).insert 2
    { level := "2", resourceName := some "db-1", receivedAt := 60 }
  db := { alerts := ∅, assignments := ∅, escalations := ∅, reminders := ∅, users := [], outbox := [] }
  nextAlertId := 0

end Isolation
end Alerts
