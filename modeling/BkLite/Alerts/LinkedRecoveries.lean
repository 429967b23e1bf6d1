import BkLite.Alerts.Lifecycle

/-!
# What a linked recovery does

`RecoveryHandler` links a recovery event to the alerts with an event of its `external_id`, and where
there is none, to the one alert with a created event of its source, item and resource. The checker
that runs after the commit knows the `external_id` only. So an alert whose created events are all
recovered recovers, unless one of them is so by the fallback key alone (`effective_iff`).

The tables do not say how a recovery event came to be linked; for the links from before the batch it
is an arbitrary function.
-/

namespace Alerts
namespace LinkedRecoveries

open Lifecycle (recoveryEvents)
open Aggregation (checkedAlert)

/-! ### Links -/

inductive Criterion
  | externalId
  | fallbackKey
deriving DecidableEq, Repr

def Criterion.meets (c : Criterion) (r created : Event) : Bool :=
  (hasExternalId r && decide (r.externalId = created.externalId)) ||
    (decide (c = .fallbackKey) && (Alerts.fallbackKey r).isSome &&
      decide (Alerts.fallbackKey r = Alerts.fallbackKey created))

def runRecoveryChecks (touchedAlerts : List AlertId) (now : ℤ) (s : Store) : Store :=
  touchedAlerts.foldl (fun s k => checkAndRecoverAlert k now s) s

/-- `handle_recovery_events`, with the checks after the commit. -/
def handleAndCheck (batch : List (EventId × Event)) (now : ℤ) (s : Store) : Store :=
  let linked := handleRecoveryEvents batch s
  runRecoveryChecks linked.2 now linked.1

section Links

variable (earlier : AlertId → EventId → Criterion) (batch : List (EventId × Event)) (s : Store)

def matching (r : Event) : List AlertId := matchingAlerts (affectedAlerts batch s) r s

def criterionOf (r : Event) : Criterion :=
  if (affectedAlerts batch s).any fun k => linkedAny s k (·.externalId = r.externalId) then
    .externalId
  else .fallbackKey

def IsLinked (k : AlertId) (alert : Alert) (eid : EventId) : Prop :=
  eid ∈ alert.events ∨ ∃ r, (eid, r) ∈ batch ∧ k ∈ matching batch s r

def linkedBy (k : AlertId) (alert : Alert) (eid : EventId) (r : Event) : Criterion :=
  if eid ∈ alert.events then earlier k eid else criterionOf batch s r

def Recovered (k : AlertId) (alert : Alert) (created : Event) : Prop :=
  ∃ eid r, IsLinked batch s k alert eid ∧ s.events.lookup eid = some r ∧ isRecovery r = true ∧
    (linkedBy earlier batch s k alert eid r).meets r created = true ∧
    createdEventTime created < recoveryEventTime r

/-- A linked recovery with the same `external_id` is later than the created event. -/
def RecoveredById (k : AlertId) (alert : Alert) (created : Event) : Prop :=
  ∃ eid r, IsLinked batch s k alert eid ∧ s.events.lookup eid = some r ∧ recovers created r = true

def AllCreated (k : AlertId) (alert : Alert) (P : Event → Prop) : Prop :=
  ∀ eid e, IsLinked batch s k alert eid → s.events.lookup eid = some e → e.action = .created → P e

/-- **Linked recoveries are effective.** -/
structure Effective (now : ℤ) : Prop where
  recovered : ∀ k alert, s.db.alerts.lookup k = some alert → k ∈ (handleRecoveryEvents batch s).2 →
    AllCreated batch s k alert (Recovered earlier batch s k alert) →
    ∃ alert', (handleAndCheck batch now s).db.alerts.lookup k = some alert' ∧
      alert'.status = .autoRecovery
  kept : ∀ k alert, s.db.alerts.lookup k = some alert → alert.status.IsActive →
    ¬AllCreated batch s k alert (Recovered earlier batch s k alert) →
    ∃ alert', (handleAndCheck batch now s).db.alerts.lookup k = some alert' ∧
      alert'.status = alert.status

end Links

section Proofs

variable {earlier : AlertId → EventId → Criterion} {batch : List (EventId × Event)} {s : Store}
  {k : AlertId} {alert alert₁ : Alert} {now : ℤ}

theorem addEvents {xs : List (EventId × AlertId)} :
    (∀ eid, eid ∈ (xs.foldl (fun a m => addEvent m.1 a) alert).events ↔
      eid ∈ alert.events ∨ eid ∈ xs.map Prod.fst) ∧
      (xs.foldl (fun a m => addEvent m.1 a) alert).status = alert.status := by
  induction xs generalizing alert with
  | nil => exact ⟨fun eid => by simp, rfl⟩
  | cons x xs ih =>
    obtain ⟨h_events, h_status⟩ := @ih (addEvent x.1 alert)
    refine ⟨fun eid => ?_, h_status⟩
    have h_add : eid ∈ (addEvent x.1 alert).events ↔ eid ∈ alert.events ∨ eid = x.1 := by
      unfold addEvent
      dsimp only
      split_ifs with h_old
      · exact ⟨.inl, fun h => h.elim id fun h_eq => h_eq ▸ h_old⟩
      · rw [List.mem_append, List.mem_singleton]
    rw [List.foldl_cons, h_events, h_add, List.map_cons, List.mem_cons, or_assoc]

variable (batch) in
theorem lookup_handleRecoveryEvents (h : s.db.alerts.lookup k = some alert) :
    ∃ alert₁, (handleRecoveryEvents batch s).1.db.alerts.lookup k = some alert₁ ∧
      alert₁.status = alert.status ∧ ∀ eid, eid ∈ alert₁.events ↔ IsLinked batch s k alert eid := by
  unfold handleRecoveryEvents
  dsimp only
  rw [foldl_linkEvent, Table.lookup_foldl_modify Prod.snd (fun m => addEvent m.1), h]
  refine ⟨_, rfl, addEvents.2, fun eid => (addEvents.1 eid).trans (or_congr Iff.rfl ?_)⟩
  constructor
  · intro h_mem
    obtain ⟨⟨eid', k'⟩, h_pair, h_eid⟩ := List.mem_map.mp h_mem
    obtain ⟨h_pair, h_k⟩ := List.mem_filter.mp h_pair
    obtain ⟨m, h_m, h_pair⟩ := List.mem_flatMap.mp h_pair
    obtain ⟨r, h_r, rfl⟩ := List.mem_map.mp h_m
    obtain ⟨k'', h_k'', h_eq⟩ := List.mem_map.mp h_pair
    cases h_eq
    cases h_eid
    exact ⟨r.2, h_r, of_decide_eq_true h_k ▸ h_k''⟩
  · rintro ⟨r, h_r, h_k⟩
    refine List.mem_map.mpr ⟨(eid, k), List.mem_filter.mpr ⟨?_, decide_eq_true rfl⟩, rfl⟩
    exact List.mem_flatMap.mpr ⟨(eid, matching batch s r), List.mem_map_of_mem h_r,
      List.mem_map_of_mem h_k⟩

theorem mem_touched : k ∈ (handleRecoveryEvents batch s).2 ↔
    ∃ r ∈ batch, k ∈ matching batch s r.2 := by
  unfold handleRecoveryEvents
  simp [matching]

theorem of_touched (h : s.db.alerts.lookup k = some alert)
    (h_touched : k ∈ (handleRecoveryEvents batch s).2) :
    alert.status.IsActive ∧ ∃ eid e, eid ∈ alert.events ∧ s.events.lookup eid = some e ∧
      e.action = .created := by
  obtain ⟨r, -, h_k⟩ := mem_touched.mp h_touched
  obtain ⟨alert', h_row, h_affected⟩ := Table.mem_keysWhere.mp (mem_matchingAlerts h_k)
  cases h.symm.trans h_row
  obtain ⟨h_active, h_any⟩ := of_decide_eq_true h_affected
  obtain ⟨e, h_e, h_asks⟩ := List.any_eq_true.mp h_any
  obtain ⟨eid, h_eid, h_lookup⟩ := List.mem_filterMap.mp h_e
  obtain ⟨r', -, h_asks⟩ := List.any_eq_true.mp h_asks
  refine ⟨h_active, eid, e, h_eid, h_lookup, ?_⟩
  simp only [asksFor, Bool.and_eq_true, decide_eq_true_eq] at h_asks
  exact h_asks.1.1

theorem shouldRecover_iff (h_links : ∀ eid, eid ∈ alert₁.events ↔ IsLinked batch s k alert eid)
    (h_created : ∃ eid e, eid ∈ alert.events ∧ s.events.lookup eid = some e ∧
      e.action = .created) :
    shouldRecover (linkedEvents s.events alert₁) = true ↔
      AllCreated batch s k alert (RecoveredById batch s k alert) := by
  have h_mem (e : Event) : e ∈ linkedEvents s.events alert₁ ↔
      ∃ eid, IsLinked batch s k alert eid ∧ s.events.lookup eid = some e := by
    simp only [linkedEvents, List.mem_filterMap, h_links]
  have h_by (created : Event) : (hasExternalId created &&
      (linkedEvents s.events alert₁).any (recovers created)) = true ↔
        RecoveredById batch s k alert created := by
    rw [Bool.and_eq_true, List.any_eq_true]
    constructor
    · rintro ⟨-, r, h_r, h_recovers⟩
      obtain ⟨eid, h_link, h_row⟩ := (h_mem r).mp h_r
      exact ⟨eid, r, h_link, h_row, h_recovers⟩
    · rintro ⟨eid, r, h_link, h_row, h_recovers⟩
      refine ⟨?_, r, (h_mem r).mpr ⟨eid, h_link, h_row⟩, h_recovers⟩
      -- the `external_id` is that of the recovery
      simp only [recovers, Bool.and_eq_true, decide_eq_true_eq] at h_recovers
      rw [hasExternalId, ← h_recovers.1.2]
      exact h_recovers.1.1.2
  obtain ⟨eid₀, e₀, h_eid₀, h_row₀, h_action₀⟩ := h_created
  have h_some : (linkedEvents s.events alert₁).filter (·.action = .created) ≠ [] :=
    List.ne_nil_of_mem (List.mem_filter.mpr
      ⟨(h_mem e₀).mpr ⟨eid₀, .inl h_eid₀, h_row₀⟩, decide_eq_true h_action₀⟩)
  rw [shouldRecover, List.isEmpty_eq_false_iff.mpr h_some, Bool.false_and, Bool.not_false,
    Bool.true_and, List.all_eq_true]
  constructor
  · intro h eid e h_link h_row h_action
    exact (h_by e).mp (h e (List.mem_filter.mpr
      ⟨(h_mem e).mpr ⟨eid, h_link, h_row⟩, decide_eq_true h_action⟩))
  · intro h e h_e
    obtain ⟨h_linked, h_action⟩ := List.mem_filter.mp h_e
    obtain ⟨eid, h_link, h_row⟩ := (h_mem e).mp h_linked
    exact (h_by e).mpr (h eid e h_link h_row (of_decide_eq_true h_action))

variable (batch) in
theorem status_handleAndCheck (h : s.db.alerts.lookup k = some alert) (now : ℤ) :
    ∃ alert', (handleAndCheck batch now s).db.alerts.lookup k = some alert' ∧
      (k ∈ (handleRecoveryEvents batch s).2 ∧
          AllCreated batch s k alert (RecoveredById batch s k alert) →
        alert'.status = .autoRecovery) ∧
      (¬AllCreated batch s k alert (RecoveredById batch s k alert) →
        alert'.status = alert.status) := by
  obtain ⟨alert₁, h_row, h_status, h_links⟩ := lookup_handleRecoveryEvents batch h
  have h_nodup : (handleRecoveryEvents batch s).2.Nodup := Py.nodup_fromKeys _
  have h_checks := (lookup_checks h_nodup now (handleRecoveryEvents batch s).1 k).2
  by_cases h_touched : k ∈ (handleRecoveryEvents batch s).2
  · have h_iff := shouldRecover_iff h_links (of_touched h h_touched).2
    refine ⟨checkedAlert s.events now alert₁, ?_, ?_, ?_⟩
    · refine h_checks.trans ?_
      rw [if_pos h_touched, h_row]
      rfl
    · rintro ⟨-, h_all⟩
      rw [checkedAlert, if_pos (h_iff.mpr h_all)]
      rfl
    · intro h_none
      rw [checkedAlert, if_neg (mt h_iff.mp h_none)]
      exact h_status
  · refine ⟨alert₁, ?_, fun h_both => absurd h_both.1 h_touched, fun _ => h_status⟩
    refine h_checks.trans ?_
    rw [if_neg h_touched, h_row]

theorem RecoveredById.recovered {created : Event} (h : RecoveredById batch s k alert created) :
    Recovered earlier batch s k alert created := by
  obtain ⟨eid, r, h_link, h_row, h_recovers⟩ := h
  simp only [recovers, Bool.and_eq_true, decide_eq_true_eq] at h_recovers
  obtain ⟨⟨⟨h_recovery, h_has⟩, h_same⟩, h_later⟩ := h_recovers
  refine ⟨eid, r, h_link, h_row, h_recovery, ?_, h_later⟩
  rw [Criterion.meets, h_has, decide_eq_true h_same]
  rfl

end Proofs

/-- **When linked recoveries are effective.** Each created event has one with its `external_id`. -/
theorem effective_iff (earlier : AlertId → EventId → Criterion) (ids : List EventId) (now : ℤ)
    (s : Store) : Effective earlier (recoveryEvents s.events ids) s now ↔
      ∀ k alert, s.db.alerts.lookup k = some alert →
        (∃ r ∈ recoveryEvents s.events ids, k ∈ matching (recoveryEvents s.events ids) s r.2) →
        AllCreated (recoveryEvents s.events ids) s k alert
          (Recovered earlier (recoveryEvents s.events ids) s k alert) →
        AllCreated (recoveryEvents s.events ids) s k alert
          (RecoveredById (recoveryEvents s.events ids) s k alert) := by
  generalize recoveryEvents s.events ids = batch
  simp only [← mem_touched]
  constructor
  · intro h k alert h_row h_touched h_all
    by_contra h_by
    obtain ⟨alert', h_row', -, h_kept⟩ := status_handleAndCheck batch h_row now
    obtain ⟨alert'', h_row'', h_recovered⟩ := h.recovered k alert h_row h_touched h_all
    cases h_row'.symm.trans h_row''
    -- it is still active
    have h_active := (of_touched h_row h_touched).1
    rw [← h_kept h_by, h_recovered] at h_active
    exact absurd h_active (by decide)
  · intro h
    refine ⟨fun k alert h_row h_touched h_all => ?_, fun k alert h_row _ h_none => ?_⟩
    · obtain ⟨alert', h_row', h_recovered, -⟩ := status_handleAndCheck batch h_row now
      exact ⟨alert', h_row', h_recovered ⟨h_touched, h k alert h_row h_touched h_all⟩⟩
    · obtain ⟨alert', h_row', -, h_kept⟩ := status_handleAndCheck batch h_row now
      refine ⟨alert', h_row', h_kept fun h_by => h_none ?_⟩
      exact fun eid e h_link h_e h_action => (h_by eid e h_link h_e h_action).recovered

section Examples

private def host (action : EventAction) (externalId : String) (time : ℤ) : Event :=
  { action, externalId := some externalId, item := some "cpu", resourceName := some "host1",
    startTime := time }

/-- An active alert with a created event, and a later recovery of another `external_id`. -/
private def linkedByKey : Store where
  events := (AList.singleton 1 (host .created "a" 1)).insert 2 (host .recovery "b" 2)
  db :=
    { alerts := AList.singleton 7 { events := [1] }
      assignments := ∅, escalations := ∅, reminders := ∅, users := [], outbox := [] }
  nextAlertId := 8

/-- A recovery that is linked by the fallback key does not recover its alert. -/
theorem linked_not_recovered : ¬∀ ids s, Effective (fun _ _ => .externalId)
    (recoveryEvents s.events ids) s 3 := by
  intro h
  have h_batch : recoveryEvents linkedByKey.events [2] = [(2, host .recovery "b" 2)] := rfl
  have h_later : ∀ x ∈ linkedByKey.events.entries, x.2.action = .created →
      (linkedBy (fun _ _ => .externalId) (recoveryEvents linkedByKey.events [2]) linkedByKey 7
          { events := [1] } 2 (host .recovery "b" 2)).meets (host .recovery "b" 2) x.2 = true ∧
        createdEventTime x.2 < 2 := by
    decide +kernel
  obtain ⟨alert', h_row, h_status⟩ := (h [2] linkedByKey).recovered 7 { events := [1] } rfl
    (by decide +kernel) fun eid e _ h_e h_action => by
      obtain ⟨h_meets, h_time⟩ := h_later ⟨eid, e⟩ (AList.mem_lookup_iff.mp h_e) h_action
      have h_mem : (2, host .recovery "b" 2) ∈ recoveryEvents linkedByKey.events [2] := by
        rw [h_batch]
        exact List.mem_singleton_self _
      exact ⟨2, host .recovery "b" 2, .inr ⟨_, h_mem, by decide +kernel⟩, rfl, rfl, h_meets, h_time⟩
  have h_kept : ((handleAndCheck (recoveryEvents linkedByKey.events [2]) 3
      linkedByKey).db.alerts.lookup 7).map (·.status) = some .unassigned := by decide +kernel
  rw [h_row, Option.map_some, h_status] at h_kept
  cases h_kept

end Examples

end LinkedRecoveries
end Alerts
