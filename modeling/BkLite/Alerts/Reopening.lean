import BkLite.Alerts.Isolation
import BkLite.Alerts.Lifecycle

/-!
# Alerts that come back

A pass reads every `created` event that is still inside the window, also one whose alert is over,
and looks for an active alert only. So an alert that has recovered or was closed is followed by a
new one, built from the same events, at the next pass inside the window. The check for a recovery
that follows does not help: the recovery events are not among those that the pass reads, so no new
alert has any (`shouldRecover_of_created`).
-/

namespace Alerts
namespace Reopening

open Py Aggregation Isolation

/-! ### The events of a group -/

section Groups

variable {env : Env} {matching : Matches} {s : AlarmStrategy} {r : AggregationResult}
  {clock : PassClock} {store : Store} {events : Table EventId Event} {fp fp' : String} {now : ℤ}
  {k : AlertId} {alert : Alert} {rs : List AggregationResult} {base : AlertId}

/-- All that is linked are `created` events. -/
def AllCreated (events : Table EventId Event) (ids : List EventId) : Prop :=
  ∀ eid ∈ ids, ∀ e, events.lookup eid = some e → e.action = .created

@[simp] theorem normalizeFingerprint_eventIds :
    (normalizeFingerprint env r).eventIds = r.eventIds := by
  unfold normalizeFingerprint
  split
  · rfl
  · dsimp only
    split_ifs <;> rfl

theorem allCreated_of_mem_passResults (h : r ∈ passResults env matching s clock store) :
    AllCreated store.events r.eventIds := by
  unfold passResults aggregationQuery at h
  dsimp only at h
  obtain ⟨key, -, h_row⟩ := List.mem_filterMap.mp h
  split at h_row
  · cases h_row
  · rename_i first rest h_group
    cases h_row
    intro eid h_eid e h_e
    obtain ⟨⟨eid', e'⟩, h_mem, rfl⟩ := List.mem_map.mp h_eid
    rw [← h_group] at h_mem
    obtain ⟨h_matched, h_window⟩ := List.mem_filter.mp (List.mem_filter.mp h_mem).1
    unfold matchedEvents at h_matched
    rw [List.mem_insertionSort, List.mem_filter, Table.mem_entries_pair,
      ← AList.mem_lookup_iff, Option.mem_def] at h_matched
    have h_same : some e' = some e := h_matched.1.symm.trans h_e
    obtain rfl := Option.some.inj h_same
    exact (of_decide_eq_true h_window).2

theorem shouldRecover_of_created {linked : List Event} (h : ∀ e ∈ linked, e.action = .created) :
    shouldRecover linked = false := by
  have h_none : ∀ e ∈ linked, isRecovery e = false := by
    intro e h_e
    unfold isRecovery
    rw [h e h_e]
    rfl
  cases linked with
  | nil => rfl
  | cons e es =>
    have h_created : e ∈ (e :: es).filter (·.action = .created) :=
      List.mem_filter.mpr ⟨List.mem_cons_self, decide_eq_true (h e List.mem_cons_self)⟩
    unfold shouldRecover
    dsimp only
    rw [Bool.and_eq_false_iff]
    refine Or.inr (List.all_eq_false.mpr ⟨e, h_created, ?_⟩)
    rw [Bool.not_eq_true, Bool.and_eq_false_iff]
    refine Or.inr (List.any_eq_false.mpr fun r h_r => ?_)
    unfold recovers
    rw [h_none r h_r]
    simp

theorem checkedAlert_of_created (h : AllCreated events alert.events) :
    checkedAlert events now alert = alert := by
  have h_linked : ∀ e ∈ linkedEvents events alert, e.action = .created := by
    intro e h_e
    obtain ⟨eid, h_eid, h_row⟩ := List.mem_filterMap.mp h_e
    exact h eid h_eid e h_row
  unfold checkedAlert
  rw [shouldRecover_of_created h_linked]
  rfl

theorem mem_builtAlert_events {eid : EventId}
    (h : eid ∈ (builtAlert env s r fp now store).2.events) :
    eid ∈ r.eventIds ∨
      ∃ k alert, findAlert fp store.db = some (k, alert) ∧ eid ∈ alert.events := by
  cases h_found : findAlert fp store.db with
  | none =>
    rw [builtAlert_of_none h_found] at h
    obtain ⟨⟨eid', e⟩, h_row, rfl⟩ := List.mem_map.mp (show eid ∈
      (eventRows store.events r.eventIds).map (·.1) from h)
    exact Or.inl (mem_eventRows.mp h_row).2
  | some found =>
    obtain ⟨k, alert⟩ := found
    rw [builtAlert_of_some h_found] at h
    rcases List.mem_append.mp (show eid ∈ alert.events ++ _ from h) with h_old | h_added
    · exact Or.inr ⟨k, alert, rfl, h_old⟩
    · obtain ⟨⟨eid', e⟩, h_row, rfl⟩ := List.mem_map.mp h_added
      exact Or.inl (mem_eventRows.mp (List.mem_filter.mp h_row).1).2

/-! ### Raising an alert -/

/-- There is an active alert with the fingerprint and a number from `base` on, and only `created`
events are linked to it. -/
def Raised (base : AlertId) (fp : String) (store : Store) : Prop :=
  ∃ k alert, base ≤ k ∧ store.db.alerts.lookup k = some alert ∧ alert.fingerprint = fp ∧
    alert.status.IsActive ∧ AllCreated store.events alert.events

theorem raised_of_none (h_fp : (normalizeFingerprint env r).fingerprint = some fp)
    (h_none : findAlert fp store.db = none) (h_created : AllCreated store.events r.eventIds)
    (h_base : base ≤ store.nextAlertId) : Raised base fp (processResult env s now store r) := by
  have h_links : AllCreated store.events
      (builtAlert env s (normalizeFingerprint env r) fp now store).2.events := by
    intro eid h_eid
    rcases mem_builtAlert_events h_eid with h_group | ⟨k, alert, h_found, -⟩
    · rw [normalizeFingerprint_eventIds] at h_group
      exact h_created eid h_group
    · rw [h_none] at h_found
      cases h_found
  refine ⟨store.nextAlertId, (builtAlert env s (normalizeFingerprint env r) fp now store).2,
    h_base, ?_, ?_, ?_, ?_⟩
  · rw [(processResult_of_some h_fp).1, checkedAlert_of_created h_links,
      builtAlert_of_none h_none]
    exact AList.lookup_insert _
  · exact builtAlert_keeps.1
  · rw [builtAlert_of_none h_none]
    show AlertStatus.IsActive .unassigned
    decide
  · rw [(processResult_of_some h_fp).2.1]
    exact h_links

theorem raised_processResult (h_below : Table.Below store.db.alerts store.nextAlertId)
    (h : Raised base fp store) (h_created : AllCreated store.events r.eventIds) :
    Raised base fp (processResult env s now store r) := by
  obtain ⟨k, alert, h_base, h_row, h_alert, h_active, h_links⟩ := h
  cases h_fp : (normalizeFingerprint env r).fingerprint with
  | none =>
    rw [processResult_of_none h_fp]
    exact ⟨k, alert, h_base, h_row, h_alert, h_active, h_links⟩
  | some fp' =>
    by_cases h_key : k = (builtAlert env s (normalizeFingerprint env r) fp' now store).1
    · -- the raised alert is the one that the group is written to
      cases h_found : findAlert fp' store.db with
      | none =>
        rw [builtAlert_of_none h_found] at h_key
        exact absurd h_key (Nat.ne_of_lt (h_below.lt h_row))
      | some found =>
        obtain ⟨k', alert'⟩ := found
        rw [builtAlert_of_some h_found] at h_key
        obtain rfl : k = k' := h_key
        have h_same := (findAlert_eq_some h_found).1
        rw [h_row] at h_same
        obtain rfl := Option.some.inj h_same
        obtain rfl : fp = fp' := h_alert.symm.trans (findAlert_eq_some h_found).2.1
        have h_all : AllCreated store.events
            (builtAlert env s (normalizeFingerprint env r) fp now store).2.events := by
          intro eid h_eid
          rcases mem_builtAlert_events h_eid with h_group | ⟨k'', alert'', h_again, h_old⟩
          · rw [normalizeFingerprint_eventIds] at h_group
            exact h_created eid h_group
          · rw [h_found] at h_again
            cases h_again
            exact h_links eid h_old
        refine ⟨k, (builtAlert env s (normalizeFingerprint env r) fp now store).2, h_base, ?_,
          builtAlert_keeps.1, ?_, ?_⟩
        · rw [(processResult_of_some h_fp).1, checkedAlert_of_created h_all,
            builtAlert_of_some h_found]
          exact AList.lookup_insert _
        · rw [builtAlert_of_some h_found]
          exact h_active
        · rw [(processResult_of_some h_fp).2.1]
          exact h_all
    · refine ⟨k, alert, h_base, ?_, h_alert, h_active, ?_⟩
      · rw [(processResult_of_some h_fp).1, Table.lookup_insert, if_neg h_key]
        exact h_row
      · rw [processResult_events]
        exact h_links

theorem raised_foldl (h_below : Table.Below store.db.alerts store.nextAlertId)
    (h : Raised base fp store) (h_created : ∀ r ∈ rs, AllCreated store.events r.eventIds) :
    Raised base fp (rs.foldl (processResult env s now) store) := by
  induction rs generalizing store with
  | nil => exact h
  | cons r rs ih =>
    refine ih (below_processResult h_below)
      (raised_processResult h_below h (h_created r List.mem_cons_self)) ?_
    intro r' h_r'
    rw [processResult_events]
    exact h_created r' (List.mem_cons_of_mem r h_r')

/-- **Raising.** A pass with a group whose fingerprint no active alert has ends with a new active
one. -/
theorem raised_pass (h_below : Table.Below store.db.alerts store.nextAlertId)
    (h_created : ∀ r ∈ rs, AllCreated store.events r.eventIds) (h_fp : fp ∈ fingerprints env rs)
    (h_none : findAlert fp store.db = none) (h_base : base ≤ store.nextAlertId) :
    Raised base fp (rs.foldl (processResult env s now) store) := by
  induction rs generalizing store with
  | nil => cases h_fp
  | cons r rs ih =>
    have h_rest : ∀ r' ∈ rs,
        AllCreated (processResult env s now store r).events r'.eventIds := by
      intro r' h_r'
      rw [processResult_events]
      exact h_created r' (List.mem_cons_of_mem r h_r')
    rw [List.foldl_cons]
    cases h_key : (normalizeFingerprint env r).fingerprint with
    | none =>
      have h_same : fingerprints env (r :: rs) = fingerprints env rs :=
        List.filterMap_cons_none h_key
      rw [h_same] at h_fp
      rw [processResult_of_none h_key] at h_rest ⊢
      exact ih h_below h_rest h_fp h_none h_base
    | some fp' =>
      by_cases h_eq : fp' = fp
      · subst h_eq
        exact raised_foldl (below_processResult h_below)
          (raised_of_none h_key h_none (h_created r List.mem_cons_self) h_base) h_rest
      · have h_cons : fingerprints env (r :: rs) = fp' :: fingerprints env rs :=
          List.filterMap_cons_some h_key
        rw [h_cons] at h_fp
        have h_later := (List.mem_cons.mp h_fp).resolve_left (Ne.symm h_eq)
        refine ih (below_processResult h_below) h_rest h_later ?_ ?_
        · rw [findAlert_processResult h_below h_key h_eq]
          exact h_none
        · rw [(processResult_of_some h_key).2.2]
          split_ifs
          · exact Nat.le_succ_of_le h_base
          · exact h_base

/-! ### What a pass adds -/

theorem foldl_processResult_keeps (h_below : Table.Below store.db.alerts store.nextAlertId)
    (rs : List AggregationResult) :
    Table.Evolves (fun a a' : Alert => a'.fingerprint = a.fingerprint) store.db.alerts
      (rs.foldl (processResult env s now) store).db.alerts := by
  induction rs generalizing store with
  | nil => exact fun _ alert h_row => ⟨alert, h_row, rfl⟩
  | cons r rs ih =>
    have h_step : Table.Evolves (fun a a' : Alert => a'.fingerprint = a.fingerprint)
        store.db.alerts (processResult env s now store r).db.alerts :=
      (allMoved_processResult h_below).mono fun _ _ h_moved => h_moved.fingerprint
    refine Table.Evolves.trans h_step (ih (below_processResult h_below)) ?_
    intro a a' a'' h_first h_next
    exact h_next.trans h_first

theorem added_foldl (h_below : Table.Below store.db.alerts store.nextAlertId)
    (h_nodup : (fingerprints env rs).Nodup) (h_new : store.db.alerts.lookup k = none)
    (h_row : (rs.foldl (processResult env s now) store).db.alerts.lookup k = some alert) :
    alert.fingerprint ∈ fingerprints env rs ∧ findAlert alert.fingerprint store.db = none := by
  induction rs generalizing store with
  | nil =>
    have h_some : store.db.alerts.lookup k = some alert := h_row
    rw [h_new] at h_some
    cases h_some
  | cons r rs ih =>
    rw [List.foldl_cons] at h_row
    cases h_fp : (normalizeFingerprint env r).fingerprint with
    | none =>
      have h_same : fingerprints env (r :: rs) = fingerprints env rs :=
        List.filterMap_cons_none h_fp
      rw [h_same] at h_nodup ⊢
      rw [processResult_of_none h_fp] at h_row
      exact ih h_below h_nodup h_new h_row
    | some fp =>
      have h_cons : fingerprints env (r :: rs) = fp :: fingerprints env rs :=
        List.filterMap_cons_some h_fp
      rw [h_cons] at h_nodup ⊢
      rw [List.nodup_cons] at h_nodup
      cases h_next : (processResult env s now store r).db.alerts.lookup k with
      | none =>
        obtain ⟨h_mem, h_none⟩ := ih (below_processResult h_below) h_nodup.2 h_next h_row
        have h_ne : fp ≠ alert.fingerprint := fun h_eq => h_nodup.1 (h_eq ▸ h_mem)
        rw [findAlert_processResult h_below h_fp h_ne] at h_none
        exact ⟨List.mem_cons_of_mem fp h_mem, h_none⟩
      | some alert₁ =>
        -- this group has added the alert, and the later ones keep its fingerprint
        have h_written := h_next
        rw [(processResult_of_some h_fp).1, Table.lookup_insert] at h_written
        split_ifs at h_written with h_key
        · have h_alert₁ : alert₁.fingerprint = fp := by
            rw [← Option.some.inj h_written, (checkedAlert_keeps store.events now _).1]
            exact builtAlert_keeps.1
          obtain ⟨alert₂, h_row₂, h_alert₂⟩ :=
            foldl_processResult_keeps (below_processResult h_below) rs k alert₁ h_next
          rw [h_row] at h_row₂
          obtain rfl := Option.some.inj h_row₂
          have h_fingerprint : alert.fingerprint = fp := h_alert₂.trans h_alert₁
          rw [h_fingerprint]
          refine ⟨List.mem_cons_self, ?_⟩
          cases h_found : findAlert fp store.db with
          | none => rfl
          | some found =>
            obtain ⟨k', alert'⟩ := found
            rw [builtAlert_of_some h_found] at h_key
            rw [h_key, (findAlert_eq_some h_found).1] at h_new
            cases h_new
        · rw [h_new] at h_written
          cases h_written

end Groups

/-! ### One pass -/

section Pass

variable (env : Env) (matching : Matches) (s : AlarmStrategy) (clock : PassClock) (store : Store)

def WindowWithin (fp : String) (ids : List EventId) : Prop :=
  ∀ r ∈ passResults env matching s clock store, (normalizeFingerprint env r).fingerprint = some fp →
    ∀ eid ∈ r.eventIds, eid ∈ ids

def AddsNone (fp : String) (store store' : Store) : Prop :=
  ∀ k alert, store'.db.alerts.lookup k = some alert → alert.fingerprint = fp →
    alert.status.IsActive → (store.db.alerts.lookup k).isSome

/-- A group that consists of events of an alert that is over has an active alert. -/
def Settled : Prop :=
  ∀ k alert, store.db.alerts.lookup k = some alert → ¬alert.status.IsActive →
    alert.fingerprint ∈ fingerprints env (passResults env matching s clock store) →
      WindowWithin env matching s clock store alert.fingerprint alert.events →
        findAlert alert.fingerprint store.db ≠ none

variable {env matching s clock store}

/-- **One pass.** It adds no active alert for the events of an alert that is over, exactly if it is
settled. -/
theorem addsNone_iff (h_below : Table.Below store.db.alerts store.nextAlertId)
    (h_md5 : ∀ key ∈ groupKeys matching s clock store, ∀ key' ∈ groupKeys matching s clock store,
      env.md5 key = env.md5 key' → key = key') :
    (∀ k alert, store.db.alerts.lookup k = some alert → ¬alert.status.IsActive →
      WindowWithin env matching s clock store alert.fingerprint alert.events →
        AddsNone alert.fingerprint store (processStrategy env matching s clock store)) ↔
      Settled env matching s clock store := by
  constructor
  · intro h_adds k alert h_row h_over h_group h_within h_none
    have h_created : ∀ r ∈ passResults env matching s clock store,
        AllCreated store.events r.eventIds := fun r h_r => allCreated_of_mem_passResults h_r
    obtain ⟨k', alert', h_base, h_row', h_fp', h_active', -⟩ :
        Raised store.nextAlertId alert.fingerprint (processStrategy env matching s clock store) :=
      raised_pass h_below h_created h_group h_none le_rfl
    have h_old := h_adds k alert h_row h_over h_within k' alert' h_row' h_fp' h_active'
    rw [h_below k' h_base] at h_old
    cases h_old
  · intro h_settled k alert h_row h_over h_within k' alert' h_row' h_fp' h_active'
    by_contra h_new
    rw [Option.isSome_iff_ne_none, not_not] at h_new
    obtain ⟨h_group, h_none⟩ := added_foldl h_below (nodup_fingerprints h_md5) h_new h_row'
    rw [h_fp'] at h_group h_none
    exact h_settled k alert h_row h_over h_group h_within h_none

end Pass

/-! ### Runs -/

open Lifecycle (State Inv)

inductive Step
  | pass (clock : PassClock)
  | other (a : Lifecycle.Step)

section Machine

variable (env : Env) (matching : Matches) (strategy : AlarmStrategy)

def step (s : State) : Step → State
  | .pass clock => { s with store := processStrategy env matching strategy clock s.store }
  | .other a => Lifecycle.step env matching s a

/-- Once an alert is over, a pass without new events adds none with its fingerprint. -/
def NeverReopens (s : State) (as : List Step) : Prop :=
  ∀ pre mid clock post, as = pre ++ mid ++ .pass clock :: post → ∀ k alert,
    (Runs.run (step env matching strategy) s pre).store.db.alerts.lookup k = some alert →
      ¬alert.status.IsActive →
        WindowWithin env matching strategy clock
            (Runs.run (step env matching strategy) s (pre ++ mid)).store alert.fingerprint
            alert.events →
          AddsNone alert.fingerprint
            (Runs.run (step env matching strategy) s (pre ++ mid)).store
            (Runs.run (step env matching strategy) s (pre ++ mid ++ [.pass clock])).store

def SettledAt (s : State) : Step → Prop
  | .pass clock => Settled env matching strategy clock s.store
  | .other _ => True

def KeysApart (s : State) : Step → Prop
  | .pass clock => ∀ key ∈ groupKeys matching strategy clock s.store,
      ∀ key' ∈ groupKeys matching strategy clock s.store, env.md5 key = env.md5 key' → key = key'
  | .other _ => True

def StaysOver (alert alert' : Alert) : Prop :=
  ¬alert.status.IsActive →
    ¬alert'.status.IsActive ∧ alert'.fingerprint = alert.fingerprint ∧
      alert'.events = alert.events

theorem StaysOver.refl (alert : Alert) : StaysOver alert alert := fun h => ⟨h, rfl, rfl⟩

theorem StaysOver.trans {alert alert' alert'' : Alert} (h : StaysOver alert alert')
    (h' : StaysOver alert' alert'') : StaysOver alert alert'' := by
  intro h_over
  obtain ⟨h_over', h_fp, h_events⟩ := h h_over
  obtain ⟨h_over'', h_fp', h_events'⟩ := h' h_over'
  exact ⟨h_over'', h_fp'.trans h_fp, h_events'.trans h_events⟩

theorem staysOver_of_moved {alert alert' : Alert} (h : Moved alert alert') :
    StaysOver alert alert' := by
  intro h_over
  refine ⟨?_, h.fingerprint, h.events.resolve_left h_over⟩
  rw [h.status_eq h_over]
  exact h_over

variable {env matching strategy} {s : State}

theorem staysOver_foldl {now : ℤ} {store : Store}
    (h_below : Table.Below store.db.alerts store.nextAlertId) (rs : List AggregationResult) :
    Table.Evolves StaysOver store.db.alerts
        (rs.foldl (processResult env strategy now) store).db.alerts ∧
      Table.Below (rs.foldl (processResult env strategy now) store).db.alerts
        (rs.foldl (processResult env strategy now) store).nextAlertId := by
  induction rs generalizing store with
  | nil => exact ⟨.refl StaysOver.refl _, h_below⟩
  | cons r rs ih =>
    obtain ⟨h_rest, h_end⟩ := ih (below_processResult h_below)
    have h_step : Table.Evolves StaysOver store.db.alerts
        (processResult env strategy now store r).db.alerts :=
      (allMoved_processResult h_below).mono fun _ _ h_moved => staysOver_of_moved h_moved
    exact ⟨h_step.trans h_rest fun _ _ _ h h' => h.trans h', h_end⟩

theorem inv_step (h : Inv s) (a : Step) : Inv (step env matching strategy s a) := by
  cases a with
  | pass clock => exact ⟨(staysOver_foldl h.below _).2, h.saves⟩
  | other a => exact h.step a

/-- **Over.** Every step leaves what is over: also a late save stores a status that is not
active. -/
theorem staysOver_step (h : Inv s) (a : Step) :
    Table.Evolves StaysOver s.store.db.alerts
      (step env matching strategy s a).store.db.alerts := by
  cases a with
  | pass clock => exact (staysOver_foldl h.below _).1
  | other a =>
    by_cases h_write : ∃ i now, a = .write i now
    · obtain ⟨i, now, rfl⟩ := h_write
      show Table.Evolves StaysOver s.store.db.alerts
        (Lifecycle.step env matching s (.write i now)).store.db.alerts
      unfold Lifecycle.step
      dsimp only
      cases h_save : s.saves[i]? with
      | none => exact .refl StaysOver.refl _
      | some p =>
        obtain ⟨k, save⟩ := p
        show Table.Evolves StaysOver s.store.db.alerts
          (Lifecycle.writeSave k save now s.store.db).alerts
        rw [Lifecycle.writeSave_alerts]
        have h_saved : ∀ alert, StaysOver alert (save.apply now alert) := by
          intro alert h_over
          refine ⟨?_, rfl, rfl⟩
          show ¬(save.status.getD alert.status).IsActive
          cases h_st : save.status with
          | none => exact h_over
          | some st =>
            rcases h.saves (k, save) (List.mem_of_getElem? h_save) st h_st with rfl | rfl
            · show ¬AlertStatus.IsActive .autoRecovery
              decide
            · show ¬AlertStatus.IsActive .closed
              decide
        exact Table.evolves_modify StaysOver.refl h_saved k
    · have h_locked : ∀ i now, a ≠ .write i now := fun i now h_eq => h_write ⟨i, now, h_eq⟩
      exact (Lifecycle.allMoved_step h a h_locked).mono fun _ _ h_moved => staysOver_of_moved h_moved

theorem staysOver_run {k : AlertId} {alert : Alert} (h : Inv s) (as : List Step)
    (h_row : s.store.db.alerts.lookup k = some alert) :
    ∃ alert', (Runs.run (step env matching strategy) s as).store.db.alerts.lookup k =
      some alert' ∧ StaysOver alert alert' := by
  let I : State → Prop := fun s =>
    Inv s ∧ ∃ alert', s.store.db.alerts.lookup k = some alert' ∧ StaysOver alert alert'
  have h_step : ∀ s a, I s → I (step env matching strategy s a) := by
    rintro s a ⟨h_inv, alert₁, h_row₁, h_stays₁⟩
    obtain ⟨alert₂, h_row₂, h_stays₂⟩ := staysOver_step h_inv a k alert₁ h_row₁
    exact ⟨inv_step h_inv a, alert₂, h_row₂, h_stays₁.trans h_stays₂⟩
  have h_start : I s := ⟨h, alert, h_row, StaysOver.refl alert⟩
  exact (Runs.run_invariant h_step h_start as).2

/-- **No return.** No alert comes back exactly if every pass is settled. -/
theorem neverReopens_iff (h_start : Inv s) {as : List Step}
    (h_md5 : Runs.Along (step env matching strategy)
      (fun s a _ => KeysApart env matching strategy s a) s as) :
    NeverReopens env matching strategy s as ↔
      Runs.Along (step env matching strategy)
        (fun s a _ => SettledAt env matching strategy s a) s as := by
  have h_keep : ∀ (s : State) a, Inv s → Inv (step env matching strategy s a) :=
    fun _ a h_inv => inv_step h_inv a
  have h_inv : ∀ pre, Inv (Runs.run (step env matching strategy) s pre) :=
    Runs.run_invariant h_keep h_start
  have h_pass : ∀ pre clock post, as = pre ++ .pass clock :: post →
      ((∀ k alert, (Runs.run (step env matching strategy) s pre).store.db.alerts.lookup k =
          some alert → ¬alert.status.IsActive →
        WindowWithin env matching strategy clock
            (Runs.run (step env matching strategy) s pre).store alert.fingerprint alert.events →
          AddsNone alert.fingerprint (Runs.run (step env matching strategy) s pre).store
            (processStrategy env matching strategy clock
              (Runs.run (step env matching strategy) s pre).store)) ↔
        Settled env matching strategy clock
          (Runs.run (step env matching strategy) s pre).store) := by
    intro pre clock post h_as
    exact addsNone_iff (h_inv pre).below (Runs.along_iff_at_step.mp h_md5 pre _ post h_as)
  constructor
  · intro h
    rw [Runs.along_iff_at_step]
    intro pre a post h_as
    cases a with
    | other a => trivial
    | pass clock =>
      refine (h_pass pre clock post h_as).mp ?_
      intro k alert h_row h_over h_within
      have h_none := h pre [] clock post (by rw [List.append_nil]; exact h_as) k alert h_row h_over
      rw [List.append_nil, Runs.run_concat] at h_none
      exact h_none h_within
  · intro h pre mid clock post h_as k alert h_row h_over h_within
    have h_settled : Settled env matching strategy clock
        (Runs.run (step env matching strategy) s (pre ++ mid)).store :=
      Runs.along_iff_at_step.mp h (pre ++ mid) _ post h_as
    -- the alert is still over, with the same links, when the pass comes
    obtain ⟨alert', h_row', h_stays⟩ := staysOver_run (h_inv pre) mid h_row
    rw [← Runs.run_append] at h_row'
    obtain ⟨h_over', h_fp, h_events⟩ := h_stays h_over
    rw [← h_fp, ← h_events] at h_within
    rw [← h_fp, Runs.run_concat]
    exact (h_pass (pre ++ mid) clock post h_as).mpr h_settled k alert' h_row' h_over' h_within

end Machine

/-! ### A recovered host -/

def hostDown : State where
  store :=
    { events := (∅ : Table EventId Event).insert 1
        { level := "0", resourceName := some "db-1", externalId := some "db-1",
          receivedAt := 50, startTime := 50 }
      db := { alerts := ∅, assignments := ∅, escalations := ∅, reminders := ∅, users := [],
              outbox := [] }
      nextAlertId := 0 }

def hostUp : Event :=
  { action := .recovery, resourceName := some "db-1", externalId := some "db-1",
    receivedAt := 60, startTime := 60 }

def recovery : List Step :=
  [.pass ⟨100, 100, 101⟩, .other (.receive 2 hostUp), .other (.link [2]), .other (.refresh 0),
    .other (.check 0), .other (.write 0 102)]

theorem inv_hostDown : Inv hostDown :=
  ⟨fun _ _ => rfl, fun _ h_p => absurd h_p List.not_mem_nil⟩

theorem keysApart_plain (as : List Step) :
    Runs.Along (step plainEnv (fun _ _ _ => true) processorAlarms)
      (fun s a _ => KeysApart plainEnv (fun _ _ _ => true) processorAlarms s a) hostDown as := by
  refine Runs.along_of_step (I := fun _ => True) (fun s a _ => ⟨trivial, ?_⟩) trivial as
  cases a with
  | pass clock => exact fun key _ key' _ h_eq => h_eq
  | other a => trivial

/-- The next pass comes when the event is out of its window of ten minutes. -/
theorem neverReopens_late :
    NeverReopens plainEnv (fun _ _ _ => true) processorAlarms hostDown
      (recovery ++ [.pass ⟨700000000, 700000000, 700000001⟩]) := by
  refine (neverReopens_iff inv_hostDown (keysApart_plain _)).mpr ?_
  refine ⟨?_, trivial, trivial, trivial, trivial, trivial, ?_, trivial⟩
  · intro k alert h_row
    cases h_row
  · intro k alert _ _ h_group
    have h_none : fingerprints plainEnv (passResults plainEnv (fun _ _ _ => true) processorAlarms
        ⟨700000000, 700000000, 700000001⟩ (Runs.run (step plainEnv (fun _ _ _ => true)
          processorAlarms) hostDown recovery).store) = [] := by decide +kernel
    have h_empty : alert.fingerprint ∈ ([] : List String) := h_none ▸ h_group
    cases h_empty

/-- **Return.** The event gets a second alert, to which no recovery is linked. -/
theorem neverReopens_early :
    let s := Runs.run (step plainEnv (fun _ _ _ => true) processorAlarms) hostDown
      (recovery ++ [.pass ⟨110, 110, 111⟩])
    (s.store.db.alerts.lookup 0).map (fun a => (a.status, a.events)) =
        some (.autoRecovery, [1, 2]) ∧
      (s.store.db.alerts.lookup 1).map (fun a => (a.status, a.events)) = some (.unassigned, [1]) ∧
      ¬NeverReopens plainEnv (fun _ _ _ => true) processorAlarms hostDown
        (recovery ++ [.pass ⟨110, 110, 111⟩]) := by
  intro s
  have h_old : (s.store.db.alerts.lookup 0).map (fun a => (a.status, a.events)) =
      some (.autoRecovery, [1, 2]) := by decide +kernel
  have h_new : (s.store.db.alerts.lookup 1).map (fun a => (a.status, a.events)) =
      some (.unassigned, [1]) := by decide +kernel
  refine ⟨h_old, h_new, ?_⟩
  intro h
  let s₀ := Runs.run (step plainEnv (fun _ _ _ => true) processorAlarms) hostDown recovery
  have h_before : (s₀.store.db.alerts.lookup 0).map (fun a => (a.status, a.fingerprint, a.events)) =
      some (.autoRecovery, "resource_name=db-1", [1, 2]) := by decide +kernel
  obtain ⟨alert, h_row, h_columns⟩ := Option.map_eq_some_iff.mp h_before
  obtain ⟨h_status, h_rest⟩ := Prod.mk.inj h_columns
  obtain ⟨h_fp, h_events⟩ := Prod.mk.inj h_rest
  have h_over : ¬alert.status.IsActive := by
    rw [h_status]
    decide
  have h_adds := h recovery [] ⟨110, 110, 111⟩ [] rfl 0 alert h_row h_over
  rw [h_fp, h_events] at h_adds
  have h_window : ∀ r ∈ passResults plainEnv (fun _ _ _ => true) processorAlarms ⟨110, 110, 111⟩
      s₀.store, ∀ eid ∈ r.eventIds, eid ∈ [1, 2] := by decide +kernel
  have h_none := h_adds fun r h_r _ => h_window r h_r
  -- the second alert was not there before
  have h_second : (s.store.db.alerts.lookup 1).map (fun a => (a.status, a.fingerprint)) =
      some (.unassigned, "resource_name=db-1") := by decide +kernel
  obtain ⟨alert', h_row', h_columns'⟩ := Option.map_eq_some_iff.mp h_second
  obtain ⟨h_status', h_fp'⟩ := Prod.mk.inj h_columns'
  have h_active' : alert'.status.IsActive := by
    rw [h_status']
    decide
  have h_there := h_none 1 alert' h_row' h_fp' h_active'
  have h_absent : (s₀.store.db.alerts.lookup 1).isSome = false := by decide +kernel
  exact Bool.noConfusion (h_absent.symm.trans h_there)

end Reopening
end Alerts
