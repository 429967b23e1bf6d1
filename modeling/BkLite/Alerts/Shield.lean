import BkLite.Alerts.Model
import BkLite.Alerts.TimeRange

/-!
# The shield check

`alerts/common/shield.py`: the shields whose time range has the present moment are tried in turn.
Each one finds the events of the list that are received or pending and that it matches, and sets
them to `SHIELD`.

What rules match is an arbitrary function here; rules that raise match nothing.
-/

namespace Alerts.Shield

open Py

/-! ### Shields and results -/

inductive MatchType
  | all
  | filter
  | other
deriving DecidableEq, Repr

structure AlertShield (Rules : Type) where
  id : ℕ
  name : String
  matchType : MatchType
  matchRules : Rules
  suppressionTime : List (String × Value)

/-- An entry of `shield_results`: a success with the name of the shield, or a failure with a
message. -/
structure ShieldResult where
  eventId : EventId
  success : Bool
  shieldId : ℕ
  shieldName : Option String := none
  message : Option String := none
deriving DecidableEq, Repr

structure Outcome where
  events : Table EventId Event
  totalEvents : ℤ
  shieldedEvents : ℤ
  unshieldedEvents : ℤ
  shieldResults : List ShieldResult

/-- The time ranges, the clock, the rules, and the error of the statements of a shield. -/
structure Env (Rules : Type) where
  time : TimeRange.Env
  now : ℤ
  filterOf : Rules → Except String (Event → Bool)
  fault : AlertShield Rules → Option String

/-- `shieldable_statuses`. -/
def shieldable (status : EventStatus) : Bool := status = .received || status = .pending

/-! ### The check -/

section Check

variable {Rules : Type} (env : Env Rules) (eventIdList : List EventId)

def conditionOf (shield : AlertShield Rules) : Except String (Event → Bool) :=
  match shield.matchType with
  | .all => .ok fun _ => true
  | .filter => env.filterOf shield.matchRules
  | .other => .ok fun _ => false

def batchFindMatchingEvents (shield : AlertShield Rules) (excludedIds : List EventId)
    (events : Table EventId Event) : Except String (List EventId) := do
  let condition ← conditionOf env shield
  return (events.entries.filter fun e => e.1 ∈ eventIdList && shieldable e.2.status &&
    e.1 ∉ excludedIds && condition e.2).map Sigma.fst

def eventsToShield (eventIds : List EventId) (events : Table EventId Event) : List EventId :=
  (events.entries.filter fun e => e.1 ∈ eventIds && shieldable e.2.status).map Sigma.fst

def updateStatus (eventIds : List EventId) (events : Table EventId Event) : Table EventId Event :=
  events.mapRows fun k e =>
    if k ∈ eventIds ∧ shieldable e.status then { e with status := .shield } else e

def batchExecuteShield (eventIds : List EventId) (shield : AlertShield Rules)
    (events : Table EventId Event) : Table EventId Event × List ShieldResult :=
  match env.fault shield with
  | none =>
    let updated := updateStatus eventIds events
    -- the query is read here, after the update
    (updated, (eventsToShield eventIds updated).map fun k =>
      ⟨k, true, shield.id, some shield.name, none⟩)
  | some message => (events, eventIds.map fun k => ⟨k, false, shield.id, none, some message⟩)

structure State where
  events : Table EventId Event
  shieldResults : List ShieldResult := []
  shieldedEvents : ℕ := 0
  shieldedEventIds : List EventId := []

def step (s : State) (shield : AlertShield Rules) : State :=
  match batchFindMatchingEvents env eventIdList shield s.shieldedEventIds s.events with
  | .error _ => s
  | .ok [] => s
  | .ok matchedEventIds =>
    let (events, shieldResults) := batchExecuteShield env matchedEventIds shield s.events
    let successes := shieldResults.filter (·.success)
    { events := events
      shieldResults := s.shieldResults ++ shieldResults
      shieldedEvents := s.shieldedEvents + successes.length
      shieldedEventIds := s.shieldedEventIds ++ successes.map (·.eventId) }

/-- `_get_time_matched_shields`. -/
def timeMatchedShields (activeShields : List (AlertShield Rules)) : List (AlertShield Rules) :=
  activeShields.filter fun shield => TimeRange.isInRange env.time shield.suppressionTime env.now

def executeShieldCheck (activeShields : List (AlertShield Rules)) (events : Table EventId Event) :
    Outcome :=
  let total := (events.entries.filter fun e => e.1 ∈ eventIdList).length
  if total = 0 then ⟨events, 0, 0, 0, []⟩
  else
    let s := (timeMatchedShields env activeShields).foldl (step env eventIdList) { events }
    { events := s.events
      totalEvents := total
      shieldedEvents := s.shieldedEvents
      unshieldedEvents := total - s.shieldedEvents
      shieldResults := s.shieldResults }

/-! ### The accounts -/

def matchedBy (e : Event) (shield : AlertShield Rules) : Bool :=
  match conditionOf env shield with
  | .ok condition => condition e
  | .error _ => false

def shielded (shields : List (AlertShield Rules)) (k : EventId) (e : Event) : Event :=
  if k ∈ eventIdList ∧ shieldable e.status ∧ shields.any (matchedBy env e) then
    { e with status := .shield }
  else e

def changed (events events' : Table EventId Event) : List EventId :=
  (events.entries.filter fun e =>
    (events'.lookup e.1).map (·.status) ≠ some e.2.status).map Sigma.fst

/-- **The accounts of a check.** -/
structure Accounting (activeShields : List (AlertShield Rules)) (events : Table EventId Event)
    (outcome : Outcome) : Prop where
  /-- The events that are received or pending and matched are shielded, and no others. -/
  status : ∀ k, outcome.events.lookup k = (events.lookup k).map
    (shielded env eventIdList (timeMatchedShields env activeShields) k)
  count : outcome.shieldedEvents = (changed events outcome.events).length
  once : ∀ k e, k ∈ changed events outcome.events → events.lookup k = some e →
    ∃ shield, (timeMatchedShields env activeShields).find? (matchedBy env e) = some shield ∧
      outcome.shieldResults.filter (fun r => r.eventId = k && r.success) =
        [⟨k, true, shield.id, some shield.name, none⟩]
  total : outcome.shieldedEvents + outcome.unshieldedEvents = outcome.totalEvents

end Check

/-! ### What is reported -/

section Proofs

variable {Rules : Type} {env : Env Rules} {eventIdList : List EventId} {k : EventId} {e : Event}
  {events : Table EventId Event} {shield : AlertShield Rules} {shields : List (AlertShield Rules)}
  {s : State}

theorem eventsToShield_updateStatus (eventIds : List EventId) :
    eventsToShield eventIds (updateStatus eventIds events) = [] := by
  rw [eventsToShield, List.map_eq_nil_iff, List.filter_eq_nil_iff]
  rintro ⟨k, e⟩ h_row h_found
  obtain ⟨h_mem, h_open⟩ := (Bool.and_eq_true _ _).mp h_found
  have h_lookup := AList.mem_lookup_iff.mpr h_row
  rw [updateStatus, Table.lookup_mapRows] at h_lookup
  obtain ⟨e₀, -, rfl⟩ := Option.map_eq_some_iff.mp h_lookup
  -- the row has been set, or it could not be shielded before
  split_ifs at h_open with h_set
  · cases h_open
  · exact h_set ⟨of_decide_eq_true h_mem, h_open⟩

variable (env events shield) in
theorem success_batchExecuteShield (eventIds : List EventId) :
    ∀ r ∈ (batchExecuteShield env eventIds shield events).2, r.success = false := by
  rw [batchExecuteShield]
  cases env.fault shield with
  | none =>
    simp only [eventsToShield_updateStatus, List.map_nil]
    exact fun r h_r => absurd h_r List.not_mem_nil
  | some message =>
    intro r h_r
    obtain ⟨k, -, rfl⟩ := List.mem_map.mp h_r
    rfl

/-- What the loop has counted: nothing. -/
structure Unreported (s : State) : Prop where
  results : ∀ r ∈ s.shieldResults, r.success = false
  count : s.shieldedEvents = 0
  ids : s.shieldedEventIds = []

theorem Unreported.step (h : Unreported s) : Unreported (step env eventIdList s shield) := by
  rw [Shield.step]
  split
  · exact h
  · exact h
  · next matchedEventIds _ _ =>
    have h_results := success_batchExecuteShield env s.events shield matchedEventIds
    have h_none : (batchExecuteShield env matchedEventIds shield s.events).2.filter (·.success) =
        [] := List.filter_eq_nil_iff.mpr fun r h_r h_success =>
          Bool.false_ne_true ((h_results r h_r).symm.trans h_success)
    refine ⟨fun r h_r => ?_, ?_, ?_⟩
    · rcases List.mem_append.mp h_r with h_old | h_new
      · exact h.results r h_old
      · exact h_results r h_new
    · simp [h_none, h.count]
    · simp [h_none, h.ids]

theorem Unreported.foldl (h : Unreported s) :
    Unreported (shields.foldl (Shield.step env eventIdList) s) := by
  induction shields generalizing s with
  | nil => exact h
  | cons shield shields ih => exact ih h.step

/-! ### What is shielded -/

variable (env eventIdList shield) in
theorem batchFindMatchingEvents_eq (h : Unreported s) :
    (∃ ids, batchFindMatchingEvents env eventIdList shield s.shieldedEventIds s.events = .ok ids ∧
      ids = (s.events.entries.filter fun e => e.1 ∈ eventIdList && shieldable e.2.status &&
        matchedBy env e.2 shield).map Sigma.fst) ∨
    (∃ message, batchFindMatchingEvents env eventIdList shield s.shieldedEventIds s.events =
        .error message) ∧ ∀ e, matchedBy env e shield = false := by
  rw [batchFindMatchingEvents]
  cases h_condition : conditionOf env shield with
  | ok condition =>
    refine .inl ⟨_, rfl, ?_⟩
    simp [matchedBy, h_condition, h.ids]
  | error message => exact .inr ⟨⟨message, rfl⟩, fun e => by rw [matchedBy, h_condition]⟩

/-- **One shield.** It sets the rows of the list that it matches and that can be shielded. -/
theorem lookup_step (h : Unreported s) (h_fault : env.fault shield = none) (k : EventId) :
    (step env eventIdList s shield).events.lookup k =
      (s.events.lookup k).map (shielded env eventIdList [shield] k) := by
  rcases batchFindMatchingEvents_eq env eventIdList shield h with
    ⟨ids, h_find, h_ids⟩ | ⟨⟨message, h_find⟩, h_none⟩
  · have h_mem {e : Event} (h_row : s.events.lookup k = some e) : k ∈ ids ↔
        k ∈ eventIdList ∧ shieldable e.status = true ∧ matchedBy env e shield = true := by
      rw [h_ids, List.mem_map]
      constructor
      · rintro ⟨⟨k', e'⟩, h_found, rfl⟩
        obtain ⟨h_row', h_found⟩ := List.mem_filter.mp h_found
        cases h_row.symm.trans (AList.mem_lookup_iff.mpr h_row')
        simpa [and_assoc] using h_found
      · intro h_all
        refine ⟨⟨k, e⟩, List.mem_filter.mpr ⟨AList.mem_lookup_iff.mp h_row, ?_⟩, rfl⟩
        simpa [and_assoc] using h_all
    have h_events : (step env eventIdList s shield).events.lookup k =
        (updateStatus ids s.events).lookup k := by
      rw [step, h_find]
      cases ids with
      | nil =>
        rw [updateStatus, Table.lookup_mapRows]
        simp
      | cons id ids => simp [batchExecuteShield, h_fault]
    rw [h_events, updateStatus, Table.lookup_mapRows]
    cases h_row : s.events.lookup k with
    | none => rfl
    | some e =>
      simp only [Option.map_some, Option.some.injEq, shielded, List.any_cons, List.any_nil,
        Bool.or_false, h_mem h_row]
      congr 1
      exact propext (by tauto)
  · rw [step, h_find]
    cases s.events.lookup k with
    | none => rfl
    | some e => simp [shielded, h_none e]

theorem shielded_shielded (k : EventId) (e : Event) :
    shielded env eventIdList shields k (shielded env eventIdList [shield] k e) =
      shielded env eventIdList (shield :: shields) k e := by
  by_cases h : k ∈ eventIdList ∧ shieldable e.status = true ∧ matchedBy env e shield = true
  · have h_first : shielded env eventIdList [shield] k e = { e with status := .shield } := by
      rw [shielded, if_pos (by simpa using h)]
    have h_all : shielded env eventIdList (shield :: shields) k e =
        { e with status := .shield } := by
      rw [shielded, if_pos ⟨h.1, h.2.1, by simp [h.2.2]⟩]
    -- a shielded row is left alone
    rw [h_first, h_all, shielded, if_neg (fun h_open => by cases h_open.2.1)]
  · have h_first : shielded env eventIdList [shield] k e = e := by
      rw [shielded, if_neg (by simpa using h)]
    rw [h_first, shielded, shielded]
    congr 1
    refine propext ?_
    rw [List.any_cons, Bool.or_eq_true]
    tauto

theorem lookup_foldl (h : Unreported s) (h_fault : ∀ shield, env.fault shield = none)
    (k : EventId) : (shields.foldl (step env eventIdList) s).events.lookup k =
      (s.events.lookup k).map (shielded env eventIdList shields k) := by
  induction shields generalizing s with
  | nil =>
    have h_id : shielded env eventIdList [] k = id := funext fun e => by simp [shielded]
    rw [h_id, Option.map_id]
    rfl
  | cons shield shields ih =>
    rw [List.foldl_cons, ih h.step, lookup_step h (h_fault shield), Option.map_map]
    exact congrArg (Option.map · _) (funext fun e => shielded_shielded k e)

/-- **The events are set as they should be**, where the statements of no shield fail. -/
theorem lookup_executeShieldCheck (h_fault : ∀ shield, env.fault shield = none)
    (activeShields : List (AlertShield Rules)) (k : EventId) :
    (executeShieldCheck env eventIdList activeShields events).events.lookup k =
      (events.lookup k).map
        (shielded env eventIdList (timeMatchedShields env activeShields) k) := by
  rw [executeShieldCheck]
  dsimp only
  split_ifs with h_total
  · -- no event of the list is there
    cases h_row : events.lookup k with
    | none => rfl
    | some e =>
      refine congrArg some (Eq.symm (if_neg fun h => ?_))
      exact List.filter_eq_nil_iff.mp (List.length_eq_zero_iff.mp h_total) ⟨k, e⟩
        (AList.mem_lookup_iff.mp h_row) (decide_eq_true h.1)
  · exact lookup_foldl (s := { events }) ⟨fun r h_r => absurd h_r List.not_mem_nil, rfl, rfl⟩
      h_fault k

theorem shieldedEvents_eq (activeShields : List (AlertShield Rules)) :
    (executeShieldCheck env eventIdList activeShields events).shieldedEvents = 0 := by
  rw [executeShieldCheck]
  dsimp only
  split_ifs with h_total
  · rfl
  · have h_loop : Unreported ((timeMatchedShields env activeShields).foldl
        (step env eventIdList) { events }) :=
      Unreported.foldl ⟨fun r h_r => absurd h_r List.not_mem_nil, rfl, rfl⟩
    exact congrArg Nat.cast h_loop.count

theorem total_eq (activeShields : List (AlertShield Rules)) :
    (executeShieldCheck env eventIdList activeShields events).shieldedEvents +
        (executeShieldCheck env eventIdList activeShields events).unshieldedEvents =
      (executeShieldCheck env eventIdList activeShields events).totalEvents := by
  rw [executeShieldCheck]
  dsimp only
  split_ifs with h_total
  · rfl
  · exact (Int.add_comm _ _).trans (Int.sub_add_cancel _ _)

theorem foldl_of_unmatched (h : ∀ shield ∈ shields, ∀ e ∈ s.events.entries, e.1 ∈ eventIdList →
      shieldable e.2.status = true → matchedBy env e.2 shield = false) (h_s : Unreported s) :
    shields.foldl (step env eventIdList) s = s := by
  induction shields with
  | nil => rfl
  | cons shield shields ih =>
    have h_step : step env eventIdList s shield = s := by
      rcases batchFindMatchingEvents_eq env eventIdList shield h_s with
        ⟨ids, h_find, h_ids⟩ | ⟨⟨message, h_find⟩, -⟩
      · have h_nil : ids = [] := by
          rw [h_ids, List.map_eq_nil_iff, List.filter_eq_nil_iff]
          intro e h_e h_found
          obtain ⟨h_both, h_matched⟩ := (Bool.and_eq_true _ _).mp h_found
          obtain ⟨h_mem, h_open⟩ := (Bool.and_eq_true _ _).mp h_both
          rw [h shield List.mem_cons_self e h_e (of_decide_eq_true h_mem) h_open] at h_matched
          cases h_matched
        rw [step, h_find, h_nil]
      · rw [step, h_find]
    rw [List.foldl_cons, h_step]
    exact ih fun shield' h_shield' => h shield' (List.mem_cons_of_mem _ h_shield')

theorem changed_self : changed events events = [] := by
  rw [changed, List.map_eq_nil_iff, List.filter_eq_nil_iff]
  rintro ⟨k, e⟩ h_row h_changed
  rw [AList.mem_lookup_iff.mpr h_row] at h_changed
  exact of_decide_eq_true h_changed rfl

end Proofs

/-- **When the accounts are right.** There is nothing to account for. -/
theorem accounting_iff {Rules : Type} (env : Env Rules) (eventIdList : List EventId)
    (activeShields : List (AlertShield Rules)) (events : Table EventId Event) :
    Accounting env eventIdList activeShields events
        (executeShieldCheck env eventIdList activeShields events) ↔
      ∀ k e, events.lookup k = some e → k ∈ eventIdList → shieldable e.status = true →
        ∀ shield ∈ timeMatchedShields env activeShields, matchedBy env e shield = false := by
  constructor
  · intro h k e h_row h_mem h_open shield h_shield
    by_contra h_matched
    rw [Bool.not_eq_false] at h_matched
    -- its row is to be shielded, so it has changed; but no change is counted
    have h_any : (timeMatchedShields env activeShields).any (matchedBy env e) = true :=
      List.any_eq_true.mpr ⟨shield, h_shield, h_matched⟩
    have h_after := h.status k
    rw [h_row, Option.map_some, shielded, if_pos ⟨h_mem, h_open, h_any⟩] at h_after
    have h_count := h.count
    rw [shieldedEvents_eq, eq_comm, Int.natCast_eq_zero, List.length_eq_zero_iff, changed,
      List.map_eq_nil_iff, List.filter_eq_nil_iff] at h_count
    refine h_count ⟨k, e⟩ (AList.mem_lookup_iff.mp h_row) (decide_eq_true ?_)
    rw [h_after]
    intro h_same
    have h_status : EventStatus.shield = e.status := Option.some.inj h_same
    rw [← h_status] at h_open
    cases h_open
  · intro h
    have h_unmatched : ∀ shield ∈ timeMatchedShields env activeShields, ∀ e ∈ events.entries,
        e.1 ∈ eventIdList → shieldable e.2.status = true → matchedBy env e.2 shield = false :=
      fun shield h_shield e h_e h_mem h_open =>
        h e.1 e.2 (AList.mem_lookup_iff.mpr h_e) h_mem h_open shield h_shield
    have h_events : (executeShieldCheck env eventIdList activeShields events).events = events := by
      rw [executeShieldCheck]
      dsimp only
      split_ifs
      · rfl
      · rw [foldl_of_unmatched h_unmatched ⟨fun r h_r => absurd h_r List.not_mem_nil, rfl, rfl⟩]
    refine ⟨fun k => ?_, ?_, fun k e h_changed => ?_, total_eq activeShields⟩
    · rw [h_events]
      cases h_row : events.lookup k with
      | none => rfl
      | some e =>
        refine congrArg some (Eq.symm (if_neg ?_))
        rintro ⟨h_mem, h_open, h_any⟩
        obtain ⟨shield, h_shield, h_matched⟩ := List.any_eq_true.mp h_any
        rw [h k e h_row h_mem h_open shield h_shield] at h_matched
        cases h_matched
    · rw [shieldedEvents_eq, h_events, changed_self]
      rfl
    · rw [h_events, changed_self] at h_changed
      exact absurd h_changed List.not_mem_nil

section Examples

private def shieldAll : AlertShield Unit := ⟨1, "all", .all, (), []⟩

private def plainEnv : Env Unit where
  time :=
    { Naive := Unit
      localtime := fun _ =>
        ⟨0, 1, ⟨0, 0, 0, by decide, Nat.succ_pos _, Nat.succ_pos _⟩, by decide, Nat.one_pos⟩
      strptime := fun _ => .error .value
      makeAware := fun _ => 0 }
  now := 0
  filterOf _ := .ok fun _ => true
  fault _ := none

/-- A received event is shielded and not reported. -/
theorem received_unreported :
    ¬∀ eventIdList activeShields events, Accounting plainEnv eventIdList activeShields events
      (executeShieldCheck plainEnv eventIdList activeShields events) := by
  intro h
  have h_count := (h [1] [shieldAll] (AList.singleton 1 {})).count
  revert h_count
  decide +kernel

theorem received_shielded :
    (executeShieldCheck plainEnv [1] [shieldAll] (AList.singleton 1 {})).events.lookup 1 =
      some { status := .shield } :=
  (lookup_executeShieldCheck (fun _ => rfl) [shieldAll] 1).trans rfl

end Examples

end Alerts.Shield
