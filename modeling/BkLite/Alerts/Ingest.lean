import BkLite.Alerts.Model
import BkLite.Framework.Batches
import BkLite.Framework.Runs

/-!
# Ingestion of a payload

`AlertSourceAdapter.main` of `common/source_adapter/base.py`: the events of a payload are
saved in batches of 100, and what `bulk_save_events` returns is handed to the shield check,
to the instant alerts and to the recovery handler. An event whose ingest key is stored
already is neither saved nor handed on.

The hash of the ingest key is arbitrary. `EventId`s are fresh numbers; what the query that
reloads the saved events makes of their order is a permutation of each attempt's own.
-/

namespace Alerts
namespace Ingest

open Py Runs

/-- An event as `create_events` has built it, before it is stored. -/
structure NewEvent where
  sourceId : ℕ
  pushSourceId : String
  /-- `add_base_fields` falls back to `"default"`. -/
  pushSourceId_ne : pushSourceId ≠ ""
  externalId : String
  action : EventAction
  startTime : ℤ
  /-- `_start_time_synthesized`: the source gave no time. -/
  startTimeSynthesized : Bool
  /-- The key that the payload brings along. -/
  ingestKey : Option String := none

/-- The columns of `alerts_event` that the ingestion reads. -/
structure StoredEvent where
  sourceId : ℕ
  pushSourceId : String
  ingestKey : Option String
  action : EventAction
deriving DecidableEq

/-- An event under its `event_id`. -/
abbrev EventRow := EventId × StoredEvent

structure IngestFingerprint where
  sourceId : ℕ
  pushSourceId : String
  externalId : String
  action : EventAction
  startTime : ℤ

/-- `_normalize_ingest_component` of a text. -/
def normalizeIngestComponent (value : String) : String :=
  String.ofList (strip value.toList)

/-- The rows of the database, the next unused `event_id`, and what has been handed to the
three consumers. -/
structure State where
  events : Table EventId StoredEvent
  nextEventId : EventId
  shieldChecked : List EventId
  dispatched : List EventId
  recoveryHandled : List EventId

structure Attempt where
  events : List NewEvent
  /-- `bulk_create` of this batch raises `IntegrityError`, which is caught. -/
  constraintHit : ℕ → Bool
  /-- How many stages are completed. -/
  stop : ℕ
  /-- The order in which the saved events are reloaded. -/
  order : List EventRow → List EventRow
  order_perm : ∀ rows, (order rows).Perm rows

section Main

variable (hash : IngestFingerprint → String)

/-! ### The ingest key -/

def buildIngestKey (e : NewEvent) (startTime : ℤ) : Option String :=
  if e.sourceId = 0 ∨ e.externalId = "" then none
  else some (hash
    { sourceId := e.sourceId
      pushSourceId := normalizeIngestComponent e.pushSourceId
      externalId := normalizeIngestComponent e.externalId
      action := e.action
      startTime := startTime })

/-- `build_ingress_dedup_key`. A time that the system has filled in counts to the
minute. -/
def buildIngressDedupKey (e : NewEvent) : Option String :=
  match e.ingestKey with
  | some key => if key ≠ "" then some key else
      buildIngestKey hash e (if e.startTimeSynthesized then
        e.startTime - e.startTime % minutes 1 else e.startTime)
  | none =>
      buildIngestKey hash e (if e.startTimeSynthesized then
        e.startTime - e.startTime % minutes 1 else e.startTime)

def storedEvent (e : NewEvent) : StoredEvent where
  sourceId := e.sourceId
  pushSourceId := e.pushSourceId
  ingestKey := buildIngressDedupKey hash e
  action := e.action

def prepared (s : State) (a : Attempt) : List EventRow :=
  a.events.zipIdx.map fun e => (s.nextEventId + e.2, storedEvent hash e.1)

/-! ### Saving -/

/-- `unique_events`, given the keys seen before. -/
def uniqueEvents (seen : List String) : List EventRow → List EventRow
  | [] => []
  | e :: es =>
    match e.2.ingestKey with
    | none => e :: uniqueEvents seen es
    | some key =>
      if key ∈ seen then uniqueEvents seen es else e :: uniqueEvents (key :: seen) es

/-- The key is one of `existing_ingest_keys`. -/
def alreadyPersisted (events : Table EventId StoredEvent) (unique : List EventRow)
    (key : String) : Bool :=
  let keyed := unique.filter (·.2.ingestKey.isSome)
  events.anyRow fun row =>
    row.sourceId ∈ keyed.map (·.2.sourceId) ∧
      row.pushSourceId ∈ keyed.map (fun e =>
        if e.2.pushSourceId = "" then "default" else e.2.pushSourceId) ∧
      row.ingestKey = some key

def eventsToCreate (s : State) (a : Attempt) : List EventRow :=
  let unique := uniqueEvents [] (prepared hash s a)
  unique.filter fun e => !e.2.ingestKey.any (alreadyPersisted s.events unique)

/-- The row violates `event_source_push_ingest_key_uniq`. -/
def conflicts (events : Table EventId StoredEvent) (e : StoredEvent) : Bool :=
  e.ingestKey.isSome && events.anyRow fun row =>
    row.sourceId = e.sourceId ∧ row.pushSourceId = e.pushSourceId ∧ row.ingestKey = e.ingestKey

/-- `bulk_create(ignore_conflicts=True)`. -/
def bulkCreate (events : Table EventId StoredEvent) (batch : List EventRow) :
    Table EventId StoredEvent :=
  batch.foldl (fun events e => if conflicts events e.2 then events else events.insert e.1 e.2)
    events

def batches (s : State) (a : Attempt) : List (List EventRow × ℕ) :=
  (Batches.chunks 100 (eventsToCreate hash s a)).zipIdx

def saveBatches (a : Attempt) (events : Table EventId StoredEvent)
    (numbered : List (List EventRow × ℕ)) : Table EventId StoredEvent :=
  numbered.foldl
    (fun events b => if a.constraintHit b.2 then events else bulkCreate events b.1) events

/-- `Event.objects.filter(event_id__in=…)` before it is put in order. -/
def reload (events : Table EventId StoredEvent) (rows : List EventRow) : List EventRow :=
  rows.filterMap fun e => (events.lookup e.1).map fun row => (e.1, row)

/-! ### Handing on -/

inductive HandOff
  /-- `execute_shield_check_for_events` on a batch. -/
  | shield (batch : List EventRow)
  /-- `InstantAlertDispatcher.dispatch`. -/
  | dispatch (bulk : List (List EventRow))
  /-- `RecoveryHandler.handle_recovery_events` on what a batch has of such events. -/
  | recovery (batch : List EventRow)

/-- The hand-offs of `main`, in their order. -/
def handOffs (bulk : List (List EventRow)) : List HandOff :=
  if bulk = [] then []
  else bulk.map .shield ++ .dispatch bulk :: bulk.map .recovery

def HandOff.shieldIds : HandOff → List EventId
  | .shield batch => batch.map Prod.fst
  | _ => []

def HandOff.dispatchIds : HandOff → List EventId
  | .dispatch bulk => bulk.flatten.map Prod.fst
  | _ => []

def HandOff.recoveryIds : HandOff → List EventId
  | .recovery batch => (batch.filter (·.2.action ∈ [.recovery, .closed])).map Prod.fst
  | _ => []

def HandOff.apply (s : State) (h : HandOff) : State :=
  { s with
    shieldChecked := s.shieldChecked ++ h.shieldIds
    dispatched := s.dispatched ++ h.dispatchIds
    recoveryHandled := s.recoveryHandled ++ h.recoveryIds }

/-- The state after `bulk_save_events`, or after the part of it that is completed. -/
def saved (s : State) (a : Attempt) : State :=
  { s with
    events := saveBatches a s.events ((batches hash s a).take a.stop)
    nextEventId := s.nextEventId + a.events.length }

/-- What `bulk_save_events` returns. -/
def bulkEvents (s : State) (a : Attempt) : List (List EventRow) :=
  Batches.chunks 100 (a.order (reload (saved hash s a).events (eventsToCreate hash s a)))

/-- `main`, as far as the attempt gets. -/
def main (s : State) (a : Attempt) : State :=
  if a.stop < (batches hash s a).length then saved hash s a
  else
    ((handOffs (bulkEvents hash s a)).take (a.stop - (batches hash s a).length)).foldl
      HandOff.apply (saved hash s a)

/-- The attempt gets through `main`. -/
def returns (s : State) (a : Attempt) : Bool :=
  (batches hash s a).length + (handOffs (bulkEvents hash s a)).length ≤ a.stop

/-! ### What ingestion owes a row -/

def Submitted (s : State) (e : EventRow) : Prop :=
  e.1 ∈ s.shieldChecked ∧ (e.2.action = .created → e.1 ∈ s.dispatched) ∧
    (e.2.action ≠ .created → e.1 ∈ s.recoveryHandled)

/-- Every row that `s₀` does not have yet has been handed on. -/
def AllSubmitted (s₀ s : State) : Prop :=
  ∀ k row, s₀.events.lookup k = none → s.events.lookup k = some row → Submitted s (k, row)

def survivors (a : Attempt) (numbered : List (List EventRow × ℕ)) : List EventRow :=
  numbered.flatMap fun b => if a.constraintHit b.2 then [] else b.1

/-- The condition on an attempt: it stops before it has stored a row, or after the last
hand-off that one of its rows needs. -/
def StopsSafely (s : State) (a : Attempt) : Prop :=
  if a.stop < (batches hash s a).length then ∀ i < a.stop, a.constraintHit i = true
  else
    let rows := survivors a (batches hash s a)
    let bulk := Batches.chunks 100 (a.order rows)
    let completed := a.stop - (batches hash s a).length
    bulk.length ≤ completed ∧
      ((∃ e ∈ rows, e.2.action = .created) → bulk.length < completed) ∧
      ∀ i batch, bulk[i]? = some batch → (∃ e ∈ batch, e.2.action ≠ .created) →
        bulk.length + 1 + i < completed

end Main

/-! ### Nothing conflicts -/

section Saving

variable {hash : IngestFingerprint → String} {s : State} {a : Attempt}
  {events : Table EventId StoredEvent} {rows : List EventRow}

def KeysApart (e e' : EventRow) : Prop :=
  e.2.ingestKey.isSome → e.2.ingestKey ≠ e'.2.ingestKey

def Free (events : Table EventId StoredEvent) (rows : List EventRow) : Prop :=
  ∀ e ∈ rows, conflicts events e.2 = false

theorem conflicts_eq_true {e : StoredEvent} :
    conflicts events e = true ↔ e.ingestKey.isSome = true ∧ ∃ k row,
      events.lookup k = some row ∧ row.sourceId = e.sourceId ∧
        row.pushSourceId = e.pushSourceId ∧ row.ingestKey = e.ingestKey := by
  unfold conflicts
  rw [Bool.and_eq_true, Table.anyRow_eq_true]
  simp only [decide_eq_true_eq]

theorem Free.cons {e : EventRow} (h : Free events (e :: rows)) : Free events rows :=
  fun e' h_mem => h e' (List.mem_cons_of_mem e h_mem)

theorem Free.insert {e : EventRow} (h : Free events rows) (h_apart : ∀ e' ∈ rows, KeysApart e e') :
    Free (events.insert e.1 e.2) rows := by
  intro e' h_mem
  rw [← Bool.not_eq_true, conflicts_eq_true]
  rintro ⟨h_key, k, row, h_row, h_source, h_push, h_same⟩
  rw [Table.lookup_insert] at h_row
  split_ifs at h_row with h_k
  · obtain rfl := Option.some.inj h_row
    exact h_apart e' h_mem (h_same ▸ h_key) h_same
  · have h_free := h e' h_mem
    rw [← Bool.not_eq_true, conflicts_eq_true] at h_free
    exact h_free ⟨h_key, k, row, h_row, h_source, h_push, h_same⟩

theorem Free.insertAll {later : List EventRow} (h : Free events later)
    (h_apart : ∀ e ∈ rows, ∀ e' ∈ later, KeysApart e e') :
    Free (events.insertAll rows) later := by
  induction rows generalizing events with
  | nil => exact h
  | cons e rows ih =>
    have h_first : Free (events.insert e.1 e.2) later := h.insert (h_apart e List.mem_cons_self)
    exact ih h_first fun e' h_mem => h_apart e' (List.mem_cons_of_mem e h_mem)

theorem bulkCreate_eq (h_free : Free events rows) (h_apart : rows.Pairwise KeysApart) :
    bulkCreate events rows = events.insertAll rows := by
  unfold bulkCreate
  induction rows generalizing events with
  | nil => rfl
  | cons e rows ih =>
    have h_here : conflicts events e.2 = false := h_free e List.mem_cons_self
    rw [List.pairwise_cons] at h_apart
    rw [List.foldl_cons, h_here, if_neg Bool.false_ne_true, Table.insertAll_cons]
    exact ih (h_free.cons.insert h_apart.1) h_apart.2

theorem saveBatches_eq {numbered : List (List EventRow × ℕ)}
    (h_free : Free events (numbered.map Prod.fst).flatten)
    (h_apart : (numbered.map Prod.fst).flatten.Pairwise KeysApart) :
    saveBatches a events numbered = events.insertAll (survivors a numbered) := by
  unfold saveBatches survivors
  induction numbered generalizing events with
  | nil => rfl
  | cons b numbered ih =>
    rw [List.map_cons, List.flatten_cons] at h_free h_apart
    rw [List.pairwise_append] at h_apart
    obtain ⟨h_batch, h_later, h_across⟩ := h_apart
    have h_free_batch : Free events b.1 := fun e h_mem => h_free e (List.mem_append_left _ h_mem)
    have h_free_later : Free events (numbered.map Prod.fst).flatten :=
      fun e h_mem => h_free e (List.mem_append_right _ h_mem)
    rw [List.foldl_cons, List.flatMap_cons, Table.insertAll_append]
    split_ifs with h_dropped
    · exact ih h_free_later h_later
    · rw [bulkCreate_eq h_free_batch h_batch]
      exact ih (h_free_later.insertAll h_across) h_later

theorem uniqueEvents_sublist (seen : List String) (rows : List EventRow) :
    (uniqueEvents seen rows).Sublist rows := by
  induction rows generalizing seen with
  | nil => exact List.Sublist.slnil
  | cons e rows ih =>
    unfold uniqueEvents
    split
    · exact (ih seen).cons_cons e
    · split_ifs
      · exact (ih seen).cons e
      · exact (ih _).cons_cons e

theorem uniqueEvents_not_seen {seen : List String} {e : EventRow} {key : String}
    (h : e ∈ uniqueEvents seen rows) (h_key : e.2.ingestKey = some key) : key ∉ seen := by
  induction rows generalizing seen with
  | nil => exact absurd h List.not_mem_nil
  | cons e' rows ih =>
    unfold uniqueEvents at h
    split at h
    next h_none =>
      rcases List.mem_cons.mp h with rfl | h_later
      · rw [h_none] at h_key
        cases h_key
      · exact ih h_later
    next key' h_some =>
      split_ifs at h with h_seen
      · exact ih h
      · rcases List.mem_cons.mp h with rfl | h_later
        · rw [h_some] at h_key
          exact Option.some.inj h_key ▸ h_seen
        · exact fun h_mem => ih h_later (List.mem_cons_of_mem key' h_mem)

theorem uniqueEvents_apart (seen : List String) (rows : List EventRow) :
    (uniqueEvents seen rows).Pairwise KeysApart := by
  induction rows generalizing seen with
  | nil => exact List.Pairwise.nil
  | cons e rows ih =>
    unfold uniqueEvents
    split
    next h_none =>
      refine List.pairwise_cons.mpr ⟨fun e' _ h_some => ?_, ih seen⟩
      rw [h_none] at h_some
      cases h_some
    next key h_some =>
      split_ifs
      · exact ih seen
      · refine List.pairwise_cons.mpr ⟨fun e' h_mem _ h_same => ?_, ih _⟩
        rw [h_some] at h_same
        exact uniqueEvents_not_seen h_mem h_same.symm List.mem_cons_self

theorem eventsToCreate_sublist : (eventsToCreate hash s a).Sublist (prepared hash s a) :=
  List.filter_sublist.trans (uniqueEvents_sublist [] _)

theorem eventsToCreate_apart : (eventsToCreate hash s a).Pairwise KeysApart :=
  (uniqueEvents_apart [] _).sublist List.filter_sublist

theorem mem_prepared {e : EventRow} (h : e ∈ prepared hash s a) :
    s.nextEventId ≤ e.1 ∧ e.1 < s.nextEventId + a.events.length ∧ e.2.pushSourceId ≠ "" := by
  obtain ⟨⟨new, i⟩, h_mem, rfl⟩ := List.mem_map.mp h
  have h_i := List.snd_lt_of_mem_zipIdx h_mem
  exact ⟨Nat.le_add_right _ _, Nat.add_lt_add_left h_i _, new.pushSourceId_ne⟩

theorem prepared_nodup : ((prepared hash s a).map Prod.fst).Nodup := by
  unfold prepared
  rw [List.map_map]
  have h_ids : (Prod.fst ∘ fun e : NewEvent × ℕ => (s.nextEventId + e.2, storedEvent hash e.1)) =
      (s.nextEventId + ·) ∘ Prod.snd := rfl
  rw [h_ids, ← List.map_map, List.zipIdx_map_snd]
  exact (List.nodup_range' 1).map fun i j h => Nat.add_left_cancel h

theorem eventsToCreate_nodup : ((eventsToCreate hash s a).map Prod.fst).Nodup :=
  prepared_nodup.sublist (eventsToCreate_sublist.map Prod.fst)

theorem eventsToCreate_free : Free s.events (eventsToCreate hash s a) := by
  intro e h_mem
  obtain ⟨h_unique, h_new⟩ := List.mem_filter.mp h_mem
  rw [← Bool.not_eq_true, conflicts_eq_true]
  rintro ⟨h_key, k, row, h_row, h_source, h_push, h_same⟩
  obtain ⟨key, h_some⟩ := Option.isSome_iff_exists.mp h_key
  have h_push_ne : e.2.pushSourceId ≠ "" :=
    (mem_prepared ((uniqueEvents_sublist [] _).subset h_unique)).2.2
  have h_keyed : e ∈ (uniqueEvents [] (prepared hash s a)).filter (·.2.ingestKey.isSome) :=
    List.mem_filter.mpr ⟨h_unique, h_key⟩
  rw [h_some, Option.any_some, Bool.not_eq_true', ← Bool.not_eq_true, alreadyPersisted,
    Table.anyRow_eq_true] at h_new
  apply h_new
  refine ⟨k, row, h_row, decide_eq_true ⟨?_, ?_, h_same.trans h_some⟩⟩
  · rw [h_source]
    exact List.mem_map.mpr ⟨e, h_keyed, rfl⟩
  · rw [h_push]
    exact List.mem_map.mpr ⟨e, h_keyed, if_neg h_push_ne⟩

theorem survivors_sublist (numbered : List (List EventRow × ℕ)) :
    (survivors a numbered).Sublist (numbered.map Prod.fst).flatten := by
  unfold survivors
  induction numbered with
  | nil => exact List.Sublist.slnil
  | cons b numbered ih =>
    rw [List.flatMap_cons, List.map_cons, List.flatten_cons]
    apply List.Sublist.append _ ih
    split_ifs
    · exact List.nil_sublist _
    · exact List.Sublist.refl _

variable (hash s a) in
theorem batches_fst : ((batches hash s a).map Prod.fst).flatten = eventsToCreate hash s a := by
  unfold batches
  rw [List.zipIdx_map_fst]
  exact Batches.chunks_flatten (by decide) _

variable (hash s a) in
theorem batches_take_sublist (n : ℕ) :
    (((batches hash s a).take n).map Prod.fst).flatten.Sublist (eventsToCreate hash s a) := by
  rw [← batches_fst hash s a]
  exact ((List.take_sublist n _).map Prod.fst).flatten

def storedRows (hash : IngestFingerprint → String) (s : State) (a : Attempt) : List EventRow :=
  survivors a ((batches hash s a).take a.stop)

theorem storedRows_sublist : (storedRows hash s a).Sublist (prepared hash s a) :=
  (survivors_sublist _).trans ((batches_take_sublist hash s a a.stop).trans eventsToCreate_sublist)

theorem saved_events : (saved hash s a).events = s.events.insertAll (storedRows hash s a) := by
  have h_sub := batches_take_sublist hash s a a.stop
  apply saveBatches_eq
  · exact fun e h_mem => eventsToCreate_free e (h_sub.subset h_mem)
  · exact eventsToCreate_apart.sublist h_sub

/-- The numbers from `nextEventId` on are unused. -/
structure Fresh (s : State) : Prop where
  events : Table.Below s.events s.nextEventId
  shieldChecked : ∀ k ∈ s.shieldChecked, k < s.nextEventId
  dispatched : ∀ k ∈ s.dispatched, k < s.nextEventId
  recoveryHandled : ∀ k ∈ s.recoveryHandled, k < s.nextEventId

theorem storedRows_fresh {e : EventRow} (h : e ∈ storedRows hash s a) :
    s.nextEventId ≤ e.1 ∧ e.1 < s.nextEventId + a.events.length :=
  have h_new := mem_prepared (storedRows_sublist.subset h)
  ⟨h_new.1, h_new.2.1⟩

theorem storedRows_nodup : ((storedRows hash s a).map Prod.fst).Nodup :=
  prepared_nodup.sublist (storedRows_sublist.map Prod.fst)

theorem saved_lookup (h : Fresh s) {k : EventId} {row : StoredEvent} :
    (saved hash s a).events.lookup k = some row ↔
      s.events.lookup k = some row ∨ (k, row) ∈ storedRows hash s a := by
  rw [saved_events]
  by_cases h_mem : k ∈ (storedRows hash s a).map Prod.fst
  · obtain ⟨e, h_e, rfl⟩ := List.mem_map.mp h_mem
    have h_none : s.events.lookup e.1 = none := h.events _ (storedRows_fresh h_e).1
    rw [Table.lookup_insertAll_of_mem storedRows_nodup h_e, h_none]
    constructor
    · intro h_some
      obtain rfl := Option.some.inj h_some
      exact Or.inr h_e
    · rintro (h_some | h_other)
      · cases h_some
      · have h_eq := List.inj_on_of_nodup_map storedRows_nodup h_e h_other rfl
        rw [h_eq]
  · rw [Table.lookup_insertAll_of_not_mem h_mem]
    refine ⟨Or.inl, ?_⟩
    rintro (h_some | h_other)
    · exact h_some
    · exact absurd (List.mem_map_of_mem h_other) h_mem

/-! ### Reloading -/

theorem reload_eq {numbered : List (List EventRow × ℕ)}
    (h : ∀ b ∈ numbered, ∀ e ∈ b.1, events.lookup e.1 =
      if a.constraintHit b.2 then none else some e.2) :
    reload events (numbered.map Prod.fst).flatten = survivors a numbered := by
  unfold survivors
  induction numbered with
  | nil => rfl
  | cons b numbered ih =>
    have h_here : reload events b.1 = if a.constraintHit b.2 then [] else b.1 := by
      have h_batch := h b List.mem_cons_self
      unfold reload
      split_ifs at h_batch ⊢
      · rw [List.filterMap_eq_nil_iff]
        intro e h_mem
        rw [h_batch e h_mem]
        rfl
      · calc b.1.filterMap (fun e => (events.lookup e.1).map fun row => (e.1, row))
            = b.1.filterMap some := by
              apply List.filterMap_congr
              intro e h_mem
              rw [h_batch e h_mem]
              rfl
          _ = b.1 := List.filterMap_some
    have h_later := ih fun b' h_mem => h b' (List.mem_cons_of_mem b h_mem)
    rw [List.map_cons, List.flatten_cons, List.flatMap_cons, ← h_here, ← h_later]
    exact List.filterMap_append

theorem reload_saved (h : Fresh s) (h_all : (batches hash s a).length ≤ a.stop) :
    reload (saved hash s a).events (eventsToCreate hash s a) =
      survivors a (batches hash s a) := by
  have h_stored : storedRows hash s a = survivors a (batches hash s a) := by
    unfold storedRows
    rw [List.take_of_length_le h_all]
  rw [← batches_fst hash s a]
  apply reload_eq
  intro b h_b e h_mem
  have h_create : e ∈ eventsToCreate hash s a := by
    rw [← batches_fst hash s a]
    exact List.mem_flatten.mpr ⟨b.1, List.mem_map_of_mem h_b, h_mem⟩
  split_ifs with h_dropped
  · -- the event stands in no other batch
    rw [Option.eq_none_iff_forall_ne_some]
    intro row h_row
    rcases (saved_lookup h).mp h_row with h_old | h_new
    · have h_new := (mem_prepared (eventsToCreate_sublist.subset h_create)).1
      rw [h.events _ h_new] at h_old
      cases h_old
    · rw [h_stored] at h_new
      obtain ⟨b', h_b', h_in⟩ := List.mem_flatMap.mp h_new
      split_ifs at h_in with h_kept
      · exact absurd h_in List.not_mem_nil
      · have h_other : (e.1, row) ∈ eventsToCreate hash s a := by
          rw [← batches_fst hash s a]
          exact List.mem_flatten.mpr ⟨b'.1, List.mem_map_of_mem h_b', h_in⟩
        have h_same : e = (e.1, row) :=
          List.inj_on_of_nodup_map eventsToCreate_nodup h_create h_other rfl
        have h_eq : b.2 = b'.2 := by
          have h_flat : (Batches.chunks 100 (eventsToCreate hash s a)).flatten.Nodup := by
            rw [Batches.chunks_flatten (by decide)]
            exact eventsToCreate_nodup.of_map
          exact Batches.eq_of_mem_batches h_flat (List.mem_zipIdx_iff_getElem?.mp h_b)
            (List.mem_zipIdx_iff_getElem?.mp h_b') h_mem (h_same ▸ h_in)
        rw [h_eq] at h_dropped
        exact h_kept h_dropped
  · exact (saved_lookup h).mpr (Or.inr (h_stored ▸ List.mem_flatMap.mpr ⟨b, h_b, by
      rw [if_neg h_dropped]
      exact h_mem⟩))

end Saving

end Ingest
end Alerts
