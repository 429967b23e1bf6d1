import BkLite.Alerts.Ingest

/-!
# Retried attempts at a payload

Which of the rows that an attempt stores it hands on itself (`attempt_right_iff`), and
what that means for the rows left behind when attempts are repeated until one returns
(`ingestion_right_iff`). The hand-offs come in a fixed order, shield checks, dispatch,
recoveries (`take_handOffs`), so the point at which an attempt stops decides which batches
each consumer has seen.
-/

namespace Alerts
namespace Ingest

open Py Runs

/-! ### The hand-offs -/

section HandOffs

variable {s : State} {bulk : List (List EventRow)} {k : EventId}

theorem apply_events (hs : List HandOff) (s : State) :
    (hs.foldl HandOff.apply s).events = s.events ∧
      (hs.foldl HandOff.apply s).nextEventId = s.nextEventId := by
  induction hs generalizing s with
  | nil => exact ⟨rfl, rfl⟩
  | cons h hs ih => exact ih (h.apply s)

theorem apply_logs (hs : List HandOff) (s : State) :
    (hs.foldl HandOff.apply s).shieldChecked = s.shieldChecked ++ hs.flatMap HandOff.shieldIds ∧
      (hs.foldl HandOff.apply s).dispatched = s.dispatched ++ hs.flatMap HandOff.dispatchIds ∧
      (hs.foldl HandOff.apply s).recoveryHandled =
        s.recoveryHandled ++ hs.flatMap HandOff.recoveryIds := by
  induction hs generalizing s with
  | nil => simp
  | cons h hs ih =>
    obtain ⟨h_shield, h_dispatch, h_recovery⟩ := ih (h.apply s)
    simp only [List.foldl_cons, List.flatMap_cons, ← List.append_assoc]
    exact ⟨h_shield, h_dispatch, h_recovery⟩

theorem take_handOffs (bulk : List (List EventRow)) (n : ℕ) :
    (handOffs bulk).take n = (bulk.take n).map .shield ++
      if bulk ≠ [] ∧ bulk.length < n then
        .dispatch bulk :: (bulk.take (n - (bulk.length + 1))).map .recovery
      else [] := by
  unfold handOffs
  by_cases h_nil : bulk = []
  · simp [h_nil]
  · rw [if_neg h_nil, List.take_append, List.length_map, ← List.map_take]
    congr 1
    by_cases h_n : bulk.length < n
    · obtain ⟨j, rfl⟩ := Nat.exists_eq_add_of_lt h_n
      rw [if_pos ⟨h_nil, h_n⟩]
      have h_left : bulk.length + j + 1 - bulk.length = j + 1 := by omega
      have h_rest : bulk.length + j + 1 - (bulk.length + 1) = j := by omega
      rw [h_left, h_rest, List.take_succ_cons, ← List.map_take]
    · have h_none : n - bulk.length = 0 := Nat.sub_eq_zero_of_le (Nat.not_lt.mp h_n)
      rw [if_neg fun h => h_n h.2, h_none, List.take_zero]

theorem mem_take_iff {n : ℕ} {batch : List EventRow} :
    batch ∈ bulk.take n ↔ ∃ i, i < n ∧ bulk[i]? = some batch := by
  rw [List.mem_iff_getElem?]
  constructor
  · rintro ⟨i, h_i⟩
    rw [List.getElem?_take] at h_i
    split_ifs at h_i with h_lt
    exact ⟨i, h_lt, h_i⟩
  · rintro ⟨i, h_lt, h_i⟩
    refine ⟨i, ?_⟩
    rw [List.getElem?_take, if_pos h_lt, h_i]

theorem mem_shieldIds {n : ℕ} :
    k ∈ ((handOffs bulk).take n).flatMap HandOff.shieldIds ↔
      ∃ i batch, i < n ∧ bulk[i]? = some batch ∧ k ∈ batch.map Prod.fst := by
  rw [take_handOffs, List.flatMap_append]
  have h_rest : (if bulk ≠ [] ∧ bulk.length < n then
      HandOff.dispatch bulk :: (bulk.take (n - (bulk.length + 1))).map .recovery
      else []).flatMap HandOff.shieldIds = [] := by
    split_ifs
    · rw [List.flatMap_cons, List.flatMap_map]
      simp [HandOff.shieldIds]
    · rfl
  rw [h_rest, List.append_nil, List.flatMap_map]
  simp only [List.mem_flatMap, mem_take_iff, HandOff.shieldIds]
  constructor
  · rintro ⟨batch, ⟨i, h_lt, h_i⟩, h_k⟩
    exact ⟨i, batch, h_lt, h_i, h_k⟩
  · rintro ⟨i, batch, h_lt, h_i, h_k⟩
    exact ⟨batch, ⟨i, h_lt, h_i⟩, h_k⟩

theorem mem_dispatchIds {n : ℕ} :
    k ∈ ((handOffs bulk).take n).flatMap HandOff.dispatchIds ↔
      bulk.length < n ∧ k ∈ bulk.flatten.map Prod.fst := by
  rw [take_handOffs, List.flatMap_append, List.flatMap_map]
  have h_first : (bulk.take n).flatMap (fun batch => HandOff.dispatchIds (.shield batch)) = [] := by
    simp [HandOff.dispatchIds]
  rw [h_first, List.nil_append]
  split_ifs with h
  · rw [List.flatMap_cons, List.flatMap_map]
    have h_last : (bulk.take (n - (bulk.length + 1))).flatMap
        (fun batch => HandOff.dispatchIds (.recovery batch)) = [] := by
      simp [HandOff.dispatchIds]
    rw [h_last, List.append_nil]
    exact ⟨fun h_k => ⟨h.2, h_k⟩, fun h_k => h_k.2⟩
  · refine iff_of_false List.not_mem_nil ?_
    rintro ⟨h_n, h_k⟩
    refine h ⟨?_, h_n⟩
    rintro rfl
    exact List.not_mem_nil h_k

theorem mem_recoveryIds {n : ℕ} :
    k ∈ ((handOffs bulk).take n).flatMap HandOff.recoveryIds ↔
      ∃ i batch, bulk.length + 1 + i < n ∧ bulk[i]? = some batch ∧
        k ∈ (batch.filter (·.2.action ∈ [EventAction.recovery, .closed])).map Prod.fst := by
  rw [take_handOffs, List.flatMap_append, List.flatMap_map]
  have h_first : (bulk.take n).flatMap (fun batch => HandOff.recoveryIds (.shield batch)) = [] := by
    simp [HandOff.recoveryIds]
  rw [h_first, List.nil_append]
  split_ifs with h
  · rw [List.flatMap_cons, List.flatMap_map]
    simp only [HandOff.recoveryIds, List.nil_append, List.mem_flatMap, mem_take_iff]
    constructor
    · rintro ⟨batch, ⟨i, h_lt, h_i⟩, h_k⟩
      exact ⟨i, batch, by omega, h_i, h_k⟩
    · rintro ⟨i, batch, h_lt, h_i, h_k⟩
      exact ⟨batch, ⟨i, by omega, h_i⟩, h_k⟩
  · refine iff_of_false List.not_mem_nil ?_
    rintro ⟨i, batch, h_n, h_i, -⟩
    refine h ⟨?_, by omega⟩
    rintro rfl
    cases h_i

end HandOffs

/-! ### Attempts -/

section Attempts

variable {hash : IngestFingerprint → String} {s s₀ : State} {a : Attempt}

variable (hash s a) in
theorem main_events :
    (main hash s a).events = (saved hash s a).events ∧
      (main hash s a).nextEventId = s.nextEventId + a.events.length := by
  unfold main
  split_ifs
  · exact ⟨rfl, rfl⟩
  · exact apply_events _ _

theorem storedRows_of_complete (h_all : (batches hash s a).length ≤ a.stop) :
    storedRows hash s a = survivors a (batches hash s a) := by
  unfold storedRows
  rw [List.take_of_length_le h_all]

theorem bulkEvents_eq (h : Fresh s) (h_all : (batches hash s a).length ≤ a.stop) :
    bulkEvents hash s a = Batches.chunks 100 (a.order (storedRows hash s a)) := by
  unfold bulkEvents
  rw [reload_saved h h_all, storedRows_of_complete h_all]

theorem bulkEvents_perm (h : Fresh s) (h_all : (batches hash s a).length ≤ a.stop) :
    (bulkEvents hash s a).flatten.Perm (storedRows hash s a) := by
  rw [bulkEvents_eq h h_all, Batches.chunks_flatten (by decide)]
  exact a.order_perm _

theorem mem_storedRows_of_batch (h : Fresh s) (h_all : (batches hash s a).length ≤ a.stop) {i : ℕ}
    {batch : List EventRow} (h_i : (bulkEvents hash s a)[i]? = some batch) {k : EventId}
    (h_k : k ∈ batch.map Prod.fst) : k ∈ (storedRows hash s a).map Prod.fst := by
  obtain ⟨e, h_e, rfl⟩ := List.mem_map.mp h_k
  have h_flat : e ∈ (bulkEvents hash s a).flatten :=
    List.mem_flatten.mpr ⟨batch, List.mem_of_getElem? h_i, h_e⟩
  exact List.mem_map_of_mem ((bulkEvents_perm h h_all).mem_iff.mp h_flat)

theorem main_logs (h_all : (batches hash s a).length ≤ a.stop) :
    let done := (handOffs (bulkEvents hash s a)).take (a.stop - (batches hash s a).length)
    (main hash s a).shieldChecked = s.shieldChecked ++ done.flatMap HandOff.shieldIds ∧
      (main hash s a).dispatched = s.dispatched ++ done.flatMap HandOff.dispatchIds ∧
      (main hash s a).recoveryHandled = s.recoveryHandled ++ done.flatMap HandOff.recoveryIds := by
  unfold main
  rw [if_neg (Nat.not_lt.mpr h_all)]
  exact apply_logs _ _

variable (hash a) in
theorem main_logs_new (h : Fresh s) :
    (∀ k ∈ (main hash s a).shieldChecked, k ∈ s.shieldChecked ∨
        k ∈ (storedRows hash s a).map Prod.fst) ∧
      (∀ k ∈ (main hash s a).dispatched, k ∈ s.dispatched ∨
        k ∈ (storedRows hash s a).map Prod.fst) ∧
      ∀ k ∈ (main hash s a).recoveryHandled, k ∈ s.recoveryHandled ∨
        k ∈ (storedRows hash s a).map Prod.fst := by
  by_cases h_stop : a.stop < (batches hash s a).length
  · unfold main
    rw [if_pos h_stop]
    exact ⟨fun _ => Or.inl, fun _ => Or.inl, fun _ => Or.inl⟩
  have h_all := Nat.not_lt.mp h_stop
  obtain ⟨h_shield, h_dispatch, h_recovery⟩ := main_logs h_all
  rw [h_shield, h_dispatch, h_recovery]
  refine ⟨fun k h_k => ?_, fun k h_k => ?_, fun k h_k => ?_⟩
  · rcases List.mem_append.mp h_k with h_old | h_new
    · exact Or.inl h_old
    · obtain ⟨i, batch, -, h_i, h_in⟩ := mem_shieldIds.mp h_new
      exact Or.inr (mem_storedRows_of_batch h h_all h_i h_in)
  · rcases List.mem_append.mp h_k with h_old | h_new
    · exact Or.inl h_old
    · have h_ids := (bulkEvents_perm h h_all).map Prod.fst
      exact Or.inr (h_ids.subset (mem_dispatchIds.mp h_new).2)
  · rcases List.mem_append.mp h_k with h_old | h_new
    · exact Or.inl h_old
    · obtain ⟨i, batch, -, h_i, h_in⟩ := mem_recoveryIds.mp h_new
      have h_batch := (List.filter_sublist.map Prod.fst).subset h_in
      exact Or.inr (mem_storedRows_of_batch h h_all h_i h_batch)

theorem Fresh.main (h : Fresh s) (a : Attempt) : Fresh (main hash s a) := by
  obtain ⟨h_events, h_next⟩ := main_events hash s a
  obtain ⟨h_shield, h_dispatch, h_recovery⟩ := main_logs_new hash a h
  have h_bound : ∀ k, k < s.nextEventId ∨ k ∈ (storedRows hash s a).map Prod.fst →
      k < s.nextEventId + a.events.length := by
    rintro k (h_old | h_new)
    · exact Nat.lt_of_lt_of_le h_old (Nat.le_add_right _ _)
    · obtain ⟨e, h_e, rfl⟩ := List.mem_map.mp h_new
      exact (storedRows_fresh h_e).2
  refine ⟨?_, ?_, ?_, ?_⟩
  · rw [h_events, h_next]
    intro k h_k
    rw [Option.eq_none_iff_forall_ne_some]
    intro row h_row
    rcases (saved_lookup h).mp h_row with h_old | h_new
    · have h_lt := h.events.lt h_old
      exact absurd (h_bound k (Or.inl h_lt)) (Nat.not_lt.mpr h_k)
    · exact absurd (storedRows_fresh h_new).2 (Nat.not_lt.mpr h_k)
  · rw [h_next]
    exact fun k h_k => h_bound k ((h_shield k h_k).imp_left (h.shieldChecked k))
  · rw [h_next]
    exact fun k h_k => h_bound k ((h_dispatch k h_k).imp_left (h.dispatched k))
  · rw [h_next]
    exact fun k h_k => h_bound k ((h_recovery k h_k).imp_left (h.recoveryHandled k))

theorem submitted_iff (h : Fresh s) (h_all : (batches hash s a).length ≤ a.stop) {e : EventRow}
    (h_e : e ∈ storedRows hash s a) {i : ℕ} {batch : List EventRow}
    (h_i : (bulkEvents hash s a)[i]? = some batch) (h_in : e ∈ batch) :
    Submitted (main hash s a) e ↔
      i < a.stop - (batches hash s a).length ∧
        (e.2.action = .created →
          (bulkEvents hash s a).length < a.stop - (batches hash s a).length) ∧
        (e.2.action ≠ .created →
          (bulkEvents hash s a).length + 1 + i < a.stop - (batches hash s a).length) := by
  have h_new := (storedRows_fresh h_e).1
  -- the id stands in one batch only
  have h_same : ∀ j batch', (bulkEvents hash s a)[j]? = some batch' →
      e.1 ∈ batch'.map Prod.fst → j = i := by
    intro j batch' h_j h_mem
    have h_ids : ((bulkEvents hash s a).map (List.map Prod.fst)).flatten.Nodup := by
      rw [← List.map_flatten]
      exact ((bulkEvents_perm h h_all).map Prod.fst).nodup_iff.mpr storedRows_nodup
    refine Batches.eq_of_mem_batches h_ids ?_ ?_ h_mem (List.mem_map_of_mem h_in)
    · rw [List.getElem?_map, h_j]
      rfl
    · rw [List.getElem?_map, h_i]
      rfl
  obtain ⟨h_shield, h_dispatch, h_recovery⟩ := main_logs h_all
  unfold Submitted
  rw [h_shield, h_dispatch, h_recovery, List.mem_append, List.mem_append, List.mem_append,
    mem_shieldIds, mem_dispatchIds, mem_recoveryIds]
  have h_not_shield : e.1 ∉ s.shieldChecked := fun h_k =>
    Nat.not_lt.mpr h_new (h.shieldChecked _ h_k)
  have h_not_dispatch : e.1 ∉ s.dispatched := fun h_k =>
    Nat.not_lt.mpr h_new (h.dispatched _ h_k)
  have h_not_recovery : e.1 ∉ s.recoveryHandled := fun h_k =>
    Nat.not_lt.mpr h_new (h.recoveryHandled _ h_k)
  rw [or_iff_right h_not_shield, or_iff_right h_not_dispatch, or_iff_right h_not_recovery]
  constructor
  · rintro ⟨⟨j, batch', h_lt, h_j, h_mem⟩, h_created, h_other⟩
    refine ⟨h_same j batch' h_j h_mem ▸ h_lt, fun h_action => (h_created h_action).1, ?_⟩
    intro h_action
    obtain ⟨j, batch', h_lt, h_j, h_mem⟩ := h_other h_action
    have h_batch := (List.filter_sublist.map Prod.fst).subset h_mem
    exact h_same j batch' h_j h_batch ▸ h_lt
  · rintro ⟨h_lt, h_created, h_other⟩
    refine ⟨⟨i, batch, h_lt, h_i, List.mem_map_of_mem h_in⟩, fun h_action => ?_, fun h_action => ?_⟩
    · have h_flat : e ∈ (bulkEvents hash s a).flatten :=
        List.mem_flatten.mpr ⟨batch, List.mem_of_getElem? h_i, h_in⟩
      exact ⟨h_created h_action, List.mem_map_of_mem h_flat⟩
    · have h_recovers : e.2.action ∈ [EventAction.recovery, .closed] := by
        cases h_e : e.2.action with
        | created => exact absurd h_e h_action
        | recovery => decide
        | closed => decide
      have h_filter : e ∈ batch.filter (·.2.action ∈ [EventAction.recovery, .closed]) :=
        List.mem_filter.mpr ⟨h_in, decide_eq_true h_recovers⟩
      exact ⟨i, batch, h_other h_action, h_i, List.mem_map_of_mem h_filter⟩

theorem attempt_right_iff (h : Fresh s) :
    (∀ e ∈ storedRows hash s a, Submitted (main hash s a) e) ↔ StopsSafely hash s a := by
  unfold StopsSafely
  split_ifs with h_stop
  · -- nothing has been handed on: no batch may have been stored
    have h_main : main hash s a = saved hash s a := if_pos h_stop
    have h_none : (∀ e ∈ storedRows hash s a, Submitted (main hash s a) e) ↔
        storedRows hash s a = [] := by
      rw [List.eq_nil_iff_forall_not_mem, h_main]
      refine forall₂_congr fun e h_e => iff_of_false (fun h_sub => ?_) (fun h_not => h_not)
      exact Nat.not_lt.mpr (storedRows_fresh h_e).1 (h.shieldChecked _ h_sub.1)
    rw [h_none]
    unfold storedRows survivors
    rw [List.flatMap_eq_nil_iff]
    constructor
    · intro h_empty i h_i
      obtain ⟨b, h_b⟩ : ∃ b, (batches hash s a)[i]? = some b :=
        ⟨_, List.getElem?_eq_getElem (h_i.trans h_stop)⟩
      have h_taken : b ∈ (batches hash s a).take a.stop :=
        List.mem_of_getElem? ((List.getElem?_take_of_lt h_i).trans h_b)
      have h_chunk : (Batches.chunks 100 (eventsToCreate hash s a))[i]? = some b.1 ∧ b.2 = i := by
        unfold batches at h_b
        rw [List.getElem?_zipIdx] at h_b
        obtain ⟨batch, h_batch, rfl⟩ := Option.map_eq_some_iff.mp h_b
        exact ⟨h_batch, Nat.zero_add i⟩
      have h_here := h_empty b h_taken
      rw [h_chunk.2] at h_here
      split_ifs at h_here with h_dropped
      · exact h_dropped
      · exact absurd h_here
          (Batches.ne_nil_of_mem_chunks (by decide) (List.mem_of_getElem? h_chunk.1))
    · intro h_dropped b h_b
      obtain ⟨i, h_i⟩ := List.mem_iff_getElem?.mp h_b
      rw [List.getElem?_take] at h_i
      split_ifs at h_i with h_lt
      unfold batches at h_i
      rw [List.getElem?_zipIdx] at h_i
      obtain ⟨batch, -, rfl⟩ := Option.map_eq_some_iff.mp h_i
      rw [if_pos]
      rw [Nat.zero_add]
      exact h_dropped i h_lt
  · have h_all := Nat.not_lt.mp h_stop
    have h_perm := bulkEvents_perm h h_all
    dsimp only
    rw [← storedRows_of_complete h_all, ← bulkEvents_eq h h_all]
    constructor
    · intro h_every
      have h_batch : ∀ i batch, (bulkEvents hash s a)[i]? = some batch → ∀ e ∈ batch,
          e ∈ storedRows hash s a := fun i batch h_i e h_e =>
        h_perm.mem_iff.mp (List.mem_flatten.mpr ⟨batch, List.mem_of_getElem? h_i, h_e⟩)
      refine ⟨?_, ?_, ?_⟩
      · -- the last batch holds a row
        by_cases h_nil : (bulkEvents hash s a).length = 0
        · rw [h_nil]
          exact Nat.zero_le _
        obtain ⟨m, h_m⟩ := Nat.exists_eq_succ_of_ne_zero h_nil
        obtain ⟨batch, h_last⟩ : ∃ batch, (bulkEvents hash s a)[m]? = some batch :=
          ⟨_, List.getElem?_eq_getElem (h_m ▸ Nat.lt_succ_self m)⟩
        have h_mem := List.mem_of_getElem? h_last
        rw [bulkEvents_eq h h_all] at h_mem
        obtain ⟨e, h_e⟩ :=
          List.exists_mem_of_ne_nil _ (Batches.ne_nil_of_mem_chunks (by decide) h_mem)
        have h_stored := h_batch m batch h_last e h_e
        have h_sub := (submitted_iff h h_all h_stored h_last h_e).mp (h_every e h_stored)
        rw [h_m]
        exact h_sub.1
      · rintro ⟨e, h_e, h_action⟩
        obtain ⟨batch, h_mem, h_in⟩ := List.mem_flatten.mp (h_perm.mem_iff.mpr h_e)
        obtain ⟨i, h_i⟩ := List.mem_iff_getElem?.mp h_mem
        exact ((submitted_iff h h_all h_e h_i h_in).mp (h_every e h_e)).2.1 h_action
      · rintro i batch h_i ⟨e, h_e, h_action⟩
        have h_stored := h_batch i batch h_i e h_e
        exact ((submitted_iff h h_all h_stored h_i h_e).mp (h_every e h_stored)).2.2 h_action
    · rintro ⟨h_shield, h_dispatch, h_recovery⟩ e h_e
      obtain ⟨batch, h_mem, h_in⟩ := List.mem_flatten.mp (h_perm.mem_iff.mpr h_e)
      obtain ⟨i, h_i⟩ := List.mem_iff_getElem?.mp h_mem
      have h_lt : i < (bulkEvents hash s a).length := (List.getElem?_eq_some_iff.mp h_i).1
      rw [submitted_iff h h_all h_e h_i h_in]
      exact ⟨Nat.lt_of_lt_of_le h_lt h_shield, fun h_action => h_dispatch ⟨e, h_e, h_action⟩,
        fun h_action => h_recovery i batch h_i ⟨e, h_in, h_action⟩⟩

theorem stopsSafely_of_returns (h : Fresh s) (h_returns : returns hash s a = true) :
    StopsSafely hash s a := by
  unfold returns at h_returns
  rw [decide_eq_true_iff] at h_returns
  have h_all : (batches hash s a).length ≤ a.stop := (Nat.le_add_right _ _).trans h_returns
  unfold StopsSafely
  rw [if_neg (Nat.not_lt.mpr h_all)]
  dsimp only
  rw [← storedRows_of_complete h_all, ← bulkEvents_eq h h_all]
  by_cases h_nil : bulkEvents hash s a = []
  · have h_none : storedRows hash s a = [] := by
      have h_perm := bulkEvents_perm h h_all
      rw [h_nil] at h_perm
      exact h_perm.symm.eq_nil
    rw [h_nil, h_none]
    simp
  · have h_length : (handOffs (bulkEvents hash s a)).length =
        (bulkEvents hash s a).length + ((bulkEvents hash s a).length + 1) := by
      unfold handOffs
      rw [if_neg h_nil, List.length_append, List.length_cons, List.length_map, List.length_map]
    rw [h_length] at h_returns
    refine ⟨by omega, fun _ => by omega, fun i batch h_i _ => ?_⟩
    have h_lt := (List.getElem?_eq_some_iff.mp h_i).1
    omega

theorem submitted_old_iff (h : Fresh s) {e : EventRow} (h_old : e.1 < s.nextEventId) :
    Submitted (main hash s a) e ↔ Submitted s e := by
  have h_not : e.1 ∉ (storedRows hash s a).map Prod.fst := by
    intro h_mem
    obtain ⟨e', h_e', h_eq⟩ := List.mem_map.mp h_mem
    exact Nat.not_lt.mpr (storedRows_fresh h_e').1 (h_eq ▸ h_old)
  have h_keep : ∀ k, (k ∈ s.shieldChecked → k ∈ (main hash s a).shieldChecked) ∧
      (k ∈ s.dispatched → k ∈ (main hash s a).dispatched) ∧
      (k ∈ s.recoveryHandled → k ∈ (main hash s a).recoveryHandled) := by
    intro k
    unfold main
    split_ifs
    · exact ⟨id, id, id⟩
    · obtain ⟨h_shield, h_dispatch, h_recovery⟩ := apply_logs
        ((handOffs (bulkEvents hash s a)).take (a.stop - (batches hash s a).length))
        (saved hash s a)
      rw [h_shield, h_dispatch, h_recovery]
      exact ⟨List.mem_append_left _, List.mem_append_left _, List.mem_append_left _⟩
  obtain ⟨h_shield, h_dispatch, h_recovery⟩ := main_logs_new hash a h
  obtain ⟨h_shield', h_dispatch', h_recovery'⟩ := h_keep e.1
  have h_shield_iff := Iff.intro (fun h_k => (h_shield _ h_k).resolve_right h_not) h_shield'
  have h_dispatch_iff := Iff.intro (fun h_k => (h_dispatch _ h_k).resolve_right h_not) h_dispatch'
  have h_recovery_iff := Iff.intro (fun h_k => (h_recovery _ h_k).resolve_right h_not) h_recovery'
  unfold Submitted
  rw [h_shield_iff, h_dispatch_iff, h_recovery_iff]

theorem allSubmitted_main_iff (h₀ : Fresh s₀) (h : Fresh s) (h_le : s₀.nextEventId ≤ s.nextEventId) :
    AllSubmitted s₀ (main hash s a) ↔ AllSubmitted s₀ s ∧ StopsSafely hash s a := by
  rw [← attempt_right_iff h]
  unfold AllSubmitted
  rw [(main_events _ _ _).1]
  constructor
  · intro h_every
    refine ⟨fun k row h_none h_row => ?_, fun e h_e => ?_⟩
    · have h_sub := h_every k row h_none ((saved_lookup h).mpr (Or.inl h_row))
      have h_old : (k, row).1 < s.nextEventId := h.events.lt h_row
      exact (submitted_old_iff h h_old).mp h_sub
    · have h_none : s₀.events.lookup e.1 = none :=
        h₀.events _ (h_le.trans (storedRows_fresh h_e).1)
      exact h_every e.1 e.2 h_none ((saved_lookup h).mpr (Or.inr h_e))
  · rintro ⟨h_before, h_here⟩ k row h_none h_row
    rcases (saved_lookup h).mp h_row with h_old | h_new
    · have h_lt : (k, row).1 < s.nextEventId := h.events.lt h_old
      exact (submitted_old_iff h h_lt).mpr (h_before k row h_none h_old)
    · exact h_here _ h_new

/-- **Ingestion.** Every stored row is handed on exactly if every attempt stops safely. -/
theorem ingestion_right_iff (hash : IngestFingerprint → String) (s₀ : State)
    (attempts : List Attempt) (h₀ : Fresh s₀) :
    AllSubmitted s₀ (run (main hash) s₀ attempts) ↔
      Along (main hash) (fun s a _ => StopsSafely hash s a) s₀ attempts := by
  suffices h_general : ∀ s, Fresh s → s₀.nextEventId ≤ s.nextEventId →
      (AllSubmitted s₀ (run (main hash) s attempts) ↔ AllSubmitted s₀ s ∧
        Along (main hash) (fun s a _ => StopsSafely hash s a) s attempts) by
    have h_start : AllSubmitted s₀ s₀ := by
      intro k row h_none h_row
      rw [h_none] at h_row
      cases h_row
    rw [h_general s₀ h₀ (Nat.le_refl _)]
    exact and_iff_right h_start
  induction attempts with
  | nil => exact fun s _ _ => (and_iff_left trivial).symm
  | cons a attempts ih =>
    intro s h h_le
    have h_next : s₀.nextEventId ≤ (main hash s a).nextEventId := by
      rw [(main_events _ _ _).2]
      exact h_le.trans (Nat.le_add_right _ _)
    rw [run_cons, along_cons, ih _ (h.main a) h_next, allSubmitted_main_iff h₀ h h_le, and_assoc]

end Attempts

def emptyState : State where
  events := ∅
  nextEventId := 0
  shieldChecked := []
  dispatched := []
  recoveryHandled := []

theorem fresh_emptyState : Fresh emptyState where
  events := fun _ _ => rfl
  shieldChecked := fun _ h => absurd h List.not_mem_nil
  dispatched := fun _ h => absurd h List.not_mem_nil
  recoveryHandled := fun _ h => absurd h List.not_mem_nil

def recoveryEvent : NewEvent where
  sourceId := 1
  pushSourceId := "default"
  pushSourceId_ne := by decide
  externalId := "cpu"
  action := .recovery
  startTime := 0
  startTimeSynthesized := false

def attemptUntil (stop : ℕ) : Attempt where
  events := [recoveryEvent]
  constraintHit := fun _ => false
  stop := stop
  order := id
  order_perm := fun _ => List.Perm.refl _

/-- The first attempt fails before anything is stored; the second one returns. -/
theorem ingestion_right_retry :
    AllSubmitted emptyState (run (main IngestFingerprint.externalId) emptyState
      [attemptUntil 0, attemptUntil 4]) := by
  refine (ingestion_right_iff _ _ _ fresh_emptyState).mpr ⟨?_, ?_, trivial⟩
  · have h_stop : (attemptUntil 0).stop <
        (batches IngestFingerprint.externalId emptyState (attemptUntil 0)).length := by decide
    show StopsSafely _ _ _
    unfold StopsSafely
    rw [if_pos h_stop]
    exact fun i h_i => absurd h_i (Nat.not_lt_zero i)
  · exact stopsSafely_of_returns (fresh_emptyState.main _) (by decide)

/-- The first attempt fails after it has stored the event; the second one finds it, returns
and hands on nothing. -/
theorem ingestion_retry_lost :
    returns IngestFingerprint.externalId
        (main IngestFingerprint.externalId emptyState (attemptUntil 1)) (attemptUntil 4) = true ∧
      ¬AllSubmitted emptyState (run (main IngestFingerprint.externalId) emptyState
        [attemptUntil 1, attemptUntil 4]) := by
  refine ⟨by decide, fun h_all => ?_⟩
  have h_row : (run (main IngestFingerprint.externalId) emptyState
      [attemptUntil 1, attemptUntil 4]).events.lookup 0 =
        some (storedEvent IngestFingerprint.externalId recoveryEvent) := by decide
  have h_checked := (h_all 0 _ rfl h_row).1
  exact absurd h_checked (by decide)

end Ingest
end Alerts
