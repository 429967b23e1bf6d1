import BkLite.Ansible.Worker

/-!
# What compaction leaves of a result

The payload of a callback is the result of the task, made smaller where it does not fit into a
message. It keeps what it says of success, and it is the result itself exactly if the result fits:
the first measure already marks the summary.
-/

namespace Ansible
namespace Compaction

open Py Worker

/-! ### Entries of a dict -/

section Lookup

variable {d : Dict} {key key' : String}

theorem lookup_cons (e : String × Value) (d : Dict) (key : String) :
    Value.lookup (e :: d) key = if e.1 = key then e.2 else Value.lookup d key := by
  unfold Value.lookup
  rw [List.find?_cons]
  by_cases h : e.1 = key
  · rw [decide_eq_true h, if_pos h]
    rfl
  · rw [decide_eq_false h, if_neg h]

theorem lookup_append_of_mem (h : key ∈ d.map (·.1)) (d' : Dict) :
    Value.lookup (d ++ d') key = Value.lookup d key := by
  induction d with
  | nil => exact absurd h List.not_mem_nil
  | cons e d ih =>
    rw [List.cons_append, lookup_cons, lookup_cons]
    split_ifs with h_key
    · rfl
    · apply ih
      rw [List.map_cons, List.mem_cons] at h
      exact h.resolve_left fun h_eq => h_key h_eq.symm

theorem lookup_append_of_not_mem (h : key ∉ d.map (·.1)) (d' : Dict) :
    Value.lookup (d ++ d') key = Value.lookup d' key := by
  induction d with
  | nil => rfl
  | cons e d ih =>
    rw [List.map_cons, List.mem_cons, not_or] at h
    rw [List.cons_append, lookup_cons, if_neg (Ne.symm h.1), ih h.2]

theorem lookup_mapItem_ne (h : key' ≠ key) (f : Value → Value) :
    Value.lookup (mapItem d key f) key' = Value.lookup d key' := by
  unfold mapItem
  induction d with
  | nil => rfl
  | cons e d ih =>
    rw [List.map_cons, lookup_cons, lookup_cons, ih]
    by_cases h_key : e.1 = key
    · -- the entry that is rewritten is not the one looked up
      have h_ne : e.1 ≠ key' := fun h_eq => h (h_eq.symm.trans h_key)
      rw [if_pos h_key, if_neg h_ne, if_neg h_ne]
    · rw [if_neg h_key]

theorem lookup_mapItem_self (h : key ∈ d.map (·.1)) (f : Value → Value) :
    Value.lookup (mapItem d key f) key = f (Value.lookup d key) := by
  unfold mapItem
  induction d with
  | nil => exact absurd h List.not_mem_nil
  | cons e d ih =>
    rw [List.map_cons, lookup_cons, lookup_cons]
    by_cases h_key : e.1 = key
    · rw [if_pos h_key, if_pos h_key, if_pos h_key]
    · rw [if_neg h_key, if_neg h_key, if_neg h_key]
      apply ih
      rw [List.map_cons, List.mem_cons] at h
      exact h.resolve_left fun h_eq => h_key h_eq.symm

theorem keys_mapItem (f : Value → Value) : (mapItem d key f).map (·.1) = d.map (·.1) := by
  unfold mapItem
  rw [List.map_map]
  refine List.map_congr_left fun e _ => ?_
  show (if e.1 = key then (e.1, f e.2) else e).1 = e.1
  split_ifs
  · rfl
  · rfl

theorem setItem_of_mem (h : key ∈ d.map (·.1)) (v : Value) :
    setItem d key v = mapItem d key fun _ => v := by
  unfold setItem mapItem
  rw [if_pos h]
  refine List.map_congr_left fun e _ => ?_
  split_ifs with h_key
  · rw [h_key]
  · rfl

theorem lookup_setItem_ne (h : key' ≠ key) (v : Value) :
    Value.lookup (setItem d key v) key' = Value.lookup d key' := by
  by_cases h_mem : key ∈ d.map (·.1)
  · rw [setItem_of_mem h_mem]
    exact lookup_mapItem_ne h _
  · unfold setItem
    rw [if_neg h_mem]
    by_cases h_mem' : key' ∈ d.map (·.1)
    · exact lookup_append_of_mem h_mem' _
    · rw [lookup_append_of_not_mem h_mem', lookup_cons, if_neg h.symm]
      -- the key is in neither
      have h_none := lookup_append_of_not_mem h_mem' []
      rw [List.append_nil] at h_none
      exact h_none.symm

theorem mem_keys_setItem (v : Value) : key ∈ (setItem d key v).map (·.1) := by
  by_cases h_mem : key ∈ d.map (·.1)
  · rw [setItem_of_mem h_mem, keys_mapItem]
    exact h_mem
  · unfold setItem
    rw [if_neg h_mem, List.map_append]
    exact List.mem_append_right _ List.mem_cons_self

theorem mem_keys_setItem_of_mem (h : key' ∈ d.map (·.1)) (v : Value) :
    key' ∈ (setItem d key v).map (·.1) := by
  by_cases h_mem : key ∈ d.map (·.1)
  · rw [setItem_of_mem h_mem, keys_mapItem]
    exact h
  · unfold setItem
    rw [if_neg h_mem, List.map_append]
    exact List.mem_append_left _ h

theorem lookup_filter_ne (h : key' ≠ key) :
    Value.lookup (d.filter (·.1 ≠ key)) key' = Value.lookup d key' := by
  induction d with
  | nil => rfl
  | cons e d ih =>
    rw [List.filter_cons, lookup_cons]
    by_cases h_key : e.1 = key
    · rw [if_neg (by simp [h_key]), ih, if_neg fun h_eq => h (h_eq.symm.trans h_key)]
    · rw [if_pos (by simp [h_key]), lookup_cons, ih]

end Lookup

/-! ### The written result -/

def withoutError (d : Dict) : Dict := d.filter (·.1 ≠ "callback_error")

section Result

variable (env : Env) (task : QueuedTask) (ownerId : Owner) (o : RunOutcome)

@[simp] theorem withoutError_buildTaskResult :
    withoutError (buildTaskResult task ownerId o) = buildTaskResult task ownerId o := rfl

@[simp] theorem withoutError_noted (v : Value) :
    withoutError (setItem (buildTaskResult task ownerId o) "callback_error" v) =
      buildTaskResult task ownerId o := rfl

/-! ### What stays -/

def writtenKeys : List String := ["result", "result_summary", "error", "callback_payload_truncated"]

theorem lookup_compact {key : String} (h : key ∉ writtenKeys) (payload : Dict) :
    Value.lookup (compactCallbackPayload env payload) key = Value.lookup payload key := by
  simp only [writtenKeys, List.mem_cons, List.not_mem_nil, or_false, not_or] at h
  obtain ⟨h_result, h_summary, h_error, h_mark⟩ := h
  have h_dropped : Value.lookup (mapItem payload "result_summary" dropCombined) key =
      Value.lookup payload key := lookup_mapItem_ne h_summary _
  have h_shortened (d : Dict) : Value.lookup (shortenTexts d) key = Value.lookup d key := by
    rw [shortenTexts, lookup_setItem_ne h_error, lookup_mapItem_ne h_result]
  rw [compactCallbackPayload]
  dsimp only
  split_ifs
  · rfl
  · exact h_dropped
  · rw [h_shortened, h_dropped]
  · rw [dropTexts, lookup_setItem_ne h_mark, lookup_mapItem_ne h_summary,
      lookup_mapItem_ne h_result, h_shortened, h_dropped]

/-! ### The mark -/

def Marked : Value → Prop
  | .dict summary => "callback_payload_truncated" ∈ summary.map (·.1)
  | _ => False

theorem not_marked :
    ¬Marked (Value.lookup (buildTaskResult task ownerId o) "result_summary") := by
  show "callback_payload_truncated" ∉ ["stdout_combined", "host_count", "output_truncated",
    "output_bytes_total", "output_bytes_retained", "output_max_bytes"]
  decide

theorem marked_dropCombined :
    Marked (dropCombined (Value.lookup (buildTaskResult task ownerId o) "result_summary")) :=
  mem_keys_setItem _

theorem lookup_summary_shortenTexts (d : Dict) :
    Value.lookup (shortenTexts d) "result_summary" = Value.lookup d "result_summary" := by
  unfold shortenTexts
  rw [lookup_setItem_ne (by decide), lookup_mapItem_ne (by decide)]

theorem keys_shortenTexts {d : Dict} (h : "result_summary" ∈ d.map (·.1)) :
    "result_summary" ∈ (shortenTexts d).map (·.1) := by
  unfold shortenTexts
  refine mem_keys_setItem_of_mem ?_ _
  rw [keys_mapItem]
  exact h

theorem marked_dropTexts {d : Dict} (h : "result_summary" ∈ d.map (·.1))
    (h_marked : Marked (Value.lookup d "result_summary")) :
    Marked (Value.lookup (dropTexts d) "result_summary") := by
  unfold dropTexts
  rw [lookup_setItem_ne (by decide), lookup_mapItem_self (by rwa [keys_mapItem]),
    lookup_mapItem_ne (by decide)]
  cases h_summary : Value.lookup d "result_summary" with
  | dict summary =>
    rw [h_summary] at h_marked
    obtain ⟨e, h_e, h_key⟩ := List.mem_map.mp h_marked
    -- the entry is among those looked for by name
    have h_found : (summary.find? (·.1 = "callback_payload_truncated")).isSome = true := by
      rw [List.find?_isSome]
      exact ⟨e, h_e, decide_eq_true h_key⟩
    obtain ⟨e', h_e'⟩ := Option.isSome_iff_exists.mp h_found
    have h_name : e'.1 = "callback_payload_truncated" := by
      have h_true := List.find?_some h_e'
      exact of_decide_eq_true h_true
    refine List.mem_map.mpr ⟨e', ?_, h_name⟩
    exact List.mem_filterMap.mpr ⟨"callback_payload_truncated", by decide, h_e'⟩
  | _ =>
    rw [h_summary] at h_marked
    exact h_marked.elim

/-- **Compaction.** The payload of the callback is the result exactly if the result fits. -/
theorem withoutError_compact_iff :
    withoutError (compactCallbackPayload env (buildTaskResult task ownerId o)) =
        buildTaskResult task ownerId o ↔
      env.size (buildTaskResult task ownerId o) ≤ env.maxBytes := by
  constructor
  · intro h
    by_contra h_large
    have h_summary : Value.lookup (compactCallbackPayload env (buildTaskResult task ownerId o))
        "result_summary" = Value.lookup (buildTaskResult task ownerId o) "result_summary" := by
      calc Value.lookup (compactCallbackPayload env (buildTaskResult task ownerId o))
            "result_summary"
          = Value.lookup (withoutError
              (compactCallbackPayload env (buildTaskResult task ownerId o))) "result_summary" :=
            (lookup_filter_ne (by decide)).symm
        _ = Value.lookup (buildTaskResult task ownerId o) "result_summary" := by rw [h]
    have h_key : "result_summary" ∈ (buildTaskResult task ownerId o).map (·.1) := by
      show "result_summary" ∈ ["task_id", "task_type", "status", "success", "result",
        "result_summary", "output_truncated", "error", "started_at", "finished_at", "owner_id"]
      decide
    apply not_marked task ownerId o
    rw [← h_summary]
    have h_dropped : Marked (Value.lookup (mapItem (buildTaskResult task ownerId o)
        "result_summary" dropCombined) "result_summary") := by
      rw [lookup_mapItem_self h_key]
      exact marked_dropCombined task ownerId o
    unfold compactCallbackPayload
    dsimp only
    rw [if_neg h_large]
    split_ifs
    · exact h_dropped
    · rw [lookup_summary_shortenTexts]
      exact h_dropped
    · refine marked_dropTexts (keys_shortenTexts ?_) ?_
      · rw [keys_mapItem]
        exact h_key
      · rw [lookup_summary_shortenTexts]
        exact h_dropped
  · intro h_fits
    unfold compactCallbackPayload
    rw [if_pos h_fits, withoutError_buildTaskResult]

end Result

end Compaction
end Ansible
