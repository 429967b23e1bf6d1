import BkLite.Framework.TupleText
import Mathlib.Data.Int.Notation

/-!
# The identity of a series

The key of a series, `metric_instance_id`, is the text of the tuple of its `group_by` labels.
Three paths build it. The threshold path takes the columns of a data frame
(`vm_to_dataframe`): a column exists for every label of any series, and is `nan` where the series
lacks the label. The no-data path (`format_aggregation_metrics`) and the fallback of the snapshots
ask the series itself, and get `None`.
-/

namespace Monitor
namespace Identity

open Py

/-- A series of a result: its labels, and the points with their values as texts. -/
structure Series where
  metric : List (String × String)
  values : List (ℤ × String) := []

/-- `metric.get(key)`. -/
def Series.get (x : Series) (key : String) : Option String :=
  (x.metric.find? (·.1 = key)).map (·.2)

def isColumn (series : List Series) (key : String) : Bool :=
  series.any fun x => (x.get key).isSome

section Paths

variable (printable : Char → Bool)

/-! ### The threshold path -/

def cell (x : Series) (key : String) : Cell := ((x.get key).map Cell.str).getD .nan

/-- The tuple that `vm_to_dataframe` gives a series; `none` is the `KeyError` of a missing
column. -/
def rowTuple (groupBy : List String) (series : List Series) (x : Series) : Option (List Cell) :=
  if groupBy = [] then
    if isColumn series "instance_id" then some [cell x "instance_id"] else none
  else some ((groupBy.filter (isColumn series ·)).map (cell x))

/-- `metric_instance_id` of `calculate_alerts`. -/
def thresholdId (groupBy : List String) (series : List Series) (x : Series) : Option String :=
  (rowTuple groupBy series x).map (strTuple printable)

/-! ### The no-data path -/

/-- `instance_id_tuple` of `format_aggregation_metrics`. -/
def aggregationTuple (groupBy : List String) (x : Series) : List Cell :=
  groupBy.map fun key => ((x.get key).map Cell.str).getD .none

/-- `metric_instance_id` of `format_aggregation_metrics`. -/
def aggregationId (groupBy : List String) (x : Series) : String :=
  strTuple printable (aggregationTuple groupBy x)

/-- `monitor_instance_id` of `format_aggregation_metrics`. -/
def monitorInstanceId : List Cell → String
  | [] => ""
  | t :: _ => strTuple printable [t]

def inScope (instances groupBy : List String) (x : Series) : Bool :=
  instances = [] || monitorInstanceId printable (aggregationTuple groupBy x) ∈ instances

def formatAggregationMetrics (instances groupBy : List String) (series : List Series) :
    List (String × Series) :=
  series.filterMap fun x =>
    if inScope printable instances groupBy x then some (aggregationId printable groupBy x, x)
    else none

/-- The keys for which `_build_no_data_events` makes an event. -/
def noDataKeys (baselineKeys : List String) (aggregationResult : List (String × Series)) :
    List String :=
  baselineKeys.filter (· ∉ aggregationResult.map (·.1))

/-! ### The fallback of the snapshots -/

/-- `current_metric_id` of `_get_fallback_raw_data_map`. -/
def fallbackId (groupBy : List String) (x : Series) : String :=
  strTuple printable (groupBy.map fun i => ((x.get i).map Cell.str).getD .none)

/-- `_get_fallback_raw_data_map`. -/
def fallbackRawDataMap (groupBy : List String) (series : List Series) : List (String × Series) :=
  series.map fun x => (fallbackId printable groupBy x, x)

/-! ### The law -/

/-- The three paths give the series one key, under which it is not missed. -/
structure Agrees (instances groupBy : List String) (series : List Series) (x : Series) : Prop where
  threshold : thresholdId printable groupBy series x = some (aggregationId printable groupBy x)
  fallback : fallbackId printable groupBy x = aggregationId printable groupBy x
  /-- No baseline makes it a series without data. -/
  reported : inScope printable instances groupBy x = true → ∀ key baselineKeys,
    thresholdId printable groupBy series x = some key →
      key ∉ noDataKeys baselineKeys (formatAggregationMetrics printable instances groupBy series)

def Complete (groupBy : List String) (x : Series) : Prop :=
  groupBy ≠ [] ∧ ∀ key ∈ groupBy, (x.get key).isSome = true

end Paths

/-! ### When the keys agree -/

section Agree

variable {printable : Char → Bool} {instances groupBy : List String} {series : List Series}
  {x : Series}

theorem isColumn_of_get {key : String} (h_x : x ∈ series) (h : (x.get key).isSome = true) :
    isColumn series key = true :=
  List.any_eq_true.mpr ⟨x, h_x, h⟩

theorem cell_of_get {key : String} (h : (x.get key).isSome = true) :
    cell x key = ((x.get key).map Cell.str).getD .none := by
  obtain ⟨v, h_v⟩ := Option.isSome_iff_exists.mp h
  unfold cell
  rw [h_v]
  rfl

theorem rowTuple_of_complete (h_x : x ∈ series) (h : Complete groupBy x) :
    rowTuple groupBy series x = some (aggregationTuple groupBy x) := by
  have h_columns : groupBy.filter (isColumn series ·) = groupBy :=
    List.filter_eq_self.mpr fun key h_key => isColumn_of_get h_x (h.2 key h_key)
  unfold rowTuple aggregationTuple
  rw [if_neg h.1, h_columns]
  refine congrArg some (List.map_congr_left fun key h_key => ?_)
  exact cell_of_get (h.2 key h_key)

theorem isSome_of_sameKind {key key' : String}
    (h : SameKind (cell x key') (((x.get key).map Cell.str).getD .none)) :
    (x.get key).isSome = true := by
  cases h_key : x.get key with
  | some v => rfl
  | none =>
    rw [h_key] at h
    unfold cell at h
    cases h_key' : x.get key' with
    | some v =>
      rw [h_key'] at h
      cases h
    | none =>
      rw [h_key'] at h
      cases h

theorem complete_of_thresholdId
    (h : thresholdId printable groupBy series x = some (aggregationId printable groupBy x)) :
    Complete groupBy x := by
  obtain ⟨row, h_row, h_text⟩ := Option.map_eq_some_iff.mp h
  have h_kinds : List.Forall₂ SameKind row (aggregationTuple groupBy x) := strTuple_kinds h_text
  unfold rowTuple at h_row
  split_ifs at h_row with h_empty h_column
  · -- one member on the one side, none on the other
    cases h_row
    rw [h_empty] at h_kinds
    cases h_kinds
  · refine ⟨h_empty, fun key h_key => ?_⟩
    cases h_row
    unfold aggregationTuple at h_kinds
    rw [List.forall₂_map_left_iff, List.forall₂_map_right_iff] at h_kinds
    obtain ⟨i, h_i⟩ := List.mem_iff_get.mp h_key
    have h_lt : i.1 < (groupBy.filter (isColumn series ·)).length := by
      rw [h_kinds.length_eq]
      exact i.2
    have h_here := h_kinds.get h_lt i.2
    rw [List.get_eq_getElem, List.get_eq_getElem] at h_here
    rw [← h_i, List.get_eq_getElem]
    exact isSome_of_sameKind h_here

theorem mem_formatAggregationMetrics (h_x : x ∈ series)
    (h_scope : inScope printable instances groupBy x = true) :
    aggregationId printable groupBy x ∈
      (formatAggregationMetrics printable instances groupBy series).map (·.1) := by
  refine List.mem_map.mpr ⟨(aggregationId printable groupBy x, x), ?_, rfl⟩
  refine List.mem_filterMap.mpr ⟨x, h_x, ?_⟩
  rw [if_pos h_scope]

def hostOnly : Series where
  metric := [("instance_id", "host1")]
  values := [(0, "1")]

end Agree

end Identity
end Monitor
