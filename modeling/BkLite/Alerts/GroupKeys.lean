import BkLite.Alerts.Isolation
import BkLite.Framework.Collect
import BkLite.Framework.Segments

/-!
# Groups by value

What the aggregation query groups by is a text: `effective_dimension` joins `name=value` segments
with bars, and an event without a value for some dimension is grouped by its `external_id`. No value
is escaped. Events with the same values have the same text; events with other values have it exactly
if a value runs into the segments behind it, or an `external_id` reads like the segments of another
event (`Clash`).
-/

namespace Alerts
namespace GroupKeys

open Py Aggregation Isolation Segments

/-! ### The groups that are meant -/

def complete (dims : List Dimension) (e : EventId × Event) : Bool :=
  dims.all fun d => present d e.1 e.2

def SameValues (dims : List Dimension) (e e' : EventId × Event) : Prop :=
  (complete dims e ∧ complete dims e' ∧ ∀ d ∈ dims, d.column e.1 e.2 = d.column e'.1 e'.2) ∨
    (!complete dims e ∧ !complete dims e' ∧ e.2.externalId = e'.2.externalId)

def keyOf (dims : List Dimension) (e : EventId × Event) : Option String :=
  effectiveDimension dims e.1 e.2

def rowsOf (events : Table EventId Event) : List (EventId × Event) :=
  events.entries.map fun e => (e.1, e.2)

/-- **Groups by value** of some events. -/
structure GroupedByValue (env : Env) (dims : List Dimension) (rows : List (EventId × Event))
    (results : List AggregationResult) : Prop where
  same : ∀ e ∈ rows, ∀ e' ∈ rows,
    (∃ r ∈ results, e.1 ∈ r.eventIds ∧ e'.1 ∈ r.eventIds) ↔ SameValues dims e e'
  unique : ∀ e ∈ rows, keyOf dims e ≠ none → ∃! r, r ∈ results ∧ e.1 ∈ r.eventIds
  fingerprints : (results.map fun r => (normalizeFingerprint env r).fingerprint).Nodup

/-! ### Keys -/

def label (d : Dimension) : List Char := (d.name ++ "=").toList

def value (e : EventId × Event) (d : Dimension) : List Char := ((d.column e.1 e.2).getD "").toList

/-- The second event takes the key of the first one, which has other values. -/
def Clash (dims : List Dimension) (e e' : EventId × Event) : Prop :=
  complete dims e = true ∧
    if complete dims e' then RunsInto '|' label (value e) (value e') dims
    else e'.2.externalId = some (String.ofList (text '|' label (value e) dims))

section Keys

variable {dims : List Dimension} {e e' : EventId × Event}

theorem toList_segments : ("|".intercalate (dims.map fun d =>
    d.name ++ "=" ++ (d.column e.1 e.2).getD "")).toList = text '|' label (value e) dims := by
  induction dims with
  | nil => rfl
  | cons d dims ih =>
    cases dims with
    | nil => simp [text, label, value]
    | cons d' dims =>
      rw [List.map_cons, List.map_cons, String.intercalate_cons_cons, text, ← ih]
      simp [label, value]

theorem keyOf_of_complete (h : complete dims e = true) :
    keyOf dims e = some (String.ofList (text '|' label (value e) dims)) := by
  rw [← toList_segments, String.ofList_toList]
  exact if_pos h

theorem keyOf_of_incomplete (h : ¬complete dims e = true) : keyOf dims e = e.2.externalId :=
  if_neg h

theorem value_eq_iff (h : complete dims e = true) (h' : complete dims e' = true) :
    (∀ d ∈ dims, value e d = value e' d) ↔
      ∀ d ∈ dims, d.column e.1 e.2 = d.column e'.1 e'.2 := by
  refine forall₂_congr fun d h_d => ?_
  have h_present := List.all_eq_true.mp h d h_d
  have h_present' := List.all_eq_true.mp h' d h_d
  rw [value, value, String.toList_inj]
  obtain ⟨v, h_v, -⟩ := (Option.any_eq_true _ _).mp h_present
  obtain ⟨v', h_v', -⟩ := (Option.any_eq_true _ _).mp h_present'
  rw [h_v, h_v', Option.getD_some, Option.getD_some, Option.some_inj]

/-- **Keys.** Two events have one key if they belong together, or one takes the key of the other. -/
theorem keyOf_eq_iff : keyOf dims e = keyOf dims e' ↔
    SameValues dims e e' ∨ Clash dims e e' ∨ Clash dims e' e := by
  unfold SameValues Clash
  by_cases h : complete dims e = true <;> by_cases h' : complete dims e' = true
  · rw [keyOf_of_complete h, keyOf_of_complete h', Option.some_inj, String.ofList_inj,
      text_eq_iff, value_eq_iff h h']
    simp [h, h']
  · rw [keyOf_of_complete h, keyOf_of_incomplete h', eq_comm]
    simp [h, h']
  · rw [keyOf_of_incomplete h, keyOf_of_complete h']
    simp [h, h']
  · rw [keyOf_of_incomplete h, keyOf_of_incomplete h']
    simp [h, h']

theorem Clash.not_sameValues (h : Clash dims e e') : ¬SameValues dims e e' := by
  obtain ⟨h_complete, h⟩ := h
  rintro (⟨-, h_complete', h_same⟩ | ⟨h_incomplete, -⟩)
  · rw [if_pos h_complete'] at h
    obtain ⟨d, h_d, h_ne⟩ := h.exists_ne
    exact h_ne ((value_eq_iff h_complete h_complete').mpr h_same d h_d)
  · rw [h_complete] at h_incomplete
    cases h_incomplete

theorem not_clash_of_plain
    (h : ∀ d ∈ dims, ∀ d' ∈ dims, ¬ '|' :: label d' <:+: value e' d)
    (h_external : ∀ d ∈ dims, ∀ text ∈ e'.2.externalId, ¬label d <+: text.toList)
    (h_ne : dims ≠ []) : ¬Clash dims e e' := by
  rintro ⟨-, h_clash⟩
  split_ifs at h_clash
  · obtain ⟨d, h_d, d', h_d', h_infix⟩ := h_clash.exists_infix fun d _ => by
      cases d <;> decide
    exact h d h_d d' h_d' h_infix
  · obtain ⟨d, ds, rfl⟩ := List.exists_cons_of_ne_nil h_ne
    refine h_external d List.mem_cons_self _ h_clash ?_
    rw [String.toList_ofList]
    cases ds with
    | nil => exact List.prefix_append _ _
    | cons d' ds => exact List.prefix_append _ _

end Keys

/-! ### The groups of the query -/

section Query

variable {env : Env} {s : AlarmStrategy} {windowStart : ℤ} {events : Table EventId Event}
  {e e' : EventId × Event} {r : AggregationResult}

def windowRows (windowStart : ℤ) (events : Table EventId Event) : List (EventId × Event) :=
  queried windowStart (rowsOf events)

theorem windowRows_ext (h : e ∈ windowRows windowStart events)
    (h' : e' ∈ windowRows windowStart events) (h_id : e.1 = e'.1) : e = e' := by
  have h_lookup {e : EventId × Event} (h : e ∈ windowRows windowStart events) :
      events.lookup e.1 = some e.2 := by
    obtain ⟨e, h_e, rfl⟩ := List.mem_map.mp (List.mem_filter.mp h).1
    exact AList.mem_lookup_iff.mpr h_e
  refine Prod.ext h_id ?_
  have h_row := h_lookup h
  rw [h_id, h_lookup h'] at h_row
  exact (Option.some.inj h_row).symm

theorem exists_key (h : r ∈ aggregationQuery env s windowStart (rowsOf events)) :
    ∃ key, (normalizeFingerprint env r).fingerprint = key.map env.md5 ∧
      ∀ e ∈ windowRows windowStart events, e.1 ∈ r.eventIds ↔ keyOf s.dimensions e = key := by
  obtain ⟨key, -, h_ids, h_fp⟩ := (aggregationQuery_eq env s windowStart
    (rowsOf events)).exists_of_mem h
  refine ⟨key, h_fp, fun e h_e => ?_⟩
  rw [h_ids, List.mem_map]
  constructor
  · rintro ⟨e', h_e', h_id⟩
    obtain ⟨h_row, h_key⟩ := List.mem_filter.mp h_e'
    rw [← windowRows_ext h_row h_e h_id]
    exact of_decide_eq_true h_key
  · exact fun h_key => ⟨e, List.mem_filter.mpr ⟨h_e, decide_eq_true h_key⟩, rfl⟩

variable (env s) in
theorem exists_group (h : e ∈ windowRows windowStart events) :
    ∃ r ∈ aggregationQuery env s windowStart (rowsOf events), e.1 ∈ r.eventIds := by
  have h_key := mem_fromKeys.mpr (List.mem_map_of_mem
    (f := fun e => effectiveDimension s.dimensions e.1 e.2) h)
  obtain ⟨r, h_r, h_ids, -⟩ := (aggregationQuery_eq env s windowStart
    (rowsOf events)).flip.exists_of_mem h_key
  refine ⟨r, h_r, ?_⟩
  rw [h_ids]
  exact List.mem_map_of_mem (List.mem_filter.mpr ⟨h, decide_eq_true rfl⟩)

variable (env) in
theorem sameGroup_iff (h : e ∈ windowRows windowStart events)
    (h' : e' ∈ windowRows windowStart events) :
    (∃ r ∈ aggregationQuery env s windowStart (rowsOf events),
        e.1 ∈ r.eventIds ∧ e'.1 ∈ r.eventIds) ↔
      keyOf s.dimensions e = keyOf s.dimensions e' := by
  constructor
  · rintro ⟨r, h_r, h_e, h_e'⟩
    obtain ⟨key, -, h_mem⟩ := exists_key h_r
    exact ((h_mem e h).mp h_e).trans ((h_mem e' h').mp h_e').symm
  · intro h_key
    obtain ⟨r, h_r, h_e⟩ := exists_group env s h
    obtain ⟨key, -, h_mem⟩ := exists_key h_r
    exact ⟨r, h_r, h_e, (h_mem e' h').mpr (h_key ▸ (h_mem e h).mp h_e)⟩

theorem nodup_fingerprints (h_md5 : Function.Injective env.md5) :
    ((aggregationQuery env s windowStart (rowsOf events)).map
      fun r => (normalizeFingerprint env r).fingerprint).Nodup := by
  rw [map_fingerprint_aggregationQuery]
  exact (nodup_fromKeys _).map (Option.map_injective h_md5)

theorem existsUnique_group (h_md5 : Function.Injective env.md5)
    (h : e ∈ windowRows windowStart events) :
    ∃! r, r ∈ aggregationQuery env s windowStart (rowsOf events) ∧ e.1 ∈ r.eventIds := by
  obtain ⟨r, h_r, h_e⟩ := exists_group env s h
  refine ⟨r, ⟨h_r, h_e⟩, ?_⟩
  rintro r' ⟨h_r', h_e'⟩
  obtain ⟨key, h_fp, h_mem⟩ := exists_key h_r
  obtain ⟨key', h_fp', h_mem'⟩ := exists_key h_r'
  have h_key : key' = key := ((h_mem' e h).mp h_e').symm.trans ((h_mem e h).mp h_e)
  refine List.inj_on_of_nodup_map (nodup_fingerprints (s := s) h_md5) h_r' h_r ?_
  rw [h_fp, h_fp', h_key]

end Query

section Examples

private def plainEnv : Env := ⟨id, fun _ => none, fun _ => "", []⟩

private def byService : AlarmStrategy := { id := 1, groupBy := [.str "service", .str "location"] }

/-- `service` and `location` of two events, one of which has a bar in its `service`. -/
private def clashing : Table EventId Event :=
  (AList.singleton 1 { service := some "a|location=b", location := some "c" }).insert 2
    { service := some "a", location := some "b|location=c" }

private def agreeing : Table EventId Event :=
  (AList.singleton 1 { service := some "a", location := some "b" }).insert 2
    { service := some "a", location := some "b" }

end Examples

end GroupKeys
end Alerts
