import BkLite.Framework.JsonText
import BkLite.Log.AlertNotices
import Mathlib.Data.Rat.Denumerable

/-!
# The groups of log alerts

A policy with `group_by` fields raises one alert for each group of its result rows
(`services/policy_scan.py`). An alert is found again by its `source_id`, which a keyword policy
makes of the hash of a JSON object with the values of the row, and an aggregate policy of the texts
`field=value`, joined by `", "`.

What a row is found to be an event by, the rule or the number of its logs, is a parameter. The
texts are of any length, as is the `source_id` in the database.
-/

namespace Log.AlertGroups

open Py
open AlertNotices (State Scan Alert Event createEvent createEvents existing)

abbrev Text := List Char

abbrev Row := List (String × Value)

/-- `result.get(field)`. -/
def value (row : Row) (field : String) : Option Value := (row.find? (·.1 = field)).map (·.2)

/-! ### `str` -/

section Str

variable (ft : FloatText) (printable : Char → Bool)

mutual

/-- `repr` of a value. -/
def reprValue : Value → Text
  | .null => ['N', 'o', 'n', 'e']
  | .bool true => ['T', 'r', 'u', 'e']
  | .bool false => ['F', 'a', 'l', 's', 'e']
  | .int i => intRepr i
  | .float q => ft.text q
  | .str s => reprStr printable s.toList
  | .list xs => '[' :: ([',', ' '].intercalate (reprList xs) ++ [']'])
  | .dict kvs => '{' :: ([',', ' '].intercalate (reprEntries kvs) ++ ['}'])

def reprList : List Value → List Text
  | [] => []
  | x :: xs => reprValue x :: reprList xs

def reprEntries : List (String × Value) → List Text
  | [] => []
  | (k, x) :: kvs => (reprStr printable k.toList ++ ':' :: ' ' :: reprValue x) :: reprEntries kvs

end

/-- `str` of a value. -/
def str : Value → Text
  | .str s => s.toList
  | v => reprValue ft printable v

end Str

/-! ### The source of a row -/

inductive AlertType
  | keyword
  | aggregate
deriving DecidableEq

structure Policy where
  id : ℕ
  alertType : AlertType
  groupBy : List String

/-- `hexdigest()[:16]` of SHA-256, taken to be injective. -/
structure Digest where
  text : Text → Text
  injective : Function.Injective text

/-- What Python and the policy's rule say: `printable` is `str.isprintable` of one character outside
ASCII, and `detects` whether a row is an event. -/
structure Env where
  ft : FloatText
  printable : Char → Bool
  digest : Digest
  detects : Row → Bool

/-- `_normalize_group_by`, which only the keyword policies use. -/
def Policy.fields (p : Policy) : List String :=
  match p.alertType with
  | .keyword => p.groupBy.filter (· ≠ "")
  | .aggregate => p.groupBy

section Source

variable (env : Env)

/-- `_extract_group_values`; a row without one of the values is skipped. -/
def extractGroupValues (row : Row) (groupBy : List String) : Option (List (String × Value)) :=
  let complete := groupBy.all fun field =>
    match value row field with
    | none | some .null | some (.str "") => false
    | some _ => true
  if complete && groupBy ≠ [] then
    some ((fromKeys groupBy).map fun field => (field, (value row field).getD .null))
  else none

/-- `f"policy_{self.policy.id}_"`. -/
def sourcePrefix (id : ℕ) : Text := "policy_".toList ++ decimal id ++ ['_']

def buildGroupSourceId (id : ℕ) (groupValues : List (String × Value)) : Text :=
  sourcePrefix id ++ env.digest.text ((Value.dict groupValues).dumps env.ft)

/-- The text of a value in `_build_group_key`. -/
def formatted : Option Value → Text
  | none => "unknown".toList
  | some (.list xs) => [','].intercalate (xs.map (str env.ft env.printable))
  | some .null => "null".toList
  | some v => str env.ft env.printable v

/-- `f"{field}={formatted_value}"`. -/
def cell (row : Row) (field : String) : Text :=
  field.toList ++ '=' :: formatted env (value row field)

def buildGroupKey (row : Row) (groupBy : List String) : Text :=
  [',', ' '].intercalate (groupBy.map (cell env row))

/-- The `source_id` of a row, if it is not skipped. -/
def sourceId (p : Policy) (row : Row) : Option Text :=
  match p.alertType with
  | .keyword => (extractGroupValues row p.fields).map (buildGroupSourceId env p.id)
  | .aggregate => some (sourcePrefix p.id ++ buildGroupKey env row p.groupBy)

end Source

/-! ### The run of a policy -/

inductive Step
  | scan (rows : List Row) (scan : Scan)
  | close (i : ℕ)

section Run

variable (env : Env) (p : Policy)

def detected (rows : List Row) : List Row :=
  rows.filter fun row => (sourceId env p row).isSome && env.detects row

def sourceIds (rows : List Row) : List String :=
  (detected env p rows).filterMap fun row => (sourceId env p row).map String.ofList

def step (s : State) : Step → State
  | .scan rows scan => createEvents { scan with sourceIds := sourceIds env p rows } s
  | .close i => { s with alerts := s.alerts.modify i fun alert => { alert with status := .closed } }

def run (steps : List Step) : State := steps.foldl (step env p) {}

def Step.rows : Step → List Row
  | .scan rows _ => rows
  | .close _ => []

def eventRows (steps : List Step) : List Row := steps.flatMap fun a => detected env p a.rows

end Run

/-! ### What is asked of a run -/

section Spec

variable (env : Env) (p : Policy)

def SameValue : Option Value → Option Value → Prop
  | none, none => True
  | some v, some w => v.Same w
  | _, _ => False

def SameGroup (row row' : Row) : Prop :=
  ∀ field ∈ p.fields, SameValue (value row field) (value row' field)

/-- The event `k` of a state, with its row. -/
def EventOf (s : State) (rows : List Row) (k i : ℕ) (row : Row) : Prop :=
  (∃ event, s.events[k]? = some event ∧ event.alert = i) ∧ rows[k]? = some row

def Active (s : State) (i : ℕ) : Prop :=
  ∃ alert : Alert, s.alerts[i]? = some alert ∧ alert.status = .new

/-- One active alert has the events of the group, and no others. -/
def OneAlert (s : State) (rows : List Row) (start : ℕ) (row : Row) : Prop :=
  ∃ i, Active s i ∧
    (∀ j k row', Active s j → EventOf s rows k j row' → SameGroup p row row' → j = i) ∧
    (∀ k row', EventOf s rows k i row' → SameGroup p row row') ∧
    ∀ k j row', start ≤ k → EventOf s rows k j row' → SameGroup p row row' → j = i

/-- Sources are groups, and after each scan a group with an event has one active alert. -/
structure OnePerGroup (steps : List Step) : Prop where
  apart : ∀ row ∈ steps.flatMap Step.rows, ∀ row' ∈ steps.flatMap Step.rows, ∀ source source',
    sourceId env p row = some source → sourceId env p row' = some source' →
    (source = source' ↔ SameGroup p row row')
  alerts : ∀ before rows scan after, steps = before ++ .scan rows scan :: after →
    ∀ row ∈ detected env p rows,
      OneAlert p (run env p (before ++ [.scan rows scan]))
        (eventRows env p (before ++ [.scan rows scan])) (eventRows env p before).length row

end Spec

/-! ### Keys that are taken for each other -/

section Keys

def tailText : List Text → List Text → Text
  | field :: fields, v :: vs => ',' :: ' ' :: (field ++ '=' :: v) ++ tailText fields vs
  | _, _ => []

/-- The second row's text goes on as the first row's key does behind the field. -/
def RunsOver : List Text → List Text → List Text → Prop
  | _ :: fields, v :: vs, w :: ws =>
    v = w ∧ RunsOver fields vs ws ∨
      ∃ x, x ≠ [] ∧ w = v ++ x ∧ tailText fields vs = x ++ tailText fields ws
  | _, _, _ => False

variable {fields vs ws : List Text} {v w : Text}

theorem tailText_eq_iff (h_vs : vs.length = fields.length) (h_ws : ws.length = fields.length) :
    tailText fields vs = tailText fields ws ↔
      vs = ws ∨ RunsOver fields vs ws ∨ RunsOver fields ws vs := by
  induction fields generalizing vs ws with
  | nil =>
    rw [List.eq_nil_of_length_eq_zero h_vs, List.eq_nil_of_length_eq_zero h_ws]
    simp
  | cons field fields ih =>
    obtain ⟨v, vs, rfl⟩ := List.exists_of_length_succ vs h_vs
    obtain ⟨w, ws, rfl⟩ := List.exists_of_length_succ ws h_ws
    rw [List.length_cons, List.length_cons, Nat.add_right_cancel_iff] at h_vs h_ws
    have h_rest := ih h_vs h_ws
    have h_cancel : tailText (field :: fields) (v :: vs) = tailText (field :: fields) (w :: ws) ↔
        v ++ tailText fields vs = w ++ tailText fields ws := by
      simp [tailText]
    rw [h_cancel, List.append_eq_append_iff]
    constructor
    · rintro (⟨x, h_w, h_tail⟩ | ⟨x, h_v, h_tail⟩)
      · obtain rfl | h_x := eq_or_ne x []
        · rw [List.append_nil] at h_w
          obtain rfl | h_over | h_over := h_rest.mp h_tail
          · exact .inl (by rw [h_w])
          · exact .inr (.inl (.inl ⟨h_w.symm, h_over⟩))
          · exact .inr (.inr (.inl ⟨h_w, h_over⟩))
        · exact .inr (.inl (.inr ⟨x, h_x, h_w, h_tail⟩))
      · obtain rfl | h_x := eq_or_ne x []
        · rw [List.append_nil] at h_v
          obtain rfl | h_over | h_over := h_rest.mp h_tail.symm
          · exact .inl (by rw [h_v])
          · exact .inr (.inl (.inl ⟨h_v, h_over⟩))
          · exact .inr (.inr (.inl ⟨h_v.symm, h_over⟩))
        · exact .inr (.inr (.inr ⟨x, h_x, h_v, h_tail⟩))
    · rintro (h_eq | (⟨rfl, h_over⟩ | ⟨x, -, h_w, h_tail⟩) | (⟨rfl, h_over⟩ | ⟨x, -, h_v, h_tail⟩))
      · obtain ⟨rfl, rfl⟩ := List.cons.inj h_eq
        exact .inl ⟨[], (List.append_nil v).symm, rfl⟩
      · exact .inl ⟨[], (List.append_nil v).symm, h_rest.mpr (.inr (.inl h_over))⟩
      · exact .inl ⟨x, h_w, h_tail⟩
      · exact .inl ⟨[], (List.append_nil w).symm, h_rest.mpr (.inr (.inr h_over))⟩
      · exact .inr ⟨x, h_v, h_tail⟩

theorem tailText_map {α : Type} (f g : α → Text) (xs : List α) (h : xs ≠ []) :
    ',' :: ' ' :: [',', ' '].intercalate (xs.map fun x => f x ++ '=' :: g x) =
      tailText (xs.map f) (xs.map g) := by
  induction xs with
  | nil => exact absurd rfl h
  | cons x xs ih =>
    obtain rfl | h_more := eq_or_ne xs []
    · simp [tailText]
    · rw [List.map_cons, List.intercalate_cons_of_ne_nil (by simpa using h_more)]
      show _ = ',' :: ' ' :: (f x ++ '=' :: g x) ++ tailText (xs.map f) (xs.map g)
      rw [← ih h_more]
      simp

end Keys

section Sources

variable (env : Env) (p : Policy) (row row' : Row)

def texts : List Text := p.groupBy.map fun field => formatted env (value row field)

/-- Rows of one group have the same key, and no others do. -/
def ToldApart : Prop :=
  (texts env p row = texts env p row' ∨
    RunsOver (p.groupBy.map String.toList) (texts env p row) (texts env p row') ∨
    RunsOver (p.groupBy.map String.toList) (texts env p row') (texts env p row)) ↔
  SameGroup p row row'

variable {env p row row'} {source source' : Text}

theorem key_eq_iff : buildGroupKey env row p.groupBy = buildGroupKey env row' p.groupBy ↔
    texts env p row = texts env p row' ∨
      RunsOver (p.groupBy.map String.toList) (texts env p row) (texts env p row') ∨
      RunsOver (p.groupBy.map String.toList) (texts env p row') (texts env p row) := by
  obtain h_nil | h_some := eq_or_ne p.groupBy []
  · simp [buildGroupKey, texts, h_nil]
  · have h_key : ∀ r, ',' :: ' ' :: buildGroupKey env r p.groupBy =
        tailText (p.groupBy.map String.toList) (texts env p r) := fun r =>
      tailText_map String.toList (fun field => formatted env (value r field)) p.groupBy h_some
    have h_cancel : buildGroupKey env row p.groupBy = buildGroupKey env row' p.groupBy ↔
        tailText (p.groupBy.map String.toList) (texts env p row) =
          tailText (p.groupBy.map String.toList) (texts env p row') := by
      rw [← h_key, ← h_key, List.cons_inj_right, List.cons_inj_right]
    rw [h_cancel, tailText_eq_iff (by simp [texts]) (by simp [texts])]

theorem source_aggregate (h : p.alertType = .aggregate) (h_row : sourceId env p row = some source)
    (h_row' : sourceId env p row' = some source') :
    (source = source' ↔ SameGroup p row row') ↔ ToldApart env p row row' := by
  unfold sourceId at h_row h_row'
  rw [h] at h_row h_row'
  cases h_row
  cases h_row'
  rw [List.append_cancel_left_eq, key_eq_iff]
  rfl

theorem canonEntries_map (fields : List String) (f : String → Value) :
    Value.canonEntries (fields.map fun field => (field, f field)) =
      fields.map fun field => (field, (f field).canon) := by
  induction fields with
  | nil => rfl
  | cons field fields ih =>
    rw [List.map_cons, List.map_cons, Value.canonEntries, ih]

theorem same_dict_iff (fields : List String) (f g : String → Value) :
    (Value.dict (fields.map fun field => (field, f field))).Same
        (.dict (fields.map fun field => (field, g field))) ↔
      ∀ field ∈ fields, (f field).Same (g field) := by
  unfold Value.Same
  rw [Value.canon, Value.canon, canonEntries_map, canonEntries_map]
  constructor
  · intro h field h_mem
    have h_sorted := Value.dict.inj h
    have h_entry : (field, (f field).canon) ∈ fields.map fun field => (field, (f field).canon) :=
      List.mem_map.mpr ⟨field, h_mem, rfl⟩
    rw [← List.mem_mergeSort, h_sorted, List.mem_mergeSort] at h_entry
    obtain ⟨other, -, h_eq⟩ := List.mem_map.mp h_entry
    obtain ⟨rfl, h_value⟩ := Prod.mk.inj h_eq
    exact h_value.symm
  · intro h
    have h_map : (fields.map fun field => (field, (f field).canon)) =
        fields.map fun field => (field, (g field).canon) :=
      List.map_congr_left fun field h_mem => by rw [h field h_mem]
    rw [h_map]

theorem extract_some {fields : List String} {kvs : List (String × Value)}
    (h : extractGroupValues row fields = some kvs) :
    kvs = (fromKeys fields).map (fun field => (field, (value row field).getD .null)) ∧
      ∀ field ∈ fields, value row field ≠ none := by
  unfold extractGroupValues at h
  dsimp only at h
  split_ifs at h with h_complete
  rw [Bool.and_eq_true, List.all_eq_true] at h_complete
  refine ⟨(Option.some.inj h).symm, fun field h_mem h_none => ?_⟩
  have h_field := h_complete.1 field h_mem
  rw [h_none] at h_field
  cases h_field

theorem source_keyword (h : p.alertType = .keyword) (h_row : sourceId env p row = some source)
    (h_row' : sourceId env p row' = some source') : source = source' ↔ SameGroup p row row' := by
  unfold sourceId at h_row h_row'
  rw [h] at h_row h_row'
  obtain ⟨kvs, h_kvs, rfl⟩ := Option.map_eq_some_iff.mp h_row
  obtain ⟨kvs', h_kvs', rfl⟩ := Option.map_eq_some_iff.mp h_row'
  obtain ⟨rfl, h_there⟩ := extract_some h_kvs
  obtain ⟨rfl, h_there'⟩ := extract_some h_kvs'
  unfold buildGroupSourceId SameGroup
  rw [List.append_cancel_left_eq, env.digest.injective.eq_iff, Value.dumps_inj, same_dict_iff]
  refine forall_congr' fun field => ?_
  rw [mem_fromKeys]
  refine forall_congr' fun h_mem => ?_
  obtain ⟨v, h_v⟩ := Option.ne_none_iff_exists'.mp (h_there field h_mem)
  obtain ⟨w, h_w⟩ := Option.ne_none_iff_exists'.mp (h_there' field h_mem)
  rw [h_v, h_w]
  rfl

end Sources

/-! ### What a scan does to the alerts -/

section Scans

variable {env : Env} {p : Policy} {s s' : State} {rows : List Row} {row row' : Row} {i j k : ℕ}
  {sid : String} {scan : Scan}

theorem existing_some (h : existing s.alerts sid = some i) :
    ∃ alert, s.alerts[i]? = some alert ∧ alert.status = .new ∧ alert.sourceId = sid := by
  have h_mem := List.mem_of_getLast? h
  obtain ⟨-, h_keep⟩ := List.mem_filter.mp h_mem
  cases h_alert : s.alerts[i]? with
  | none =>
    rw [h_alert] at h_keep
    cases h_keep
  | some alert =>
    rw [h_alert] at h_keep
    obtain ⟨h_source, h_status⟩ := of_decide_eq_true h_keep
    exact ⟨alert, rfl, h_status, h_source⟩

theorem existing_none (h : existing s.alerts sid = none) {alert : Alert}
    (h_alert : s.alerts[k]? = some alert) (h_new : alert.status = .new) : alert.sourceId ≠ sid := by
  intro h_source
  have h_empty := List.getLast?_eq_none_iff.mp h
  have h_mem : k ∈ (List.range s.alerts.length).filter fun i =>
      s.alerts[i]?.any fun alert => alert.sourceId = sid ∧ alert.status = .new := by
    refine List.mem_filter.mpr ⟨List.mem_range.mpr (List.getElem?_eq_some_iff.mp h_alert).1, ?_⟩
    rw [h_alert]
    exact decide_eq_true ⟨h_source, h_new⟩
  rw [h_empty] at h_mem
  exact absurd h_mem List.not_mem_nil

def Kept (s s' : State) : Prop :=
  ∀ (j : ℕ) (alert : Alert), s.alerts[j]? = some alert →
    ∃ alert' : Alert, s'.alerts[j]? = some alert' ∧
      alert'.sourceId = alert.sourceId ∧ alert'.status = alert.status

theorem Kept.active (h : Kept s s') (h_active : Active s i) : Active s' i := by
  obtain ⟨alert, h_alert, h_new⟩ := h_active
  obtain ⟨alert', h_alert', -, h_status⟩ := h i alert h_alert
  exact ⟨alert', h_alert', h_status.trans h_new⟩

theorem kept_leveled (s : State) (i : ℕ) (level : AlertNotices.Level) :
    Kept s (s.leveled i level) ∧ Kept (s.leveled i level) s := by
  have h_raise : ∀ alert : Alert, (alert.raise level).sourceId = alert.sourceId ∧
      (alert.raise level).status = alert.status := by
    intro alert
    unfold Alert.raise
    split_ifs <;> exact ⟨rfl, rfl⟩
  unfold State.leveled
  split_ifs with h_level
  · refine ⟨fun j alert h_alert => ?_, fun j alert h_alert => ?_⟩
    · by_cases h_at : i = j
      · refine ⟨alert.raise level, ?_, h_raise alert⟩
        rw [List.getElem?_modify, h_alert]
        exact congrArg some (if_pos h_at)
      · refine ⟨alert, ?_, rfl, rfl⟩
        rw [List.getElem?_modify, h_alert]
        exact congrArg some (if_neg h_at)
    · obtain ⟨old, h_old, ⟨-, rfl⟩ | ⟨-, rfl⟩⟩ := Rows.of_getElem?_modify h_alert
      · exact ⟨old, h_old, (h_raise old).1.symm, (h_raise old).2.symm⟩
      · exact ⟨old, h_old, rfl, rfl⟩
  · exact ⟨fun j alert h_alert => ⟨alert, h_alert, rfl, rfl⟩,
      fun j alert h_alert => ⟨alert, h_alert, rfl, rfl⟩⟩

theorem createEvent_cases (scan : Scan) (s : State) (sid : String) : ∃ event : Event,
    (createEvent scan s sid).events = s.events ++ [event] ∧
    (∃ alert : Alert, (createEvent scan s sid).alerts[event.alert]? = some alert ∧
      alert.status = .new ∧ alert.sourceId = sid) ∧
    Kept s (createEvent scan s sid) ∧
    (Kept (createEvent scan s sid) s ∨
      (∀ (k : ℕ) (alert : Alert), s.alerts[k]? = some alert → alert.status = .new →
          alert.sourceId ≠ sid) ∧
        ∃ alert : Alert, (createEvent scan s sid).alerts = s.alerts ++ [alert] ∧
          alert.sourceId = sid) := by
  unfold createEvent
  cases h_existing : existing s.alerts sid with
  | some i =>
    obtain ⟨alert, h_alert, h_new, h_source⟩ := existing_some h_existing
    obtain ⟨h_kept, h_back⟩ := kept_leveled s i scan.level
    obtain ⟨alert', h_alert', h_source', h_status'⟩ := h_kept i alert h_alert
    refine ⟨⟨i, scan.level, scan.scanTime, scan.now, false, 0⟩, ?_, ?_, h_kept, .inl h_back⟩
    · show (s.leveled i scan.level).events ++ _ = _
      rw [AlertNotices.events_leveled]
    · exact ⟨alert', h_alert', h_status'.trans h_new, h_source'.trans h_source⟩
  | none =>
    refine ⟨⟨s.alerts.length, scan.level, scan.scanTime, scan.now, false, 0⟩, rfl, ?_, ?_, ?_⟩
    · refine ⟨⟨sid, scan.level, .new, false⟩, ?_, rfl, rfl⟩
      show (s.alerts ++ [_])[s.alerts.length]? = _
      rw [List.getElem?_concat_length]
    · intro j alert h_alert
      refine ⟨alert, ?_, rfl, rfl⟩
      show (s.alerts ++ [_])[j]? = _
      rw [List.getElem?_append_left (List.getElem?_eq_some_iff.mp h_alert).1, h_alert]
    · exact .inr ⟨fun k alert => existing_none h_existing, _, rfl, rfl⟩

def ident (env : Env) (p : Policy) (row : Row) : Option String :=
  (sourceId env p row).map String.ofList

/-- What holds in a run: each event has an alert of its source, and of one source no two alerts are
active. -/
structure Inv (env : Env) (p : Policy) (rows : List Row) (s : State) : Prop where
  count : s.events.length = rows.length
  source : ∀ k i row, EventOf s rows k i row →
    ∃ alert : Alert, s.alerts[i]? = some alert ∧ ident env p row = some alert.sourceId
  unique : ∀ (i j : ℕ) (alert alert' : Alert), s.alerts[i]? = some alert →
    s.alerts[j]? = some alert' → alert.status = .new → alert'.status = .new →
    alert.sourceId = alert'.sourceId → i = j

/-- The events from `start` on have active alerts. -/
def Late (start : ℕ) (rows : List Row) (s : State) : Prop :=
  ∀ k i row, start ≤ k → EventOf s rows k i row → Active s i

theorem Inv.empty : Inv env p [] {} where
  count := rfl
  source k i row h := by
    obtain ⟨-, h_row⟩ := h
    cases h_row
  unique i j alert alert' h := by cases h

theorem eventOf_concat {event : Event} (h_count : s.events.length = rows.length)
    (h_events : s'.events = s.events ++ [event]) (h : EventOf s' (rows ++ [row]) k i row') :
    EventOf s rows k i row' ∨ k = rows.length ∧ i = event.alert ∧ row' = row := by
  obtain ⟨⟨found, h_found, rfl⟩, h_row⟩ := h
  rw [h_events] at h_found
  obtain h_old | ⟨rfl, rfl⟩ := Rows.of_getElem?_concat h_found
  · have h_k : k < rows.length := h_count ▸ (List.getElem?_eq_some_iff.mp h_old).1
    rw [List.getElem?_append_left h_k] at h_row
    exact .inl ⟨⟨found, h_old, rfl⟩, h_row⟩
  · rw [h_count, List.getElem?_concat_length] at h_row
    exact .inr ⟨h_count, rfl, (Option.some.inj h_row).symm⟩

theorem Inv.createEvent (h : Inv env p rows s) (scan : Scan)
    (h_ident : ident env p row = some sid) {start : ℕ} (h_late : Late start rows s) :
    Inv env p (rows ++ [row]) (createEvent scan s sid) ∧
      Late start (rows ++ [row]) (createEvent scan s sid) := by
  obtain ⟨event, h_events, ⟨own, h_own, h_new, h_source⟩, h_kept, h_others⟩ :=
    createEvent_cases scan s sid
  refine ⟨⟨?_, ?_, ?_⟩, ?_⟩
  · rw [h_events, List.length_append, List.length_append, h.count]
    rfl
  · intro k i row' h_event
    obtain h_old | ⟨-, rfl, rfl⟩ := eventOf_concat h.count h_events h_event
    · obtain ⟨alert, h_alert, h_eq⟩ := h.source k i row' h_old
      obtain ⟨alert', h_alert', h_same, -⟩ := h_kept i alert h_alert
      exact ⟨alert', h_alert', by rw [h_eq, h_same]⟩
    · exact ⟨own, h_own, by rw [h_ident, h_source]⟩
  · intro i j alert alert' h_alert h_alert' h_active h_active' h_same
    obtain h_back | ⟨h_free, added, h_added, h_added_source⟩ := h_others
    · obtain ⟨old, h_old, h_old_source, h_old_status⟩ := h_back i alert h_alert
      obtain ⟨old', h_old', h_old_source', h_old_status'⟩ := h_back j alert' h_alert'
      exact h.unique i j old old' h_old h_old' (h_old_status.trans h_active)
        (h_old_status'.trans h_active') (h_old_source.trans (h_same.trans h_old_source'.symm))
    · rw [h_added] at h_alert h_alert'
      obtain h_old | ⟨rfl, rfl⟩ := Rows.of_getElem?_concat h_alert
      · obtain h_old' | ⟨rfl, rfl⟩ := Rows.of_getElem?_concat h_alert'
        · exact h.unique i j alert alert' h_old h_old' h_active h_active' h_same
        · exact absurd (h_same.trans h_added_source) (h_free i alert h_old h_active)
      · obtain h_old' | ⟨rfl, -⟩ := Rows.of_getElem?_concat h_alert'
        · exact absurd (h_same.symm.trans h_added_source) (h_free j alert' h_old' h_active')
        · rfl
  · intro k i row' h_k h_event
    obtain h_old | ⟨-, rfl, rfl⟩ := eventOf_concat h.count h_events h_event
    · exact h_kept.active (h_late k i row' h_k h_old)
    · exact ⟨own, h_own, h_new⟩

theorem Inv.scanned (h : Inv env p rows s) (found : List Row) (scan : Scan) :
    Inv env p (rows ++ detected env p found)
        (step env p s (.scan found scan)) ∧
      Late rows.length (rows ++ detected env p found) (step env p s (.scan found scan)) := by
  have h_some : ∀ row ∈ detected env p found, (sourceId env p row).isSome = true := by
    intro row h_mem
    have h_keep := (List.mem_filter.mp h_mem).2
    exact (Bool.and_eq_true _ _ ▸ h_keep).1
  have h_late : Late rows.length rows s := by
    intro k i row h_k h_event
    exact absurd (List.getElem?_eq_some_iff.mp h_event.2).1 (not_lt.mpr h_k)
  show Inv env p _ (createEvents _ s) ∧ Late _ _ (createEvents _ s)
  unfold createEvents sourceIds
  dsimp only
  generalize rows.length = start at h_late
  generalize { scan with sourceIds := _ } = t
  generalize detected env p found = ds at h_some ⊢
  induction ds generalizing rows s with
  | nil => simpa using ⟨h, h_late⟩
  | cons row ds ih =>
    obtain ⟨source, h_source⟩ := Option.isSome_iff_exists.mp (h_some row List.mem_cons_self)
    have h_ident : ident env p row = some (String.ofList source) := by
      rw [ident, h_source]
      rfl
    obtain ⟨h_next, h_next_late⟩ := h.createEvent t h_ident h_late
    have h_rest := ih h_next h_next_late fun r h_mem => h_some r (List.mem_cons_of_mem row h_mem)
    rw [List.filterMap_cons_some (by rw [h_source]; rfl), List.foldl_cons]
    rwa [List.append_assoc, List.singleton_append] at h_rest

theorem Inv.closed (h : Inv env p rows s) (i : ℕ) : Inv env p rows (step env p s (.close i)) := by
  have h_old : ∀ (j : ℕ) (alert : Alert), (step env p s (.close i)).alerts[j]? = some alert →
      ∃ old : Alert, s.alerts[j]? = some old ∧ old.sourceId = alert.sourceId ∧
        (alert.status = .new → old.status = .new) := by
    intro j alert h_alert
    obtain ⟨old, h_old, ⟨-, rfl⟩ | ⟨-, rfl⟩⟩ := Rows.of_getElem?_modify h_alert
    · exact ⟨old, h_old, rfl, fun h_new => by cases h_new⟩
    · exact ⟨old, h_old, rfl, id⟩
  refine ⟨h.count, fun k j row h_event => ?_, ?_⟩
  · obtain ⟨alert, h_alert, h_ident⟩ := h.source k j row h_event
    have h_there : ∃ alert' : Alert, (step env p s (.close i)).alerts[j]? = some alert' := by
      have h_lt : j < (step env p s (.close i)).alerts.length := by
        show j < (s.alerts.modify i _).length
        rw [List.length_modify]
        exact (List.getElem?_eq_some_iff.mp h_alert).1
      exact ⟨_, List.getElem?_eq_getElem h_lt⟩
    obtain ⟨alert', h_alert'⟩ := h_there
    obtain ⟨old, h_same, h_source, -⟩ := h_old j alert' h_alert'
    rw [h_alert] at h_same
    cases h_same
    exact ⟨alert', h_alert', by rw [h_ident, h_source]⟩
  · intro j k alert alert' h_alert h_alert' h_new h_new' h_same
    obtain ⟨old, h_first, h_source, h_status⟩ := h_old j alert h_alert
    obtain ⟨old', h_second, h_source', h_status'⟩ := h_old k alert' h_alert'
    exact h.unique j k old old' h_first h_second (h_status h_new) (h_status' h_new')
      (h_source.trans (h_same.trans h_source'.symm))

theorem inv_run (steps : List Step) : Inv env p (eventRows env p steps) (run env p steps) := by
  induction steps using List.reverseRecOn with
  | nil => exact .empty
  | append_singleton steps a ih =>
    have h_run : run env p (steps ++ [a]) = step env p (run env p steps) a := by simp [run]
    have h_rows : eventRows env p (steps ++ [a]) =
        eventRows env p steps ++ detected env p a.rows := by simp [eventRows]
    rw [h_run, h_rows]
    cases a with
    | scan found scan => exact (ih.scanned found scan).1
    | close i =>
      have h_none : detected env p (Step.close i).rows = [] := rfl
      rw [h_none, List.append_nil]
      exact ih.closed i

end Scans

/-! ### One alert for each group -/

section Main

variable {env : Env} {p : Policy} {steps : List Step} {s : State} {rows : List Row} {row : Row}

theorem oneAlert_of_inv {start : ℕ} (h : Inv env p rows s) (h_late : Late start rows s)
    (h_apart : ∀ row' ∈ rows, ∀ source source', sourceId env p row = some source →
      sourceId env p row' = some source' → (source = source' ↔ SameGroup p row row'))
    (h_own : ∃ k, start ≤ k ∧ rows[k]? = some row) : OneAlert p s rows start row := by
  obtain ⟨k, h_k, h_row⟩ := h_own
  have h_lt : k < s.events.length := h.count ▸ (List.getElem?_eq_some_iff.mp h_row).1
  have h_event : EventOf s rows k (s.events[k].alert) row :=
    ⟨⟨_, List.getElem?_eq_getElem h_lt, rfl⟩, h_row⟩
  obtain ⟨alert, h_alert, h_ident⟩ := h.source _ _ _ h_event
  obtain ⟨source, h_source, h_stored⟩ := Option.map_eq_some_iff.mp h_ident
  have h_active := h_late _ _ _ h_k h_event
  -- rows of one group have one source, and so their alerts have
  have h_group : ∀ k' j row', EventOf s rows k' j row' → ∃ alert' : Alert,
      s.alerts[j]? = some alert' ∧ (alert'.sourceId = alert.sourceId ↔ SameGroup p row row') := by
    intro k' j row' h_event'
    obtain ⟨alert', h_alert', h_ident'⟩ := h.source _ _ _ h_event'
    obtain ⟨source', h_source', h_stored'⟩ := Option.map_eq_some_iff.mp h_ident'
    refine ⟨alert', h_alert', ?_⟩
    rw [← h_apart row' (List.mem_of_getElem? h_event'.2) source source' h_source h_source',
      ← h_stored, ← h_stored', String.ofList_inj, eq_comm]
  have h_one : ∀ k' j row', Active s j → EventOf s rows k' j row' → SameGroup p row row' →
      j = s.events[k].alert := by
    intro k' j row' h_active' h_event' h_same
    obtain ⟨alert', h_alert', h_iff⟩ := h_group k' j row' h_event'
    obtain ⟨own, h_own, h_new⟩ := h_active
    obtain ⟨own', h_own', h_new'⟩ := h_active'
    rw [h_alert] at h_own
    rw [h_alert'] at h_own'
    cases h_own
    cases h_own'
    exact h.unique _ _ alert' alert h_alert' h_alert h_new' h_new (h_iff.mpr h_same)
  refine ⟨_, h_active, fun j k' row' h_active' => h_one k' j row' h_active', ?_, ?_⟩
  · intro k' row' h_event'
    obtain ⟨alert', h_alert', h_iff⟩ := h_group k' _ row' h_event'
    rw [h_alert] at h_alert'
    cases h_alert'
    exact h_iff.mp rfl
  · exact fun k' j row' h_k' h_event' =>
      h_one k' j row' (h_late k' j row' h_k' h_event') h_event'

theorem mem_rows_of_detected {found : List Row} (h : row ∈ detected env p found) : row ∈ found :=
  List.mem_of_mem_filter h

section Examples

def floats : FloatText where
  text q := '.' :: decimal (Encodable.encode q)
  injective q q' h := Encodable.encode_injective (decimal_injective (List.cons.inj h).2)
  numeric q c h := by
    obtain rfl | h_digit := List.mem_cons.mp h
    · decide
    · simp [isNumeric, isDigit_of_mem_decimal h_digit]
  pointed q := .inl List.mem_cons_self

private def byHost : Env where
  ft := floats
  printable _ := true
  digest := ⟨id, Function.injective_id⟩
  detects _ := true

private def noon : Scan where
  scanTime := 0
  now := 0
  level := .error
  sourceIds := []
  answers _ _ := true

end Examples

end Main

end Log.AlertGroups
