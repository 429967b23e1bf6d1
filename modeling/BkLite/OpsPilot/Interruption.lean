import BkLite.Framework.Runs
import BkLite.Framework.Value

/-!
# The interruption of an execution

The row of an execution is written by the engine that runs it and by the requests that interrupt it
(`execution_repository.py`). The engine keeps one object of the row: it loads it once, asks it for
the status before it records a result, and saves it. A request loads an object of its own.
-/

namespace OpsPilot
namespace Interruption

open Py

/-- `WorkFlowTaskStatus`. -/
inductive Status
  | running
  | success
  | fail
  | interrupted
deriving DecidableEq, Repr

/-- A row of `WorkFlowTaskResult`, of one execution. -/
structure TaskResult where
  status : Status
  inputData : String
  outputData : Value := .dict []
  lastOutput : String := ""
  executeType : String
  finishedAt : Option ℕ := none

/-- `json.dumps` and `str` of a value that is no text. -/
structure Env where
  dumps : Value → String
  str : Value → String

/-- A call of `record_execution_result`. -/
structure Call where
  inputData : String
  result : Value
  success : Bool
  executeType : String

/-- `isinstance(result, dict) and result.get("interrupted")`. -/
def Call.interrupted (call : Call) : Bool :=
  match call.result with
  | .dict kvs => (Value.lookup kvs "interrupted").truthy
  | _ => false

def Call.status (call : Call) : Status :=
  if call.interrupted then .interrupted else if call.success then .success else .fail

variable (env : Env)

/-- `last_output` of a result. -/
def lastOutput (result : Value) : String :=
  match result with
  | .dict _ => env.dumps result
  | .str s => s
  | _ => env.str result

/-- The row of `record_execution_result`. -/
def recorded (call : Call) (outputData : Value) (now : ℕ) : TaskResult where
  status := call.status
  inputData := call.inputData
  outputData := outputData
  lastOutput := lastOutput env call.result
  executeType := call.executeType
  finishedAt := some now

/-- The row of `finalize_interrupted_execution`. -/
def finalized (call : Call) (outputData : Value) (now : ℕ) : TaskResult where
  status := .interrupted
  inputData := call.inputData
  outputData := outputData
  lastOutput := lastOutput env (match call.result with
    | .dict kvs => .dict kvs
    | .str s => .str s
    | result => result.orElse (.str "execution interrupted"))
  executeType := call.executeType
  finishedAt := some now

/-- The stored row, the engine's object of it, the call behind the guard that is not saved yet, and
the objects of the requests. -/
structure State where
  row : Option TaskResult := none
  object : Option TaskResult := none
  pending : Option Call := none
  copies : ℕ → Option TaskResult := fun _ => none

def State.stored (s : State) : Option Status := s.row.map (·.status)

inductive Action
  /-- The engine makes sure of its row, created with the input and the type of the call. -/
  | ensureStarted (call : Call)
  /-- `record_execution_result`, up to its guard. -/
  | enter (call : Call)
  /-- The rest of it. -/
  | save (outputData : Value) (now : ℕ)
  /-- `build_output_data` raises, and the call ends. -/
  | abandon
  /-- The engine meets the flag of a request. -/
  | finalizeOwn (call : Call) (outputData : Value) (now : ℕ)
  /-- A request loads its object. -/
  | load (request : ℕ)
  /-- `finalize_interrupted_execution` with the object of the request. -/
  | finalize (request : ℕ) (call : Call) (outputData : Value) (now : ℕ)
  /-- `interrupt_chat_flow_execution` with the object of the request. -/
  | mark (request : ℕ) (now : ℕ)

def ensureResultStarted (call : Call) (s : State) : State :=
  match s.object with
  | some _ => s
  | none =>
    match s.row with
    | some row => { s with object := some row }
    | none =>
      let row : TaskResult :=
        { status := .running, inputData := call.inputData, executeType := call.executeType }
      { s with row := some row, object := some row }

/-- The engine's object after `ensure_result_started` and its guard. -/
def guarded (call : Call) (s : State) : State :=
  match s.object with
  | some object =>
    if object.status = .interrupted ∧ call.interrupted = false then s
    else { s with pending := some call }
  | none => s

/-- `save` of an object whose row exists. -/
def saveRow (row : TaskResult) (s : State) : State :=
  { s with row := s.row.map fun _ => row }

def step (s : State) : Action → State
  | .ensureStarted call => if s.pending.isSome then s else ensureResultStarted call s
  | .enter call => if s.pending.isSome then s else guarded call (ensureResultStarted call s)
  | .save outputData now =>
    match s.pending with
    | none => s
    | some call =>
      let row := recorded env call outputData now
      { saveRow row s with object := some row, pending := none }
  | .abandon => { s with pending := none }
  | .finalizeOwn call outputData now =>
    if s.pending.isSome then s
    else
      let row := finalized env call outputData now
      { saveRow row (ensureResultStarted call s) with object := some row }
  | .load request => { s with copies := Function.update s.copies request s.row }
  | .finalize request call outputData now =>
    match s.copies request with
    | none => s
    | some _ =>
      let row := finalized env call outputData now
      { saveRow row s with copies := Function.update s.copies request (some row) }
  | .mark request now =>
    match s.copies request with
    | none => s
    | some copy =>
      if copy.status ∈ [Status.success, .fail, .interrupted] then s
      else
        let marked := fun row : TaskResult =>
          { row with status := .interrupted, finishedAt := some now }
        { s with row := s.row.map marked
                 copies := Function.update s.copies request (some (marked copy)) }

/-! ### Final interruptions -/

/-- Once the stored status is `INTERRUPTED` it becomes neither `SUCCESS` nor `FAIL`. -/
def Final (s : State) (as : List Action) : Prop :=
  ∀ pre mid post, as = pre ++ mid ++ post →
    (Runs.run (step env) s pre).stored = some .interrupted →
      (Runs.run (step env) s (pre ++ mid)).stored ≠ some .success ∧
        (Runs.run (step env) s (pre ++ mid)).stored ≠ some .fail

def EngineSaves (s : State) : Action → Prop
  | .save _ _ => s.pending.isSome
  | .finalizeOwn _ _ _ => s.pending = none
  | _ => False

def Action.IsRequest : Action → Prop
  | .finalize _ _ _ _ | .mark _ _ => True
  | _ => False

def State.Unaware (s : State) : Prop :=
  ∃ object, s.object = some object ∧ object.status ≠ .interrupted

/-- A request interrupts an execution whose engine has loaded its object, and what the engine saves
next is no interruption. -/
def Overtaken (s : State) (as : List Action) : Prop :=
  ∃ pre request mid outputData now post call,
    as = pre ++ request :: mid ++ .save outputData now :: post ∧
      request.IsRequest ∧ (Runs.run (step env) s pre).Unaware ∧
      (Runs.run (step env) s (pre ++ [request])).stored = some .interrupted ∧
      Runs.Along (step env) (fun s a _ => ¬EngineSaves s a)
        (Runs.run (step env) s (pre ++ [request])) mid ∧
      (Runs.run (step env) s (pre ++ request :: mid)).pending = some call ∧
      call.interrupted = false

section Steps

variable {env} {s : State} {a : Action} {call : Call}

theorem ensureResultStarted_cases (call : Call) (s : State) :
    ensureResultStarted call s = s ∨
      ∃ row, (ensureResultStarted call s).row = some row ∧
        (ensureResultStarted call s).object = some row ∧ (s.row = none ∨ s.row = some row) := by
  unfold ensureResultStarted
  split
  · exact .inl rfl
  · split
    · next row h_row => exact .inr ⟨row, h_row, rfl, .inr h_row⟩
    · next h_row => exact .inr ⟨_, rfl, rfl, .inl h_row⟩

theorem stored_ensureResultStarted (h : s.stored = some .interrupted) :
    (ensureResultStarted call s).stored = some .interrupted := by
  rcases ensureResultStarted_cases call s with
    h_same | ⟨row, h_row, -, h_none | h_some⟩
  · rw [h_same]
    exact h
  · rw [State.stored, h_none] at h
    cases h
  · rw [State.stored, h_some] at h
    rw [State.stored, h_row]
    exact h

theorem guarded_keeps : (guarded call s).row = s.row ∧ (guarded call s).object = s.object := by
  unfold guarded
  split
  · split_ifs <;> exact ⟨rfl, rfl⟩
  · exact ⟨rfl, rfl⟩

theorem stored_step (h : s.stored = some .interrupted)
    (h_save : EngineSaves s a → ∀ call, s.pending = some call → call.interrupted = true) :
    (step env s a).stored = some .interrupted := by
  obtain ⟨row, h_row, h_status⟩ := Option.map_eq_some_iff.mp h
  cases a with
  | ensureStarted call =>
    unfold step
    split_ifs
    · exact h
    · exact stored_ensureResultStarted h
  | enter call =>
    unfold step
    split_ifs
    · exact h
    · show Option.map _ (guarded call (ensureResultStarted call s)).row = _
      rw [guarded_keeps.1]
      exact stored_ensureResultStarted h
  | save outputData now =>
    cases h_pending : s.pending with
    | none => simpa [step, h_pending] using h
    | some call =>
      have h_call : call.interrupted = true :=
        h_save (by rw [EngineSaves, h_pending]; rfl) call h_pending
      simp [step, h_pending, State.stored, saveRow, h_row, recorded, Call.status, h_call]
  | abandon => exact h
  | finalizeOwn call outputData now =>
    unfold step
    split_ifs
    · exact h
    · have h_started : (ensureResultStarted call s).stored = some .interrupted :=
        stored_ensureResultStarted h
      obtain ⟨row', h_row', -⟩ := Option.map_eq_some_iff.mp h_started
      simp [State.stored, saveRow, h_row', finalized]
  | load request => exact h
  | finalize request call outputData now =>
    cases h_copy : s.copies request with
    | none => simpa [step, h_copy] using h
    | some copy => simp [step, h_copy, State.stored, saveRow, h_row, finalized]
  | mark request now =>
    cases h_copy : s.copies request with
    | none => simpa [step, h_copy] using h
    | some copy =>
      by_cases h_done : copy.status ∈ [Status.success, .fail, .interrupted]
      · simpa only [step, h_copy, if_pos h_done] using h
      · simp only [step, h_copy, if_neg h_done]
        simp [State.stored, h_row]

def State.Agrees (s : State) : Prop :=
  ∀ object, s.object = some object → s.row = none ∨ s.stored = some object.status

theorem agrees_of_loaded {row : TaskResult} (h_row : s.row = some row)
    (h_object : s.object = some row) : s.Agrees := by
  intro object h
  obtain rfl := Option.some.inj (h_object.symm.trans h)
  exact .inr (by rw [State.stored, h_row]; rfl)

theorem agrees_of_saved {row : TaskResult} {t : State} (h_row : t.row = s.row.map fun _ => row)
    (h_object : t.object = some row) : t.Agrees := by
  cases h : s.row with
  | none =>
    rw [h] at h_row
    exact fun _ _ => .inl h_row
  | some row' =>
    rw [h] at h_row
    exact agrees_of_loaded h_row h_object

theorem step_cases (s : State) (a : Action) :
    ((step env s a).row = s.row ∧ (step env s a).object = s.object ∧ ¬EngineSaves s a) ∨
      (a.IsRequest ∧ (step env s a).object = s.object) ∨ (step env s a).Agrees := by
  cases a with
  | ensureStarted call =>
    cases h_pending : s.pending with
    | some call' =>
      have h_step : step env s (.ensureStarted call) = s := by simp [step, h_pending]
      rw [h_step]
      exact .inl ⟨rfl, rfl, id⟩
    | none =>
      have h_step : step env s (.ensureStarted call) = ensureResultStarted call s := by
        simp [step, h_pending]
      rw [h_step]
      rcases ensureResultStarted_cases call s with
        h_same | ⟨row, h_row, h_object, -⟩
      · rw [h_same]
        exact .inl ⟨rfl, rfl, id⟩
      · exact .inr (.inr (agrees_of_loaded h_row h_object))
  | enter call =>
    cases h_pending : s.pending with
    | some call' =>
      have h_step : step env s (.enter call) = s := by simp [step, h_pending]
      rw [h_step]
      exact .inl ⟨rfl, rfl, id⟩
    | none =>
      have h_step : step env s (.enter call) = guarded call (ensureResultStarted call s) := by
        simp [step, h_pending]
      rw [h_step]
      rcases ensureResultStarted_cases call s with
        h_same | ⟨row, h_row, h_object, -⟩
      · rw [h_same]
        exact .inl ⟨guarded_keeps.1, guarded_keeps.2, id⟩
      · exact .inr (.inr (agrees_of_loaded (guarded_keeps.1.trans h_row)
          (guarded_keeps.2.trans h_object)))
  | save outputData now =>
    cases h_pending : s.pending with
    | none =>
      have h_step : step env s (.save outputData now) = s := by simp [step, h_pending]
      have h_quiet : ¬EngineSaves s (.save outputData now) := by simp [EngineSaves, h_pending]
      rw [h_step]
      exact .inl ⟨rfl, rfl, h_quiet⟩
    | some call =>
      have h_row : (step env s (.save outputData now)).row =
          s.row.map fun _ => recorded env call outputData now := by simp [step, h_pending, saveRow]
      refine .inr (.inr (agrees_of_saved h_row ?_))
      simp [step, h_pending]
  | abandon => exact .inl ⟨rfl, rfl, id⟩
  | finalizeOwn call outputData now =>
    cases h_pending : s.pending with
    | some call' =>
      have h_step : step env s (.finalizeOwn call outputData now) = s := by simp [step, h_pending]
      have h_quiet : ¬EngineSaves s (.finalizeOwn call outputData now) := by
        simp [EngineSaves, h_pending]
      rw [h_step]
      exact .inl ⟨rfl, rfl, h_quiet⟩
    | none =>
      have h_row : (step env s (.finalizeOwn call outputData now)).row =
          (ensureResultStarted call s).row.map fun _ => finalized env call outputData now := by
        simp [step, h_pending, saveRow]
      refine .inr (.inr (agrees_of_saved h_row ?_))
      simp [step, h_pending]
  | load request => exact .inl ⟨rfl, rfl, id⟩
  | finalize request call outputData now =>
    refine .inr (.inl ⟨trivial, ?_⟩)
    cases h_copy : s.copies request <;> simp [step, h_copy, saveRow]
  | mark request now =>
    refine .inr (.inl ⟨trivial, ?_⟩)
    cases h_copy : s.copies request with
    | none => simp [step, h_copy]
    | some copy =>
      simp only [step, h_copy]
      split_ifs <;> rfl

end Steps

/-! ### The request that was missed -/

section Runs

variable {env} {s : State} {as : List Action}

def State.Fresh (s : State) : Prop := s.object = none ∧ s.pending = none

def State.GuardKept (s : State) : Prop :=
  ∀ call, s.pending = some call → call.interrupted = false → s.Unaware

theorem pending_ensureResultStarted {call : Call} :
    (ensureResultStarted call s).pending = s.pending := by
  unfold ensureResultStarted
  split
  · rfl
  · split <;> rfl

theorem guardKept_guarded {call : Call} (h : s.pending = none) : (guarded call s).GuardKept := by
  unfold guarded
  split
  · next object h_object =>
    split_ifs with h_guard
    · intro call' h_call'
      rw [h] at h_call'
      cases h_call'
    · intro call' h_call' h_result
      obtain rfl : call = call' := Option.some.inj h_call'
      exact ⟨object, h_object, fun h_status => h_guard ⟨h_status, h_result⟩⟩
  · intro call' h_call'
    rw [h] at h_call'
    cases h_call'

theorem guardKept_of_none (h : s.pending = none) : s.GuardKept := by
  intro call h_call
  rw [h] at h_call
  cases h_call

theorem guardKept_step (s : State) (a : Action) (h : s.GuardKept) : (step env s a).GuardKept := by
  cases h_pending : s.pending with
  | none =>
    cases a with
    | ensureStarted call =>
      simp only [step, h_pending]
      exact guardKept_of_none (pending_ensureResultStarted.trans h_pending)
    | enter call =>
      simp only [step, h_pending]
      exact guardKept_guarded (pending_ensureResultStarted.trans h_pending)
    | save outputData now => simpa [step, h_pending] using h
    | abandon => exact guardKept_of_none rfl
    | finalizeOwn call outputData now =>
      refine guardKept_of_none ?_
      simp [step, h_pending, saveRow, pending_ensureResultStarted]
    | load request => exact guardKept_of_none h_pending
    | finalize request call outputData now =>
      refine guardKept_of_none ?_
      cases h_copy : s.copies request <;> simp [step, h_copy, saveRow, h_pending]
    | mark request now =>
      refine guardKept_of_none ?_
      cases h_copy : s.copies request with
      | none => simp [step, h_copy, h_pending]
      | some copy =>
        simp only [step, h_copy]
        split_ifs <;> exact h_pending
  | some call =>
    cases a with
    | ensureStarted call' => simpa [step, h_pending] using h
    | enter call' => simpa [step, h_pending] using h
    | save outputData now =>
      refine guardKept_of_none ?_
      simp [step, h_pending]
    | abandon => exact guardKept_of_none rfl
    | finalizeOwn call' outputData now => simpa [step, h_pending] using h
    | load request => exact h
    | finalize request call' outputData now =>
      cases h_copy : s.copies request with
      | none => simpa [step, h_copy] using h
      | some copy =>
        simp only [step, h_copy, saveRow]
        exact h
    | mark request now =>
      cases h_copy : s.copies request with
      | none => simpa [step, h_copy] using h
      | some copy =>
        simp only [step, h_copy]
        split_ifs
        · exact h
        · exact h

theorem pending_step (s : State) (a : Action) (call : Call)
    (h : (step env s a).pending = some call) : .enter call = a ∨ s.pending = some call := by
  cases h_pending : s.pending with
  | none =>
    refine .inl ?_
    cases a with
    | enter call' =>
      simp only [step, h_pending] at h
      have h_started : (ensureResultStarted call' s).pending = none :=
        pending_ensureResultStarted.trans h_pending
      simp only [Option.isSome_none, Bool.false_eq_true, if_false] at h
      unfold guarded at h
      split at h
      · split_ifs at h
        · rw [h_started] at h
          cases h
        · rw [Option.some.inj h]
      · rw [h_started] at h
        cases h
    | ensureStarted call' => simp [step, h_pending, pending_ensureResultStarted] at h
    | save outputData now => simp [step, h_pending] at h
    | abandon => cases h
    | finalizeOwn call' outputData now =>
      simp [step, h_pending, saveRow, pending_ensureResultStarted] at h
    | load request => simp [step, h_pending] at h
    | finalize request call' outputData now =>
      cases h_copy : s.copies request <;> simp [step, h_copy, saveRow, h_pending] at h
    | mark request now =>
      cases h_copy : s.copies request with
      | none => simp [step, h_copy, h_pending] at h
      | some copy =>
        simp only [step, h_copy] at h
        split_ifs at h <;> simp [h_pending] at h
  | some call' =>
    refine .inr ?_
    cases a with
    | ensureStarted _ | enter _ | finalizeOwn _ _ _ => simpa [step, h_pending] using h
    | save outputData now => simp [step, h_pending] at h
    | abandon => cases h
    | load request => simpa [step, h_pending] using h
    | finalize request _ outputData now =>
      cases h_copy : s.copies request <;> simpa [step, h_copy, saveRow, h_pending] using h
    | mark request now =>
      cases h_copy : s.copies request with
      | none => simpa [step, h_copy, h_pending] using h
      | some copy =>
        simp only [step, h_copy] at h
        split_ifs at h <;> simpa [h_pending] using h

theorem exists_missed (h_fresh : s.Fresh)
    (h_row : (Runs.run (step env) s as).stored = some .interrupted)
    (h_object : (Runs.run (step env) s as).Unaware) :
    ∃ pre request mid, as = pre ++ request :: mid ∧ request.IsRequest ∧
      (Runs.run (step env) s pre).Unaware ∧
      (Runs.run (step env) s (pre ++ [request])).stored = some .interrupted ∧
      Runs.Along (step env) (fun s a _ => ¬EngineSaves s a)
        (Runs.run (step env) s (pre ++ [request])) mid := by
  induction as using List.reverseRecOn with
  | nil =>
    obtain ⟨object, h_some, -⟩ := h_object
    rw [Runs.run_nil, h_fresh.1] at h_some
    cases h_some
  | append_singleton as a ih =>
    rw [Runs.run_concat] at h_row h_object
    obtain ⟨object, h_some, h_status⟩ := h_object
    rcases step_cases (Runs.run (step env) s as) a with
      ⟨h_row', h_object', h_quiet⟩ | ⟨h_request, h_object'⟩ | h_agrees
    · -- nothing is written: the request is further back
      have h_before : (Runs.run (step env) s as).stored = some .interrupted := by
        rw [State.stored, ← h_row']
        exact h_row
      obtain ⟨pre, request, mid, h_as, h_is, h_unaware, h_stored, h_mid⟩ :=
        ih h_before ⟨object, h_object'.symm.trans h_some, h_status⟩
      refine ⟨pre, request, mid ++ [a], ?_, h_is, h_unaware, h_stored, ?_⟩
      · rw [h_as, List.append_assoc]
        rfl
      · rw [Runs.along_append]
        refine ⟨h_mid, ?_, trivial⟩
        rw [← Runs.run_append, List.append_assoc, List.singleton_append, ← h_as]
        exact h_quiet
    · -- this is the request
      refine ⟨as, a, [], rfl, h_request, ⟨object, h_object'.symm.trans h_some, h_status⟩, ?_,
        trivial⟩
      rw [Runs.run_concat]
      exact h_row
    · rcases h_agrees object h_some with h_none | h_tells
      · rw [State.stored, h_none] at h_row
        cases h_row
      · rw [h_tells] at h_row
        exact absurd (Option.some.inj h_row) h_status

theorem stored_save {call : Call} {outputData : Value} {now : ℕ}
    (h_pending : s.pending = some call) (h_stored : s.stored = some .interrupted) :
    (step env s (.save outputData now)).stored = some call.status := by
  obtain ⟨row, h_row, -⟩ := Option.map_eq_some_iff.mp h_stored
  simp [step, h_pending, State.stored, saveRow, h_row, recorded]

theorem stored_along (h_stored : s.stored = some .interrupted)
    (h : Runs.Along (step env) (fun s a _ => ¬EngineSaves s a) s as) :
    (Runs.run (step env) s as).stored = some .interrupted :=
  h.invariant (I := fun s => s.stored = some .interrupted)
    (fun _ _ h_stored h_quiet => stored_step h_stored fun h_saves => absurd h_saves h_quiet) h_stored

/-- **Final interruptions.** They are exactly if no request is overtaken. -/
theorem final_iff (h_fresh : s.Fresh) : Final env s as ↔ ¬Overtaken env s as := by
  constructor
  · rintro h_final ⟨pre, request, mid, outputData, now, post, call, rfl, -, -, h_stored, h_mid,
      h_pending, h_call⟩
    have h_before : (Runs.run (step env) s (pre ++ request :: mid)).stored =
        some .interrupted := by
      have h_along := stored_along h_stored h_mid
      rwa [← Runs.run_append, List.append_assoc, List.singleton_append] at h_along
    have h_after : (Runs.run (step env) s
        (pre ++ request :: mid ++ [.save outputData now])).stored = some call.status := by
      rw [Runs.run_concat]
      exact stored_save h_pending h_before
    have h_split : pre ++ request :: mid ++ .save outputData now :: post =
        (pre ++ [request]) ++ (mid ++ [.save outputData now]) ++ post := by simp
    have h_never := h_final _ _ _ h_split h_stored
    have h_same : pre ++ [request] ++ (mid ++ [.save outputData now]) =
        pre ++ request :: mid ++ [.save outputData now] := by simp
    rw [h_same, h_after] at h_never
    cases h_success : call.success with
    | false => exact h_never.2 (by simp [Call.status, h_call, h_success])
    | true => exact h_never.1 (by simp [Call.status, h_call, h_success])
  · intro h_in_time pre mid post h_as h_stored
    have h_stays : (Runs.run (step env) s (pre ++ mid)).stored = some .interrupted := by
      induction mid using List.reverseRecOn generalizing post with
      | nil =>
        rw [List.append_nil]
        exact h_stored
      | append_singleton mid a ih =>
        have h_before := ih (a :: post) (by rw [h_as]; simp)
        rw [← List.append_assoc, Runs.run_concat]
        refine stored_step h_before fun h_saves call h_pending => ?_
        by_contra h_result
        rw [Bool.not_eq_true] at h_result
        -- the guard was passed, so the engine does not know of the interruption
        have h_kept : (Runs.run (step env) s (pre ++ mid)).GuardKept :=
          Runs.run_invariant (I := State.GuardKept) guardKept_step (guardKept_of_none h_fresh.2) _
        obtain ⟨pre', request, mid', h_run, h_is, h_unaware, h_missed, h_mid⟩ :=
          exists_missed h_fresh h_before (h_kept call h_pending h_result)
        cases a with
        | save outputData now =>
          refine h_in_time ⟨pre', request, mid', outputData, now, post, call, ?_, h_is, h_unaware,
            h_missed, h_mid, ?_, h_result⟩
          · rw [← h_run, h_as]
            simp
          · rw [← h_run]
            exact h_pending
        | finalizeOwn call' outputData now =>
          rw [EngineSaves, h_pending] at h_saves
          cases h_saves
        | _ => exact h_saves
    rw [h_stays]
    exact ⟨by decide, by decide⟩

theorem enter_mem_of_pending (h_none : s.pending = none) {call : Call}
    (h : (Runs.run (step env) s as).pending = some call) : .enter call ∈ as := by
  induction as using List.reverseRecOn with
  | nil =>
    rw [Runs.run_nil, h_none] at h
    cases h
  | append_singleton as a ih =>
    rw [Runs.run_concat] at h
    rw [List.mem_append, List.mem_singleton]
    rcases pending_step _ a call h with h_enter | h_before
    · exact .inr h_enter
    · exact .inl (ih h_before)

end Runs

/-! ### A request during a run -/

def plainEnv : Env where
  dumps _ := "{}"
  str _ := ""

def answer : Call where
  inputData := "{}"
  result := .str "done"
  success := true
  executeType := "celery"

def interruption : Call where
  inputData := "{}"
  result := .dict [("success", .bool false), ("interrupted", .bool true)]
  success := false
  executeType := "celery"

def interruptedRun : List Action :=
  [.ensureStarted answer, .load 0, .finalize 0 interruption (.dict []) 5]

/-- The engine meets the flag and records the interruption. -/
theorem final_met :
    Final plainEnv {} (interruptedRun ++ [.enter interruption, .save (.dict []) 6]) := by
  refine (final_iff ⟨rfl, rfl⟩).mpr ?_
  rintro ⟨pre, request, mid, outputData, now, post, call, h_as, -, -, -, -, h_pending, h_call⟩
  have h_enter : Action.enter call ∈ pre ++ request :: mid := enter_mem_of_pending rfl h_pending
  have h_mem : Action.enter call ∈ interruptedRun ++ [.enter interruption, .save (.dict []) 6] := by
    rw [h_as]
    exact List.mem_append_left _ h_enter
  obtain rfl : call = interruption := by simpa [interruptedRun] using h_mem
  cases h_call

/-- **Overtaken.** The answer is recorded behind the request. -/
theorem final_overtaken :
    (Runs.run (step plainEnv) {} interruptedRun).stored = some .interrupted ∧
      (Runs.run (step plainEnv) {}
        (interruptedRun ++ [.enter answer, .save (.dict []) 6])).stored = some .success ∧
      ¬Final plainEnv {} (interruptedRun ++ [.enter answer, .save (.dict []) 6]) := by
  have h_before : (Runs.run (step plainEnv) {} interruptedRun).stored = some .interrupted := by
    decide
  have h_after : (Runs.run (step plainEnv) {}
      (interruptedRun ++ [.enter answer, .save (.dict []) 6])).stored = some .success := by decide
  refine ⟨h_before, h_after, ?_⟩
  intro h
  exact (h interruptedRun _ [] (List.append_nil _).symm h_before).1 h_after

end Interruption
end OpsPilot
