import BkLite.Framework.Branches
import BkLite.Framework.Programs
import BkLite.Framework.Value
import BkLite.OpsPilot.Flow

/-!
# The variables that parallel branches share

A node reads its input from a variable, `last_message` unless it is configured otherwise, and its
output is set in one; an intent classification saves its input for the node behind it in
`intent_previous_output`, which every node looks at and deletes (`node_runner.py`,
`intent_classifier.py`). All branches of a flow share the variables (`variable_manager.py`), each
access under a lock.

What an executor does with the variables is a parameter, a program for each execution and input.
A valid flow has no cycle, so the sets of visited nodes are left out, and so are the variables that
describe a node for display.
-/

namespace OpsPilot
namespace SharedVariables

open Py Relation Programs

def saved : String := "intent_previous_output"

/-- `inputParams` and `outputParams` of a node. -/
structure Params where
  inputParams : String := "last_message"
  outputParams : String := "last_message"

abbrev Execution := Program String Value (Option (List (String × Value)))

/-- A flow and its executors. None of them sets the saved input by itself. -/
structure Env where
  flow : Flow
  params : String → Params
  executor : List ℕ → String → Value → Execution
  not_sets_saved : ∀ path id input, ¬(executor path id input).Sets saved

inductive Phase
  | start
  | consume (input : Value)
  | read
  | run (input : Value) (rest : Execution)

structure Task where
  path : List ℕ
  id : String
  data : List (String × Value)
  phase : Phase

variable (env : Env)

def outputOf (data : List (String × Value)) : Output where
  intentResult :=
    match Value.lookup data "intent_result" with
    | .str intent => some intent
    | _ => none
  conditionResult :=
    match Value.lookup data "condition_result" with
    | .null => none
    | result => some result.truthy

/-- `input_data.get(input_key, "")`. -/
def defaultInput (data : List (String × Value)) (key : String) : Value :=
  if key ∈ data.map Prod.fst then Value.lookup data key else .str ""

/-- `f"node_{node_id}_result"`. -/
def resultName (id : String) : String := "node_" ++ id ++ "_result"

def outputWrites (id : String) (data : List (String × Value)) : List (String × Value) :=
  let key := (env.params id).outputParams
  match Value.lookup data key with
  | .null => []
  | output =>
    -- the types that pass on the output before them
    if key = "last_message" ∧ env.flow.typeOf id ∈ ["condition", "branch", "intent"] then []
    else [(key, output)]

def record (id : String) : Option (List (String × Value)) → Execution
  | none => .done none
  | some data => .setAll (outputWrites env id data ++ [(resultName id, .dict data)]) (some data)

def execute (path : List ℕ) (id : String) (input : Value) : Execution :=
  if env.flow.typeOf id = "intent_classification" then
    .set saved input (env.executor path id input)
  else env.executor path id input

def nodeRun (path : List ℕ) (id : String) (input : Value) : Execution :=
  (execute env path id input).andThen (record env id)

def nextTasks (path : List ℕ) (id : String) : Option (List (String × Value)) → List Task
  | none => []
  | some data =>
    (env.flow.getNextNodes id (outputOf data)).zipIdx.map fun (next, i) =>
      { path := path ++ [i], id := next, data, phase := .start }

/-- `_execute_single_node`, one access of a variable at a time, and the nodes behind it. -/
def op (task : Task) : Branches.Op Task String Value :=
  match task.phase with
  | .start =>
    if env.flow.getNodeById task.id = none then .fork []
    else .get saved fun value =>
      match value with
      | .null => { task with phase := .read }
      | input => { task with phase := .consume input }
  | .consume input =>
    .set saved .null { task with phase := .run input (nodeRun env task.path task.id input) }
  | .read => .get (env.params task.id).inputParams fun value =>
    let input := match value with
      | .null => defaultInput task.data (env.params task.id).inputParams
      | input => input
    { task with phase := .run input (nodeRun env task.path task.id input) }
  | .run input (.get u next) => .get u fun value => { task with phase := .run input (next value) }
  | .run input (.set u value next) => .set u value { task with phase := .run input next }
  | .run _ (.done result) => .fork (nextTasks env task.path task.id result)

def Task.received (task : Task) : Option Value :=
  match task.phase with
  | .start | .read => none
  | .consume input | .run input _ => some input

variable (start : String) (data : List (String × Value)) (init : String → Value)

def first : Task := { path := [], id := start, data, phase := .start }

def tasks (paths : List (List ℕ)) : List (List ℕ × Task) :=
  (Runs.run (Branches.step (op env)) (Branches.initial (first start data) init) paths).tasks

/-- The execution on the path is one of the node and receives the input, if only its own chain is
run. -/
def Receives (path : List ℕ) (id : String) (input : Value) : Prop :=
  ∃ task vars, Branches.Alone (op env) (first start data) init path task vars ∧
    task.id = id ∧ task.received = some input

def Returns (path : List ℕ) (id : String) (input : Value) (result : List (String × Value)) : Prop :=
  ∃ task vars, Branches.Alone (op env) (first start data) init path task vars ∧
    task.id = id ∧ task.phase = .run input (.done (some result))

/-- The node `next` reads the variable in which the output of `id` is set. -/
def Linked (id next : String) (data : List (String × Value)) : Prop :=
  (env.params next).inputParams = (env.params id).outputParams ∧
    (env.params id).outputParams ≠ resultName id ∧
    Value.lookup data (env.params id).outputParams ≠ .null ∧
    ¬((env.params id).outputParams = "last_message" ∧
      env.flow.typeOf id ∈ ["condition", "branch", "intent"])

/-- The input comes from the predecessor: what an intent classification has saved, and otherwise
its output. -/
def FromPredecessor (path : List ℕ) (input : Value) : Prop :=
  ∀ before i, path = before ++ [i] → ∃ id received result next,
    Returns env start data init before id received result ∧
      (env.flow.getNextNodes id (outputOf result))[i]? = some next ∧
      ((env.params id).outputParams ≠ saved →
        if env.flow.typeOf id = "intent_classification" then received ≠ .null → input = received
        else Linked env id next result →
          input = Value.lookup result (env.params id).outputParams)

/-- An execution receives the same input in all interleavings. -/
def Undisturbed : Prop :=
  ∀ paths, ∀ task ∈ tasks env start data init paths, ∀ input, task.2.received = some input →
    (∀ paths', ∀ task' ∈ tasks env start data init paths', task'.1 = task.1 →
      ∀ input', task'.2.received = some input' → input' = input) ∧
    Receives env start data init task.1 task.2.id input ∧
      FromPredecessor env start data init task.1 input

/-- Whatever an execution sets in a variable is what the chain of any parallel execution that reads
it has in it. -/
def Separate : Prop := Branches.Separate (op env) (first start data) init

/-! ### The execution of one node -/

section Node

variable {env start data init} {path : List ℕ} {task task' : Task} {vars vars' : String → Value}
  {input : Value}

def ownInput (env : Env) (vars : String → Value) (id : String) (data : List (String × Value)) :
    Value :=
  match vars saved with
  | .null =>
    match vars (env.params id).inputParams with
    | .null => defaultInput data (env.params id).inputParams
    | input => input
  | input => input

/-- What an execution does next, by its phase. -/
inductive Access (env : Env) (path : List ℕ) (id : String) (data : List (String × Value)) :
    Phase → Branches.Op Task String Value → Prop
  | unknown : Access env path id data .start (.fork [])
  | start : Access env path id data .start (.get saved fun
      | .null => ⟨path, id, data, .read⟩
      | input => ⟨path, id, data, .consume input⟩)
  | consume {input : Value} : Access env path id data (.consume input)
      (.set saved .null ⟨path, id, data, .run input (nodeRun env path id input)⟩)
  | read : Access env path id data .read (.get (env.params id).inputParams fun value =>
      let input := match value with
        | .null => defaultInput data (env.params id).inputParams
        | input => input
      ⟨path, id, data, .run input (nodeRun env path id input)⟩)
  | get {input : Value} {u : String} {next : Value → Execution} :
      Access env path id data (.run input (.get u next))
        (.get u fun value => ⟨path, id, data, .run input (next value)⟩)
  | set {input : Value} {u : String} {value : Value} {next : Execution} :
      Access env path id data (.run input (.set u value next))
        (.set u value ⟨path, id, data, .run input next⟩)
  | done {input : Value} {result : Option (List (String × Value))} :
      Access env path id data (.run input (.done result)) (.fork (nextTasks env path id result))

theorem access_of_op {id : String} {data : List (String × Value)} {phase : Phase}
    {o : Branches.Op Task String Value} (h : op env ⟨path, id, data, phase⟩ = o) :
    Access env path id data phase o := by
  subst h
  cases phase with
  | start =>
    unfold op
    dsimp only
    split_ifs
    · exact .unknown
    · exact .start
  | consume input => exact .consume
  | read => exact .read
  | run input rest =>
    cases rest with
    | done result => exact .done
    | get u next => exact .get
    | set u value next => exact .set

/-- How far a node has come, by the variables before it: what remains ends as the whole does. -/
def Progress (env : Env) (before : String → Value) (task : Task) (vars : String → Value) : Prop :=
  match task.phase with
  | .start => vars = before
  | .consume input => vars = before ∧ before saved = input ∧ input ≠ .null
  | .read => vars = before ∧ before saved = .null
  | .run input rest => input = ownInput env before task.id task.data ∧
    rest.run vars =
      (nodeRun env task.path task.id input).run (Function.update before saved .null)

theorem Progress.straight {before : String → Value} (h : Progress env before task vars)
    (h_step : Branches.Straight (op env) (task, vars) (task', vars')) :
    Progress env before task' vars' ∧ task'.path = task.path ∧ task'.id = task.id ∧
      task'.data = task.data := by
  obtain ⟨path, id, data, phase⟩ := task
  cases h_step with
  | get h_op =>
    cases access_of_op h_op with
    | start =>
      obtain rfl : vars = before := h
      cases h_saved : vars saved with
      | null => exact ⟨⟨rfl, h_saved⟩, rfl, rfl, rfl⟩
      | _ => exact ⟨⟨rfl, h_saved, Value.noConfusion⟩, rfl, rfl, rfl⟩
    | read =>
      obtain ⟨rfl, h_saved⟩ := h
      refine ⟨⟨?_, ?_⟩, rfl, rfl, rfl⟩
      · show _ = ownInput env vars id data
        unfold ownInput
        rw [h_saved]
      · rw [← h_saved, Function.update_eq_self]
    | get => exact ⟨h, rfl, rfl, rfl⟩
  | set h_op =>
    cases access_of_op h_op with
    | consume =>
      obtain ⟨rfl, h_saved, h_some⟩ := h
      refine ⟨⟨?_, rfl⟩, rfl, rfl, rfl⟩
      show _ = ownInput env vars id data
      unfold ownInput
      rw [h_saved]
      split
      next => exact absurd rfl h_some
      next => rfl
    | set => exact ⟨h, rfl, rfl, rfl⟩

end Node

/-! ### A chain -/

section Chain

variable {env : Env} {start : String} {data : List (String × Value)} {init : String → Value}
  {path : List ℕ} {task task' : Task} {vars vars' : String → Value} {input input' : Value}

theorem of_nextTasks {id : String} {i : ℕ} {result : Option (List (String × Value))}
    (h : (nextTasks env path id result)[i]? = some task) :
    ∃ data next, result = some data ∧
      (env.flow.getNextNodes id (outputOf data))[i]? = some next ∧
      task = { path := path ++ [i], id := next, data, phase := .start } := by
  unfold nextTasks at h
  cases result with
  | none => cases h
  | some data =>
    simp only [List.getElem?_map, List.getElem?_zipIdx, Option.map_map,
      Option.map_eq_some_iff, Function.comp_apply, Nat.zero_add] at h
    obtain ⟨next, h_next, rfl⟩ := h
    exact ⟨data, next, rfl, h_next, rfl⟩

theorem of_fork {branches : List Task} {i : ℕ} (h_op : op env task = .fork branches)
    (h : branches[i]? = some task') :
    ∃ input result, task.phase = .run input (.done result) ∧
      branches = nextTasks env task.path task.id result := by
  obtain ⟨path, id, data, phase⟩ := task
  cases access_of_op h_op with
  | unknown => cases h
  | done => exact ⟨_, _, rfl, rfl⟩

theorem progress_of_run {e : Task × (String → Value)} (h : e.1.phase = .start)
    (h_run : ReflTransGen (Branches.Straight (op env)) e (task, vars)) :
    Progress env e.2 task vars ∧ task.path = e.1.path ∧ task.id = e.1.id ∧
      task.data = e.1.data := by
  generalize h_end : (task, vars) = b at h_run
  induction h_run generalizing task vars with
  | refl =>
    obtain rfl := h_end
    refine ⟨?_, rfl, rfl, rfl⟩
    unfold Progress
    rw [h]
  | @tail b c h_run h_step ih =>
    obtain rfl := h_end
    obtain ⟨h_progress, h_path, h_id, h_data⟩ := ih rfl
    obtain ⟨h_next, h_path', h_id', h_data'⟩ := h_progress.straight h_step
    exact ⟨h_next, h_path'.trans h_path, h_id'.trans h_id, h_data'.trans h_data⟩

theorem entered_start {e : Task × (String → Value)}
    (h : Branches.Entered (op env) (first start data) init path e) :
    e.1.path = path ∧ e.1.phase = .start := by
  induction h with
  | start => exact ⟨rfl, rfl⟩
  | @fork p e s vars branches i c h_e h_run h_op h_c ih =>
    obtain ⟨-, h_path, -, -⟩ := progress_of_run ih.2 h_run
    obtain ⟨input, result, -, rfl⟩ := of_fork h_op h_c
    obtain ⟨data, next, -, -, rfl⟩ := of_nextTasks h_c
    exact ⟨by rw [h_path, ih.1], rfl⟩

theorem ownInput_of_progress {before : String → Value} (h : Progress env before task vars)
    (h_received : task.received = some input) :
    input = ownInput env before task.id task.data := by
  obtain ⟨path, id, data, phase⟩ := task
  cases phase with
  | start => cases h_received
  | read => cases h_received
  | consume received =>
    obtain rfl := Option.some.inj h_received
    obtain ⟨-, h_saved, h_some⟩ := h
    show received = ownInput env before id data
    unfold ownInput
    rw [h_saved]
    cases received <;> first | rfl | exact absurd rfl h_some
  | run received rest =>
    obtain rfl := Option.some.inj h_received
    exact h.1

theorem received_unique
    (h : Branches.Alone (op env) (first start data) init path task vars)
    (h' : Branches.Alone (op env) (first start data) init path task' vars')
    (h_received : task.received = some input) (h_received' : task'.received = some input') :
    input' = input := by
  obtain ⟨e, h_e, h_run⟩ := h
  obtain ⟨e', h_e', h_run'⟩ := h'
  obtain rfl := h_e.unique h_e'
  have h_start := (entered_start h_e).2
  obtain ⟨h_progress, -, h_id, h_data⟩ := progress_of_run h_start h_run
  obtain ⟨h_progress', -, h_id', h_data'⟩ := progress_of_run h_start h_run'
  rw [ownInput_of_progress h_progress h_received, ownInput_of_progress h_progress' h_received',
    h_id, h_id', h_data, h_data']

theorem resultName_ne_saved (id : String) : resultName id ≠ saved := by
  intro h
  have h_first := congrArg (fun name => name.toList.head?) h
  rw [resultName, String.toList_append, String.toList_append, List.append_assoc] at h_first
  have h_chars : (some 'n' : Option Char) = some 'i' := h_first
  exact absurd h_chars (by decide)

theorem of_sets_record {id u : String} {result : Option (List (String × Value))}
    (h : (record env id result).Sets u) :
    u = (env.params id).outputParams ∨ u = resultName id := by
  unfold record at h
  cases result with
  | none => exact h.elim
  | some data =>
    obtain ⟨write, h_write, rfl⟩ := Program.sets_setAll.mp h
    obtain h_write | h_write := List.mem_append.mp h_write
    · refine .inl ?_
      unfold outputWrites at h_write
      simp only at h_write
      split at h_write
      · cases h_write
      · split_ifs at h_write
        · cases h_write
        · rw [List.mem_singleton.mp h_write]
    · rw [List.mem_singleton.mp h_write]
      exact .inr rfl

theorem saved_after {id : String} {before : String → Value}
    (h_output : (env.params id).outputParams ≠ saved) :
    ((nodeRun env path id input).run (Function.update before saved .null)).2 saved =
      if env.flow.typeOf id = "intent_classification" then input else .null := by
  rw [nodeRun, Program.run_andThen, Program.run_of_not_sets]
  · unfold execute
    split_ifs
    · show ((env.executor path id input).run _).2 saved = input
      rw [Program.run_of_not_sets (env.not_sets_saved path id input)]
      exact Function.update_self ..
    · rw [Program.run_of_not_sets (env.not_sets_saved path id input)]
      exact Function.update_self ..
  · intro h_sets
    obtain h_eq | h_eq := of_sets_record h_sets
    · exact h_output h_eq.symm
    · exact resultName_ne_saved id h_eq.symm

theorem output_after {id next : String} {result : List (String × Value)}
    {before : String → Value}
    (h_result : ((nodeRun env path id input).run before).1 = some result)
    (h_linked : Linked env id next result) :
    ((nodeRun env path id input).run before).2 (env.params next).inputParams =
      Value.lookup result (env.params id).outputParams := by
  obtain ⟨h_key, h_name, h_output, h_type⟩ := h_linked
  have h_writes : outputWrites env id result =
      [((env.params id).outputParams, Value.lookup result (env.params id).outputParams)] := by
    unfold outputWrites
    simp only [if_neg h_type]
  rw [nodeRun, Program.run_andThen] at h_result ⊢
  -- the result is recorded as the executor has returned it
  cases h_returned : ((execute env path id input).run before).1 with
  | none =>
    rw [h_returned] at h_result
    cases h_result
  | some returned =>
    rw [h_returned] at h_result
    unfold record at h_result ⊢
    rw [Program.run_setAll_fst] at h_result
    obtain rfl := Option.some.inj h_result
    simp only
    rw [h_writes, Program.run_setAll_append, h_key]
    show Function.update _ (resultName id) _ (env.params id).outputParams = _
    rw [Function.update_of_ne h_name]
    exact Function.update_self ..

/-- **From the predecessor.** What an execution receives by itself comes from its predecessor. -/
theorem fromPredecessor
    (h : Branches.Alone (op env) (first start data) init path task vars)
    (h_received : task.received = some input) :
    FromPredecessor env start data init path input := by
  rintro before i rfl
  obtain ⟨e, h_e, h_run⟩ := h
  obtain ⟨h_progress, -, h_id, h_data⟩ := progress_of_run (entered_start h_e).2 h_run
  have h_input := ownInput_of_progress h_progress h_received
  obtain ⟨s, branches, h_alone, h_op, h_c⟩ := h_e.before
  obtain ⟨received, returned, h_phase, rfl⟩ := of_fork h_op h_c
  obtain ⟨result, next, rfl, h_next, h_entry⟩ := of_nextTasks h_c
  -- the predecessor by itself
  obtain ⟨e', h_e', h_run'⟩ := h_alone
  obtain ⟨h_done, -, -, -⟩ := progress_of_run (entered_start h_e').2 h_run'
  unfold Progress at h_done
  rw [h_phase] at h_done
  obtain ⟨-, h_end⟩ := h_done
  have h_result := (congrArg Prod.fst h_end).symm
  have h_vars := congrArg Prod.snd h_end
  refine ⟨s.id, received, result, next, ⟨s, e.2, ⟨e', h_e', h_run'⟩, rfl, h_phase⟩, h_next,
    fun h_output => ?_⟩
  have h_saved := congrFun h_vars saved
  rw [saved_after h_output] at h_saved
  rw [h_id, h_data, h_entry] at h_input
  split_ifs with h_type
  · intro h_some
    rw [if_pos h_type] at h_saved
    rw [h_input, ownInput]
    show (match e.2 saved with | .null => _ | input => input) = received
    rw [show e.2 saved = received from h_saved]
    cases received <;> first | rfl | exact absurd rfl h_some
  · intro h_linked
    rw [if_neg h_type] at h_saved
    have h_own := congrFun h_vars (env.params next).inputParams
    rw [output_after h_result h_linked] at h_own
    have h_saved' : e.2 saved = .null := h_saved
    have h_own' : e.2 (env.params next).inputParams =
      Value.lookup result (env.params s.id).outputParams := h_own
    rw [h_input, ownInput, h_saved']
    simp only
    rw [h_own']
    split
    · rename_i h_null
      exact absurd h_null h_linked.2.2.1
    · rfl

/-- **Separate branches.** If branches are separate, they do not disturb each other. -/
theorem undisturbed (h_separate : Separate env start data init) :
    Undisturbed env start data init := by
  intro paths task h_task input h_received
  obtain ⟨own, h_alone⟩ := Branches.alone_of_run h_separate paths h_task
  refine ⟨fun paths' task' h_task' h_path input' h_received' => ?_,
    ⟨task.2, own, h_alone, rfl, h_received⟩, fromPredecessor h_alone h_received⟩
  obtain ⟨own', h_alone'⟩ := Branches.alone_of_run h_separate paths' h_task'
  rw [h_path] at h_alone'
  exact received_unique h_alone h_alone' h_received h_received'

end Chain

/-! ### Branches that use different variables -/

section Disjoint

def GottenBy (id u : String) : Prop :=
  u = (env.params id).inputParams ∨ ∃ path input, (env.executor path id input).Gets u

def SetBy (id u : String) : Prop :=
  u = (env.params id).outputParams ∨ u = resultName id ∨
    ∃ path input, (env.executor path id input).Sets u

def Parallel (a b : String) : Prop :=
  ∃ id output, ∃ i j : ℕ, ∃ c c', i ≠ j ∧ (env.flow.getNextNodes id output)[i]? = some c ∧
    (env.flow.getNextNodes id output)[j]? = some c' ∧
    ReflTransGen env.flow.Links c a ∧ ReflTransGen env.flow.Links c' b

/-- What remains of an execution gets and sets what the whole does, and it has found no input
saved. -/
def Within (task : Task) : Prop :=
  match task.phase with
  | .start | .read => True
  | .consume _ => False
  | .run _ rest => (∀ u, rest.Gets u → GottenBy env task.id u) ∧
    ∀ u, rest.Sets u → SetBy env task.id u

variable {env} {start : String} {data : List (String × Value)} {init : String → Value}
  {path : List ℕ} {task task' : Task} {vars vars' : String → Value} {input : Value}

theorem links_of_getNextNodes {id c : String} {output : Output} {i : ℕ}
    (h : (env.flow.getNextNodes id output)[i]? = some c) : env.flow.Links id c := by
  obtain ⟨e, h_e, h_target⟩ := List.mem_map.mp (List.mem_of_getElem? h)
  obtain ⟨h_edge, h_keep⟩ := List.mem_filter.mp h_e
  simp only [Bool.and_eq_true, decide_eq_true_eq] at h_keep
  exact ⟨e, h_edge, h_keep.1.1, h_target⟩

theorem links_of_next (h : Branches.Next (op env) task task') :
    ReflTransGen env.flow.Links task.id task'.id := by
  obtain ⟨path, id, data, phase⟩ := task
  cases h with
  | get w h_op =>
    cases access_of_op h_op with
    | start => cases w <;> exact .refl
    | read => exact .refl
    | get => exact .refl
  | set h_op =>
    cases access_of_op h_op with
    | consume => exact .refl
    | set => exact .refl
  | fork h_op h_c =>
    obtain ⟨i, h_i, h_c⟩ := List.getElem_of_mem h_c
    have h_some := (List.getElem?_eq_getElem h_i).trans (congrArg some h_c)
    obtain ⟨input, result, -, rfl⟩ := of_fork h_op h_some
    obtain ⟨result, next, -, h_next, rfl⟩ := of_nextTasks h_some
    exact .single (links_of_getNextNodes h_next)

theorem links_of_nexts (h : ReflTransGen (Branches.Next (op env)) task task') :
    ReflTransGen env.flow.Links task.id task'.id := by
  induction h with
  | refl => exact .refl
  | tail _ h_next ih => exact ih.trans (links_of_next h_next)

theorem parallel_of_apart {path' : List ℕ}
    (h : Branches.Alone (op env) (first start data) init path task vars)
    (h' : Branches.Alone (op env) (first start data) init path' task' vars')
    (h_apart : Branches.Apart path path') : Parallel env task.id task'.id := by
  obtain ⟨r, t, own, branches, i, j, c, c', -, h_op, h_ne, h_c, h_c', h_down, h_down'⟩ :=
    h.exists_fork h' h_apart
  obtain ⟨input, result, -, rfl⟩ := of_fork h_op h_c
  obtain ⟨output, next, rfl, h_next, rfl⟩ := of_nextTasks h_c
  obtain ⟨_, next', h_eq, h_next', rfl⟩ := of_nextTasks h_c'
  obtain rfl := Option.some.inj h_eq
  exact ⟨t.id, outputOf output, i, j, next, next', h_ne, h_next, h_next', links_of_nexts h_down,
    links_of_nexts h_down'⟩

section Unsaved

variable (h_intent : ∀ id, env.flow.typeOf id ≠ "intent_classification")
  (h_output : ∀ id, (env.params id).outputParams ≠ saved)

include h_intent in
theorem within_nodeRun {id : String} :
    (∀ u, (nodeRun env path id input).Gets u → GottenBy env id u) ∧
      ∀ u, (nodeRun env path id input).Sets u → SetBy env id u := by
  unfold nodeRun execute
  rw [if_neg (h_intent id)]
  refine ⟨fun u h_gets => ?_, fun u h_sets => ?_⟩
  · obtain h_gets | ⟨result, h_gets⟩ := Program.gets_andThen h_gets
    · exact .inr ⟨path, input, h_gets⟩
    · unfold record at h_gets
      cases result with
      | none => exact h_gets.elim
      | some data => exact absurd h_gets Program.not_gets_setAll
  · obtain h_sets | ⟨result, h_sets⟩ := Program.sets_andThen h_sets
    · exact .inr (.inr ⟨path, input, h_sets⟩)
    · exact (of_sets_record h_sets).imp_right .inl

include h_output in
theorem not_setBy_saved (id : String) : ¬SetBy env id saved := by
  rintro (h_eq | h_eq | ⟨path, input, h_sets⟩)
  · exact h_output id h_eq.symm
  · exact resultName_ne_saved id h_eq.symm
  · exact env.not_sets_saved path id input h_sets

include h_intent h_output in
theorem within_straight (h_within : Within env task) (h_saved : vars saved = .null)
    (h_step : Branches.Straight (op env) (task, vars) (task', vars')) :
    Within env task' ∧ vars' saved = .null := by
  obtain ⟨path, id, data, phase⟩ := task
  cases h_step with
  | get h_op =>
    cases access_of_op h_op with
    | start =>
      refine ⟨?_, h_saved⟩
      rw [h_saved]
      exact trivial
    | read => exact ⟨within_nodeRun h_intent, h_saved⟩
    | get =>
      exact ⟨⟨fun v h_gets => h_within.1 v (.inr ⟨_, h_gets⟩),
        fun v h_sets => h_within.2 v ⟨_, h_sets⟩⟩, h_saved⟩
  | set h_op =>
    cases access_of_op h_op with
    | consume => exact h_within.elim
    | set =>
      refine ⟨⟨h_within.1, fun v h_sets => h_within.2 v (.inr h_sets)⟩, ?_⟩
      rw [Function.update_of_ne, h_saved]
      rintro rfl
      exact not_setBy_saved h_output id (h_within.2 saved (.inl rfl))

include h_intent h_output in
theorem within_straights {e b : Task × (String → Value)} (h_within : Within env e.1)
    (h_saved : e.2 saved = .null) (h_run : ReflTransGen (Branches.Straight (op env)) e b) :
    Within env b.1 ∧ b.2 saved = .null := by
  induction h_run with
  | refl => exact ⟨h_within, h_saved⟩
  | tail _ h_step ih => exact within_straight h_intent h_output ih.1 ih.2 h_step

include h_intent h_output in
theorem within_alone (h_init : init saved = .null)
    (h : Branches.Alone (op env) (first start data) init path task vars) :
    Within env task ∧ vars saved = .null := by
  obtain ⟨e, h_e, h_run⟩ := h
  have h_start : Within env e.1 ∧ e.2 saved = .null := by
    clear h_run
    induction h_e with
    | start => exact ⟨trivial, h_init⟩
    | fork h_e h_run h_op h_c ih =>
      obtain ⟨input, result, -, rfl⟩ := of_fork h_op h_c
      obtain ⟨output, next, -, -, rfl⟩ := of_nextTasks h_c
      exact ⟨trivial, (within_straights h_intent h_output ih.1 ih.2 h_run).2⟩
  exact within_straights h_intent h_output h_start.1 h_start.2 h_run

end Unsaved

theorem separate_of_disjoint (h_init : init saved = .null)
    (h_intent : ∀ id, env.flow.typeOf id ≠ "intent_classification")
    (h_output : ∀ id, (env.params id).outputParams ≠ saved)
    (h : ∀ a b u, Parallel env a b → GottenBy env a u → ¬SetBy env b u) :
    Separate env start data init := by
  intro p s vars u next h_alone h_get q s' vars' w next' h_alone' h_set h_apart
  obtain ⟨h_within, -⟩ := within_alone h_intent h_output h_init h_alone
  obtain ⟨h_within', -⟩ := within_alone h_intent h_output h_init h_alone'
  have h_parallel := parallel_of_apart h_alone h_alone' h_apart
  -- what the other execution sets is a variable of its node
  have h_sets : SetBy env s'.id u := by
    obtain ⟨path, id, data, phase⟩ := s'
    cases access_of_op h_set with
    | consume => exact h_within'.elim
    | set => exact h_within'.2 _ (.inl rfl)
  refine absurd h_sets ?_
  obtain ⟨path, id, data, phase⟩ := s
  cases access_of_op h_get with
  | start => exact not_setBy_saved h_output s'.id
  | read => exact h id s'.id _ h_parallel (.inl rfl)
  | get => exact h id s'.id _ h_parallel (h_within.1 _ (.inl rfl))

end Disjoint

/-! ### A fan-out -/

def fanOut : Flow where
  nodes := [⟨"start", "start"⟩, ⟨"left", "agents"⟩, ⟨"right", "agents"⟩]
  edges := [{ source := "start", target := "left" }, { source := "start", target := "right" }]

def answering (params : String → Params) : Env where
  flow := fanOut
  params := params
  executor _ id _ := .done (some [((params id).outputParams, .str id)])
  not_sets_saved _ _ _ := False.elim

def ownOutputs : Env := answering fun id =>
  { outputParams :=
      if id = "left" then "left_answer" else if id = "right" then "right_answer"
      else "last_message" }

theorem typeOf_fanOut_ne (id : String) : fanOut.typeOf id ≠ "intent_classification" := by
  unfold Flow.typeOf
  cases h_node : fanOut.getNodeById id with
  | none => decide
  | some node =>
    have h_mem : node ∈ fanOut.nodes := List.mem_reverse.mp (List.mem_of_find?_eq_some h_node)
    have h_types : ∀ node ∈ fanOut.nodes, node.type ≠ "intent_classification" := by decide
    exact h_types node h_mem

theorem mem_of_links {a b : String} (h : fanOut.Links a b) :
    a = "start" ∧ b ∈ ["left", "right"] := by
  obtain ⟨e, h_e, rfl, rfl⟩ := h
  revert e
  decide

theorem mem_of_descends {a b : String} (h : ReflTransGen fanOut.Links a b)
    (h_a : a ∈ ["left", "right"]) : b ∈ ["left", "right"] := by
  obtain rfl | ⟨c, -, h_c⟩ := h.cases_tail
  · exact h_a
  · exact (mem_of_links h_c).2

/-- **Own variables.** Branches that set variables of their own do not disturb each other. -/
theorem undisturbed_ownOutputs : Undisturbed ownOutputs "start" [] fun _ => .null := by
  refine undisturbed (separate_of_disjoint rfl typeOf_fanOut_ne ?_ ?_)
  · intro id
    show (if id = "left" then _ else if id = "right" then _ else _) ≠ saved
    split_ifs <;> decide
  · rintro a b u ⟨id, output, i, j, c, c', -, -, h_c', -, h_b⟩ h_gets h_sets
    have h_right := mem_of_descends h_b (mem_of_links (links_of_getNextNodes h_c')).2
    obtain rfl | ⟨_, _, h_gets⟩ := h_gets
    · have h_free : ∀ b ∈ ["left", "right"],
          "last_message" ≠ (ownOutputs.params b).outputParams ∧ "last_message" ≠ resultName b := by
        decide
      obtain h_eq | h_eq | ⟨_, _, h_sets⟩ := h_sets
      · exact (h_free b h_right).1 h_eq
      · exact (h_free b h_right).2 h_eq
      · exact h_sets
    · exact h_gets

def rightReceived (text : String) (task : List ℕ × Task) : Bool :=
  task.1 = [1] &&
    match task.2.received with
    | some (.str input) => input = text
    | _ => false

theorem of_rightReceived {text : String} {task : List ℕ × Task}
    (h : rightReceived text task = true) :
    task.1 = [1] ∧ task.2.received = some (.str text) := by
  unfold rightReceived at h
  rw [Bool.and_eq_true, decide_eq_true_eq] at h
  obtain ⟨h_path, h_text⟩ := h
  split at h_text
  · rename_i input h_received
    rw [decide_eq_true_eq] at h_text
    exact ⟨h_path, h_text ▸ h_received⟩
  · cases h_text

/-- **The defect.** The right node receives the answer of the left one. -/
theorem not_undisturbed_fanOut : fanOut.validateFlow = [] ∧
    ¬Undisturbed (answering fun _ => {}) "start" [] fun _ => .null := by
  refine ⟨by decide +kernel, fun h => ?_⟩
  have h_first : (tasks (answering fun _ => {}) "start" [] (fun _ => .null)
      [[], [], [], [], [], [1], [1]]).any (rightReceived "start") = true := by
    decide +kernel
  have h_last : (tasks (answering fun _ => {}) "start" [] (fun _ => .null)
      [[], [], [], [], [], [0], [0], [0], [1], [1]]).any (rightReceived "left") = true := by
    decide +kernel
  obtain ⟨task, h_task, h_start⟩ := List.any_eq_true.mp h_first
  obtain ⟨task', h_task', h_left⟩ := List.any_eq_true.mp h_last
  obtain ⟨h_path, h_start⟩ := of_rightReceived h_start
  obtain ⟨h_path', h_left⟩ := of_rightReceived h_left
  have h_same := (h _ task h_task _ h_start).1 _ task' h_task' (h_path'.trans h_path.symm) _ h_left
  exact absurd (Value.str.inj h_same) (by decide)

end SharedVariables
end OpsPilot
