import BkLite.Framework.Table
import BkLite.NodeMgmt.Heartbeats

/-!
# The action tasks of collectors

`batch_operate_node_collector` makes a task with one row for each node, and puts an item into the
`Action` row of each node. A heartbeat stores the report of the node, takes the items to its
response and acknowledges them in the rows of the tasks. A worker that converges a node closes its
running rows by the last report of the node, and one that times a task out closes what is left of
it; both save the rows they have read, one after the other, and then count the rows of the tasks
they have touched anew and write status and counters of the tasks.

Every access to the database is a step of its own; only the task and its rows are created in one, as
nothing refers to them before. What the rows and tasks say of their steps (`result`) is left out.
When a report came in, when an item was delivered and by which report a row was closed is written
down for the statements; nothing in the model reads it.
-/

namespace NodeMgmt.ActionTasks

open Heartbeats (ActionItem)

/-! ### Rows -/

/-- `CollectorActionTaskNode.status`. -/
inductive NodeStatus
  | waiting
  | running
  | success
  | error
deriving DecidableEq

def NodeStatus.Closed : NodeStatus → Prop
  | .success => True
  | .error => True
  | _ => False

instance : DecidablePred NodeStatus.Closed
  | .waiting => isFalse id
  | .running => isFalse id
  | .success => isTrue trivial
  | .error => isTrue trivial

/-- `CollectorActionTask.status`. -/
inductive TaskStatus
  | waiting
  | running
  | finished
deriving DecidableEq

/-- A row of `CollectorActionTaskNode`. -/
structure TaskNode where
  taskId : ℕ
  nodeId : String
  status : NodeStatus
  deliveredAt : Option ℕ := none
  evidence : Option ℕ := none
deriving DecidableEq

/-- A row of `CollectorActionTask`. -/
structure ActionTask where
  collectorId : String
  action : String
  status : TaskStatus
  totalCount : ℕ
  successCount : ℕ := 0
  errorCount : ℕ := 0
deriving DecidableEq

/-- An entry of `status["collectors"]`. -/
structure CollectorItem where
  collectorId : Option String
  status : Option ℤ

/-- The database: the rows of the tasks, the last report of each node with the time it came in, and
the actions of each node. -/
structure World where
  taskNodes : List TaskNode := []
  tasks : Table ℕ ActionTask := ∅
  nextTaskId : ℕ := 1
  reports : Table String (List CollectorItem × ℕ) := ∅
  actions : String → Heartbeats.Db := fun _ => ⟨[], 0, []⟩
  clock : ℕ := 0

@[ext] structure Stats where
  success : ℕ
  error : ℕ
  pending : ℕ
deriving DecidableEq

/-- The statistics of `_reconcile_collector_action_tasks` for one task. -/
def stats (rows : List TaskNode) (t : ℕ) : Stats where
  success := rows.countP fun r => r.taskId = t && r.status = .success
  error := rows.countP fun r => r.taskId = t && r.status = .error
  pending := rows.countP fun r => r.taskId = t && (r.status = .waiting || r.status = .running)

/-! ### Reports -/

/-- `_is_expected_status`, with `none` for `"running"`. -/
def isExpectedStatus (action : String) (collectorStatus : ℤ) : Option NodeStatus :=
  if collectorStatus = 2 then some .error
  else if action ∈ ["start", "restart"] ∧ collectorStatus = 0 then some .success
  else if action = "stop" ∧ collectorStatus ∈ [3, 4] then some .success
  else none

def verdict (report : List CollectorItem) (task : ActionTask) : Option NodeStatus := do
  let item ← report.reverse.find? fun c => c.collectorId = some task.collectorId
  let collectorStatus ← item.status
  isExpectedStatus task.action collectorStatus

/-- The running rows of the node that are to be closed by the report, by their tasks. -/
def verdicts (w : World) (nodeId : String) (report : List CollectorItem) :
    List (ℕ × NodeStatus) :=
  (w.taskNodes.filter fun r => r.nodeId = nodeId && r.status = .running).filterMap fun r => do
    let task ← w.tasks.lookup r.taskId
    let status ← verdict report task
    return (r.taskId, status)

/-! ### The parties -/

inductive Party
  -- `update_node_client`
  | heartbeat (nodeId : String) (report : List CollectorItem) (arrived : ℕ)
  | reported (nodeId : String)
  | acking (nodeId : String) (id : ℕ) (items rest : List ActionItem)
  | acked (nodeId : String) (id : ℕ) (items : List ActionItem) (item : ActionItem)
    (rest : List ActionItem) (status : Option NodeStatus)
  | responding (nodeId : String) (items : List ActionItem)
  -- `converge_collector_action_task_for_node`
  | converge (nodeId : String)
  | judging (nodeId : String) (report : List CollectorItem) (arrived : ℕ)
  | converging (nodeId : String) (arrived : ℕ) (rest : List (ℕ × NodeStatus)) (affected : List ℕ)
  -- `timeout_collector_action_task`
  | timeout (t : ℕ)
  | timedOut (t : ℕ)
  | timingOut (t : ℕ) (nodeIds : List String)
  -- `_reconcile_collector_action_tasks`
  | reconciling (ts : List ℕ)
  | marking (items : List (ℕ × Stats))
  | finishing (items : List (ℕ × Stats))
  | counting (items : List (ℕ × Stats))
  -- `batch_operate_node_collector`
  | operate (nodeIds : List String) (collectorId operation : String)
  | created (item : ActionItem)
  | submitting (item : ActionItem) (copies : List (String × NodeStatus))
  | absent (item : ActionItem) (nodeId : String) (status : NodeStatus)
    (copies : List (String × NodeStatus))
  | held (item : ActionItem) (nodeId : String) (status : NodeStatus)
    (copies : List (String × NodeStatus)) (id : ℕ) (action : List ActionItem)
  | submitted (item : ActionItem) (nodeId : String) (status : NodeStatus)
    (copies : List (String × NodeStatus))
  | finished
  | failed

namespace World

def saveRow (w : World) (t : ℕ) (nodeId : String) (f : TaskNode → TaskNode) : World :=
  { w with taskNodes := w.taskNodes.map fun r =>
      if r.taskId = t ∧ r.nodeId = nodeId then f r else r }

def deliver (w : World) (nodeId : String) (items : List ActionItem) : World :=
  { w with taskNodes := w.taskNodes.map fun r =>
      if r.nodeId = nodeId ∧ r.taskId ∈ items.map (·.taskId) ∧ r.deliveredAt = none then
        { r with deliveredAt := some w.clock }
      else r }

def setActions (w : World) (nodeId : String) (f : Heartbeats.Db → Heartbeats.Db) : World :=
  { w with actions := Function.update w.actions nodeId (f (w.actions nodeId)) }

def create (w : World) (nodeIds : List String) (collectorId operation : String) : World :=
  { w with
    tasks := w.tasks.insert w.nextTaskId
      { collectorId, action := operation, status := .waiting, totalCount := nodeIds.length }
    taskNodes := w.taskNodes ++ nodeIds.map fun nodeId =>
      { taskId := w.nextTaskId, nodeId, status := .waiting }
    nextTaskId := w.nextTaskId + 1 }

def markTasks (w : World) (items : List (ℕ × Stats)) (p : Stats → Bool) (status : TaskStatus) :
    World :=
  { w with tasks := w.tasks.mapRows fun t task =>
      if (items.lookup t).any p = true then { task with status } else task }

/-- `update(success_count=…, error_count=…)`. -/
def setCounts (w : World) (t : ℕ) (counts : Stats) : World :=
  { w with tasks := Table.modify w.tasks t fun task =>
      { task with successCount := counts.success, errorCount := counts.error } }

end World

/-- `filter(status="waiting").update(status="running")`. -/
def ActionTask.begin (task : ActionTask) : ActionTask :=
  if task.status = .waiting then { task with status := .running } else task

def TaskNode.conclude (status : NodeStatus) (arrived : ℕ) (r : TaskNode) : TaskNode :=
  { r with status, evidence := if status = .success then some arrived else r.evidence }

def TaskNode.setStatus (status : NodeStatus) (r : TaskNode) : TaskNode := { r with status }

def write (w : World) : Party → World
  | .heartbeat nodeId report arrived =>
    { w with reports := w.reports.insert nodeId (report, arrived) }
  | .acking nodeId id _ [] => w.setActions nodeId (·.delete id)
  | .acked nodeId _ _ item _ (some .waiting) =>
    w.saveRow item.taskId nodeId (TaskNode.setStatus .running)
  | .acked _ _ _ item _ (some .running) =>
    { w with tasks := Table.modify w.tasks item.taskId ActionTask.begin }
  | .responding nodeId items => w.deliver nodeId items
  | .converging nodeId arrived ((t, status) :: _) _ =>
    w.saveRow t nodeId (TaskNode.conclude status arrived)
  | .timingOut t (nodeId :: _) => w.saveRow t nodeId (TaskNode.setStatus .error)
  | .marking items => w.markTasks items (fun counts => decide (0 < counts.pending)) .running
  | .finishing items =>
    -- a task without rows has no statistics
    w.markTasks items (fun counts => counts.pending = 0 && 0 < counts.success + counts.error)
      .finished
  | .counting ((t, counts) :: _) => w.setCounts t counts
  | .operate (nodeId :: nodeIds) collectorId operation =>
    w.create (nodeId :: nodeIds) collectorId operation
  | .absent _ nodeId _ _ => w.setActions nodeId Heartbeats.Db.create
  | .held item nodeId _ _ id action => w.setActions nodeId (·.save id (action ++ [item]))
  | .submitted item nodeId .waiting _ =>
    w.saveRow item.taskId nodeId (TaskNode.setStatus .running)
  | _ => w

def next (w : World) : Party → Party
  | .heartbeat nodeId _ _ => .reported nodeId
  | .reported nodeId =>
    match (w.actions nodeId).actions.head? with
    | none => .responding nodeId []
    | some (id, items) => .acking nodeId id items items
  | .acking nodeId id items (item :: rest) =>
    if item.taskId = 0 then .acking nodeId id items rest
    else .acked nodeId id items item rest ((w.taskNodes.find? fun r =>
      r.taskId = item.taskId && r.nodeId = nodeId).map (·.status))
  | .acking nodeId _ items [] => .responding nodeId items
  | .acked nodeId id items _ rest _ => .acking nodeId id items rest
  | .responding _ _ => .finished
  | .converge nodeId =>
    match w.reports.lookup nodeId with
    | none => .finished
    | some ([], _) => .finished
    | some (report, arrived) => .judging nodeId report arrived
  | .judging nodeId report arrived => .converging nodeId arrived (verdicts w nodeId report) []
  | .converging nodeId arrived ((t, _) :: rest) affected =>
    .converging nodeId arrived rest (affected ++ [t])
  | .converging _ _ [] affected => .reconciling affected
  | .timeout t =>
    match w.tasks.lookup t with
    | none => .finished
    | some task => if task.status = .finished then .finished else .timedOut t
  | .timedOut t =>
    .timingOut t ((w.taskNodes.filter fun r =>
      r.taskId = t && (r.status = .waiting || r.status = .running)).map (·.nodeId))
  | .timingOut t (_ :: nodeIds) => .timingOut t nodeIds
  | .timingOut t [] => .reconciling [t]
  | .reconciling ts => .marking (ts.dedup.map fun t => (t, stats w.taskNodes t))
  | .marking items => .finishing items
  | .finishing items => .counting items
  | .counting (_ :: items) => .counting items
  | .operate [] _ _ => .failed
  | .operate (_ :: _) collectorId operation => .created ⟨collectorId, operation, w.nextTaskId⟩
  | .created item =>
    .submitting item ((w.taskNodes.filter (·.taskId = item.taskId)).map fun r =>
      (r.nodeId, r.status))
  | .submitting item ((nodeId, status) :: copies) =>
    match (w.actions nodeId).actions with
    | [] => .absent item nodeId status copies
    | [(id, action)] => .held item nodeId status copies id action
    | _ => .failed
  | .submitting _ [] => .finished
  | .absent item nodeId status copies =>
    .held item nodeId status copies (w.actions nodeId).nextId []
  | .held item nodeId status copies _ _ => .submitted item nodeId status copies
  | .submitted item _ _ copies => .submitting item copies
  | p => p

structure State where
  world : World := {}
  parties : List Party := []

inductive Action
  | heartbeat (nodeId : String) (report : List CollectorItem)
  | converge (nodeId : String)
  | timeout (t : ℕ)
  | operate (nodeIds : List String) (collectorId operation : String)
  | serve (i : ℕ)

/-- One step. A heartbeat comes in when it is made; the ids of an operation select nodes, each
once. -/
def step (s : State) (a : Action) : State :=
  let s' : State :=
    match a with
    | .heartbeat nodeId report =>
      { s with parties := s.parties ++ [.heartbeat nodeId report s.world.clock] }
    | .converge nodeId => { s with parties := s.parties ++ [.converge nodeId] }
    | .timeout t => { s with parties := s.parties ++ [.timeout t] }
    | .operate nodeIds collectorId operation =>
      { s with parties := s.parties ++ [.operate nodeIds.dedup collectorId operation] }
    | .serve i =>
      match s.parties[i]? with
      | none => s
      | some p => ⟨write s.world p, s.parties.set i (next s.world p)⟩
  { s' with world := { s'.world with clock := s.world.clock + 1 } }

end NodeMgmt.ActionTasks
