import BkLite.Framework.Batches
import BkLite.Framework.Tasks
import Mathlib.Data.List.Perm.Basic

/-!
# Job executions

One row of `JobExecution` and the tasks that work on it, one access to the row at a time: the worker
task of the job (`services/script_execution_runner.py`, `services/playbook_execution.py`,
`services/file_distribution_runner.py` over `services/execution_base_service.py`), the two cancel
requests (`views/execution.py`, `nats_api.py`), the callback of the Ansible executor
(`nats_api.py`) and the fallback of a cancellation (`tasks.py`).

What the row holds besides its status, its results and its counts is fixed for an execution (`Job`).
The checks of commands and paths, the rows of the targets, the executors and the order in which the
threads of a batch work are asked for. Time stamps, logs and the live stream are left out.
-/

namespace JobMgmt

open Tasks

/-! ### The row -/

/-- `ExecutionStatus`. -/
inductive Status
  | pending
  | running
  | success
  | failed
  | timeout
  | cancelling
  | cancelled
deriving DecidableEq, Repr

namespace Status

/-- `TERMINAL_STATES`. -/
def Terminal (status : Status) : Prop := status ∈ [success, failed, timeout, cancelled]

instance (status : Status) : Decidable status.Terminal := inferInstanceAs (Decidable (_ ∈ _))

/-- `status in (CANCELLING, CANCELLED)`: a cancel request has been accepted. -/
def Cancels (status : Status) : Prop := status ∈ [cancelling, cancelled]

instance (status : Status) : Decidable status.Cancels := inferInstanceAs (Decidable (_ ∈ _))

end Status

/-- An element of `target_list`. A missing or empty `node_id` is `""`, a missing `target_id`
none. -/
structure Target where
  nodeId : String
  targetId : Option String
  name : String
  ip : String
deriving DecidableEq, Repr

/-- `str(t.get("target_id", ""))`. -/
def Target.id (t : Target) : String := t.targetId.getD ""

/-- `t.get("node_id") or str(t.get("target_id", ""))`. -/
def Target.key (t : Target) : String := if t.nodeId ≠ "" then t.nodeId else t.id

/-- An element of `execution_results`. -/
structure Result where
  targetKey : String
  name : String
  ip : String
  status : Status
  errorMessage : String
deriving DecidableEq, Repr

structure Row where
  status : Status
  executionResults : List Result
  successCount : ℕ
  failedCount : ℕ
deriving DecidableEq, Repr

/-- `sum(1 for r in results if r.get("status") == SUCCESS)`. -/
def successCount (results : List Result) : ℕ := results.countP (·.status = .success)

/-- `sum(1 for r in results if r.get("status") in (FAILED, TIMEOUT))`. -/
def failedCount (results : List Result) : ℕ :=
  results.countP fun r => r.status = .failed ∨ r.status = .timeout

inductive Check
  | target
  | batch (left : ℕ)
  | submission
deriving DecidableEq, Repr

inductive Op
  | get
  | isCancelled (check : Check)
  | touch
  | saveStatus (status : Status)
  | saveResults (results : List Result)
  | updateCounts
  | saveFigures (results : List Result)
  | saveAll (status : Status) (results : List Result) (successCount failedCount : ℕ)
  | compareAndSet (expected status : Status)
deriving DecidableEq, Repr

/-- The row after an access. Only `compareAndSet` looks at the status it changes. -/
def Op.apply (row : Row) : Op → Row
  | .get => row
  | .isCancelled _ => row
  | .touch => row
  | .saveStatus status => { row with status := status }
  | .saveResults results => { row with executionResults := results }
  | .updateCounts =>
    { row with
      successCount := JobMgmt.successCount row.executionResults
      failedCount := JobMgmt.failedCount row.executionResults }
  | .saveFigures results =>
    { row with
      executionResults := results
      successCount := JobMgmt.successCount results
      failedCount := JobMgmt.failedCount results }
  | .saveAll status results successCount failedCount =>
    ⟨status, results, successCount, failedCount⟩
  | .compareAndSet expected status =>
    if row.status = expected then { row with status := status } else row

/-! ### The job and the world outside -/

inductive JobType
  | script
  | fileDistribution
  | playbook
deriving DecidableEq, Repr

inductive TargetSource
  | sync
  | manual
  | nodeMgmt
deriving DecidableEq, Repr

inductive CallbackType
  | web
  | nats
  | both
deriving DecidableEq, Repr

/-- What is fixed for an execution; `""` is no callback url or subject. `maxWorkers` and
`normalizeExecutorError` belong to the module. -/
structure Job where
  jobType : JobType
  targetSource : TargetSource
  targetList : List Target
  totalCount : ℕ
  files : List String
  callbackType : CallbackType
  callbackUrl : String
  callbackSubject : String
  maxWorkers : ℕ
  normalizeExecutorError : String → String

inductive Question
  | checkCommand
  | checkPath
  | windows
  | ansible
  | playbook
  | arrange
  | execute (target : Target)
  | distribute (target : Target) (file : String)
  | prepare
  | submit
deriving DecidableEq, Repr

/-- An answer; a question reads the parts that it is about: the names of the forbidden rules, yes or
no, the exception raised, an order, what came of a target. -/
structure Answer where
  forbidden : List String
  holds : Bool
  error : Option String
  order : List ℕ
  outcome : Status
  errorMessage : String

structure Payload where
  status : Status
  totalCount : ℕ
  successCount : ℕ
  failedCount : ℕ
deriving DecidableEq, Repr

/-- What is put into a queue: `do_callback_task`, `do_nats_callback_task` and
`finalize_cancelling_execution`. -/
inductive Message
  | web (url : String) (payload : Payload)
  | nats (subject : String) (payload : Payload) (results : List Result)
  | finalizeCancelling
deriving DecidableEq, Repr

abbrev Work := Task Op Row Question Answer Message

def arrange {α : Type} (order : List ℕ) (xs : List α) : List α :=
  if order.Perm (List.range xs.length) then order.filterMap (xs[·]?) else xs

theorem filterMap_range {α : Type} (xs : List α) :
    (List.range xs.length).filterMap (xs[·]?) = xs := by
  induction xs with
  | nil => rfl
  | cons x xs ih =>
    rw [List.length_cons, List.range_succ_eq_map, List.filterMap_cons_some (b := x) (by simp),
      List.filterMap_map]
    exact congrArg (x :: ·) ih

theorem arrange_perm {α : Type} {order : List ℕ} {xs : List α} : (arrange order xs).Perm xs := by
  rw [arrange]
  split_ifs with h
  · have h_all := h.filterMap (xs[·]?)
    rwa [filterMap_range] at h_all
  · exact List.Perm.refl xs

/-! ### Callbacks -/

section Tasks

variable (job : Job)

def Job.payload (row : Row) : Payload :=
  ⟨row.status, job.totalCount, row.successCount, row.failedCount⟩

def sendNatsCallback (execution : Row) : Work :=
  if job.callbackSubject = "" then .done
  else .send (.nats job.callbackSubject (job.payload execution) execution.executionResults) .done

/-- `send_callback`: the web channel first, then the other one. -/
def sendCallback (execution : Row) : Work :=
  let nats : Work := if job.callbackType = .web then .done else sendNatsCallback job execution
  if job.callbackType = .nats ∨ job.callbackUrl = "" then nats
  else .send (.web job.callbackUrl (job.payload execution)) nats

/-! ### The worker task -/

def prepareExecution (next : Work) : Work :=
  .access .get fun execution =>
    if execution.status.Cancels then .done
    else .access (.saveStatus .running) fun _ =>
      if job.targetList = [] then .access (.saveStatus .success) fun _ => .done
      else next

def buildTargetFailedResult (errorMessage : String) (t : Target) : Result :=
  ⟨t.key, t.name, t.ip, .failed, errorMessage⟩

/-- `FAILED` first, and then a failed entry for each target. -/
def failTargets (errorMessage : String) : Work :=
  .access (.saveStatus .failed) fun _ =>
    .access (.saveResults (job.targetList.map (buildTargetFailedResult errorMessage))) fun _ => .done

def finalizeExecution (results : List Result) : Work :=
  .access (.saveResults results) fun _ =>
    .access .get fun execution =>
      if execution.status.Cancels then
        .access .updateCounts fun _ =>
          .access (.saveStatus .cancelled) fun _ => .access .get (sendCallback job)
      else
        .access .updateCounts fun locked =>
          .access (.saveStatus
              (if failedCount locked.executionResults > 0 then .failed else .success)) fun _ =>
            .access .get (sendCallback job)

def runBatch (work : Target → (Result → Work) → Work) :
    List Target → List Result → (List Result → Work) → Work
  | [], results, next => next results
  | t :: ts, results, next => work t fun result => runBatch work ts (results ++ [result]) next

def runBatches (work : Target → (Result → Work) → Work) :
    List (List Target) → List Result → Work
  | [], results => finalizeExecution job results
  | batch :: batches, results =>
    .ask .arrange fun looking =>
      runBatch work (arrange looking.order batch) [] fun ended =>
        .ask .arrange fun completed =>
          .access (.isCancelled (.batch batches.flatten.length)) fun execution =>
            let results := results ++ arrange completed.order ended
            if execution.status.Cancels then finalizeExecution job results
            else runBatches work batches results

/-- `target_list[batch_start : batch_start + workers]`, with `min(MAX_WORKERS, len(..)) or 1`. -/
def Job.batches : List (List Target) :=
  Batches.chunks (max 1 (min job.maxWorkers job.targetList.length)) job.targetList

def executeScriptOnTarget (t : Target) (next : Result → Work) : Work :=
  .access (.isCancelled .target) fun execution =>
    if execution.status.Cancels then next ⟨t.key, t.name, t.ip, .cancelled, "任务已取消，跳过执行"⟩
    else .ask (.execute t) fun answer =>
      let status := if answer.outcome = .success ∨ answer.outcome = .timeout then answer.outcome
        else .failed
      next ⟨t.key, t.name, t.ip, status, answer.errorMessage⟩

/-- `_should_use_ansible`: a manual target decides, the first one with an id. -/
def shouldUseAnsible (next : Bool → Work) : Work :=
  if job.targetSource = .manual ∧ ∃ t ∈ job.targetList, t.targetId.isSome then
    .ask .ansible fun answer => next answer.holds
  else next false

/-- `_run_via_ansible_if_needed` after its first check, with the sidecar. -/
def runViaAnsibleOrSidecar : Work :=
  shouldUseAnsible job fun ansible =>
    if ansible then
      .ask .submit fun answer =>
        match answer.error with
        | some e => failTargets job ("Ansible 执行失败: " ++ e)
        | none => .done
    else runBatches job executeScriptOnTarget job.batches []

/-- `ScriptExecutionRunner.run`. -/
def runScript : Work :=
  prepareExecution job <|
    .ask .checkCommand fun check =>
      if check.forbidden ≠ [] then
        failTargets job ("检测到高危命令，禁止执行: " ++ ", ".intercalate check.forbidden)
      else if job.targetSource = .manual then
        .ask .windows fun windows =>
          if windows.holds then
            shouldUseAnsible job fun ansible =>
              if ansible then runViaAnsibleOrSidecar job
              else failTargets job "Windows 手动目标仅支持 Ansible/WinRM 执行，请将驱动切换为 Ansible"
          else runViaAnsibleOrSidecar job
      else runViaAnsibleOrSidecar job

/-- `PlaybookExecution._run_via_ansible`. -/
def runPlaybookViaAnsible : Work :=
  .access (.isCancelled .submission) fun execution =>
    if execution.status.Cancels then .access .touch fun _ => .done
    else .ask .prepare fun prepared =>
      match prepared.error with
      | some e => failTargets job ("Ansible Playbook 执行失败: " ++ e)
      | none =>
        .access (.isCancelled .submission) fun execution =>
          if execution.status.Cancels then
            failTargets job "Ansible Playbook 执行失败: 任务已取消，中止 Playbook 提交"
          else .ask .submit fun answer =>
            match answer.error with
            | some e => failTargets job ("Ansible Playbook 执行失败: " ++ e)
            | none => .done

/-- `PlaybookExecution.run`. -/
def runPlaybook : Work :=
  prepareExecution job <|
    .ask .playbook fun playbook =>
      if playbook.holds then
        shouldUseAnsible job fun ansible =>
          if ansible then runPlaybookViaAnsible job
          else
            .access (.saveResults (job.targetList.map
                (buildTargetFailedResult "Playbook 执行仅支持 Ansible 驱动的目标管理主机"))) fun _ =>
              .access (.saveStatus .failed) fun _ => .done
      else .access (.saveStatus .failed) fun _ => .done

def distributeFiles (t : Target) (next : Result → Work) : List String → List String → Work
  | [], errors =>
    let errorMessage := if errors = [] then ""
      else job.normalizeExecutorError ("\n".intercalate errors)
    next ⟨t.key, t.name, t.ip, if errors = [] then .success else .failed, errorMessage⟩
  | file :: files, errors =>
    .access (.isCancelled .target) fun execution =>
      if execution.status.Cancels then
        next ⟨t.key, t.name, t.ip, .cancelled, "任务已取消，跳过剩余文件分发"⟩
      else .ask (.distribute t file) fun answer =>
        distributeFiles t next files
          (match answer.error with
          | some e => errors ++ [file ++ ": " ++ e]
          | none => errors)

def distributeFileToTarget (t : Target) (next : Result → Work) : Work :=
  .access (.isCancelled .target) fun execution =>
    if execution.status.Cancels then next ⟨t.key, t.name, t.ip, .cancelled, "任务已取消，跳过分发"⟩
    else distributeFiles job t next job.files []

/-- `FileDistributionRunner.run`. -/
def runFileDistribution : Work :=
  prepareExecution job <|
    .ask .checkPath fun check =>
      if check.forbidden ≠ [] then
        failTargets job ("目标路径为高危路径，禁止分发: " ++ ", ".intercalate check.forbidden)
      else if job.files = [] then .access (.saveStatus .success) fun _ => .done
      else runBatches job (distributeFileToTarget job) job.batches []

def runJob : Work :=
  match job.jobType with
  | .script => runScript job
  | .fileDistribution => runFileDistribution job
  | .playbook => runPlaybook job

/-! ### Cancel requests -/

/-- `cancel` of the view. -/
def cancel : Work :=
  .access .get fun execution =>
    match execution.status with
    | .pending => .access (.compareAndSet .pending .cancelled) fun _ => .done
    | .running =>
      .access (.compareAndSet .running .cancelling) fun row =>
        if row.status = .running then .send .finalizeCancelling .done else .done
    | _ => .done

def jobTaskTerminate : Work :=
  .access .get fun execution =>
    match execution.status with
    | .pending =>
      .access (.compareAndSet .pending .cancelled) fun row =>
        if row.status = .pending then .access .get (sendCallback job) else .done
    | .running =>
      .access (.compareAndSet .running .cancelling) fun row =>
        if row.status = .running then
          .send .finalizeCancelling (.access .get (sendCallback job))
        else .done
    | _ => .done

/-- `finalize_cancelling_execution`: the targets without an entry get one. -/
def finalizeCancelling : Work :=
  .access (.compareAndSet .cancelling .cancelled) fun row =>
    if row.status = .cancelling then
      .access .get fun execution =>
        let haveKeys := execution.executionResults.map (·.targetKey)
        let results := execution.executionResults ++
          (job.targetList.filter (·.key ∉ haveKeys)).map fun t =>
            ⟨t.key, t.name, t.ip, .cancelled, "任务已取消，远端结果未知"⟩
        .access (.saveFigures results) fun _ =>
          sendCallback job
            { execution with
              executionResults := results
              successCount := successCount results
              failedCount := failedCount results }
    else .done

/-! ### The callback of the Ansible executor -/

/-- An element of `result`; `succeeded` is `status == "success"`. -/
structure HostResult where
  host : String
  succeeded : Bool
  errorMessage : String
deriving DecidableEq, Repr

/-- The data of a callback: `result` is none if it is not a non-empty list of dictionaries. -/
structure CallbackData where
  result : Option (List HostResult)
  rawResult : String
  error : String
deriving DecidableEq, Repr

/-- `target_map.get(host)`: the last target with this address or id. -/
def targetOf (targets : List Target) (host : String) : Option Target :=
  targets.reverse.find? fun t => t.ip = host ∨ t.id = host

def matchHosts (targets : List Target) :
    List HostResult → List Result → Except String (List Result)
  | [], results => .ok results
  | host :: hosts, results =>
    match targetOf targets host.host with
    | none => .error ("结果中的主机未匹配到目标: " ++ host.host)
    | some t =>
      if t.id ∈ results.map (·.targetKey) then .error ("结果中的主机重复: " ++ host.host)
      else
        matchHosts targets hosts (results ++ [⟨t.id, t.name, t.ip,
          if host.succeeded then .success else .failed, host.errorMessage⟩])

def fillMissing (targets : List Target) (error : String) (results : List Result) : List Result :=
  if results.length < targets.length then
    results ++ (targets.filter (·.id ∉ results.map (·.targetKey))).map fun t =>
      ⟨t.id, t.name, t.ip, .failed, if error ≠ "" then error else "未收到该目标执行结果"⟩
  else results

def failExecution (errorMessage : String) : Work :=
  let results := job.targetList.map fun t => ⟨t.id, t.name, t.ip, .failed, errorMessage⟩
  .access (.saveAll .failed results 0 job.targetList.length) fun _ =>
    sendCallback job ⟨.failed, results, 0, job.targetList.length⟩

def ansibleTaskCallback (data : CallbackData) : Work :=
  .access .get fun execution =>
    if execution.status.Terminal then .done
    else
      match data.result with
      | none => failExecution job ("回调结果格式非法: " ++ data.rawResult)
      | some hosts =>
        match matchHosts job.targetList hosts [] with
        | .error errorMessage => failExecution job errorMessage
        | .ok results =>
          let results := fillMissing job.targetList data.error results
          let status : Status :=
            if execution.status = .cancelling then .cancelled
            else if results.any (·.status = .failed) then .failed
            else .success
          let failed := results.countP (·.status = .failed)
          .access (.saveAll status results (successCount results) failed) fun _ =>
            sendCallback job ⟨status, results, successCount results, failed⟩

/-! ### The system -/

inductive Request
  | worker
  | cancel
  | terminate
  | callback (data : CallbackData)
  | finalizeCancelling
deriving DecidableEq, Repr

def system : System Request Op Row Question Answer Message where
  apply op row := op.apply row
  task
    | .worker => runJob job
    | .cancel => cancel
    | .terminate => jobTaskTerminate job
    | .callback data => ansibleTaskCallback job data
    | .finalizeCancelling => finalizeCancelling job
  queued
    | .finalizeCancelling => some .finalizeCancelling
    | _ => none

end Tasks

abbrev Execution := Pool Op Row Question Answer Message

abbrev ExecutionEvent := Event Request Answer

def Execution.new : Execution := ⟨⟨.pending, [], 0, 0⟩, [], []⟩

def step (job : Job) : Execution → ExecutionEvent → Execution := (system job).step

end JobMgmt
