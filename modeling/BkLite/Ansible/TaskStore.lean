import BkLite.Framework.Table
import BkLite.Framework.Value

/-!
# The task store of the Ansible executor

`service/task_store.py` of the agent: one row for each task, with the status of its
execution, the status of its callback, the lease of the worker that runs it and the result.

The JSON columns hold the values whose text the source stores. An ISO timestamp is a point in
time; those of one format compare as times.
-/

namespace Ansible

open Py

abbrev TaskId := String

/-- `owner_id`. -/
abbrev Owner := String

abbrev Dict := List (String × Value)

/-! ### Columns -/

/-- What `execution_status` holds. -/
inductive ExecutionStatus
  | queued
  | running
  | success
  | failed
deriving DecidableEq, Repr

/-- What `status` holds. -/
inductive TaskStatus
  | queued
  | running
  | success
  | failed
  | callbackFailed
deriving DecidableEq, Repr

/-- What `callback_status` holds. -/
inductive CallbackStatus
  | none
  | pending
  | sent
  | failed
deriving DecidableEq, Repr

def ExecutionStatus.toTaskStatus : ExecutionStatus → TaskStatus
  | .queued => .queued
  | .running => .running
  | .success => .success
  | .failed => .failed

def terminalTaskStatuses : List TaskStatus := [.success, .failed, .callbackFailed]

/-- The status is one of `TERMINAL_TASK_STATUSES`. -/
def TaskStatus.isTerminal (s : TaskStatus) : Bool := s ∈ terminalTaskStatuses

def ExecutionStatus.isTerminal (s : ExecutionStatus) : Bool := s.toTaskStatus.isTerminal

/-- A row of `task_state`; its `task_id` is its key in the table. -/
structure TaskRow where
  status : TaskStatus
  payload : Dict
  executionPayload : Dict
  callback : Value
  result : Dict := []
  executionStatus : ExecutionStatus
  callbackStatus : CallbackStatus
  leaseOwner : Option Owner := none
  leaseExpiresAt : Option ℤ := none
  heartbeatAt : Option ℤ := none
  executionAttempt : ℕ := 0
  createdAt : ℤ
  updatedAt : ℤ

abbrev TaskStore := Table TaskId TaskRow

/-! ### Sanitising -/

def sensitiveCredentialKeys : List String :=
  ["password", "private_key_content", "private_key_passphrase", "ansible_password",
    "ansible_ssh_passphrase", "ansible_become_password", "inventory_content"]

/-- `d[key] = value`: in place, or as the last entry. -/
def setItem (d : Dict) (key : String) (value : Value) : Dict :=
  if key ∈ d.map (·.1) then d.map fun e => if e.1 = key then (key, value) else e
  else d ++ [(key, value)]

def withoutSensitive (d : Dict) : Dict := d.filter fun e => e.1 ∉ sensitiveCredentialKeys

/-- What is kept of an entry of `host_credentials`. -/
def sanitizeCredential : Value → Option Value
  | .dict cred => some (.dict (setItem (withoutSensitive cred) "_redacted" (.bool true)))
  | _ => none

def sanitizeEntry (e : String × Value) : String × Value :=
  if e.1 = "host_credentials" then
    match e.2 with
    | .list creds => (e.1, .list (creds.filterMap sanitizeCredential))
    | _ => e
  else e

def sanitizePayloadForStorage (payload : Dict) : Dict :=
  withoutSensitive (payload.map sanitizeEntry)

/-! ### Operations -/

/-- The row that `create_if_absent` inserts. -/
def newRow (status : ExecutionStatus) (payload : Dict) (callback : Value) (now : ℤ) : TaskRow where
  status := status.toTaskStatus
  payload := sanitizePayloadForStorage payload
  executionPayload := payload
  callback := callback.orElse (.dict [])
  executionStatus := status
  callbackStatus := if callback.truthy then .pending else .none
  createdAt := now
  updatedAt := now

/-- `create_if_absent`: whether a row was inserted. -/
def createIfAbsent (taskId : TaskId) (status : ExecutionStatus) (payload : Dict)
    (callback : Value) (now : ℤ) (store : TaskStore) : Bool × TaskStore :=
  match store.lookup taskId with
  | some _ => (false, store)
  | none => (true, store.insert taskId (newRow status payload callback now))

/-- What `claim_task` answers. -/
inductive Claim
  | missing
  | terminal (status : TaskStatus) (executionStatus : ExecutionStatus)
      (callbackStatus : CallbackStatus)
  | leased (status : TaskStatus) (executionStatus : ExecutionStatus)
      (callbackStatus : CallbackStatus) (leaseOwner : Owner) (leaseExpiresAt : ℤ)
  | claimed (callbackStatus : CallbackStatus) (executionAttempt : ℕ)
deriving DecidableEq

def TaskRow.foreignLease (row : TaskRow) (ownerId : Owner) (now : ℤ) : Option (Owner × ℤ) :=
  match row.leaseOwner, row.leaseExpiresAt with
  | some owner, some expiresAt =>
    if row.executionStatus = .running ∧ owner ≠ "" ∧ now < expiresAt ∧ owner ≠ ownerId then
      some (owner, expiresAt)
    else none
  | _, _ => none

def TaskRow.claimedBy (row : TaskRow) (ownerId : Owner) (leaseExpiresAt now : ℤ) : TaskRow :=
  { row with
    status := .running
    executionStatus := .running
    leaseOwner := some ownerId
    leaseExpiresAt := some leaseExpiresAt
    heartbeatAt := some now
    executionAttempt := row.executionAttempt + 1
    updatedAt := now }

def claimTask (taskId : TaskId) (ownerId : Owner) (leaseExpiresAt now : ℤ) (store : TaskStore) :
    Claim × TaskStore :=
  match store.lookup taskId with
  | none => (.missing, store)
  | some row =>
    if row.status.isTerminal || row.executionStatus.isTerminal then
      (.terminal row.status row.executionStatus row.callbackStatus, store)
    else
      match row.foreignLease ownerId now with
      | some (owner, expiresAt) =>
        (.leased row.status row.executionStatus row.callbackStatus owner expiresAt, store)
      | none =>
        (.claimed row.callbackStatus (row.executionAttempt + 1),
          store.insert taskId (row.claimedBy ownerId leaseExpiresAt now))

/-- The `WHERE` clause of `renew_lease`. -/
def TaskRow.runs (row : TaskRow) (ownerId : Owner) : Bool :=
  row.leaseOwner = some ownerId && row.executionStatus = .running

/-- `renew_lease`: whether a row was updated. -/
def renewLease (taskId : TaskId) (ownerId : Owner) (leaseExpiresAt now : ℤ) (store : TaskStore) :
    Bool × TaskStore :=
  match store.lookup taskId with
  | none => (false, store)
  | some row =>
    if row.runs ownerId then
      (true, store.insert taskId
        { row with
          leaseExpiresAt := some leaseExpiresAt, heartbeatAt := some now, updatedAt := now })
    else (false, store)

def TaskRow.finished (row : TaskRow) (status : ExecutionStatus) (result : Dict) (now : ℤ) :
    TaskRow :=
  { row with
    status := status.toTaskStatus
    executionStatus := status
    result
    leaseOwner := none
    leaseExpiresAt := none
    heartbeatAt := some now
    updatedAt := now }

/-- `update_execution_result`: whether a row was updated. -/
def updateExecutionResult (taskId : TaskId) (status : ExecutionStatus) (result : Dict) (now : ℤ)
    (ownerId : Option Owner) (store : TaskStore) : Bool × TaskStore :=
  match store.lookup taskId with
  | none => (false, store)
  | some row =>
    -- without an owner the clause is left out
    if ownerId.all fun owner => row.leaseOwner = some owner then
      (true, store.insert taskId (row.finished status result now))
    else (false, store)

/-- The status that `update_callback_status` writes. -/
def nextStatus (row : TaskRow) (callbackStatus : CallbackStatus)
    (preserveStatus : Option ExecutionStatus) : TaskStatus :=
  if callbackStatus = .failed ∧ row.status = .success then .callbackFailed
  else if row.status = .callbackFailed ∧ callbackStatus = .sent then
    row.executionStatus.toTaskStatus
  else (preserveStatus.map ExecutionStatus.toTaskStatus).getD row.status

def TaskRow.calledBack (callbackStatus : CallbackStatus) (result : Dict) (now : ℤ)
    (preserveStatus : Option ExecutionStatus) (row : TaskRow) : TaskRow :=
  { row with
    status := nextStatus row callbackStatus preserveStatus
    callbackStatus
    result
    updatedAt := now }

def updateCallbackStatus (taskId : TaskId) (callbackStatus : CallbackStatus) (result : Dict)
    (now : ℤ) (preserveStatus : Option ExecutionStatus) (store : TaskStore) : TaskStore :=
  Table.modify store taskId (TaskRow.calledBack callbackStatus result now preserveStatus)

def getStatus (taskId : TaskId) (store : TaskStore) : Option TaskStatus :=
  (store.lookup taskId).map (·.status)

/-- What `get_task` shows of a row. -/
structure TaskView where
  taskId : TaskId
  status : TaskStatus
  payload : Dict
  callback : Value
  result : Dict
  executionStatus : ExecutionStatus
  callbackStatus : CallbackStatus
  leaseOwner : Option Owner
  leaseExpiresAt : Option ℤ
  heartbeatAt : Option ℤ
  executionAttempt : ℕ
  createdAt : ℤ
  updatedAt : ℤ

def getTask (taskId : TaskId) (store : TaskStore) : Option TaskView :=
  (store.lookup taskId).map fun row =>
    { taskId
      status := row.status
      payload := row.payload
      callback := row.callback
      result := row.result
      executionStatus := row.executionStatus
      callbackStatus := row.callbackStatus
      leaseOwner := row.leaseOwner
      leaseExpiresAt := row.leaseExpiresAt
      heartbeatAt := row.heartbeatAt
      executionAttempt := row.executionAttempt
      createdAt := row.createdAt
      updatedAt := row.updatedAt }

def getExecutionPayload (taskId : TaskId) (store : TaskStore) : Option Dict :=
  (store.lookup taskId).map (·.executionPayload)

/-! ### What an operation does -/

section Effects

variable {taskId : TaskId} {ownerId : Owner} {leaseExpiresAt now : ℤ} {store : TaskStore}

def Claim.granted : Claim → Bool
  | .claimed _ _ => true
  | _ => false

theorem createIfAbsent_of_some {status : ExecutionStatus} {payload : Dict} {callback : Value}
    {row : TaskRow} (h : store.lookup taskId = some row) :
    createIfAbsent taskId status payload callback now store = (false, store) := by
  unfold createIfAbsent
  rw [h]

theorem createIfAbsent_of_none {status : ExecutionStatus} {payload : Dict} {callback : Value}
    (h : store.lookup taskId = none) :
    createIfAbsent taskId status payload callback now store =
      (true, store.insert taskId (newRow status payload callback now)) := by
  unfold createIfAbsent
  rw [h]

theorem claimTask_cases (taskId : TaskId) (ownerId : Owner) (leaseExpiresAt now : ℤ)
    (store : TaskStore) :
    ((claimTask taskId ownerId leaseExpiresAt now store).1.granted = false ∧
      (claimTask taskId ownerId leaseExpiresAt now store).2 = store) ∨
    ∃ row, store.lookup taskId = some row ∧ row.status.isTerminal = false ∧
      row.executionStatus.isTerminal = false ∧ row.foreignLease ownerId now = none ∧
      claimTask taskId ownerId leaseExpiresAt now store =
        (.claimed row.callbackStatus (row.executionAttempt + 1),
          store.insert taskId (row.claimedBy ownerId leaseExpiresAt now)) := by
  unfold claimTask
  cases h_row : store.lookup taskId with
  | none => exact Or.inl ⟨rfl, rfl⟩
  | some row =>
    dsimp only
    split_ifs with h_over
    · exact Or.inl ⟨rfl, rfl⟩
    · rw [Bool.not_eq_true, Bool.or_eq_false_iff] at h_over
      cases h_lease : row.foreignLease ownerId now with
      | some lease => exact Or.inl ⟨rfl, rfl⟩
      | none => exact Or.inr ⟨row, rfl, h_over.1, h_over.2, h_lease, rfl⟩

theorem claimTask_terminal {status : TaskStatus} {executionStatus : ExecutionStatus}
    {callbackStatus : CallbackStatus} {store' : TaskStore}
    (h : claimTask taskId ownerId leaseExpiresAt now store =
      (.terminal status executionStatus callbackStatus, store')) :
    ∃ row, store.lookup taskId = some row ∧
      (row.status.isTerminal || row.executionStatus.isTerminal) = true := by
  unfold claimTask at h
  cases h_row : store.lookup taskId with
  | none =>
    rw [h_row] at h
    cases h
  | some row =>
    rw [h_row] at h
    dsimp only at h
    split_ifs at h with h_over
    · exact ⟨row, rfl, h_over⟩
    · cases h_lease : row.foreignLease ownerId now with
      | some lease =>
        rw [h_lease] at h
        cases h
      | none =>
        rw [h_lease] at h
        cases h

theorem renewLease_cases (taskId : TaskId) (ownerId : Owner) (leaseExpiresAt now : ℤ)
    (store : TaskStore) :
    renewLease taskId ownerId leaseExpiresAt now store = (false, store) ∨
    ∃ row, store.lookup taskId = some row ∧ row.leaseOwner = some ownerId ∧
      row.executionStatus = .running ∧
      renewLease taskId ownerId leaseExpiresAt now store = (true, store.insert taskId
        { row with
          leaseExpiresAt := some leaseExpiresAt, heartbeatAt := some now, updatedAt := now }) := by
  unfold renewLease
  cases h_row : store.lookup taskId with
  | none => exact Or.inl rfl
  | some row =>
    dsimp only
    split_ifs with h_runs
    · unfold TaskRow.runs at h_runs
      rw [Bool.and_eq_true, decide_eq_true_iff, decide_eq_true_iff] at h_runs
      exact Or.inr ⟨row, rfl, h_runs.1, h_runs.2, rfl⟩
    · exact Or.inl rfl

theorem updateExecutionResult_cases (taskId : TaskId) (status : ExecutionStatus) (result : Dict)
    (now : ℤ) (ownerId : Owner) (store : TaskStore) :
    updateExecutionResult taskId status result now (some ownerId) store = (false, store) ∨
    ∃ row, store.lookup taskId = some row ∧ row.leaseOwner = some ownerId ∧
      updateExecutionResult taskId status result now (some ownerId) store =
        (true, store.insert taskId (row.finished status result now)) := by
  unfold updateExecutionResult
  cases h_row : store.lookup taskId with
  | none => exact Or.inl rfl
  | some row =>
    dsimp only
    split_ifs with h_owner
    · exact Or.inr ⟨row, rfl, of_decide_eq_true h_owner, rfl⟩
    · exact Or.inl rfl

theorem updateCallbackStatus_of_some {row : TaskRow} (h : store.lookup taskId = some row)
    (callbackStatus : CallbackStatus) (result : Dict) (preserveStatus : Option ExecutionStatus) :
    updateCallbackStatus taskId callbackStatus result now preserveStatus store =
      store.insert taskId (row.calledBack callbackStatus result now preserveStatus) := by
  unfold updateCallbackStatus Table.modify
  rw [h]

end Effects

end Ansible
