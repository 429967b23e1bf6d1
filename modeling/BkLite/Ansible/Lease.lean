import BkLite.Ansible.TaskStore
import BkLite.Framework.Runs

/-!
# The lease of a task

Runs of the store operations that the worker loops and the callback retry loop issue, in any
order and with any owners, times and results. The state records beside the store which claims
were granted and which results were written.
-/

namespace Ansible
namespace Lease

open Py

/-! ### The machine -/

structure State where
  store : TaskStore := ∅
  /-- The granted claims, the last one first. -/
  claims : List (TaskId × Owner) := []
  /-- The results that were written, the last one first. -/
  results : List (TaskId × ExecutionStatus) := []

inductive Op
  | create (taskId : TaskId) (payload : Dict) (callback : Value) (now : ℤ)
  | claim (taskId : TaskId) (ownerId : Owner) (leaseExpiresAt now : ℤ)
  | renew (taskId : TaskId) (ownerId : Owner) (leaseExpiresAt now : ℤ)
  | finish (taskId : TaskId) (success : Bool) (result : Dict) (now : ℤ) (ownerId : Owner)
  | callback (taskId : TaskId) (callbackStatus : CallbackStatus) (result : Dict) (now : ℤ)
      (preserveStatus : Option ExecutionStatus)

def finalStatus (success : Bool) : ExecutionStatus := if success then .success else .failed

@[simp] theorem finalStatus_isTerminal (success : Bool) :
    (finalStatus success).isTerminal = true := by
  cases success <;> rfl

def step (s : State) : Op → State
  | .create taskId payload callback now =>
    { s with store := (createIfAbsent taskId .queued payload callback now s.store).2 }
  | .claim taskId ownerId leaseExpiresAt now =>
    let claim := claimTask taskId ownerId leaseExpiresAt now s.store
    { s with
      store := claim.2
      claims := if claim.1.granted then (taskId, ownerId) :: s.claims else s.claims }
  | .renew taskId ownerId leaseExpiresAt now =>
    { s with store := (renewLease taskId ownerId leaseExpiresAt now s.store).2 }
  | .finish taskId success result now ownerId =>
    let update := updateExecutionResult taskId (finalStatus success) result now (some ownerId)
      s.store
    { s with
      store := update.2
      results := if update.1 then (taskId, finalStatus success) :: s.results else s.results }
  | .callback taskId callbackStatus result now preserveStatus =>
    { s with store := updateCallbackStatus taskId callbackStatus result now preserveStatus s.store }

def State.claimsOf (s : State) (k : TaskId) : List Owner :=
  (s.claims.filter (·.1 = k)).map (·.2)

def State.resultsOf (s : State) (k : TaskId) : List ExecutionStatus :=
  (s.results.filter (·.1 = k)).map (·.2)

/-! ### The law -/

/-- The claims and results of a task that is over stay as they are, and so does the status of
its execution. -/
def StaysOver (s t : State) : Prop :=
  ∀ k row, s.store.lookup k = some row → row.executionStatus.isTerminal = true →
    t.claimsOf k = s.claimsOf k ∧ t.resultsOf k = s.resultsOf k ∧
      ∃ row', t.store.lookup k = some row' ∧ row'.executionStatus = row.executionStatus

/-- Who renews a lease or writes a result is the owner of the last granted claim. -/
def OwnerOnly (s : State) : Op → Prop
  | .renew taskId ownerId leaseExpiresAt now =>
    (renewLease taskId ownerId leaseExpiresAt now s.store).1 = true →
      (s.claimsOf taskId).head? = some ownerId
  | .finish taskId success result now ownerId =>
    (updateExecutionResult taskId (finalStatus success) result now (some ownerId) s.store).1 = true →
      (s.claimsOf taskId).head? = some ownerId
  | _ => True

def Counted (s : State) : Prop :=
  ∀ k, (s.resultsOf k).length ≤ 1 ∧
    ∀ row, s.store.lookup k = some row → row.executionAttempt = (s.claimsOf k).length

/-! ### Invariant -/

/-- A row against what was granted and written for its task. -/
structure RowOk (claims : List Owner) (results : List ExecutionStatus) (row : TaskRow) :
    Prop where
  attempt : row.executionAttempt = claims.length
  /-- The holder of the lease is the last one who claimed, and runs the task. -/
  owner : ∀ owner, row.leaseOwner = some owner →
    claims.head? = some owner ∧ row.executionStatus = .running
  /-- A result is there exactly if the task is over. -/
  result : if row.executionStatus.isTerminal then results = [row.executionStatus]
    else results = []

def Inv (s : State) : Prop :=
  ∀ k, match s.store.lookup k with
    | none => s.claimsOf k = [] ∧ s.resultsOf k = []
    | some row => RowOk (s.claimsOf k) (s.resultsOf k) row

theorem Inv.row {s : State} (h : Inv s) {k : TaskId} {row : TaskRow}
    (h_row : s.store.lookup k = some row) : RowOk (s.claimsOf k) (s.resultsOf k) row := by
  have h_k := h k
  rw [h_row] at h_k
  exact h_k

theorem Inv.initial : Inv {} := by
  intro k
  exact ⟨rfl, rfl⟩

theorem RowOk.not_leased {claims : List Owner} {results : List ExecutionStatus} {row : TaskRow}
    (h : RowOk claims results row) (h_over : row.executionStatus.isTerminal = true) :
    row.leaseOwner = none := by
  cases h_owner : row.leaseOwner with
  | none => rfl
  | some owner =>
    rw [(h.owner owner h_owner).2] at h_over
    cases h_over

theorem Inv.counted {s : State} (h : Inv s) : Counted s := by
  intro k
  have h_k := h k
  cases h_row : s.store.lookup k with
  | none =>
    rw [h_row] at h_k
    refine ⟨?_, fun row h_none => ?_⟩
    · rw [h_k.2]
      exact Nat.zero_le 1
    · cases h_none
  | some row =>
    have h_ok := h.row h_row
    refine ⟨?_, fun row' h_same => ?_⟩
    · have h_result := h_ok.result
      split_ifs at h_result <;> rw [h_result]
      · exact le_rfl
      · exact Nat.zero_le 1
    · cases h_same
      exact h_ok.attempt

/-! ### Steps -/

section Steps

variable {s t : State}

theorem claimsOf_cons (s : State) (store : TaskStore) (k₀ k : TaskId) (owner : Owner) :
    State.claimsOf { s with store, claims := (k₀, owner) :: s.claims } k =
      if k = k₀ then owner :: s.claimsOf k else s.claimsOf k := by
  unfold State.claimsOf
  rw [List.filter_cons]
  by_cases h_key : k = k₀
  · rw [if_pos h_key, if_pos (decide_eq_true h_key.symm), List.map_cons]
  · rw [if_neg h_key, if_neg (by simpa using Ne.symm h_key)]

theorem resultsOf_cons (s : State) (store : TaskStore) (k₀ k : TaskId)
    (status : ExecutionStatus) :
    State.resultsOf { s with store, results := (k₀, status) :: s.results } k =
      if k = k₀ then status :: s.resultsOf k else s.resultsOf k := by
  unfold State.resultsOf
  rw [List.filter_cons]
  by_cases h_key : k = k₀
  · rw [if_pos h_key, if_pos (decide_eq_true h_key.symm), List.map_cons]
  · rw [if_neg h_key, if_neg (by simpa using Ne.symm h_key)]

theorem Inv.insert (h : Inv s) {k₀ : TaskId} {row : TaskRow}
    (h_store : t.store = s.store.insert k₀ row)
    (h_others : ∀ k, k ≠ k₀ → t.claimsOf k = s.claimsOf k ∧ t.resultsOf k = s.resultsOf k)
    (h_ok : RowOk (t.claimsOf k₀) (t.resultsOf k₀) row) : Inv t := by
  intro k
  rw [h_store, Table.lookup_insert]
  by_cases h_key : k = k₀
  · rw [if_pos h_key, h_key]
    exact h_ok
  · rw [if_neg h_key, (h_others k h_key).1, (h_others k h_key).2]
    exact h k

/-- What a step does to the task it is about. -/
inductive Effect (s : State) (op : Op) (t : State) : Prop
  /-- Nothing is granted, and no execution status and no lease changes. -/
  | quiet (h_claims : t.claims = s.claims) (h_results : t.results = s.results)
      (h_rows : ∀ k, t.store.lookup k = s.store.lookup k ∨
        ∃ row row', s.store.lookup k = some row ∧ t.store.lookup k = some row' ∧
          row'.executionStatus = row.executionStatus ∧ row'.leaseOwner = row.leaseOwner ∧
          row'.executionAttempt = row.executionAttempt)
  | created (k : TaskId) (row : TaskRow) (h_none : s.store.lookup k = none)
      (h_row : row.executionStatus = .queued ∧ row.leaseOwner = none ∧ row.executionAttempt = 0)
      (h_store : t.store = s.store.insert k row) (h_claims : t.claims = s.claims)
      (h_results : t.results = s.results)
  | claimed (k : TaskId) (row : TaskRow) (owner : Owner) (expires now : ℤ)
      (h_row : s.store.lookup k = some row) (h_open : row.executionStatus.isTerminal = false)
      (h_eq : t = { s with
        store := s.store.insert k (row.claimedBy owner expires now)
        claims := (k, owner) :: s.claims })
  | finished (k : TaskId) (row : TaskRow) (owner : Owner) (success : Bool) (result : Dict)
      (now : ℤ) (h_row : s.store.lookup k = some row) (h_owner : row.leaseOwner = some owner)
      (h_eq : t = { s with
        store := s.store.insert k (row.finished (finalStatus success) result now)
        results := (k, finalStatus success) :: s.results })

theorem step_effect (s : State) (op : Op) : Effect s op (step s op) := by
  cases op with
  | create taskId payload callback now =>
    unfold step
    dsimp only
    cases h_row : s.store.lookup taskId with
    | some row =>
      rw [createIfAbsent_of_some h_row]
      exact .quiet rfl rfl fun k => Or.inl rfl
    | none =>
      rw [createIfAbsent_of_none h_row]
      exact .created taskId (newRow .queued payload callback now) h_row ⟨rfl, rfl, rfl⟩ rfl rfl rfl
  | claim taskId ownerId leaseExpiresAt now =>
    unfold step
    dsimp only
    rcases claimTask_cases taskId ownerId leaseExpiresAt now s.store with
      ⟨h_refused, h_same⟩ | ⟨row, h_row, -, h_open, -, h_eq⟩
    · rw [h_refused, h_same]
      exact .quiet rfl rfl fun k => Or.inl rfl
    · rw [h_eq]
      exact .claimed taskId row ownerId leaseExpiresAt now h_row h_open rfl
  | renew taskId ownerId leaseExpiresAt now =>
    unfold step
    dsimp only
    rcases renewLease_cases taskId ownerId leaseExpiresAt now s.store with
      h_refused | ⟨row, h_row, -, -, h_eq⟩
    · rw [h_refused]
      exact .quiet rfl rfl fun k => Or.inl rfl
    · rw [h_eq]
      refine .quiet rfl rfl fun k => ?_
      dsimp only
      rw [Table.lookup_insert]
      split_ifs with h_key
      · exact Or.inr ⟨row, _, h_key ▸ h_row, rfl, rfl, rfl, rfl⟩
      · exact Or.inl rfl
  | finish taskId success result now ownerId =>
    unfold step
    dsimp only
    rcases updateExecutionResult_cases taskId (finalStatus success) result now ownerId s.store with
      h_refused | ⟨row, h_row, h_owner, h_eq⟩
    · rw [h_refused]
      exact .quiet rfl rfl fun k => Or.inl rfl
    · rw [h_eq]
      exact .finished taskId row ownerId success result now h_row h_owner rfl
  | callback taskId callbackStatus result now preserveStatus =>
    refine .quiet rfl rfl fun k => ?_
    have h_store : (step s (.callback taskId callbackStatus result now preserveStatus)).store =
        Table.modify s.store taskId
          (TaskRow.calledBack callbackStatus result now preserveStatus) := rfl
    rw [h_store]
    by_cases h_key : k = taskId
    · subst h_key
      rw [Table.lookup_modify_self]
      cases h_row : s.store.lookup k with
      | none => exact Or.inl rfl
      | some row => exact Or.inr ⟨row, _, rfl, rfl, rfl, rfl, rfl⟩
    · rw [Table.lookup_modify_ne _ _ h_key]
      exact Or.inl rfl

theorem Inv.step (h : Inv s) (op : Op) : Inv (step s op) := by
  have h_effect := step_effect s op
  generalize Lease.step s op = t at h_effect ⊢
  cases h_effect with
  | quiet h_claims h_results h_rows =>
    intro k
    have h_same : t.claimsOf k = s.claimsOf k ∧ t.resultsOf k = s.resultsOf k := by
      unfold State.claimsOf State.resultsOf
      rw [h_claims, h_results]
      exact ⟨rfl, rfl⟩
    rw [h_same.1, h_same.2]
    rcases h_rows k with h_row | ⟨row, row', h_row, h_row', h_exec, h_lease, h_attempt⟩
    · rw [h_row]
      exact h k
    · rw [h_row']
      have h_ok := h.row h_row
      refine ⟨?_, ?_, ?_⟩
      · rw [h_attempt]
        exact h_ok.attempt
      · rw [h_lease, h_exec]
        exact h_ok.owner
      · rw [h_exec]
        exact h_ok.result
  | created k row h_none h_row h_store h_claims h_results =>
    have h_same : ∀ k, t.claimsOf k = s.claimsOf k ∧ t.resultsOf k = s.resultsOf k := by
      intro k
      unfold State.claimsOf State.resultsOf
      rw [h_claims, h_results]
      exact ⟨rfl, rfl⟩
    apply h.insert h_store fun k' _ => h_same k'
    -- a task without a row has neither claims nor results
    have h_k := h k
    rw [h_none] at h_k
    rw [(h_same k).1, (h_same k).2, h_k.1, h_k.2]
    obtain ⟨h_exec, h_lease, h_attempt⟩ := h_row
    refine ⟨h_attempt, fun owner h_owner => ?_, ?_⟩
    · rw [h_lease] at h_owner
      cases h_owner
    · rw [h_exec]
      rfl
  | claimed k row owner expires now h_row h_open h_eq =>
    subst h_eq
    have h_ok := h.row h_row
    refine h.insert rfl (fun k' h_key => ⟨?_, rfl⟩) ?_
    · rw [claimsOf_cons, if_neg h_key]
    · rw [claimsOf_cons, if_pos rfl]
      refine ⟨?_, fun owner' h_owner => ?_, ?_⟩
      · exact congrArg (· + 1) h_ok.attempt
      · cases h_owner
        exact ⟨rfl, rfl⟩
      · -- the task was not over, so it has no result
        have h_result := h_ok.result
        rw [h_open] at h_result
        exact h_result
  | finished k row owner success result now h_row h_owner h_eq =>
    subst h_eq
    have h_ok := h.row h_row
    refine h.insert rfl (fun k' h_key => ⟨rfl, ?_⟩) ?_
    · rw [resultsOf_cons, if_neg h_key]
    · rw [resultsOf_cons, if_pos rfl]
      refine ⟨h_ok.attempt, fun owner' h_none => (nomatch h_none), ?_⟩
      have h_running := (h_ok.owner owner h_owner).2
      have h_result := h_ok.result
      rw [h_running] at h_result
      have h_empty : s.resultsOf k = [] := h_result
      have h_exec : (row.finished (finalStatus success) result now).executionStatus =
          finalStatus success := rfl
      rw [h_exec, finalStatus_isTerminal, if_pos rfl, h_empty]

theorem Inv.staysOver (h : Inv s) (op : Op) : StaysOver s (Lease.step s op) := by
  intro k row h_row h_over
  have h_effect := step_effect s op
  generalize Lease.step s op = t at h_effect ⊢
  cases h_effect with
  | quiet h_claims h_results h_rows =>
    refine ⟨?_, ?_, ?_⟩
    · unfold State.claimsOf
      rw [h_claims]
    · unfold State.resultsOf
      rw [h_results]
    · rcases h_rows k with h_same | ⟨row₀, row', h_row₀, h_row', h_exec, -, -⟩
      · exact ⟨row, h_same.trans h_row, rfl⟩
      · cases h_row.symm.trans h_row₀
        exact ⟨row', h_row', h_exec⟩
  | created k' row' h_none _ h_store h_claims h_results =>
    refine ⟨?_, ?_, row, ?_, rfl⟩
    · unfold State.claimsOf
      rw [h_claims]
    · unfold State.resultsOf
      rw [h_results]
    · have h_key : k ≠ k' := by
        rintro rfl
        cases h_none.symm.trans h_row
      rw [h_store, AList.lookup_insert_ne h_key, h_row]
  | claimed k' row' owner expires now h_row' h_open h_eq =>
    subst h_eq
    have h_key : k ≠ k' := by
      rintro rfl
      cases h_row.symm.trans h_row'
      rw [h_over] at h_open
      cases h_open
    refine ⟨?_, rfl, row, ?_, rfl⟩
    · rw [claimsOf_cons, if_neg h_key]
    · rw [AList.lookup_insert_ne h_key, h_row]
  | finished k' row' owner success result now h_row' h_owner h_eq =>
    subst h_eq
    have h_key : k ≠ k' := by
      rintro rfl
      cases h_row.symm.trans h_row'
      -- a task that is over is leased to nobody
      rw [(h.row h_row).not_leased h_over] at h_owner
      cases h_owner
    refine ⟨rfl, ?_, row, ?_, rfl⟩
    · rw [resultsOf_cons, if_neg h_key]
    · rw [AList.lookup_insert_ne h_key, h_row]

theorem Inv.ownerOnly (h : Inv s) (op : Op) : OwnerOnly s op := by
  cases op with
  | renew taskId ownerId leaseExpiresAt now =>
    intro h_true
    rcases renewLease_cases taskId ownerId leaseExpiresAt now s.store with
      h_refused | ⟨row, h_row, h_owner, -, -⟩
    · rw [h_refused] at h_true
      cases h_true
    · exact ((h.row h_row).owner ownerId h_owner).1
  | finish taskId success result now ownerId =>
    intro h_true
    rcases updateExecutionResult_cases taskId (finalStatus success) result now ownerId s.store with
      h_refused | ⟨row, h_row, h_owner, -⟩
    · rw [h_refused] at h_true
      cases h_true
    · exact ((h.row h_row).owner ownerId h_owner).1
  | _ => exact trivial

theorem Inv.staysOver_run (h : Inv s) (ops : List Op) : StaysOver s (Runs.run Lease.step s ops) := by
  induction ops generalizing s with
  | nil => exact fun k row h_row _ => ⟨rfl, rfl, row, h_row, rfl⟩
  | cons op ops ih =>
    intro k row h_row h_over
    obtain ⟨h_claims, h_results, row₁, h_row₁, h_exec₁⟩ := h.staysOver op k row h_row h_over
    obtain ⟨h_claims', h_results', row₂, h_row₂, h_exec₂⟩ :=
      ih (h.step op) k row₁ h_row₁ (h_exec₁ ▸ h_over)
    exact ⟨h_claims'.trans h_claims, h_results'.trans h_results, row₂, h_row₂,
      h_exec₂.trans h_exec₁⟩

end Steps

end Lease
end Ansible
