import BkLite.NodeMgmt.ActionTasks

/-!
# Action tasks are accounted for

`Kept` is what one expects of a run: a row that is closed keeps its status, a task whose rows are
all closed is finished with the right counters once nobody is to count it any more, and a row has
succeeded by a report that came in after the delivery. `kept_of_inOrder` says that this holds where
the accesses are in order (`InOrder`): what is saved does not meet a row that has been closed
otherwise, what is counted is still so or is to be counted again, and a report that lets a row
succeed came in after the delivery.
-/

namespace NodeMgmt.ActionTasks

open Runs

/-! ### What is expected -/

/-- The party has touched a row of the task and is still to write its status or its counters. -/
def Owes (t : ℕ) : Party → Prop
  | .converging _ _ _ affected => t ∈ affected
  | .timingOut t' _ => t' = t
  | .reconciling ts => t ∈ ts
  | .marking items => t ∈ items.map Prod.fst
  | .finishing items => t ∈ items.map Prod.fst
  | .counting items => t ∈ items.map Prod.fst
  | _ => False

/-- A task of which all rows are closed, and which nobody is to count, is finished and has the
right counters. -/
def Accounted (s : State) : Prop :=
  ∀ t task, s.world.tasks.lookup t = some task → (∀ p ∈ s.parties, ¬Owes t p) →
    (∀ r ∈ s.world.taskNodes, r.taskId = t → r.status.Closed) →
    task.status = .finished ∧ task.successCount = (stats s.world.taskNodes t).success ∧
      task.errorCount = (stats s.world.taskNodes t).error ∧
      task.successCount + task.errorCount = task.totalCount

def Proven (r : TaskNode) : Prop :=
  r.status = .success → ∃ d e, r.deliveredAt = some d ∧ r.evidence = some e ∧ d < e

def StayClosed (rows rows' : List TaskNode) : Prop :=
  ∀ (k : ℕ) (r : TaskNode), rows[k]? = some r → r.status.Closed →
    ∃ r' : TaskNode, rows'[k]? = some r' ∧ r'.status = r.status

structure Kept (actions : List Action) : Prop where
  closed : Along step (fun s _ s' => StayClosed s.world.taskNodes s'.world.taskNodes) {} actions
  accounted : Always step Accounted {} actions
  proven : Always step (fun s => ∀ r ∈ s.world.taskNodes, Proven r) {} actions

/-! ### Accesses in order -/

/-- The two things that are written of a task when it has been counted. -/
inductive Part
  | status
  | counts
deriving DecidableEq

/-- The party is to write that part of the task, and has not counted yet or has counted what is
so now. -/
def Due (now : Stats) (t : ℕ) (part : Part) : Party → Prop
  | .converging _ _ _ affected => t ∈ affected
  | .timingOut t' _ => t' = t
  | .reconciling ts => t ∈ ts
  | .marking items => items.lookup t = some now
  | .finishing items => items.lookup t = some now
  | .counting items => part = .counts ∧ items.lookup t = some now
  | _ => False

/-- Some other party than `i` is to write that part of the task. -/
def Other (s : State) (i : ℕ) (t : ℕ) (part : Part) : Prop :=
  ∃ p ∈ s.parties.eraseIdx i, Due (stats s.world.taskNodes t) t part p

def Finds (w : World) (t : ℕ) (nodeId : String) (status : NodeStatus) : Prop :=
  ∀ r ∈ w.taskNodes, r.taskId = t → r.nodeId = nodeId → r.status.Closed → r.status = status

def DeliveredBefore (w : World) (t : ℕ) (nodeId : String) (arrived : ℕ) : Prop :=
  ∀ r ∈ w.taskNodes, r.taskId = t → r.nodeId = nodeId → ∃ d ∈ r.deliveredAt, d < arrived

/-- The next access of party `i` is in order. -/
def InOrder (s : State) (i : ℕ) : Party → Prop
  | .acked nodeId _ _ item _ (some .waiting) => Finds s.world item.taskId nodeId .running
  | .submitted item nodeId .waiting _ => Finds s.world item.taskId nodeId .running
  | .converging nodeId arrived ((t, status) :: _) _ =>
    Finds s.world t nodeId status ∧
      (status = .success → DeliveredBefore s.world t nodeId arrived)
  | .timingOut t (nodeId :: _) => Finds s.world t nodeId .error
  | .marking items =>
    ∀ item ∈ items, 0 < item.2.pending →
      0 < (stats s.world.taskNodes item.1).pending ∨ Other s i item.1 .status
  | .counting ((t, counts) :: _) =>
    counts.success = (stats s.world.taskNodes t).success ∧
      counts.error = (stats s.world.taskNodes t).error ∨ Other s i t .counts
  | _ => True

def Guard (s : State) : Action → State → Prop
  | .serve i, _ => ∀ p ∈ s.parties[i]?, InOrder s i p
  | _, _ => True

instance (now : Stats) (t : ℕ) (part : Part) : DecidablePred (Due now t part)
  | .converging _ _ _ affected => inferInstanceAs (Decidable (t ∈ affected))
  | .timingOut t' _ => inferInstanceAs (Decidable (t' = t))
  | .reconciling ts => inferInstanceAs (Decidable (t ∈ ts))
  | .marking items => inferInstanceAs (Decidable (items.lookup t = some now))
  | .finishing items => inferInstanceAs (Decidable (items.lookup t = some now))
  | .counting items => inferInstanceAs (Decidable (part = .counts ∧ items.lookup t = some now))
  | .heartbeat _ _ _ => isFalse id
  | .reported _ => isFalse id
  | .acking _ _ _ _ => isFalse id
  | .acked _ _ _ _ _ _ => isFalse id
  | .responding _ _ => isFalse id
  | .converge _ => isFalse id
  | .judging _ _ _ => isFalse id
  | .timeout _ => isFalse id
  | .timedOut _ => isFalse id
  | .operate _ _ _ => isFalse id
  | .created _ => isFalse id
  | .submitting _ _ => isFalse id
  | .absent _ _ _ _ => isFalse id
  | .held _ _ _ _ _ _ => isFalse id
  | .submitted _ _ _ _ => isFalse id
  | .finished => isFalse id
  | .failed => isFalse id

instance (s : State) (i t : ℕ) (part : Part) : Decidable (Other s i t part) :=
  inferInstanceAs (Decidable (∃ p ∈ s.parties.eraseIdx i, _))

instance (w : World) (t : ℕ) (nodeId : String) (status : NodeStatus) :
    Decidable (Finds w t nodeId status) :=
  inferInstanceAs (Decidable (∀ r ∈ w.taskNodes, _ → _ → _ → _))

instance (w : World) (t : ℕ) (nodeId : String) (arrived : ℕ) :
    Decidable (DeliveredBefore w t nodeId arrived) :=
  inferInstanceAs (Decidable (∀ r ∈ w.taskNodes, _ → _ → ∃ d ∈ r.deliveredAt, _))

instance (s : State) (i : ℕ) : DecidablePred (InOrder s i)
  | .acked _ _ _ _ _ (some .waiting) => inferInstanceAs (Decidable (Finds ..))
  | .submitted _ _ .waiting _ => inferInstanceAs (Decidable (Finds ..))
  | .converging _ _ ((_, _) :: _) _ =>
    inferInstanceAs (Decidable (Finds .. ∧ (_ = _ → DeliveredBefore ..)))
  | .timingOut _ (_ :: _) => inferInstanceAs (Decidable (Finds ..))
  | .marking items => inferInstanceAs (Decidable (∀ item ∈ items, _ → _ ∨ Other ..))
  | .counting ((_, _) :: _) => inferInstanceAs (Decidable ((_ ∧ _) ∨ Other ..))
  | .acked _ _ _ _ _ none => isTrue trivial
  | .acked _ _ _ _ _ (some .running) => isTrue trivial
  | .acked _ _ _ _ _ (some .success) => isTrue trivial
  | .acked _ _ _ _ _ (some .error) => isTrue trivial
  | .submitted _ _ .running _ => isTrue trivial
  | .submitted _ _ .success _ => isTrue trivial
  | .submitted _ _ .error _ => isTrue trivial
  | .converging _ _ [] _ => isTrue trivial
  | .timingOut _ [] => isTrue trivial
  | .counting [] => isTrue trivial
  | .heartbeat _ _ _ => isTrue trivial
  | .reported _ => isTrue trivial
  | .acking _ _ _ _ => isTrue trivial
  | .responding _ _ => isTrue trivial
  | .converge _ => isTrue trivial
  | .judging _ _ _ => isTrue trivial
  | .timeout _ => isTrue trivial
  | .timedOut _ => isTrue trivial
  | .reconciling _ => isTrue trivial
  | .finishing _ => isTrue trivial
  | .operate _ _ _ => isTrue trivial
  | .created _ => isTrue trivial
  | .submitting _ _ => isTrue trivial
  | .absent _ _ _ _ => isTrue trivial
  | .held _ _ _ _ _ _ => isTrue trivial
  | .finished => isTrue trivial
  | .failed => isTrue trivial

instance (s s' : State) : (a : Action) → Decidable (Guard s a s')
  | .serve i => inferInstanceAs (Decidable (∀ p ∈ s.parties[i]?, InOrder s i p))
  | .heartbeat _ _ => isTrue trivial
  | .converge _ => isTrue trivial
  | .timeout _ => isTrue trivial
  | .operate _ _ _ => isTrue trivial

/-! ### Statistics -/

section Stats

variable {rows : List TaskNode} {g : TaskNode → TaskNode} {t : ℕ}

def SameKind (status status' : NodeStatus) : Prop :=
  status = status' ∨ ¬status.Closed ∧ ¬status'.Closed

theorem stats_map (h_id : ∀ r ∈ rows, (g r).taskId = r.taskId)
    (h_kind : ∀ r ∈ rows, r.taskId = t → SameKind r.status (g r).status) :
    stats (rows.map g) t = stats rows t := by
  have h_row (r : TaskNode) (h_r : r ∈ rows) :
      ((g r).taskId = t && (g r).status = .success) = (r.taskId = t && r.status = .success) ∧
      ((g r).taskId = t && (g r).status = .error) = (r.taskId = t && r.status = .error) ∧
      ((g r).taskId = t && ((g r).status = .waiting || (g r).status = .running)) =
        (r.taskId = t && (r.status = .waiting || r.status = .running)) := by
    rw [h_id r h_r]
    by_cases h_t : r.taskId = t
    · obtain h_same | ⟨h_open, h_open'⟩ := h_kind r h_r h_t
      · rw [h_same]
        exact ⟨rfl, rfl, rfl⟩
      · revert h_open h_open'
        cases r.status <;> cases (g r).status <;> simp [NodeStatus.Closed]
    · simp [h_t]
  ext
  · show (rows.map g).countP _ = _
    rw [List.countP_map]
    exact List.countP_congr fun r h_r => by rw [Function.comp, (h_row r h_r).1]
  · show (rows.map g).countP _ = _
    rw [List.countP_map]
    exact List.countP_congr fun r h_r => by rw [Function.comp, (h_row r h_r).2.1]
  · show (rows.map g).countP _ = _
    rw [List.countP_map]
    exact List.countP_congr fun r h_r => by rw [Function.comp, (h_row r h_r).2.2]

theorem stats_total (rows : List TaskNode) (t : ℕ) :
    (stats rows t).success + (stats rows t).error + (stats rows t).pending =
      rows.countP (·.taskId = t) := by
  induction rows with
  | nil => rfl
  | cons r rows ih =>
    simp only [stats, List.countP_cons] at ih ⊢
    by_cases h_t : r.taskId = t
    · cases h_status : r.status <;> simp [h_t] <;> omega
    · simp [h_t, ih]

theorem stats_pending_eq_zero (h : ∀ r ∈ rows, r.taskId = t → r.status.Closed) :
    (stats rows t).pending = 0 := by
  refine List.countP_eq_zero.mpr fun r h_r h_pending => ?_
  rw [Bool.and_eq_true, decide_eq_true_iff] at h_pending
  have h_closed := h r h_r h_pending.1
  revert h_closed h_pending
  cases r.status <;> simp [NodeStatus.Closed]

theorem stats_append_of_ne {rows' : List TaskNode} (h : ∀ r ∈ rows', r.taskId ≠ t) :
    stats (rows ++ rows') t = stats rows t := by
  have h_zero (p : TaskNode → Bool) : rows'.countP (fun r => r.taskId = t && p r) = 0 := by
    refine List.countP_eq_zero.mpr fun r h_r h_both => ?_
    rw [Bool.and_eq_true, decide_eq_true_iff] at h_both
    exact h r h_r h_both.1
  ext
  · show (rows ++ rows').countP _ = _
    rw [List.countP_append, h_zero (fun r => r.status = .success), add_zero]
    rfl
  · show (rows ++ rows').countP _ = _
    rw [List.countP_append, h_zero (fun r => r.status = .error), add_zero]
    rfl
  · show (rows ++ rows').countP _ = _
    rw [List.countP_append, h_zero (fun r => r.status = .waiting || r.status = .running), add_zero]
    rfl

end Stats

section Accounts

variable {s : State} {w : World} {p : Party} {i t : ℕ} {part : Part} {task task' : ActionTask}
  {now : Stats}

/-! ### The rows after an access -/

def Touches (t : ℕ) : Party → Prop
  | .converging _ _ ((t', _) :: _) _ => t' = t
  | .timingOut t' (_ :: _) => t' = t
  | _ => False

/-- What an access in order makes of a row. -/
structure Moves (p : Party) (r r' : TaskNode) : Prop where
  taskId : r'.taskId = r.taskId
  closed : r.status.Closed → r'.status = r.status
  proven : Proven r → Proven r'
  kind : ¬Touches r.taskId p → SameKind r.status r'.status

theorem Moves.refl (p : Party) (r : TaskNode) : Moves p r r :=
  ⟨rfl, fun _ => rfl, id, fun _ => .inl rfl⟩

theorem Moves.running {r : TaskNode} (h : r.status.Closed → r.status = .running) :
    Moves p r (r.setStatus .running) := by
  have h_open : ¬r.status.Closed := by
    intro h_closed
    rw [h h_closed] at h_closed
    exact h_closed
  refine ⟨rfl, fun h_closed => absurd h_closed h_open, fun _ h_success => ?_, fun _ => ?_⟩
  · cases h_success
  · exact .inr ⟨h_open, id⟩

theorem Moves.conclude {r : TaskNode} {status : NodeStatus} {arrived : ℕ}
    (h_touches : Touches r.taskId p) (h : r.status.Closed → r.status = status)
    (h_delivered : status = .success → ∃ d ∈ r.deliveredAt, d < arrived) :
    Moves p r (r.conclude status arrived) where
  taskId := rfl
  closed h_closed := (h h_closed).symm
  proven _ h_success := by
    have h_status : status = .success := h_success
    obtain ⟨d, h_d, h_lt⟩ := h_delivered h_status
    exact ⟨d, arrived, h_d, if_pos h_status, h_lt⟩
  kind h_not := absurd h_touches h_not

theorem Moves.error {r : TaskNode} (h_touches : Touches r.taskId p)
    (h : r.status.Closed → r.status = .error) : Moves p r (r.setStatus .error) where
  taskId := rfl
  closed h_closed := (h h_closed).symm
  proven _ h_success := nomatch h_success
  kind h_not := absurd h_touches h_not

theorem Moves.deliver {r : TaskNode} (h : r.deliveredAt = none) (clock : ℕ) :
    Moves p r { r with deliveredAt := some clock } where
  taskId := rfl
  closed _ := rfl
  proven h_proven h_success := by
    obtain ⟨d, e, h_d, -, -⟩ := h_proven h_success
    rw [h] at h_d
    cases h_d
  kind _ := .inl rfl

def Creates : Party → Prop
  | .operate (_ :: _) _ _ => True
  | _ => False

theorem rows_write (h : InOrder s i p) (h_create : ¬Creates p) :
    ∃ g, (write s.world p).taskNodes = s.world.taskNodes.map g ∧
      ∀ r ∈ s.world.taskNodes, Moves p r (g r) := by
  have h_id {w' : World} (h_rows : w'.taskNodes = s.world.taskNodes) :
      ∃ g, w'.taskNodes = s.world.taskNodes.map g ∧ ∀ r ∈ s.world.taskNodes, Moves p r (g r) :=
    ⟨id, h_rows.trans (List.map_id _).symm, fun r _ => .refl p r⟩
  -- a row is saved
  have h_save {t : ℕ} {nodeId : String} {f : TaskNode → TaskNode}
      (h_f : ∀ r ∈ s.world.taskNodes, r.taskId = t → r.nodeId = nodeId → Moves p r (f r)) :
      ∃ g, (s.world.saveRow t nodeId f).taskNodes = s.world.taskNodes.map g ∧
        ∀ r ∈ s.world.taskNodes, Moves p r (g r) := by
    refine ⟨_, rfl, fun r h_r => ?_⟩
    split_ifs with h_row
    · exact h_f r h_r h_row.1 h_row.2
    · exact .refl p r
  cases p with
  | acked nodeId id items item rest status =>
    match status with
    | none => exact h_id rfl
    | some .waiting => exact h_save fun r h_r h_t h_n => .running (h r h_r h_t h_n)
    | some .running => exact h_id rfl
    | some .success => exact h_id rfl
    | some .error => exact h_id rfl
  | acking nodeId id items rest => cases rest <;> exact h_id rfl
  | responding nodeId items =>
    refine ⟨_, rfl, fun r _ => ?_⟩
    split_ifs with h_row
    · exact .deliver h_row.2.2 s.world.clock
    · exact .refl _ r
  | converging nodeId arrived rest affected =>
    match rest with
    | [] => exact h_id rfl
    | (t, status) :: rest =>
      exact h_save fun r h_r h_t h_n =>
        .conclude h_t.symm (h.1 r h_r h_t h_n) fun h_status => h.2 h_status r h_r h_t h_n
  | timingOut t nodeIds =>
    match nodeIds with
    | [] => exact h_id rfl
    | nodeId :: nodeIds =>
      exact h_save fun r h_r h_t h_n => .error h_t.symm (h r h_r h_t h_n)
  | counting items => cases items <;> exact h_id rfl
  | operate nodeIds collectorId operation =>
    match nodeIds with
    | [] => exact h_id rfl
    | _ :: _ => exact absurd trivial h_create
  | submitted item nodeId status copies =>
    match status with
    | .waiting => exact h_save fun r h_r h_t h_n => .running (h r h_r h_t h_n)
    | .running => exact h_id rfl
    | .success => exact h_id rfl
    | .error => exact h_id rfl
  | _ => exact h_id rfl

/-! ### The tasks after an access -/

/-- That part of the task agrees with the rows. A task with rows that are not closed may have any
status. -/
def Right (now : Stats) (part : Part) (task : ActionTask) : Prop :=
  match part with
  | .status => task.status = .finished ∨ 0 < now.pending
  | .counts => task.successCount = now.success ∧ task.errorCount = now.error

theorem due_of_touches (h : Touches t p) : Due now t part (next w p) := by
  cases p with
  | converging nodeId arrived rest affected =>
    match rest with
    | [] => exact h.elim
    | (t', status) :: rest =>
      obtain rfl : t' = t := h
      exact List.mem_append_right affected (List.mem_singleton_self t')
  | timingOut t' nodeIds =>
    match nodeIds with
    | [] => exact h.elim
    | _ :: _ => exact h
  | _ => exact h.elim

theorem lookup_map_pair {ts : List ℕ} (f : ℕ → Stats) (h : t ∈ ts) :
    (ts.map fun t => (t, f t)).lookup t = some (f t) := by
  induction ts with
  | nil => cases h
  | cons t' ts ih =>
    rw [List.map_cons, List.lookup_cons]
    by_cases h_t : t = t'
    · subst h_t
      rw [beq_self_eq_true]
    · rw [beq_false_of_ne h_t]
      exact ih ((List.mem_cons.mp h).resolve_left h_t)

theorem exists_mem_of_any_lookup {items : List (ℕ × Stats)} {q : Stats → Bool}
    (h : (items.lookup t).any q = true) : ∃ counts, (t, counts) ∈ items ∧ q counts = true := by
  cases h_counts : items.lookup t with
  | none =>
    rw [h_counts] at h
    cases h
  | some counts =>
    rw [h_counts] at h
    obtain ⟨before, after, rfl, -⟩ := List.lookup_eq_some_iff.mp h_counts
    exact ⟨counts, List.mem_append_right before List.mem_cons_self, h⟩

theorem task_write (h : InOrder s i p) (h_create : ¬Creates p)
    (h_now : now = stats s.world.taskNodes t)
    (h_rows : ∀ task, s.world.tasks.lookup t = some task →
      0 < now.success + now.error + now.pending)
    (h_task : (write s.world p).tasks.lookup t = some task') :
    ∃ task, s.world.tasks.lookup t = some task ∧ task'.totalCount = task.totalCount ∧
      ∀ part, (Right now part task → Right now part task' ∨ Other s i t part) ∧
        (Due now t part p → Right now part task' ∨ Due now t part (next s.world p)) := by
  have h_same (h_task : s.world.tasks.lookup t = some task')
      (h_due : ∀ part, Due now t part p → Due now t part (next s.world p)) :
      ∃ task, s.world.tasks.lookup t = some task ∧ task'.totalCount = task.totalCount ∧
        ∀ part, (Right now part task → Right now part task' ∨ Other s i t part) ∧
          (Due now t part p → Right now part task' ∨ Due now t part (next s.world p)) :=
    ⟨task', h_task, rfl, fun part => ⟨.inl, fun h_p => .inr (h_due part h_p)⟩⟩
  cases p with
  | acked nodeId id items item rest status =>
    match status with
    | some .running =>
      obtain ⟨task, h_old, h_eq⟩ := Table.lookup_modify_eq_some h_task
      refine ⟨task, h_old, ?_, fun part => ⟨fun h_right => .inl ?_, fun h_due => h_due.elim⟩⟩
      · rw [h_eq]
        unfold ActionTask.begin
        split_ifs <;> rfl
      · rw [h_eq]
        unfold ActionTask.begin
        cases part with
        | status =>
          refine h_right.imp_left fun h_finished => ?_
          split_ifs with h_t h_waiting
          · rw [h_finished] at h_waiting
            cases h_waiting
          · exact h_finished
          · exact h_finished
        | counts => split_ifs <;> exact h_right
    | none => exact h_same h_task fun _ h_due => h_due.elim
    | some .waiting => exact h_same h_task fun _ h_due => h_due.elim
    | some .success => exact h_same h_task fun _ h_due => h_due.elim
    | some .error => exact h_same h_task fun _ h_due => h_due.elim
  | acking nodeId id items rest =>
    cases rest <;> exact h_same h_task fun _ h_due => h_due.elim
  | converging nodeId arrived rest affected =>
    match rest with
    | [] => exact h_same h_task fun _ h_due => h_due
    | (t', status) :: rest => exact h_same h_task fun _ h_due => List.mem_append_left [t'] h_due
  | timingOut t' nodeIds =>
    match nodeIds with
    | [] => exact h_same h_task fun _ h_due => List.mem_singleton.mpr h_due.symm
    | nodeId :: nodeIds => exact h_same h_task fun _ h_due => h_due
  | reconciling ts =>
    refine h_same h_task fun _ h_due => ?_
    rw [h_now]
    exact lookup_map_pair _ (List.mem_dedup.mpr h_due)
  | marking items =>
    change (Table.mapRows _ _).lookup t = _ at h_task
    rw [Table.lookup_mapRows] at h_task
    obtain ⟨task, h_old, rfl⟩ := Option.map_eq_some_iff.mp h_task
    refine ⟨task, h_old, ?_, fun part => ⟨fun h_right => ?_, fun h_due => .inr h_due⟩⟩
    · split_ifs <;> rfl
    · split_ifs with h_marked
      · cases part with
        | counts => exact .inl h_right
        | status =>
          -- it is marked as running: it is, or it is to be marked again
          obtain ⟨counts, h_mem, h_pending⟩ := exists_mem_of_any_lookup h_marked
          obtain h_now' | h_other := h (t, counts) h_mem (of_decide_eq_true h_pending)
          · exact .inl (.inr (h_now ▸ h_now'))
          · exact .inr h_other
      · exact .inl h_right
  | finishing items =>
    change (Table.mapRows _ _).lookup t = _ at h_task
    rw [Table.lookup_mapRows] at h_task
    obtain ⟨task, h_old, rfl⟩ := Option.map_eq_some_iff.mp h_task
    refine ⟨task, h_old, ?_, fun part => ⟨fun h_right => .inl ?_, fun h_due => ?_⟩⟩
    · split_ifs <;> rfl
    · split_ifs
      · cases part with
        | counts => exact h_right
        | status => exact .inl rfl
      · exact h_right
    · cases part with
      | counts => exact .inr ⟨rfl, h_due⟩
      | status =>
        refine .inl ?_
        by_cases h_pending : 0 < now.pending
        · exact .inr h_pending
        · refine .inl ?_
          have h_lookup : items.lookup t = some now := h_due
          have h_done : (now.pending = 0 && 0 < now.success + now.error : Bool) = true := by
            have h_pos := h_rows task h_old
            simp only [Bool.and_eq_true, decide_eq_true_iff]
            omega
          rw [h_lookup, Option.any_some, if_pos h_done]
  | counting items =>
    match items with
    | [] => exact h_same h_task fun _ h_due => h_due
    | (t', counts) :: items =>
      obtain ⟨task, h_old, h_eq⟩ := Table.lookup_modify_eq_some h_task
      refine ⟨task, h_old, ?_, fun part => ⟨fun h_right => ?_, fun h_due => ?_⟩⟩
      · rw [h_eq]
        split_ifs <;> rfl
      · rw [h_eq]
        split_ifs with h_t
        · subst h_t
          cases part with
          | status => exact .inl h_right
          | counts =>
            refine h.imp_left fun h_counts => ?_
            rw [h_now]
            exact h_counts
        · exact .inl h_right
      · obtain ⟨rfl, h_lookup⟩ := h_due
        rw [h_eq]
        by_cases h_t : t = t'
        · subst h_t
          rw [List.lookup_cons_self, Option.some.injEq] at h_lookup
          rw [if_pos rfl, h_lookup]
          exact .inl ⟨rfl, rfl⟩
        · rw [List.lookup_cons, beq_false_of_ne h_t] at h_lookup
          exact .inr ⟨rfl, h_lookup⟩
  | operate nodeIds collectorId operation =>
    match nodeIds with
    | [] => exact h_same h_task fun _ h_due => h_due.elim
    | _ :: _ => exact absurd trivial h_create
  | submitted item nodeId status copies =>
    cases status <;> exact h_same h_task fun _ h_due => h_due.elim
  | _ => exact h_same h_task fun _ h_due => h_due.elim

/-! ### The invariant -/

structure Inv (s : State) : Prop where
  below : Table.Below s.world.tasks s.world.nextTaskId
  rows_below : ∀ r ∈ s.world.taskNodes, r.taskId < s.world.nextTaskId
  total : ∀ t task, s.world.tasks.lookup t = some task →
    s.world.taskNodes.countP (·.taskId = t) = task.totalCount ∧ 0 < task.totalCount
  parts : ∀ t task part, s.world.tasks.lookup t = some task →
    Right (stats s.world.taskNodes t) part task ∨
      ∃ p ∈ s.parties, Due (stats s.world.taskNodes t) t part p
  proven : ∀ r ∈ s.world.taskNodes, Proven r

theorem inv_init : Inv {} where
  below _ _ := rfl
  rows_below _ h_r := absurd h_r List.not_mem_nil
  total _ _ h_task := nomatch h_task
  parts _ _ _ h_task := nomatch h_task
  proven _ h_r := absurd h_r List.not_mem_nil

theorem Inv.tick (h : Inv s) (clock : ℕ) : Inv { s with world := { s.world with clock } } :=
  ⟨h.below, h.rows_below, h.total, h.parts, h.proven⟩

theorem Inv.join (h : Inv s) (p : Party) : Inv { s with parties := s.parties ++ [p] } where
  below := h.below
  rows_below := h.rows_below
  total := h.total
  parts t task part h_task := by
    refine (h.parts t task part h_task).imp_right ?_
    rintro ⟨q, h_q, h_due⟩
    exact ⟨q, List.mem_append_left [p] h_q, h_due⟩
  proven := h.proven

theorem Inv.stats_pos (h : Inv s) (h_task : s.world.tasks.lookup t = some task) :
    0 < (stats s.world.taskNodes t).success + (stats s.world.taskNodes t).error +
      (stats s.world.taskNodes t).pending := by
  obtain ⟨h_total, h_pos⟩ := h.total t task h_task
  rw [stats_total, h_total]
  exact h_pos

theorem nextTaskId_write (w : World) (h_create : ¬Creates p) :
    (write w p).nextTaskId = w.nextTaskId := by
  cases p with
  | acked nodeId id items item rest status =>
    match status with
    | none => rfl
    | some .waiting => rfl
    | some .running => rfl
    | some .success => rfl
    | some .error => rfl
  | acking nodeId id items rest => cases rest <;> rfl
  | converging nodeId arrived rest affected => cases rest <;> rfl
  | timingOut t nodeIds => cases nodeIds <;> rfl
  | counting items => cases items <;> rfl
  | operate nodeIds collectorId operation =>
    match nodeIds with
    | [] => rfl
    | _ :: _ => exact absurd trivial h_create
  | submitted item nodeId status copies => cases status <;> rfl
  | _ => rfl

theorem mem_set_of_mem_eraseIdx {p' q : Party} (h : q ∈ s.parties.eraseIdx i) :
    q ∈ s.parties.set i p' := by
  obtain ⟨j, h_j, h_q⟩ := List.mem_eraseIdx_iff_getElem?.mp h
  exact List.mem_iff_getElem?.mpr ⟨j, by rwa [List.getElem?_set_ne h_j.symm]⟩

theorem Inv.serve (h : Inv s) (h_p : s.parties[i]? = some p) (h_order : InOrder s i p)
    (h_create : ¬Creates p) : Inv ⟨write s.world p, s.parties.set i (next s.world p)⟩ := by
  obtain ⟨g, h_rows, h_moves⟩ := rows_write h_order h_create
  have h_count (t : ℕ) : (write s.world p).taskNodes.countP (·.taskId = t) =
      s.world.taskNodes.countP (·.taskId = t) := by
    rw [h_rows, List.countP_map]
    exact List.countP_congr fun r h_r => by rw [Function.comp, (h_moves r h_r).taskId]
  -- a task found afterwards was there before
  have h_old {t : ℕ} {task' : ActionTask} (h_task : (write s.world p).tasks.lookup t = some task') :
      ∃ task, s.world.tasks.lookup t = some task ∧ task'.totalCount = task.totalCount ∧
        ∀ part, (Right (stats s.world.taskNodes t) part task →
            Right (stats s.world.taskNodes t) part task' ∨ Other s i t part) ∧
          (Due (stats s.world.taskNodes t) t part p →
            Right (stats s.world.taskNodes t) part task' ∨
              Due (stats s.world.taskNodes t) t part (next s.world p)) :=
    task_write h_order h_create rfl (fun _ h_task => h.stats_pos h_task) h_task
  refine ⟨?_, ?_, fun t task' h_task => ?_, fun t task' part h_task => ?_, ?_⟩
  · intro t h_t
    show (write s.world p).tasks.lookup t = none
    have h_t' : s.world.nextTaskId ≤ t := (nextTaskId_write s.world h_create).symm.trans_le h_t
    cases h_task : (write s.world p).tasks.lookup t with
    | none => rfl
    | some task' =>
      obtain ⟨task, h_task₀, -⟩ := h_old h_task
      rw [h.below t h_t'] at h_task₀
      cases h_task₀
  · intro r' h_r'
    change r' ∈ (write s.world p).taskNodes at h_r'
    rw [h_rows] at h_r'
    obtain ⟨r, h_r, rfl⟩ := List.mem_map.mp h_r'
    rw [(h_moves r h_r).taskId]
    exact (h.rows_below r h_r).trans_eq (nextTaskId_write s.world h_create).symm
  · obtain ⟨task, h_task₀, h_total, -⟩ := h_old h_task
    rw [h_count t, h_total]
    exact h.total t task h_task₀
  · by_cases h_touches : Touches t p
    · exact .inr (Rows.exists_set h_p (due_of_touches h_touches))
    · have h_stats : stats (write s.world p).taskNodes t = stats s.world.taskNodes t := by
        rw [h_rows]
        refine stats_map (fun r h_r => (h_moves r h_r).taskId) fun r h_r h_t => ?_
        exact (h_moves r h_r).kind (h_t ▸ h_touches)
      obtain ⟨task, h_task₀, -, h_parts⟩ := h_old h_task
      obtain ⟨h_right, h_due⟩ := h_parts part
      show Right (stats (write s.world p).taskNodes t) part task' ∨ _
      rw [h_stats]
      obtain h_was | ⟨q, h_q, h_q_due⟩ := h.parts t task part h_task₀
      · refine (h_right h_was).imp_right ?_
        rintro ⟨q, h_q, h_q_due⟩
        exact ⟨q, mem_set_of_mem_eraseIdx h_q, h_q_due⟩
      · obtain ⟨j, h_j⟩ := List.mem_iff_getElem?.mp h_q
        by_cases h_i : i = j
        · -- the party itself was to write it
          subst h_i
          rw [h_p, Option.some.injEq] at h_j
          subst h_j
          exact (h_due h_q_due).imp_right fun h_next => Rows.exists_set h_p h_next
        · refine .inr ⟨q, List.mem_iff_getElem?.mpr ⟨j, ?_⟩, h_q_due⟩
          rwa [List.getElem?_set_ne h_i]
  · intro r' h_r'
    change r' ∈ (write s.world p).taskNodes at h_r'
    rw [h_rows] at h_r'
    obtain ⟨r, h_r, rfl⟩ := List.mem_map.mp h_r'
    exact (h_moves r h_r).proven (h.proven r h_r)

def newRows (t : ℕ) (nodeIds : List String) : List TaskNode :=
  nodeIds.map fun nodeId => { taskId := t, nodeId, status := .waiting }

theorem of_mem_newRows {nodeIds : List String} {r : TaskNode} (h : r ∈ newRows t nodeIds) :
    r.taskId = t ∧ r.status = .waiting := by
  obtain ⟨nodeId, -, rfl⟩ := List.mem_map.mp h
  exact ⟨rfl, rfl⟩

theorem stats_newRows {rows : List TaskNode} {nodeIds : List String}
    (h : ∀ r ∈ rows, r.taskId < t) :
    stats (rows ++ newRows t nodeIds) t = ⟨0, 0, nodeIds.length⟩ := by
  have h_zero (status : NodeStatus) (h_status : status ≠ .waiting) :
      (rows ++ newRows t nodeIds).countP (fun r => r.taskId = t && r.status = status) = 0 := by
    refine List.countP_eq_zero.mpr fun r h_r h_both => ?_
    rw [Bool.and_eq_true, decide_eq_true_iff, decide_eq_true_iff] at h_both
    obtain h_old | h_new := List.mem_append.mp h_r
    · exact (h r h_old).ne h_both.1
    · exact h_status (h_both.2.symm.trans (of_mem_newRows h_new).2)
  have h_total : (rows ++ newRows t nodeIds).countP (·.taskId = t) = nodeIds.length := by
    rw [List.countP_append, List.countP_eq_zero.mpr, zero_add, List.countP_eq_length.mpr, newRows,
      List.length_map]
    · exact fun r h_r => decide_eq_true (of_mem_newRows h_r).1
    · exact fun r h_r h_t => (h r h_r).ne (of_decide_eq_true h_t)
  have h_success : (stats (rows ++ newRows t nodeIds) t).success = 0 := h_zero .success nofun
  have h_error : (stats (rows ++ newRows t nodeIds) t).error = 0 := h_zero .error nofun
  have h_sum := stats_total (rows ++ newRows t nodeIds) t
  ext
  · exact h_success
  · exact h_error
  · show (stats (rows ++ newRows t nodeIds) t).pending = nodeIds.length
    omega

theorem Inv.create (h : Inv s) {nodeId : String} {nodeIds : List String}
    {collectorId operation : String} (p' : Party)
    (h_p : s.parties[i]? = some (.operate (nodeId :: nodeIds) collectorId operation)) :
    Inv ⟨s.world.create (nodeId :: nodeIds) collectorId operation, s.parties.set i p'⟩ := by
  have h_lookup {t : ℕ} {task : ActionTask}
      (h_task : (s.world.create (nodeId :: nodeIds) collectorId operation).tasks.lookup t =
        some task) :
      (t = s.world.nextTaskId ∧ task =
        { collectorId, action := operation, status := .waiting
          totalCount := (nodeId :: nodeIds).length }) ∨
        t ≠ s.world.nextTaskId ∧ s.world.tasks.lookup t = some task := by
    change (s.world.tasks.insert _ _).lookup t = _ at h_task
    rw [Table.lookup_insert] at h_task
    split_ifs at h_task with h_t
    · cases h_task
      exact .inl ⟨h_t, rfl⟩
    · exact .inr ⟨h_t, h_task⟩
  have h_ne {t : ℕ} (h_t : t ≠ s.world.nextTaskId) :
      ∀ r ∈ newRows s.world.nextTaskId (nodeId :: nodeIds), r.taskId ≠ t :=
    fun r h_r h_eq => h_t (h_eq.symm.trans (of_mem_newRows h_r).1)
  refine ⟨(h.below.mono (Nat.le_succ _)).insert (Nat.lt_succ_self _), fun r h_r => ?_,
    fun t task h_task => ?_, fun t task part h_task => ?_, fun r h_r => ?_⟩
  · show r.taskId < s.world.nextTaskId + 1
    obtain h_old | h_new := List.mem_append.mp h_r
    · exact Nat.lt_succ_of_lt (h.rows_below r h_old)
    · rw [(of_mem_newRows h_new).1]
      exact Nat.lt_succ_self _
  · show (s.world.taskNodes ++ newRows _ _).countP _ = _ ∧ _
    obtain ⟨rfl, rfl⟩ | ⟨h_t, h_old⟩ := h_lookup h_task
    · rw [← stats_total, stats_newRows h.rows_below]
      exact ⟨Nat.zero_add _, Nat.succ_pos _⟩
    · have h_zero : (newRows s.world.nextTaskId (nodeId :: nodeIds)).countP (·.taskId = t) = 0 :=
        List.countP_eq_zero.mpr fun r h_r h_eq => h_ne h_t r h_r (of_decide_eq_true h_eq)
      rw [List.countP_append, h_zero, add_zero]
      exact h.total t task h_old
  · show Right (stats (s.world.taskNodes ++ newRows _ _) t) part task ∨ ∃ p ∈ _,
      Due (stats (s.world.taskNodes ++ newRows _ _) t) t part p
    obtain ⟨rfl, rfl⟩ | ⟨h_t, h_old⟩ := h_lookup h_task
    · rw [stats_newRows h.rows_below]
      refine .inl ?_
      cases part with
      | status => exact .inr (Nat.succ_pos _)
      | counts => exact ⟨rfl, rfl⟩
    · rw [stats_append_of_ne (h_ne h_t)]
      exact (h.parts t task part h_old).imp_right
        (Rows.exists_set_of_exists h_p fun h_due => h_due.elim)
  · obtain h_old | h_new := List.mem_append.mp h_r
    · exact h.proven r h_old
    · intro h_success
      rw [(of_mem_newRows h_new).2] at h_success
      cases h_success

theorem Inv.step (h : Inv s) (a : Action) (h_guard : Guard s a (step s a)) :
    Inv (step s a) := by
  unfold ActionTasks.step
  cases a with
  | heartbeat nodeId report => exact (h.join _).tick _
  | converge nodeId => exact (h.join _).tick _
  | timeout t => exact (h.join _).tick _
  | operate nodeIds collectorId operation => exact (h.join _).tick _
  | serve i =>
    refine Inv.tick ?_ _
    dsimp only
    cases h_p : s.parties[i]? with
    | none => exact h
    | some p =>
      have h_order : InOrder s i p := h_guard p h_p
      by_cases h_create : Creates p
      · match p, h_create with
        | .operate (_ :: _) _ _, _ => exact h.create _ h_p
      · exact h.serve h_p h_order h_create

/-! ### The account -/

theorem not_due_of_not_owes (h : ¬Owes t p) : ¬Due now t part p := by
  have h_items {items : List (ℕ × Stats)} (h_lookup : items.lookup t = some now) :
      t ∈ items.map Prod.fst := by
    obtain ⟨before, after, rfl, -⟩ := List.lookup_eq_some_iff.mp h_lookup
    simp
  cases p with
  | converging nodeId arrived rest affected => exact h
  | timingOut t' nodeIds => exact h
  | reconciling ts => exact h
  | marking items => exact fun h_due => h (h_items h_due)
  | finishing items => exact fun h_due => h (h_items h_due)
  | counting items => exact fun h_due => h (h_items h_due.2)
  | _ => exact id

theorem Inv.accounted (h : Inv s) : Accounted s := by
  intro t task h_task h_quiet h_closed
  have h_right (part : Part) : Right (stats s.world.taskNodes t) part task := by
    obtain h_right | ⟨p, h_p, h_due⟩ := h.parts t task part h_task
    · exact h_right
    · exact absurd h_due (not_due_of_not_owes (h_quiet p h_p))
  have h_pending : (stats s.world.taskNodes t).pending = 0 := stats_pending_eq_zero h_closed
  obtain ⟨h_success, h_error⟩ := h_right .counts
  refine ⟨?_, h_success, h_error, ?_⟩
  · obtain h_finished | h_some := h_right .status
    · exact h_finished
    · exact absurd h_pending h_some.ne'
  · have h_total := stats_total s.world.taskNodes t
    rw [(h.total t task h_task).1, h_pending, add_zero] at h_total
    rw [h_success, h_error, h_total]

theorem stayClosed_step (a : Action) (h_guard : Guard s a (step s a)) :
    StayClosed s.world.taskNodes (step s a).world.taskNodes := by
  intro k r h_r h_closed
  unfold step
  cases a with
  | serve i =>
    dsimp only
    cases h_p : s.parties[i]? with
    | none => exact ⟨r, h_r, rfl⟩
    | some p =>
      show ∃ r', (write s.world p).taskNodes[k]? = some r' ∧ _
      by_cases h_create : Creates p
      · match p, h_create with
        | .operate (nodeId :: nodeIds) collectorId operation, _ =>
          refine ⟨r, ?_, rfl⟩
          show (s.world.taskNodes ++ newRows _ _)[k]? = some r
          rw [List.getElem?_append_left (List.getElem?_eq_some_iff.mp h_r).1, h_r]
      · obtain ⟨g, h_rows, h_moves⟩ := rows_write (h_guard p h_p) h_create
        refine ⟨g r, ?_, (h_moves r (List.mem_of_getElem? h_r)).closed h_closed⟩
        rw [h_rows, List.getElem?_map, h_r]
        rfl
  | _ => exact ⟨r, h_r, rfl⟩

end Accounts

/-- **Action tasks are accounted for** in runs whose accesses are in order. -/
theorem kept_of_inOrder {actions : List Action} (h : Along step Guard {} actions) :
    Kept actions where
  closed := by
    refine h.trans (I := fun _ => True) (fun s a _ h_guard => ⟨trivial, ?_⟩) trivial
    exact stayClosed_step a h_guard
  accounted pre h_pre :=
    (h.always (fun _ a h_inv h_guard => h_inv.step a h_guard) inv_init pre h_pre).accounted
  proven pre h_pre :=
    (h.always (fun _ a h_inv h_guard => h_inv.step a h_guard) inv_init pre h_pre).proven

section Examples

private def collectorRuns : List CollectorItem := [⟨some "telegraf", some 0⟩]

/-- A collector is started on a node, the node takes the action and then reports that the
collector runs. -/
private def started : List Action :=
  .operate ["n1"] "telegraf" "start" :: List.replicate 7 (.serve 0) ++
    .heartbeat "n1" [] :: List.replicate 6 (.serve 1) ++
    .heartbeat "n1" collectorRuns :: List.replicate 3 (.serve 2)

private def converged : List Action := started ++ .converge "n1" :: List.replicate 9 (.serve 3)

theorem kept_converged : Kept converged ∧
    (run step {} converged).world.tasks.lookup 1 =
      some ⟨"telegraf", "start", .finished, 1, 1, 0⟩ :=
  ⟨kept_of_inOrder (by decide +kernel), by decide +kernel⟩

/-- The task is timed out just as it converges: the rows that are left have been read before the
one of the node succeeds. -/
private def overtaken : List Action :=
  started ++ [.timeout 1, .serve 3, .serve 3] ++ .converge "n1" :: List.replicate 3 (.serve 4)

/-- **Timed out after its success.** The row that has succeeded is saved as an error. -/
theorem not_kept : ¬∀ actions, Kept actions := by
  intro h
  have h_step := (h (overtaken ++ [.serve 3])).closed.at_step
  have h_before : (run step {} overtaken).world.taskNodes[0]? =
      some ⟨1, "n1", .success, some 14, some 15⟩ := by
    decide +kernel
  obtain ⟨r, h_r, h_status⟩ := h_step 0 _ h_before trivial
  have h_after : (step (run step {} overtaken) (.serve 3)).world.taskNodes[0]? =
      some ⟨1, "n1", .error, some 14, some 15⟩ := by
    decide +kernel
  rw [h_after] at h_r
  cases h_r
  cases h_status

end Examples

end NodeMgmt.ActionTasks
