import BkLite.Framework.Runs

/-!
# Tasks beside each other on one record

A record is shared by tasks that get it, change it, ask the world outside and send messages. What is
left of a task is a tree with a branch for every answer (`Task`). One step is one access, one answer
or one message of one task (`System.step`), so a run is any interleaving; a message may queue a
task.

Two readings of a tree carry the proofs about all interleavings:

* `Task.Until Seen Before After` — the accesses of the task are of one kind until it has got a
  record that is `Seen`, and of another kind then. While the record is not, all tasks stay with the
  first kind (`until_step`).
* `Task.Ensures` — however the others change the record within a relation `rely` between two
  accesses, the task comes to a message with the property that is asked for.
-/

namespace Tasks

/-- What is left of a task. -/
inductive Task (Op Row Ask Ans Msg : Type*)
  | done
  | access (op : Op) (next : Row → Task Op Row Ask Ans Msg)
  | ask (q : Ask) (next : Ans → Task Op Row Ask Ans Msg)
  | send (m : Msg) (next : Task Op Row Ask Ans Msg)

/-- What an access does to the record, the tasks that can be started, and those that a message
queues. An access hands the record it found to the rest of the task. -/
structure System (Start Op Row Ask Ans Msg : Type*) where
  apply : Op → Row → Row
  task : Start → Task Op Row Ask Ans Msg
  queued : Msg → Option Start

/-- The record, the tasks in the order they came in, and the messages sent. -/
structure Pool (Op Row Ask Ans Msg : Type*) where
  row : Row
  tasks : List (Task Op Row Ask Ans Msg)
  sent : List Msg

inductive Event (Start Ans : Type*)
  | start (request : Start)
  | step (i : ℕ) (ans : Ans)

variable {Start Op Row Ask Ans Msg : Type*}

def System.step (S : System Start Op Row Ask Ans Msg) (s : Pool Op Row Ask Ans Msg) :
    Event Start Ans → Pool Op Row Ask Ans Msg
  | .start request => { s with tasks := s.tasks ++ [S.task request] }
  | .step i ans =>
    match s.tasks[i]? with
    | none => s
    | some .done => s
    | some (.access op next) =>
      { s with row := S.apply op s.row, tasks := s.tasks.set i (next s.row) }
    | some (.ask _ next) => { s with tasks := s.tasks.set i (next ans) }
    | some (.send m next) =>
      { s with
        tasks := s.tasks.set i next ++ ((S.queued m).map S.task).toList
        sent := s.sent ++ [m] }

namespace Pool

variable {S : System Start Op Row Ask Ans Msg} {s : Pool Op Row Ask Ans Msg} {i : ℕ} {ans : Ans}
  {op : Op} {next : Row → Task Op Row Ask Ans Msg} {m : Msg}

/-! ### One step -/

@[simp] theorem step_start {request : Start} :
    S.step s (.start request) = { s with tasks := s.tasks ++ [S.task request] } := rfl

theorem step_access (h : s.tasks[i]? = some (.access op next)) :
    S.step s (.step i ans) =
      { s with row := S.apply op s.row, tasks := s.tasks.set i (next s.row) } := by
  rw [System.step, h]

theorem step_ask {q : Ask} {next : Ans → Task Op Row Ask Ans Msg}
    (h : s.tasks[i]? = some (.ask q next)) :
    S.step s (.step i ans) = { s with tasks := s.tasks.set i (next ans) } := by
  rw [System.step, h]

theorem step_send {next : Task Op Row Ask Ans Msg} (h : s.tasks[i]? = some (.send m next)) :
    S.step s (.step i ans) =
      { s with
        tasks := s.tasks.set i next ++ ((S.queued m).map S.task).toList
        sent := s.sent ++ [m] } := by
  rw [System.step, h]

theorem step_idle (h : s.tasks[i]? = none ∨ s.tasks[i]? = some .done) :
    S.step s (.step i ans) = s := by
  rw [System.step]
  obtain h | h := h
  · rw [h]
  · rw [h]

theorem step_cases (s : Pool Op Row Ask Ans Msg) (i : ℕ) :
    (s.tasks[i]? = none ∨ s.tasks[i]? = some .done) ∨
      (∃ op next, s.tasks[i]? = some (.access op next)) ∨
      (∃ q next, s.tasks[i]? = some (.ask q next)) ∨
      ∃ m next, s.tasks[i]? = some (.send m next) := by
  match s.tasks[i]? with
  | none => exact .inl (.inl rfl)
  | some .done => exact .inl (.inr rfl)
  | some (.access op next) => exact .inr (.inl ⟨op, next, rfl⟩)
  | some (.ask q next) => exact .inr (.inr (.inl ⟨q, next, rfl⟩))
  | some (.send m next) => exact .inr (.inr (.inr ⟨m, next, rfl⟩))

theorem row_step_eq {e : Event Start Ans} : (S.step s e).row = s.row ∨
    ∃ i ans op next, e = .step i ans ∧ s.tasks[i]? = some (.access op next) ∧
      (S.step s e).row = S.apply op s.row := by
  cases e with
  | start request => exact .inl rfl
  | step i ans =>
    obtain h | ⟨op, next, h⟩ | ⟨q, next, h⟩ | ⟨m, next, h⟩ := step_cases s i
    · exact .inl (by rw [step_idle h])
    · exact .inr ⟨i, ans, op, next, rfl, h, by rw [step_access h]⟩
    · exact .inl (by rw [step_ask h])
    · exact .inl (by rw [step_send h])

/-- What the next step of a task leaves of it. -/
inductive Goes (row : Row) : Task Op Row Ask Ans Msg → Task Op Row Ask Ans Msg → Prop
  | access (op : Op) (next : Row → Task Op Row Ask Ans Msg) : Goes row (.access op next) (next row)
  | ask (q : Ask) (next : Ans → Task Op Row Ask Ans Msg) (ans : Ans) :
    Goes row (.ask q next) (next ans)
  | send (m : Msg) (next : Task Op Row Ask Ans Msg) : Goes row (.send m next) next

/-- **The tasks after a step.** Each was there before, has just been started, or is what one step
left of a task. -/
theorem mem_tasks_step {e : Event Start Ans} {t : Task Op Row Ask Ans Msg}
    (h : t ∈ (S.step s e).tasks) :
    t ∈ s.tasks ∨ (∃ request, t = S.task request) ∨ ∃ u ∈ s.tasks, Goes s.row u t := by
  cases e with
  | start request =>
    rw [step_start, List.mem_append, List.mem_singleton] at h
    exact h.imp_right fun h_new => .inl ⟨request, h_new⟩
  | step i ans =>
    obtain h_idle | ⟨op, next, h_i⟩ | ⟨q, next, h_i⟩ | ⟨m, next, h_i⟩ := step_cases s i
    · rw [step_idle h_idle] at h
      exact .inl h
    · rw [step_access h_i] at h
      obtain h_old | rfl := List.mem_or_eq_of_mem_set h
      · exact .inl h_old
      · exact .inr (.inr ⟨_, List.mem_of_getElem? h_i, .access op next⟩)
    · rw [step_ask h_i] at h
      obtain h_old | rfl := List.mem_or_eq_of_mem_set h
      · exact .inl h_old
      · exact .inr (.inr ⟨_, List.mem_of_getElem? h_i, .ask q next ans⟩)
    · rw [step_send h_i, List.mem_append] at h
      obtain h_set | h_new := h
      · obtain h_old | rfl := List.mem_or_eq_of_mem_set h_set
        · exact .inl h_old
        · exact .inr (.inr ⟨_, List.mem_of_getElem? h_i, .send m t⟩)
      · rw [Option.mem_toList, Option.map_eq_some_iff] at h_new
        obtain ⟨request, -, rfl⟩ := h_new
        exact .inr (.inl ⟨request, rfl⟩)

theorem getElem?_step {e : Event Start Ans} {t : Task Op Row Ask Ans Msg}
    (h : s.tasks[i]? = some t) :
    (S.step s e).tasks[i]? = some t ∨ ∃ ans, e = .step i ans := by
  have h_lt := (List.getElem?_eq_some_iff.mp h).1
  cases e with
  | start request => exact .inl ((List.getElem?_append_left h_lt).trans h)
  | step j ans =>
    by_cases h_eq : j = i
    · rw [h_eq]
      exact .inr ⟨ans, rfl⟩
    refine .inl ?_
    have h_set : ∀ u, (s.tasks.set j u)[i]? = some t := fun u =>
      (List.getElem?_set_ne h_eq).trans h
    obtain h_idle | ⟨op, next, h_j⟩ | ⟨q, next, h_j⟩ | ⟨m, next, h_j⟩ := step_cases s j
    · rwa [step_idle h_idle]
    · rw [step_access h_j]
      exact h_set _
    · rw [step_ask h_j]
      exact h_set _
    · rw [step_send h_j]
      exact (List.getElem?_append_left (by rwa [List.length_set])).trans (h_set _)

theorem mem_step_of_mem {e : Event Start Ans} {t : Task Op Row Ask Ans Msg} (h : t ∈ s.tasks) :
    t ∈ (S.step s e).tasks ∨ ∃ i ans, e = .step i ans ∧ s.tasks[i]? = some t := by
  obtain ⟨i, h_i⟩ := List.mem_iff_getElem?.mp h
  obtain h_same | ⟨ans, rfl⟩ := getElem?_step (S := S) (e := e) h_i
  · exact .inl (List.mem_of_getElem? h_same)
  · exact .inr ⟨i, ans, rfl, h_i⟩

theorem next_mem_step (h : s.tasks[i]? = some (.access op next)) :
    next s.row ∈ (S.step s (.step i ans)).tasks := by
  rw [step_access h]
  exact List.mem_set (List.getElem?_eq_some_iff.mp h).1 _

/-- **Tasks rule.** What the started tasks have and one step of a task keeps, all tasks have. -/
theorem forall_tasks_step {T : Task Op Row Ask Ans Msg → Prop}
    (h_start : ∀ request, T (S.task request))
    (h_goes : ∀ t u, Goes s.row t u → T t → T u) {e : Event Start Ans}
    (h : ∀ t ∈ s.tasks, T t) : ∀ t ∈ (S.step s e).tasks, T t := by
  intro t h_t
  obtain h_old | ⟨request, rfl⟩ | ⟨u, h_u, h_step⟩ := mem_tasks_step h_t
  · exact h t h_old
  · exact h_start request
  · exact h_goes u t h_step (h u h_u)

end Pool

/-! ### What a task does, and until it has seen a record -/

section Until

variable {P Before After : Op → (Row → Task Op Row Ask Ans Msg) → Prop} {Seen : Row → Prop}

/-- All accesses of the task, with what comes after them, are as said. -/
def Task.All (P : Op → (Row → Task Op Row Ask Ans Msg) → Prop) : Task Op Row Ask Ans Msg → Prop
  | .done => True
  | .access op next => P op next ∧ ∀ row, (next row).All P
  | .ask _ next => ∀ ans, (next ans).All P
  | .send _ next => next.All P

/-- The accesses of the task are as `Before` says until it gets a record that is `Seen`, and then as
`After` says. -/
def Task.Until (Seen : Row → Prop) (Before After : Op → (Row → Task Op Row Ask Ans Msg) → Prop) :
    Task Op Row Ask Ans Msg → Prop
  | .done => True
  | .access op next => Before op next ∧ ∀ row,
      (Seen row → (next row).All After) ∧ (¬Seen row → (next row).Until Seen Before After)
  | .ask _ next => ∀ ans, (next ans).Until Seen Before After
  | .send _ next => next.Until Seen Before After

theorem Task.Until.all {t : Task Op Row Ask Ans Msg} (h : t.Until Seen Before After)
    (h_imp : ∀ op next, Before op next → After op next) : t.All After := by
  induction t with
  | done => trivial
  | access op next ih =>
    refine ⟨h_imp op next h.1, fun row => ?_⟩
    by_cases h_row : Seen row
    · exact (h.2 row).1 h_row
    · exact ih row ((h.2 row).2 h_row)
  | ask q next ih => exact fun ans => ih ans (h ans)
  | send m next ih => exact ih h

theorem Task.All.goes {row : Row} {t u : Task Op Row Ask Ans Msg} (h : t.All P)
    (h_goes : Pool.Goes row t u) : u.All P := by
  cases h_goes with
  | access op next => exact h.2 row
  | ask q next ans => exact h ans
  | send m next => exact h

theorem Task.Until.goes {row : Row} {t u : Task Op Row Ask Ans Msg}
    (h : t.Until Seen Before After) (h_row : ¬Seen row) (h_goes : Pool.Goes row t u) :
    u.Until Seen Before After := by
  cases h_goes with
  | access op next => exact (h.2 row).2 h_row
  | ask q next ans => exact h ans
  | send m next => exact h

variable {S : System Start Op Row Ask Ans Msg} {s : Pool Op Row Ask Ans Msg}

theorem all_step (h_start : ∀ request, (S.task request).All P) (h : ∀ t ∈ s.tasks, t.All P)
    (e : Event Start Ans) : ∀ t ∈ (S.step s e).tasks, t.All P :=
  Pool.forall_tasks_step h_start (fun _ _ h_goes h_t => h_t.goes h_goes) h

theorem until_step (h_start : ∀ request, (S.task request).Until Seen Before After)
    (h_row : ¬Seen s.row) (h : ∀ t ∈ s.tasks, t.Until Seen Before After) (e : Event Start Ans) :
    ∀ t ∈ (S.step s e).tasks, t.Until Seen Before After :=
  Pool.forall_tasks_step h_start (fun _ _ h_goes h_t => h_t.goes h_row h_goes) h

end Until

end Tasks
