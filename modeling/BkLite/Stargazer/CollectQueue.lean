import BkLite.Framework.Rows
import BkLite.Framework.Runs

/-!
# The queue of collect tasks

A collect request is deduplicated by two Redis keys (`enqueue_collect_task`, `core/task_queue.py`):
one for the dedupe key of its parameters, one for its task id, each with the id of a job. A request
that finds a job queued or running is skipped, one that does not clears the keys, enqueues a job and
then writes them. The worker clears them when the job is done (`collect_task`, `core/worker.py`);
the job of a host leaves with its remote collection under way, whose callback comes later
(`collect_host_metrics_task`). Each access to Redis is a step of its own here.

arq keeps a job in its queue until it has finished, so one look there tells if it is active. The
dedupe key itself is opaque: it is a digest of parameters.
-/

namespace Stargazer.CollectQueue

open Runs

/-! ### Requests and jobs -/

/-- `task:running:{task_id}` is of a dedupe key, of a fresh id, or of an id that was given. -/
inductive TaskId (Key : Type*)
  | ofKey (key : Key)
  | uuid (n : ℕ)
  | given (n : ℕ)
deriving DecidableEq

variable {Key : Type*}

/-- How far a request has come. Where it takes itself to be the only one, it keeps the number of
jobs there were. -/
inductive Phase
  | begun
  | named (job : ℕ)
  | stale (since : ℕ)
  | free (since : ℕ)
  | flagged (since job : ℕ)
  | lapsed (since : ℕ)
  | unflag (since : ℕ)
  | clear (since : ℕ)
  | queued (job : ℕ)
  | marked (job : ℕ)
  | done (job : ℕ)
  | skip (job : ℕ)
  | skipped
deriving DecidableEq

structure Request (Key : Type*) where
  key : Key
  host : Bool
  taskId : TaskId Key
  phase : Phase

/-- How far a job has come; `stored` and `deferred` are about the callback of a host. -/
inductive Stage
  | queued
  | running (stored : Bool)
  | tidying (deferred : Bool)
  | dropping (deferred : Bool)
  | unflagging (deferred : Bool)
  | leaving
  | ended
deriving DecidableEq

structure Job (Key : Type*) where
  key : Key
  host : Bool
  taskId : TaskId Key
  stage : Stage

def Request.job (q : Request Key) : Job Key := ⟨q.key, q.host, q.taskId, .queued⟩

/-- The keys in Redis, the jobs and the requests; `waiting` has the job whose callback is awaited
under a task id. -/
structure State (Key : Type*) where
  dedupe : Key → Option ℕ
  running : TaskId Key → Option ℕ
  waiting : TaskId Key → Option ℕ
  jobs : List (Job Key)
  requests : List (Request Key)

/-- How `collect_host_metrics_task`, or another handler, ends: the remote collection is accepted, or
it is not, or the acceptance could not be noted. -/
inductive Outcome
  | accepted
  | failed
  | unnoted
deriving DecidableEq

/-- A step of a request or of a worker; a callback is received, or given up; its running flag is
cleared; a key expires. -/
inductive Action (Key : Type*)
  | request (i : ℕ)
  | work (i : ℕ)
  | store (i : ℕ)
  | handled (i : ℕ) (outcome : Outcome)
  | callback (taskId : TaskId Key)
  | clearFlag (taskId : TaskId Key)
  | expireDedupe (key : Key)
  | expireRunning (taskId : TaskId Key)

/-- `_is_job_active`. -/
def Active (s : State Key) (i : ℕ) : Prop := ∃ job ∈ s.jobs[i]?, job.stage ≠ .ended

instance (s : State Key) (i : ℕ) : Decidable (Active s i) :=
  inferInstanceAs (Decidable (∃ job ∈ s.jobs[i]?, job.stage ≠ .ended))

def OfKey (s : State Key) (key : Key) (i : ℕ) : Prop := ∃ job ∈ s.jobs[i]?, job.key = key

def Waits (s : State Key) (i : ℕ) : Prop := ∃ job ∈ s.jobs[i]?, s.waiting job.taskId = some i

def Alive (s : State Key) (i : ℕ) : Prop := Active s i ∨ Waits s i

section Steps

variable [DecidableEq Key]

def State.goto (s : State Key) (i : ℕ) (phase : Phase) : State Key :=
  { s with requests := s.requests.modify i fun q => { q with phase } }

def State.setStage (s : State Key) (i : ℕ) (stage : Stage) : State Key :=
  { s with jobs := s.jobs.modify i fun job => { job with stage } }

/-- The next step of `enqueue_collect_task`. -/
def enqueueCollectTask (s : State Key) (i : ℕ) (q : Request Key) : State Key :=
  match q.phase with
  | .begun =>
    match s.dedupe q.key with
    | none => s.goto i (.free s.jobs.length)
    | some job => s.goto i (.named job)
  | .named job => if Active s job then s.goto i (.skip job) else s.goto i (.stale s.jobs.length)
  | .stale since =>
    { s with dedupe := Function.update s.dedupe q.key none }.goto i (.free since)
  | .free since =>
    match s.running q.taskId with
    | none => s.goto i (.clear since)
    | some job => s.goto i (.flagged since job)
  | .flagged since job =>
    if Active s job then s.goto i (.skip job)
    else if q.host then s.goto i (.lapsed since)
    else s.goto i (.unflag since)
  -- `_is_host_remote_callback_pending`
  | .lapsed since =>
    match s.waiting q.taskId with
    | some job => s.goto i (.skip job)
    | none => s.goto i (.unflag since)
  | .unflag since =>
    { s with running := Function.update s.running q.taskId none }.goto i (.clear since)
  | .clear _ =>
    { s with jobs := s.jobs ++ [q.job] }.goto i (.queued s.jobs.length)
  | .queued job =>
    { s with running := Function.update s.running q.taskId (some job) }.goto i (.marked job)
  | .marked job =>
    { s with dedupe := Function.update s.dedupe q.key (some job) }.goto i (.done job)
  -- the time to live is read, and the answer given
  | .skip _ => s.goto i .skipped
  | .done _ | .skipped => s

def collectTask (s : State Key) (i : ℕ) (job : Job Key) : State Key :=
  match job.stage with
  | .queued => s.setStage i (.running false)
  | .tidying deferred =>
    match s.dedupe job.key with
    | none => s.setStage i (.dropping deferred)
    | some named =>
      if named = i then s.setStage i (.dropping deferred) else s.setStage i (.unflagging deferred)
  | .dropping deferred =>
    { s with dedupe := Function.update s.dedupe job.key none }.setStage i (.unflagging deferred)
  | .unflagging true => s.setStage i .leaving
  | .unflagging false =>
    { s with running := Function.update s.running job.taskId none }.setStage i .leaving
  | .leaving => s.setStage i .ended
  | .running _ | .ended => s

/-- `store_host_remote_callback_context`. -/
def storeContext (s : State Key) (i : ℕ) (job : Job Key) : State Key :=
  match job.stage, job.host with
  | .running _, true =>
    { s with waiting := Function.update s.waiting job.taskId (some i) }.setStage i (.running true)
  | _, _ => s

/-- The handler is through. A context that was stored is cleared if nothing was accepted. -/
def handlerEnds (s : State Key) (i : ℕ) (outcome : Outcome) (job : Job Key) : State Key :=
  match job.stage with
  | .running true =>
    if outcome = .failed then
      { s with waiting := Function.update s.waiting job.taskId none }.setStage i (.tidying false)
    else s.setStage i (.tidying (outcome = .accepted))
  | .running false => s.setStage i (.tidying false)
  | _ => s

def step (s : State Key) : Action Key → State Key
  | .request i => (s.requests[i]?).elim s (enqueueCollectTask s i)
  | .work i => (s.jobs[i]?).elim s (collectTask s i)
  | .store i => (s.jobs[i]?).elim s (storeContext s i)
  | .handled i outcome => (s.jobs[i]?).elim s (handlerEnds s i outcome)
  | .callback taskId => { s with waiting := Function.update s.waiting taskId none }
  | .clearFlag taskId => { s with running := Function.update s.running taskId none }
  | .expireDedupe key => { s with dedupe := Function.update s.dedupe key none }
  | .expireRunning taskId => { s with running := Function.update s.running taskId none }

end Steps

/-- A call of `enqueue_collect_task`, with the task id that it is given. -/
structure Call (Key : Type*) where
  key : Key
  host : Bool
  taskId : Option (TaskId Key)

def Call.request (i : ℕ) (c : Call Key) : Request Key :=
  ⟨c.key, c.host, c.taskId.getD (if c.host then .uuid i else .ofKey c.key), .begun⟩

def start (calls : List (Call Key)) : State Key :=
  ⟨fun _ => none, fun _ => none, fun _ => none, [], calls.mapIdx Call.request⟩

/-! ### What is claimed -/

def Single (s : State Key) : Prop :=
  ∀ i j key, OfKey s key i → OfKey s key j → Active s i → Active s j → i = j

/-- **What is claimed** of a step. -/
structure Deduplicated (s : State Key) (a : Action Key) (t : State Key) : Prop where
  single : Single t
  queues : ∀ i q since, a = .request i → s.requests[i]? = some q → q.phase = .clear since →
    q.host = true → ∀ j, OfKey s q.key j → ¬Waits s j
  skips : ∀ i q job, a = .request i → s.requests[i]? = some q → q.phase = .skip job →
    ∃ j, OfKey s q.key j ∧ Alive s j

/-! ### When it holds -/

def Phase.held : Phase → Option ℕ
  | .queued job | .marked job => some job
  | _ => none

def Stage.Dropped : Stage → Prop
  | .unflagging _ | .leaving => True
  | _ => False

def Spared (s : State Key) (key : Key) (own : Option ℕ) : Prop :=
  ∀ job ∈ s.dedupe key, some job ≠ own → ¬Active s job

/-- Nothing is active or waiting behind the back of the dedupe key. -/
structure Settled (s : State Key) (key : Key) : Prop where
  spared : Spared s key none
  requests : ∀ q ∈ s.requests, q.key = key → q.phase.held = none
  jobs : ∀ job ∈ s.jobs, job.key = key → ¬job.stage.Dropped
  waits : ∀ i < s.jobs.length, OfKey s key i → ¬Waits s i

/-- A step of a request is in order. -/
def Phase.InOrder (s : State Key) (q : Request Key) : Phase → Prop
  -- finding the key free, or a job that has ended, it is right
  | .begun => s.dedupe q.key = none → Settled s q.key
  | .named job => ¬Active s job → Settled s q.key
  -- nobody else has written the key
  | .stale _ => Spared s q.key none
  | .marked job => Spared s q.key (some job)
  -- the running flag, and the context, are of the same dedupe key
  | .flagged _ job => Active s job → OfKey s q.key job
  | .lapsed _ => ∀ job ∈ s.waiting q.taskId, OfKey s q.key job
  -- nobody else has been faster
  | .clear since => ∀ i < s.jobs.length, since ≤ i → OfKey s q.key i → ¬Alive s i
  | _ => True

def Stage.InOrder (s : State Key) (i : ℕ) (key : Key) : Stage → Prop
  | .dropping _ => Spared s key (some i)
  | _ => True

def Phase.Stands (s t : State Key) : Phase → Prop
  | .skip job => Alive s job → Alive t job
  | _ => True

/-- A step is in order. -/
def InOrder (s : State Key) (a : Action Key) (t : State Key) : Prop :=
  (match a with
    | .request i => ∀ q ∈ s.requests[i]?, q.phase.InOrder s q
    | .work i => ∀ job ∈ s.jobs[i]?, job.stage.InOrder s i job.key
    | .expireDedupe key => Spared s key none
    | _ => True) ∧
  ∀ q ∈ s.requests, q.phase.Stands s t

section Decidable

variable [DecidableEq Key] (s t : State Key)

instance : DecidablePred Stage.Dropped
  | .unflagging _ | .leaving => inferInstanceAs (Decidable True)
  | .queued | .running _ | .tidying _ | .dropping _ | .ended => inferInstanceAs (Decidable False)

instance (key : Key) (i : ℕ) : Decidable (OfKey s key i) :=
  inferInstanceAs (Decidable (∃ job ∈ s.jobs[i]?, job.key = key))

instance (i : ℕ) : Decidable (Waits s i) :=
  inferInstanceAs (Decidable (∃ job ∈ s.jobs[i]?, s.waiting job.taskId = some i))

instance (i : ℕ) : Decidable (Alive s i) := inferInstanceAs (Decidable (_ ∨ _))

instance (key : Key) (own : Option ℕ) : Decidable (Spared s key own) :=
  inferInstanceAs (Decidable (∀ job ∈ s.dedupe key, some job ≠ own → ¬Active s job))

instance (key : Key) : Decidable (Settled s key) :=
  decidable_of_iff
    (Spared s key none ∧ (∀ q ∈ s.requests, q.key = key → q.phase.held = none) ∧
      (∀ job ∈ s.jobs, job.key = key → ¬job.stage.Dropped) ∧
        ∀ i < s.jobs.length, OfKey s key i → ¬Waits s i)
    ⟨fun h => ⟨h.1, h.2.1, h.2.2.1, h.2.2.2⟩, fun h => ⟨h.spared, h.requests, h.jobs, h.waits⟩⟩

instance (q : Request Key) : DecidablePred (Phase.InOrder s q)
  | .begun => inferInstanceAs (Decidable (s.dedupe q.key = none → _))
  | .named job => inferInstanceAs (Decidable (¬Active s job → _))
  | .stale _ => inferInstanceAs (Decidable (Spared s q.key none))
  | .marked job => inferInstanceAs (Decidable (Spared s q.key (some job)))
  | .flagged _ job => inferInstanceAs (Decidable (Active s job → OfKey s q.key job))
  | .lapsed _ => inferInstanceAs (Decidable (∀ job ∈ s.waiting q.taskId, OfKey s q.key job))
  | .clear since =>
    inferInstanceAs
      (Decidable (∀ i < s.jobs.length, since ≤ i → OfKey s q.key i → ¬Alive s i))
  | .free _ | .unflag _ | .queued _ | .done _ | .skip _ | .skipped =>
    inferInstanceAs (Decidable True)

instance (i : ℕ) (key : Key) : DecidablePred (Stage.InOrder s i key)
  | .dropping _ => inferInstanceAs (Decidable (Spared s key (some i)))
  | .queued | .running _ | .tidying _ | .unflagging _ | .leaving | .ended =>
    inferInstanceAs (Decidable True)

instance : DecidablePred (Phase.Stands s t)
  | .skip job => inferInstanceAs (Decidable (Alive s job → Alive t job))
  | .begun | .named _ | .stale _ | .free _ | .flagged _ _ | .lapsed _ | .unflag _ | .clear _
  | .queued _ | .marked _ | .done _ | .skipped => inferInstanceAs (Decidable True)

instance (a : Action Key) : Decidable (InOrder s a t) :=
  match a with
  | .request i =>
    inferInstanceAs (Decidable ((∀ q ∈ s.requests[i]?, q.phase.InOrder s q) ∧ _))
  | .work i =>
    inferInstanceAs (Decidable ((∀ job ∈ s.jobs[i]?, job.stage.InOrder s i job.key) ∧ _))
  | .expireDedupe key => inferInstanceAs (Decidable (Spared s key none ∧ _))
  | .store _ | .handled _ _ | .callback _ | .clearFlag _ | .expireRunning _ =>
    inferInstanceAs (Decidable (True ∧ _))

end Decidable

/-! ### The invariant -/

/-- The job it has been named is of its key, and where it takes itself to be alone it is. -/
def Request.Ok (s : State Key) (q : Request Key) : Prop :=
  match q.phase with
  | .named job | .queued job | .marked job => OfKey s q.key job
  | .stale since | .free since | .flagged since _ | .lapsed since | .unflag since | .clear since =>
    since ≤ s.jobs.length ∧ ∀ i < since, OfKey s q.key i → ¬Alive s i
  | .skip job => OfKey s q.key job ∧ Alive s job
  | .begun | .done _ | .skipped => True

/-- Each active job is named by its key, or held by its request, or its worker has cleared the
key. -/
structure Inv (s : State Key) : Prop where
  single : Single s
  registered : ∀ i job, s.jobs[i]? = some job → job.stage ≠ .ended →
    s.dedupe job.key = some i ∨ (∃ q ∈ s.requests, q.key = job.key ∧ q.phase.held = some i) ∨
      job.stage.Dropped
  named : ∀ key i, s.dedupe key = some i → OfKey s key i
  awaited : ∀ taskId i, s.waiting taskId = some i → ∃ job, s.jobs[i]? = some job ∧
    job.taskId = taskId
  requests : ∀ q ∈ s.requests, q.Ok s

/-- Jobs stay, and none of them comes back to life. -/
structure Later (s t : State Key) : Prop where
  length : s.jobs.length ≤ t.jobs.length
  ofKey : ∀ key i, OfKey s key i → OfKey t key i
  old : ∀ key i, i < s.jobs.length → OfKey t key i → OfKey s key i
  alive : ∀ i, i < s.jobs.length → Alive t i → Alive s i

section Invariant

variable {s t : State Key} {key : Key} {i j : ℕ} {q : Request Key} {job : Job Key} {phase : Phase}
  {stage' : Stage} {dedupe' : Key → Option ℕ} {running' waiting' : TaskId Key → Option ℕ}

theorem OfKey.lt (h : OfKey s key i) : i < s.jobs.length := by
  obtain ⟨job, h_job, -⟩ := h
  exact (List.getElem?_eq_some_iff.mp h_job).1

theorem OfKey.eq (h : OfKey s key i) (h_job : s.jobs[i]? = some job) : job.key = key := by
  obtain ⟨job', h_job', h_key⟩ := h
  rwa [Option.some.inj (h_job.symm.trans h_job')]

theorem Active.not_ended (h : Active s i) (h_job : s.jobs[i]? = some job) : job.stage ≠ .ended := by
  obtain ⟨job', h_job', h_stage⟩ := h
  rwa [Option.some.inj (h_job.symm.trans h_job')]

theorem Request.Ok.later (h : q.Ok s) (h_later : Later s t)
    (h_skip : ∀ job, q.phase = .skip job → Alive s job → Alive t job) : q.Ok t := by
  have h_since {since : ℕ} (h : since ≤ s.jobs.length ∧ ∀ i < since, OfKey s q.key i → ¬Alive s i) :
      since ≤ t.jobs.length ∧ ∀ i < since, OfKey t q.key i → ¬Alive t i := by
    refine ⟨h.1.trans h_later.length, fun i h_i h_key h_alive => ?_⟩
    have h_old := h_i.trans_le h.1
    exact h.2 i h_i (h_later.old q.key i h_old h_key) (h_later.alive i h_old h_alive)
  unfold Request.Ok at h ⊢
  cases h_phase : q.phase with
  | begun => trivial
  | done job => trivial
  | skipped => trivial
  | named job | queued job | marked job =>
    rw [h_phase] at h
    exact h_later.ofKey q.key job h
  | skip job =>
    rw [h_phase] at h
    exact ⟨h_later.ofKey q.key job h.1, h_skip job h_phase h.2⟩
  | stale since | free since | lapsed since | unflag since | clear since =>
    rw [h_phase] at h
    exact h_since h
  | flagged since job =>
    rw [h_phase] at h
    exact h_since h

theorem Inv.dead (h : Inv s) (h_settled : Settled s key) (h_key : OfKey s key i) : ¬Alive s i := by
  rintro (h_active | h_waits)
  · obtain ⟨job, h_job, rfl⟩ := h_key
    obtain h_named | ⟨q, h_q, h_same, h_holds⟩ | h_dropped :=
      h.registered i job h_job (Active.not_ended h_active h_job)
    · exact h_settled.spared i h_named (Option.some_ne_none i) h_active
    · rw [h_settled.requests q h_q h_same] at h_holds
      cases h_holds
    · exact h_settled.jobs job (List.mem_of_getElem? h_job) rfl h_dropped
  · exact h_settled.waits i h_key.lt h_key h_waits

/-! ### The steps of a request -/

theorem Inv.goto (h : Inv s) (dedupe' : Key → Option ℕ) (running' : TaskId Key → Option ℕ)
    (h_q : s.requests[i]? = some q)
    (h_named : ∀ key j, dedupe' key = some j → OfKey s key j)
    (h_registered : ∀ j job, s.jobs[j]? = some job → job.stage ≠ .ended →
      s.dedupe job.key = some j ∨ (q.key = job.key ∧ q.phase.held = some j) →
        dedupe' job.key = some j ∨ (q.key = job.key ∧ phase.held = some j))
    (h_ok : Request.Ok s { q with phase }) :
    Inv ({ s with dedupe := dedupe', running := running' }.goto i phase) where
  single := h.single
  registered j job h_job h_stage := by
    have h_self : { q with phase } ∈ s.requests.modify i fun q => { q with phase } := by
      refine List.mem_of_getElem? (i := i) ?_
      rw [List.getElem?_modify_eq, h_q]
      rfl
    have h_cases : s.dedupe job.key = some j ∨ (q.key = job.key ∧ q.phase.held = some j) →
        dedupe' job.key = some j ∨
          (∃ q ∈ s.requests.modify i fun q => { q with phase },
            q.key = job.key ∧ q.phase.held = some j) ∨ job.stage.Dropped := by
      intro h_old
      obtain h_new | h_new := h_registered j job h_job h_stage h_old
      · exact .inl h_new
      · exact .inr (.inl ⟨_, h_self, h_new⟩)
    obtain h_old | ⟨q', h_q', h_holds⟩ | h_dropped := h.registered j job h_job h_stage
    · exact h_cases (.inl h_old)
    · obtain ⟨k, h_k⟩ := List.mem_iff_getElem?.mp h_q'
      by_cases h_i : i = k
      · subst h_i
        obtain rfl := Option.some.inj (h_q.symm.trans h_k)
        exact h_cases (.inr h_holds)
      · refine .inr (.inl ⟨q', List.mem_of_getElem? (i := k) ?_, h_holds⟩)
        show (s.requests.modify i _)[k]? = some q'
        simp [h_i, h_k]
    · exact .inr (.inr h_dropped)
  named := h_named
  awaited := h.awaited
  requests q' h_q' := by
    obtain ⟨k, h_k⟩ := List.mem_iff_getElem?.mp h_q'
    obtain ⟨q₀, h_q₀, ⟨rfl, rfl⟩ | ⟨-, rfl⟩⟩ := Rows.of_getElem?_modify h_k
    · obtain rfl := Option.some.inj (h_q.symm.trans h_q₀)
      exact h_ok
    · exact h.requests q₀ (List.mem_of_getElem? h_q₀)

theorem Inv.pass (h : Inv s) (running' : TaskId Key → Option ℕ)
    (h_q : s.requests[i]? = some q) (h_holds : q.phase.held = none)
    (h_ok : Request.Ok s { q with phase }) :
    Inv ({ s with running := running' }.goto i phase) := by
  refine h.goto s.dedupe running' h_q h.named (fun j job _ _ h_old => ?_) h_ok
  exact h_old.imp id fun h_mine => absurd (h_mine.2.symm.trans h_holds) (Option.some_ne_none j)

theorem Inv.enqueue (h : Inv s) (h_q : s.requests[i]? = some q) {since : ℕ}
    (h_phase : q.phase = .clear since) (h_dead : ∀ j, OfKey s q.key j → ¬Alive s j)
    (h_skip : ∀ q' ∈ s.requests, ∀ j, q'.phase = .skip j → Alive s j →
      Alive ({ s with jobs := s.jobs ++ [q.job] }.goto i (.queued s.jobs.length)) j) :
    Inv ({ s with jobs := s.jobs ++ [q.job] }.goto i (.queued s.jobs.length)) := by
  set t := { s with jobs := s.jobs ++ [q.job] }.goto i (.queued s.jobs.length) with h_t
  have h_jobs : t.jobs = s.jobs ++ [q.job] := rfl
  have h_last : t.jobs[s.jobs.length]? = some q.job := by
    rw [h_jobs, List.getElem?_concat_length]
  have h_old : ∀ j, j < s.jobs.length → t.jobs[j]? = s.jobs[j]? := fun j h_j => by
    rw [h_jobs, List.getElem?_append_left h_j]
  have h_new : OfKey t q.key s.jobs.length := ⟨q.job, h_last, rfl⟩
  have h_ofKey : ∀ key j, j < s.jobs.length → (OfKey t key j ↔ OfKey s key j) := by
    intro key j h_j
    rw [OfKey, OfKey, h_old j h_j]
  have h_active : ∀ j, j < s.jobs.length → (Active t j ↔ Active s j) := by
    intro j h_j
    rw [Active, Active, h_old j h_j]
  have h_waits : ∀ j, j < s.jobs.length → (Waits t j ↔ Waits s j) := by
    intro j h_j
    rw [Waits, Waits, h_old j h_j]
    rfl
  have h_later : Later s t := {
    length := by simp [h_jobs]
    ofKey := fun key j h_key => (h_ofKey key j h_key.lt).mpr h_key
    old := fun key j h_j h_key => (h_ofKey key j h_j).mp h_key
    alive := fun j h_j => Or.imp (h_active j h_j).mp (h_waits j h_j).mp }
  -- a job of the key is the new one, or it is not active
  have h_only : ∀ j, OfKey t q.key j → Active t j → j = s.jobs.length := by
    intro j h_key h_j
    by_contra h_ne
    have h_lt : j < s.jobs.length := by
      have h_le := h_key.lt
      rw [h_jobs, List.length_append, List.length_singleton] at h_le
      omega
    exact h_dead j ((h_ofKey q.key j h_lt).mp h_key) (.inl ((h_active j h_lt).mp h_j))
  have h_lt : ∀ key j, key ≠ q.key → OfKey t key j → j < s.jobs.length := by
    intro key j h_ne h_key
    by_contra h_ge
    have h_le := h_key.lt
    rw [h_jobs, List.length_append, List.length_singleton] at h_le
    obtain rfl : j = s.jobs.length := by omega
    exact h_ne (h_key.eq h_last).symm
  refine ⟨fun j k key h_j h_k h_aj h_ak => ?_, fun j job h_job h_stage => ?_, ?_, ?_, ?_⟩
  · by_cases h_key : key = q.key
    · subst h_key
      rw [h_only j h_j h_aj, h_only k h_k h_ak]
    · have h_lt_j := h_lt key j h_key h_j
      have h_lt_k := h_lt key k h_key h_k
      exact h.single j k key ((h_ofKey key j h_lt_j).mp h_j) ((h_ofKey key k h_lt_k).mp h_k)
        ((h_active j h_lt_j).mp h_aj) ((h_active k h_lt_k).mp h_ak)
  · obtain h_here | ⟨rfl, rfl⟩ := Rows.of_getElem?_concat h_job
    · refine (h.registered j job h_here h_stage).imp id (Or.imp ?_ id)
      rintro ⟨q', h_q', h_key, h_holds⟩
      obtain ⟨k, h_k⟩ := List.mem_iff_getElem?.mp h_q'
      refine ⟨q', List.mem_of_getElem? (i := k) ?_, h_key, h_holds⟩
      have h_ne : i ≠ k := by
        rintro rfl
        rw [← Option.some.inj (h_q.symm.trans h_k), h_phase] at h_holds
        cases h_holds
      show (s.requests.modify i _)[k]? = some q'
      simp [h_ne, h_k]
    · refine .inr (.inl ⟨{ q with phase := .queued s.jobs.length }, ?_, rfl, rfl⟩)
      refine List.mem_of_getElem? (i := i) ?_
      show (s.requests.modify i _)[i]? = _
      rw [List.getElem?_modify_eq, h_q]
      rfl
  · exact fun key j h_j => h_later.ofKey key j (h.named key j h_j)
  · intro taskId j h_j
    obtain ⟨job, h_job, h_taskId⟩ := h.awaited taskId j h_j
    refine ⟨job, ?_, h_taskId⟩
    rw [h_old j (List.getElem?_eq_some_iff.mp h_job).1, h_job]
  · intro q' h_q'
    obtain ⟨k, h_k⟩ := List.mem_iff_getElem?.mp h_q'
    obtain ⟨q₀, h_q₀, ⟨rfl, rfl⟩ | ⟨-, rfl⟩⟩ := Rows.of_getElem?_modify h_k
    · obtain rfl := Option.some.inj (h_q.symm.trans h_q₀)
      exact h_new
    · have h_mem := List.mem_of_getElem? h_q₀
      exact (h.requests q₀ h_mem).later h_later (h_skip q₀ h_mem)

theorem Inv.request [DecidableEq Key] (h : Inv s) (h_q : s.requests[i]? = some q)
    (h_order : q.phase.InOrder s q)
    (h_skip : ∀ q' ∈ s.requests, ∀ j, q'.phase = .skip j → Alive s j →
      Alive (enqueueCollectTask s i q) j) :
    Inv (enqueueCollectTask s i q) := by
  have h_ok := h.requests q (List.mem_of_getElem? h_q)
  unfold Request.Ok at h_ok
  have h_clear : ∀ since, q.phase = .clear since → enqueueCollectTask s i q =
      { s with jobs := s.jobs ++ [q.job] }.goto i (.queued s.jobs.length) := by
    intro since h_phase
    rw [enqueueCollectTask, h_phase]
  unfold enqueueCollectTask
  cases h_phase : q.phase with
  | begun =>
    rw [h_phase] at h_order
    dsimp only at h_order ⊢
    cases h_dedupe : s.dedupe q.key with
    | none =>
      refine h.pass s.running h_q (by rw [h_phase]; rfl) ⟨le_rfl, fun j _ h_key => ?_⟩
      exact h.dead (h_order h_dedupe) h_key
    | some job =>
      refine h.pass s.running h_q (by rw [h_phase]; rfl) ?_
      exact h.named q.key job h_dedupe
  | named job =>
    rw [h_phase] at h_order h_ok
    dsimp only at h_order h_ok ⊢
    split_ifs with h_active
    · refine h.pass s.running h_q (by rw [h_phase]; rfl) ?_
      exact ⟨h_ok, .inl h_active⟩
    · refine h.pass s.running h_q (by rw [h_phase]; rfl) ⟨le_rfl, fun j _ h_key => ?_⟩
      exact h.dead (h_order h_active) h_key
  | stale since =>
    rw [h_phase] at h_order h_ok
    dsimp only at h_order h_ok ⊢
    refine h.goto _ s.running h_q (fun key j h_j => ?_) (fun j job h_job h_stage h_old => ?_) h_ok
    · rw [Function.update_apply] at h_j
      split_ifs at h_j
      exact h.named key j h_j
    · obtain h_old | h_old := h_old
      · by_cases h_key : job.key = q.key
        · rw [h_key] at h_old
          exact absurd ⟨job, h_job, h_stage⟩ (h_order j h_old (Option.some_ne_none j))
        · rw [Function.update_of_ne h_key]
          exact .inl h_old
      · have h_holds := h_old.2
        rw [h_phase] at h_holds
        cases h_holds
  | free since =>
    rw [h_phase] at h_ok
    dsimp only at h_ok ⊢
    cases s.running q.taskId with
    | none => exact h.pass s.running h_q (by rw [h_phase]; rfl) h_ok
    | some job => exact h.pass s.running h_q (by rw [h_phase]; rfl) h_ok
  | flagged since job =>
    rw [h_phase] at h_order h_ok
    dsimp only at h_order h_ok ⊢
    split_ifs with h_active h_host
    · refine h.pass s.running h_q (by rw [h_phase]; rfl) ?_
      exact ⟨h_order h_active, .inl h_active⟩
    · exact h.pass s.running h_q (by rw [h_phase]; rfl) h_ok
    · exact h.pass s.running h_q (by rw [h_phase]; rfl) h_ok
  | lapsed since =>
    rw [h_phase] at h_order h_ok
    dsimp only at h_order h_ok ⊢
    cases h_waiting : s.waiting q.taskId with
    | none => exact h.pass s.running h_q (by rw [h_phase]; rfl) h_ok
    | some job =>
      obtain ⟨job', h_job', h_taskId⟩ := h.awaited q.taskId job h_waiting
      refine h.pass s.running h_q (by rw [h_phase]; rfl) ⟨h_order job h_waiting, .inr ?_⟩
      exact ⟨job', h_job', h_taskId ▸ h_waiting⟩
  | unflag since =>
    rw [h_phase] at h_ok
    exact h.pass _ h_q (by rw [h_phase]; rfl) h_ok
  | clear since =>
    rw [h_phase] at h_order h_ok
    rw [h_clear since h_phase] at h_skip
    refine h.enqueue h_q h_phase (fun j h_key => ?_) h_skip
    by_cases h_since : since ≤ j
    · exact h_order j h_key.lt h_since h_key
    · exact h_ok.2 j (not_le.mp h_since) h_key
  | queued job =>
    rw [h_phase] at h_ok
    refine h.goto s.dedupe _ h_q h.named (fun j job' _ _ h_old => ?_) h_ok
    rwa [h_phase] at h_old
  | marked job =>
    rw [h_phase] at h_order h_ok
    dsimp only at h_order h_ok ⊢
    refine h.goto _ s.running h_q (fun key j h_j => ?_)
      (fun j job' h_job h_stage h_old => ?_) trivial
    · rw [Function.update_apply] at h_j
      split_ifs at h_j with h_key
      · rw [h_key, ← Option.some.inj h_j]
        exact h_ok
      · exact h.named key j h_j
    · left
      obtain h_old | ⟨h_key, h_holds⟩ := h_old
      · by_cases h_key : job'.key = q.key
        · rw [h_key, Function.update_self]
          rw [h_key] at h_old
          by_contra h_ne
          exact h_order j h_old (Ne.symm h_ne) ⟨job', h_job, h_stage⟩
        · rwa [Function.update_of_ne h_key]
      · rw [h_phase] at h_holds
        rw [← h_key, Function.update_self]
        exact h_holds
  | done job => exact h
  | skip job => exact h.pass s.running h_q (by rw [h_phase]; rfl) trivial
  | skipped => exact h

/-! ### The steps of a job -/

/-- A job that is active goes on, or keys are deleted. No key of an active job goes but its own,
once it is dropped. -/
theorem Inv.setStage (h : Inv s) (dedupe' : Key → Option ℕ)
    (running' waiting' : TaskId Key → Option ℕ) (h_job : s.jobs[i]? = some job)
    (h_active : job.stage ≠ .ended)
    (h_dropped : job.stage.Dropped → stage' ≠ .ended → stage'.Dropped)
    (h_deleted : ∀ key j, dedupe' key = some j → s.dedupe key = some j)
    (h_kept : ∀ j job', s.jobs[j]? = some job' → job'.stage ≠ .ended →
      s.dedupe job'.key = some j → dedupe' job'.key = some j ∨ (j = i ∧ stage'.Dropped))
    (h_waiting : ∀ taskId j, waiting' taskId = some j →
      s.waiting taskId = some j ∨ (j = i ∧ taskId = job.taskId))
    (h_skip : ∀ q ∈ s.requests, ∀ j, q.phase = .skip j → Alive s j →
      Alive ({ s with dedupe := dedupe', running := running', waiting := waiting' }.setStage
        i stage') j) :
    Inv ({ s with dedupe := dedupe', running := running', waiting := waiting' }.setStage
      i stage') := by
  set t := { s with dedupe := dedupe', running := running', waiting := waiting' }.setStage i stage'
    with h_t
  have h_here : t.jobs[i]? = some { job with stage := stage' } := by
    show (s.jobs.modify i _)[i]? = _
    rw [List.getElem?_modify_eq, h_job]
    rfl
  have h_there : ∀ j, i ≠ j → t.jobs[j]? = s.jobs[j]? := fun j h_ne => by
    show (s.jobs.modify i _)[j]? = _
    simp [h_ne]
  have h_length : t.jobs.length = s.jobs.length := List.length_modify _ _ _
  have h_ofKey : ∀ key j, OfKey t key j ↔ OfKey s key j := by
    intro key j
    by_cases h_ne : i = j
    · subst h_ne
      rw [OfKey, OfKey, h_here, h_job]
      simp
    · rw [OfKey, OfKey, h_there j h_ne]
  have h_act : ∀ j, Active t j → Active s j := by
    intro j h_j
    by_cases h_ne : i = j
    · subst h_ne
      exact ⟨job, h_job, h_active⟩
    · rwa [Active, h_there j h_ne] at h_j
  have h_later : Later s t := {
    length := h_length.ge
    ofKey := fun key j => (h_ofKey key j).mpr
    old := fun key j _ => (h_ofKey key j).mp
    alive := by
      rintro j - (h_j | ⟨job', h_job', h_waits⟩)
      · exact .inl (h_act j h_j)
      · obtain h_old | ⟨rfl, -⟩ := h_waiting job'.taskId j h_waits
        · right
          by_cases h_ne : i = j
          · subst h_ne
            obtain rfl := Option.some.inj (h_here.symm.trans h_job')
            exact ⟨job, h_job, h_old⟩
          · exact ⟨job', h_there j h_ne ▸ h_job', h_old⟩
        · exact .inl ⟨job, h_job, h_active⟩ }
  refine ⟨fun j k key h_j h_k h_aj h_ak => ?_, fun j job' h_job' h_stage => ?_, ?_, ?_, ?_⟩
  · exact h.single j k key ((h_ofKey key j).mp h_j) ((h_ofKey key k).mp h_k) (h_act j h_aj)
      (h_act k h_ak)
  · by_cases h_ne : i = j
    · subst h_ne
      obtain rfl := Option.some.inj (h_here.symm.trans h_job')
      obtain h_named | h_held | h_drop := h.registered i job h_job h_active
      · obtain h_new | ⟨-, h_drop⟩ := h_kept i job h_job h_active h_named
        · exact .inl h_new
        · exact .inr (.inr h_drop)
      · exact .inr (.inl h_held)
      · exact .inr (.inr (h_dropped h_drop h_stage))
    · rw [h_there j h_ne] at h_job'
      obtain h_named | h_held | h_drop := h.registered j job' h_job' h_stage
      · obtain h_new | ⟨h_eq, -⟩ := h_kept j job' h_job' h_stage h_named
        · exact .inl h_new
        · exact absurd h_eq.symm h_ne
      · exact .inr (.inl h_held)
      · exact .inr (.inr h_drop)
  · exact fun key j h_j => (h_ofKey key j).mpr (h.named key j (h_deleted key j h_j))
  · intro taskId j h_j
    obtain h_old | ⟨rfl, rfl⟩ := h_waiting taskId j h_j
    · obtain ⟨job', h_job', h_taskId⟩ := h.awaited taskId j h_old
      by_cases h_ne : i = j
      · subst h_ne
        obtain rfl := Option.some.inj (h_job.symm.trans h_job')
        exact ⟨_, h_here, h_taskId⟩
      · exact ⟨job', (h_there j h_ne).trans h_job', h_taskId⟩
    · exact ⟨_, h_here, rfl⟩
  · intro q h_q
    exact (h.requests q h_q).later h_later (h_skip q h_q)

theorem Inv.forget (h : Inv s) (dedupe' : Key → Option ℕ)
    (running' waiting' : TaskId Key → Option ℕ)
    (h_deleted : ∀ key j, dedupe' key = some j → s.dedupe key = some j)
    (h_kept : ∀ key j, s.dedupe key = some j → Active s j → dedupe' key = some j)
    (h_waiting : ∀ taskId j, waiting' taskId = some j → s.waiting taskId = some j)
    (h_skip : ∀ q ∈ s.requests, ∀ j, q.phase = .skip j → Alive s j →
      Alive { s with dedupe := dedupe', running := running', waiting := waiting' } j) :
    Inv { s with dedupe := dedupe', running := running', waiting := waiting' } where
  single := h.single
  registered j job h_job h_stage :=
    (h.registered j job h_job h_stage).imp_left fun h_named =>
      h_kept job.key j h_named ⟨job, h_job, h_stage⟩
  named key j h_j := h.named key j (h_deleted key j h_j)
  awaited taskId j h_j := h.awaited taskId j (h_waiting taskId j h_j)
  requests q h_q := by
    refine (h.requests q h_q).later ⟨le_rfl, fun _ _ => id, fun _ _ _ => id, ?_⟩ (h_skip q h_q)
    rintro j - (h_j | ⟨job, h_job, h_waits⟩)
    · exact .inl h_j
    · exact .inr ⟨job, h_job, h_waiting job.taskId j h_waits⟩

theorem Inv.stage (h : Inv s) (running' : TaskId Key → Option ℕ) (h_job : s.jobs[i]? = some job)
    (h_active : job.stage ≠ .ended)
    (h_dropped : job.stage.Dropped → stage' ≠ .ended → stage'.Dropped)
    (h_skip : ∀ q ∈ s.requests, ∀ j, q.phase = .skip j → Alive s j →
      Alive ({ s with running := running' }.setStage i stage') j) :
    Inv ({ s with running := running' }.setStage i stage') :=
  h.setStage s.dedupe running' s.waiting h_job h_active h_dropped (fun _ _ => id)
    (fun _ _ _ _ => .inl) (fun _ _ => .inl) h_skip

section Decidable

variable [DecidableEq Key]

theorem Inv.work (h : Inv s) (h_job : s.jobs[i]? = some job)
    (h_order : ∀ deferred, job.stage = .dropping deferred → Spared s job.key (some i))
    (h_skip : ∀ q ∈ s.requests, ∀ j, q.phase = .skip j → Alive s j →
      Alive (collectTask s i job) j) :
    Inv (collectTask s i job) := by
  unfold collectTask at h_skip ⊢
  cases h_stage : job.stage with
  | queued =>
    rw [h_stage] at h_skip
    exact h.stage s.running h_job (by simp [h_stage]) (by simp [h_stage, Stage.Dropped]) h_skip
  | running stored => exact h
  | tidying deferred =>
    rw [h_stage] at h_skip
    dsimp only at h_skip ⊢
    split at h_skip
    · exact h.stage s.running h_job (by simp [h_stage]) (by simp [h_stage, Stage.Dropped]) h_skip
    · split_ifs at h_skip ⊢
      · exact h.stage s.running h_job (by simp [h_stage]) (by simp [h_stage, Stage.Dropped]) h_skip
      · exact h.stage s.running h_job (by simp [h_stage]) (fun _ _ => trivial) h_skip
  | dropping deferred =>
    rw [h_stage] at h_skip
    refine h.setStage _ s.running s.waiting h_job (by simp [h_stage]) (fun _ _ => trivial)
      (fun key j h_j => ?_) (fun j job' h_job' h_active h_named => ?_) (fun _ _ => .inl) h_skip
    · rw [Function.update_apply] at h_j
      split_ifs at h_j
      exact h_j
    · by_cases h_key : job'.key = job.key
      · rw [h_key] at h_named
        have h_spared := h_order deferred h_stage j h_named
        refine .inr ⟨?_, trivial⟩
        by_contra h_ne
        exact h_spared (fun h_eq => h_ne (Option.some.inj h_eq)) ⟨job', h_job', h_active⟩
      · rw [Function.update_of_ne h_key]
        exact .inl h_named
  | unflagging deferred =>
    rw [h_stage] at h_skip
    cases deferred with
    | true => exact h.stage s.running h_job (by simp [h_stage]) (fun _ _ => trivial) h_skip
    | false => exact h.stage _ h_job (by simp [h_stage]) (fun _ _ => trivial) h_skip
  | leaving =>
    rw [h_stage] at h_skip
    exact h.stage s.running h_job (by simp [h_stage]) (fun _ h_ne => absurd rfl h_ne) h_skip
  | ended => exact h

theorem Inv.store (h : Inv s) (h_job : s.jobs[i]? = some job)
    (h_skip : ∀ q ∈ s.requests, ∀ j, q.phase = .skip j → Alive s j →
      Alive (storeContext s i job) j) :
    Inv (storeContext s i job) := by
  unfold storeContext at h_skip ⊢
  split at h_skip
  · next h_stage _ =>
    refine h.setStage s.dedupe s.running _ h_job (by simp [h_stage])
      (by simp [h_stage, Stage.Dropped]) (fun _ _ => id) (fun _ _ _ _ => .inl)
      (fun taskId j h_j => ?_) h_skip
    rw [Function.update_apply] at h_j
    split_ifs at h_j with h_eq
    · exact .inr ⟨(Option.some.inj h_j).symm, h_eq⟩
    · exact .inl h_j
  · exact h

theorem Inv.handled (h : Inv s) {outcome : Outcome} (h_job : s.jobs[i]? = some job)
    (h_skip : ∀ q ∈ s.requests, ∀ j, q.phase = .skip j → Alive s j →
      Alive (handlerEnds s i outcome job) j) :
    Inv (handlerEnds s i outcome job) := by
  unfold handlerEnds at h_skip ⊢
  split at h_skip
  · next h_stage =>
    split_ifs at h_skip ⊢
    · refine h.setStage s.dedupe s.running _ h_job (by simp [h_stage])
        (by simp [h_stage, Stage.Dropped]) (fun _ _ => id) (fun _ _ _ _ => .inl)
        (fun taskId j h_j => ?_) h_skip
      rw [Function.update_apply] at h_j
      split_ifs at h_j
      exact .inl h_j
    · exact h.stage s.running h_job (by simp [h_stage]) (by simp [h_stage, Stage.Dropped]) h_skip
  · next h_stage =>
    exact h.stage s.running h_job (by simp [h_stage]) (by simp [h_stage, Stage.Dropped]) h_skip
  · exact h

theorem Inv.step (h : Inv s) (a : Action Key) (h_order : InOrder s a (step s a)) :
    Inv (step s a) := by
  obtain ⟨h_order, h_stands⟩ := h_order
  have h_skip : ∀ q ∈ s.requests, ∀ j, q.phase = .skip j → Alive s j →
      Alive (CollectQueue.step s a) j := by
    intro q h_q j h_phase
    have h_here := h_stands q h_q
    rwa [h_phase] at h_here
  have h_update {taskId : TaskId Key} {j : ℕ} {f : TaskId Key → Option ℕ} {taskId' : TaskId Key}
      (h_j : Function.update f taskId' none taskId = some j) : f taskId = some j := by
    rw [Function.update_apply] at h_j
    split_ifs at h_j
    exact h_j
  cases a with
  | request i =>
    rw [show CollectQueue.step s (.request i) =
      (s.requests[i]?).elim s (enqueueCollectTask s i) from rfl] at h_skip ⊢
    cases h_q : s.requests[i]? with
    | none => exact h
    | some q =>
      rw [h_q] at h_skip
      exact h.request h_q (h_order q h_q) h_skip
  | work i =>
    rw [show CollectQueue.step s (.work i) =
      (s.jobs[i]?).elim s (collectTask s i) from rfl] at h_skip ⊢
    cases h_job : s.jobs[i]? with
    | none => exact h
    | some job =>
      rw [h_job] at h_skip
      refine h.work h_job (fun deferred h_stage => ?_) h_skip
      have h_here := h_order job h_job
      rwa [h_stage] at h_here
  | store i =>
    rw [show CollectQueue.step s (.store i) =
      (s.jobs[i]?).elim s (storeContext s i) from rfl] at h_skip ⊢
    cases h_job : s.jobs[i]? with
    | none => exact h
    | some job =>
      rw [h_job] at h_skip
      exact h.store h_job h_skip
  | handled i outcome =>
    rw [show CollectQueue.step s (.handled i outcome) =
      (s.jobs[i]?).elim s (handlerEnds s i outcome) from rfl] at h_skip ⊢
    cases h_job : s.jobs[i]? with
    | none => exact h
    | some job =>
      rw [h_job] at h_skip
      exact h.handled h_job h_skip
  | callback taskId =>
    exact h.forget s.dedupe s.running _ (fun _ _ => id) (fun _ _ h_j _ => h_j)
      (fun _ _ => h_update) h_skip
  | clearFlag taskId =>
    exact h.forget s.dedupe _ s.waiting (fun _ _ => id) (fun _ _ h_j _ => h_j) (fun _ _ => id)
      h_skip
  | expireRunning taskId =>
    exact h.forget s.dedupe _ s.waiting (fun _ _ => id) (fun _ _ h_j _ => h_j) (fun _ _ => id)
      h_skip
  | expireDedupe key =>
    refine h.forget _ s.running s.waiting (fun key' j h_j => ?_) (fun key' j h_j h_active => ?_)
      (fun _ _ => id) h_skip
    · rw [Function.update_apply] at h_j
      split_ifs at h_j
      exact h_j
    · by_cases h_key : key' = key
      · rw [h_key] at h_j
        exact absurd h_active (h_order j h_j (Option.some_ne_none j))
      · rwa [Function.update_of_ne h_key]

theorem Inv.claimed (h : Inv s) {a : Action Key}
    (h_order : InOrder s a (CollectQueue.step s a)) :
    Deduplicated s a (CollectQueue.step s a) where
  single := (h.step a h_order).single
  queues i q since h_a h_q h_phase _ j h_key h_waits := by
    subst h_a
    have h_ok := h.requests q (List.mem_of_getElem? h_q)
    have h_here := h_order.1 q h_q
    rw [h_phase] at h_here
    rw [Request.Ok, h_phase] at h_ok
    by_cases h_since : since ≤ j
    · exact h_here j h_key.lt h_since h_key (.inr h_waits)
    · exact h_ok.2 j (not_le.mp h_since) h_key (.inr h_waits)
  skips i q job h_a h_q h_phase := by
    have h_ok := h.requests q (List.mem_of_getElem? h_q)
    rw [Request.Ok, h_phase] at h_ok
    exact ⟨job, h_ok⟩

end Decidable

theorem inv_start (calls : List (Call Key)) : Inv (start calls) where
  single i j key h := by
    obtain ⟨job, h_job, -⟩ := h
    cases h_job
  registered i job h_job := by cases h_job
  named key i h := by cases h
  awaited taskId i h := by cases h
  requests q h_q := by
    obtain ⟨i, h_i, rfl⟩ := List.mem_mapIdx.mp h_q
    trivial

end Invariant

/-! ### The runs -/

/-- **Collect tasks are deduplicated and not suppressed** in a run whose steps are in order. -/
theorem deduplicated [DecidableEq Key] (calls : List (Call Key)) (as : List (Action Key))
    (h_order : Along step InOrder (start calls) as) :
    Along step Deduplicated (start calls) as :=
  h_order.trans (I := Inv) (fun _ a h h_step => ⟨h.step a h_step, h.claimed h_step⟩)
    (inv_start calls)

section Examples

private def plugin : List (Call ℕ) := List.replicate 3 ⟨7, false, none⟩

private def inTurn : List (Action ℕ) :=
  List.replicate 5 (.request 0) ++ List.replicate 3 (.request 1) ++
    [.work 0, .handled 0 .accepted, .work 0, .work 0, .work 0, .work 0] ++
      List.replicate 5 (.request 2)

private def host : List (Call ℕ) := List.replicate 2 ⟨7, true, none⟩

private def submitted : List (Action ℕ) :=
  List.replicate 5 (.request 0) ++ [.work 0, .store 0, .handled 0 .accepted] ++
    List.replicate 4 (.work 0) ++ List.replicate 2 (.request 1)

theorem deduplicated_inTurn : Along step Deduplicated (start plugin) inTurn :=
  deduplicated plugin inTurn (by decide +kernel)

/-- A second job of the host is queued while the first waits. -/
theorem not_deduplicated : ¬∀ (calls : List (Call ℕ)) (as : List (Action ℕ)),
    Along step Deduplicated (start calls) as := by
  intro h
  have h_step := (h host (submitted ++ [.request 1])).at_step
  have h_waits : Waits (run step (start host) submitted) 0 := by decide +kernel
  have h_key : OfKey (run step (start host) submitted) 7 0 := by decide +kernel
  exact h_step.queues 1 ⟨7, true, .uuid 1, .clear 1⟩ 1 rfl rfl rfl rfl 0 h_key h_waits

end Examples

end Stargazer.CollectQueue
