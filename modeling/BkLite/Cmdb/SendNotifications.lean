import BkLite.Cmdb.Subscription
import BkLite.Framework.Runs

/-!
# Sending the notifications of subscriptions

A round of checks groups the events it has detected and passes all groups to one task. The tasks
share an entry of the cache: a task that finds it returns at once, and a task that sets it hands its
groups over one after the other and deletes the entry at the end, whoever has set it
(`services/subscription_task.py`).
-/

namespace Cmdb.SendNotifications

open Cmdb.Subscription (TriggerEvent)
open Py (fromKeys mem_fromKeys fromKeys_concat fromKeys_eq_nil)

/-! ### Groups of events -/

/-- An entry of `event_groups`. -/
structure EventGroup where
  ruleId : ℕ
  triggerType : String
  events : List TriggerEvent

/-- `(event.rule_id, event.trigger_type)`. -/
def groupKey (event : TriggerEvent) : ℕ × String := (event.ruleId, event.triggerType)

def EventGroup.key (group : EventGroup) : ℕ × String := (group.ruleId, group.triggerType)

/-- `grouped_events.setdefault(group_key, []).append(event)`. -/
def addEvent (groups : List EventGroup) (event : TriggerEvent) : List EventGroup :=
  if groups.any (·.key = groupKey event) then
    groups.map fun group =>
      if group.key = groupKey event then { group with events := group.events ++ [event] } else group
  else groups ++ [⟨event.ruleId, event.triggerType, [event]⟩]

def buildEventGroups (events : List TriggerEvent) : List EventGroup := events.foldl addEvent []

def queuedEventGroups (rules : List (List TriggerEvent)) : List EventGroup :=
  rules.flatMap fun events => if events = [] then [] else buildEventGroups events

def groupOf (events : List TriggerEvent) (key : ℕ × String) : EventGroup :=
  ⟨key.1, key.2, events.filter (groupKey · = key)⟩

/-- **The groups.** There is one for each key, with all events of the key in their order. -/
theorem buildEventGroups_eq (events : List TriggerEvent) :
    buildEventGroups events = (fromKeys (events.map groupKey)).map (groupOf events) := by
  induction events using List.reverseRecOn with
  | nil => rfl
  | append_singleton events event ih =>
    have h_other : ∀ key ∈ fromKeys (events.map groupKey), groupOf (events ++ [event]) key =
        if (groupOf events key).key = groupKey event then
          { groupOf events key with events := (groupOf events key).events ++ [event] }
        else groupOf events key := by
      intro key _
      have h_key : (groupOf events key).key = key := rfl
      rw [h_key]
      split_ifs with h_here
      · simp [groupOf, List.filter_append, h_here]
      · simp [groupOf, List.filter_append, Ne.symm h_here]
    have h_any : ((fromKeys (events.map groupKey)).map (groupOf events)).any
        (·.key = groupKey event) = true ↔ groupKey event ∈ events.map groupKey := by
      rw [List.any_map, List.any_eq_true, ← mem_fromKeys]
      constructor
      · rintro ⟨key, h_mem, h_key⟩
        exact of_decide_eq_true h_key ▸ h_mem
      · exact fun h_mem => ⟨_, h_mem, decide_eq_true rfl⟩
    rw [buildEventGroups, List.foldl_concat, ← buildEventGroups, ih, addEvent, List.map_append,
      List.map_singleton, fromKeys_concat]
    by_cases h_mem : groupKey event ∈ events.map groupKey
    · rw [if_pos h_mem, if_pos (h_any.mpr h_mem), List.map_map]
      exact (List.map_congr_left h_other).symm
    · rw [if_neg h_mem, if_neg (fun h => h_mem (h_any.mp h)), List.map_append, List.map_singleton]
      congr 1
      · refine List.map_congr_left fun key h_key => ?_
        rw [h_other key h_key, if_neg]
        exact fun h_here => h_mem (h_here ▸ mem_fromKeys.mp h_key)
      · -- no earlier event has the key
        have h_none : events.filter (groupKey · = groupKey event) = [] := by
          rw [List.filter_eq_nil_iff]
          intro other h_other h_key
          exact h_mem (List.mem_map.mpr ⟨other, h_other, of_decide_eq_true h_key⟩)
        rw [groupOf, List.filter_append, h_none]
        simp [groupKey]

/-! ### Tasks -/

/-- Where a task is. While it runs, the first of the groups that are left is being processed. -/
inductive Stage
  | queued
  | running (rest : List EventGroup)
  | skipped
  | finished

/-- A task of `send_notifications`, with its argument. -/
structure Task where
  groups : List EventGroup
  stage : Stage

/-- The clock, the lock, the dispatched tasks, and the groups that were handled. -/
structure State where
  now : ℕ
  lock : Option ℕ
  tasks : List Task
  handed : List (ℕ × EventGroup)

def sendLockTimeout : ℕ := 55

def State.Held (s : State) : Prop := ∃ expiry ∈ s.lock, s.now < expiry

instance (s : State) : Decidable s.Held :=
  match h : s.lock with
  | none => isFalse fun ⟨_, h_lock, _⟩ => nomatch h ▸ h_lock
  | some expiry => decidable_of_iff (s.now < expiry)
      ⟨fun h_now => ⟨expiry, h, h_now⟩, fun ⟨_, h_lock, h_now⟩ =>
        Option.some.inj (h.symm.trans h_lock) ▸ h_now⟩

inductive Action
  | round (rules : List (List TriggerEvent))
  | wait (duration : ℕ)
  | start (k : ℕ)
  | next (k : ℕ)
  | finish (k : ℕ)

def State.move (s : State) (k : ℕ) (task : Task) (stage : Stage) (groups : List EventGroup)
    (lock : Option ℕ) : State :=
  { s with
    lock := lock
    tasks := s.tasks.set k { task with stage := stage }
    handed := s.handed ++ groups.map fun group => (k, group) }

def step (s : State) : Action → State
  | .round rules =>
    if queuedEventGroups rules = [] then s
    else { s with tasks := s.tasks ++ [⟨queuedEventGroups rules, .queued⟩] }
  | .wait duration => { s with now := s.now + duration }
  | .start k =>
    match s.tasks[k]? with
    | some task =>
      match task.stage with
      | .queued =>
        if s.Held then s.move k task .skipped [] s.lock
        else
          match task.groups with
          | [] => s.move k task .finished [] none
          | group :: rest =>
            s.move k task (.running (group :: rest)) [group] (some (s.now + sendLockTimeout))
      | _ => s
    | none => s
  | .next k =>
    match s.tasks[k]? with
    | some task =>
      match task.stage with
      | .running (_ :: rest) => s.move k task (.running rest) rest.head?.toList s.lock
      | _ => s
    | none => s
  | .finish k =>
    match s.tasks[k]? with
    | some task =>
      match task.stage with
      -- `cache.delete`, also where the entry is another task's
      | .running [] => s.move k task .finished [] none
      | _ => s
    | none => s

def initial : State := ⟨0, none, [], []⟩

/-! ### What is handed over -/

def State.handedBy (s : State) (k : ℕ) : List EventGroup :=
  (s.handed.filter (·.1 = k)).map (·.2)

def Task.toHand (task : Task) : List EventGroup :=
  match task.stage with
  | .queued => task.groups
  | .running rest => rest.tail
  | .skipped => []
  | .finished => []

def State.Processing (s : State) (k : ℕ) : Prop :=
  ∃ task ∈ s.tasks[k]?, ∃ group rest, task.stage = .running (group :: rest)

/-- Each group is handed over once by its own task, or will be, and one task at a time is at its
groups. -/
structure Served (s : State) : Prop where
  groups : ∀ k : ℕ, ∀ task ∈ s.tasks[k]?, s.handedBy k ++ task.toHand = task.groups
  alone : ∀ j k, s.Processing j → s.Processing k → j = k

def Alone (s : State) : Action → State → Prop
  | .start k, _ => (∃ task ∈ s.tasks[k]?, task.stage = .queued) → ¬s.Held ∧ ∀ j, ¬s.Processing j
  | _, _ => True

/-! ### A move -/

section Move

variable {s : State} {j k : ℕ} {task : Task} {stage : Stage} {groups : List EventGroup}
  {lock : Option ℕ}

theorem getElem?_move (h : s.tasks[k]? = some task) :
    (s.move k task stage groups lock).tasks[k]? = some { task with stage := stage } := by
  obtain ⟨h_k, -⟩ := List.getElem?_eq_some_iff.mp h
  exact List.getElem?_set_self h_k

theorem getElem?_move_of_ne (h : j ≠ k) :
    (s.move k task stage groups lock).tasks[j]? = s.tasks[j]? :=
  List.getElem?_set_ne h.symm

theorem handedBy_move :
    (s.move k task stage groups lock).handedBy k = s.handedBy k ++ groups := by
  have h_own : (groups.map fun group => (k, group)).filter (·.1 = k) =
      groups.map fun group => (k, group) := by
    rw [List.filter_eq_self]
    intro entry h_entry
    obtain ⟨group, -, rfl⟩ := List.mem_map.mp h_entry
    exact decide_eq_true rfl
  rw [State.handedBy, State.move, List.filter_append, h_own, List.map_append, List.map_map]
  congr 1
  exact List.map_id groups

theorem handedBy_move_of_ne (h : j ≠ k) :
    (s.move k task stage groups lock).handedBy j = s.handedBy j := by
  have h_none : (groups.map fun group => (k, group)).filter (·.1 = j) = [] := by
    rw [List.filter_eq_nil_iff]
    intro entry h_entry h_j
    obtain ⟨group, -, rfl⟩ := List.mem_map.mp h_entry
    exact h (of_decide_eq_true h_j).symm
  rw [State.handedBy, State.move, List.filter_append, h_none, List.append_nil]
  rfl

theorem getElem?_dispatch
    (h : (s.tasks ++ [Task.mk groups .queued])[k]? = some task) :
    s.tasks[k]? = some task ∨ s.tasks[k]? = none ∧ task = ⟨groups, .queued⟩ := by
  by_cases h_k : k < s.tasks.length
  · rw [List.getElem?_append_left h_k] at h
    exact .inl h
  · have h_out : s.tasks.length ≤ k := Nat.le_of_not_lt h_k
    rw [List.getElem?_append_right h_out, List.getElem?_singleton] at h
    split_ifs at h
    exact .inr ⟨List.getElem?_eq_none h_out, (Option.some.inj h).symm⟩

end Move

/-! ### What every run keeps -/

/-- What a task has handed over fits where it is. -/
def Task.Fits (task : Task) (handed : List EventGroup) : Prop :=
  match task.stage with
  | .queued => handed = []
  | .skipped => handed = []
  | .running rest => handed ++ rest.tail = task.groups
  | .finished => handed = task.groups

/-- Tasks have groups, and each has handed over what fits. -/
structure Kept (s : State) : Prop where
  groups : ∀ k : ℕ, ∀ task ∈ s.tasks[k]?, task.groups ≠ []
  fits : ∀ k : ℕ, ∀ task ∈ s.tasks[k]?, task.Fits (s.handedBy k)
  fresh : ∀ k : ℕ, s.tasks[k]? = none → s.handedBy k = []

namespace Kept

variable {s : State}

theorem initial : Kept initial where
  groups k task h := by simp [SendNotifications.initial] at h
  fits k task h := by simp [SendNotifications.initial] at h
  fresh _ _ := rfl

theorem move {k : ℕ} {task : Task} {stage : Stage} {groups : List EventGroup} {lock : Option ℕ}
    (h : Kept s) (h_task : s.tasks[k]? = some task)
    (h_fits : Task.Fits { task with stage := stage } (s.handedBy k ++ groups)) :
    Kept (s.move k task stage groups lock) := by
  constructor
  · intro j other h_other
    by_cases h_j : j = k
    · subst h_j
      rw [getElem?_move h_task] at h_other
      obtain rfl := Option.some.inj h_other
      exact h.groups j task h_task
    · rw [getElem?_move_of_ne h_j] at h_other
      exact h.groups j other h_other
  · intro j other h_other
    by_cases h_j : j = k
    · subst h_j
      rw [getElem?_move h_task] at h_other
      obtain rfl := Option.some.inj h_other
      rwa [handedBy_move]
    · rw [getElem?_move_of_ne h_j] at h_other
      rw [handedBy_move_of_ne h_j]
      exact h.fits j other h_other
  · intro j h_none
    by_cases h_j : j = k
    · subst h_j
      rw [getElem?_move h_task] at h_none
      exact absurd h_none (Option.some_ne_none _)
    · rw [getElem?_move_of_ne h_j] at h_none
      rw [handedBy_move_of_ne h_j]
      exact h.fresh j h_none

theorem dispatch {groups : List EventGroup} (h : Kept s) (h_groups : groups ≠ []) :
    Kept { s with tasks := s.tasks ++ [⟨groups, .queued⟩] } := by
  constructor
  · intro k task h_task
    obtain h_old | ⟨-, rfl⟩ := getElem?_dispatch h_task
    · exact h.groups k task h_old
    · exact h_groups
  · intro k task h_task
    obtain h_old | ⟨h_new, rfl⟩ := getElem?_dispatch h_task
    · exact h.fits k task h_old
    · exact h.fresh k h_new
  · intro k h_none
    refine h.fresh k (List.getElem?_eq_none ?_)
    have h_length := List.getElem?_eq_none_iff.mp h_none
    simp only [List.length_append, List.length_singleton] at h_length
    omega

end Kept

/-! ### The steps -/

/-- **What a step does.** A step that moves a task moves it from where it was. -/
inductive Moves (s : State) : Action → State → Prop
  | idle {a : Action} (t : State) (h_tasks : t.tasks = s.tasks) (h_handed : t.handed = s.handed)
    (h_start : ∀ k, a = .start k → ¬∃ task ∈ s.tasks[k]?, task.stage = .queued) : Moves s a t
  | dispatch {rules : List (List TriggerEvent)} {groups : List EventGroup} (h_groups : groups ≠ []) :
    Moves s (.round rules) { s with tasks := s.tasks ++ [⟨groups, .queued⟩] }
  | skip {k : ℕ} {task : Task} (h_task : s.tasks[k]? = some task) (h_stage : task.stage = .queued)
    (h_held : s.Held) : Moves s (.start k) (s.move k task .skipped [] s.lock)
  | start {k : ℕ} {task : Task} {group : EventGroup} {rest : List EventGroup}
    (h_task : s.tasks[k]? = some task) (h_stage : task.stage = .queued) (h_free : ¬s.Held)
    (h_groups : task.groups = group :: rest) : Moves s (.start k)
      (s.move k task (.running (group :: rest)) [group] (some (s.now + sendLockTimeout)))
  | next {k : ℕ} {task : Task} {group : EventGroup} {rest : List EventGroup}
    (h_task : s.tasks[k]? = some task) (h_stage : task.stage = .running (group :: rest)) :
    Moves s (.next k) (s.move k task (.running rest) rest.head?.toList s.lock)
  | finish {k : ℕ} {task : Task} (h_task : s.tasks[k]? = some task)
    (h_stage : task.stage = .running []) :
    Moves s (.finish k) (s.move k task .finished [] none)

theorem step_moves {s : State} (h : Kept s) (a : Action) : Moves s a (step s a) := by
  cases a with
  | round rules =>
    rw [step]
    split_ifs with h_none
    · exact .idle s rfl rfl fun k h_start => nomatch h_start
    · exact .dispatch h_none
  | wait duration => exact .idle _ rfl rfl fun k h_start => nomatch h_start
  | start k =>
    rw [step]
    cases h_task : s.tasks[k]? with
    | none =>
      refine .idle s rfl rfl ?_
      rintro _ ⟨⟩ ⟨task, h_some, -⟩
      exact nomatch h_task.symm.trans h_some
    | some task =>
      have h_idle : task.stage ≠ .queued → Moves s (.start k) s := by
        refine fun h_stage => .idle s rfl rfl ?_
        rintro _ ⟨⟩ ⟨other, h_some, h_queued⟩
        obtain rfl := Option.some.inj (h_task.symm.trans h_some)
        exact h_stage h_queued
      dsimp only
      cases h_stage : task.stage with
      | queued =>
        dsimp only
        split_ifs with h_held
        · exact .skip h_task h_stage h_held
        · cases h_groups : task.groups with
          | nil => exact absurd h_groups (h.groups k task h_task)
          | cons group rest => exact .start h_task h_stage h_held h_groups
      | running rest => exact h_idle (h_stage ▸ Stage.noConfusion)
      | skipped => exact h_idle (h_stage ▸ Stage.noConfusion)
      | finished => exact h_idle (h_stage ▸ Stage.noConfusion)
  | next k =>
    have h_idle : Moves s (.next k) s := .idle s rfl rfl fun k h_start => nomatch h_start
    rw [step]
    cases h_task : s.tasks[k]? with
    | none => exact h_idle
    | some task =>
      dsimp only
      split
      · exact .next h_task ‹_›
      · exact h_idle
  | finish k =>
    have h_idle : Moves s (.finish k) s := .idle s rfl rfl fun k h_start => nomatch h_start
    rw [step]
    cases h_task : s.tasks[k]? with
    | none => exact h_idle
    | some task =>
      dsimp only
      split
      · exact .finish h_task ‹_›
      · exact h_idle

theorem Kept.moves {s t : State} {a : Action} (h : Kept s) (h_moves : Moves s a t) : Kept t := by
  cases h_moves with
  | idle t h_tasks h_handed _ =>
    have h_by : ∀ k, t.handedBy k = s.handedBy k := fun k => by
      rw [State.handedBy, h_handed, State.handedBy]
    constructor
    · exact fun k task h_task => h.groups k task (h_tasks ▸ h_task)
    · exact fun k task h_task => h_by k ▸ h.fits k task (h_tasks ▸ h_task)
    · exact fun k h_none => h_by k ▸ h.fresh k (h_tasks ▸ h_none)
  | dispatch h_groups => exact h.dispatch h_groups
  | skip h_task h_stage _ =>
    have h_fits := h.fits _ _ h_task
    rw [Task.Fits, h_stage] at h_fits
    exact h.move h_task (by rw [Task.Fits, h_fits]; rfl)
  | start h_task h_stage _ h_groups =>
    have h_fits := h.fits _ _ h_task
    rw [Task.Fits, h_stage] at h_fits
    exact h.move h_task (by rw [Task.Fits, h_fits, h_groups]; rfl)
  | @next k task group rest h_task h_stage =>
    have h_fits := h.fits _ _ h_task
    rw [Task.Fits, h_stage] at h_fits
    refine h.move h_task ?_
    have h_rest : rest.head?.toList ++ rest.tail = rest := by cases rest <;> rfl
    change s.handedBy k ++ rest.head?.toList ++ rest.tail = task.groups
    rw [List.append_assoc, h_rest]
    exact h_fits
  | @finish k task h_task h_stage =>
    have h_fits := h.fits _ _ h_task
    rw [Task.Fits, h_stage] at h_fits
    exact h.move h_task h_fits

theorem Kept.step {s : State} (h : Kept s) (a : Action) : Kept (step s a) :=
  h.moves (step_moves h a)

/-! ### Exactly once, one at a time -/

section Served

variable {s t : State} {a : Action} {j k : ℕ}

theorem Kept.served_iff_stages (h : Kept s) :
    Served s ↔ (∀ k : ℕ, ∀ task ∈ s.tasks[k]?, task.stage ≠ .skipped) ∧
      ∀ j k, s.Processing j → s.Processing k → j = k := by
  constructor
  · intro h_served
    refine ⟨fun k task h_task h_stage => h.groups k task h_task ?_, h_served.alone⟩
    have h_fits := h.fits k task h_task
    have h_all := h_served.groups k task h_task
    rw [Task.Fits, h_stage] at h_fits
    rw [Task.toHand, h_stage, h_fits] at h_all
    exact h_all.symm
  · rintro ⟨h_stages, h_alone⟩
    refine ⟨fun k task h_task => ?_, h_alone⟩
    have h_fits := h.fits k task h_task
    rw [Task.Fits] at h_fits
    rw [Task.toHand]
    cases h_stage : task.stage with
    | queued =>
      rw [h_stage] at h_fits
      rw [h_fits, List.nil_append]
    | running rest =>
      rw [h_stage] at h_fits
      exact h_fits
    | skipped => exact absurd h_stage (h_stages k task h_task)
    | finished =>
      rw [h_stage] at h_fits
      rw [h_fits, List.append_nil]

theorem processing_move {task : Task} {stage : Stage} {groups : List EventGroup} {lock : Option ℕ}
    (h_task : s.tasks[k]? = some task) :
    (s.move k task stage groups lock).Processing j ↔
      if j = k then ∃ group rest, stage = .running (group :: rest) else s.Processing j := by
  rw [State.Processing]
  split_ifs with h_j
  · subst h_j
    rw [getElem?_move h_task]
    simp
  · rw [getElem?_move_of_ne h_j, State.Processing]

theorem stages_move {task : Task} {stage : Stage} {groups : List EventGroup} {lock : Option ℕ}
    (h_task : s.tasks[k]? = some task)
    (h : ∀ j : ℕ, ∀ other ∈ s.tasks[j]?, other.stage ≠ .skipped) (h_stage : stage ≠ .skipped) :
    ∀ j : ℕ, ∀ other ∈ (s.move k task stage groups lock).tasks[j]?, other.stage ≠ .skipped := by
  intro j other h_other
  by_cases h_j : j = k
  · subst h_j
    rw [getElem?_move h_task] at h_other
    obtain rfl := Option.some.inj h_other
    exact h_stage
  · rw [getElem?_move_of_ne h_j] at h_other
    exact h j other h_other

theorem served_moves_iff (h : Kept s) (h_served : Served s) (h_moves : Moves s a t) :
    Served t ↔ Alone s a t := by
  rw [(h.moves h_moves).served_iff_stages]
  obtain ⟨h_stages, h_alone⟩ := h.served_iff_stages.mp h_served
  cases h_moves with
  | idle t h_tasks h_handed h_start =>
    have h_processing : ∀ k, t.Processing k ↔ s.Processing k := fun k => by
      rw [State.Processing, h_tasks, State.Processing]
    refine iff_of_true ⟨h_tasks ▸ h_stages, fun j k h_j h_k => ?_⟩ ?_
    · exact h_alone j k ((h_processing j).mp h_j) ((h_processing k).mp h_k)
    · cases a with
      | start k => exact fun h_queued => absurd h_queued (h_start k rfl)
      | _ => trivial
  | @dispatch rules groups h_groups =>
    refine iff_of_true ⟨fun k task h_task => ?_, fun j k h_j h_k => ?_⟩ trivial
    · obtain h_old | ⟨-, rfl⟩ := getElem?_dispatch h_task
      · exact h_stages k task h_old
      · exact Stage.noConfusion
    · have h_before : ∀ {k : ℕ}, (∃ task ∈ (s.tasks ++ [Task.mk groups .queued])[k]?,
          ∃ group rest, task.stage = .running (group :: rest)) → s.Processing k := by
        rintro k ⟨task, h_task, group, rest, h_running⟩
        obtain h_old | ⟨-, rfl⟩ := getElem?_dispatch h_task
        · exact ⟨task, h_old, group, rest, h_running⟩
        · exact nomatch h_running
      exact h_alone j k (h_before h_j) (h_before h_k)
  | @skip k task h_task h_stage h_held =>
    refine iff_of_false (fun h_all => ?_) fun h_ok => (h_ok ⟨task, h_task, h_stage⟩).1 h_held
    exact h_all.1 k _ (getElem?_move h_task) rfl
  | @start k task group rest h_task h_stage h_free h_groups =>
    have h_not : ¬s.Processing k := by
      rintro ⟨other, h_other, group, rest, h_running⟩
      obtain rfl := Option.some.inj (h_task.symm.trans h_other)
      exact nomatch h_stage.symm.trans h_running
    have h_this : (s.move k task (.running (group :: rest)) [group]
        (some (s.now + sendLockTimeout))).Processing k :=
      (processing_move h_task).mpr (by rw [if_pos rfl]; exact ⟨group, rest, rfl⟩)
    constructor
    · rintro ⟨-, h_one⟩ -
      refine ⟨h_free, fun j h_j => ?_⟩
      have h_ne : j ≠ k := fun h_eq => h_not (h_eq ▸ h_j)
      exact h_ne (h_one j k ((processing_move h_task).mpr (by rwa [if_neg h_ne])) h_this)
    · intro h_ok
      obtain ⟨-, h_none⟩ := h_ok ⟨task, h_task, h_stage⟩
      refine ⟨stages_move h_task h_stages Stage.noConfusion, fun i j h_i h_j => ?_⟩
      -- whoever is at its groups now is the task that has started
      have h_only : ∀ i, (s.move k task (.running (group :: rest)) [group]
          (some (s.now + sendLockTimeout))).Processing i → i = k := by
        intro i h_i
        by_contra h_ne
        rw [processing_move h_task, if_neg h_ne] at h_i
        exact h_none i h_i
      exact (h_only i h_i).trans (h_only j h_j).symm
  | @next k task group rest h_task h_stage =>
    refine iff_of_true ⟨stages_move h_task h_stages Stage.noConfusion, ?_⟩ trivial
    have h_before : ∀ j, (s.move k task (.running rest) rest.head?.toList s.lock).Processing j →
        s.Processing j := by
      intro j h_j
      by_cases h_eq : j = k
      · exact h_eq ▸ ⟨task, h_task, group, rest, h_stage⟩
      · rwa [processing_move h_task, if_neg h_eq] at h_j
    exact fun i j h_i h_j => h_alone i j (h_before i h_i) (h_before j h_j)
  | @finish k task h_task h_stage =>
    refine iff_of_true ⟨stages_move h_task h_stages Stage.noConfusion, ?_⟩ trivial
    have h_before : ∀ j, (s.move k task .finished [] none).Processing j → s.Processing j := by
      intro j h_j
      rw [processing_move h_task] at h_j
      split_ifs at h_j with h_eq
      · obtain ⟨group, rest, h_running⟩ := h_j
        exact nomatch h_running
      · exact h_j
    exact fun i j h_i h_j => h_alone i j (h_before i h_i) (h_before j h_j)

/-- **All groups reach the sender once iff tasks start alone and no entry is left.** -/
theorem allServed_iff (as : List Action) :
    Runs.Always step Served initial as ↔ Runs.Along step Alone initial as :=
  Runs.always_iff_along (K := Kept) (fun _ a h => h.step a)
    (fun _ a (_ : True) h h_served => served_moves_iff h h_served (step_moves h a))
    (fun _ _ => trivial) Kept.initial
    ⟨fun _ _ h => by simp [initial] at h, fun _ _ ⟨_, h, _⟩ => by simp [initial] at h⟩

private def cpuEvent : TriggerEvent :=
  ⟨1, "cpu", "host", "主机", "attribute_change", 7, .str "host-7", "字段变化: cpu: 2 → 4", "09:00"⟩

/-- The groups of the second round are dropped by a task that finds the first one at work. -/
theorem not_served_skipped :
    ¬Runs.Always step Served initial
      [.round [[cpuEvent]], .round [[cpuEvent]], .start 0, .start 1] := by
  intro h_always
  have h_all := h_always.last.groups 1 ⟨[⟨1, "attribute_change", [cpuEvent]⟩], .skipped⟩ rfl
  exact List.cons_ne_nil _ _ h_all.symm

end Served

/-- A task hands over no group twice, none before an earlier one, and all before it is done. -/
def InOrder (s : State) : Prop :=
  ∀ k : ℕ, ∀ task ∈ s.tasks[k]?, s.handedBy k <+: task.groups ∧
    (task.stage = .finished → s.handedBy k = task.groups)

/-- **At most once**, also where the lock entry has expired or was another task's. -/
theorem always_inOrder (as : List Action) : Runs.Always step InOrder initial as := by
  intro pre _ k task h_task
  have h_kept : Kept (Runs.run step initial pre) :=
    Runs.run_invariant (fun _ a h => h.step a) Kept.initial pre
  have h_fits := h_kept.fits k task h_task
  rw [Task.Fits] at h_fits
  cases h_stage : task.stage with
  | queued | skipped =>
    rw [h_stage] at h_fits
    exact ⟨h_fits ▸ List.nil_prefix, Stage.noConfusion⟩
  | running rest =>
    rw [h_stage] at h_fits
    exact ⟨⟨_, h_fits⟩, Stage.noConfusion⟩
  | finished =>
    rw [h_stage] at h_fits
    exact ⟨h_fits ▸ List.prefix_rfl, fun _ => h_fits⟩

end Cmdb.SendNotifications
