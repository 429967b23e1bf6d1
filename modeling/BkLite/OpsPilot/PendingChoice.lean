import BkLite.Framework.Runs

/-!
# Answers to a waiting node

A node that waits for a choice polls the cache for an answer and renews, round by round, an entry
that says that the session has a waiting node (`user_choice.py`). An entrance of the chat reads that
entry and, if it is there, writes its message as the answer and removes the entry
(`pending_hitl.py`). Neither side does its three operations at once, so the entry can be there when
the wait has an answer already, or has ended.
-/

namespace OpsPilot
namespace PendingChoice

structure Key where
  executionId : String
  nodeId : String
  choiceId : String
deriving DecidableEq, Repr

inductive Trigger
  | interactive
  | unattended
  | thirdParty
deriving DecidableEq, Repr

inductive Source
  | user
  | interrupted
  | auto
  | timeout
deriving DecidableEq, Repr

/-- What `wait_for_choice` returns. -/
structure Selection where
  selected : List String
  source : Source
deriving DecidableEq, Repr

/-- A call of `wait_for_choice`, with the keys of its options. -/
structure Wait where
  key : Key
  options : List String
  defaultKeys : List String
  triggerType : Trigger := .interactive
  botId : String
  sessionId : String
deriving Repr

def Wait.fallback (w : Wait) : List String :=
  if w.defaultKeys ≠ [] then w.defaultKeys else w.options.take 1

/-- `bot_id and session_id`. -/
def Wait.Located (w : Wait) : Prop := w.botId ≠ "" ∧ w.sessionId ≠ ""

instance (w : Wait) : Decidable w.Located := inferInstanceAs (Decidable (_ ∧ _))

inductive Phase
  | top
  | poll
  | clear (selected : List String)
  | interrupt
  | register
  | asleep
  | returned (selection : Selection)
deriving DecidableEq, Repr

/-- Where a call of `try_deliver_to_pending` is, with the entry that it has read. -/
inductive Call
  | idle
  | found (pending : Key)
  | submitted (pending : Key)
  | missed
  | delivered (pending : Key)
deriving DecidableEq, Repr

def Call.entry : Call → Option Key
  | .found pending | .submitted pending | .delivered pending => some pending
  | .idle | .missed => none

def Call.written : Call → Bool
  | .submitted _ | .delivered _ => true
  | .idle | .missed | .found _ => false

/-- The entry of the session, the answers, the wait and the calls of the session. -/
structure State where
  pending : Option Key := none
  choices : Key → Option (List String) := fun _ => none
  wait : Phase
  calls : ℕ → Call := fun _ => .idle

inductive Action
  /-- The wait takes its next step. `stop` is the deadline at the top of the loop and the flag of
  the interruption where that is asked for. -/
  | wait (stop : Bool)
  /-- A call reads the entry of the session. -/
  | read (call : ℕ)
  /-- It writes its message as the answer. -/
  | submit (call : ℕ)
  /-- It removes the entry. -/
  | clear (call : ℕ)
deriving DecidableEq

/-- The beginning of `wait_for_choice`. -/
def Wait.begin (w : Wait) : Phase :=
  if w.triggerType = .unattended then .returned ⟨w.fallback, .auto⟩ else .top

variable (w : Wait) (message : ℕ → String)

/-- One step of the loop of `wait_for_choice`. -/
def waitStep (stop : Bool) (s : State) : State :=
  match s.wait with
  | .top =>
    if stop = true ∧ w.triggerType ≠ .interactive then
      { s with wait := .returned ⟨w.fallback, .timeout⟩ }
    else { s with wait := .poll }
  | .poll =>
    match s.choices w.key with
    | some selected => { s with wait := .clear selected }
    | none => { s with wait := .interrupt }
  | .clear selected =>
    { s with choices := Function.update s.choices w.key none
             wait := .returned ⟨selected, .user⟩ }
  | .interrupt =>
    if stop = true ∧ w.key.executionId ≠ "" then
      { s with wait := .returned ⟨[], .interrupted⟩ }
    else { s with wait := .register }
  | .register =>
    if w.Located then { s with pending := some w.key, wait := .asleep }
    else { s with wait := .asleep }
  | .asleep => { s with wait := .top }
  | .returned _ => s

/-- One step of the wait or of a call of `try_deliver_to_pending`. -/
def step (s : State) : Action → State
  | .wait stop => waitStep w stop s
  | .read i =>
    match s.calls i with
    | .idle =>
      match s.pending with
      | some pending => { s with calls := Function.update s.calls i (.found pending) }
      | none => { s with calls := Function.update s.calls i .missed }
    | _ => s
  | .submit i =>
    match s.calls i with
    | .found pending =>
      { s with choices := Function.update s.choices pending (some [message i])
               calls := Function.update s.calls i (.submitted pending) }
    | _ => s
  | .clear i =>
    match s.calls i with
    | .submitted pending =>
      { s with pending := none, calls := Function.update s.calls i (.delivered pending) }
    | _ => s

/-! ### No lost answer -/

def State.Ended (s : State) : Prop := ∃ selection, s.wait = .returned selection

/-- The call returns `delivered_to_pending`. -/
def State.Delivered (s : State) (i : ℕ) : Prop := ∃ pending, s.calls i = .delivered pending

def State.Accepted (s : State) (i : ℕ) : Prop := (s.calls i).entry ≠ none

def State.Settled (s : State) : Prop := ∀ i, s.Accepted i → s.Delivered i

def State.Fresh (w : Wait) (s : State) : Prop :=
  s.pending = none ∧ s.choices w.key = none ∧ s.wait = w.begin ∧ ∀ i, s.calls i = .idle

def State.Selects (w : Wait) (message : ℕ → String) (s : State) (i : ℕ) : Prop :=
  (Runs.run (step w message) s (List.replicate 6 (.wait false))).wait =
    .returned ⟨[message i], .user⟩

/-- Every delivered message is the selection of the wait, and no call that begins after the wait has
returned is delivered. -/
def Kept (s : State) (as : List Action) : Prop :=
  (∀ i, (Runs.run (step w message) s as).Delivered i →
      (Runs.run (step w message) s as).Selects w message i) ∧
    ∀ pre post i, as = pre ++ post → (Runs.run (step w message) s pre).Ended →
      (Runs.run (step w message) s pre).calls i = .idle →
        ¬(Runs.run (step w message) s as).Delivered i

def Clears (s : State) (a : Action) : Prop :=
  ∃ i pending, a = .clear i ∧ s.calls i = .submitted pending

def Registers (s : State) (a : Action) : Prop :=
  ∃ stop, a = .wait stop ∧ s.wait = .register ∧ w.Located

def Registered (s : State) (as : List Action) : Prop :=
  Runs.Since (step w message) (fun s a _ => Registers w s a) (fun s a _ => ¬Clears s a) s as

/-- After `pre` the call begins, and the session is registered. -/
def Finds (s : State) (as pre : List Action) (i : ℕ) : Prop :=
  pre ++ [.read i] <+: as ∧ (Runs.run (step w message) s pre).calls i = .idle ∧
    Registered w message s pre

def Leaves (s : State) (a : Action) : Prop :=
  a = .wait true ∧
    ((s.wait = .top ∧ w.triggerType ≠ .interactive) ∨
      (s.wait = .interrupt ∧ w.key.executionId ≠ ""))

/-- The calls carry one message, find the wait going on, and it ends with an answer. -/
structure InTime (s : State) (as : List Action) : Prop where
  one_message : ∀ pre i pre' j, Finds w message s as pre i → Finds w message s as pre' j →
    message i = message j
  waiting : ∀ pre i, Finds w message s as pre i → ¬(Runs.run (step w message) s pre).Ended
  answered : ∀ pre i mid a post, Finds w message s as pre i →
    as = pre ++ .read i :: mid ++ a :: post →
      ¬Leaves w (Runs.run (step w message) s (pre ++ .read i :: mid)) a

/-! ### What one step does -/

section Steps

variable {w message} {s : State} {a : Action} {i : ℕ}

theorem pending_step (s : State) (a : Action) :
    (Registers w s a → (step w message s a).pending = some w.key) ∧
      (Clears s a → (step w message s a).pending = none) ∧
      (¬Registers w s a → ¬Clears s a → (step w message s a).pending = s.pending) := by
  refine ⟨?_, ?_, ?_⟩
  · rintro ⟨stop, rfl, h_phase, h_located⟩
    simp [step, waitStep, h_phase, h_located]
  · rintro ⟨i, pending, rfl, h_call⟩
    simp [step, h_call]
  · intro h_registers h_clears
    cases a with
    | wait stop =>
      simp only [step, waitStep]
      split <;> try rfl
      · split_ifs <;> rfl
      · split <;> rfl
      · split_ifs <;> rfl
      · next h_phase =>
        rw [if_neg fun h_located => h_registers ⟨stop, rfl, h_phase, h_located⟩]
    | read i =>
      simp only [step]
      split
      · split <;> rfl
      · rfl
    | submit i =>
      simp only [step]
      split <;> rfl
    | clear i =>
      simp only [step]
      split
      · next pending h_call => exact absurd ⟨i, pending, rfl, h_call⟩ h_clears
      · rfl

theorem calls_waitStep (stop : Bool) (s : State) : (waitStep w stop s).calls = s.calls := by
  unfold waitStep
  split <;> try rfl
  · split_ifs <;> rfl
  · split <;> rfl
  · split_ifs <;> rfl
  · split_ifs <;> rfl

theorem entry_update {call : Call} {j : ℕ} :
    (Function.update s.calls i call j).entry =
      if j = i then call.entry else (s.calls j).entry := by
  rw [Function.update_apply]
  split_ifs <;> rfl

theorem accepted_step (s : State) (a : Action) (j : ℕ) :
    (step w message s a).Accepted j ↔
      (a = .read j ∧ s.calls j = .idle ∧ s.pending ≠ none) ∨ s.Accepted j := by
  cases a with
  | wait stop =>
    show ((waitStep w stop s).calls j).entry ≠ none ↔ _
    rw [calls_waitStep]
    simp [State.Accepted]
  | read i =>
    have h_this : Action.read i = .read j ↔ j = i := by rw [Action.read.injEq, eq_comm]
    cases h_call : s.calls i <;> cases h_pending : s.pending <;> by_cases h_same : j = i <;>
      simp [step, State.Accepted, Call.entry, h_call, h_pending, h_this, h_same]
  | submit i =>
    cases h_call : s.calls i <;> by_cases h_same : j = i <;>
      simp [step, State.Accepted, Call.entry, h_call, h_same]
  | clear i =>
    cases h_call : s.calls i <;> by_cases h_same : j = i <;>
      simp [step, State.Accepted, Call.entry, h_call, h_same]

theorem returned_step {selection : Selection} (h : s.wait = .returned selection) :
    (step w message s a).wait = .returned selection := by
  cases a with
  | wait stop => simp [step, waitStep, h]
  | read i =>
    simp only [step]
    split
    · split <;> exact h
    · exact h
  | submit i =>
    simp only [step]
    split <;> exact h
  | clear i =>
    simp only [step]
    split <;> exact h

theorem wait_of_leaves (h : Leaves w s a) :
    ∃ selection, (step w message s a).wait = .returned selection ∧ selection.source ≠ .user := by
  obtain ⟨rfl, ⟨h_phase, h_stop⟩ | ⟨h_phase, h_stop⟩⟩ := h
  · refine ⟨⟨w.fallback, .timeout⟩, ?_, Source.noConfusion⟩
    simp [step, waitStep, h_phase, h_stop]
  · refine ⟨⟨[], .interrupted⟩, ?_, Source.noConfusion⟩
    simp [step, waitStep, h_phase, h_stop]

end Steps

section Runs

variable {w message} {s : State} {as : List Action} {i : ℕ}

theorem returned_run {selection : Selection} (h : s.wait = .returned selection) :
    (Runs.run (step w message) s as).wait = .returned selection :=
  Runs.run_invariant (I := fun s : State => s.wait = .returned selection)
    (fun _ _ h => returned_step h) h as

theorem pending_run (h : s.pending = none) :
    (Registered w message s as → (Runs.run (step w message) s as).pending = some w.key) ∧
      (¬Registered w message s as → (Runs.run (step w message) s as).pending = none) := by
  induction as using List.reverseRecOn with
  | nil => exact ⟨fun h_since => absurd h_since Runs.not_since_nil, fun _ => h⟩
  | append_singleton as a ih =>
    obtain ⟨h_registers, h_clears, h_keeps⟩ :=
      pending_step (w := w) (Runs.run (step w message) s as) a
    rw [Registered, Runs.since_concat, Runs.run_concat]
    by_cases h_renewal : Registers w (Runs.run (step w message) s as) a
    · exact ⟨fun _ => h_registers h_renewal, fun h_not => absurd (.inl h_renewal) h_not⟩
    by_cases h_removal : Clears (Runs.run (step w message) s as) a
    · refine ⟨?_, fun _ => h_clears h_removal⟩
      rintro (h_now | ⟨-, h_not⟩)
      · exact absurd h_now h_renewal
      · exact absurd h_removal h_not
    · -- the step leaves the entry alone
      rw [h_keeps h_renewal h_removal]
      refine ⟨?_, fun h_not => ih.2 fun h_since => h_not (.inr ⟨h_since, h_removal⟩)⟩
      rintro (h_now | ⟨h_since, -⟩)
      · exact absurd h_now h_renewal
      · exact ih.1 h_since

theorem registered_iff (h : s.pending = none) :
    Registered w message s as ↔ (Runs.run (step w message) s as).pending ≠ none := by
  constructor
  · intro h_since
    rw [(pending_run h).1 h_since]
    exact Option.some_ne_none _
  · intro h_some
    by_contra h_not
    exact h_some ((pending_run h).2 h_not)

theorem accepted_iff (h : s.Fresh w) :
    (Runs.run (step w message) s as).Accepted i ↔ ∃ pre, Finds w message s as pre i := by
  induction as using List.reverseRecOn with
  | nil =>
    constructor
    · intro h_accepted
      rw [Runs.run_nil, State.Accepted, h.2.2.2 i] at h_accepted
      exact absurd rfl h_accepted
    · rintro ⟨pre, h_begins, -⟩
      simp at h_begins
  | append_singleton as a ih =>
    rw [Runs.run_concat, accepted_step, ih]
    constructor
    · rintro (⟨rfl, h_idle, h_pending⟩ | ⟨pre, h_begins, h_finds⟩)
      · exact ⟨as, List.prefix_rfl, h_idle, (registered_iff h.1).mpr h_pending⟩
      · exact ⟨pre, h_begins.trans (List.prefix_append as [a]), h_finds⟩
    · rintro ⟨pre, h_begins, h_idle, h_registered⟩
      obtain h_last | h_before := List.prefix_concat_iff.mp h_begins
      · obtain ⟨rfl, h_eq⟩ := List.append_inj' h_last rfl
        exact .inl ⟨(List.singleton_inj.mp h_eq).symm, h_idle, (registered_iff h.1).mp h_registered⟩
      · exact .inr ⟨pre, h_before, h_idle, h_registered⟩

end Runs

/-! ### One message at a time -/

def State.Written (s : State) : Prop := ∃ i, (s.calls i).written = true

/-- Every call carries `m`, and `m` is all that the wait can see. -/
structure Carries (w : Wait) (message : ℕ → String) (m : String) (s : State) : Prop where
  entry : ∀ pending, s.pending = some pending → pending = w.key
  accepted : ∀ i pending, (s.calls i).entry = some pending → pending = w.key ∧ message i = m
  answer : ∀ selected, s.choices w.key = some selected → selected = [m]
  polled : ∀ selected, s.wait = .clear selected → s.choices w.key = some selected
  written : s.Written → s.wait = .returned ⟨[m], .user⟩ ∨
    ¬s.Ended ∧ s.choices w.key = some [m]
  ended : ∀ selection, s.wait = .returned selection →
    selection = ⟨[m], .user⟩ ∨ ∀ i, ¬s.Accepted i

/-- The step is one of a run in time, for the message `m`. -/
def Guard (w : Wait) (message : ℕ → String) (m : String) (s : State) (a : Action) : Prop :=
  (∀ i, a = .read i → s.calls i = .idle → s.pending ≠ none → message i = m ∧ ¬s.Ended) ∧
    (Leaves w s a → ∀ i, ¬s.Accepted i)

section Carries

variable {w message} {m : String} {s : State} {a : Action} {i : ℕ}

theorem accepted_of_written (h : (s.calls i).written = true) : s.Accepted i := by
  unfold State.Accepted
  cases h_call : s.calls i <;> simp_all [Call.written, Call.entry]

theorem not_ended_of_wait {phase : Phase} (h : s.wait = phase)
    (h_phase : ∀ selection, phase ≠ .returned selection) : ¬s.Ended := by
  rintro ⟨selection, h_selection⟩
  exact h_phase selection (h.symm.trans h_selection)

theorem Carries.of_wait (h : Carries w message m s) {t : State}
    (h_pending : ∀ pending, t.pending = some pending → pending = w.key)
    (h_choices : t.choices = s.choices) (h_calls : t.calls = s.calls) (h_before : ¬s.Ended)
    (h_after : ¬t.Ended)
    (h_polled : ∀ selected, t.wait = .clear selected → s.choices w.key = some selected) :
    Carries w message m t := by
  refine ⟨h_pending, ?_, ?_, ?_, ?_, fun selection h_wait => absurd ⟨selection, h_wait⟩ h_after⟩
  · rw [h_calls]
    exact h.accepted
  · rw [h_choices]
    exact h.answer
  · rw [h_choices]
    exact h_polled
  · rintro ⟨i, h_call⟩
    rw [h_calls] at h_call
    obtain h_returned | ⟨-, h_answer⟩ := h.written ⟨i, h_call⟩
    · exact absurd ⟨_, h_returned⟩ h_before
    · exact .inr ⟨h_after, by rw [h_choices, h_answer]⟩

theorem Carries.of_leaves (h : Carries w message m s) (h_none : ∀ i, ¬s.Accepted i)
    {selection : Selection} :
    Carries w message m { s with wait := .returned selection } := by
  refine ⟨h.entry, h.accepted, h.answer, ?_, ?_, fun _ _ => .inr h_none⟩
  · intro selected h_wait
    cases h_wait
  · rintro ⟨i, h_call⟩
    exact absurd (accepted_of_written h_call) (h_none i)

theorem carries_waitStep {stop : Bool} (h : Carries w message m s)
    (h_guard : Guard w message m s (.wait stop)) : Carries w message m (waitStep w stop s) := by
  cases h_wait : s.wait with
  | top =>
    have h_before : ¬s.Ended := not_ended_of_wait h_wait fun _ => Phase.noConfusion
    simp only [waitStep, h_wait]
    split_ifs with h_stop
    · obtain ⟨rfl, h_trigger⟩ := h_stop
      exact h.of_leaves (h_guard.2 ⟨rfl, .inl ⟨h_wait, h_trigger⟩⟩)
    · exact h.of_wait h.entry rfl rfl h_before
        (not_ended_of_wait rfl fun _ => Phase.noConfusion) fun _ => Phase.noConfusion
  | poll =>
    have h_before : ¬s.Ended := not_ended_of_wait h_wait fun _ => Phase.noConfusion
    simp only [waitStep, h_wait]
    split
    · next selected h_answer =>
      refine h.of_wait h.entry rfl rfl h_before
        (not_ended_of_wait rfl fun _ => Phase.noConfusion) ?_
      rintro _ ⟨⟩
      exact h_answer
    · exact h.of_wait h.entry rfl rfl h_before
        (not_ended_of_wait rfl fun _ => Phase.noConfusion) fun _ => Phase.noConfusion
  | clear selected =>
    -- what was polled is the answer, and the answer is the message
    have h_selected : selected = [m] := h.answer selected (h.polled selected h_wait)
    simp only [waitStep, h_wait]
    refine ⟨h.entry, h.accepted, ?_, ?_, fun _ => .inl (by rw [h_selected]), ?_⟩
    · intro selected h_answer
      simp at h_answer
    · intro selected h_phase
      cases h_phase
    · rintro selection ⟨⟩
      exact .inl (by rw [h_selected])
  | interrupt =>
    have h_before : ¬s.Ended := not_ended_of_wait h_wait fun _ => Phase.noConfusion
    simp only [waitStep, h_wait]
    split_ifs with h_stop
    · obtain ⟨rfl, h_execution⟩ := h_stop
      exact h.of_leaves (h_guard.2 ⟨rfl, .inr ⟨h_wait, h_execution⟩⟩)
    · exact h.of_wait h.entry rfl rfl h_before
        (not_ended_of_wait rfl fun _ => Phase.noConfusion) fun _ => Phase.noConfusion
  | register =>
    have h_before : ¬s.Ended := not_ended_of_wait h_wait fun _ => Phase.noConfusion
    simp only [waitStep, h_wait]
    split_ifs
    · refine h.of_wait ?_ rfl rfl h_before
        (not_ended_of_wait rfl fun _ => Phase.noConfusion) fun _ => Phase.noConfusion
      rintro pending ⟨⟩
      rfl
    · exact h.of_wait h.entry rfl rfl h_before
        (not_ended_of_wait rfl fun _ => Phase.noConfusion) fun _ => Phase.noConfusion
  | asleep =>
    have h_before : ¬s.Ended := not_ended_of_wait h_wait fun _ => Phase.noConfusion
    simp only [waitStep, h_wait]
    exact h.of_wait h.entry rfl rfl h_before
      (not_ended_of_wait rfl fun _ => Phase.noConfusion) fun _ => Phase.noConfusion
  | returned selection =>
    simp only [waitStep, h_wait]
    exact h

theorem Carries.of_call (h : Carries w message m s) {call : Call} {pending : Option Key}
    (h_pending : ∀ key, pending = some key → key = w.key)
    (h_entry : ∀ key, call.entry = some key → key = w.key ∧ message i = m)
    (h_written : call.written = true → s.wait = .returned ⟨[m], .user⟩ ∨
      ¬s.Ended ∧ s.choices w.key = some [m])
    (h_read : call.entry ≠ none → s.Accepted i ∨ ¬s.Ended) :
    Carries w message m { s with pending, calls := Function.update s.calls i call } := by
  refine ⟨h_pending, ?_, h.answer, h.polled, ?_, ?_⟩
  · intro j key h_key
    rw [entry_update] at h_key
    split_ifs at h_key with h_same
    · rw [h_same]
      exact h_entry key h_key
    · exact h.accepted j key h_key
  · rintro ⟨j, h_call⟩
    simp only [Function.update_apply] at h_call
    split_ifs at h_call
    · exact h_written h_call
    · exact h.written ⟨j, h_call⟩
  · intro selection h_wait
    obtain h_answer | h_none := h.ended selection h_wait
    · exact .inl h_answer
    · refine .inr fun j => ?_
      rw [State.Accepted, entry_update]
      split_ifs
      · intro h_some
        exact (h_read h_some).elim (h_none i) fun h_not => h_not ⟨selection, h_wait⟩
      · exact h_none j

theorem Carries.of_answer (h : Carries w message m s) (h_accepted : s.Accepted i) :
    Carries w message m { s with choices := Function.update s.choices w.key (some [m]) } ∧
      (s.wait = .returned ⟨[m], .user⟩ ∨ ¬s.Ended) := by
  have h_wait : s.wait = .returned ⟨[m], .user⟩ ∨ ¬s.Ended := by
    by_cases h_ended : s.Ended
    · obtain ⟨selection, h_returned⟩ := h_ended
      obtain rfl | h_none := h.ended selection h_returned
      · exact .inl h_returned
      · exact absurd h_accepted (h_none i)
    · exact .inr h_ended
  have h_self : Function.update s.choices w.key (some [m]) w.key = some [m] :=
    Function.update_self ..
  refine ⟨⟨h.entry, h.accepted, ?_, ?_, fun _ => ?_, h.ended⟩, h_wait⟩
  · intro selected h_answer
    exact Option.some.inj (h_answer.symm.trans h_self)
  · intro selected h_phase
    rw [h.answer selected (h.polled selected h_phase)]
    exact h_self
  · exact h_wait.imp_right fun h_not => ⟨h_not, h_self⟩

theorem carries_step (h : Carries w message m s) (h_guard : Guard w message m s a) :
    Carries w message m (step w message s a) := by
  cases a with
  | wait stop => exact carries_waitStep h h_guard
  | read i =>
    simp only [step]
    split
    · next h_idle =>
      split
      · next pending h_pending =>
        -- the call finds the entry, so it carries the message and the wait goes on
        obtain ⟨h_message, h_before⟩ := h_guard.1 i rfl h_idle (by simp [h_pending])
        refine h.of_call h.entry ?_ Bool.noConfusion fun _ => .inr h_before
        rintro key ⟨⟩
        exact ⟨h.entry pending h_pending, h_message⟩
      · refine h.of_call h.entry ?_ Bool.noConfusion (absurd rfl)
        rintro key ⟨⟩
    · exact h
  | submit i =>
    simp only [step]
    split
    · next pending h_call =>
      have h_accepted : s.Accepted i := by simp [State.Accepted, h_call, Call.entry]
      obtain ⟨rfl, h_message⟩ := h.accepted i pending (by rw [h_call]; rfl)
      obtain ⟨h_answer, h_wait⟩ := h.of_answer h_accepted
      rw [h_message]
      refine h_answer.of_call h.entry ?_ ?_ fun _ => .inl h_accepted
      · rintro key ⟨⟩
        exact ⟨rfl, h_message⟩
      · exact fun _ => h_wait.imp_right fun h_not => ⟨h_not, Function.update_self ..⟩
    · exact h
  | clear i =>
    simp only [step]
    split
    · next pending h_call =>
      have h_accepted : s.Accepted i := by simp [State.Accepted, h_call, Call.entry]
      refine h.of_call ?_ ?_ ?_ fun _ => .inl h_accepted
      · rintro key ⟨⟩
      · rintro key ⟨⟩
        exact h.accepted i pending (by rw [h_call]; rfl)
      · exact fun _ => h.written ⟨i, by rw [h_call]; rfl⟩
    · exact h

end Carries

/-! ### Runs in time -/

section InTime

variable {w message} {s : State} {as : List Action}

theorem Carries.selects {m : String} (h : Carries w message m s) {i : ℕ} (h_call : s.Delivered i) :
    s.Selects w message i := by
  obtain ⟨pending, h_call⟩ := h_call
  obtain ⟨-, h_message⟩ := h.accepted i pending (by rw [h_call]; rfl)
  rw [State.Selects, h_message]
  obtain h_returned | ⟨h_before, h_answer⟩ := h.written ⟨i, by rw [h_call]; rfl⟩
  · exact returned_run h_returned
  · -- from any phase the loop comes to its poll, which finds the answer
    cases h_wait : s.wait with
    | returned selection => exact absurd ⟨selection, h_wait⟩ h_before
    | clear selected =>
      have h_selected : some selected = some [m] := (h.polled selected h_wait).symm.trans h_answer
      simp [List.replicate, step, waitStep, h_wait, Option.some.inj h_selected]
    | register =>
      by_cases h_located : w.Located <;>
        simp [List.replicate, step, waitStep, h_wait, h_answer, h_located]
    | interrupt =>
      by_cases h_located : w.Located <;>
        simp [List.replicate, step, waitStep, h_wait, h_answer, h_located]
    | _ => simp [List.replicate, step, waitStep, h_wait, h_answer]

theorem State.Fresh.carries (h : s.Fresh w) (m : String) : Carries w message m s := by
  obtain ⟨h_pending, h_choice, h_wait, h_calls⟩ := h
  have h_phase : s.wait = .top ∨ s.Ended := by
    rw [State.Ended, h_wait, Wait.begin]
    split_ifs
    · exact .inr ⟨_, rfl⟩
    · exact .inl rfl
  refine ⟨by simp [h_pending], by simp [h_calls, Call.entry], by simp [h_choice], ?_, ?_, ?_⟩
  · intro selected h_clear
    obtain h_top | ⟨selection, h_returned⟩ := h_phase
    · cases h_top.symm.trans h_clear
    · cases h_returned.symm.trans h_clear
  · rintro ⟨i, h_call⟩
    simp [h_calls, Call.written] at h_call
  · exact fun _ _ => .inr fun i => by simp [State.Accepted, h_calls, Call.entry]

theorem InTime.guard (h : InTime w message s as) (h_fresh : s.Fresh w) :
    ∃ m, Runs.Along (step w message) (fun s a _ => Guard w message m s a) s as := by
  obtain ⟨m, h_m⟩ : ∃ m, ∀ pre i, Finds w message s as pre i → message i = m := by
    by_cases h_some : ∃ pre i, Finds w message s as pre i
    · obtain ⟨pre, i, h_finds⟩ := h_some
      exact ⟨message i, fun pre' j h_finds' => h.one_message pre' j pre i h_finds' h_finds⟩
    · exact ⟨"", fun pre i h_finds => absurd ⟨pre, i, h_finds⟩ h_some⟩
  refine ⟨m, Runs.along_iff_at_step.mpr ?_⟩
  rintro pre a post h_as
  constructor
  · rintro i rfl h_idle h_pending
    have h_finds : Finds w message s as pre i :=
      ⟨⟨post, by rw [h_as]; simp⟩, h_idle, (registered_iff h_fresh.1).mpr h_pending⟩
    exact ⟨h_m pre i h_finds, h.waiting pre i h_finds⟩
  · intro h_leaves i h_accepted
    obtain ⟨pre', h_begins, h_idle, h_registered⟩ := (accepted_iff h_fresh).mp h_accepted
    obtain ⟨mid, rfl⟩ := h_begins
    have h_finds : Finds w message s as pre' i :=
      ⟨⟨mid ++ a :: post, by rw [h_as]; simp⟩, h_idle, h_registered⟩
    refine h.answered pre' i mid a post h_finds (by rw [h_as]; simp) ?_
    rw [List.append_assoc] at h_leaves
    exact h_leaves

theorem InTime.not_delivered (h : InTime w message s as) (h_fresh : s.Fresh w)
    {pre post : List Action} {i : ℕ} (h_as : as = pre ++ post)
    (h_ended : (Runs.run (step w message) s pre).Ended)
    (h_idle : (Runs.run (step w message) s pre).calls i = .idle) :
    ¬(Runs.run (step w message) s as).Delivered i := by
  rintro ⟨pending, h_call⟩
  have h_accepted : (Runs.run (step w message) s as).Accepted i := by
    simp [State.Accepted, h_call, Call.entry]
  obtain ⟨pre', h_finds⟩ := (accepted_iff h_fresh).mp h_accepted
  have h_early : ¬(pre' ++ [.read i]) <+: pre := by
    intro h_begins
    have h_read : (Runs.run (step w message) s pre).Accepted i :=
      (accepted_iff h_fresh).mpr ⟨pre', h_begins, h_finds.2⟩
    rw [State.Accepted, h_idle] at h_read
    exact h_read rfl
  obtain h_later | h_begins := List.prefix_or_prefix_of_prefix ⟨post, h_as.symm⟩ h_finds.1
  · obtain rfl | ⟨mid, rfl⟩ := List.prefix_concat_iff.mp h_later
    · exact h_early List.prefix_rfl
    · -- the call begins after the wait has returned
      obtain ⟨selection, h_returned⟩ := h_ended
      refine h.waiting _ i h_finds ⟨selection, ?_⟩
      rw [Runs.run_append]
      exact returned_run h_returned
  · exact h_early h_begins

theorem delivered_of_finds (h_fresh : s.Fresh w)
    (h_settled : (Runs.run (step w message) s as).Settled) {pre : List Action} {i : ℕ}
    (h : Finds w message s as pre i) : (Runs.run (step w message) s as).Delivered i :=
  h_settled i ((accepted_iff h_fresh).mpr ⟨pre, h⟩)

/-- **No lost answer**, and none late, exactly if the run is in time. -/
theorem pending_iff (h_fresh : s.Fresh w) (h_settled : (Runs.run (step w message) s as).Settled) :
    Kept w message s as ↔ InTime w message s as := by
  constructor
  · rintro ⟨h_selects, h_late⟩
    refine ⟨?_, ?_, ?_⟩
    · intro pre i pre' j h_i h_j
      have h_first := h_selects i (delivered_of_finds h_fresh h_settled h_i)
      have h_second := h_selects j (delivered_of_finds h_fresh h_settled h_j)
      simpa using h_first.symm.trans h_second
    · intro pre i h_finds h_ended
      obtain ⟨post, h_as⟩ := h_finds.1
      refine h_late pre (.read i :: post) i ?_ h_ended h_finds.2.1
        (delivered_of_finds h_fresh h_settled h_finds)
      rw [← h_as]
      simp
    · intro pre i mid a post h_finds h_as h_leaves
      obtain ⟨selection, h_returned, h_source⟩ := wait_of_leaves h_leaves
      have h_selected := h_selects i (delivered_of_finds h_fresh h_settled h_finds)
      have h_run : (Runs.run (step w message) s as).wait = .returned selection := by
        rw [h_as, Runs.run_append, Runs.run_cons]
        exact returned_run h_returned
      rw [State.Selects, returned_run h_run] at h_selected
      rw [Phase.returned.inj h_selected] at h_source
      exact h_source rfl
  · intro h_time
    obtain ⟨m, h_guard⟩ := h_time.guard h_fresh
    have h_carries : Carries w message m (Runs.run (step w message) s as) :=
      h_guard.invariant (fun _ _ => carries_step) (h_fresh.carries m)
    exact ⟨fun i h_call => h_carries.selects h_call,
      fun pre post i h_as h_ended h_idle => h_time.not_delivered h_fresh h_as h_ended h_idle⟩

end InTime

/-! ### A question in a session -/

def question : Wait where
  key := ⟨"exec", "agent", "choice"⟩
  options := ["yes", "no"]
  defaultKeys := ["yes"]
  botId := "7"
  sessionId := "s"

def reply (i : ℕ) : String := if i = 1 then "no" else "yes"

def firstRound : List Action :=
  [.wait false, .wait false, .wait false, .wait false, .wait false]

def oneCall : List Action :=
  firstRound ++ [.read 0, .submit 0, .clear 0, .wait false, .wait false, .wait false]

def twoCalls : List Action :=
  firstRound ++ [.read 0, .read 1, .submit 0, .clear 0, .submit 1, .clear 1,
    .wait false, .wait false, .wait false]

def lateCall : List Action :=
  firstRound ++ [.read 0, .submit 0, .wait false, .wait false, .wait false,
    .read 1, .submit 1, .clear 1, .clear 0]

theorem fresh_question : State.Fresh question { wait := .top } :=
  ⟨rfl, rfl, rfl, fun _ => rfl⟩

/-- One call between two rounds is what the wait returns. -/
theorem pending_oneCall : Kept question reply { wait := .top } oneCall := by
  have h_zero : ∀ pre i, Finds question reply { wait := .top } oneCall pre i → i = 0 := by
    rintro pre i ⟨h_begins, -⟩
    have h_mem : Action.read i ∈ oneCall := h_begins.subset (by simp)
    simpa [oneCall, firstRound] using h_mem
  have h_top : ∀ pre ∈ oneCall.inits, pre ++ [.read 0] <+: oneCall →
      (Runs.run (step question reply) { wait := .top } pre).wait = .top := by decide
  refine (pending_iff fresh_question ?_).mpr ⟨?_, ?_, ?_⟩
  · intro i h_accepted
    obtain ⟨pre, h_finds⟩ := (accepted_iff fresh_question).mp h_accepted
    rw [h_zero pre i h_finds]
    exact ⟨question.key, by decide⟩
  · intro pre i pre' j h_i h_j
    rw [h_zero pre i h_i, h_zero pre' j h_j]
  · rintro pre i h_finds ⟨selection, h_returned⟩
    obtain rfl := h_zero pre i h_finds
    have h_init : pre ∈ oneCall.inits :=
      (List.mem_inits pre oneCall).mpr ((List.prefix_append pre _).trans h_finds.1)
    cases (h_top pre h_init h_finds.1).symm.trans h_returned
  · rintro pre i mid a post - h_as ⟨rfl, -⟩
    have h_mem : Action.wait true ∈ oneCall := by
      rw [h_as]
      simp
    revert h_mem
    decide

/-- **Lost and late.** The first of two calls is lost; and a call comes after the wait. -/
theorem pending_lost :
    ¬Kept question reply { wait := .top } twoCalls ∧
      ¬Kept question reply { wait := .top } lateCall := by
  constructor
  · intro h
    have h_selected : State.Selects question reply
        (Runs.run (step question reply) { wait := .top } twoCalls) 0 :=
      h.1 0 ⟨question.key, by decide⟩
    revert h_selected
    unfold State.Selects
    decide
  · intro h
    refine h.2 (firstRound ++ [.read 0, .submit 0, .wait false, .wait false, .wait false])
      [.read 1, .submit 1, .clear 1, .clear 0] 1 rfl ⟨⟨["yes"], .user⟩, by decide⟩ (by decide) ?_
    exact ⟨question.key, by decide⟩

end PendingChoice
end OpsPilot
