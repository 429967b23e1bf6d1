import BkLite.Framework.Rows
import BkLite.Framework.Runs
import Mathlib.Data.List.Sort

/-!
# The notifications of log alerts

A scan of a log policy stores an event for each source that it finds (`create_events`), under the
active alert of the source or a new one, and then notifies of the events one by one (`notice`),
unless the alert has been notified already: `alert.notice`, which a change of the alert's level
takes back. What could not be sent is sent again by `compensate_log_notice_task`.

The history of a run is kept beside its state. The texts of the notifications and the snapshots of
the alerts are left out, except that storing the snapshots may fail, and then no event is notified.
-/

namespace Log.AlertNotices

open Runs Rows

/-! ### Alerts and events -/

inductive Level
  | info
  | warning
  | error
  | critical
deriving DecidableEq, Repr

inductive Status
  | new
  | closed
deriving DecidableEq, Repr

/-- `AlertConstants`, as far as notifications go. -/
structure AlertConstants where
  noticeSendMaxAttempts : ℕ := 3
  noticeCompensateMaxRetry : ℕ := 5
  noticeCompensateWindowSeconds : ℤ := 24 * 3600
  noticeCompensateBatchSize : ℕ := 200
  noticeCompensateMinAgeSeconds : ℤ := 600

structure Policy where
  enable : Bool := true
  notice : Bool := true
  noticeUsers : List String

structure Alert where
  sourceId : String
  level : Level
  status : Status := .new
  notice : Bool := false
deriving DecidableEq, Repr

structure Event where
  alert : ℕ
  level : Level
  eventTime : ℤ
  createdAt : ℤ
  notified : Bool := false
  noticeRetryCount : ℕ := 0
deriving DecidableEq, Repr

/-- What has happened to an alert: it has got a level, or a notification of one of its events was
successful, or was skipped. -/
inductive Entry
  | leveled (alert : ℕ) (level : Level)
  | sent (alert event : ℕ) (level : Level)
  | skipped (alert event : ℕ) (level : Level)
deriving DecidableEq, Repr

/-- The rows in the order of their creation, and the history, latest first. -/
structure State where
  alerts : List Alert := []
  events : List Event := []
  history : List Entry := []
deriving DecidableEq, Repr

/-! ### A scan -/

/-- A scan. `answers` is what the channel answers, by event and attempt; `stored` whether the
snapshots could be stored. -/
structure Scan where
  scanTime : ℤ
  now : ℤ
  level : Level
  sourceIds : List String
  answers : ℕ → ℕ → Bool
  stored : Bool := true

def existing (alerts : List Alert) (sourceId : String) : Option ℕ :=
  ((List.range alerts.length).filter fun i =>
    alerts[i]?.any fun alert => alert.sourceId = sourceId ∧ alert.status = .new).getLast?

def Alert.raise (level : Level) (alert : Alert) : Alert :=
  if alert.level ≠ level then { alert with notice := false, level } else alert

def State.leveled (s : State) (i : ℕ) (level : Level) : State :=
  if (s.alerts[i]?.map Alert.level) ≠ some level then
    { s with
      alerts := s.alerts.modify i (Alert.raise level)
      history := .leveled i level :: s.history }
  else s

/-- One event of `create_events`. -/
def createEvent (scan : Scan) (s : State) (sourceId : String) : State :=
  match existing s.alerts sourceId with
  | some i =>
    let s := s.leveled i scan.level
    { s with events := s.events ++ [⟨i, scan.level, scan.scanTime, scan.now, false, 0⟩] }
  | none =>
    let i := s.alerts.length
    { alerts := s.alerts ++ [⟨sourceId, scan.level, .new, false⟩]
      events := s.events ++ [⟨i, scan.level, scan.scanTime, scan.now, false, 0⟩]
      history := .leveled i scan.level :: s.history }

def createEvents (scan : Scan) (s : State) : State :=
  scan.sourceIds.foldl (createEvent scan) s

/-- `send_notice`: up to `max_attempts`, and at least one. -/
def sendNotice (policy : Policy) (maxAttempts : ℕ) (answers : ℕ → Bool) : Bool :=
  policy.noticeUsers ≠ [] && (List.range (max maxAttempts 1)).any answers

/-- What a sender writes of the outcome to the event `k`, and to its alert where it was successful.
-/
def State.delivered (s : State) (k : ℕ) (event : Event) (isNotice : Bool) : State :=
  let events := s.events.modify k fun event =>
    { event with notified := isNotice, noticeRetryCount := event.noticeRetryCount + 1 }
  if isNotice then
    { alerts := s.alerts.modify event.alert fun alert => { alert with notice := true }
      events
      history := .sent event.alert k event.level :: s.history }
  else { s with events }

/-- What `notice` writes of an event whose alert has been notified. -/
def State.skip (s : State) (k : ℕ) (event : Event) : State :=
  { s with
    events := s.events.modify k fun event => { event with notified := true }
    history := .skipped event.alert k event.level :: s.history }

/-- `alert.notice`. -/
def State.noticed (s : State) (i : ℕ) : Bool := s.alerts[i]?.any Alert.notice

/-- One event of `notice`. -/
def noticeEvent (c : AlertConstants) (policy : Policy) (answers : ℕ → ℕ → Bool) (s : State)
    (k : ℕ) : State :=
  match s.events[k]? with
  | none => s
  | some event =>
    if event.level = .info then s
    else if s.noticed event.alert then s.skip k event
    else s.delivered k event (sendNotice policy c.noticeSendMaxAttempts (answers k))

/-- `LogPolicyScan.run`, from the events found on. -/
def runScan (c : AlertConstants) (policy : Policy) (scan : Scan) (s : State) : State :=
  let created := createEvents scan s
  if scan.stored ∧ policy.notice then
    (List.range' s.events.length (created.events.length - s.events.length)).foldl
      (noticeEvent c policy scan.answers) created
  else created

/-! ### The compensation -/

/-- A round of the compensation, with the answers of the channel by event. -/
structure Round where
  now : ℤ
  answers : ℕ → Bool

/-- The filter of the round's query. -/
def Pending (c : AlertConstants) (policy : Policy) (now : ℤ) (event : Event) : Prop :=
  event.notified = false ∧ event.noticeRetryCount < c.noticeCompensateMaxRetry ∧
    now - c.noticeCompensateWindowSeconds ≤ event.eventTime ∧
    event.createdAt ≤ now - c.noticeCompensateMinAgeSeconds ∧
    policy.notice = true ∧ policy.enable = true ∧ event.level ≠ .info

instance (c : AlertConstants) (policy : Policy) (now : ℤ) (event : Event) :
    Decidable (Pending c policy now event) :=
  inferInstanceAs (Decidable (_ ∧ _))

/-- `order_by("event_time")`, with events of the same time in the order of their creation. -/
def byEventTime (events : List (Event × ℕ)) : List (Event × ℕ) :=
  events.insertionSort fun x y => x.1.eventTime ≤ y.1.eventTime

/-- The events that the round takes up, by their positions. `orderBy` is how the database orders the
events. -/
def pending (c : AlertConstants) (policy : Policy) (orderBy : List (Event × ℕ) → List (Event × ℕ))
    (now : ℤ) (s : State) : List ℕ :=
  ((orderBy (s.events.zipIdx.filter fun x => Pending c policy now x.1)).take
    c.noticeCompensateBatchSize).map Prod.snd

def compensateEvent (policy : Policy) (answers : ℕ → Bool) (s : State) (k : ℕ) : State :=
  match s.events[k]? with
  | none => s
  | some event =>
    if policy.noticeUsers = [] then
      { s with events := s.events.modify k fun event => { event with notified := true } }
    else s.delivered k event (sendNotice policy 1 fun _ => answers k)

/-- `compensate_log_notice_task`. The alerts are written with the events here, as nothing reads them
in between. -/
def compensate (c : AlertConstants) (policy : Policy)
    (orderBy : List (Event × ℕ) → List (Event × ℕ)) (round : Round) (s : State) : State :=
  (pending c policy orderBy round.now s).foldl (compensateEvent policy round.answers) s

/-! ### Runs -/

inductive Action
  | scan (scan : Scan)
  | compensate (round : Round)
  | close (i : ℕ)

def step (c : AlertConstants) (policy : Policy) (orderBy : List (Event × ℕ) → List (Event × ℕ))
    (s : State) : Action → State
  | .scan scan => runScan c policy scan s
  | .compensate round => compensate c policy orderBy round s
  | .close i => { s with alerts := s.alerts.modify i fun alert => { alert with status := .closed } }

/-- The levels of the successful notifications of alert `i` since it has got its level. -/
def sends (i : ℕ) : List Entry → List Level
  | [] => []
  | .leveled j _ :: history => if j = i then [] else sends i history
  | .sent j _ level :: history => if j = i then level :: sends i history else sends i history
  | .skipped _ _ _ :: history => sends i history

/-- Nothing is notified twice, or taken for notified that is not. -/
structure Kept (s : State) : Prop where
  once : ∀ history, history <:+ s.history → ∀ i, (sends i history).length ≤ 1
  skipped : ∀ i k level history, (.skipped i k level :: history) <:+ s.history →
    level ∈ sends i history
  notified : ∀ k event, s.events[k]? = some event → event.notified = true →
    .sent event.alert k event.level ∈ s.history ∨ .skipped event.alert k event.level ∈ s.history

/-- The compensation may send event `k`: its alert has not been notified, and has its level. -/
def Due (policy : Policy) (answers : ℕ → Bool) (s : State) (k : ℕ) : Prop :=
  ∀ event alert, s.events[k]? = some event → s.alerts[event.alert]? = some alert →
    sendNotice policy 1 (fun _ => answers k) = true →
      alert.notice = false ∧ alert.level = event.level

/-- A round of the compensation sends what is due only, at its turn. -/
def Fit (c : AlertConstants) (policy : Policy) (orderBy : List (Event × ℕ) → List (Event × ℕ))
    (s : State) : Action → Prop
  | .compensate round => Along (compensateEvent policy round.answers)
    (fun s k _ => Due policy round.answers s k) s (pending c policy orderBy round.now s)
  | _ => True

def Ended (c : AlertConstants) (now : ℤ) (event : Event) : Prop :=
  event.notified = true ∨ c.noticeCompensateMaxRetry ≤ event.noticeRetryCount ∨
    event.eventTime < now - c.noticeCompensateWindowSeconds

/-- All events that are not `info` have ended. -/
def AllEnded (c : AlertConstants) (now : ℤ) (s : State) : Prop :=
  ∀ event ∈ s.events, event.level ≠ .info → Ended c now event

/-- The events come to an end, in as many rounds as there may be attempts. -/
def Ends (c : AlertConstants) (policy : Policy) (orderBy : List (Event × ℕ) → List (Event × ℕ))
    (s : State) : Prop :=
  ∀ (rounds : List Round) (t now : ℤ),
    (∀ event ∈ s.events, event.createdAt + c.noticeCompensateMinAgeSeconds ≤ t) →
    List.IsChain (· ≤ ·) (t :: (rounds.map Round.now ++ [now])) →
    c.noticeCompensateMaxRetry * s.events.length ≤ rounds.length →
    AllEnded c now (run (step c policy orderBy) s (rounds.map .compensate))

variable {c : AlertConstants} {policy : Policy} {orderBy : List (Event × ℕ) → List (Event × ℕ)}
  {s : State} {i k : ℕ} {event : Event}

/-! ### The history -/

@[simp] theorem sends_leveled_self (level : Level) (history : List Entry) :
    sends i (.leveled i level :: history) = [] := if_pos rfl

theorem sends_leveled_ne {j : ℕ} (h : j ≠ i) (level : Level) (history : List Entry) :
    sends i (.leveled j level :: history) = sends i history := if_neg h

@[simp] theorem sends_sent_self (k : ℕ) (level : Level) (history : List Entry) :
    sends i (.sent i k level :: history) = level :: sends i history := if_pos rfl

theorem sends_sent_ne {j : ℕ} (h : j ≠ i) (k : ℕ) (level : Level) (history : List Entry) :
    sends i (.sent j k level :: history) = sends i history := if_neg h

theorem length_sends_leveled {history : List Entry} (h : ∀ i, (sends i history).length ≤ 1)
    (j : ℕ) (level : Level) (i : ℕ) : (sends i (.leveled j level :: history)).length ≤ 1 := by
  by_cases h_j : j = i
  · rw [h_j, sends_leveled_self]
    exact Nat.zero_le 1
  · rw [sends_leveled_ne h_j]
    exact h i

/-- What the history of a state says as a whole. -/
structure Sound (history : List Entry) : Prop where
  once : ∀ old, old <:+ history → ∀ i, (sends i old).length ≤ 1
  skipped : ∀ i k level old, (.skipped i k level :: old) <:+ history → level ∈ sends i old

theorem Sound.nil : Sound [] where
  once old h i := by
    rw [List.suffix_nil.mp h]
    exact Nat.zero_le 1
  skipped _ _ _ old h := absurd (List.suffix_nil.mp h) (List.cons_ne_nil _ old)

theorem Sound.cons {history : List Entry} (h : Sound history) {entry : Entry}
    (h_once : ∀ i, (sends i (entry :: history)).length ≤ 1)
    (h_skipped : ∀ i k level, entry = .skipped i k level → level ∈ sends i history) :
    Sound (entry :: history) where
  once old h_old := by
    obtain rfl | h_suffix := List.suffix_cons_iff.mp h_old
    · exact h_once
    · exact h.once old h_suffix
  skipped i k level old h_old := by
    obtain h_eq | h_suffix := List.suffix_cons_iff.mp h_old
    · obtain ⟨rfl, rfl⟩ := List.cons_eq_cons.mp h_eq
      exact h_skipped i k level rfl
    · exact h.skipped i k level old h_suffix

theorem Sound.leveled {history : List Entry} (h : Sound history) (i : ℕ) (level : Level) :
    Sound (.leveled i level :: history) :=
  h.cons (length_sends_leveled (h.once history List.suffix_rfl) i level) nofun

theorem Sound.skip {history : List Entry} (h : Sound history) {level : Level}
    (h_level : level ∈ sends i history) (k : ℕ) : Sound (.skipped i k level :: history) := by
  refine h.cons (h.once history List.suffix_rfl) fun i' k' level' h_eq => ?_
  obtain ⟨rfl, rfl, rfl⟩ := Entry.skipped.inj h_eq
  exact h_level

theorem Sound.sent {history : List Entry} (h : Sound history) (h_none : sends i history = [])
    (k : ℕ) (level : Level) : Sound (.sent i k level :: history) := by
  refine h.cons (fun j => ?_) nofun
  by_cases h_j : i = j
  · obtain rfl := h_j
    rw [sends_sent_self, h_none]
    rfl
  · rw [sends_sent_ne h_j]
    exact h.once history List.suffix_rfl j

/-! ### The invariant -/

/-- The history is sound, and an alert is marked as notified where it has been notified at its
level. -/
structure Inv (s : State) : Prop where
  sound : Sound s.history
  alert : ∀ (k : ℕ) (event : Event), s.events[k]? = some event → event.alert < s.alerts.length
  noticed : ∀ (i : ℕ) (alert : Alert), s.alerts[i]? = some alert →
    sends i s.history = if alert.notice then [alert.level] else []
  notified : ∀ (k : ℕ) (event : Event), s.events[k]? = some event → event.notified = true →
    .sent event.alert k event.level ∈ s.history ∨ .skipped event.alert k event.level ∈ s.history

theorem Inv.kept (h : Inv s) : Kept s := ⟨h.sound.once, h.sound.skipped, h.notified⟩

theorem Inv.empty : Inv {} where
  sound := .nil
  alert _ _ := nofun
  noticed _ _ := nofun
  notified _ _ := nofun

theorem Inv.exists_alert (h : Inv s) (h_event : s.events[k]? = some event) :
    ∃ alert, s.alerts[event.alert]? = some alert :=
  ⟨_, List.getElem?_eq_getElem (h.alert k event h_event)⟩

theorem Inv.notified_cons (h : Inv s) (entry : Entry) (h_event : s.events[k]? = some event)
    (h_notified : event.notified = true) :
    .sent event.alert k event.level ∈ entry :: s.history ∨
      .skipped event.alert k event.level ∈ entry :: s.history :=
  (h.notified k event h_event h_notified).imp (List.mem_cons_of_mem entry)
    (List.mem_cons_of_mem entry)

theorem Inv.skip (h : Inv s) (h_event : s.events[k]? = some event) {alert : Alert}
    (h_alert : s.alerts[event.alert]? = some alert) (h_notice : alert.notice = true)
    (h_level : alert.level = event.level) : Inv (s.skip k event) := by
  have h_sends : sends event.alert s.history = [event.level] := by
    rw [h.noticed event.alert alert h_alert, if_pos h_notice, h_level]
  refine ⟨h.sound.skip (h_sends ▸ List.mem_singleton_self event.level) k,
    fun j event' h_event' => ?_, h.noticed, fun j event' h_event' h_notified => ?_⟩
  · obtain ⟨old, h_old, ⟨-, rfl⟩ | ⟨-, rfl⟩⟩ := of_getElem?_modify h_event' <;>
      exact h.alert j old h_old
  · obtain ⟨old, h_old, ⟨rfl, rfl⟩ | ⟨-, rfl⟩⟩ := of_getElem?_modify h_event'
    · obtain rfl := Option.some.inj (h_event.symm.trans h_old)
      exact .inr List.mem_cons_self
    · exact h.notified_cons _ h_old h_notified

theorem Inv.failed (h : Inv s) (k : ℕ) (event : Event) : Inv (s.delivered k event false) := by
  refine ⟨h.sound, fun j event' h_event' => ?_, h.noticed, fun j event' h_event' h_notified => ?_⟩
  · obtain ⟨old, h_old, ⟨-, rfl⟩ | ⟨-, rfl⟩⟩ := of_getElem?_modify h_event' <;>
      exact h.alert j old h_old
  · obtain ⟨old, h_old, ⟨-, rfl⟩ | ⟨-, rfl⟩⟩ := of_getElem?_modify h_event'
    · cases h_notified
    · exact h.notified j old h_old h_notified

theorem Inv.succeeded (h : Inv s) (h_event : s.events[k]? = some event) {alert : Alert}
    (h_alert : s.alerts[event.alert]? = some alert) (h_notice : alert.notice = false)
    (h_level : alert.level = event.level) : Inv (s.delivered k event true) := by
  have h_sends : sends event.alert s.history = [] := by
    rw [h.noticed event.alert alert h_alert, h_notice]
    rfl
  refine ⟨h.sound.sent h_sends k event.level, fun j event' h_event' => ?_,
    fun i alert' h_alert' => ?_, fun j event' h_event' h_notified => ?_⟩
  · change event'.alert < (s.alerts.modify _ _).length
    rw [List.length_modify]
    obtain ⟨old, h_old, ⟨-, rfl⟩ | ⟨-, rfl⟩⟩ := of_getElem?_modify h_event' <;>
      exact h.alert j old h_old
  · change sends i (.sent event.alert k event.level :: s.history) = _
    obtain ⟨old, h_old, ⟨rfl, rfl⟩ | ⟨h_ne, rfl⟩⟩ := of_getElem?_modify h_alert'
    · obtain rfl := Option.some.inj (h_alert.symm.trans h_old)
      rw [sends_sent_self, h_sends, ← h_level]
      rfl
    · rw [sends_sent_ne h_ne]
      exact h.noticed i old h_old
  · obtain ⟨old, h_old, ⟨rfl, rfl⟩ | ⟨-, rfl⟩⟩ := of_getElem?_modify h_event'
    · obtain rfl := Option.some.inj (h_event.symm.trans h_old)
      exact .inl List.mem_cons_self
    · exact h.notified_cons _ h_old h_notified

theorem Inv.delivered (h : Inv s) (h_event : s.events[k]? = some event) (isNotice : Bool)
    (h_due : isNotice = true → ∀ alert, s.alerts[event.alert]? = some alert →
      alert.notice = false ∧ alert.level = event.level) : Inv (s.delivered k event isNotice) := by
  cases isNotice with
  | false => exact h.failed k event
  | true =>
    obtain ⟨alert, h_alert⟩ := h.exists_alert h_event
    obtain ⟨h_notice, h_level⟩ := h_due rfl alert h_alert
    exact h.succeeded h_event h_alert h_notice h_level

/-! ### The events of a scan -/

theorem Inv.addEvent (h : Inv s) (h_event : event.alert < s.alerts.length)
    (h_notified : event.notified = false) : Inv { s with events := s.events ++ [event] } := by
  refine ⟨h.sound, fun j event' h_event' => ?_, h.noticed, fun j event' h_event' h_true => ?_⟩
  · obtain h_old | ⟨-, rfl⟩ := of_getElem?_concat h_event'
    · exact h.alert j event' h_old
    · exact h_event
  · obtain h_old | ⟨-, rfl⟩ := of_getElem?_concat h_event'
    · exact h.notified j event' h_old h_true
    · rw [h_notified] at h_true
      cases h_true

theorem Inv.addAlert (h : Inv s) {alert : Alert} (h_notice : alert.notice = false) :
    Inv { s with
      alerts := s.alerts ++ [alert]
      history := .leveled s.alerts.length alert.level :: s.history } := by
  refine ⟨h.sound.leveled _ _, fun j event h_event => ?_, fun i alert' h_alert' => ?_,
    fun j event h_event h_true => h.notified_cons _ h_event h_true⟩
  · change event.alert < (s.alerts ++ [alert]).length
    rw [List.length_append]
    exact Nat.lt_add_right 1 (h.alert j event h_event)
  · obtain h_old | ⟨rfl, rfl⟩ := of_getElem?_concat h_alert'
    · have h_ne : s.alerts.length ≠ i := (List.getElem?_eq_some_iff.mp h_old).1.ne'
      change sends i (.leveled s.alerts.length alert.level :: s.history) = _
      rw [sends_leveled_ne h_ne]
      exact h.noticed i alert' h_old
    · change sends _ (.leveled s.alerts.length _ :: s.history) = _
      rw [sends_leveled_self, h_notice]
      rfl

theorem Inv.leveled (h : Inv s) (i : ℕ) (level : Level) : Inv (s.leveled i level) := by
  by_cases h_level : (s.alerts[i]?.map Alert.level) ≠ some level
  · rw [State.leveled, if_pos h_level]
    refine ⟨h.sound.leveled i level, fun j event h_event => ?_, fun j alert h_alert => ?_,
      fun j event h_event h_true => h.notified_cons _ h_event h_true⟩
    · change event.alert < (s.alerts.modify _ _).length
      rw [List.length_modify]
      exact h.alert j event h_event
    · change sends j (.leveled i level :: s.history) = _
      obtain ⟨old, h_old, ⟨rfl, rfl⟩ | ⟨h_ne, rfl⟩⟩ := of_getElem?_modify h_alert
      · have h_old_level : old.level ≠ level := by
          rw [h_old] at h_level
          exact fun h_eq => h_level (congrArg some h_eq)
        rw [sends_leveled_self, Alert.raise, if_pos h_old_level]
        rfl
      · rw [sends_leveled_ne h_ne]
        exact h.noticed j old h_old
  · rw [State.leveled, if_neg h_level]
    exact h

/-- The events from position `base` on have the level of their alerts, which is `level`. -/
def AtLevel (base : ℕ) (level : Level) (s : State) : Prop :=
  ∀ k event, base ≤ k → s.events[k]? = some event →
    event.level = level ∧ ∀ alert, s.alerts[event.alert]? = some alert → alert.level = level

theorem Alert.level_raise (level : Level) (alert : Alert) : (alert.raise level).level = level := by
  by_cases h : alert.level ≠ level
  · rw [Alert.raise, if_pos h]
  · rw [Alert.raise, if_neg h]
    exact not_not.mp h

theorem level_leveled {level : Level} {j : ℕ} {alert : Alert}
    (h : (s.leveled i level).alerts[j]? = some alert) :
    i = j ∧ alert.level = level ∨ i ≠ j ∧ s.alerts[j]? = some alert := by
  by_cases h_level : (s.alerts[i]?.map Alert.level) ≠ some level
  · rw [State.leveled, if_pos h_level] at h
    obtain ⟨old, h_old, ⟨h_eq, rfl⟩ | ⟨h_ne, rfl⟩⟩ := of_getElem?_modify h
    · exact .inl ⟨h_eq, old.level_raise level⟩
    · exact .inr ⟨h_ne, h_old⟩
  · rw [State.leveled, if_neg h_level] at h
    by_cases h_j : i = j
    · obtain rfl := h_j
      rw [not_not, h] at h_level
      exact .inl ⟨rfl, Option.some.inj h_level⟩
    · exact .inr ⟨h_j, h⟩

@[simp] theorem events_leveled (s : State) (i : ℕ) (level : Level) :
    (s.leveled i level).events = s.events := by
  rw [State.leveled, apply_ite State.events, ite_self]

@[simp] theorem length_alerts_leveled (s : State) (i : ℕ) (level : Level) :
    (s.leveled i level).alerts.length = s.alerts.length := by
  rw [State.leveled, apply_ite State.alerts, apply_ite List.length, List.length_modify, ite_self]

theorem existing_lt {alerts : List Alert} {sourceId : String}
    (h : existing alerts sourceId = some i) : i < alerts.length := by
  have h_mem := List.mem_of_getLast? h
  exact List.mem_range.mp (List.mem_filter.mp h_mem).1

theorem createEvent_spec (scan : Scan) (sourceId : String) {base : ℕ} (h : Inv s)
    (h_level : AtLevel base scan.level s) :
    Inv (createEvent scan s sourceId) ∧ AtLevel base scan.level (createEvent scan s sourceId) := by
  unfold createEvent
  match h_existing : existing s.alerts sourceId with
  | some i =>
    have h_i : i < (s.leveled i scan.level).alerts.length := by
      rw [length_alerts_leveled]
      exact existing_lt h_existing
    refine ⟨(h.leveled i scan.level).addEvent h_i rfl, fun k event h_k h_event => ?_⟩
    change ((s.leveled i scan.level).events ++ _)[k]? = some event at h_event
    rw [events_leveled] at h_event
    obtain h_old | ⟨-, rfl⟩ := of_getElem?_concat h_event
    · obtain ⟨h_event_level, h_alert_level⟩ := h_level k event h_k h_old
      refine ⟨h_event_level, fun alert h_alert => ?_⟩
      obtain ⟨-, h_new⟩ | ⟨-, h_same⟩ := level_leveled h_alert
      · exact h_new
      · exact h_alert_level alert h_same
    · refine ⟨rfl, fun alert h_alert => ?_⟩
      obtain ⟨-, h_new⟩ | ⟨h_ne, -⟩ := level_leveled h_alert
      · exact h_new
      · exact absurd rfl h_ne
  | none =>
    have h_alert : Inv { s with
        alerts := s.alerts ++ [⟨sourceId, scan.level, .new, false⟩]
        history := .leveled s.alerts.length scan.level :: s.history } := h.addAlert rfl
    refine ⟨h_alert.addEvent ?_ rfl, fun k event h_k h_event => ?_⟩
    · change s.alerts.length < (s.alerts ++ [_]).length
      rw [List.length_append]
      exact Nat.lt_add_one _
    · obtain h_old | ⟨-, rfl⟩ := of_getElem?_concat h_event
      · obtain ⟨h_event_level, h_alert_level⟩ := h_level k event h_k h_old
        refine ⟨h_event_level, fun alert h_alert => ?_⟩
        obtain h_same | ⟨-, rfl⟩ := of_getElem?_concat h_alert
        · exact h_alert_level alert h_same
        · rfl
      · refine ⟨rfl, fun alert h_alert => ?_⟩
        obtain h_same | ⟨-, rfl⟩ := of_getElem?_concat h_alert
        · exact absurd (List.getElem?_eq_some_iff.mp h_same).1 (lt_irrefl _)
        · rfl

theorem createEvents_spec (scan : Scan) (h : Inv s) :
    Inv (createEvents scan s) ∧ AtLevel s.events.length scan.level (createEvents scan s) := by
  have h_all : ∀ (sourceIds : List String) {s' : State}, Inv s' →
      AtLevel s.events.length scan.level s' →
        Inv (sourceIds.foldl (createEvent scan) s') ∧
          AtLevel s.events.length scan.level (sourceIds.foldl (createEvent scan) s') := by
    intro sourceIds
    induction sourceIds with
    | nil => exact fun h h_level => ⟨h, h_level⟩
    | cons sourceId sourceIds ih =>
      intro s' h h_level
      obtain ⟨h_next, h_next_level⟩ := createEvent_spec scan sourceId h h_level
      exact ih h_next h_next_level
  refine h_all scan.sourceIds h fun k event h_k h_event => ?_
  exact absurd (List.getElem?_eq_some_iff.mp h_event).1 (not_lt.mpr h_k)

/-! ### The notifications of a scan -/

theorem noticed_iff {alert : Alert} (h : s.alerts[i]? = some alert) :
    s.noticed i = alert.notice := by
  rw [State.noticed, h]
  rfl

theorem AtLevel.delivered {base : ℕ} {level : Level} (h : AtLevel base level s) (k : ℕ)
    (event : Event) (isNotice : Bool) :
    AtLevel base level (s.delivered k event isNotice) := by
  intro j event' h_j h_event'
  have h_alerts : ∀ {i : ℕ} {alert : Alert},
      (s.delivered k event isNotice).alerts[i]? = some alert →
        ∃ old, s.alerts[i]? = some old ∧ alert.level = old.level := by
    intro i alert h_alert
    cases isNotice with
    | false => exact ⟨alert, h_alert, rfl⟩
    | true =>
      obtain ⟨old, h_old, ⟨-, rfl⟩ | ⟨-, rfl⟩⟩ := of_getElem?_modify h_alert <;>
        exact ⟨old, h_old, rfl⟩
  have h_events : (s.delivered k event isNotice).events = s.events.modify k fun event =>
      { event with notified := isNotice, noticeRetryCount := event.noticeRetryCount + 1 } := by
    cases isNotice <;> rfl
  rw [h_events] at h_event'
  obtain ⟨old, h_old, h_or⟩ := of_getElem?_modify h_event'
  obtain ⟨h_level, h_alert_level⟩ := h j old h_j h_old
  obtain ⟨-, rfl⟩ | ⟨-, rfl⟩ := h_or <;>
  · refine ⟨h_level, fun alert h_alert => ?_⟩
    obtain ⟨old', h_old', h_eq⟩ := h_alerts h_alert
    rw [h_eq]
    exact h_alert_level old' h_old'

theorem AtLevel.skip {base : ℕ} {level : Level} (h : AtLevel base level s) (k : ℕ)
    (event : Event) : AtLevel base level (s.skip k event) := by
  intro j event' h_j h_event'
  obtain ⟨old, h_old, ⟨-, rfl⟩ | ⟨-, rfl⟩⟩ := of_getElem?_modify h_event' <;>
    exact h j old h_j h_old

/-- **One event of `notice`.** A skip is right, a notification is the first at its level. -/
theorem noticeEvent_spec (answers : ℕ → ℕ → Bool) {base : ℕ} {level : Level} (h : Inv s)
    (h_level : AtLevel base level s) (h_k : base ≤ k) :
    Inv (noticeEvent c policy answers s k) ∧
      AtLevel base level (noticeEvent c policy answers s k) := by
  unfold noticeEvent
  match h_event : s.events[k]? with
  | none => exact ⟨h, h_level⟩
  | some event =>
    dsimp only
    by_cases h_info : event.level = .info
    · rw [if_pos h_info]
      exact ⟨h, h_level⟩
    rw [if_neg h_info]
    obtain ⟨alert, h_alert⟩ := h.exists_alert h_event
    obtain ⟨h_event_level, h_alert_level⟩ := h_level k event h_k h_event
    by_cases h_noticed : s.noticed event.alert = true
    · rw [if_pos h_noticed]
      rw [noticed_iff h_alert] at h_noticed
      have h_same : alert.level = event.level :=
        (h_alert_level alert h_alert).trans h_event_level.symm
      exact ⟨h.skip h_event h_alert h_noticed h_same, h_level.skip k event⟩
    · rw [if_neg h_noticed]
      refine ⟨h.delivered h_event _ fun _ alert h_alert => ?_, h_level.delivered k event _⟩
      rw [noticed_iff h_alert] at h_noticed
      exact ⟨Bool.eq_false_iff.mpr h_noticed,
        (h_alert_level alert h_alert).trans h_event_level.symm⟩

theorem Inv.runScan (h : Inv s) (scan : Scan) : Inv (runScan c policy scan s) := by
  obtain ⟨h_created, h_level⟩ := createEvents_spec scan h
  unfold AlertNotices.runScan
  dsimp only
  by_cases h_notice : scan.stored = true ∧ policy.notice = true
  · rw [if_pos h_notice]
    have h_all : ∀ (ks : List ℕ) {s' : State}, (∀ k ∈ ks, s.events.length ≤ k) → Inv s' →
        AtLevel s.events.length scan.level s' →
          Inv (ks.foldl (noticeEvent c policy scan.answers) s') := by
      intro ks
      induction ks with
      | nil => exact fun _ h _ => h
      | cons k ks ih =>
        intro s' h_ks h h_level
        obtain ⟨h_k, h_rest⟩ := List.forall_mem_cons.mp h_ks
        obtain ⟨h_next, h_next_level⟩ := noticeEvent_spec scan.answers h h_level h_k
        exact ih h_rest h_next h_next_level
    exact h_all _ (fun k h_k => (List.mem_range'_1.mp h_k).1) h_created h_level
  · rw [if_neg h_notice]
    exact h_created

/-! ### The compensation -/

theorem compensateEvent_spec (h_users : policy.noticeUsers ≠ []) {answers : ℕ → Bool} (h : Inv s)
    (h_due : Due policy answers s k) : Inv (compensateEvent policy answers s k) := by
  unfold compensateEvent
  match h_event : s.events[k]? with
  | none => exact h
  | some event =>
    dsimp only
    rw [if_neg h_users]
    exact h.delivered h_event _ fun h_sent alert h_alert => h_due event alert h_event h_alert h_sent

theorem Inv.step (h_users : policy.noticeUsers ≠ []) (h : Inv s) (a : Action)
    (h_fit : Fit c policy orderBy s a) : Inv (step c policy orderBy s a) := by
  match a with
  | .scan scan => exact h.runScan scan
  | .compensate round =>
    exact Along.invariant h_fit (fun s k h h_due => compensateEvent_spec h_users h h_due) h
  | .close i =>
    refine ⟨h.sound, fun j event h_event => ?_, fun j alert h_alert => ?_, h.notified⟩
    · change event.alert < (s.alerts.modify _ _).length
      rw [List.length_modify]
      exact h.alert j event h_event
    · change sends j s.history = _
      obtain ⟨old, h_old, ⟨rfl, rfl⟩ | ⟨-, rfl⟩⟩ := of_getElem?_modify h_alert <;>
        exact h.noticed _ old h_old

/-! ### The end of the events -/

def remaining (c : AlertConstants) (event : Event) : ℕ :=
  if event.notified = true ∨ event.level = .info then 0
  else c.noticeCompensateMaxRetry - event.noticeRetryCount

def State.remaining (c : AlertConstants) (s : State) : ℕ :=
  (s.events.map (AlertNotices.remaining c)).sum

theorem compensateEvent_eq (h_users : policy.noticeUsers ≠ []) (answers : ℕ → Bool)
    (h_event : s.events[k]? = some event) :
    compensateEvent policy answers s k =
      s.delivered k event (sendNotice policy 1 fun _ => answers k) := by
  unfold compensateEvent
  rw [h_event]
  exact if_neg h_users

theorem compensateEvent_none (answers : ℕ → Bool) (h_event : s.events[k]? = none) :
    compensateEvent policy answers s k = s := by
  unfold compensateEvent
  rw [h_event]

theorem events_delivered (s : State) (k : ℕ) (event : Event) (isNotice : Bool) :
    (s.delivered k event isNotice).events = s.events.modify k fun event =>
      { event with notified := isNotice, noticeRetryCount := event.noticeRetryCount + 1 } := by
  cases isNotice <;> rfl

theorem remaining_attempted (event : Event) (isNotice : Bool) :
    remaining c { event with
      notified := isNotice, noticeRetryCount := event.noticeRetryCount + 1 } ≤
        c.noticeCompensateMaxRetry - event.noticeRetryCount - 1 := by
  unfold AlertNotices.remaining
  split
  · exact Nat.zero_le _
  · dsimp only
    omega

theorem remaining_pending {now : ℤ} (h : Pending c policy now event) :
    remaining c event = c.noticeCompensateMaxRetry - event.noticeRetryCount := by
  obtain ⟨h_notified, -, -, -, -, -, h_info⟩ := h
  rw [AlertNotices.remaining, if_neg]
  rintro (h_true | h_level)
  · rw [h_notified] at h_true
    cases h_true
  · exact h_info h_level

theorem remaining_compensate (h_users : policy.noticeUsers ≠ []) (answers : ℕ → Bool) {now : ℤ}
    (ks : List ℕ) (h_nodup : ks.Nodup)
    (h_pending : ∀ k ∈ ks, ∃ event, s.events[k]? = some event ∧ Pending c policy now event) :
    (ks.foldl (compensateEvent policy answers) s).remaining c + ks.length ≤ s.remaining c := by
  induction ks generalizing s with
  | nil => exact le_rfl
  | cons k ks ih =>
    obtain ⟨h_k, h_rest⟩ := List.nodup_cons.mp h_nodup
    obtain ⟨event, h_event, h_here⟩ := h_pending k List.mem_cons_self
    have h_eq := compensateEvent_eq h_users answers h_event
    have h_less : (compensateEvent policy answers s k).remaining c + 1 ≤ s.remaining c := by
      have h_sum := sum_map_modify (AlertNotices.remaining c) (fun event : Event =>
        { event with
          notified := sendNotice policy 1 fun _ => answers k
          noticeRetryCount := event.noticeRetryCount + 1 }) h_event
      have h_attempt := remaining_attempted (c := c) event (sendNotice policy 1 fun _ => answers k)
      rw [remaining_pending h_here] at h_sum
      have h_left : event.noticeRetryCount < c.noticeCompensateMaxRetry := h_here.2.1
      rw [h_eq, State.remaining, events_delivered, State.remaining]
      omega
    -- the events still to be taken up are other ones
    have h_later : ∀ j ∈ ks, ∃ event, (compensateEvent policy answers s k).events[j]? = some event ∧
        Pending c policy now event := by
      intro j h_j
      obtain ⟨event', h_event', h_there⟩ := h_pending j (List.mem_cons_of_mem k h_j)
      have h_ne : k ≠ j := by
        rintro rfl
        exact h_k h_j
      refine ⟨event', ?_, h_there⟩
      rw [h_eq, events_delivered, List.getElem?_modify_ne _ _ h_ne]
      exact h_event'
    have h_next := ih h_rest h_later
    rw [List.foldl_cons, List.length_cons]
    omega

variable (h_order : ∀ events, (orderBy events).Perm events)

include h_order in
theorem mem_pending {now : ℤ} (h : k ∈ pending c policy orderBy now s) :
    ∃ event, s.events[k]? = some event ∧ Pending c policy now event := by
  obtain ⟨⟨event, k'⟩, h_mem, rfl⟩ := List.mem_map.mp h
  have h_filter := (h_order _).mem_iff.mp (List.mem_of_mem_take h_mem)
  obtain ⟨h_zip, h_pending⟩ := List.mem_filter.mp h_filter
  exact ⟨event, List.mem_zipIdx_iff_getElem?.mp h_zip, of_decide_eq_true h_pending⟩

include h_order in
theorem nodup_pending (c : AlertConstants) (policy : Policy) (now : ℤ) (s : State) :
    (pending c policy orderBy now s).Nodup := by
  have h_positions :
      ((s.events.zipIdx.filter fun x => Pending c policy now x.1).map Prod.snd).Nodup := by
    refine (List.Sublist.map _ List.filter_sublist).nodup ?_
    rw [List.zipIdx_map_snd]
    exact List.nodup_range'
  have h_perm := (h_order (s.events.zipIdx.filter fun x => Pending c policy now x.1)).map Prod.snd
  rw [pending, List.map_take]
  exact (List.take_sublist _ _).nodup (h_perm.nodup_iff.mpr h_positions)

include h_order in
theorem allEnded_of_pending_nil (h_notice : policy.notice = true) (h_enable : policy.enable = true)
    (h_batch : 0 < c.noticeCompensateBatchSize) {now : ℤ}
    (h_age : ∀ event ∈ s.events, event.createdAt + c.noticeCompensateMinAgeSeconds ≤ now)
    (h : pending c policy orderBy now s = []) : AllEnded c now s := by
  intro event h_event h_info
  by_contra h_open
  obtain ⟨k, h_k⟩ := List.mem_iff_getElem?.mp h_event
  have h_age := h_age event h_event
  have h_pending : Pending c policy now event := by
    obtain ⟨h_notified, h_rest⟩ := not_or.mp h_open
    obtain ⟨h_retry, h_time⟩ := not_or.mp h_rest
    exact ⟨Bool.eq_false_iff.mpr h_notified, not_le.mp h_retry, not_lt.mp h_time, by omega,
      h_notice, h_enable, h_info⟩
  have h_mem : (event, k) ∈ s.events.zipIdx.filter fun x => Pending c policy now x.1 :=
    List.mem_filter.mpr ⟨List.mem_zipIdx_iff_getElem?.mpr h_k, decide_eq_true h_pending⟩
  have h_ordered := (h_order _).mem_iff.mpr h_mem
  rw [pending, List.map_eq_nil_iff, List.take_eq_nil_iff] at h
  obtain h_zero | h_nil := h
  · omega
  · rw [h_nil] at h_ordered
    cases h_ordered

include h_order in
theorem pending_of_allEnded {t now : ℤ} (h : AllEnded c t s) (h_t : t ≤ now) :
    pending c policy orderBy now s = [] := by
  rw [List.eq_nil_iff_forall_not_mem]
  intro k h_k
  obtain ⟨event, h_event, h_notified, h_retry, h_time, -, -, -, h_info⟩ := mem_pending h_order h_k
  obtain h_true | h_max | h_old := h event (List.mem_of_getElem? h_event) h_info
  · rw [h_notified] at h_true
    cases h_true
  · omega
  · omega

theorem AllEnded.mono {t now : ℤ} (h : AllEnded c t s) (h_t : t ≤ now) : AllEnded c now s := by
  intro event h_event h_info
  obtain h_notified | h_max | h_old := h event h_event h_info
  · exact .inl h_notified
  · exact .inr (.inl h_max)
  · exact .inr (.inr (by omega))

theorem allEnded_of_remaining (h : s.remaining c = 0) (now : ℤ) : AllEnded c now s := by
  intro event h_event h_info
  have h_zero : remaining c event = 0 :=
    List.sum_eq_zero_iff_forall_eq_nat.mp h _ (List.mem_map_of_mem h_event)
  unfold AlertNotices.remaining at h_zero
  by_cases h_notified : event.notified = true
  · exact .inl h_notified
  · rw [if_neg (not_or.mpr ⟨h_notified, h_info⟩)] at h_zero
    exact .inr (.inl (by omega))

theorem events_compensate (h_users : policy.noticeUsers ≠ []) (answers : ℕ → Bool) (ks : List ℕ)
    (s : State) : (ks.foldl (compensateEvent policy answers) s).events.map Event.createdAt =
      s.events.map Event.createdAt := by
  induction ks generalizing s with
  | nil => rfl
  | cons k ks ih =>
    rw [List.foldl_cons, ih]
    match h_event : s.events[k]? with
    | none => rw [compensateEvent_none answers h_event]
    | some event =>
      rw [compensateEvent_eq h_users answers h_event, events_delivered]
      refine List.ext_getElem? fun j => ?_
      rw [List.getElem?_map, List.getElem?_map, List.getElem?_modify]
      by_cases h_j : k = j <;> cases s.events[j]? <;> simp [h_j]

include h_order in
/-- **Rounds.** All events have ended after as many rounds as there were attempts left, or once they
have ended. -/
theorem allEnded_rounds (h_users : policy.noticeUsers ≠ []) (h_notice : policy.notice = true)
    (h_enable : policy.enable = true) (h_batch : 0 < c.noticeCompensateBatchSize)
    (rounds : List Round) {t now : ℤ}
    (h_age : ∀ createdAt ∈ s.events.map Event.createdAt,
      createdAt + c.noticeCompensateMinAgeSeconds ≤ t)
    (h_later : List.IsChain (· ≤ ·) (t :: (rounds.map Round.now ++ [now])))
    (h : AllEnded c t s ∨ s.remaining c ≤ rounds.length) :
    AllEnded c now (run (step c policy orderBy) s (rounds.map .compensate)) := by
  induction rounds generalizing s t with
  | nil =>
    have h_t : t ≤ now := (List.isChain_cons_cons.mp h_later).1
    obtain h_ended | h_zero := h
    · exact h_ended.mono h_t
    · exact allEnded_of_remaining (Nat.le_zero.mp h_zero) now
  | cons round rounds ih =>
    obtain ⟨h_t, h_rest⟩ := List.isChain_cons_cons.mp h_later
    change AllEnded c now (run (step c policy orderBy) (compensate c policy orderBy round s)
      (rounds.map .compensate))
    have h_same := events_compensate h_users round.answers (pending c policy orderBy round.now s) s
    refine ih (fun createdAt h_mem => ?_) h_rest ?_
    · rw [compensate, h_same] at h_mem
      exact (h_age createdAt h_mem).trans h_t
    by_cases h_nil : pending c policy orderBy round.now s = []
    · -- nothing is taken up, so all have ended
      left
      rw [compensate, h_nil]
      refine allEnded_of_pending_nil h_order h_notice h_enable h_batch
        (fun event h_event => ?_) h_nil
      exact (h_age _ (List.mem_map_of_mem h_event)).trans h_t
    · right
      have h_open : ¬AllEnded c t s := fun h_ended =>
        h_nil (pending_of_allEnded h_order h_ended h_t)
      have h_left := h.resolve_left h_open
      have h_some := List.length_pos_iff.mpr h_nil
      have h_less := remaining_compensate h_users round.answers _
        (nodup_pending h_order c policy round.now s) fun k h_k => mem_pending h_order h_k
      rw [List.length_cons] at h_left
      rw [compensate]
      omega

theorem remaining_le (c : AlertConstants) (s : State) :
    s.remaining c ≤ c.noticeCompensateMaxRetry * s.events.length := by
  rw [State.remaining]
  induction s.events with
  | nil => exact Nat.zero_le _
  | cons event events ih =>
    have h_event : remaining c event ≤ c.noticeCompensateMaxRetry := by
      rw [AlertNotices.remaining]
      split
      · exact Nat.zero_le _
      · exact Nat.sub_le _ _
    calc ((event :: events).map (remaining c)).sum
        = remaining c event + (events.map (remaining c)).sum := List.sum_cons
      _ ≤ c.noticeCompensateMaxRetry + c.noticeCompensateMaxRetry * events.length :=
          Nat.add_le_add h_event ih
      _ = c.noticeCompensateMaxRetry * (event :: events).length := by
          rw [List.length_cons, Nat.mul_succ, Nat.add_comm]

include h_order in
theorem ended (h_users : policy.noticeUsers ≠ []) (h_notice : policy.notice = true)
    (h_enable : policy.enable = true) (h_batch : 0 < c.noticeCompensateBatchSize) (s : State) :
    Ends c policy orderBy s := by
  intro rounds t now h_age h_later h_enough
  exact allEnded_rounds h_order h_users h_notice h_enable h_batch rounds
    (List.forall_mem_map.mpr h_age) h_later (.inr ((remaining_le c s).trans h_enough))

/-- **Notifications of log alerts.** What holds where the compensation sends what is due only. -/
theorem notices_kept (c : AlertConstants) (policy : Policy)
    (orderBy : List (Event × ℕ) → List (Event × ℕ))
    (h_order : ∀ events, (orderBy events).Perm events) (h_users : policy.noticeUsers ≠ [])
    (h_notice : policy.notice = true) (h_enable : policy.enable = true)
    (h_batch : 0 < c.noticeCompensateBatchSize) (as : List Action)
    (h : Along (step c policy orderBy) (fun s a _ => Fit c policy orderBy s a) {} as) :
    Always (step c policy orderBy) (fun s => Kept s ∧ Ends c policy orderBy s) {} as := by
  have h_inv : Always (step c policy orderBy) Inv {} as :=
    h.always (fun _ a h_s h_a => h_s.step h_users a h_a) .empty
  intro pre h_pre
  exact ⟨(h_inv pre h_pre).kept, ended h_order h_users h_notice h_enable h_batch _⟩

section Examples

private def notifying : Policy where
  noticeUsers := ["admin"]

/-- A scan at `now` that finds one source. -/
private def scanAt (now : ℤ) (answer : Bool) : Action :=
  .scan ⟨now, now, .error, ["policy_1"], fun _ _ => answer, true⟩

theorem perm_byEventTime (events : List (Event × ℕ)) : (byEventTime events).Perm events :=
  List.perm_insertionSort _ events

private def failed : State where
  alerts := [⟨"policy_1", .error, .new, false⟩]
  events := [⟨0, .error, 0, 0, false, 1⟩]
  history := [.leveled 0 .error]

private theorem step_failed :
    step {} notifying byEventTime {} (scanAt 0 false) = failed := by
  decide +kernel

/-- A notification fails, is sent in the next round, and the next event is skipped. -/
theorem notices_kept_compensated :
    Always (step {} notifying byEventTime) (fun s => Kept s ∧ Ends {} notifying byEventTime s) {}
      [scanAt 0 false, .compensate ⟨600, fun _ => true⟩, scanAt 900 true] := by
  refine notices_kept {} notifying byEventTime perm_byEventTime (List.cons_ne_nil _ _) rfl rfl
    (by decide) _ ⟨trivial, ?_, trivial, trivial⟩
  rw [step_failed]
  have h_pending : pending {} notifying byEventTime 600 failed = [0] := by
    decide +kernel
  change Along (compensateEvent notifying fun _ => true)
    (fun s k _ => Due notifying (fun _ => true) s k) failed
    (pending {} notifying byEventTime 600 failed)
  rw [h_pending]
  refine ⟨fun event alert h_event h_alert _ => ?_, trivial⟩
  obtain rfl := Option.some.inj h_event
  obtain rfl := Option.some.inj h_alert
  exact ⟨rfl, rfl⟩

/-- **Notified twice.** Two notifications of an alert fail, and the next round sends both. -/
theorem not_notices_kept :
    ¬∀ as : List Action, Always (step {} notifying byEventTime) Kept {} as := by
  intro h
  have h_once := (h [scanAt 0 false, scanAt 60 false, .compensate ⟨900, fun _ => true⟩]).last.once _
    List.suffix_rfl 0
  exact absurd h_once (by decide +kernel)

end Examples

end Log.AlertNotices
