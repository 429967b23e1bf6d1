import BkLite.Framework.Rows
import BkLite.Framework.Runs
import BkLite.Monitor.PolicyScan

/-!
# The compensation of the alert center

An alert that ends gets its status and `alert_center_notified = False` in one write. Where there is
a policy, `notify_alerts` then sends through each channel of the alert, marks as notified what an
alert center has taken, and gives the flag back to the alerts that no alert center is for. A retry
round (`retry_alert_center_lifecycle_notify_task`) reads the alerts that have ended and whose flag
is not set, pushes them to the first alert center there is, marks what has been taken and counts
what has not. Each write, and each push with its result, is a step of its own.

Channels and policies stay as they are. An alert ends once here; `AlertEnding` is about the writes
that end one twice. Of `notice_logs` only the channels with a successful `created` entry are read
(`createdOn`), and an ending adds no such entry. No caller passes `NOTIFY_SCOPE_NONE`.
-/

namespace Monitor
namespace AlertCompensation

open PolicyScan (Status)
open Runs

/-! ### Channels and policies -/

/-- A `Channel`, with `config["method_name"]`. -/
structure Channel where
  channelType : String
  methodName : Option String

def isAlertCenterChannel (channel : Channel) : Bool :=
  channel.channelType = "nats" && channel.methodName = some "receive_alert_events"

structure Policy where
  notice : Bool
  noticeTypeIds : List ℕ
  noticeUsers : List String

structure Config where
  channels : Table ℕ Channel
  policies : Table ℕ Policy

structure AlertInfo where
  policyId : ℕ
  noticeTypeIds : List ℕ := []
  noticeUsers : List String := []
  createdOn : List ℕ := []

/-- `MonitorAlert`. -/
structure Alert where
  info : AlertInfo
  status : Status := .new
  alertCenterNotified : Bool := true
  alertCenterRetryCount : ℕ := 0

inductive NoticeAction
  | created
  | upgraded
  | recovered
  | closed
deriving DecidableEq

def endAction : Status → NoticeAction
  | .recovered => .recovered
  | _ => .closed

inductive NotifyScope
  | alertCenterOnly
  | allConfigured
deriving DecidableEq

def resolveNoticeTypeIds (policy : Option Policy) (info : AlertInfo) : List ℕ :=
  if info.noticeTypeIds ≠ [] then info.noticeTypeIds
  else match policy with
    | some policy => if policy.notice = true then policy.noticeTypeIds else []
    | none => []

def resolveNoticeUsers (policy : Option Policy) (info : AlertInfo) : List String :=
  if info.noticeUsers ≠ [] then info.noticeUsers
  else match policy with
    | some policy => policy.noticeUsers
    | none => []

def shouldNotifyChannel (policy : Option Policy) (info : AlertInfo) (channel : Option Channel)
    (channelId : ℕ) (action : NoticeAction) (scope : NotifyScope) : Bool :=
  let isAlertCenter := channel.any isAlertCenterChannel
  if scope = .alertCenterOnly ∧ isAlertCenter = false then false
  else if policy.all (·.notice) = true then true
  else if action = .created then false
  else if channel.isNone = true ∨ channelId ∉ info.createdOn then false
  else if action = .upgraded then isAlertCenter
  else true

variable (cfg : Config)

def IsCenter (channelId : ℕ) : Prop :=
  (cfg.channels.lookup channelId).any isAlertCenterChannel = true

instance : DecidablePred (IsCenter cfg) := fun _ => inferInstanceAs (Decidable (_ = true))

def HasCenter : Prop := cfg.channels.anyRow isAlertCenterChannel = true

instance : Decidable (HasCenter cfg) := inferInstanceAs (Decidable (_ = true))

def Includes (info : AlertInfo) : Prop :=
  ∃ channelId ∈ resolveNoticeTypeIds (cfg.policies.lookup info.policyId) info,
    IsCenter cfg channelId

instance : DecidablePred (Includes cfg) := fun _ => inferInstanceAs (Decidable (∃ _ ∈ _, _))

/-- The end of the alert is to be pushed to an alert center. -/
def Target (info : AlertInfo) (status : Status) : Prop :=
  ∃ channelId ∈ resolveNoticeTypeIds (cfg.policies.lookup info.policyId) info,
    IsCenter cfg channelId ∧
      shouldNotifyChannel (cfg.policies.lookup info.policyId) info
        (cfg.channels.lookup channelId) channelId (endAction status) .allConfigured = true

/-! ### The parties -/

/-- A push of an alert to an alert center by a party, and whether it was taken. -/
structure Push where
  alertId : ℕ
  status : Status
  success : Bool
  party : ℕ
deriving DecidableEq

abbrev GroupKey := ℕ × List String

inductive Party
  /-- `notify_alerts`: the alerts, the groups that are left, the alerts that had an alert center as
  their target, and those that one has taken. -/
  | notifying (ids : List ℕ) (status : Status) (groups : List (GroupKey × List ℕ))
    (targets successes : List ℕ)
  /-- What was taken is marked. -/
  | marked (ids targets : List ℕ)
  /-- A round: the groups that are left, the alerts taken, and those not. -/
  | retrying (groups : List (Status × List ℕ)) (successes failures : List ℕ)
  /-- What was taken is marked. -/
  | counting (failures : List ℕ)
  | finished

/-- What comes of a push: it is taken or not, or an exception is raised before it. -/
inductive Outcome
  | taken
  | rejected
  | raised

structure State where
  alerts : Table ℕ Alert := ∅
  pushes : List Push := []
  parties : List Party := []

def updateAlerts (alerts : Table ℕ Alert) (ids : List ℕ) (f : Alert → Alert) : Table ℕ Alert :=
  alerts.mapRows fun id a => if id ∈ ids then f a else a

/-- `_mark_alert_center_notified`. -/
def Alert.markNotified (a : Alert) : Alert :=
  { a with alertCenterNotified := true, alertCenterRetryCount := 0 }

/-- `_reset_alert_center_flags_by_ids`. -/
def Alert.resetFlag (a : Alert) : Alert := { a with alertCenterNotified := true }

def Alert.countFailure (a : Alert) : Alert :=
  { a with alertCenterRetryCount := a.alertCenterRetryCount + 1 }

def Alert.finish (status : Status) (a : Alert) : Alert :=
  { a with status, alertCenterNotified := false }

def groupByKey {Key : Type} [DecidableEq Key] (pairs : List (Key × ℕ)) : List (Key × List ℕ) :=
  (pairs.map (·.1)).eraseDups.map fun key => (key, (pairs.filter (·.1 = key)).map (·.2))

/-- The channels through which the end of an alert is to be notified, each with the users. -/
def noticeKeys (policy : Policy) (status : Status) (scope : NotifyScope) (info : AlertInfo) :
    List GroupKey :=
  ((resolveNoticeTypeIds (some policy) info).filter fun channelId =>
    shouldNotifyChannel (some policy) info (cfg.channels.lookup channelId) channelId
      (endAction status) scope).map fun channelId =>
        (channelId, resolveNoticeUsers (some policy) info)

def noticePairs (policy : Policy) (status : Status) (scope : NotifyScope)
    (alerts : Table ℕ Alert) (ids : List ℕ) : List (GroupKey × ℕ) :=
  ids.flatMap fun id =>
    match alerts.lookup id with
    | some a => (noticeKeys cfg policy status scope a.info).map fun key => (key, id)
    | none => []

def retryPairs (alerts : Table ℕ Alert) : List (Status × ℕ) :=
  (((alerts.keysWhere fun a => a.status ≠ .new && a.alertCenterNotified = false &&
      a.alertCenterRetryCount < 10).insertionSort (· ≤ ·)).take 200).filterMap fun id =>
    (alerts.lookup id).map fun a => (a.status, id)

def endingIds (alerts : Table ℕ Alert) (policyId : ℕ) (ids : List ℕ) : List ℕ :=
  ids.filter fun id => (alerts.lookup id).any fun a => a.info.policyId = policyId && a.status = .new

def Outcome.pushes (outcome : Outcome) (ids : List ℕ) (status : Status) (party : ℕ) : List Push :=
  match outcome with
  | .taken => ids.map fun id => ⟨id, status, true, party⟩
  | .rejected => ids.map fun id => ⟨id, status, false, party⟩
  | .raised => []

def Outcome.takenOf (outcome : Outcome) (ids : List ℕ) : List ℕ :=
  match outcome with
  | .taken => ids
  | _ => []

def Outcome.lostOf (outcome : Outcome) (ids : List ℕ) : List ℕ :=
  match outcome with
  | .taken => []
  | _ => ids

/-- The pushes that party `i` makes with its next access. -/
def pushed (i : ℕ) (outcome : Outcome) : Party → List Push
  | .notifying _ status ((key, ids) :: _) _ _ =>
    if IsCenter cfg key.1 then outcome.pushes ids status i else []
  | .retrying ((status, ids) :: _) _ _ =>
    if HasCenter cfg then outcome.pushes ids status i else []
  | _ => []

def write (alerts : Table ℕ Alert) : Party → Table ℕ Alert
  | .notifying _ _ [] _ successes => updateAlerts alerts successes Alert.markNotified
  | .marked ids targets => updateAlerts alerts (ids.filter (· ∉ targets)) Alert.resetFlag
  | .retrying [] successes _ => updateAlerts alerts successes Alert.markNotified
  | .counting failures => updateAlerts alerts failures Alert.countFailure
  | _ => alerts

def next (outcome : Outcome) : Party → Party
  -- a channel of which it is not known whether it is an alert center counts as one
  | .notifying ids status ((key, sent) :: groups) targets successes =>
    if IsCenter cfg key.1 then
      .notifying ids status groups (targets ++ sent) (successes ++ outcome.takenOf sent)
    else .notifying ids status groups targets successes
  | .notifying ids _ [] targets _ => .marked ids targets
  | .marked _ _ => .finished
  | .retrying ((_, sent) :: groups) successes failures =>
    if HasCenter cfg then
      .retrying groups (successes ++ outcome.takenOf sent) (failures ++ outcome.lostOf sent)
    else .retrying groups successes (failures ++ sent)
  | .retrying [] _ failures => .counting failures
  | .counting _ => .finished
  | .finished => .finished

inductive Action
  /-- An alert is created. -/
  | create (id : ℕ) (info : AlertInfo)
  /-- Alerts of a policy end: they get the status and the flag, and are notified. -/
  | finish (policyId : ℕ) (ids : List ℕ) (status : Status) (scope : NotifyScope)
  /-- A retry round reads. -/
  | retry
  | serve (i : ℕ) (outcome : Outcome)

def step (s : State) : Action → State
  | .create id info =>
    if (s.alerts.lookup id).isSome = true then s
    else { s with alerts := s.alerts.insert id { info } }
  | .finish policyId ids status scope =>
    if status = .new then s
    else
      let ending := endingIds s.alerts policyId ids
      { s with
        alerts := updateAlerts s.alerts ending (Alert.finish status)
        parties :=
          match cfg.policies.lookup policyId with
          | some policy =>
            s.parties ++ [.notifying ending status
              (groupByKey (noticePairs cfg policy status scope s.alerts ending)) [] []]
          -- without its policy nothing is notified
          | none => s.parties }
  | .retry =>
    { s with parties := s.parties ++ [.retrying (groupByKey (retryPairs s.alerts)) [] []] }
  | .serve i outcome =>
    match s.parties[i]? with
    | none => s
    | some p =>
      { alerts := write s.alerts p
        pushes := s.pushes ++ pushed cfg i outcome p
        parties := s.parties.set i (next cfg outcome p) }

/-! ### What is claimed, and when it is kept -/

/-- No other alert is pushed, one with its flag has been taken, and none is pushed after that. -/
structure Exact (actions : List Action) : Prop where
  untargeted : Always (step cfg) (fun s => ∀ push ∈ s.pushes, ∀ a,
    s.alerts.lookup push.alertId = some a → Includes cfg a.info) {} actions
  marked : Always (step cfg) (fun s => ∀ id a, s.alerts.lookup id = some a → a.status ≠ .new →
    Target cfg a.info a.status → a.alertCenterNotified = true →
    ∃ push ∈ s.pushes, push.alertId = id ∧ push.status = a.status ∧ push.success = true) {} actions
  once : ∀ early late, actions = early ++ late →
    ∀ push ∈ (run (step cfg) {} early).pushes, push.success = true →
    ∀ push' ∈ (run (step cfg) {} actions).pushes, push'.alertId = push.alertId →
      push'.party < (run (step cfg) {} early).parties.length

def Party.unmarked : Party → List ℕ
  | .notifying _ _ _ _ successes => successes
  | .retrying _ successes _ => successes
  | _ => []

/-- Alert centers are among the channels that a round reads, and nobody is about to mark. -/
def Guard (s : State) : Action → State → Prop
  | .retry, _ => HasCenter cfg → ∀ pair ∈ retryPairs s.alerts,
    (∀ a ∈ s.alerts.lookup pair.2, Includes cfg a.info) ∧ ∀ p ∈ s.parties, pair.2 ∉ p.unmarked
  | _, _ => True

instance (s s' : State) : (action : Action) → Decidable (Guard cfg s action s')
  | .retry => inferInstanceAs (Decidable (HasCenter cfg → ∀ pair ∈ retryPairs s.alerts, _ ∧ _))
  | .create _ _ => isTrue trivial
  | .finish _ _ _ _ => isTrue trivial
  | .serve _ _ => isTrue trivial

/-! ### Rows over time -/

section Rows

variable {cfg} {t t' : Table ℕ Alert} {id : ℕ} {a a' : Alert} {P Q : Alert → Prop}

def Stays (a a' : Alert) : Prop :=
  a'.info = a.info ∧ (a.status ≠ .new → a'.status = a.status ∧
    (a.alertCenterNotified = true → a'.alertCenterNotified = true))

theorem Stays.refl (a : Alert) : Stays a a := ⟨rfl, fun _ => ⟨rfl, id⟩⟩

def Row (t : Table ℕ Alert) (id : ℕ) (P : Alert → Prop) : Prop := ∃ a, t.lookup id = some a ∧ P a

theorem Row.mono (h : Row t id P) (h_evolves : Table.Evolves Stays t t')
    (h_stable : ∀ a a', Stays a a' → P a → P a') : Row t' id P := by
  obtain ⟨a, h_row, h_P⟩ := h
  obtain ⟨a', h_row', h_stays⟩ := h_evolves id a h_row
  exact ⟨a', h_row', h_stable a a' h_stays h_P⟩

theorem Row.of_lookup (h : Row t id P) (h_row : t.lookup id = some a) : P a := by
  obtain ⟨a', h_row', h_P⟩ := h
  rw [h_row] at h_row'
  cases h_row'
  exact h_P

def Ended (status : Status) (a : Alert) : Prop := a.status = status ∧ status ≠ .new

theorem Ended.stays {status : Status} (h : Ended status a) (h_stays : Stays a a') :
    Ended status a' :=
  ⟨(h_stays.2 (h.1 ▸ h.2)).1.trans h.1, h.2⟩

theorem lookup_updateAlerts (t : Table ℕ Alert) (ids : List ℕ) (f : Alert → Alert) (id : ℕ) :
    (updateAlerts t ids f).lookup id = (t.lookup id).map fun a => if id ∈ ids then f a else a :=
  Table.lookup_mapRows t _ id

theorem evolves_updateAlerts {ids : List ℕ} {f : Alert → Alert}
    (h : ∀ id ∈ ids, ∀ a, t.lookup id = some a → Stays a (f a)) :
    Table.Evolves Stays t (updateAlerts t ids f) := by
  intro id a h_row
  rw [lookup_updateAlerts, h_row]
  refine ⟨_, rfl, ?_⟩
  split_ifs with h_id
  · exact h id h_id a h_row
  · exact .refl a

theorem evolves_write (t : Table ℕ Alert) (p : Party) : Table.Evolves Stays t (write t p) := by
  have h_refl : Table.Evolves Stays t t := .refl Stays.refl t
  have h_mark (ids : List ℕ) : Table.Evolves Stays t (updateAlerts t ids Alert.markNotified) :=
    evolves_updateAlerts fun _ _ _ _ => ⟨rfl, fun _ => ⟨rfl, fun _ => rfl⟩⟩
  cases p with
  | notifying ids status groups targets successes =>
    cases groups with
    | nil => exact h_mark successes
    | cons g groups => exact h_refl
  | marked ids targets =>
    exact evolves_updateAlerts fun _ _ _ _ => ⟨rfl, fun _ => ⟨rfl, fun _ => rfl⟩⟩
  | retrying groups successes failures =>
    cases groups with
    | nil => exact h_mark successes
    | cons g groups => exact h_refl
  | counting failures =>
    exact evolves_updateAlerts fun _ _ _ _ => ⟨rfl, fun _ => ⟨rfl, id⟩⟩
  | finished => exact h_refl

theorem mem_endingIds {policyId : ℕ} {ids : List ℕ} (h : id ∈ endingIds t policyId ids) :
    Row t id fun a => a.info.policyId = policyId ∧ a.status = .new := by
  have h_any := (List.mem_filter.mp h).2
  cases h_row : t.lookup id with
  | none =>
    rw [h_row] at h_any
    cases h_any
  | some a =>
    rw [h_row, Option.any_some, Bool.and_eq_true, decide_eq_true_iff, decide_eq_true_iff] at h_any
    exact ⟨a, h_row, h_any⟩

theorem evolves_finish (t : Table ℕ Alert) (policyId : ℕ) (ids : List ℕ) (status : Status) :
    Table.Evolves Stays t
      (updateAlerts t (endingIds t policyId ids) (Alert.finish status)) := by
  refine evolves_updateAlerts fun id h_id a h_row => ⟨rfl, fun h_ended => ?_⟩
  exact absurd ((mem_endingIds h_id).of_lookup h_row).2 h_ended

theorem evolves_step (s : State) (action : Action) :
    Table.Evolves Stays s.alerts (step cfg s action).alerts := by
  cases action with
  | create id info =>
    unfold step
    dsimp only
    split_ifs with h_some
    · exact .refl Stays.refl s.alerts
    · refine Table.evolves_insert Stays.refl fun a h_row => ?_
      rw [h_row] at h_some
      exact absurd rfl h_some
  | finish policyId ids status scope =>
    unfold step
    dsimp only
    split_ifs
    · exact .refl Stays.refl s.alerts
    · exact evolves_finish s.alerts policyId ids status
  | retry => exact .refl Stays.refl s.alerts
  | serve i outcome =>
    unfold step
    dsimp only
    cases s.parties[i]? with
    | none => exact .refl Stays.refl s.alerts
    | some p => exact evolves_write s.alerts p

end Rows

/-! ### Groups -/

section Groups

variable {Key : Type} [DecidableEq Key] {pairs : List (Key × ℕ)} {g : Key × List ℕ} {id : ℕ}

theorem mem_of_mem_group (h : g ∈ groupByKey pairs) (h_id : id ∈ g.2) : (g.1, id) ∈ pairs := by
  obtain ⟨key, -, rfl⟩ := List.mem_map.mp h
  obtain ⟨⟨key', id'⟩, h_pair, rfl⟩ := List.mem_map.mp h_id
  obtain ⟨h_mem, h_key⟩ := List.mem_filter.mp h_pair
  obtain rfl : key' = key := of_decide_eq_true h_key
  exact h_mem

theorem exists_group {key : Key} (h : (key, id) ∈ pairs) :
    ∃ g ∈ groupByKey pairs, g.1 = key ∧ id ∈ g.2 := by
  refine ⟨_, List.mem_map.mpr ⟨key, List.mem_eraseDups.mpr ?_, rfl⟩, rfl, ?_⟩
  · exact List.mem_map.mpr ⟨(key, id), h, rfl⟩
  · exact List.mem_map.mpr ⟨(key, id), List.mem_filter.mpr ⟨h, decide_eq_true rfl⟩, rfl⟩

end Groups

section Pairs

variable {cfg} {policy : Policy} {status : Status} {scope : NotifyScope} {t : Table ℕ Alert}
  {ids : List ℕ} {id : ℕ} {a : Alert}

theorem mem_noticePairs {key : GroupKey}
    (h : (key, id) ∈ noticePairs cfg policy status scope t ids) :
    id ∈ ids ∧ ∃ a, t.lookup id = some a ∧
      key.1 ∈ resolveNoticeTypeIds (some policy) a.info := by
  obtain ⟨id', h_id', h_pair⟩ := List.mem_flatMap.mp h
  cases h_row : t.lookup id' with
  | none =>
    rw [h_row] at h_pair
    cases h_pair
  | some a =>
    rw [h_row] at h_pair
    obtain ⟨key', h_key', h_eq⟩ := List.mem_map.mp h_pair
    cases h_eq
    obtain ⟨channelId, h_channel, rfl⟩ := List.mem_map.mp h_key'
    exact ⟨h_id', a, h_row, (List.mem_filter.mp h_channel).1⟩

theorem shouldNotify_center {info : AlertInfo} {channel : Option Channel} {channelId : ℕ}
    {action : NoticeAction} (h : channel.any isAlertCenterChannel = true) (scope : NotifyScope) :
    shouldNotifyChannel (some policy) info channel channelId action scope =
      shouldNotifyChannel (some policy) info channel channelId action .allConfigured := by
  unfold shouldNotifyChannel
  dsimp only
  rw [h]
  cases scope <;> rfl

theorem exists_noticePair (h_id : id ∈ ids) (h_row : t.lookup id = some a)
    (h_policy : cfg.policies.lookup a.info.policyId = some policy)
    (h : Target cfg a.info status) :
    ∃ key, (key, id) ∈ noticePairs cfg policy status scope t ids ∧ IsCenter cfg key.1 := by
  obtain ⟨channelId, h_channel, h_center, h_should⟩ := h
  rw [h_policy] at h_channel h_should
  refine ⟨(channelId, resolveNoticeUsers (some policy) a.info), ?_, h_center⟩
  refine List.mem_flatMap.mpr ⟨id, h_id, ?_⟩
  rw [h_row]
  refine List.mem_map.mpr ⟨_, List.mem_map.mpr ⟨channelId, ?_, rfl⟩, rfl⟩
  refine List.mem_filter.mpr ⟨h_channel, ?_⟩
  rw [shouldNotify_center h_center]
  exact h_should

theorem mem_retryPairs (h : (status, id) ∈ retryPairs t) :
    ∃ a, t.lookup id = some a ∧ Ended status a ∧ a.alertCenterNotified = false := by
  obtain ⟨id', h_id', h_pair⟩ := List.mem_filterMap.mp h
  obtain ⟨a, h_row, h_eq⟩ := Option.map_eq_some_iff.mp h_pair
  cases h_eq
  have h_keys := (List.perm_insertionSort _ _).mem_iff.mp (List.mem_of_mem_take h_id')
  obtain ⟨a', h_row', h_flags⟩ := Table.mem_keysWhere.mp h_keys
  rw [h_row] at h_row'
  cases h_row'
  simp only [Bool.and_eq_true, decide_eq_true_iff] at h_flags
  exact ⟨a, h_row, ⟨rfl, h_flags.1.1⟩, h_flags.1.2⟩

end Pairs

/-! ### The invariant -/

section Invariant

variable {cfg} {s : State} {i : ℕ} {p : Party} {outcome : Outcome} {id : ℕ} {status : Status}

def Taken (s : State) (id : ℕ) : Prop :=
  ∃ push ∈ s.pushes, push.alertId = id ∧ push.success = true

/-- What a party holds is true of its alerts. -/
def PartyOk (cfg : Config) (s : State) : Party → Prop
  | .notifying ids status groups targets successes =>
    (∀ id ∈ ids, Row s.alerts id (Ended status)) ∧
    (∀ g ∈ groups, ∀ id ∈ g.2, id ∈ ids ∧
      (IsCenter cfg g.1.1 → Row s.alerts id fun a => Includes cfg a.info)) ∧
    (∀ id ∈ ids, (Row s.alerts id fun a => Target cfg a.info status) →
      (∃ g ∈ groups, IsCenter cfg g.1.1 ∧ id ∈ g.2) ∨ id ∈ targets) ∧
    ∀ id ∈ successes, Taken s id
  | .marked ids targets =>
    ∀ id ∈ ids, ∃ status, Row s.alerts id (Ended status) ∧
      ((Row s.alerts id fun a => Target cfg a.info status) → id ∈ targets)
  | .retrying groups successes _ =>
    (∀ g ∈ groups, ∀ id ∈ g.2, Row s.alerts id (Ended g.1) ∧
      (HasCenter cfg → Row s.alerts id fun a => Includes cfg a.info)) ∧
    ∀ id ∈ successes, Taken s id
  | .counting _ => True
  | .finished => True

/-- What is known of a push: an alert center is among the channels of the alert, which has ended
with the status that was pushed. -/
structure PushOk (cfg : Config) (s : State) (push : Push) : Prop where
  center : HasCenter cfg
  party : push.party < s.parties.length
  ended : Row s.alerts push.alertId (Ended push.status)
  includes : Row s.alerts push.alertId fun a => Includes cfg a.info

def Notified (a : Alert) : Prop := a.status ≠ .new ∧ a.alertCenterNotified = true

structure Inv (cfg : Config) (s : State) : Prop where
  pushes : ∀ push ∈ s.pushes, PushOk cfg s push
  parties : ∀ p ∈ s.parties, PartyOk cfg s p
  flags : ∀ id, Taken s id → Row s.alerts id Notified ∨ ∃ p ∈ s.parties, id ∈ p.unmarked
  marked : ∀ id a, s.alerts.lookup id = some a → Notified a → Target cfg a.info a.status →
    Taken s id

theorem inv_init (cfg : Config) : Inv cfg {} where
  pushes _ h_push := absurd h_push List.not_mem_nil
  parties _ h_p := absurd h_p List.not_mem_nil
  flags _ h_taken := by
    obtain ⟨_, h_push, -⟩ := h_taken
    cases h_push
  marked _ _ h_row := nomatch h_row

section Mono

variable {t t' : Table ℕ Alert} {P : AlertInfo → Prop} {s' : State}

theorem Row.info (h : Row t id fun a => P a.info) (h_evolves : Table.Evolves Stays t t') :
    Row t' id fun a => P a.info := by
  refine h.mono h_evolves fun a a' h_stays h_P => ?_
  rwa [h_stays.1]

theorem Row.ended (h : Row t id (Ended status)) (h_evolves : Table.Evolves Stays t t') :
    Row t' id (Ended status) :=
  h.mono h_evolves fun _ _ h_stays h_ended => h_ended.stays h_stays

theorem Row.notified (h : Row t id Notified) (h_evolves : Table.Evolves Stays t t') :
    Row t' id Notified := by
  refine h.mono h_evolves fun a a' h_stays h_both => ?_
  obtain ⟨h_status, h_flag⟩ := h_stays.2 h_both.1
  exact ⟨h_status ▸ h_both.1, h_flag h_both.2⟩

theorem Row.info_of_later (h_ended : Row t id (Ended status)) (h : Row t' id fun a => P a.info)
    (h_evolves : Table.Evolves Stays t t') : Row t id fun a => P a.info := by
  obtain ⟨a, h_row, -⟩ := h_ended
  obtain ⟨a', h_row', h_stays⟩ := h_evolves id a h_row
  have h_P : P a'.info := h.of_lookup h_row'
  rw [h_stays.1] at h_P
  exact ⟨a, h_row, h_P⟩

theorem Taken.mono (h : Taken s id) (h_pushes : s.pushes ⊆ s'.pushes) : Taken s' id := by
  obtain ⟨push, h_push, h_of⟩ := h
  exact ⟨push, h_pushes h_push, h_of⟩

theorem PushOk.mono {push : Push} (h : PushOk cfg s push)
    (h_evolves : Table.Evolves Stays s.alerts s'.alerts)
    (h_length : s.parties.length ≤ s'.parties.length) : PushOk cfg s' push where
  center := h.center
  party := lt_of_lt_of_le h.party h_length
  ended := h.ended.ended h_evolves
  includes := Row.info (P := Includes cfg) h.includes h_evolves

theorem PartyOk.mono (h : PartyOk cfg s p)
    (h_evolves : Table.Evolves Stays s.alerts s'.alerts) (h_pushes : s.pushes ⊆ s'.pushes) :
    PartyOk cfg s' p := by
  cases p with
  | notifying ids status groups targets successes =>
    obtain ⟨h_ids, h_groups, h_targets, h_successes⟩ := h
    refine ⟨fun id h_id => (h_ids id h_id).ended h_evolves, fun g h_g id h_id => ?_,
      fun id h_id h_target => ?_, fun id h_id => (h_successes id h_id).mono h_pushes⟩
    · obtain ⟨h_mem, h_includes⟩ := h_groups g h_g id h_id
      exact ⟨h_mem, fun h_center => Row.info (P := Includes cfg) (h_includes h_center) h_evolves⟩
    · exact h_targets id h_id (Row.info_of_later (P := fun info => Target cfg info status)
        (h_ids id h_id) h_target h_evolves)
  | marked ids targets =>
    intro id h_id
    obtain ⟨status, h_ended, h_target⟩ := h id h_id
    refine ⟨status, h_ended.ended h_evolves, fun h_later => h_target ?_⟩
    exact Row.info_of_later (P := fun info => Target cfg info status) h_ended h_later h_evolves
  | retrying groups successes failures =>
    obtain ⟨h_groups, h_successes⟩ := h
    refine ⟨fun g h_g id h_id => ?_, fun id h_id => (h_successes id h_id).mono h_pushes⟩
    obtain ⟨h_ended, h_includes⟩ := h_groups g h_g id h_id
    exact ⟨h_ended.ended h_evolves,
      fun h_center => Row.info (P := Includes cfg) (h_includes h_center) h_evolves⟩
  | counting failures => trivial
  | finished => trivial

end Mono

/-! ### What begins -/

theorem Inv.begin {s' : State} {begun : List Party} (h : Inv cfg s)
    (h_evolves : Table.Evolves Stays s.alerts s'.alerts) (h_pushes : s'.pushes = s.pushes)
    (h_parties : s'.parties = s.parties ++ begun) (h_begun : ∀ p ∈ begun, PartyOk cfg s' p)
    (h_marked : ∀ id a, s'.alerts.lookup id = some a → Notified a →
      s.alerts.lookup id = some a) : Inv cfg s' := by
  have h_subset : s.pushes ⊆ s'.pushes := h_pushes ▸ List.Subset.refl _
  have h_taken {id : ℕ} (h_id : Taken s' id) : Taken s id :=
    h_id.mono (h_pushes ▸ List.Subset.refl _)
  refine ⟨fun push h_push => ?_, fun p h_p => ?_, fun id h_id => ?_, ?_⟩
  · rw [h_pushes] at h_push
    refine (h.pushes push h_push).mono h_evolves ?_
    rw [h_parties, List.length_append]
    exact Nat.le_add_right _ _
  · rw [h_parties] at h_p
    obtain h_old | h_new := List.mem_append.mp h_p
    · exact (h.parties p h_old).mono h_evolves h_subset
    · exact h_begun p h_new
  · obtain h_row | ⟨p, h_p, h_unmarked⟩ := h.flags id (h_taken h_id)
    · exact .inl (h_row.notified h_evolves)
    · refine .inr ⟨p, ?_, h_unmarked⟩
      rw [h_parties]
      exact List.mem_append_left begun h_p
  · intro id a h_row h_notified h_target
    exact (h.marked id a (h_marked id a h_row h_notified) h_notified h_target).mono h_subset

theorem Inv.create (h : Inv cfg s) (id : ℕ) (info : AlertInfo) :
    Inv cfg (step cfg s (.create id info)) := by
  have h_evolves := @evolves_step cfg s (.create id info)
  revert h_evolves
  unfold step
  dsimp only
  split_ifs with h_some
  · exact fun _ => h
  intro h_evolves
  refine h.begin h_evolves rfl (List.append_nil _).symm (fun _ h_p => nomatch h_p) ?_
  intro id' a h_row h_notified
  rw [Table.lookup_insert] at h_row
  split_ifs at h_row with h_id
  · cases h_row
    exact absurd rfl h_notified.1
  · exact h_row

theorem partyOk_notifying {t : Table ℕ Alert} {policyId : ℕ} {policy : Policy} {ids : List ℕ}
    {scope : NotifyScope} (h_policy : cfg.policies.lookup policyId = some policy)
    (h_status : status ≠ .new)
    (h_alerts : s.alerts = updateAlerts t (endingIds t policyId ids) (Alert.finish status)) :
    PartyOk cfg s (.notifying (endingIds t policyId ids) status
      (groupByKey (noticePairs cfg policy status scope t (endingIds t policyId ids))) [] []) := by
  have h_row {id : ℕ} (h_id : id ∈ endingIds t policyId ids) : ∃ a, t.lookup id = some a ∧
      a.info.policyId = policyId ∧ s.alerts.lookup id = some (a.finish status) := by
    obtain ⟨a, h_row, h_policyId, -⟩ := mem_endingIds h_id
    refine ⟨a, h_row, h_policyId, ?_⟩
    rw [h_alerts, lookup_updateAlerts, h_row, Option.map_some, if_pos h_id]
  refine ⟨fun id h_id => ?_, fun g h_g id h_id => ?_, fun id h_id h_target => ?_,
    fun _ h_id => absurd h_id List.not_mem_nil⟩
  · obtain ⟨a, -, -, h_now⟩ := h_row h_id
    exact ⟨_, h_now, rfl, h_status⟩
  · obtain ⟨h_ending, a, h_before, h_channel⟩ := mem_noticePairs (mem_of_mem_group h_g h_id)
    refine ⟨h_ending, fun h_center => ?_⟩
    obtain ⟨a', h_before', h_policyId, h_now⟩ := h_row h_ending
    rw [h_before] at h_before'
    cases h_before'
    refine ⟨_, h_now, g.1.1, ?_, h_center⟩
    change g.1.1 ∈ resolveNoticeTypeIds (cfg.policies.lookup a.info.policyId) a.info
    rw [h_policyId, h_policy]
    exact h_channel
  · obtain ⟨a, h_before, h_policyId, h_now⟩ := h_row h_id
    have h_info := h_target.of_lookup h_now
    obtain ⟨key, h_pair, h_center⟩ := @exists_noticePair cfg policy status scope t _ id a h_id
      h_before (h_policyId ▸ h_policy) h_info
    obtain ⟨g, h_g, rfl, h_mem⟩ := exists_group h_pair
    exact .inl ⟨g, h_g, h_center, h_mem⟩

theorem Inv.finish (h : Inv cfg s) (policyId : ℕ) (ids : List ℕ) (status : Status)
    (scope : NotifyScope) : Inv cfg (step cfg s (.finish policyId ids status scope)) := by
  have h_evolves := @evolves_step cfg s (.finish policyId ids status scope)
  revert h_evolves
  unfold step
  dsimp only
  split_ifs with h_status
  · exact fun _ => h
  intro h_evolves
  -- an alert that ends has its flag taken
  have h_marked (id : ℕ) (a : Alert) (h_row : (updateAlerts s.alerts
      (endingIds s.alerts policyId ids) (Alert.finish status)).lookup id = some a)
      (h_notified : Notified a) : s.alerts.lookup id = some a := by
    rw [lookup_updateAlerts] at h_row
    obtain ⟨a', h_before, h_eq⟩ := Option.map_eq_some_iff.mp h_row
    split_ifs at h_eq with h_id
    · cases h_eq
      exact nomatch h_notified.2
    · exact h_eq ▸ h_before
  cases h_policy : cfg.policies.lookup policyId with
  | none => exact h.begin h_evolves rfl (List.append_nil _).symm (fun _ h_p => nomatch h_p) h_marked
  | some policy =>
    refine h.begin h_evolves rfl rfl (fun p h_p => ?_) h_marked
    obtain rfl := List.mem_singleton.mp h_p
    exact partyOk_notifying h_policy h_status rfl

theorem Inv.retry (h : Inv cfg s) (h_guard : Guard cfg s .retry (step cfg s .retry)) :
    Inv cfg (step cfg s .retry) := by
  refine h.begin (evolves_step s .retry) rfl rfl (fun p h_p => ?_) fun _ _ h_row _ => h_row
  obtain rfl := List.mem_singleton.mp h_p
  refine ⟨fun g h_g id h_id => ?_, fun _ h_id => absurd h_id List.not_mem_nil⟩
  have h_pair := mem_of_mem_group h_g h_id
  obtain ⟨a, h_row, h_ended, -⟩ := mem_retryPairs h_pair
  exact ⟨⟨a, h_row, h_ended⟩, fun h_center => ⟨a, h_row, (h_guard h_center _ h_pair).1 a h_row⟩⟩

/-! ### What an access does -/

theorem hasCenter_of_isCenter {channelId : ℕ} (h : IsCenter cfg channelId) : HasCenter cfg := by
  obtain ⟨channel, h_channel, h_is⟩ := (Option.any_eq_true isAlertCenterChannel _).mp h
  exact Table.anyRow_eq_true.mpr ⟨channelId, channel, h_channel, h_is⟩

theorem mem_outcome_pushes {push : Push} {ids : List ℕ}
    (h : push ∈ outcome.pushes ids status i) : push.alertId ∈ ids ∧ push.status = status ∧
      push.party = i ∧ (push.success = true → push.alertId ∈ outcome.takenOf ids) := by
  cases outcome with
  | taken =>
    obtain ⟨id, h_id, rfl⟩ := List.mem_map.mp h
    exact ⟨h_id, rfl, rfl, fun _ => h_id⟩
  | rejected =>
    obtain ⟨id, h_id, rfl⟩ := List.mem_map.mp h
    exact ⟨h_id, rfl, rfl, fun h_success => nomatch h_success⟩
  | raised => exact absurd h List.not_mem_nil

theorem taken_of_mem_takenOf {ids : List ℕ} (h_id : id ∈ outcome.takenOf ids)
    (h : outcome.pushes ids status i ⊆ s.pushes) : Taken s id := by
  cases outcome with
  | taken => exact ⟨_, h (List.mem_map_of_mem h_id), rfl, rfl⟩
  | rejected => exact absurd h_id List.not_mem_nil
  | raised => exact absurd h_id List.not_mem_nil

def Party.held : Party → List ℕ
  | .notifying _ _ groups _ _ => groups.flatMap (·.2)
  | .retrying groups _ _ => groups.flatMap (·.2)
  | _ => []

theorem mem_pushed {push : Push} (h : PartyOk cfg s p) (h_i : i < s.parties.length)
    (h_push : push ∈ pushed cfg i outcome p) :
    PushOk cfg s push ∧ push.party = i ∧ push.alertId ∈ p.held ∧
      (push.success = true → push.alertId ∈ (next cfg outcome p).unmarked) := by
  cases p with
  | notifying ids status groups targets successes =>
    cases groups with
    | nil => exact absurd h_push List.not_mem_nil
    | cons g groups =>
      obtain ⟨h_ids, h_groups, -, -⟩ := h
      dsimp only [pushed, next] at h_push ⊢
      split_ifs at h_push ⊢ with h_center
      · obtain ⟨h_mem, h_status, rfl, h_taken⟩ := mem_outcome_pushes h_push
        obtain ⟨h_id, h_includes⟩ := h_groups g List.mem_cons_self _ h_mem
        refine ⟨⟨hasCenter_of_isCenter h_center, h_i, h_status ▸ h_ids _ h_id,
          h_includes h_center⟩, rfl, List.mem_append_left _ h_mem, fun h_success => ?_⟩
        exact List.mem_append_right successes (h_taken h_success)
      · exact absurd h_push List.not_mem_nil
  | retrying groups successes failures =>
    cases groups with
    | nil => exact absurd h_push List.not_mem_nil
    | cons g groups =>
      dsimp only [pushed, next] at h_push ⊢
      split_ifs at h_push ⊢ with h_center
      · obtain ⟨h_mem, h_status, rfl, h_taken⟩ := mem_outcome_pushes h_push
        obtain ⟨h_ended, h_includes⟩ := h.1 g List.mem_cons_self _ h_mem
        refine ⟨⟨h_center, h_i, h_status ▸ h_ended, h_includes h_center⟩, rfl,
          List.mem_append_left _ h_mem, fun h_success => ?_⟩
        exact List.mem_append_right successes (h_taken h_success)
      · exact absurd h_push List.not_mem_nil
  | marked ids targets => exact absurd h_push List.not_mem_nil
  | counting failures => exact absurd h_push List.not_mem_nil
  | finished => exact absurd h_push List.not_mem_nil

theorem PartyOk.next (h : PartyOk cfg s p) (h_pushes : pushed cfg i outcome p ⊆ s.pushes) :
    PartyOk cfg s (next cfg outcome p) := by
  cases p with
  | notifying ids status groups targets successes =>
    obtain ⟨h_ids, h_groups, h_targets, h_successes⟩ := h
    cases groups with
    | nil =>
      intro id h_id
      refine ⟨status, h_ids id h_id, fun h_target => ?_⟩
      obtain ⟨g, h_g, -⟩ | h_mem := h_targets id h_id h_target
      · exact absurd h_g List.not_mem_nil
      · exact h_mem
    | cons g groups =>
      dsimp only [pushed, AlertCompensation.next] at h_pushes ⊢
      split_ifs at h_pushes ⊢ with h_center
      · refine ⟨h_ids, fun g' h_g => h_groups g' (List.mem_cons_of_mem g h_g),
          fun id h_id h_target => ?_, fun id h_id => ?_⟩
        · obtain ⟨g', h_g, h_is, h_mem⟩ | h_mem := h_targets id h_id h_target
          · obtain rfl | h_rest := List.mem_cons.mp h_g
            · exact .inr (List.mem_append_right targets h_mem)
            · exact .inl ⟨g', h_rest, h_is, h_mem⟩
          · exact .inr (List.mem_append_left g.2 h_mem)
        · obtain h_old | h_new := List.mem_append.mp h_id
          · exact h_successes id h_old
          · exact taken_of_mem_takenOf h_new h_pushes
      · refine ⟨h_ids, fun g' h_g => h_groups g' (List.mem_cons_of_mem g h_g),
          fun id h_id h_target => ?_, h_successes⟩
        obtain ⟨g', h_g, h_is, h_mem⟩ | h_mem := h_targets id h_id h_target
        · obtain rfl | h_rest := List.mem_cons.mp h_g
          · exact absurd h_is h_center
          · exact .inl ⟨g', h_rest, h_is, h_mem⟩
        · exact .inr h_mem
  | retrying groups successes failures =>
    obtain ⟨h_groups, h_successes⟩ := h
    cases groups with
    | nil => trivial
    | cons g groups =>
      dsimp only [pushed, AlertCompensation.next] at h_pushes ⊢
      split_ifs at h_pushes ⊢ with h_center
      · refine ⟨fun g' h_g => h_groups g' (List.mem_cons_of_mem g h_g), fun id h_id => ?_⟩
        obtain h_old | h_new := List.mem_append.mp h_id
        · exact h_successes id h_old
        · exact taken_of_mem_takenOf h_new h_pushes
      · exact ⟨fun g' h_g => h_groups g' (List.mem_cons_of_mem g h_g), h_successes⟩
  | marked ids targets => trivial
  | counting failures => trivial
  | finished => trivial

theorem unmarked_next (h_id : id ∈ p.unmarked) : id ∈ (next cfg outcome p).unmarked ∨
    ∀ t : Table ℕ Alert, write t p = updateAlerts t p.unmarked Alert.markNotified := by
  cases p with
  | notifying ids status groups targets successes =>
    cases groups with
    | nil => exact .inr fun _ => rfl
    | cons g groups =>
      dsimp only [next]
      split_ifs
      · exact .inl (List.mem_append_left _ h_id)
      · exact .inl h_id
  | retrying groups successes failures =>
    cases groups with
    | nil => exact .inr fun _ => rfl
    | cons g groups =>
      dsimp only [next]
      split_ifs
      · exact .inl (List.mem_append_left _ h_id)
      · exact .inl h_id
  | marked ids targets => exact absurd h_id List.not_mem_nil
  | counting failures => exact absurd h_id List.not_mem_nil
  | finished => exact absurd h_id List.not_mem_nil

theorem marked_write {a : Alert} (h : PartyOk cfg s p)
    (h_row : (write s.alerts p).lookup id = some a) (h_notified : Notified a)
    (h_target : Target cfg a.info a.status) :
    (∃ a', s.alerts.lookup id = some a' ∧ Notified a' ∧ Target cfg a'.info a'.status) ∨
      Taken s id := by
  have h_update {ids : List ℕ} {f : Alert → Alert}
      (h_row : (updateAlerts s.alerts ids f).lookup id = some a)
      (h_f : ∀ a', s.alerts.lookup id = some a' → id ∈ ids → a = f a' →
        (Notified a' ∧ Target cfg a'.info a'.status) ∨ Taken s id) :
      (∃ a', s.alerts.lookup id = some a' ∧ Notified a' ∧ Target cfg a'.info a'.status) ∨
        Taken s id := by
    rw [lookup_updateAlerts] at h_row
    obtain ⟨a', h_before, h_eq⟩ := Option.map_eq_some_iff.mp h_row
    split_ifs at h_eq with h_id
    · obtain h_both | h_taken := h_f a' h_before h_id h_eq.symm
      · exact .inl ⟨a', h_before, h_both⟩
      · exact .inr h_taken
    · obtain rfl := h_eq
      exact .inl ⟨a', h_before, h_notified, h_target⟩
  cases p with
  | notifying ids status groups targets successes =>
    cases groups with
    | nil => exact h_update h_row fun _ _ h_id _ => .inr (h.2.2.2 id h_id)
    | cons g groups => exact .inl ⟨a, h_row, h_notified, h_target⟩
  | marked ids targets =>
    refine h_update h_row fun a' h_before h_id h_eq => ?_
    -- a target is not among the alerts that get their flag back
    obtain ⟨h_mem, h_not⟩ := List.mem_filter.mp h_id
    obtain ⟨status, h_ended, h_of_target⟩ := h id h_mem
    subst h_eq
    obtain ⟨rfl, -⟩ := h_ended.of_lookup h_before
    exact absurd (h_of_target ⟨a', h_before, h_target⟩) (of_decide_eq_true h_not)
  | retrying groups successes failures =>
    cases groups with
    | nil => exact h_update h_row fun _ _ h_id _ => .inr (h.2 id h_id)
    | cons g groups => exact .inl ⟨a, h_row, h_notified, h_target⟩
  | counting failures =>
    refine h_update h_row fun a' h_before _ h_eq => ?_
    subst h_eq
    exact .inl ⟨h_notified, h_target⟩
  | finished => exact .inl ⟨a, h_row, h_notified, h_target⟩

theorem flags_write (h_i : s.parties[i]? = some p) (h_ended : Row s.alerts id (Ended status))
    (h : ∃ q ∈ s.parties, id ∈ q.unmarked) :
    Row (write s.alerts p) id Notified ∨
      ∃ q ∈ s.parties.set i (next cfg outcome p), id ∈ q.unmarked := by
  by_cases h_id : id ∈ p.unmarked
  · obtain h_still | h_write := @unmarked_next cfg p outcome id h_id
    · exact .inr (Rows.exists_set h_i h_still)
    · obtain ⟨a, h_row, rfl, h_not⟩ := h_ended
      refine .inl ⟨a.markNotified, ?_, h_not, rfl⟩
      rw [h_write, lookup_updateAlerts, h_row, Option.map_some, if_pos h_id]
  · exact .inr (Rows.exists_set_of_exists h_i (fun h_has => absurd h_has h_id) h)

theorem Inv.serve (h : Inv cfg s) (i : ℕ) (outcome : Outcome) :
    Inv cfg (step cfg s (.serve i outcome)) := by
  have h_evolves := @evolves_step cfg s (.serve i outcome)
  revert h_evolves
  unfold step
  dsimp only
  cases h_i : s.parties[i]? with
  | none => exact fun _ => h
  | some p =>
    dsimp only
    intro h_evolves
    obtain ⟨h_lt, -⟩ := List.getElem?_eq_some_iff.mp h_i
    have h_p : PartyOk cfg s p := h.parties p (List.mem_iff_getElem?.mpr ⟨i, h_i⟩)
    have h_subset : s.pushes ⊆ s.pushes ++ pushed cfg i outcome p := List.subset_append_left _ _
    refine ⟨fun push h_push => ?_, fun q h_q => ?_, fun id h_id => ?_, ?_⟩
    · have h_length : s.parties.length ≤ (s.parties.set i (next cfg outcome p)).length := by
        rw [List.length_set]
      obtain h_old | h_new := List.mem_append.mp h_push
      · exact (h.pushes push h_old).mono h_evolves h_length
      · exact (mem_pushed h_p h_lt h_new).1.mono h_evolves h_length
    · obtain h_old | rfl := List.mem_or_eq_of_mem_set h_q
      · exact (h.parties q h_old).mono h_evolves h_subset
      · exact PartyOk.next (h_p.mono h_evolves h_subset) (List.subset_append_right _ _)
    · obtain ⟨push, h_push, rfl, h_success⟩ := h_id
      obtain h_old | h_new := List.mem_append.mp h_push
      · obtain h_row | h_party := h.flags push.alertId ⟨push, h_old, rfl, h_success⟩
        · exact .inl (h_row.notified h_evolves)
        · exact flags_write h_i (h.pushes push h_old).ended h_party
      · obtain ⟨-, -, -, h_unmarked⟩ := mem_pushed h_p h_lt h_new
        exact .inr (Rows.exists_set h_i (h_unmarked h_success))
    · intro id a h_row h_notified h_target
      obtain ⟨a', h_before, h_notified', h_target'⟩ | h_taken :=
        marked_write h_p h_row h_notified h_target
      · exact (h.marked id a' h_before h_notified' h_target').mono h_subset
      · exact h_taken.mono h_subset

theorem Inv.step {action : Action} (h : Inv cfg s)
    (h_guard : Guard cfg s action (step cfg s action)) : Inv cfg (step cfg s action) := by
  cases action with
  | create id info => exact h.create id info
  | finish policyId ids status scope => exact h.finish policyId ids status scope
  | retry => exact h.retry h_guard
  | serve i outcome => exact h.serve i outcome

/-! ### No later push -/

/-- The alert has been taken, no later party holds it, and none has pushed it. -/
structure Done (cfg : Config) (n id : ℕ) (s : State) : Prop where
  inv : Inv cfg s
  taken : Taken s id
  begun : n ≤ s.parties.length
  held : ∀ i p, s.parties[i]? = some p → n ≤ i → id ∉ p.held
  early : ∀ push ∈ s.pushes, push.alertId = id → push.party < n

theorem held_next (h : id ∈ (next cfg outcome p).held) : id ∈ p.held := by
  cases p with
  | notifying ids status groups targets successes =>
    cases groups with
    | nil => exact h
    | cons g groups =>
      dsimp only [next] at h
      split_ifs at h <;> exact List.mem_append_right g.2 h
  | retrying groups successes failures =>
    cases groups with
    | nil => exact h
    | cons g groups =>
      dsimp only [next] at h
      split_ifs at h <;> exact List.mem_append_right g.2 h
  | marked ids targets => exact h
  | counting failures => exact h
  | finished => exact h

theorem Taken.ended (h : Taken s id) (h_inv : Inv cfg s) :
    ∃ status, Row s.alerts id (Ended status) := by
  obtain ⟨push, h_push, rfl, -⟩ := h
  exact ⟨push.status, (h_inv.pushes push h_push).ended⟩

theorem Taken.hasCenter (h : Taken s id) (h_inv : Inv cfg s) : HasCenter cfg := by
  obtain ⟨push, h_push, -⟩ := h
  exact (h_inv.pushes push h_push).center

theorem not_mem_held (h : Inv cfg s) (h_taken : Taken s id) {action : Action}
    (h_guard : Guard cfg s action (step cfg s action)) {k : ℕ} (h_k : s.parties.length ≤ k)
    (h_p : (step cfg s action).parties[k]? = some p) : id ∉ p.held := by
  have h_none : s.parties[k]? = none := List.getElem?_eq_none h_k
  obtain ⟨status, h_ended⟩ := h_taken.ended h
  cases action with
  | create id' info =>
    dsimp only [step] at h_p
    split_ifs at h_p
    · exact nomatch h_none.symm.trans h_p
    · exact nomatch h_none.symm.trans h_p
  | finish policyId ids status' scope =>
    dsimp only [step] at h_p
    split_ifs at h_p
    · exact nomatch h_none.symm.trans h_p
    cases h_policy : cfg.policies.lookup policyId with
    | none =>
      rw [h_policy] at h_p
      exact nomatch h_none.symm.trans h_p
    | some policy =>
      rw [h_policy] at h_p
      obtain h_old | ⟨-, rfl⟩ := Rows.of_getElem?_concat h_p
      · exact nomatch h_none.symm.trans h_old
      -- an ending takes new alerts only
      intro h_held
      obtain ⟨g, h_g, h_id⟩ := List.mem_flatMap.mp h_held
      obtain ⟨h_ending, -⟩ := mem_noticePairs (mem_of_mem_group h_g h_id)
      obtain ⟨a, h_row, -, h_new⟩ := mem_endingIds h_ending
      obtain ⟨h_status, h_not⟩ := h_ended.of_lookup h_row
      exact h_not (h_status ▸ h_new)
  | retry =>
    obtain h_old | ⟨-, rfl⟩ := Rows.of_getElem?_concat h_p
    · exact nomatch h_none.symm.trans h_old
    intro h_held
    obtain ⟨g, h_g, h_id⟩ := List.mem_flatMap.mp h_held
    have h_pair := mem_of_mem_group h_g h_id
    obtain ⟨a, h_row, -, h_flag⟩ := mem_retryPairs h_pair
    -- its flag is set, or a party is about to mark it
    obtain h_notified | ⟨q, h_q, h_unmarked⟩ := h.flags id h_taken
    · exact Bool.false_ne_true (h_flag.symm.trans (h_notified.of_lookup h_row).2)
    · exact (h_guard (h_taken.hasCenter h) _ h_pair).2 q h_q h_unmarked
  | serve i outcome =>
    dsimp only [step] at h_p
    cases h_i : s.parties[i]? with
    | none =>
      rw [h_i] at h_p
      exact nomatch h_none.symm.trans h_p
    | some q =>
      rw [h_i] at h_p
      obtain ⟨h_lt, -⟩ := List.getElem?_eq_some_iff.mp h_p
      rw [List.length_set] at h_lt
      exact absurd h_lt (not_lt.mpr h_k)

theorem held_step {action : Action} {k : ℕ} (h_k : k < s.parties.length)
    (h_p : (step cfg s action).parties[k]? = some p) (h_id : id ∈ p.held) :
    ∃ q, s.parties[k]? = some q ∧ id ∈ q.held := by
  have h_append (begun : List Party) (h_begun : (s.parties ++ begun)[k]? = some p) :
      ∃ q, s.parties[k]? = some q ∧ id ∈ q.held := by
    rw [List.getElem?_append_left h_k] at h_begun
    exact ⟨p, h_begun, h_id⟩
  cases action with
  | create id' info =>
    dsimp only [step] at h_p
    split_ifs at h_p <;> exact ⟨p, h_p, h_id⟩
  | finish policyId ids status scope =>
    dsimp only [step] at h_p
    split_ifs at h_p
    · exact ⟨p, h_p, h_id⟩
    cases h_policy : cfg.policies.lookup policyId with
    | none =>
      rw [h_policy] at h_p
      exact ⟨p, h_p, h_id⟩
    | some policy =>
      rw [h_policy] at h_p
      exact h_append _ h_p
  | retry => exact h_append _ h_p
  | serve i outcome =>
    dsimp only [step] at h_p
    cases h_i : s.parties[i]? with
    | none =>
      rw [h_i] at h_p
      exact ⟨p, h_p, h_id⟩
    | some q =>
      rw [h_i] at h_p
      dsimp only at h_p
      rw [List.getElem?_set] at h_p
      split_ifs at h_p with h_eq
      · cases h_p
        exact ⟨q, h_eq ▸ h_i, held_next h_id⟩
      · exact ⟨p, h_p, h_id⟩

theorem length_step (cfg : Config) (s : State) (action : Action) :
    s.parties.length ≤ (step cfg s action).parties.length := by
  cases action with
  | create id info =>
    dsimp only [step]
    split_ifs <;> rfl
  | finish policyId ids status scope =>
    dsimp only [step]
    split_ifs
    · rfl
    · cases cfg.policies.lookup policyId with
      | none => rfl
      | some policy => simp
  | retry => simp [step]
  | serve i outcome =>
    dsimp only [step]
    cases s.parties[i]? with
    | none => rfl
    | some p => simp

theorem mem_pushes_step {action : Action} {push : Push} (h : Inv cfg s)
    (h_push : push ∈ (step cfg s action).pushes) : push ∈ s.pushes ∨
      ∃ p, s.parties[push.party]? = some p ∧ push.alertId ∈ p.held := by
  cases action with
  | create id info =>
    dsimp only [step] at h_push
    split_ifs at h_push <;> exact .inl h_push
  | finish policyId ids status scope =>
    dsimp only [step] at h_push
    split_ifs at h_push <;> exact .inl h_push
  | retry => exact .inl h_push
  | serve i outcome =>
    dsimp only [step] at h_push
    cases h_i : s.parties[i]? with
    | none =>
      rw [h_i] at h_push
      exact .inl h_push
    | some p =>
      rw [h_i] at h_push
      obtain h_old | h_new := List.mem_append.mp h_push
      · exact .inl h_old
      · obtain ⟨h_lt, -⟩ := List.getElem?_eq_some_iff.mp h_i
        obtain ⟨-, rfl, h_held, -⟩ :=
          mem_pushed (h.parties p (List.mem_iff_getElem?.mpr ⟨i, h_i⟩)) h_lt h_new
        exact .inr ⟨p, h_i, h_held⟩

theorem subset_pushes_step (cfg : Config) (s : State) (action : Action) :
    s.pushes ⊆ (step cfg s action).pushes := by
  cases action with
  | create id info =>
    dsimp only [step]
    split_ifs <;> exact List.Subset.refl _
  | finish policyId ids status scope =>
    dsimp only [step]
    split_ifs <;> exact List.Subset.refl _
  | retry => exact List.Subset.refl _
  | serve i outcome =>
    dsimp only [step]
    cases s.parties[i]? with
    | none => exact List.Subset.refl _
    | some p => exact List.subset_append_left _ _

theorem Done.step {n : ℕ} {action : Action} (h : Done cfg n id s)
    (h_guard : Guard cfg s action (step cfg s action)) : Done cfg n id (step cfg s action) where
  inv := h.inv.step h_guard
  taken := h.taken.mono (subset_pushes_step cfg s action)
  begun := h.begun.trans (length_step cfg s action)
  held k p h_p h_n h_held := by
    by_cases h_k : k < s.parties.length
    · obtain ⟨q, h_q, h_had⟩ := held_step h_k h_p h_held
      exact h.held k q h_q h_n h_had
    · exact not_mem_held h.inv h.taken h_guard (not_lt.mp h_k) h_p h_held
  early push h_push h_id := by
    obtain h_old | ⟨p, h_p, h_held⟩ := mem_pushes_step h.inv h_push
    · exact h.early push h_old h_id
    · by_contra h_late
      exact h.held push.party p h_p (not_lt.mp h_late) (h_id ▸ h_held)

theorem Inv.done (h : Inv cfg s) (h_taken : Taken s id) : Done cfg s.parties.length id s where
  inv := h
  taken := h_taken
  begun := le_rfl
  held k p h_p h_k := by
    rw [List.getElem?_eq_none h_k] at h_p
    exact nomatch h_p
  early push h_push _ := (h.pushes push h_push).party

end Invariant

/-! ### The result -/

/-- The compensation is exact where every round reads only such alerts. -/
theorem exact_of_guard (cfg : Config) (actions : List Action)
    (h : Along (step cfg) (Guard cfg) {} actions) : Exact cfg actions where
  untargeted := by
    intro early h_early push h_push a h_row
    have h_inv := (h.always (fun _ _ h_inv h_guard => Inv.step h_inv h_guard) (inv_init cfg)) early
      h_early
    exact (h_inv.pushes push h_push).includes.of_lookup h_row
  marked := by
    intro early h_early id a h_row h_status h_target h_flag
    have h_inv := (h.always (fun _ _ h_inv h_guard => Inv.step h_inv h_guard) (inv_init cfg)) early
      h_early
    obtain ⟨push, h_push, rfl, h_success⟩ := h_inv.marked id a h_row ⟨h_status, h_flag⟩ h_target
    obtain ⟨h_ended, -⟩ := (h_inv.pushes push h_push).ended.of_lookup h_row
    exact ⟨push, h_push, rfl, h_ended.symm, h_success⟩
  once := by
    rintro early late rfl push h_push h_success push' h_push' h_id
    obtain ⟨h_before, h_after⟩ := along_append.mp h
    have h_inv := h_before.invariant (fun _ _ h_inv h_guard => Inv.step h_inv h_guard)
      (inv_init cfg)
    have h_done := h_after.invariant (fun _ _ h_done h_guard => Done.step h_done h_guard)
      (h_inv.done ⟨push, h_push, rfl, h_success⟩)
    rw [← run_append] at h_done
    exact h_done.early push' h_push' h_id

section Examples

/-- An alert center and a mailbox; the alerts of policy 1 go to the first, those of policy 2 to the
second. -/
private def twoPolicies : Config where
  channels := ((∅ : Table ℕ Channel).insert 1 ⟨"nats", some "receive_alert_events"⟩).insert 2
    ⟨"email", none⟩
  policies := ((∅ : Table ℕ Policy).insert 1 ⟨true, [1], []⟩).insert 2 ⟨true, [2], ["admin"]⟩

private def madeUp : List Action :=
  [.create 1 { policyId := 1 }, .finish 1 [1] .closed .allConfigured,
    .serve 0 .rejected, .serve 0 .taken, .serve 0 .taken,
    .retry, .serve 1 .taken, .serve 1 .taken, .serve 1 .taken, .retry]

theorem exact_madeUp : Along (step twoPolicies) (Guard twoPolicies) {} madeUp ∧
    (run (step twoPolicies) {} madeUp).pushes = [⟨1, .closed, false, 0⟩, ⟨1, .closed, true, 1⟩] ∧
    Exact twoPolicies madeUp :=
  have h_guard : Along (step twoPolicies) (Guard twoPolicies) {} madeUp := by decide +kernel
  ⟨h_guard, by decide +kernel, exact_of_guard twoPolicies madeUp h_guard⟩

/-- A round reads the alert between its end and the notification by mail, and pushes it to the
alert center. -/
theorem not_exact : ¬∀ (cfg : Config) (actions : List Action), Exact cfg actions := by
  intro h
  have h_untargeted := (h twoPolicies [.create 1 { policyId := 2 },
    .finish 2 [1] .closed .allConfigured, .retry, .serve 1 .taken]).untargeted.last
  have h_run : ∃ push ∈ (run (step twoPolicies) {} [.create 1 { policyId := 2 },
      .finish 2 [1] .closed .allConfigured, .retry, .serve 1 .taken]).pushes,
      ∃ a ∈ (run (step twoPolicies) {} [.create 1 { policyId := 2 },
        .finish 2 [1] .closed .allConfigured, .retry, .serve 1 .taken]).alerts.lookup push.alertId,
      ¬Includes twoPolicies a.info := by
    decide +kernel
  obtain ⟨push, h_push, a, h_row, h_not⟩ := h_run
  exact h_not (h_untargeted push h_push a h_row)

end Examples

end AlertCompensation
end Monitor
