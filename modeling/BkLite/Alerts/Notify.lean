import BkLite.Alerts.Model

/-!
# The notification exit

`common/notify/dispatcher.py`: `build_channel_params` turns a list of receivers
and a list of channels into the arguments of `sync_notify`, and
`enqueue_notifications` hands them to the delivery queue when the surrounding
transaction commits. A transaction that is rolled back hands over nothing, so a
step that commits appends to `Db.outbox` and a step that fails leaves it alone.

The titles and texts of the messages are not modelled.
-/

namespace Alerts

open Py

/-- `ChannelChoices.NATS`. -/
def isNats : Value → Bool
  | .str s => s = "nats"
  | _ => false

def channelParam (usernameList : List Scalar) (team : List Value) (channel : Value) :
    Except PyError (Option NotifyParam) := do
  let channelType ← channel.item "channel_type"
  let channelId ← channel.item "id"
  if isNats channelType && team.isEmpty then
    return none
  return some { usernameList, channelType, channelId }

/-- The elements of a `for` loop over a JSON value. -/
def iterate : Value → Except PyError (List Value)
  | .list xs => .ok xs
  | .dict kvs => .ok (kvs.map fun kv => .str kv.1)
  | .str s => .ok (s.toList.map fun c => .str (String.singleton c))
  | _ => .error .typeError

/-- `build_channel_params` for a single alert of organisation `team`. -/
def buildChannelParams (usernameList : List Scalar) (channels : Value) (team : List Value) :
    Except PyError (List NotifyParam) :=
  if usernameList = [] ∨ channels.truthy = false then .ok []
  else do
    let params ← (← iterate channels).mapM (channelParam usernameList team)
    return params.filterMap id

def enqueueNotifications (kind : NotifyKind) (alertId : AlertId) (now : ℤ)
    (params : List NotifyParam) (db : Db) : Db :=
  if params = [] then db
  else { db with outbox := db.outbox ++ [⟨kind, alertId, params, now⟩] }

section Frame

variable {kind : NotifyKind} {alertId : AlertId} {now : ℤ} {params : List NotifyParam}
  {db : Db}

@[simp] theorem enqueueNotifications_alerts :
    (enqueueNotifications kind alertId now params db).alerts = db.alerts := by
  unfold enqueueNotifications
  split <;> rfl

@[simp] theorem enqueueNotifications_assignments :
    (enqueueNotifications kind alertId now params db).assignments = db.assignments := by
  unfold enqueueNotifications
  split <;> rfl

@[simp] theorem enqueueNotifications_escalations :
    (enqueueNotifications kind alertId now params db).escalations = db.escalations := by
  unfold enqueueNotifications
  split <;> rfl

theorem enqueueNotifications_outbox (kind : NotifyKind) (alertId : AlertId) (now : ℤ)
    (params : List NotifyParam) (db : Db) :
    ∃ new, (enqueueNotifications kind alertId now params db).outbox = db.outbox ++ new ∧
      ∀ n ∈ new, n.alertId = alertId ∧ n.kind = kind := by
  unfold enqueueNotifications
  split
  · exact ⟨[], (List.append_nil _).symm, by simp⟩
  · refine ⟨[⟨kind, alertId, params, now⟩], rfl, ?_⟩
    intro n h_mem
    rw [List.mem_singleton] at h_mem
    subst h_mem
    exact ⟨rfl, rfl⟩

end Frame

end Alerts
