import BkLite.Framework.Runs
import BkLite.Framework.Value
import Mathlib.Data.List.Flatten

/-!
# Requests for a full sync

A transaction that changes a rule requests a full sync of it. The request is dispatched by a
callback that Django runs when the transaction has committed; rules that are waiting for a callback
are remembered in a set of the process, and a further request for one of them is absorbed
(`schedule_rule_auto_relation_full_sync` of `services/auto_relation_reconcile.py`). Only the
callback that was registered with a mark takes it out of the set again.
-/

namespace Cmdb.SyncRequests

open Py

/-- A callback of `transaction.on_commit`: the ids it is to dispatch, and those it has still to. -/
structure Callback where
  normalizedIds : List String
  unsent : List String
deriving DecidableEq, Repr

inductive Stage
  | running
  | committed
  | rolledBack
deriving DecidableEq, Repr

/-- A transaction: what it has requested, and its callbacks that have not run to the end. -/
structure Tx where
  stage : Stage
  requested : List String
  callbacks : List Callback
deriving DecidableEq, Repr

inductive Event
  | committed (t : ℕ)
  | sent (modelAsstId : String)
deriving DecidableEq, Repr

/-- The process: `_PENDING_RULE_FULL_SYNC_IDS`, the transactions and what has happened. -/
structure State where
  pending : List String
  txs : ℕ → Tx
  log : List Event

/-- `str(model_asst_id or "").strip()`. -/
def normalized (modelAsstId : String) : String := String.ofList (strip modelAsstId.toList)

/-- The loop of `schedule_rule_auto_relation_full_sync`: the ids that are new, and the pending ones
with them. -/
def normalizeIds (pending modelAsstIds : List String) : List String × List String :=
  modelAsstIds.foldl (fun (normalizedIds, pending) modelAsstId =>
    let normalizedId := normalized modelAsstId
    if normalizedId = "" ∨ normalizedId ∈ normalizedIds ∨ normalizedId ∈ pending then
      (normalizedIds, pending)
    else (normalizedIds ++ [normalizedId], pending ++ [normalizedId])) ([], pending)

def requestedIds (modelAsstIds : List String) : List String :=
  (modelAsstIds.map normalized).filter (· ≠ "")

/-- `schedule_rule_auto_relation_full_sync` in a transaction. -/
def scheduleRule (s : State) (t : ℕ) (modelAsstIds : List String) : State :=
  let tx := s.txs t
  let new := normalizeIds s.pending modelAsstIds
  { s with
    pending := new.2
    txs := Function.update s.txs t
      { tx with
        requested := tx.requested ++ requestedIds modelAsstIds
        callbacks := if new.1 = [] then tx.callbacks else tx.callbacks ++ [⟨new.1, new.1⟩] } }

/-- `list(dict.fromkeys(..))` of the rules into the models, in the order of the models. -/
def incomingRuleIds (listEnabledRuleIds : String → List String) (modelIds : List String) :
    List String :=
  fromKeys ((fromKeys (requestedIds modelIds)).flatMap listEnabledRuleIds)

def discard (pending normalizedIds : List String) : List String :=
  pending.filter (· ∉ normalizedIds)

def dispatchNext (s : State) (t : ℕ) : State :=
  let tx := s.txs t
  match tx.callbacks with
  | [] => s
  | ⟨ids, modelAsstId :: unsent⟩ :: rest =>
    { s with
      txs := Function.update s.txs t { tx with callbacks := ⟨ids, unsent⟩ :: rest }
      log := s.log ++ [.sent modelAsstId] }
  | ⟨ids, []⟩ :: rest =>
    { s with
      pending := discard s.pending ids
      txs := Function.update s.txs t { tx with callbacks := rest } }

/-- The dispatch of an id raises: the marks of the callback are discarded, and Django runs no
further callback of the transaction. -/
def dispatchFails (s : State) (t : ℕ) : State :=
  let tx := s.txs t
  match tx.callbacks with
  | ⟨ids, _ :: _⟩ :: _ =>
    { s with
      pending := discard s.pending ids
      txs := Function.update s.txs t { tx with callbacks := [] } }
  | _ => s

inductive Action
  /-- `schedule_rule_auto_relation_full_sync(model_asst_ids)` -/
  | schedule (t : ℕ) (modelAsstIds : List String)
  /-- `schedule_incoming_rule_full_sync_by_model_ids(model_ids)`, with what
  `_list_enabled_rule_ids_by_dst_model` finds then -/
  | scheduleIncoming (t : ℕ) (listEnabledRuleIds : String → List String) (modelIds : List String)
  | commit (t : ℕ)
  | rollback (t : ℕ)
  | dispatch (t : ℕ)
  | dispatchFailure (t : ℕ)

def step (s : State) : Action → State
  | .schedule t ids => if (s.txs t).stage = .running then scheduleRule s t ids else s
  | .scheduleIncoming t listEnabledRuleIds modelIds =>
    if (s.txs t).stage = .running then
      scheduleRule s t (incomingRuleIds listEnabledRuleIds modelIds)
    else s
  | .commit t =>
    if (s.txs t).stage = .running then
      { s with
        txs := Function.update s.txs t { s.txs t with stage := .committed }
        log := s.log ++ [.committed t] }
    else s
  | .rollback t =>
    -- Django drops the callbacks; nothing takes their marks out of the set
    if (s.txs t).stage = .running then
      { s with
        txs := Function.update s.txs t { s.txs t with stage := .rolledBack, callbacks := [] } }
    else s
  | .dispatch t => if (s.txs t).stage = .committed then dispatchNext s t else s
  | .dispatchFailure t => if (s.txs t).stage = .committed then dispatchFails s t else s

def initial : State where
  pending := []
  txs _ := ⟨.running, [], []⟩
  log := []

/-! ### Served requests -/

def Tx.toSend (tx : Tx) : List String := tx.callbacks.flatMap (·.unsent)

def Tx.marks (tx : Tx) : List String := tx.callbacks.flatMap (·.normalizedIds)

def Sent (log : List Event) (t : ℕ) (modelAsstId : String) : Prop :=
  ∃ pre post, log = pre ++ .committed t :: post ∧ .sent modelAsstId ∈ post

/-- A callback is to dispatch a sync of the rule: at once if its transaction has committed, else
when it does. -/
def ToCome (s : State) (modelAsstId : String) : Prop := ∃ t, modelAsstId ∈ (s.txs t).toSend

def Covered (s : State) : Prop :=
  ∀ t, (s.txs t).stage = .committed → ∀ r ∈ (s.txs t).requested, Sent s.log t r ∨ ToCome s r

def Relieved (s : State) (t : ℕ) : Prop :=
  ∀ r ∈ (s.txs t).toSend, ∀ t', (s.txs t').stage = .committed → r ∈ (s.txs t').requested →
    Sent s.log t' r

/-- No request is lost in the step. -/
def Orderly (s : State) (a : Action) (_ : State) : Prop :=
  match a with
  | .commit t => (s.txs t).stage = .running → ∀ r ∈ (s.txs t).requested, ToCome s r
  | .rollback t => (s.txs t).stage = .running → Relieved s t
  | .dispatchFailure t => (s.txs t).stage = .committed →
    (∃ c rest, (s.txs t).callbacks = c :: rest ∧ c.unsent ≠ []) → Relieved s t
  | _ => True

section Sent

variable {log : List Event} {t : ℕ} {r : String} {event : Event}

theorem Sent.append (h : Sent log t r) (events : List Event) : Sent (log ++ events) t r := by
  obtain ⟨pre, post, rfl, h_mem⟩ := h
  refine ⟨pre, post ++ events, ?_, List.mem_append_left _ h_mem⟩
  rw [List.append_assoc, List.cons_append]

theorem sent_of_committed (h : .committed t ∈ log) : Sent (log ++ [.sent r]) t r := by
  obtain ⟨pre, post, rfl⟩ := List.append_of_mem h
  refine ⟨pre, post ++ [.sent r], ?_, List.mem_append_right _ (List.mem_singleton_self _)⟩
  rw [List.append_assoc, List.cons_append]

theorem sent_concat (h : Sent (log ++ [event]) t r) : Sent log t r ∨ event = .sent r := by
  obtain ⟨pre, post, h_eq, h_mem⟩ := h
  rcases List.eq_nil_or_concat post with rfl | ⟨post, last, rfl⟩
  · exact absurd h_mem List.not_mem_nil
  · rw [List.concat_eq_append, ← List.cons_append, ← List.append_assoc] at h_eq
    obtain ⟨rfl, h_last⟩ := List.append_inj' h_eq rfl
    obtain rfl : event = last := List.singleton_inj.mp h_last
    rw [List.concat_eq_append] at h_mem
    obtain h_before | h_here := List.mem_append.mp h_mem
    · exact .inl ⟨pre, post, rfl, h_before⟩
    · exact .inr (List.mem_singleton.mp h_here).symm

end Sent

/-! ### The marks -/

section Marks

variable {pending ids : List String}

theorem normalizeIds_spec (pending ids : List String) :
    (normalizeIds pending ids).1.Nodup ∧ (∀ r ∈ (normalizeIds pending ids).1, r ∉ pending) ∧
      (normalizeIds pending ids).2 = pending ++ (normalizeIds pending ids).1 := by
  induction ids using List.reverseRecOn with
  | nil => exact ⟨List.nodup_nil, fun r h => absurd h List.not_mem_nil, (List.append_nil _).symm⟩
  | append_singleton ids modelAsstId ih =>
    obtain ⟨h_nodup, h_new, h_pending⟩ := ih
    rw [normalizeIds] at h_nodup h_new h_pending ⊢
    rw [List.foldl_concat]
    set before := ids.foldl _ (([] : List String), pending) with h_before
    obtain ⟨normalizedIds, marked⟩ := before
    dsimp only at h_nodup h_new h_pending ⊢
    split_ifs with h_known
    · exact ⟨h_nodup, h_new, h_pending⟩
    · simp only [not_or] at h_known
      obtain ⟨-, h_fresh, h_unmarked⟩ := h_known
      refine ⟨?_, ?_, ?_⟩
      · rw [List.nodup_append]
        refine ⟨h_nodup, List.nodup_singleton _, fun r h_r r' h_r' h_eq => ?_⟩
        rw [List.mem_singleton.mp h_r'] at h_eq
        exact h_fresh (h_eq ▸ h_r)
      · intro r h_r h_mem
        obtain h_r | h_r := List.mem_append.mp h_r
        · exact h_new r h_r h_mem
        · rw [List.mem_singleton.mp h_r] at h_mem
          rw [h_pending] at h_unmarked
          exact h_unmarked (List.mem_append_left _ h_mem)
      · rw [h_pending, List.append_assoc]

/-- Each mark is of one callback at most, and stays until that has run. -/
structure Marked (s : State) : Prop where
  pending : ∀ t, ∀ r ∈ (s.txs t).marks, r ∈ s.pending
  alone : ∀ {t t' r}, r ∈ (s.txs t).marks → r ∈ (s.txs t').marks → t = t'
  nodup : ∀ t, (s.txs t).marks.Nodup
  unsent : ∀ t, ∀ c ∈ (s.txs t).callbacks, ∀ r ∈ c.unsent, r ∈ c.normalizedIds
  logged : ∀ t, (s.txs t).stage = .committed ↔ .committed t ∈ s.log

variable {s : State} {t : ℕ} {tx : Tx} {log : List Event}

theorem Marked.initial : Marked initial where
  pending _ _ h := absurd h List.not_mem_nil
  alone h := absurd h List.not_mem_nil
  nodup _ := List.nodup_nil
  unsent _ _ h := absurd h List.not_mem_nil
  logged _ := iff_of_false nofun List.not_mem_nil

theorem Marked.mem_marks (h : Marked s) {r : String} (h_mem : r ∈ (s.txs t).toSend) :
    r ∈ (s.txs t).marks := by
  obtain ⟨c, h_c, h_r⟩ := List.mem_flatMap.mp h_mem
  exact List.mem_flatMap.mpr ⟨c, h_c, h.unsent t c h_c r h_r⟩

theorem Marked.update (h : Marked s) {pending : List String}
    (h_marks : ∀ r ∈ tx.marks, r ∈ pending ∧ ∀ t' ≠ t, r ∉ (s.txs t').marks)
    (h_others : ∀ t' ≠ t, ∀ r ∈ (s.txs t').marks, r ∈ pending)
    (h_nodup : tx.marks.Nodup) (h_unsent : ∀ c ∈ tx.callbacks, ∀ r ∈ c.unsent, r ∈ c.normalizedIds)
    (h_log : ∀ t' ≠ t, .committed t' ∈ log ↔ .committed t' ∈ s.log)
    (h_logged : tx.stage = .committed ↔ .committed t ∈ log) :
    Marked ⟨pending, Function.update s.txs t tx, log⟩ := by
  have h_at : ∀ t', (⟨pending, Function.update s.txs t tx, log⟩ : State).txs t' =
      if t' = t then tx else s.txs t' := fun t' => Function.update_apply _ _ _ _
  refine ⟨fun t' r h_r => ?_, fun {t' t'' r} h_r h_r' => ?_, fun t' => ?_, fun t' => ?_,
    fun t' => ?_⟩
  · rw [h_at] at h_r
    split_ifs at h_r with h_eq
    · exact (h_marks r h_r).1
    · exact h_others t' h_eq r h_r
  · rw [h_at] at h_r h_r'
    split_ifs at h_r h_r' with h_eq h_eq' h_eq'
    · rw [h_eq, h_eq']
    · exact absurd h_r' ((h_marks r h_r).2 t'' h_eq')
    · exact absurd h_r ((h_marks r h_r').2 t' h_eq)
    · exact h.alone h_r h_r'
  · rw [h_at]
    split_ifs
    · exact h_nodup
    · exact h.nodup t'
  · rw [h_at]
    split_ifs
    · exact h_unsent
    · exact h.unsent t'
  · rw [h_at]
    split_ifs with h_eq
    · rw [h_eq]
      exact h_logged
    · exact (h.logged t').trans (h_log t' h_eq).symm

theorem Marked.scheduleRule (h : Marked s) (t : ℕ) (ids : List String) :
    Marked (scheduleRule s t ids) := by
  obtain ⟨h_nodup, h_new, h_pending⟩ := normalizeIds_spec s.pending ids
  unfold SyncRequests.scheduleRule
  dsimp only
  set normalizedIds := (normalizeIds s.pending ids).1
  have h_others : ∀ t' ≠ t, ∀ r ∈ (s.txs t').marks, r ∈ (normalizeIds s.pending ids).2 := by
    intro t' _ r h_r
    rw [h_pending]
    exact List.mem_append_left _ (h.pending t' r h_r)
  split_ifs with h_none
  · refine h.update (fun r h_r => ⟨?_, fun t' h_ne h_r' => h_ne (h.alone h_r' h_r)⟩) h_others
      (h.nodup t) (h.unsent t) (fun _ _ => Iff.rfl) (h.logged t)
    rw [h_pending]
    exact List.mem_append_left _ (h.pending t r h_r)
  · have h_marks : Tx.marks ⟨(s.txs t).stage, (s.txs t).requested ++ requestedIds ids,
        (s.txs t).callbacks ++ [⟨normalizedIds, normalizedIds⟩]⟩ =
          (s.txs t).marks ++ normalizedIds := by
      rw [Tx.marks, List.flatMap_append, List.flatMap_singleton]
      rfl
    refine h.update (fun r h_r => ?_) h_others ?_ ?_ (fun _ _ => Iff.rfl) (h.logged t)
    · rw [h_marks] at h_r
      rw [h_pending]
      obtain h_r | h_r := List.mem_append.mp h_r
      · exact ⟨List.mem_append_left _ (h.pending t r h_r),
          fun t' h_ne h_r' => h_ne (h.alone h_r' h_r)⟩
      · exact ⟨List.mem_append_right _ h_r, fun t' _ h_r' => h_new r h_r (h.pending t' r h_r')⟩
    · rw [h_marks, List.nodup_append]
      refine ⟨h.nodup t, h_nodup, fun r h_r r' h_r' h_eq => ?_⟩
      rw [← h_eq] at h_r'
      exact h_new r h_r' (h.pending t r h_r)
    · intro c h_c r h_r
      obtain h_c | h_c := List.mem_append.mp h_c
      · exact h.unsent t c h_c r h_r
      · rw [List.mem_singleton.mp h_c] at h_r ⊢
        exact h_r

theorem Marked.discard (h : Marked s) {c : Callback} {rest callbacks : List Callback}
    (h_callbacks : (s.txs t).callbacks = c :: rest) (h_sublist : callbacks.Sublist rest) :
    Marked ⟨discard s.pending c.normalizedIds,
      Function.update s.txs t { s.txs t with callbacks := callbacks }, s.log⟩ := by
  have h_marks : (s.txs t).marks = c.normalizedIds ++ rest.flatMap (·.normalizedIds) := by
    rw [Tx.marks, h_callbacks, List.flatMap_cons]
  have h_nodup := h.nodup t
  rw [h_marks] at h_nodup
  have h_rest : ∀ r ∈ callbacks.flatMap (·.normalizedIds),
      r ∈ rest.flatMap (·.normalizedIds) := by
    intro r h_r
    obtain ⟨c', h_c', h_r⟩ := List.mem_flatMap.mp h_r
    exact List.mem_flatMap.mpr ⟨c', h_sublist.subset h_c', h_r⟩
  have h_own : ∀ r ∈ callbacks.flatMap (·.normalizedIds), r ∈ (s.txs t).marks := by
    intro r h_r
    rw [h_marks]
    exact List.mem_append_right _ (h_rest r h_r)
  refine h.update (fun r h_r => ⟨?_, fun t' h_ne h_r' => ?_⟩) (fun t' h_ne r h_r => ?_) ?_ ?_
    (fun _ _ => Iff.rfl) (h.logged t)
  · refine List.mem_filter.mpr ⟨h.pending t r (h_own r h_r), decide_eq_true fun h_mem => ?_⟩
    exact List.disjoint_of_nodup_append h_nodup h_mem (h_rest r h_r)
  · exact h_ne (h.alone h_r' (h_own r h_r))
  · refine List.mem_filter.mpr ⟨h.pending t' r h_r, decide_eq_true fun h_mem => ?_⟩
    refine h_ne (h.alone h_r ?_)
    rw [h_marks]
    exact List.mem_append_left _ h_mem
  · exact (List.nodup_append.mp h_nodup).2.1.sublist (h_sublist.flatMap _)
  · intro c' h_c' r h_r
    refine h.unsent t c' ?_ r h_r
    rw [h_callbacks]
    exact List.mem_cons_of_mem _ (h_sublist.subset h_c')

theorem Marked.dispatchNext (h : Marked s) (t : ℕ) : Marked (dispatchNext s t) := by
  unfold SyncRequests.dispatchNext
  dsimp only
  split
  · exact h
  · rename_i ids r unsent rest h_callbacks
    have h_marks : Tx.marks { s.txs t with callbacks := ⟨ids, unsent⟩ :: rest } =
        (s.txs t).marks := by
      rw [Tx.marks, Tx.marks, h_callbacks, List.flatMap_cons, List.flatMap_cons]
    have h_append : ∀ t', .committed t' ∈ s.log ++ [.sent r] ↔ Event.committed t' ∈ s.log := by
      intro t'
      rw [List.mem_append, List.mem_singleton, or_iff_left nofun]
    refine h.update (fun r' h_r' => ?_) (fun t' _ => h.pending t') ?_ ?_ (fun t' _ => h_append t')
      ((h.logged t).trans (h_append t).symm)
    · rw [h_marks] at h_r'
      exact ⟨h.pending t r' h_r', fun t' h_ne h_other => h_ne (h.alone h_other h_r')⟩
    · rw [h_marks]
      exact h.nodup t
    · intro c h_c r' h_r'
      have h_unsent := h.unsent t
      rw [h_callbacks] at h_unsent
      obtain rfl | h_c := List.mem_cons.mp h_c
      · exact h_unsent _ List.mem_cons_self r' (List.mem_cons_of_mem _ h_r')
      · exact h_unsent c (List.mem_cons_of_mem _ h_c) r' h_r'
  · rename_i ids rest h_callbacks
    exact h.discard h_callbacks (List.Sublist.refl rest)

theorem Marked.dispatchFails (h : Marked s) (t : ℕ) : Marked (dispatchFails s t) := by
  unfold SyncRequests.dispatchFails
  dsimp only
  split
  · rename_i ids r unsent rest h_callbacks
    exact h.discard h_callbacks (List.nil_sublist rest)
  · exact h

theorem Marked.step (h : Marked s) (a : Action) : Marked (step s a) := by
  cases a with
  | schedule t ids =>
    rw [SyncRequests.step]
    split_ifs
    · exact h.scheduleRule t ids
    · exact h
  | scheduleIncoming t listEnabledRuleIds modelIds =>
    rw [SyncRequests.step]
    split_ifs
    · exact h.scheduleRule t _
    · exact h
  | commit t =>
    rw [SyncRequests.step]
    split_ifs
    · refine h.update (fun r h_r => ?_) (fun t' _ => h.pending t') (h.nodup t) (h.unsent t)
        (fun t' h_ne => ?_) (iff_of_true rfl List.mem_concat_self)
      · exact ⟨h.pending t r h_r, fun t' h_ne h_other => h_ne (h.alone h_other h_r)⟩
      · rw [List.mem_append, List.mem_singleton, Event.committed.injEq, or_iff_left h_ne]
    · exact h
  | rollback t =>
    rw [SyncRequests.step]
    split_ifs with h_running
    · refine h.update (fun r h_r => absurd h_r List.not_mem_nil) (fun t' _ => h.pending t')
        List.nodup_nil (fun c h_c => absurd h_c List.not_mem_nil) (fun _ _ => Iff.rfl) ?_
      rw [← h.logged t, h_running]
      exact iff_of_false nofun nofun
    · exact h
  | dispatch t =>
    rw [SyncRequests.step]
    split_ifs
    · exact h.dispatchNext t
    · exact h
  | dispatchFailure t =>
    rw [SyncRequests.step]
    split_ifs
    · exact h.dispatchFails t
    · exact h

end Marks

/-! ### Exactly the orderly steps lose no request -/

section Covered

variable {s : State} {t : ℕ} {tx : Tx} {pending : List String}

theorem Covered.update (h : Covered s) {events : List Event}
    (h_stage : tx.stage = .committed → (s.txs t).stage = .committed ∧
      tx.requested = (s.txs t).requested)
    (h_come : ∀ r ∈ (s.txs t).toSend, r ∈ tx.toSend ∨ ∀ t', (s.txs t').stage = .committed →
      r ∈ (s.txs t').requested → Sent (s.log ++ events) t' r) :
    Covered ⟨pending, Function.update s.txs t tx, s.log ++ events⟩ := by
  intro t' h_committed' r h_r
  obtain ⟨h_committed, h_requested⟩ : (s.txs t').stage = .committed ∧
      r ∈ (s.txs t').requested := by
    dsimp only at h_committed' h_r
    by_cases h_eq : t' = t
    · rw [h_eq, Function.update_self] at h_committed' h_r
      rw [h_eq, ← (h_stage h_committed').2]
      exact ⟨(h_stage h_committed').1, h_r⟩
    · rw [Function.update_of_ne h_eq] at h_committed' h_r
      exact ⟨h_committed', h_r⟩
  obtain h_sent | ⟨t'', h_to_come⟩ := h t' h_committed r h_requested
  · exact .inl (h_sent.append events)
  · by_cases h_eq : t'' = t
    · rw [h_eq] at h_to_come
      obtain h_still | h_sent := h_come r h_to_come
      · refine .inr ⟨t, ?_⟩
        dsimp only
        rw [Function.update_self]
        exact h_still
      · exact .inl (h_sent t' h_committed h_requested)
    · refine .inr ⟨t'', ?_⟩
      dsimp only
      rw [Function.update_of_ne h_eq]
      exact h_to_come

theorem Covered.scheduleRule (h : Covered s) (h_running : (s.txs t).stage = .running)
    (ids : List String) : Covered (scheduleRule s t ids) := by
  unfold SyncRequests.scheduleRule
  dsimp only
  rw [← List.append_nil s.log]
  refine h.update (fun h_stage => ?_) fun r h_r => .inl ?_
  · dsimp only at h_stage
    rw [h_running] at h_stage
    cases h_stage
  · split_ifs
    · exact h_r
    · rw [Tx.toSend, List.flatMap_append]
      exact List.mem_append_left _ h_r

theorem Covered.dispatchNext (h : Covered s) (h_marked : Marked s) (t : ℕ) :
    Covered (dispatchNext s t) := by
  unfold SyncRequests.dispatchNext
  dsimp only
  split
  · exact h
  · rename_i ids r unsent rest h_callbacks
    refine h.update (fun h_stage => ⟨h_stage, rfl⟩) fun r' h_r' => ?_
    rw [Tx.toSend, h_callbacks, List.flatMap_cons, List.cons_append, List.mem_cons] at h_r'
    obtain rfl | h_r' := h_r'
    · exact .inr fun t' h_committed _ => sent_of_committed ((h_marked.logged t').mp h_committed)
    · rw [Tx.toSend, List.flatMap_cons]
      exact .inl h_r'
  · rename_i ids rest h_callbacks
    rw [← List.append_nil s.log]
    refine h.update (fun h_stage => ⟨h_stage, rfl⟩) fun r' h_r' => .inl ?_
    rw [Tx.toSend, h_callbacks, List.flatMap_cons, List.nil_append] at h_r'
    exact h_r'

theorem covered_drop_iff (h : Covered s) (h_marked : Marked s) (h_callbacks : tx.callbacks = [])
    (h_requested : tx.requested = (s.txs t).requested)
    (h_stage : tx.stage = .committed ↔ (s.txs t).stage = .committed) :
    Covered ⟨pending, Function.update s.txs t tx, s.log⟩ ↔ Relieved s t := by
  constructor
  · intro h_covered r h_r t' h_committed h_r'
    have h_committed' : (Function.update s.txs t tx t').stage = .committed ∧
        r ∈ (Function.update s.txs t tx t').requested := by
      by_cases h_eq : t' = t
      · rw [h_eq] at h_committed h_r' ⊢
        rw [Function.update_self, h_stage, h_requested]
        exact ⟨h_committed, h_r'⟩
      · rw [Function.update_of_ne h_eq]
        exact ⟨h_committed, h_r'⟩
    obtain h_sent | ⟨t'', h_to_come⟩ := h_covered t' h_committed'.1 r h_committed'.2
    · exact h_sent
    · dsimp only at h_to_come
      by_cases h_eq : t'' = t
      · rw [h_eq, Function.update_self, Tx.toSend, h_callbacks] at h_to_come
        exact absurd h_to_come List.not_mem_nil
      · rw [Function.update_of_ne h_eq] at h_to_come
        exact absurd (h_marked.alone (h_marked.mem_marks h_to_come) (h_marked.mem_marks h_r)) h_eq
  · intro h_relieved
    rw [← List.append_nil s.log]
    refine h.update (fun h_committed => ⟨h_stage.mp h_committed, h_requested⟩) fun r h_r => .inr ?_
    exact fun t' h_committed h_r' => (h_relieved r h_r t' h_committed h_r').append []

theorem covered_commit_iff (h : Covered s) (h_marked : Marked s) (h_running : (s.txs t).stage = .running) :
    Covered ⟨s.pending, Function.update s.txs t { s.txs t with stage := .committed },
      s.log ++ [.committed t]⟩ ↔ ∀ r ∈ (s.txs t).requested, ToCome s r := by
  have h_come : ∀ r, ToCome ⟨s.pending,
      Function.update s.txs t { s.txs t with stage := .committed },
      s.log ++ [.committed t]⟩ r ↔ ToCome s r := by
    refine fun r => exists_congr fun t' => ?_
    dsimp only
    by_cases h_eq : t' = t
    · rw [h_eq, Function.update_self]
      exact Iff.rfl
    · rw [Function.update_of_ne h_eq]
  constructor
  · intro h_covered r h_r
    have h_own := h_covered t
    dsimp only at h_own
    rw [Function.update_self] at h_own
    obtain h_sent | h_to_come := h_own rfl r h_r
    · obtain ⟨pre, post, h_log, -⟩ | h_event := sent_concat h_sent
      · have h_mem : .committed t ∈ s.log := by
          rw [h_log]
          exact List.mem_append_right _ List.mem_cons_self
        rw [(h_marked.logged t).mpr h_mem] at h_running
        cases h_running
      · cases h_event
    · exact (h_come r).mp h_to_come
  · intro h_requested t' h_committed r h_r
    dsimp only at h_committed h_r
    by_cases h_eq : t' = t
    · rw [h_eq, Function.update_self] at h_r
      exact .inr ((h_come r).mpr (h_requested r h_r))
    · rw [Function.update_of_ne h_eq] at h_committed h_r
      exact (h t' h_committed r h_r).imp (fun h_sent => h_sent.append _) (h_come r).mpr

theorem covered_step_iff (h : Covered s) (h_marked : Marked s) (a : Action) :
    Covered (step s a) ↔ Orderly s a (step s a) := by
  cases a with
  | schedule t ids =>
    refine iff_of_true ?_ trivial
    rw [step]
    split_ifs with h_running
    · exact h.scheduleRule h_running ids
    · exact h
  | scheduleIncoming t listEnabledRuleIds modelIds =>
    refine iff_of_true ?_ trivial
    rw [step]
    split_ifs with h_running
    · exact h.scheduleRule h_running _
    · exact h
  | commit t =>
    rw [step]
    split_ifs with h_running
    · rw [covered_commit_iff h h_marked h_running]
      exact ⟨fun h_come _ => h_come, fun h_orderly => h_orderly h_running⟩
    · exact iff_of_true h fun h_r => absurd h_r h_running
  | rollback t =>
    rw [step]
    split_ifs with h_running
    · have h_callbacks : Tx.callbacks { s.txs t with stage := .rolledBack, callbacks := [] } =
          [] := rfl
      refine (covered_drop_iff h h_marked h_callbacks rfl ?_).trans ?_
      · rw [h_running]
        exact iff_of_false nofun nofun
      · exact ⟨fun h_relieved _ => h_relieved, fun h_orderly => h_orderly h_running⟩
    · exact iff_of_true h fun h_r => absurd h_r h_running
  | dispatch t =>
    refine iff_of_true ?_ trivial
    rw [step]
    split_ifs
    · exact h.dispatchNext h_marked t
    · exact h
  | dispatchFailure t =>
    rw [step]
    split_ifs with h_committed
    · unfold dispatchFails
      dsimp only
      split
      · rename_i ids r unsent rest h_callbacks
        have h_dropped : Tx.callbacks { s.txs t with callbacks := [] } = [] := rfl
        refine (covered_drop_iff h h_marked h_dropped rfl Iff.rfl).trans ?_
        refine ⟨fun h_relieved _ _ => h_relieved, fun h_orderly => ?_⟩
        exact h_orderly h_committed ⟨_, rest, h_callbacks, List.cons_ne_nil r unsent⟩
      · rename_i h_callbacks
        refine iff_of_true h fun _ ⟨c, rest, h_eq, h_unsent⟩ => ?_
        obtain ⟨r, unsent, h_cons⟩ := List.exists_cons_of_ne_nil h_unsent
        refine absurd ?_ (h_callbacks c.normalizedIds r unsent rest)
        rw [h_eq, ← h_cons]
    · exact iff_of_true h fun h_c => absurd h_c h_committed

end Covered

/-- A rule that waits for its dispatch is marked, and waits in one transaction. -/
def Debounced (s : State) : Prop :=
  ∀ t, ∀ r ∈ (s.txs t).toSend, r ∈ s.pending ∧ ∀ t', r ∈ (s.txs t').toSend → t' = t

/-- **Requests are debounced** in every run, whatever is rolled back or fails. -/
theorem always_debounced (as : List Action) : Runs.Always step Debounced initial as := by
  intro pre _ t r h_r
  have h_marked : Marked (Runs.run step initial pre) :=
    Runs.run_invariant (fun _ a h => h.step a) Marked.initial pre
  have h_mark := h_marked.mem_marks h_r
  exact ⟨h_marked.pending t r h_mark,
    fun t' h_r' => h_marked.alone (h_marked.mem_marks h_r') h_mark⟩

end Cmdb.SyncRequests
