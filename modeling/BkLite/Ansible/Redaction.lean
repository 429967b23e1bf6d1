import BkLite.Ansible.Worker

/-!
# Credentials in what is stored, published and answered

Two requests whose payloads differ only in the values under sensitive keys, at any depth
(`Alike`), and what others may see of them (`Seen`): the column `payload_json`, the message in
the work queue, the entries of the dead letter queue, and the answers to queries after any
operations on the store.
-/

namespace Ansible
namespace Redaction

open Py Worker
open Lease (Op)

/-! ### Payloads that differ in credentials -/

/-! The value with every value under a sensitive key blanked. -/
mutual

def mask : Value → Value
  | .list xs => .list (maskList xs)
  | .dict kvs => .dict (maskDict kvs)
  | .null => .null
  | .bool b => .bool b
  | .int i => .int i
  | .float q => .float q
  | .str s => .str s

def maskList : List Value → List Value
  | [] => []
  | x :: xs => mask x :: maskList xs

def maskEntry : String × Value → String × Value
  | (k, v) => (k, if k ∈ sensitiveCredentialKeys then .null else mask v)

def maskDict : List (String × Value) → List (String × Value)
  | [] => []
  | e :: kvs => maskEntry e :: maskDict kvs

end

def Alike (p q : Dict) : Prop := maskDict p = maskDict q

/-! ### What is seen -/

def toJson (task : QueuedTask) : Dict :=
  [("task_id", .str task.taskId),
    ("task_type", .str task.taskType),
    ("payload", .dict task.payload),
    ("callback", task.callback.orElse (.dict [])),
    ("instance_id", .str task.instanceId)]

def buildTaskDlqPayload (task : QueuedTask) (subject error : String) (delivered : ℕ)
    (timestamp : String) : Dict :=
  [("type", .str "task_execution"),
    ("subject", .str subject),
    ("task_id", .str task.taskId),
    ("task_type", .str task.taskType),
    ("instance_id", .str task.instanceId),
    ("payload", .dict (sanitizePayloadForStorage task.payload)),
    ("error", .str error),
    ("delivered", .int delivered),
    ("timestamp", .str timestamp)]

/-- The message of `_enqueue_callback_retry`. -/
def callbackRetryData (callback : Value) (payload : Dict) (reason enqueuedAt : String) : Dict :=
  [("callback", callback),
    ("payload", .dict payload),
    ("reason", .str reason),
    ("task_id", Value.lookup payload "task_id"),
    ("enqueued_at", .str enqueuedAt)]

def buildCallbackRetryDlqPayload (data : Dict) (error : String) (delivered : ℕ)
    (timestamp : String) : Dict :=
  [("type", .str "callback_retry"),
    ("task_id", Value.lookup data "task_id"),
    ("reason", getText data "reason"),
    ("callback", (Value.lookup data "callback").orElse (.dict [])),
    ("payload", (Value.lookup data "payload").orElse (.dict [])),
    ("error", .str error),
    ("delivered", .int delivered),
    ("timestamp", .str timestamp)]

/-- What both requests have in common: how they come in, what happens to their tasks, and what is
asked. -/
structure Context where
  taskType : String
  uuid : String
  instanceId : String
  now : ℤ
  subject : String
  error : String
  delivered : ℕ
  timestamp : String
  /-- The payload of the callback. -/
  result : Dict
  reason : String
  /-- The operations on the store after the request. -/
  ops : List Op
  query : TaskId

structure Seen where
  payloadJson : Option Dict
  message : Dict
  taskDlq : Dict
  callbackDlq : Dict
  answer : Option TaskView

def requested (env : Env) (c : Context) (payload : Dict) : TaskStore :=
  let task := requestTask env payload c.taskType c.uuid c.instanceId
  (createIfAbsent task.taskId .queued (setItem payload "task_id" (.str task.taskId)) task.callback
    c.now ∅).2

def seen (env : Env) (c : Context) (payload : Dict) : Seen :=
  let task := requestTask env payload c.taskType c.uuid c.instanceId
  let store := requested env c payload
  { payloadJson := (store.lookup task.taskId).map (·.payload)
    message := toJson task
    taskDlq := buildTaskDlqPayload task c.subject c.error c.delivered c.timestamp
    callbackDlq := buildCallbackRetryDlqPayload
      (callbackRetryData task.callback c.result c.reason c.timestamp) c.error c.delivered
      c.timestamp
    answer := getTask c.query (Runs.run Lease.step { store } c.ops).store }

/-! ### What must agree -/

/-- Entries of `host_credentials` agree where they are kept: in a dict, beside the sensitive keys
and the mark that is set. -/
def CredAgree (x y : Value) : Prop :=
  ∀ c c', x = .dict c → y = .dict c' →
    List.Forall₂ (fun e e' =>
      e.1 ∈ sensitiveCredentialKeys ∨ e.1 = "_redacted" ∨ e.2 = e'.2) c c'

def EntryAgree (e e' : String × Value) : Prop :=
  e.1 ∈ sensitiveCredentialKeys ∨ e.1 = "task_id" ∨ e.2 = e'.2 ∨
    e.1 = "host_credentials" ∧
      ∃ xs ys, e.2 = .list xs ∧ e'.2 = .list ys ∧ List.Forall₂ CredAgree xs ys

/-- The payloads ask for the same task and agree outside the sensitive keys at the top and in the
dicts of `host_credentials`. -/
def Covered (env : Env) (uuid : String) (p q : Dict) : Prop :=
  requestTaskId env p uuid = requestTaskId env q uuid ∧ List.Forall₂ EntryAgree p q

/-! ### Lists, entry by entry -/

section Pointwise

variable {α β : Type} {R S A : α → α → Prop} {xs ys : List α}

theorem forall₂_congr (h : List.Forall₂ A xs ys) (h_iff : ∀ x y, A x y → (R x y ↔ S x y)) :
    List.Forall₂ R xs ys ↔ List.Forall₂ S xs ys := by
  induction h with
  | nil => exact iff_of_true .nil .nil
  | cons h_here _ ih => rw [List.forall₂_cons, List.forall₂_cons, h_iff _ _ h_here, ih]

theorem filterMap_eq_iff {f : α → Option β}
    (h : List.Forall₂ (fun x y => (f x).isSome = (f y).isSome) xs ys) :
    xs.filterMap f = ys.filterMap f ↔ List.Forall₂ (fun x y => f x = f y) xs ys := by
  induction h with
  | nil => exact iff_of_true rfl .nil
  | @cons x y xs ys h_here _ ih =>
    rw [List.forall₂_cons, ← ih]
    cases h_x : f x with
    | none =>
      have h_y : f y = none := by
        rw [← Option.not_isSome_iff_eq_none, ← h_here, h_x]
        exact Bool.false_ne_true
      rw [List.filterMap_cons_none h_x, List.filterMap_cons_none h_y, h_y, and_iff_right rfl]
    | some b =>
      obtain ⟨b', h_y⟩ : ∃ b', f y = some b' := by
        rw [← Option.isSome_iff_exists, ← h_here, h_x]
        rfl
      rw [List.filterMap_cons_some h_x, List.filterMap_cons_some h_y, h_y, List.cons.injEq,
        Option.some.injEq]

end Pointwise

def SameKeys (d d' : Dict) : Prop := List.Forall₂ (fun e e' => e.1 = e'.1) d d'

section Dicts

variable {d d' : Dict} {R : String × Value → String × Value → Prop}

theorem SameKeys.keys (h : SameKeys d d') : d.map (·.1) = d'.map (·.1) := by
  unfold SameKeys at h
  induction h with
  | nil => rfl
  | cons h_here _ ih => rw [List.map_cons, List.map_cons, h_here, ih]

theorem forall₂_withoutSensitive (h : SameKeys d d') :
    List.Forall₂ R (withoutSensitive d) (withoutSensitive d') ↔
      List.Forall₂ (fun e e' => e.1 ∈ sensitiveCredentialKeys ∨ R e e') d d' := by
  unfold SameKeys at h
  unfold withoutSensitive
  induction h with
  | nil => exact iff_of_true .nil .nil
  | @cons e e' d d' h_here _ ih =>
    rw [List.forall₂_cons, List.filter_cons, List.filter_cons]
    by_cases h_key : e.1 ∈ sensitiveCredentialKeys
    · have h_key' : e'.1 ∈ sensitiveCredentialKeys := h_here ▸ h_key
      rw [if_neg (by simpa using h_key), if_neg (by simpa using h_key'), ih]
      exact (and_iff_right (Or.inl h_key)).symm
    · have h_key' : e'.1 ∉ sensitiveCredentialKeys := h_here ▸ h_key
      rw [if_pos (by simpa using h_key), if_pos (by simpa using h_key'), List.forall₂_cons, ih,
        or_iff_right h_key]

theorem forall₂_setItem (h : SameKeys d d') (key : String) (v : Value)
    (h_R : R (key, v) (key, v)) :
    List.Forall₂ R (setItem d key v) (setItem d' key v) ↔
      List.Forall₂ (fun e e' => e.1 = key ∨ R e e') d d' := by
  have h_keys := h.keys
  unfold setItem
  by_cases h_mem : key ∈ d.map (·.1)
  · have h_mem' : key ∈ d'.map (·.1) := h_keys ▸ h_mem
    rw [if_pos h_mem, if_pos h_mem', List.forall₂_map_left_iff, List.forall₂_map_right_iff]
    refine forall₂_congr h fun e e' h_here => ?_
    by_cases h_key : e.1 = key
    · -- both entries are replaced
      rw [if_pos h_key, if_pos (h_here ▸ h_key)]
      exact iff_of_true h_R (Or.inl h_key)
    · rw [if_neg h_key, if_neg (h_here ▸ h_key), or_iff_right h_key]
  · have h_mem' : key ∉ d'.map (·.1) := h_keys ▸ h_mem
    rw [if_neg h_mem, if_neg h_mem']
    -- no entry has the key
    have h_none : List.Forall₂ (fun e e' => e.1 = key ∨ R e e') d d' ↔ List.Forall₂ R d d' := by
      clear h_mem' h_keys
      unfold SameKeys at h
      induction h with
      | nil => exact iff_of_true .nil .nil
      | cons h_here _ ih =>
        rw [List.map_cons, List.mem_cons, not_or] at h_mem
        rw [List.forall₂_cons, List.forall₂_cons, ih h_mem.2, or_iff_right (Ne.symm h_mem.1)]
    rw [h_none]
    constructor
    · intro h_all
      have h_length : d.length = d'.length := h.length_eq
      have h_take := List.forall₂_take d.length h_all
      rwa [List.take_left, h_length, List.take_left] at h_take
    · intro h_all
      exact List.rel_append h_all (.cons h_R .nil)

end Dicts

/-! ### What a blanked value still shows -/

section Mask

theorem maskList_eq_iff {xs ys : List Value} :
    maskList xs = maskList ys ↔ List.Forall₂ (fun x y => mask x = mask y) xs ys := by
  induction xs generalizing ys with
  | nil =>
    cases ys with
    | nil => exact iff_of_true rfl .nil
    | cons y ys => exact iff_of_false (fun h => nomatch h) (fun h => nomatch h)
  | cons x xs ih =>
    cases ys with
    | nil => exact iff_of_false (fun h => nomatch h) (fun h => nomatch h)
    | cons y ys => rw [List.forall₂_cons, ← ih, maskList, maskList, List.cons.injEq]

theorem maskDict_eq_iff {d d' : Dict} :
    maskDict d = maskDict d' ↔ List.Forall₂ (fun e e' => maskEntry e = maskEntry e') d d' := by
  induction d generalizing d' with
  | nil =>
    cases d' with
    | nil => exact iff_of_true rfl .nil
    | cons e' d' => exact iff_of_false (fun h => nomatch h) (fun h => nomatch h)
  | cons e d ih =>
    cases d' with
    | nil => exact iff_of_false (fun h => nomatch h) (fun h => nomatch h)
    | cons e' d' => rw [List.forall₂_cons, ← ih, maskDict, maskDict, List.cons.injEq]

theorem maskEntry_eq (e : String × Value) :
    maskEntry e = (e.1, if e.1 ∈ sensitiveCredentialKeys then .null else mask e.2) := by
  obtain ⟨k, v⟩ := e
  rfl

theorem key_of_maskEntry {e e' : String × Value} (h : maskEntry e = maskEntry e') :
    e.1 = e'.1 := by
  rw [maskEntry_eq, maskEntry_eq] at h
  exact (Prod.mk.inj h).1

theorem mask_of_maskEntry {e e' : String × Value} (h : maskEntry e = maskEntry e')
    (h_key : e.1 ∉ sensitiveCredentialKeys) : mask e.2 = mask e'.2 := by
  have h_key' : e'.1 ∉ sensitiveCredentialKeys := key_of_maskEntry h ▸ h_key
  rw [maskEntry_eq, maskEntry_eq, if_neg h_key, if_neg h_key'] at h
  exact (Prod.mk.inj h).2

theorem sameKeys_of_mask {d d' : Dict} (h : maskDict d = maskDict d') : SameKeys d d' :=
  (maskDict_eq_iff.mp h).imp fun _ _ => key_of_maskEntry

theorem mask_list {xs : List Value} {v : Value} (h : mask (.list xs) = mask v) :
    ∃ ys, v = .list ys ∧ List.Forall₂ (fun x y => mask x = mask y) xs ys := by
  cases v with
  | list ys =>
    refine ⟨ys, rfl, maskList_eq_iff.mp ?_⟩
    exact Value.list.inj h
  | _ => cases h

theorem mask_dict {c : Dict} {v : Value} (h : mask (.dict c) = mask v) :
    ∃ c', v = .dict c' ∧ maskDict c = maskDict c' := by
  cases v with
  | dict c' => exact ⟨c', rfl, Value.dict.inj h⟩
  | _ => cases h

end Mask

/-! ### What the sanitised payload shows -/

section Sanitize

theorem sanitizeCredential_eq_iff {x y : Value} (h : mask x = mask y) :
    sanitizeCredential x = sanitizeCredential y ↔ CredAgree x y := by
  cases x with
  | dict c =>
    obtain ⟨c', rfl, h_mask⟩ := mask_dict h
    have h_keys := sameKeys_of_mask h_mask
    have h_kept : SameKeys (withoutSensitive c) (withoutSensitive c') := by
      unfold SameKeys
      rw [forall₂_withoutSensitive h_keys]
      exact h_keys.imp fun _ _ h_key => Or.inr h_key
    have h_cred : CredAgree (.dict c) (.dict c') ↔ List.Forall₂ (fun e e' =>
        e.1 ∈ sensitiveCredentialKeys ∨ e.1 = "_redacted" ∨ e.2 = e'.2) c c' := by
      constructor
      · intro h_agree
        exact h_agree c c' rfl rfl
      · intro h_all c₁ c₁' h_c h_c'
        cases h_c
        cases h_c'
        exact h_all
    rw [h_cred, sanitizeCredential, sanitizeCredential, Option.some.injEq, Value.dict.injEq,
      ← List.forall₂_eq_eq_eq, forall₂_setItem h_kept _ _ rfl, forall₂_withoutSensitive h_keys]
    refine forall₂_congr h_keys fun e e' h_key => ?_
    rw [Prod.ext_iff, and_iff_right h_key]
  | _ =>
    -- no dict, so dropped on both sides
    have h_none : sanitizeCredential y = none := by
      cases y with
      | dict c' =>
        obtain ⟨c, h_eq, -⟩ := mask_dict h.symm
        cases h_eq
      | _ => rfl
    exact iff_of_true h_none.symm fun c c' h_x => nomatch h_x

theorem isSome_sanitizeCredential {x y : Value} (h : mask x = mask y) :
    (sanitizeCredential x).isSome = (sanitizeCredential y).isSome := by
  cases x with
  | dict c =>
    obtain ⟨c', rfl, -⟩ := mask_dict h
    rfl
  | _ =>
    cases y with
    | dict c' =>
      obtain ⟨c, h_eq, -⟩ := mask_dict h.symm
      cases h_eq
    | _ => rfl

theorem sanitizeEntry_eq_iff {e e' : String × Value} (h : maskEntry e = maskEntry e')
    (h_key : e.1 ∉ sensitiveCredentialKeys) :
    sanitizeEntry e = sanitizeEntry e' ↔
      e.2 = e'.2 ∨ e.1 = "host_credentials" ∧
        ∃ xs ys, e.2 = .list xs ∧ e'.2 = .list ys ∧ List.Forall₂ CredAgree xs ys := by
  have h_mask := mask_of_maskEntry h h_key
  have h_same := key_of_maskEntry h
  obtain ⟨k, v⟩ := e
  obtain ⟨k', v'⟩ := e'
  dsimp only at h_mask h_same h_key ⊢
  subst h_same
  by_cases h_hosts : k = "host_credentials"
  · subst h_hosts
    rw [and_iff_right rfl]
    cases v with
    | list xs =>
      obtain ⟨ys, rfl, h_items⟩ := mask_list h_mask
      have h_lists : sanitizeEntry ("host_credentials", .list xs) =
          sanitizeEntry ("host_credentials", .list ys) ↔ List.Forall₂ CredAgree xs ys := by
        show ("host_credentials", Value.list (xs.filterMap sanitizeCredential)) =
          ("host_credentials", Value.list (ys.filterMap sanitizeCredential)) ↔ _
        rw [Prod.mk.injEq, and_iff_right rfl, Value.list.injEq,
          filterMap_eq_iff (h_items.imp fun _ _ => isSome_sanitizeCredential)]
        exact forall₂_congr h_items fun x y => sanitizeCredential_eq_iff
      rw [h_lists]
      constructor
      · intro h_agree
        exact Or.inr ⟨xs, ys, rfl, rfl, h_agree⟩
      · rintro (h_eq | ⟨xs', ys', h_xs, h_ys, h_agree⟩)
        · rw [← h_lists, h_eq]
        · cases h_xs
          cases h_ys
          exact h_agree
    | _ =>
      -- what is not a list is passed on
      have h_other : ∀ ys, v' ≠ .list ys := by
        rintro ys rfl
        obtain ⟨xs, h_eq, -⟩ := mask_list h_mask.symm
        cases h_eq
      have h_passed : sanitizeEntry ("host_credentials", v') = ("host_credentials", v') := by
        cases v' with
        | list ys => exact absurd rfl (h_other ys)
        | _ => rfl
      rw [h_passed]
      constructor
      · intro h_eq
        exact Or.inl (congrArg Prod.snd h_eq)
      · rintro (h_eq | ⟨xs, ys, -, h_ys, -⟩)
        · exact Prod.ext rfl h_eq
        · exact absurd h_ys (h_other ys)
  · have h_passed : ∀ w, sanitizeEntry (k, w) = (k, w) := fun w => if_neg h_hosts
    rw [h_passed, h_passed, Prod.mk.injEq, and_iff_right rfl,
      or_iff_left fun h_both => h_hosts h_both.1]

theorem key_sanitizeEntry (e : String × Value) : (sanitizeEntry e).1 = e.1 := by
  unfold sanitizeEntry
  split_ifs
  · split
    · rfl
    · rfl
  · rfl

/-- **Sanitising.** Of payloads that are alike, the same is kept exactly if they agree where
entries are kept. -/
theorem sanitize_eq_iff {p q : Dict} (h : Alike p q) (v : Value) :
    sanitizePayloadForStorage (setItem p "task_id" v) =
        sanitizePayloadForStorage (setItem q "task_id" v) ↔ List.Forall₂ EntryAgree p q := by
  have h_entries := maskDict_eq_iff.mp h
  have h_keys : SameKeys p q := sameKeys_of_mask h
  have h_set : SameKeys (setItem p "task_id" v) (setItem q "task_id" v) := by
    apply (forall₂_setItem (R := fun e e' => e.1 = e'.1) h_keys "task_id" v rfl).mpr
    exact h_keys.imp fun _ _ h_key => Or.inr h_key
  have h_mapped : SameKeys ((setItem p "task_id" v).map sanitizeEntry)
      ((setItem q "task_id" v).map sanitizeEntry) := by
    unfold SameKeys
    rw [List.forall₂_map_left_iff, List.forall₂_map_right_iff]
    refine h_set.imp fun e e' h_key => ?_
    rw [key_sanitizeEntry, key_sanitizeEntry]
    exact h_key
  unfold sanitizePayloadForStorage
  rw [← List.forall₂_eq_eq_eq, forall₂_withoutSensitive h_mapped, List.forall₂_map_left_iff,
    List.forall₂_map_right_iff, forall₂_setItem h_keys _ _ (Or.inr rfl)]
  refine forall₂_congr h_entries fun e e' h_here => ?_
  rw [key_sanitizeEntry]
  unfold EntryAgree
  by_cases h_key : e.1 ∈ sensitiveCredentialKeys
  · exact iff_of_true (Or.inr (Or.inl h_key)) (Or.inl h_key)
  · rw [sanitizeEntry_eq_iff h_here h_key, or_iff_right h_key, or_iff_right h_key]

theorem callback_eq {p q : Dict} (h : Alike p q) (h_agree : List.Forall₂ EntryAgree p q) :
    Value.lookup p "callback" = Value.lookup q "callback" := by
  have h_keys : SameKeys p q := sameKeys_of_mask h
  clear h
  unfold SameKeys at h_keys
  induction h_agree with
  | nil => rfl
  | @cons e e' p q h_here _ ih =>
    rw [List.forall₂_cons] at h_keys
    unfold Value.lookup at ih ⊢
    rw [List.find?_cons, List.find?_cons, ← h_keys.1]
    by_cases h_key : e.1 = "callback"
    · rw [decide_eq_true h_key]
      -- nothing is dropped of the callback
      unfold EntryAgree at h_here
      rw [h_key] at h_here
      rcases h_here with h_mem | h_id | h_eq | ⟨h_hosts, -⟩
      · exact absurd h_mem (by decide)
      · exact absurd h_id (by decide)
      · exact h_eq
      · exact absurd h_hosts (by decide)
    · rw [decide_eq_false h_key]
      exact ih h_keys.2

end Sanitize

/-! ### Two runs of the store -/

def shown (row : TaskRow) : TaskRow := { row with executionPayload := [] }

def Twin (store store' : TaskStore) : Prop :=
  ∀ k, (store.lookup k).map shown = (store'.lookup k).map shown

section Twin

variable {store store' : TaskStore}

theorem eq_of_shown {row row' : TaskRow} (h : shown row = shown row') :
    row' = { row with executionPayload := row'.executionPayload } := by
  cases row
  cases row'
  unfold shown at h
  rw [TaskRow.mk.injEq] at h ⊢
  obtain ⟨h₁, h₂, -, h₄, h₅, h₆, h₇, h₈, h₉, h₁₀, h₁₁, h₁₂, h₁₃⟩ := h
  exact ⟨h₁.symm, h₂.symm, rfl, h₄.symm, h₅.symm, h₆.symm, h₇.symm, h₈.symm, h₉.symm, h₁₀.symm,
    h₁₁.symm, h₁₂.symm, h₁₃.symm⟩

theorem Twin.cases (h : Twin store store') (k : TaskId) :
    (store.lookup k = none ∧ store'.lookup k = none) ∨
    ∃ row payload, store.lookup k = some row ∧
      store'.lookup k = some { row with executionPayload := payload } := by
  have h_k := h k
  cases h_row : store.lookup k with
  | none =>
    rw [h_row] at h_k
    exact Or.inl ⟨rfl, Option.map_eq_none_iff.mp h_k.symm⟩
  | some row =>
    rw [h_row] at h_k
    obtain ⟨row', h_row', h_shown⟩ := Option.map_eq_some_iff.mp h_k.symm
    refine Or.inr ⟨row, row'.executionPayload, rfl, ?_⟩
    rw [h_row', ← eq_of_shown h_shown.symm]

theorem Twin.insert (h : Twin store store') (k : TaskId) {row row' : TaskRow}
    (h_row : shown row = shown row') : Twin (store.insert k row) (store'.insert k row') := by
  intro k'
  rw [Table.lookup_insert, Table.lookup_insert]
  split_ifs
  · exact congrArg some h_row
  · exact h k'

theorem Twin.step {s s' : Lease.State} (h : Twin s.store s'.store) (op : Op) :
    Twin (Lease.step s op).store (Lease.step s' op).store := by
  cases op with
  | create k payload callback now =>
    show Twin (createIfAbsent k .queued payload callback now s.store).2
      (createIfAbsent k .queued payload callback now s'.store).2
    rcases h.cases k with ⟨h_none, h_none'⟩ | ⟨row, payload', h_row, h_row'⟩
    · rw [createIfAbsent_of_none h_none, createIfAbsent_of_none h_none']
      exact h.insert k rfl
    · rw [createIfAbsent_of_some h_row, createIfAbsent_of_some h_row']
      exact h
  | claim k ownerId leaseExpiresAt now =>
    show Twin (claimTask k ownerId leaseExpiresAt now s.store).2
      (claimTask k ownerId leaseExpiresAt now s'.store).2
    unfold claimTask
    rcases h.cases k with ⟨h_none, h_none'⟩ | ⟨row, payload, h_row, h_row'⟩
    · rw [h_none, h_none']
      exact h
    · rw [h_row, h_row']
      -- the lease is read the same in both rows
      have h_lease : TaskRow.foreignLease { row with executionPayload := payload } ownerId now =
          row.foreignLease ownerId now := rfl
      dsimp only
      rw [h_lease]
      split_ifs
      · exact h
      · cases row.foreignLease ownerId now with
        | none => exact h.insert k rfl
        | some lease => exact h
  | renew k ownerId leaseExpiresAt now =>
    show Twin (renewLease k ownerId leaseExpiresAt now s.store).2
      (renewLease k ownerId leaseExpiresAt now s'.store).2
    unfold renewLease
    rcases h.cases k with ⟨h_none, h_none'⟩ | ⟨row, payload, h_row, h_row'⟩
    · rw [h_none, h_none']
      exact h
    · rw [h_row, h_row']
      have h_runs : TaskRow.runs { row with executionPayload := payload } ownerId =
          row.runs ownerId := rfl
      dsimp only
      rw [h_runs]
      split_ifs
      · exact h.insert k rfl
      · exact h
  | finish k success result now ownerId =>
    show Twin (updateExecutionResult k _ result now (some ownerId) s.store).2
      (updateExecutionResult k _ result now (some ownerId) s'.store).2
    unfold updateExecutionResult
    rcases h.cases k with ⟨h_none, h_none'⟩ | ⟨row, payload, h_row, h_row'⟩
    · rw [h_none, h_none']
      exact h
    · rw [h_row, h_row']
      dsimp only
      split_ifs
      · exact h.insert k rfl
      · exact h
  | callback k callbackStatus result now preserveStatus =>
    show Twin (updateCallbackStatus k callbackStatus result now preserveStatus s.store)
      (updateCallbackStatus k callbackStatus result now preserveStatus s'.store)
    rcases h.cases k with ⟨h_none, h_none'⟩ | ⟨row, payload, h_row, h_row'⟩
    · unfold updateCallbackStatus Table.modify
      rw [h_none, h_none']
      exact h
    · rw [updateCallbackStatus_of_some h_row, updateCallbackStatus_of_some h_row']
      exact h.insert k rfl

theorem Twin.run {s s' : Lease.State} (h : Twin s.store s'.store) (ops : List Op) :
    Twin (Runs.run Lease.step s ops).store (Runs.run Lease.step s' ops).store := by
  induction ops generalizing s s' with
  | nil => exact h
  | cons op ops ih => exact ih (h.step op)

theorem Twin.getTask (h : Twin store store') (k : TaskId) :
    getTask k store = getTask k store' := by
  unfold Ansible.getTask
  rcases h.cases k with ⟨h_none, h_none'⟩ | ⟨row, payload, h_row, h_row'⟩
  · rw [h_none, h_none']
  · rw [h_row, h_row']
    rfl

end Twin

/-! ### Noninterference -/

theorem twin_requested {env : Env} {c : Context} {p q : Dict} (h : Alike p q)
    (h_covered : Covered env c.uuid p q) : Twin (requested env c p) (requested env c q) := by
  obtain ⟨h_id, h_agree⟩ := h_covered
  have h_callback := callback_eq h h_agree
  have h_payload := (sanitize_eq_iff h (.str (requestTaskId env q c.uuid))).mpr h_agree
  unfold requested requestTask
  dsimp only
  rw [h_id, h_callback, createIfAbsent_of_none rfl, createIfAbsent_of_none rfl]
  refine Twin.insert (fun _ => rfl) _ ?_
  unfold shown newRow
  dsimp only
  rw [h_payload]

/-- **Noninterference.** What is seen is equal exactly if the payloads agree outside the keys that
are dropped. -/
theorem seen_eq_iff (env : Env) (c : Context) (p q : Dict) (h : Alike p q) :
    seen env c p = seen env c q ↔ Covered env c.uuid p q := by
  constructor
  · intro h_seen
    have h_message : toJson (requestTask env p c.taskType c.uuid c.instanceId) =
        toJson (requestTask env q c.taskType c.uuid c.instanceId) :=
      congrArg Seen.message h_seen
    have h_id : requestTaskId env p c.uuid = requestTaskId env q c.uuid :=
      Value.str.inj (congrArg (fun d => Value.lookup d "task_id") h_message)
    have h_payload : (requestTask env p c.taskType c.uuid c.instanceId).payload =
        (requestTask env q c.taskType c.uuid c.instanceId).payload :=
      Value.dict.inj (congrArg (fun d => Value.lookup d "payload") h_message)
    refine ⟨h_id, ?_⟩
    unfold requestTask at h_payload
    dsimp only at h_payload
    rw [h_id] at h_payload
    exact (sanitize_eq_iff h _).mp h_payload
  · intro h_covered
    have h_twin := twin_requested h h_covered
    obtain ⟨h_id, h_agree⟩ := h_covered
    have h_task : requestTask env p c.taskType c.uuid c.instanceId =
        requestTask env q c.taskType c.uuid c.instanceId := by
      unfold requestTask
      rw [h_id, callback_eq h h_agree,
        (sanitize_eq_iff h (.str (requestTaskId env q c.uuid))).mpr h_agree]
    have h_stored : ((requested env c p).lookup
        (requestTask env q c.taskType c.uuid c.instanceId).taskId).map (·.payload) =
        ((requested env c q).lookup
          (requestTask env q c.taskType c.uuid c.instanceId).taskId).map (·.payload) := by
      have h_rows := h_twin (requestTask env q c.taskType c.uuid c.instanceId).taskId
      have h_both := congrArg (Option.map TaskRow.payload) h_rows
      rwa [Option.map_map, Option.map_map] at h_both
    have h_ops : Twin (Runs.run Lease.step { store := requested env c p } c.ops).store
        (Runs.run Lease.step { store := requested env c q } c.ops).store := by
      refine Twin.run ?_ c.ops
      exact h_twin
    have h_answer := h_ops.getTask c.query
    unfold seen
    dsimp only
    rw [h_task, h_stored, h_answer]

def plainContext : Context where
  taskType := "playbook"
  uuid := "u"
  instanceId := "default"
  now := 0
  subject := "ansible.tasks.playbook.default"
  error := "timeout"
  delivered := 5
  timestamp := "2024-01-01T00:00:00+00:00"
  result := []
  reason := ""
  ops := []
  query := "t"

def mutedEnv : Env where
  str _ := ""
  size _ := 0
  maxBytes := 1024
  maxDeliver := 5

def topPassword (s : String) : Dict := [("task_id", .str "t"), ("ansible_password", .str s)]

def varsPassword (s : String) : Dict :=
  [("task_id", .str "t"), ("extra_vars", .dict [("ansible_password", .str s)])]

theorem seen_topPassword :
    seen mutedEnv plainContext (topPassword "a") = seen mutedEnv plainContext (topPassword "b") := by
  refine (seen_eq_iff mutedEnv plainContext _ _ rfl).mpr ⟨rfl, ?_⟩
  exact .cons (Or.inr (Or.inl rfl)) (.cons (Or.inl (by decide)) .nil)

/-- **Leaked credential.** The variables of a playbook are passed on with their passwords. -/
theorem seen_varsPassword :
    Alike (varsPassword "a") (varsPassword "b") ∧
      seen mutedEnv plainContext (varsPassword "a") ≠
        seen mutedEnv plainContext (varsPassword "b") := by
  refine ⟨rfl, fun h_seen => ?_⟩
  have h_text : (Except.ok (.str "a") : Except PyError Value) = .ok (.str "b") :=
    congrArg (fun s => do
      let payload ← (Value.dict s.message).get "payload"
      let vars ← payload.get "extra_vars"
      vars.get "ansible_password") h_seen
  exact absurd (Value.str.inj (Except.ok.inj h_text)) (by decide)

end Redaction
end Ansible
