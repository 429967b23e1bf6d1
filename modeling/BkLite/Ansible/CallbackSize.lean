import BkLite.Ansible.HostReports
import BkLite.Framework.JsonText
import Mathlib.Algebra.GroupWithZero.Nat

/-!
# The size of a callback

What `_compact_callback_payload` does to a task result, measured by the size of its request. It
keeps what the result says apart from its texts, but nothing bounds what it keeps: the number of
hosts, and a text of the error that has up to 8192 characters. The last measure is taken without
looking at its size, so the request fits exactly if what one of the measures gives does
(`compacted_iff`).
-/

namespace Ansible
namespace CallbackSize

open Py Worker Compaction

/-! ### The request -/

section Text

variable (floatText : ℚ → List Char)

mutual

/-- `json.dumps(value, ensure_ascii=False)`. -/
def dumps : Value → List Char
  | .null => "null".toList
  | .bool b => (if b then "true" else "false").toList
  | .int i => intRepr i
  | .float q => floatText q
  | .str s => jsonString s.toList
  | .list xs => '[' :: dumpsList "" xs
  | .dict kvs => '\x7b' :: dumpsDict "" kvs

def dumpsList (sep : String) : List Value → List Char
  | [] => [']']
  | x :: xs => sep.toList ++ dumps x ++ dumpsList ", " xs

def dumpsDict (sep : String) : List (String × Value) → List Char
  | [] => ['\x7d']
  | (k, x) :: kvs =>
    sep.toList ++ jsonString k.toList ++ ": ".toList ++ dumps x ++ dumpsDict ", " kvs

end

def callbackRequestSizeBytes (payload : Dict) : ℕ :=
  ((dumps floatText (.dict [("args", .list [.dict payload]), ("kwargs", .dict [])])).map
    Char.utf8Size).sum

/-- What `_compact_callback_payload` takes from elsewhere. -/
def sizeEnv (maxBytes : ℕ) : Env := ⟨fun _ => "", callbackRequestSizeBytes floatText, maxBytes, 0⟩

end Text

/-! ### What is claimed -/

def SameHost : Value → Value → Prop
  | .dict item, .dict item' =>
    ∀ key ∉ hostTextFields, Value.lookup item' key = Value.lookup item key
  | v, v' => v' = v

/-- **Compaction.** The request fits, a payload that fits is left alone, and what it says of the
task and of each host stays. -/
structure Compacted (size : Dict → ℕ) (maxBytes : ℕ) (payload compacted : Dict) : Prop where
  fits : size compacted ≤ maxBytes
  unchanged : size payload ≤ maxBytes → compacted = payload
  kept : ∀ key ∈ ["task_id", "task_type", "status", "success"],
    Value.lookup compacted key = Value.lookup payload key
  hosts : ∀ items, Value.lookup payload "result" = .list items →
    ∃ write : Value → Value, (∀ v, SameHost v (write v)) ∧
      Value.lookup compacted "result" = .list (items.map write)

section Proofs

variable {env : Env} {payload d : Dict} {key : String} {items : List Value} {f : Value → Value}

theorem SameHost.refl (v : Value) : SameHost v v := by
  cases v with
  | dict item => exact fun _ _ => rfl
  | _ => rfl

theorem SameHost.trans {u v w : Value} (h : SameHost u v) (h' : SameHost v w) : SameHost u w := by
  cases u with
  | dict item =>
    cases v with
    | dict item' =>
      cases w with
      | dict item'' => exact fun key h_key => (h' key h_key).trans (h key h_key)
      | _ => cases h'
    | _ => cases h
  | _ =>
    cases h
    exact h'

theorem sameHost_mapHosts (f : Value → Value) : ∃ write : Value → Value,
    (∀ v, SameHost v (write v)) ∧ ∀ items, mapHosts f (.list items) = .list (items.map write) := by
  refine ⟨_, fun v => ?_, fun items => rfl⟩
  cases v with
  | dict item =>
    intro key h_key
    simp only [hostTextFields, List.mem_cons, List.not_mem_nil, or_false, not_or] at h_key
    obtain ⟨h_stdout, h_stderr, h_message⟩ := h_key
    simp only [hostTextFields, List.foldl_cons, List.foldl_nil]
    rw [lookup_setItem_ne h_message, lookup_setItem_ne h_stderr, lookup_setItem_ne h_stdout]
  | _ => rfl

def HostsOf (payload d : Dict) : Prop :=
  ∀ items, Value.lookup payload "result" = .list items →
    ∃ write : Value → Value, (∀ v, SameHost v (write v)) ∧
      Value.lookup d "result" = .list (items.map write)

variable (f) in
theorem HostsOf.write {d' : Dict} (h : HostsOf payload d)
    (h_d' : "result" ∈ d.map (·.1) → ∀ items, Value.lookup d "result" = .list items →
      Value.lookup d' "result" = mapHosts f (.list items)) : HostsOf payload d' := by
  intro items h_items
  obtain ⟨write, h_same, h_lookup⟩ := h items h_items
  obtain ⟨write', h_same', h_write'⟩ := sameHost_mapHosts f
  refine ⟨write' ∘ write, fun v => (h_same v).trans (h_same' _), ?_⟩
  have h_mem : "result" ∈ d.map (·.1) := by
    by_contra h_none
    have h_null := lookup_append_of_not_mem h_none []
    rw [List.append_nil, h_lookup] at h_null
    cases h_null
  rw [h_d' h_mem _ h_lookup, h_write', List.map_map]

variable (env) in
theorem hosts_compact : HostsOf payload (compactCallbackPayload env payload) := by
  have h_start : HostsOf payload payload := fun items h_items =>
    ⟨id, SameHost.refl, by rw [List.map_id, h_items]⟩
  have h_dropped : HostsOf payload (mapItem payload "result_summary" dropCombined) := by
    intro items h_items
    rw [lookup_mapItem_ne (by decide)]
    exact h_start items h_items
  have h_shortened : HostsOf payload
      (shortenTexts (mapItem payload "result_summary" dropCombined)) := by
    refine h_dropped.write truncateCallbackText fun h_mem items h_items => ?_
    rw [shortenTexts, lookup_setItem_ne (by decide), lookup_mapItem_self h_mem, h_items]
  rw [compactCallbackPayload]
  dsimp only
  split_ifs
  · exact h_start
  · exact h_dropped
  · exact h_shortened
  · refine h_shortened.write (fun _ => .str "") fun h_mem items h_items => ?_
    rw [dropTexts, lookup_setItem_ne (by decide), lookup_mapItem_ne (by decide),
      lookup_mapItem_self h_mem, h_items]

variable (env) in
theorem fits_compact_iff : env.size (compactCallbackPayload env payload) ≤ env.maxBytes ↔
    env.size payload ≤ env.maxBytes ∨
      env.size (mapItem payload "result_summary" dropCombined) ≤ env.maxBytes ∨
      env.size (shortenTexts (mapItem payload "result_summary" dropCombined)) ≤ env.maxBytes ∨
      env.size (dropTexts (shortenTexts (mapItem payload "result_summary" dropCombined))) ≤
        env.maxBytes := by
  rw [compactCallbackPayload]
  dsimp only
  split_ifs with h_all h_dropped h_shortened
  · exact iff_of_true h_all (.inl h_all)
  · exact iff_of_true h_dropped (.inr (.inl h_dropped))
  · exact iff_of_true h_shortened (.inr (.inr (.inl h_shortened)))
  · tauto

end Proofs

section Examples

private def task : QueuedTask := ⟨"t", "adhoc", [], .null, ""⟩

private def silent : RunOutcome where
  output := String.ofList (['a', 'b', 'c', 'd', 'e', 'f'].flatMap fun host =>
    host :: " | SUCCESS | rc=0 >>\n".toList)
  parsed := ['a', 'b', 'c', 'd', 'e', 'f'].map fun host =>
    .dict (Output.buildParsedHostResult ⟨[host], .success, some 0⟩ [] false)

end Examples

end CallbackSize
end Ansible
