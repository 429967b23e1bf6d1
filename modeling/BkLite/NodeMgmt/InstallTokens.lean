import BkLite.Framework.Runs
import Mathlib.Tactic.Linarith

/-!
# Install tokens

`InstallTokenService` (`services/install_token.py`) keeps a token as one cache entry, its
parameters with a counter of uses. A validation is a `cache.get`, and then a `cache.set` of what it
read with the counter one higher, or a `cache.delete`. Between the two other validations of the
token take their steps. The two kinds of token differ in their parameters, their limits and their
messages.
-/

namespace NodeMgmt.InstallToken

open Runs

/-- What `generate_install_token` is given. -/
structure InstallParams where
  nodeId : String
  ip : String
  user : String
  os : String
  packageId : String
  cloudRegionId : String
  organizations : List ℕ
  nodeName : String
  cpuArchitecture : String
deriving DecidableEq, Repr

/-- What `generate_download_token` is given. -/
structure DownloadParams where
  packageId : String
  nodeId : String
deriving DecidableEq, Repr

/-- A kind of token: its limits, in uses and in seconds, and the messages of its validation. -/
structure Kind where
  maxUsage : ℕ
  expireTime : ℚ
  invalid : String
  exceeded : ℕ → String

def installToken : Kind where
  maxUsage := 5
  expireTime := 60 * 30
  invalid := "Invalid or expired token"
  exceeded n := s!"Token has exceeded maximum usage limit ({n} times)"

def downloadToken : Kind where
  maxUsage := 3
  expireTime := 60 * 10
  invalid := "Invalid or expired download token"
  exceeded n := s!"Download token has exceeded maximum usage limit ({n} times)"

variable {Params : Type*}

structure TokenData (Params : Type*) where
  params : Params
  usageCount : ℕ
  maxUsage : ℕ
deriving DecidableEq, Repr

structure Entry (Params : Type*) where
  data : TokenData Params
  expiresAt : ℚ
deriving DecidableEq, Repr

structure Returned (Params : Type*) where
  params : Params
  remainingUsage : ℤ
deriving DecidableEq, Repr

/-- `generate_install_token` and `generate_download_token`. -/
def generate (kind : Kind) (params : Params) (now : ℚ) : Entry Params :=
  ⟨⟨params, 0, kind.maxUsage⟩, now + kind.expireTime⟩

def get (cache : Option (Entry Params)) (now : ℚ) : Option (TokenData Params) :=
  (cache.filter fun entry => now < entry.expiresAt).map Entry.data

/-- Where a call of the validation stands: what it has read is in its hands. -/
inductive Call (Params : Type*)
  | called
  | counted (data : TokenData Params)
  | overused (maxUsage : ℕ)
  | returned (answer : Except String (Returned Params))

/-- What a step of a call makes of the cache and of the call, and the success it returns. -/
structure Outcome (Params : Type*) where
  cache : Option (Entry Params)
  call : Call Params
  success : Option (Returned Params)

/-- `validate_and_get_token_data` and `validate_and_get_download_token_data`, up to the next access
to the cache. -/
def validate (kind : Kind) (now : ℚ) (cache : Option (Entry Params)) : Call Params → Outcome Params
  | .called =>
    match get cache now with
    | none => ⟨cache, .returned (.error kind.invalid), none⟩
    | some data =>
      if data.usageCount ≥ data.maxUsage then ⟨cache, .overused data.maxUsage, none⟩
      else ⟨cache, .counted data, none⟩
  | .counted data =>
    let data : TokenData Params := { data with usageCount := data.usageCount + 1 }
    let answer : Returned Params := ⟨data.params, data.maxUsage - data.usageCount⟩
    ⟨some ⟨data, now + kind.expireTime⟩, .returned (.ok answer), some answer⟩
  | .overused maxUsage => ⟨none, .returned (.error (kind.exceeded maxUsage)), none⟩
  | .returned answer => ⟨cache, .returned answer, none⟩

/-- A token and its validations. `successes` are those that returned its parameters, each with the
time. -/
structure State (Params : Type*) where
  now : ℚ
  cache : Option (Entry Params)
  calls : ℕ → Call Params
  successes : List (ℚ × Returned Params)

/-- The next access of call `i` to the cache, at `now`; a time that has passed does not come again.
-/
def step (kind : Kind) (s : State Params) : ℕ × ℚ → State Params
  | (i, now) =>
    if now < s.now then s
    else
      let outcome := validate kind now s.cache (s.calls i)
      { now := now
        cache := outcome.cache
        calls := Function.update s.calls i outcome.call
        successes := s.successes ++ (outcome.success.map (now, ·)).toList }

def issue (kind : Kind) (params : Params) (now : ℚ) : State Params :=
  ⟨now, some (generate kind params now), fun _ => .called, []⟩

variable {kind : Kind} {params : Params} {issuedAt : ℚ} {s : State Params} {i : ℕ} {now : ℚ}

/-! ### What is claimed, and when it is kept -/

/-- At most `max_usage` validations succeed, in time, with the issued parameters. -/
structure Limited (kind : Kind) (params : Params) (issuedAt : ℚ) (s : State Params) : Prop where
  count : s.successes.length ≤ kind.maxUsage
  lifetime : ∀ x ∈ s.successes, x.1 ≤ issuedAt + kind.expireTime
  params : ∀ x ∈ s.successes, x.2.params = params

def Call.held : Call Params → Option (TokenData Params)
  | .counted data => some data
  | _ => none

/-- A use that is written back finds the entry as it was read, and is within the lifetime of the
token as it was issued. -/
def Undisturbed (kind : Kind) (issuedAt : ℚ) (s : State Params) : ℕ × ℚ → State Params → Prop
  | (i, now), _ => s.now ≤ now → ∀ data ∈ (s.calls i).held,
    s.cache.map Entry.data = some data ∧ now ≤ issuedAt + kind.expireTime

instance [DecidableEq Params] (e : ℕ × ℚ) (s' : State Params) :
    Decidable (Undisturbed kind issuedAt s e s') :=
  inferInstanceAs (Decidable (_ → _))

/-! ### One step -/

theorem data_of_get {cache : Option (Entry Params)} {data : TokenData Params}
    (h : get cache now = some data) : cache.map Entry.data = some data := by
  obtain ⟨entry, h_entry, rfl⟩ := Option.map_eq_some_iff.mp h
  rw [(Option.filter_eq_some_iff.mp h_entry).1]
  rfl

/-- **What a step can do.** Nothing is written, or a use is written back and succeeds. -/
theorem step_cases (kind : Kind) (s : State Params) (i : ℕ) (now : ℚ) :
    ((∀ data, (step kind s (i, now)).cache.map Entry.data = some data →
        s.cache.map Entry.data = some data) ∧
      (step kind s (i, now)).successes = s.successes ∧
      ∀ j data, (step kind s (i, now)).calls j = .counted data → s.calls j = .counted data ∨
        s.cache.map Entry.data = some data ∧ data.usageCount < data.maxUsage) ∨
    ∃ data, s.now ≤ now ∧ s.calls i = .counted data ∧
      (step kind s (i, now)).cache.map Entry.data =
        some { data with usageCount := data.usageCount + 1 } ∧
      (step kind s (i, now)).successes = s.successes ++
        [(now, ⟨data.params, data.maxUsage - (data.usageCount + 1 : ℕ)⟩)] ∧
      ∀ j data, (step kind s (i, now)).calls j = .counted data → s.calls j = .counted data := by
  by_cases h_now : now < s.now
  · left
    rw [step, if_pos h_now]
    exact ⟨fun data h => h, rfl, fun j data h => .inl h⟩
  simp only [step, if_neg h_now]
  -- a call other than `i` stays as it is, so what call `i` comes to is all that matters
  have h_others : ∀ {call : Call Params} {j : ℕ} {data : TokenData Params},
      Function.update s.calls i call j = .counted data →
        s.calls j = .counted data ∨ call = .counted data := by
    intro call j data h
    by_cases h_j : j = i
    · rw [h_j, Function.update_self] at h
      exact .inr h
    · rw [Function.update_of_ne h_j] at h
      exact .inl h
  match h_call : s.calls i with
  | .called =>
    left
    match h_get : get s.cache now with
    | none =>
      simp only [validate, h_get]
      exact ⟨fun data h => h, by simp, fun j data h => .inl ((h_others h).resolve_right nofun)⟩
    | some data =>
      by_cases h_used : data.usageCount ≥ data.maxUsage
      · simp only [validate, h_get, if_pos h_used]
        exact ⟨fun data h => h, by simp, fun j data h => .inl ((h_others h).resolve_right nofun)⟩
      · simp only [validate, h_get, if_neg h_used]
        refine ⟨fun data h => h, by simp, fun j data' h => (h_others h).imp_right fun h_data => ?_⟩
        obtain rfl : data = data' := Call.counted.inj h_data
        exact ⟨data_of_get h_get, not_le.mp h_used⟩
  | .counted data =>
    right
    exact ⟨data, not_lt.mp h_now, rfl, rfl, rfl, fun j data h => (h_others h).resolve_right nofun⟩
  | .overused maxUsage =>
    left
    simp only [validate]
    exact ⟨nofun, by simp, fun j data h => .inl ((h_others h).resolve_right nofun)⟩
  | .returned answer =>
    left
    simp only [validate]
    exact ⟨fun data h => h, by simp, fun j data h => .inl ((h_others h).resolve_right nofun)⟩

/-! ### What every run keeps -/

/-- The data are those of a token of the kind issued with `params`. -/
def TokenData.Genuine (kind : Kind) (params : Params) (data : TokenData Params) : Prop :=
  data.params = params ∧ data.maxUsage = kind.maxUsage

/-- All data of the token are genuine, and a call that holds some has found a use left. -/
structure Genuine (kind : Kind) (params : Params) (s : State Params) : Prop where
  cached : ∀ data, s.cache.map Entry.data = some data → data.Genuine kind params
  held : ∀ j data, s.calls j = .counted data →
    data.Genuine kind params ∧ data.usageCount < data.maxUsage
  returned : ∀ x ∈ s.successes, x.2.params = params

theorem Genuine.issue : Genuine kind params (issue kind params issuedAt) where
  cached data h := by
    obtain rfl := Option.some.inj h
    exact ⟨rfl, rfl⟩
  held _ _ := nofun
  returned _ := nofun

theorem Genuine.step (h : Genuine kind params s) (e : ℕ × ℚ) :
    Genuine kind params (step kind s e) := by
  obtain ⟨i, now⟩ := e
  obtain ⟨h_cache, h_same, h_held⟩ | ⟨data, -, h_call, h_cache, h_more, h_held⟩ :=
    step_cases kind s i now
  · refine ⟨fun data h_data => h.cached data (h_cache data h_data), fun j data h_data => ?_, ?_⟩
    · obtain h_old | ⟨h_read, h_left⟩ := h_held j data h_data
      · exact h.held j data h_old
      · exact ⟨h.cached data h_read, h_left⟩
    · rw [h_same]
      exact h.returned
  · obtain ⟨h_genuine, -⟩ := h.held i data h_call
    refine ⟨fun data' h_data => ?_,
      fun j data' h_data => h.held j data' (h_held j data' h_data), ?_⟩
    · rw [h_cache] at h_data
      obtain rfl := Option.some.inj h_data
      exact h_genuine
    · rw [h_more]
      intro x h_x
      obtain h_old | h_new := List.mem_append.mp h_x
      · exact h.returned x h_old
      · rw [List.mem_singleton.mp h_new]
        exact h_genuine.1

/-! ### What is kept without overlaps and in time -/

/-- The counter of uses is the number of successes, and they are within the limits. -/
structure Counted (kind : Kind) (params : Params) (issuedAt : ℚ) (s : State Params) : Prop where
  genuine : Genuine kind params s
  counter : ∀ data, s.cache.map Entry.data = some data → data.usageCount = s.successes.length
  limited : Limited kind params issuedAt s

theorem Counted.issue : Counted kind params issuedAt (issue kind params issuedAt) where
  genuine := .issue
  counter data h := by
    obtain rfl := Option.some.inj h
    rfl
  limited := ⟨Nat.zero_le _, nofun, nofun⟩

theorem Counted.step (h : Counted kind params issuedAt s) (e : ℕ × ℚ)
    (h_e : Undisturbed kind issuedAt s e (step kind s e)) :
    Counted kind params issuedAt (step kind s e) := by
  obtain ⟨i, now⟩ := e
  obtain ⟨h_cache, h_same, -⟩ | ⟨data, h_now, h_call, h_cache, h_more, -⟩ :=
    step_cases kind s i now
  · refine ⟨h.genuine.step (i, now), fun data h_data => ?_, ?_, ?_, ?_⟩ <;> rw [h_same]
    · exact h.counter data (h_cache data h_data)
    · exact h.limited.count
    · exact h.limited.lifetime
    · exact h.limited.params
  · obtain ⟨h_kept, h_time⟩ := h_e h_now data (by rw [h_call]; rfl)
    obtain ⟨⟨-, h_max⟩, h_left⟩ := h.genuine.held i data h_call
    -- the entry is as it was read, so the counter in hand has all successes so far
    have h_count : data.usageCount = s.successes.length := h.counter data h_kept
    have h_genuine : Genuine kind params (InstallToken.step kind s (i, now)) :=
      h.genuine.step (i, now)
    refine ⟨h_genuine, fun data' h_data => ?_, ?_, fun x h_x => ?_, h_genuine.returned⟩
    · rw [h_cache] at h_data
      obtain rfl := Option.some.inj h_data
      rw [h_more, List.length_append, ← h_count]
      rfl
    · rw [h_more, List.length_append, ← h_count, List.length_singleton, ← h_max]
      exact h_left
    · rw [h_more] at h_x
      obtain h_old | h_new := List.mem_append.mp h_x
      · exact h.limited.lifetime x h_old
      · rw [List.mem_singleton.mp h_new]
        exact h_time

section Examples

/-- Call after call, each with its `get` and its `set` at `now`. -/
private def uses (calls : List ℕ) (now : ℚ) : List (ℕ × ℚ) :=
  calls.flatMap fun i => [(i, now), (i, now)]

private def package : DownloadParams := ⟨"7", "n1"⟩

end Examples

end NodeMgmt.InstallToken
