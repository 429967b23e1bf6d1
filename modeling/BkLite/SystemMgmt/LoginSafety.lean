import BkLite.SystemMgmt.LoginThrottling

/-!
# Logins in order

What the counters, the accounts and the tokens are in a run in which every party makes its accesses
in order. A party is between two accesses with a copy of an account or of a count: `PartyOk` says
what is known of the copy, and it stays so because `Calm` does: nobody evaluates a password or a
code while the result of another is on its way. The three parts of the invariant follow the parts of
the claim: `Counts` the wrong passwords, `Codes` the wrong codes, `Single` the tokens of a
challenge.
-/

namespace SystemMgmt
namespace LoginThrottling

open Runs

variable {cfg : Config} {s : State} {w w' : World} {p q : Party} {parties : List Party}
  {i u : ℕ} {key : Key}

theorem unlocked_mono {a : Account} {now now' : ℕ} (h_le : now ≤ now') (h : ¬Locked a now) :
    ¬Locked a now' := by
  rintro ⟨t, h_t, h_lt⟩
  exact h ⟨t, h_t, Nat.lt_of_le_of_lt h_le h_lt⟩

theorem unlocked_of_none {a : Account} {now : ℕ} (h : a.accountLockedUntil = none) :
    ¬Locked a now := by
  rintro ⟨t, h_t, -⟩
  rw [h] at h_t
  exact Option.not_mem_none t h_t

/-! ### The parties -/

variable (cfg) in
/-- What is known of a copy that is to be saved over the row `base`. -/
def SavingOk (w : World) (u : ℕ) (base copy : Account) : Purpose → Prop
  | .wrongPassword => copy.disabled = base.disabled ∧
    copy.passwordErrorCount = base.passwordErrorCount + 1 ∧
    (copy.accountLockedUntil = none →
      base.accountLockedUntil = none ∧ copy.passwordErrorCount < cfg.maxRetryCount) ∧
    w.wrongPasswords u ≤ base.passwordErrorCount + 1
  | .rightPassword _ => copy = clearWrong base ∧ w.wrongPasswords u = 0
  | .temporaryPwd _ => copy = base ∧ copy.accountLockedUntil = none
  | .otpSecret _ => copy = { base with hasOtpSecret := true }
  | .token _ => copy = base ∧ copy.disabled = false ∧ ¬Locked copy w.now

variable (cfg) in
/-- What is known of a party between two accesses. -/
def PartyOk (w : World) : Party → Prop
  | .read _ _ copy _ => ¬Locked copy w.now
  | .saving u base copy purpose => SavingOk cfg w u base copy purpose
  | .proven _ _ _ copy => copy.disabled = false ∧ ¬Locked copy w.now
  | .invalidated _ _ _ copy => copy.disabled = false ∧ ¬Locked copy w.now
  | .recording key => w.wrongCodes key ≤ w.attemptsOf key + 1
  | .counted key attempts => w.wrongCodes key ≤ attempts + 1
  | _ => True

theorem SavingOk.disabled {base copy : Account} {purpose : Purpose}
    (h : SavingOk cfg w u base copy purpose) : copy.disabled = base.disabled := by
  cases purpose with
  | wrongPassword => exact h.1
  | rightPassword r => rw [h.1, clearWrong]
  | temporaryPwd r => rw [h.1]
  | otpSecret username => rw [show copy = { base with hasOtpSecret := true } from h]
  | token challenge => rw [h.1]

/-- Nothing that a party waits to save or to count is overtaken. -/
structure Calm (parties : List Party) (w w' : World) : Prop where
  now : w.now ≤ w'.now
  passwords : ∀ u, (∃ p ∈ parties, p.Unsaved u) → w'.wrongPasswords u ≤ w.wrongPasswords u
  codes : ∀ key, (∃ p ∈ parties, p.Uncounted key) → w'.wrongCodes key ≤ w.wrongCodes key ∧
    (w'.attemptsOf key = w.attemptsOf key ∨ w'.wrongCodes key ≤ w'.attemptsOf key)

theorem Calm.of_eq (h_now : w.now ≤ w'.now) (h_passwords : w'.wrongPasswords = w.wrongPasswords)
    (h_codes : w'.wrongCodes = w.wrongCodes) (h_attempts : w'.attempts = w.attempts) :
    Calm parties w w' where
  now := h_now
  passwords u _ := by rw [h_passwords]
  codes key _ := by
    refine ⟨by rw [h_codes], .inl ?_⟩
    rw [World.attemptsOf, h_attempts, World.attemptsOf]

theorem PartyOk.frame (h_calm : Calm parties w w') (h_p : p ∈ parties) (h : PartyOk cfg w p) :
    PartyOk cfg w' p := by
  cases p with
  | read r u copy now => exact unlocked_mono h_calm.now h
  | proven challenge u key copy => exact ⟨h.1, unlocked_mono h_calm.now h.2⟩
  | invalidated challenge u key copy => exact ⟨h.1, unlocked_mono h_calm.now h.2⟩
  | recording key =>
    obtain ⟨h_le, h_attempts⟩ := h_calm.codes key ⟨_, h_p, rfl⟩
    have h_old : w.wrongCodes key ≤ w.attemptsOf key + 1 := h
    change w'.wrongCodes key ≤ w'.attemptsOf key + 1
    omega
  | counted key attempts =>
    obtain ⟨h_le, -⟩ := h_calm.codes key ⟨_, h_p, rfl⟩
    exact h_le.trans h
  | saving u base copy purpose =>
    cases purpose with
    | wrongPassword =>
      obtain ⟨h_disabled, h_count, h_lock, h_wrong⟩ := h
      exact ⟨h_disabled, h_count, h_lock, (h_calm.passwords u ⟨_, h_p, rfl⟩).trans h_wrong⟩
    | rightPassword r =>
      have h_le := h_calm.passwords u ⟨_, h_p, rfl⟩
      refine ⟨h.1, Nat.le_zero.mp ?_⟩
      rwa [h.2] at h_le
    | temporaryPwd r => exact h
    | otpSecret username => exact h
    | token challenge => exact ⟨h.1, h.2.1, unlocked_mono h_calm.now h.2.2⟩
  | _ => trivial

/-! #### One access -/

theorem World.evaluateCode_now (correct : Bool) :
    (w.evaluateCode key correct).now = w.now := by
  unfold World.evaluateCode
  split_ifs
  · rfl
  · rfl

theorem World.evaluateCode_accounts (correct : Bool) :
    (w.evaluateCode key correct).accounts = w.accounts := by
  unfold World.evaluateCode
  split_ifs
  · rfl
  · rfl

theorem World.evaluateCode_wrongPasswords (correct : Bool) :
    (w.evaluateCode key correct).wrongPasswords = w.wrongPasswords := by
  unfold World.evaluateCode
  split_ifs
  · rfl
  · rfl

theorem World.evaluateCode_attemptsOf (correct : Bool) (key' : Key) :
    (w.evaluateCode key correct).attemptsOf key' = w.attemptsOf key' := by
  unfold World.evaluateCode
  split_ifs
  · rfl
  · rfl

theorem World.evaluateCode_wrongCodes (correct : Bool) (key' : Key) :
    (w.evaluateCode key correct).wrongCodes key' =
      if correct = false ∧ key' = key then w.wrongCodes key' + 1 else w.wrongCodes key' := by
  cases correct with
  | true => simp [World.evaluateCode]
  | false =>
    by_cases h_key : key' = key
    · simp [World.evaluateCode, h_key]
    · simp [World.evaluateCode, h_key]

theorem World.endPeriod_wrongCodes (key' : Key) :
    (w.endPeriod key).wrongCodes key' = if key' = key then 0 else w.wrongCodes key' := by
  by_cases h_key : key' = key
  · simp [World.endPeriod, h_key]
  · simp [World.endPeriod, h_key]

theorem World.endPeriod_attemptsOf (key' : Key) :
    (w.endPeriod key).attemptsOf key' = if key' = key then 0 else w.attemptsOf key' := by
  unfold World.attemptsOf World.endPeriod
  rw [Table.lookup_erase]
  split_ifs
  · rfl
  · rfl

theorem calm_endPeriod : Calm parties w (w.endPeriod key) where
  now := le_rfl
  passwords _ _ := le_rfl
  codes key' _ := by
    rw [World.endPeriod_wrongCodes, World.endPeriod_attemptsOf]
    by_cases h_key : key' = key
    · rw [if_pos h_key, if_pos h_key]
      exact ⟨Nat.zero_le _, .inr le_rfl⟩
    · rw [if_neg h_key, if_neg h_key]
      exact ⟨le_rfl, .inl rfl⟩

theorem calm_evaluateCode {correct : Bool} (h : CodeInOrder s key correct) :
    Calm s.parties s.world (s.world.evaluateCode key correct) where
  now := le_of_eq (World.evaluateCode_now correct).symm
  passwords u _ := by rw [World.evaluateCode_wrongPasswords]
  codes key' h_some := by
    rw [World.evaluateCode_wrongCodes, World.evaluateCode_attemptsOf]
    refine ⟨?_, .inl rfl⟩
    split_ifs with h_wrong
    · -- then a wrong code of this key is uncounted
      obtain ⟨h_correct, rfl⟩ := h_wrong
      obtain ⟨q, h_q, h_uncounted⟩ := h_some
      obtain h_right | ⟨-, h_free⟩ := h
      · rw [h_right] at h_correct
        cases h_correct
      · exact absurd h_uncounted (h_free q h_q)
    · exact le_rfl

theorem calm_write (h_ok : PartyOk cfg s.world p) (h_order : InOrder cfg s p) :
    Calm s.parties s.world (write s.world p) := by
  cases p with
  | read r u copy now =>
    refine ⟨le_rfl, fun u' h_some => ?_, fun key h_some => ⟨le_rfl, .inl rfl⟩⟩
    dsimp only [write]
    by_cases h_u : u' = u
    · subst h_u
      rw [Function.update_self]
      obtain h_right | ⟨-, -, h_free⟩ := h_order
      · rw [if_pos h_right]
        exact Nat.zero_le _
      · obtain ⟨q, h_q, h_unsaved⟩ := h_some
        exact absurd h_unsaved (h_free q h_q)
    · rw [Function.update_of_ne h_u]
  | holding challenge data ip copy correct => exact calm_evaluateCode h_order.1
  | codeHolding key correct => exact calm_evaluateCode h_order
  | invalidated challenge u key copy => exact calm_endPeriod
  | resetting key => exact calm_endPeriod
  | counted key attempts =>
    refine ⟨le_rfl, fun u h_some => le_rfl, fun key' h_some => ⟨le_rfl, ?_⟩⟩
    have h_count : s.world.wrongCodes key ≤ attempts + 1 := h_ok
    dsimp only [write, World.attemptsOf]
    rw [Table.lookup_insert]
    by_cases h_key : key' = key
    · subst h_key
      rw [if_pos rfl]
      exact .inr h_count
    · rw [if_neg h_key]
      exact .inl rfl
  | _ => exact .of_eq le_rfl rfl rfl rfl

theorem partyOk_getUserLoginToken {copy : Account} (r : LoginRequest)
    (h_lock : copy.accountLockedUntil = none) : PartyOk cfg w (getUserLoginToken u copy r) := by
  unfold getUserLoginToken
  split_ifs with h_disabled h_otp h_secret
  · trivial
  · trivial
  · exact rfl
  · exact ⟨rfl, Bool.not_eq_true _ ▸ h_disabled, unlocked_of_none h_lock⟩

theorem savingOk_countWrong {copy : Account} (now : ℕ)
    (h_wrong : w.wrongPasswords u ≤ copy.passwordErrorCount + 1) :
    SavingOk cfg w u copy (countWrong cfg copy now) .wrongPassword := by
  refine ⟨rfl, rfl, fun h_lock => ?_, h_wrong⟩
  dsimp only [countWrong] at h_lock ⊢
  by_cases h_many : copy.passwordErrorCount + 1 ≥ cfg.maxRetryCount
  · rw [if_pos h_many] at h_lock
    cases h_lock
  · rw [if_neg h_many] at h_lock
    exact ⟨h_lock, Nat.lt_of_not_ge h_many⟩

theorem partyOk_saved {base copy : Account} {purpose : Purpose}
    (h : SavingOk cfg w u base copy purpose) (w'' : World) :
    PartyOk cfg w' (next cfg w'' (.saving u base copy purpose)) := by
  cases purpose with
  | wrongPassword => trivial
  | token challenge => trivial
  | otpSecret username => trivial
  | temporaryPwd r => exact partyOk_getUserLoginToken r h.2
  | rightPassword r =>
    have h_lock : copy.accountLockedUntil = none := by rw [h.1, clearWrong]
    dsimp only [next]
    cases r.expiry with
    | valid => exact partyOk_getUserLoginToken r h_lock
    | expired => trivial
    | expiredAdmin => exact ⟨rfl, h_lock⟩

/-! #### The counters -/

/-- The wrong passwords, beside the accounts. -/
structure Counts (cfg : Config) (s : State) : Prop where
  rows : ∀ u a, s.world.accounts.lookup u = some a → a.accountLockedUntil = none →
    a.passwordErrorCount < cfg.maxRetryCount ∨ a.passwordErrorCount = 0
  absent : ∀ u, s.world.accounts.lookup u = none → s.world.wrongPasswords u = 0
  counted : ∀ u a, s.world.accounts.lookup u = some a → (∀ p ∈ s.parties, ¬p.Unsaved u) →
    s.world.wrongPasswords u ≤ a.passwordErrorCount
  limited : ∀ u a, s.world.accounts.lookup u = some a → a.accountLockedUntil = none →
    s.world.wrongPasswords u ≤ cfg.maxRetryCount

/-- The wrong codes, beside the counts in the cache. -/
structure Codes (s : State) : Prop where
  recorded : ∀ key, (∀ p ∈ s.parties, ¬p.Uncounted key) →
    s.world.wrongCodes key ≤ s.world.attemptsOf key
  limited : ∀ key, s.world.wrongCodes key ≤ rateLimitMaxAttempts

def inFlight (challenge : ℕ) : Party → ℕ
  | .invalidated challenge' _ _ _ => if challenge' = challenge then 1 else 0
  | .saving _ _ _ (.token challenge') => if challenge' = some challenge then 1 else 0
  | _ => 0

def World.tokensFor (w : World) (challenge : ℕ) : ℕ :=
  (w.tokens.filter (·.2 = some challenge)).length

def Single (s : State) : Prop :=
  ∀ challenge, s.world.tokensFor challenge + (s.parties.map (inFlight challenge)).sum ≤
    if challenge ∈ s.world.redeemed then 1 else 0

/-- **The invariant.** -/
structure Inv (cfg : Config) (s : State) : Prop where
  parties : ∀ p ∈ s.parties, PartyOk cfg s.world p
  counts : Counts cfg s
  codes : Codes s
  single : Single s

theorem wrong_evaluated {correct : Bool} (h_inv : Inv cfg s) (h : CodeInOrder s key correct)
    (h_wrong : ¬correct = true) :
    PartyOk cfg (s.world.evaluateCode key correct) (.recording key) := by
  obtain h_right | ⟨-, h_free⟩ := h
  · exact absurd h_right h_wrong
  · change World.wrongCodes _ key ≤ World.attemptsOf _ key + 1
    rw [World.evaluateCode_attemptsOf, World.evaluateCode_wrongCodes,
      if_pos ⟨Bool.not_eq_true _ ▸ h_wrong, rfl⟩]
    exact Nat.add_le_add_right (h_inv.codes.recorded key h_free) 1

theorem partyOk_next (h_inv : Inv cfg s) (h_ok : PartyOk cfg s.world p)
    (h_order : InOrder cfg s p) : PartyOk cfg (write s.world p) (next cfg s.world p) := by
  cases p with
  | login r =>
    dsimp only [next]
    cases cfg.loginAccount r.username with
    | none => trivial
    | some u =>
      dsimp only
      cases s.world.accounts.lookup u with
      | none => trivial
      | some copy =>
        dsimp only
        by_cases h_lock : Locked copy s.world.now
        · rw [if_pos h_lock]
          trivial
        · rw [if_neg h_lock]
          exact h_lock
  | read r u copy now =>
    dsimp only [next]
    by_cases h_correct : r.correct = true
    · rw [if_pos h_correct]
      refine ⟨rfl, ?_⟩
      dsimp only [write]
      rw [Function.update_self, if_pos h_correct]
    · -- the wrong passwords so far are in the count that was read
      rw [if_neg h_correct]
      refine savingOk_countWrong now ?_
      dsimp only [write]
      rw [Function.update_self, if_neg h_correct]
      obtain h_right | ⟨-, h_row, h_free⟩ := h_order
      · exact absurd h_right h_correct
      · exact Nat.add_le_add_right (h_inv.counts.counted u copy h_row h_free) 1
  | saving u base copy purpose => exact partyOk_saved h_ok s.world
  | challenging u username => trivial
  | verifyLogin challenge ip correct =>
    dsimp only [next]
    cases s.world.challenges.lookup challenge with
    | none => trivial
    | some data => trivial
  | challenged challenge data ip correct =>
    dsimp only [next]
    split_ifs
    · trivial
    · trivial
  | allowed challenge data ip correct =>
    dsimp only [next]
    cases s.world.accounts.lookup data.userId with
    | none => trivial
    | some copy =>
      dsimp only
      split_ifs
      · trivial
      · trivial
  | holding challenge data ip copy correct =>
    dsimp only [next, write]
    by_cases h_correct : correct = true
    · rw [if_pos h_correct, World.evaluateCode, if_pos h_correct]
      exact h_order.2 h_correct
    · rw [if_neg h_correct]
      exact wrong_evaluated h_inv h_order.1 h_correct
  | proven challenge u key copy => exact h_ok
  | invalidated challenge u key copy => exact ⟨rfl, h_ok⟩
  | recording key => exact h_ok
  | counted key attempts => trivial
  | verifyCode key correct =>
    dsimp only [next]
    split_ifs
    · trivial
    · trivial
  | codeAllowed key correct =>
    dsimp only [next]
    cases cfg.firstAccount key.2 with
    | none => trivial
    | some u =>
      dsimp only
      cases s.world.accounts.lookup u with
      | none => trivial
      | some copy =>
        dsimp only
        split_ifs
        · trivial
        · trivial
  | codeHolding key correct =>
    dsimp only [next, write]
    by_cases h_correct : correct = true
    · rw [if_pos h_correct]
      trivial
    · rw [if_neg h_correct]
      exact wrong_evaluated h_inv h_order h_correct
  | resetting key => trivial
  | finished => trivial

/-! ### One step -/

theorem Counts.of_eq {t : State} (h : Counts cfg s)
    (h_accounts : t.world.accounts = s.world.accounts)
    (h_wrong : t.world.wrongPasswords = s.world.wrongPasswords)
    (h_unsaved : ∀ u, (∃ p ∈ s.parties, p.Unsaved u) → ∃ p ∈ t.parties, p.Unsaved u) :
    Counts cfg t where
  rows u a h_row := by
    rw [h_accounts] at h_row
    exact h.rows u a h_row
  absent u h_none := by
    rw [h_accounts] at h_none
    rw [h_wrong, h.absent u h_none]
  counted u a h_row h_free := by
    rw [h_accounts] at h_row
    rw [h_wrong]
    refine h.counted u a h_row fun p h_p h_unsaved_p => ?_
    obtain ⟨q, h_q, h_unsaved_q⟩ := h_unsaved u ⟨p, h_p, h_unsaved_p⟩
    exact h_free q h_q h_unsaved_q
  limited u a h_row h_lock := by
    rw [h_accounts] at h_row
    rw [h_wrong]
    exact h.limited u a h_row h_lock

theorem Counts.insert {t : State} {a : Account} (h : Counts cfg s)
    (h_accounts : t.world.accounts = s.world.accounts.insert u a)
    (h_wrong : t.world.wrongPasswords = s.world.wrongPasswords)
    (h_lock : a.accountLockedUntil = none →
      (a.passwordErrorCount < cfg.maxRetryCount ∨ a.passwordErrorCount = 0) ∧
        s.world.wrongPasswords u ≤ cfg.maxRetryCount)
    (h_count : (∀ p ∈ t.parties, ¬p.Unsaved u) →
      s.world.wrongPasswords u ≤ a.passwordErrorCount)
    (h_unsaved : ∀ u', u' ≠ u → (∃ p ∈ s.parties, p.Unsaved u') → ∃ p ∈ t.parties, p.Unsaved u') :
    Counts cfg t where
  rows u' a' h_row h_none := by
    rw [h_accounts, Table.lookup_insert] at h_row
    split_ifs at h_row with h_u
    · obtain rfl := Option.some.inj h_row
      exact (h_lock h_none).1
    · exact h.rows u' a' h_row h_none
  absent u' h_row := by
    rw [h_accounts, Table.lookup_insert] at h_row
    split_ifs at h_row with h_u
    rw [h_wrong, h.absent u' h_row]
  counted u' a' h_row h_free := by
    rw [h_accounts, Table.lookup_insert] at h_row
    rw [h_wrong]
    split_ifs at h_row with h_u
    · obtain rfl := Option.some.inj h_row
      rw [h_u] at h_free ⊢
      exact h_count h_free
    · refine h.counted u' a' h_row fun p h_p h_unsaved_p => ?_
      obtain ⟨q, h_q, h_unsaved_q⟩ := h_unsaved u' h_u ⟨p, h_p, h_unsaved_p⟩
      exact h_free q h_q h_unsaved_q
  limited u' a' h_row h_none := by
    rw [h_accounts, Table.lookup_insert] at h_row
    rw [h_wrong]
    split_ifs at h_row with h_u
    · obtain rfl := Option.some.inj h_row
      rw [h_u]
      exact (h_lock h_none).2
    · exact h.limited u' a' h_row h_none

theorem Counts.modify (h : Counts cfg s) (u : ℕ) {f : Account → Account}
    (h_count : ∀ a, (f a).passwordErrorCount = a.passwordErrorCount)
    (h_lock : ∀ a, (f a).accountLockedUntil = none → a.accountLockedUntil = none) :
    Counts cfg { s with world := { s.world with accounts := s.world.accounts.modify u f } } := by
  cases h_row : s.world.accounts.lookup u with
  | none =>
    refine h.of_eq ?_ rfl fun u' h_some => h_some
    unfold Table.modify
    rw [h_row]
  | some a =>
    refine h.insert (u := u) (a := f a) ?_ rfl ?_ ?_ fun u' _ h_some => h_some
    · unfold Table.modify
      rw [h_row]
    · intro h_none
      rw [h_count]
      exact ⟨h.rows u a h_row (h_lock a h_none), h.limited u a h_row (h_lock a h_none)⟩
    · intro h_free
      rw [h_count]
      exact h.counted u a h_row h_free

theorem Counts.create (h : Counts cfg s) (h_row : s.world.accounts.lookup u = none) :
    Counts cfg { s with world := { s.world with accounts := s.world.accounts.insert u {} } } := by
  refine h.insert (u := u) (a := {}) rfl rfl (fun _ => ⟨.inr rfl, ?_⟩) (fun _ => ?_)
    fun u' _ h_some => h_some
  · rw [h.absent u h_row]
    exact Nat.zero_le _
  · rw [h.absent u h_row]

theorem Counts.read {r : LoginRequest} {copy : Account} {now : ℕ} (h : Counts cfg s)
    (h_p : s.parties[i]? = some (.read r u copy now))
    (h_order : InOrder cfg s (.read r u copy now)) :
    Counts cfg ⟨write s.world (.read r u copy now),
      s.parties.set i (next cfg s.world (.read r u copy now))⟩ := by
  have h_unsaved : (next cfg s.world (.read r u copy now)).Unsaved u := by
    dsimp only [next]
    split_ifs
    · rfl
    · rfl
  have h_other : ∀ u', u' ≠ u →
      (write s.world (.read r u copy now)).wrongPasswords u' = s.world.wrongPasswords u' :=
    fun u' h_u => Function.update_of_ne h_u _ _
  have h_here : (write s.world (.read r u copy now)).wrongPasswords u =
      if r.correct = true then 0 else s.world.wrongPasswords u + 1 := Function.update_self _ _ _
  constructor
  · exact h.rows
  · intro u' h_row
    by_cases h_u : u' = u
    · obtain rfl := h_u
      rw [h_here]
      obtain h_right | ⟨-, h_read, -⟩ := h_order
      · rw [if_pos h_right]
      · rw [show s.world.accounts.lookup u' = none from h_row] at h_read
        cases h_read
    · rw [h_other u' h_u]
      exact h.absent u' h_row
  · intro u' a h_row h_free
    by_cases h_u : u' = u
    · -- the result is unsaved
      obtain rfl := h_u
      obtain ⟨q, h_q, h_unsaved_q⟩ := Rows.exists_set h_p (Q := (Party.Unsaved u')) h_unsaved
      exact absurd h_unsaved_q (h_free q h_q)
    · rw [h_other u' h_u]
      refine h.counted u' a h_row fun q h_q h_unsaved_q => ?_
      obtain ⟨q', h_q', h_unsaved'⟩ := Rows.exists_set_of_exists h_p (Q := (Party.Unsaved u'))
        (fun h_old => (h_old : False).elim) ⟨q, h_q, h_unsaved_q⟩
      exact h_free q' h_q' h_unsaved'
  · intro u' a h_row h_lock
    by_cases h_u : u' = u
    · obtain rfl := h_u
      rw [h_here]
      split_ifs with h_correct
      · exact Nat.zero_le _
      · obtain h_right | ⟨h_pos, h_read, h_free⟩ := h_order
        · exact absurd h_right h_correct
        · have h_wrong := h.counted u' a h_row h_free
          have h_few := h.rows u' a h_row h_lock
          omega
    · rw [h_other u' h_u]
      exact h.limited u' a h_row h_lock

theorem Counts.save {base copy : Account} {purpose : Purpose} (h : Counts cfg s)
    (h_p : s.parties[i]? = some (.saving u base copy purpose))
    (h_ok : SavingOk cfg s.world u base copy purpose)
    (h_row : s.world.accounts.lookup u = some base) :
    Counts cfg ⟨write s.world (.saving u base copy purpose),
      s.parties.set i (next cfg s.world (.saving u base copy purpose))⟩ := by
  refine h.insert (u := u) (a := copy) rfl rfl ?_ ?_ fun u' h_u h_some => ?_
  · intro h_none
    cases purpose with
    | wrongPassword =>
      obtain ⟨-, -, h_lock, -⟩ := h_ok
      exact ⟨.inl (h_lock h_none).2, h.limited u base h_row (h_lock h_none).1⟩
    | rightPassword r =>
      rw [h_ok.1, h_ok.2]
      exact ⟨.inr rfl, Nat.zero_le _⟩
    | temporaryPwd r =>
      rw [h_ok.1] at h_none ⊢
      exact ⟨h.rows u base h_row h_none, h.limited u base h_row h_none⟩
    | otpSecret username =>
      obtain rfl : copy = { base with hasOtpSecret := true } := h_ok
      exact ⟨h.rows u base h_row h_none, h.limited u base h_row h_none⟩
    | token challenge =>
      rw [h_ok.1] at h_none ⊢
      exact ⟨h.rows u base h_row h_none, h.limited u base h_row h_none⟩
  · -- a save that is not for a result keeps the count, and who has one unsaved
    intro h_free
    have h_counted : ¬(Party.saving u base copy purpose).Unsaved u →
        s.world.wrongPasswords u ≤ base.passwordErrorCount := by
      intro h_not
      refine h.counted u base h_row fun q h_q h_unsaved => ?_
      obtain ⟨q', h_q', h_unsaved'⟩ := Rows.exists_set_of_exists h_p (Q := (Party.Unsaved u))
        (fun h_old => absurd h_old h_not) ⟨q, h_q, h_unsaved⟩
      exact h_free q' h_q' h_unsaved'
    cases purpose with
    | wrongPassword =>
      obtain ⟨-, h_count, -, h_wrong⟩ := h_ok
      rwa [h_count]
    | rightPassword r =>
      rw [h_ok.2]
      exact Nat.zero_le _
    | temporaryPwd r =>
      rw [h_ok.1]
      exact h_counted id
    | otpSecret username =>
      obtain rfl : copy = { base with hasOtpSecret := true } := h_ok
      exact h_counted id
    | token challenge =>
      rw [h_ok.1]
      exact h_counted id
  · refine Rows.exists_set_of_exists h_p (fun h_old => ?_) h_some
    cases purpose with
    | wrongPassword => exact absurd (Eq.symm h_old) h_u
    | rightPassword r => exact absurd (Eq.symm h_old) h_u
    | _ => exact h_old.elim

theorem Counts.serve (h : Counts cfg s) (h_p : s.parties[i]? = some p)
    (h_ok : PartyOk cfg s.world p) (h_order : InOrder cfg s p) :
    Counts cfg ⟨write s.world p, s.parties.set i (next cfg s.world p)⟩ := by
  cases p with
  | read r u copy now => exact h.read h_p h_order
  | saving u base copy purpose => exact h.save h_p h_ok h_order
  | holding challenge data ip copy correct =>
    exact h.of_eq (World.evaluateCode_accounts correct)
      (World.evaluateCode_wrongPasswords correct) fun u => Rows.exists_set_of_exists h_p False.elim
  | codeHolding key correct =>
    exact h.of_eq (World.evaluateCode_accounts correct)
      (World.evaluateCode_wrongPasswords correct) fun u => Rows.exists_set_of_exists h_p False.elim
  | _ => exact h.of_eq rfl rfl fun u => Rows.exists_set_of_exists h_p False.elim

theorem Codes.of_eq {t : State} (h : Codes s)
    (h_keys : ∀ key, t.world.wrongCodes key = 0 ∨
      t.world.wrongCodes key = s.world.wrongCodes key ∧
        t.world.attemptsOf key = s.world.attemptsOf key)
    (h_uncounted : ∀ key, (∃ p ∈ s.parties, p.Uncounted key) → ∃ p ∈ t.parties, p.Uncounted key) :
    Codes t where
  recorded key h_free := by
    obtain h_zero | ⟨h_wrong, h_attempts⟩ := h_keys key
    · rw [h_zero]
      exact Nat.zero_le _
    · rw [h_wrong, h_attempts]
      refine h.recorded key fun p h_p h_old => ?_
      obtain ⟨q, h_q, h_new⟩ := h_uncounted key ⟨p, h_p, h_old⟩
      exact h_free q h_q h_new
  limited key := by
    obtain h_zero | ⟨h_wrong, -⟩ := h_keys key
    · rw [h_zero]
      exact Nat.zero_le _
    · rw [h_wrong]
      exact h.limited key

theorem World.endPeriod_keys (key' : Key) : (w.endPeriod key).wrongCodes key' = 0 ∨
    (w.endPeriod key).wrongCodes key' = w.wrongCodes key' ∧
      (w.endPeriod key).attemptsOf key' = w.attemptsOf key' := by
  rw [World.endPeriod_wrongCodes, World.endPeriod_attemptsOf]
  by_cases h_key : key' = key
  · rw [if_pos h_key]
    exact .inl rfl
  · rw [if_neg h_key, if_neg h_key]
    exact .inr ⟨rfl, rfl⟩

theorem Codes.evaluate {correct : Bool} {p' : Party} (h : Codes s) (h_p : s.parties[i]? = some p)
    (h_none : ∀ key', ¬p.Uncounted key') (h_order : CodeInOrder s key correct)
    (h_next : correct = false → p'.Uncounted key) :
    Codes ⟨s.world.evaluateCode key correct, s.parties.set i p'⟩ := by
  have h_uncounted : ∀ key', (∃ q ∈ s.parties, q.Uncounted key') →
      ∃ q ∈ s.parties.set i p', q.Uncounted key' := fun key' =>
    Rows.exists_set_of_exists h_p fun h_old => absurd h_old (h_none key')
  cases correct with
  | true => exact h.of_eq (fun key' => .inr ⟨rfl, rfl⟩) h_uncounted
  | false =>
    obtain h_right | ⟨h_few, h_free⟩ := h_order
    · cases h_right
    have h_counted := h.recorded key h_free
    constructor
    · intro key' h_free'
      rw [World.evaluateCode_wrongCodes, World.evaluateCode_attemptsOf]
      by_cases h_key : key' = key
      · -- it has not been counted yet
        obtain rfl := h_key
        obtain ⟨q, h_q, h_new⟩ := Rows.exists_set h_p (Q := (Party.Uncounted key')) (h_next rfl)
        exact absurd h_new (h_free' q h_q)
      · rw [if_neg fun h_both => h_key h_both.2]
        refine h.recorded key' fun q h_q h_old => ?_
        obtain ⟨q', h_q', h_new⟩ := h_uncounted key' ⟨q, h_q, h_old⟩
        exact h_free' q' h_q' h_new
    · intro key'
      rw [World.evaluateCode_wrongCodes]
      split_ifs with h_key
      · rw [h_key.2]
        omega
      · exact h.limited key'

theorem Codes.count {attempts : ℕ} (h : Codes s)
    (h_p : s.parties[i]? = some (.counted key attempts))
    (h_ok : s.world.wrongCodes key ≤ attempts + 1) :
    Codes ⟨write s.world (.counted key attempts), s.parties.set i .finished⟩ where
  limited := h.limited
  recorded key' h_free := by
    dsimp only [write, World.attemptsOf]
    rw [Table.lookup_insert]
    by_cases h_key : key' = key
    · rw [if_pos h_key, h_key]
      exact h_ok
    · rw [if_neg h_key]
      refine h.recorded key' fun q h_q h_old => ?_
      obtain ⟨q', h_q', h_new⟩ := Rows.exists_set_of_exists h_p (Q := (Party.Uncounted key'))
        (fun h_same => absurd (Eq.symm h_same) h_key) ⟨q, h_q, h_old⟩
      exact h_free q' h_q' h_new

theorem Codes.serve (h : Codes s) (h_p : s.parties[i]? = some p)
    (h_ok : PartyOk cfg s.world p) (h_order : InOrder cfg s p) :
    Codes ⟨write s.world p, s.parties.set i (next cfg s.world p)⟩ := by
  have h_same : ∀ key, s.world.wrongCodes key = 0 ∨
      s.world.wrongCodes key = s.world.wrongCodes key ∧
        s.world.attemptsOf key = s.world.attemptsOf key := fun key => .inr ⟨rfl, rfl⟩
  cases p with
  | holding challenge data ip copy correct =>
    refine h.evaluate h_p (fun _ => id) h_order.1 fun h_wrong => ?_
    rw [next, h_wrong]
    rfl
  | codeHolding key correct =>
    refine h.evaluate h_p (fun _ => id) h_order fun h_wrong => ?_
    rw [next, h_wrong]
    rfl
  | invalidated challenge u key copy =>
    exact h.of_eq World.endPeriod_keys fun key' => Rows.exists_set_of_exists h_p False.elim
  | resetting key =>
    exact h.of_eq World.endPeriod_keys fun key' => Rows.exists_set_of_exists h_p False.elim
  | recording key => exact h.of_eq h_same fun key' => Rows.exists_set_of_exists h_p id
  | counted key attempts => exact h.count h_p h_ok
  | _ => exact h.of_eq h_same fun key' => Rows.exists_set_of_exists h_p False.elim

theorem World.evaluateCode_tokens (correct : Bool) :
    (w.evaluateCode key correct).tokens = w.tokens := by
  unfold World.evaluateCode
  split_ifs
  · rfl
  · rfl

theorem inFlight_getUserLoginToken (challenge : ℕ) (copy : Account) (r : LoginRequest) :
    inFlight challenge (getUserLoginToken u copy r) = 0 := by
  unfold getUserLoginToken
  split_ifs
  · rfl
  · rfl
  · rfl
  · rfl

theorem flow_saving (challenge : ℕ) {base copy : Account} (purpose : Purpose) :
    (write w (.saving u base copy purpose)).tokensFor challenge +
        inFlight challenge (next cfg w (.saving u base copy purpose)) =
      w.tokensFor challenge + inFlight challenge (.saving u base copy purpose) := by
  cases purpose with
  | wrongPassword => rfl
  | otpSecret username => rfl
  | temporaryPwd r =>
    dsimp only [next]
    rw [inFlight_getUserLoginToken]
    rfl
  | rightPassword r =>
    dsimp only [next]
    cases r.expiry with
    | valid =>
      dsimp only
      rw [inFlight_getUserLoginToken]
      rfl
    | expired => rfl
    | expiredAdmin => rfl
  | token challenge' =>
    dsimp only [write, next, inFlight, World.tokensFor]
    rw [List.filter_append, List.length_append, List.filter_singleton]
    by_cases h_here : challenge' = some challenge
    · simp [h_here]
    · simp [h_here]

theorem flow (challenge : ℕ) (h : ∀ challenge' u key copy, p ≠ .proven challenge' u key copy) :
    (write w p).tokensFor challenge + inFlight challenge (next cfg w p) =
      w.tokensFor challenge + inFlight challenge p := by
  cases p with
  | proven challenge' u key copy => exact absurd rfl (h challenge' u key copy)
  | saving u base copy purpose => exact flow_saving challenge purpose
  | login r =>
    dsimp only [next]
    cases cfg.loginAccount r.username with
    | none => rfl
    | some u =>
      dsimp only
      cases w.accounts.lookup u with
      | none => rfl
      | some copy =>
        dsimp only
        split_ifs
        · rfl
        · rfl
  | read r u copy now =>
    dsimp only [next]
    split_ifs
    · rfl
    · rfl
  | verifyLogin challenge' ip correct =>
    dsimp only [next]
    cases w.challenges.lookup challenge' with
    | none => rfl
    | some data => rfl
  | challenged challenge' data ip correct =>
    dsimp only [next]
    split_ifs
    · rfl
    · rfl
  | allowed challenge' data ip correct =>
    dsimp only [next]
    cases w.accounts.lookup data.userId with
    | none => rfl
    | some copy =>
      dsimp only
      split_ifs
      · rfl
      · rfl
  | holding challenge' data ip copy correct =>
    dsimp only [next, write, World.tokensFor]
    rw [World.evaluateCode_tokens]
    split_ifs
    · rfl
    · rfl
  | invalidated challenge' u key copy =>
    dsimp only [next, write, inFlight]
    rw [World.endPeriod, World.tokensFor, World.tokensFor]
    simp only [Option.some.injEq]
  | verifyCode key correct =>
    dsimp only [next]
    split_ifs
    · rfl
    · rfl
  | codeAllowed key correct =>
    dsimp only [next]
    cases cfg.firstAccount key.2 with
    | none => rfl
    | some u =>
      dsimp only
      cases w.accounts.lookup u with
      | none => rfl
      | some copy =>
        dsimp only
        split_ifs
        · rfl
        · rfl
  | codeHolding key correct =>
    dsimp only [next, write, World.tokensFor]
    rw [World.evaluateCode_tokens]
    split_ifs
    · rfl
    · rfl
  | _ => rfl

theorem write_redeemed (h : ∀ challenge u key copy, p ≠ .proven challenge u key copy) :
    (write w p).redeemed = w.redeemed := by
  cases p with
  | proven challenge u key copy => exact absurd rfl (h challenge u key copy)
  | holding challenge data ip copy correct =>
    dsimp only [write, World.evaluateCode]
    split_ifs
    · rfl
    · rfl
  | codeHolding key correct =>
    dsimp only [write, World.evaluateCode]
    split_ifs
    · rfl
    · rfl
  | _ => rfl

theorem Single.prove {challenge : ℕ} {copy : Account} (h : Single s)
    (h_p : s.parties[i]? = some (.proven challenge u key copy))
    (h_order : challenge ∉ s.world.redeemed) :
    Single ⟨write s.world (.proven challenge u key copy),
      s.parties.set i (.invalidated challenge u key copy)⟩ := by
  intro challenge'
  have h_before := h challenge'
  have h_sum := Rows.sum_map_set (inFlight challenge') (.invalidated challenge u key copy) h_p
  dsimp only [inFlight] at h_sum
  change s.world.tokensFor challenge' +
      ((s.parties.set i (.invalidated challenge u key copy)).map (inFlight challenge')).sum ≤
    if challenge' ∈ challenge :: s.world.redeemed then 1 else 0
  by_cases h_here : challenge = challenge'
  · -- until now it has neither a token nor one on its way
    subst h_here
    rw [if_neg h_order] at h_before
    rw [if_pos rfl] at h_sum
    rw [if_pos List.mem_cons_self]
    omega
  · rw [if_neg h_here] at h_sum
    have h_mem : challenge' ∈ challenge :: s.world.redeemed ↔ challenge' ∈ s.world.redeemed := by
      rw [List.mem_cons, or_iff_right fun h_eq => h_here h_eq.symm]
    rw [if_congr h_mem rfl rfl]
    omega

theorem Single.serve (h : Single s) (h_p : s.parties[i]? = some p) (h_order : InOrder cfg s p) :
    Single ⟨write s.world p, s.parties.set i (next cfg s.world p)⟩ := by
  by_cases h_proven : ∃ challenge u key copy, p = .proven challenge u key copy
  · obtain ⟨challenge, u, key, copy, rfl⟩ := h_proven
    exact h.prove h_p h_order
  · push Not at h_proven
    intro challenge
    have h_before := h challenge
    have h_sum := Rows.sum_map_set (inFlight challenge) (next cfg s.world p) h_p
    have h_flow := @flow cfg s.world p challenge h_proven
    dsimp only
    rw [write_redeemed h_proven]
    omega

theorem Inv.serve (h : Inv cfg s) (h_p : s.parties[i]? = some p) (h_order : InOrder cfg s p) :
    Inv cfg ⟨write s.world p, s.parties.set i (next cfg s.world p)⟩ := by
  have h_ok := h.parties p (List.mem_of_getElem? h_p)
  refine ⟨fun q h_q => ?_, h.counts.serve h_p h_ok h_order, h.codes.serve h_p h_ok h_order,
    h.single.serve h_p h_order⟩
  obtain h_old | rfl := List.mem_or_eq_of_mem_set h_q
  · exact (h.parties q h_old).frame (calm_write h_ok h_order) h_old
  · exact partyOk_next h h_ok h_order

theorem Inv.spawn (h : Inv cfg s) (h_ok : PartyOk cfg s.world p)
    (h_flight : ∀ challenge, inFlight challenge p = 0) :
    Inv cfg { s with parties := s.parties ++ [p] } := by
  have h_some : ∀ {Q : Party → Prop}, (∃ q ∈ s.parties, Q q) → ∃ q ∈ s.parties ++ [p], Q q := by
    rintro Q ⟨q, h_q, h_Q⟩
    exact ⟨q, List.mem_append_left [p] h_q, h_Q⟩
  refine ⟨fun q h_q => ?_, h.counts.of_eq rfl rfl fun _ => h_some,
    h.codes.of_eq (fun _ => .inr ⟨rfl, rfl⟩) fun _ => h_some, fun challenge => ?_⟩
  · obtain h_old | h_new := List.mem_append.mp h_q
    · exact h.parties q h_old
    · rwa [List.mem_singleton.mp h_new]
  · have h_before := h.single challenge
    dsimp only
    rwa [List.map_append, List.sum_append, List.map_singleton, List.sum_singleton, h_flight,
      Nat.add_zero]

theorem Inv.between (h : Inv cfg s) (h_calm : Calm s.parties s.world w')
    (h_counts : Counts cfg { s with world := w' })
    (h_keys : ∀ key, w'.wrongCodes key = 0 ∨ w'.wrongCodes key = s.world.wrongCodes key ∧
      w'.attemptsOf key = s.world.attemptsOf key)
    (h_tokens : w'.tokens = s.world.tokens) (h_redeemed : w'.redeemed = s.world.redeemed) :
    Inv cfg { s with world := w' } := by
  refine ⟨fun q h_q => (h.parties q h_q).frame h_calm h_q, h_counts,
    h.codes.of_eq h_keys fun _ => id, fun challenge => ?_⟩
  have h_before := h.single challenge
  dsimp only
  rwa [World.tokensFor, h_tokens, h_redeemed]

theorem Inv.step {action : Action} (h : Inv cfg s)
    (h_guard : Guard cfg s action (step cfg s action)) : Inv cfg (step cfg s action) := by
  have h_counts : ∀ {w' : World}, w'.accounts = s.world.accounts →
      w'.wrongPasswords = s.world.wrongPasswords → Counts cfg { s with world := w' } :=
    fun h_accounts h_wrong => h.counts.of_eq h_accounts h_wrong fun _ => id
  have h_same : ∀ key, s.world.wrongCodes key = 0 ∨
      s.world.wrongCodes key = s.world.wrongCodes key ∧
        s.world.attemptsOf key = s.world.attemptsOf key := fun key => .inr ⟨rfl, rfl⟩
  cases action with
  | create u =>
    dsimp only [LoginThrottling.step]
    cases h_row : s.world.accounts.lookup u with
    | some a => exact h
    | none => exact h.between (.of_eq le_rfl rfl rfl rfl) (h.counts.create h_row) h_same rfl rfl
  | login r => exact h.spawn trivial fun _ => rfl
  | verifyLogin challenge ip correct => exact h.spawn trivial fun _ => rfl
  | verifyCode ip username correct => exact h.spawn trivial fun _ => rfl
  | serve i =>
    dsimp only [LoginThrottling.step]
    cases h_p : s.parties[i]? with
    | none => exact h
    | some p => exact h.serve h_p (h_guard p h_p)
  | disable u =>
    exact h.between (.of_eq le_rfl rfl rfl rfl)
      (h.counts.modify u (fun _ => rfl) fun _ h_none => h_none) h_same rfl rfl
  | lock u t =>
    exact h.between (.of_eq le_rfl rfl rfl rfl)
      (h.counts.modify u (fun _ => rfl) fun _ h_none => nomatch h_none) h_same rfl rfl
  | tick d =>
    exact h.between (.of_eq (Nat.le_add_right _ d) rfl rfl rfl) (h_counts rfl rfl) h_same rfl rfl
  | expireChallenge challenge =>
    exact h.between (.of_eq le_rfl rfl rfl rfl) (h_counts rfl rfl) h_same rfl rfl
  | expireAttempts key =>
    dsimp only [LoginThrottling.step]
    split_ifs
    · exact h.between calm_endPeriod (h_counts rfl rfl) World.endPeriod_keys rfl rfl
    · exact h

theorem inv_init : Inv cfg {} := by
  refine ⟨fun p h_p => ?_, ⟨?_, fun _ _ => rfl, ?_, ?_⟩, ⟨fun _ _ => le_rfl, fun _ => ?_⟩,
    fun challenge => ?_⟩
  · exact absurd h_p List.not_mem_nil
  · exact fun u a h_row => nomatch h_row
  · exact fun u a h_row => nomatch h_row
  · exact fun u a h_row => nomatch h_row
  · exact Nat.zero_le _
  · exact Nat.zero_le _

/-! ### Runs -/

theorem Inv.unlocked {r : LoginRequest} {copy a : Account} {now : ℕ} (h : Inv cfg s)
    (h_p : s.parties[i]? = some (.read r u copy now))
    (h_order : InOrder cfg s (.read r u copy now)) (h_wrong : r.correct = false)
    (h_row : s.world.accounts.lookup u = some a) : ¬Locked a s.world.now := by
  obtain h_right | ⟨-, h_read, -⟩ := h_order
  · rw [h_wrong] at h_right
    cases h_right
  · obtain rfl := Option.some.inj (h_row.symm.trans h_read)
    exact h.parties _ (List.mem_of_getElem? h_p)

theorem Inv.permitted {base copy a : Account} {challenge : Option ℕ} (h : Inv cfg s)
    (h_p : s.parties[i]? = some (.saving u base copy (.token challenge)))
    (h_order : InOrder cfg s (.saving u base copy (.token challenge)))
    (h_row : s.world.accounts.lookup u = some a) : a.disabled = false ∧ ¬Locked a s.world.now := by
  obtain ⟨h_copy, h_enabled⟩ := h.parties _ (List.mem_of_getElem? h_p)
  obtain rfl := Option.some.inj (h_row.symm.trans h_order)
  rwa [h_copy] at h_enabled

def StaysDisabled (a a' : Account) : Prop := a.disabled = true → a'.disabled = true

theorem Inv.disabled {action : Action} (h : Inv cfg s)
    (h_guard : Guard cfg s action (LoginThrottling.step cfg s action)) :
    s.world.accounts.Evolves StaysDisabled (LoginThrottling.step cfg s action).world.accounts := by
  have h_refl : s.world.accounts.Evolves StaysDisabled s.world.accounts :=
    .refl (fun _ => id) s.world.accounts
  cases action with
  | create u =>
    dsimp only [LoginThrottling.step]
    cases h_row : s.world.accounts.lookup u with
    | some a => exact h_refl
    | none =>
      refine Table.evolves_insert (fun _ => id) fun a h_a => ?_
      rw [h_row] at h_a
      cases h_a
  | serve i =>
    dsimp only [LoginThrottling.step]
    cases h_p : s.parties[i]? with
    | none => exact h_refl
    | some p =>
      cases p with
      | saving u base copy purpose =>
        refine Table.evolves_insert (fun _ => id) fun a h_row h_disabled => ?_
        have h_saving : SavingOk cfg s.world u base copy purpose :=
          h.parties _ (List.mem_of_getElem? h_p)
        obtain rfl := Option.some.inj (h_row.symm.trans (h_guard _ h_p))
        rw [h_saving.disabled, h_disabled]
      | holding challenge data ip copy correct =>
        dsimp only [write]
        rwa [World.evaluateCode_accounts]
      | codeHolding key correct =>
        dsimp only [write]
        rwa [World.evaluateCode_accounts]
      | _ => exact h_refl
  | disable u => exact Table.evolves_modify (fun _ => id) (fun _ _ => rfl) u
  | lock u t => exact Table.evolves_modify (fun _ => id) (fun _ => id) u
  | expireAttempts key =>
    dsimp only [LoginThrottling.step]
    split_ifs
    · exact h_refl
    · exact h_refl
  | _ => exact h_refl

/-- **A run in order is throttled.** -/
theorem throttled_of_guard (cfg : Config) (actions : List Action)
    (h : Along (step cfg) (Guard cfg) {} actions) : Throttled cfg actions := by
  have h_inv : Always (step cfg) (Inv cfg) {} actions :=
    h.always (fun _ _ h_s h_guard => h_s.step h_guard) inv_init
  refine ⟨?_, ?_, ?_, ?_, ?_, ?_⟩
  · exact fun pre h_pre u a => (h_inv pre h_pre).counts.limited u a
  · refine h.trans (fun s action h_s h_guard => ⟨h_s.step h_guard, ?_⟩) inv_init
    rintro r u copy now ⟨i, rfl, h_p⟩ h_wrong a h_row
    exact h_s.unlocked h_p (h_guard _ h_p) h_wrong h_row
  · exact fun pre h_pre key => (h_inv pre h_pre).codes.limited key
  · intro pre h_pre challenge
    have h_single := (h_inv pre h_pre).single challenge
    unfold World.tokensFor at h_single
    split_ifs at h_single
    · omega
    · omega
  · refine h.trans (fun s action h_s h_guard => ⟨h_s.step h_guard, ?_⟩) inv_init
    rintro u base copy challenge ⟨i, rfl, h_p⟩ a h_row
    exact h_s.permitted h_p (h_guard _ h_p) h_row
  · refine h.trans (fun s action h_s h_guard => ⟨h_s.step h_guard, ?_⟩) inv_init
    intro u a h_row h_disabled
    obtain ⟨a', h_row', h_stays⟩ := h_s.disabled h_guard u a h_row
    exact ⟨a', h_row', h_stays h_disabled⟩

section Examples

/-- Two wrong passwords lock the account of `alice`. -/
private def twoTries : Config where
  maxRetryCount := 2
  lockDuration := 60
  loginAccount name := if name = "alice" then some 1 else none
  firstAccount name := if name = "alice" then some 1 else none

private def alice (correct : Bool) : Action :=
  .login { username := "alice", correct := correct, enableOtp := true }

/-- Two wrong passwords, a try while the account is locked, and a login with a wrong and a right
code. -/
private def inTurn : List Action :=
  [.create 1, alice false, .serve 0, .serve 0, .serve 0,
    alice false, .serve 1, .serve 1, .serve 1, alice true, .serve 2,
    .tick 60, alice true, .serve 3, .serve 3, .serve 3, .serve 3, .serve 3,
    .verifyLogin 0 "ip" false, .serve 4, .serve 4, .serve 4, .serve 4, .serve 4, .serve 4,
    .verifyLogin 0 "ip" true, .serve 5, .serve 5, .serve 5, .serve 5, .serve 5, .serve 5, .serve 5]

theorem throttled_inTurn : (run (step twoTries) {} inTurn).world.tokens = [(1, some 0)] ∧
    Throttled twoTries inTurn :=
  ⟨by decide +kernel, throttled_of_guard twoTries inTurn (by decide +kernel)⟩

private def disabledBetween : List Action :=
  [.create 1, alice true, .serve 0, .serve 0, .serve 0, .serve 0, .serve 0, .disable 1,
    .verifyLogin 0 "ip" true, .serve 1, .serve 1, .serve 1, .serve 1, .serve 1, .serve 1]

theorem not_throttled : ¬∀ cfg actions, Throttled cfg actions := by
  intro h
  have h_permitted := (h twoTries (disabledBetween ++ [.serve 1])).permitted.at_step
  have h_now := h_permitted 1 { hasOtpSecret := true, disabled := true }
    { hasOtpSecret := true, disabled := true } (some 0) ⟨1, rfl, by rfl⟩ _ (by rfl)
  exact Bool.noConfusion h_now.1

end Examples

end LoginThrottling
end SystemMgmt
