import BkLite.Framework.Rows
import BkLite.Framework.Runs
import BkLite.Framework.Table

/-!
# Login and one-time codes

`login` reads the account, evaluates the password, and saves the account as a whole from the copy
it has read. Where one-time codes are on, it ends with a challenge; `verify_otp_login` evaluates
a code for a challenge, deletes it and issues the token, and `verify_otp_code` evaluates one for
a user name. Wrong passwords are counted in the account, wrong codes in the cache. Every access to
the database or the cache is a step, and so is every evaluation; administrators disable and
lock accounts in between.

The model counts the wrong passwords since the last right one, and the wrong codes in the present
period of an address and a user name: it ends when the count in the cache expires or is deleted.
What the policy says of a password, and whether codes are on, comes with the request. The numbers of
challenges are unique.
-/

namespace SystemMgmt
namespace LoginThrottling

open Runs

/-! ### Accounts -/

/-- What the requests use of a `User`. -/
structure Account where
  passwordErrorCount : ℕ := 0
  accountLockedUntil : Option ℕ := none
  disabled : Bool := false
  hasOtpSecret : Bool := false
deriving DecidableEq

def Locked (a : Account) (now : ℕ) : Prop := ∃ t ∈ a.accountLockedUntil, now < t

instance (a : Account) (now : ℕ) : Decidable (Locked a now) :=
  inferInstanceAs (Decidable (∃ t ∈ a.accountLockedUntil, now < t))

/-- The policy on wrong passwords, and which account is meant by a user name: for `login` the one in
the default domain, for a code the first. -/
structure Config where
  maxRetryCount : ℕ
  lockDuration : ℕ
  loginAccount : String → Option ℕ
  firstAccount : String → Option ℕ

inductive Expiry
  | valid
  | expired
  /-- Expired, of the administrator, who has no temporary password yet. -/
  | expiredAdmin

structure LoginRequest where
  username : String
  correct : Bool
  expiry : Expiry := .valid
  enableOtp : Bool := false

structure Challenge where
  userId : ℕ
  username : String

/-- A key `otp_rate_limit:{ip}:{username}`. -/
abbrev Key := String × String

def rateLimitMaxAttempts : ℕ := 5

/-! ### Requests -/

inductive Purpose
  | wrongPassword
  | rightPassword (r : LoginRequest)
  | temporaryPwd (r : LoginRequest)
  | otpSecret (username : String)
  /-- The last login, with the token. -/
  | token (challenge : Option ℕ)

inductive Party
  | login (r : LoginRequest)
  /-- The account has been read and was not locked. -/
  | read (r : LoginRequest) (u : ℕ) (copy : Account) (now : ℕ)
  /-- The copy, as it was read or last saved, has been changed and is to be saved. -/
  | saving (u : ℕ) (base copy : Account) (purpose : Purpose)
  | challenging (u : ℕ) (username : String)
  | verifyLogin (challenge : ℕ) (ip : String) (correct : Bool)
  /-- The challenge is there. -/
  | challenged (challenge : ℕ) (data : Challenge) (ip : String) (correct : Bool)
  /-- The limit is not reached. -/
  | allowed (challenge : ℕ) (data : Challenge) (ip : String) (correct : Bool)
  /-- The account has been read. -/
  | holding (challenge : ℕ) (data : Challenge) (ip : String) (copy : Account) (correct : Bool)
  /-- The code was right. -/
  | proven (challenge u : ℕ) (key : Key) (copy : Account)
  | invalidated (challenge u : ℕ) (key : Key) (copy : Account)
  /-- The code was wrong. -/
  | recording (key : Key)
  | counted (key : Key) (attempts : ℕ)
  | verifyCode (key : Key) (correct : Bool)
  | codeAllowed (key : Key) (correct : Bool)
  | codeHolding (key : Key) (correct : Bool)
  | resetting (key : Key)
  | finished

/-- The database, the cache and the clock, with what the model counts. -/
structure World where
  now : ℕ := 0
  accounts : Table ℕ Account := ∅
  challenges : Table ℕ Challenge := ∅
  attempts : Table Key ℕ := ∅
  nextChallenge : ℕ := 0
  wrongPasswords : ℕ → ℕ := fun _ => 0
  wrongCodes : Key → ℕ := fun _ => 0
  /-- The challenges for which a right code was evaluated and the challenge then deleted. -/
  redeemed : List ℕ := []
  /-- The tokens: for whom, and for which challenge. -/
  tokens : List (ℕ × Option ℕ) := []

structure State where
  world : World := {}
  parties : List Party := []

variable (cfg : Config)

def World.attemptsOf (w : World) (key : Key) : ℕ := (w.attempts.lookup key).getD 0

def countWrong (copy : Account) (now : ℕ) : Account :=
  { copy with
    passwordErrorCount := copy.passwordErrorCount + 1
    accountLockedUntil :=
      if copy.passwordErrorCount + 1 ≥ cfg.maxRetryCount then some (now + cfg.lockDuration)
      else copy.accountLockedUntil }

def clearWrong (copy : Account) : Account :=
  { copy with passwordErrorCount := 0, accountLockedUntil := none }

def World.evaluateCode (w : World) (key : Key) (correct : Bool) : World :=
  if correct = true then w
  else { w with wrongCodes := Function.update w.wrongCodes key (w.wrongCodes key + 1) }

def World.endPeriod (w : World) (key : Key) : World :=
  { w with attempts := w.attempts.erase key, wrongCodes := Function.update w.wrongCodes key 0 }

def write (w : World) : Party → World
  | .read r u _ _ =>
    { w with
      wrongPasswords := Function.update w.wrongPasswords u
        (if r.correct = true then 0 else w.wrongPasswords u + 1) }
  | .saving u _ copy purpose =>
    { w with
      accounts := w.accounts.insert u copy
      tokens := match purpose with
        | .token challenge => w.tokens ++ [(u, challenge)]
        | _ => w.tokens }
  | .challenging u username =>
    { w with
      challenges := w.challenges.insert w.nextChallenge ⟨u, username⟩
      nextChallenge := w.nextChallenge + 1 }
  | .holding _ data ip _ correct => w.evaluateCode (ip, data.username) correct
  | .codeHolding key correct => w.evaluateCode key correct
  | .proven challenge _ _ _ =>
    { w with challenges := w.challenges.erase challenge, redeemed := challenge :: w.redeemed }
  | .invalidated _ _ key _ => w.endPeriod key
  | .resetting key => w.endPeriod key
  | .counted key attempts => { w with attempts := w.attempts.insert key (attempts + 1) }
  | _ => w

/-- `get_user_login_token`, after the password. -/
def getUserLoginToken (u : ℕ) (copy : Account) (r : LoginRequest) : Party :=
  if copy.disabled = true then .finished
  else if r.enableOtp = true then
    if copy.hasOtpSecret = true then .challenging u r.username
    else .saving u copy { copy with hasOtpSecret := true } (.otpSecret r.username)
  else .saving u copy copy (.token none)

def next (w : World) : Party → Party
  | .login r =>
    match cfg.loginAccount r.username with
    | none => .finished
    | some u =>
      match w.accounts.lookup u with
      | none => .finished
      | some copy => if Locked copy w.now then .finished else .read r u copy w.now
  | .read r u copy now =>
    if r.correct = true then .saving u copy (clearWrong copy) (.rightPassword r)
    else .saving u copy (countWrong cfg copy now) .wrongPassword
  | .saving u _ copy purpose =>
    match purpose with
    | .wrongPassword => .finished
    | .rightPassword r =>
      match r.expiry with
      | .valid => getUserLoginToken u copy r
      | .expired => .finished
      | .expiredAdmin => .saving u copy copy (.temporaryPwd r)
    | .temporaryPwd r => getUserLoginToken u copy r
    | .otpSecret username => .challenging u username
    | .token _ => .finished
  | .challenging _ _ => .finished
  | .verifyLogin challenge ip correct =>
    match w.challenges.lookup challenge with
    | none => .finished
    | some data => .challenged challenge data ip correct
  | .challenged challenge data ip correct =>
    if w.attemptsOf (ip, data.username) ≥ rateLimitMaxAttempts then .finished
    else .allowed challenge data ip correct
  | .allowed challenge data ip correct =>
    match w.accounts.lookup data.userId with
    | none => .finished
    | some copy =>
      if copy.hasOtpSecret = true then .holding challenge data ip copy correct else .finished
  | .holding challenge data ip copy correct =>
    if correct = true then .proven challenge data.userId (ip, data.username) copy
    else .recording (ip, data.username)
  | .proven challenge u key copy => .invalidated challenge u key copy
  | .invalidated challenge u _ copy => .saving u copy copy (.token (some challenge))
  | .recording key => .counted key (w.attemptsOf key)
  | .counted _ _ => .finished
  | .verifyCode key correct =>
    if w.attemptsOf key ≥ rateLimitMaxAttempts then .finished else .codeAllowed key correct
  | .codeAllowed key correct =>
    match cfg.firstAccount key.2 with
    | none => .finished
    | some u =>
      match w.accounts.lookup u with
      | none => .finished
      | some copy => if copy.hasOtpSecret = true then .codeHolding key correct else .finished
  | .codeHolding key correct => if correct = true then .resetting key else .recording key
  | .resetting _ => .finished
  | .finished => .finished

inductive Action
  | create (u : ℕ)
  /-- A request comes in. -/
  | login (r : LoginRequest)
  | verifyLogin (challenge : ℕ) (ip : String) (correct : Bool)
  | verifyCode (ip username : String) (correct : Bool)
  | serve (i : ℕ)
  /-- An administrator disables an account, or locks it. -/
  | disable (u : ℕ)
  | lock (u : ℕ) (t : ℕ)
  | tick (d : ℕ)
  | expireChallenge (challenge : ℕ)
  | expireAttempts (key : Key)

def step (s : State) : Action → State
  | .create u =>
    if (s.world.accounts.lookup u).isSome = true then s
    else { s with world := { s.world with accounts := s.world.accounts.insert u {} } }
  | .login r => { s with parties := s.parties ++ [.login r] }
  | .verifyLogin challenge ip correct =>
    { s with parties := s.parties ++ [.verifyLogin challenge ip correct] }
  | .verifyCode ip username correct =>
    { s with parties := s.parties ++ [.verifyCode (ip, username) correct] }
  | .serve i =>
    match s.parties[i]? with
    | none => s
    | some p => ⟨write s.world p, s.parties.set i (next cfg s.world p)⟩
  | .disable u =>
    { s with world := { s.world with
        accounts := s.world.accounts.modify u fun a => { a with disabled := true } } }
  | .lock u t =>
    { s with world := { s.world with
        accounts := s.world.accounts.modify u fun a => { a with accountLockedUntil := some t } } }
  | .tick d => { s with world := { s.world with now := s.world.now + d } }
  | .expireChallenge challenge =>
    { s with world := { s.world with challenges := s.world.challenges.erase challenge } }
  | .expireAttempts key =>
    if (s.world.attempts.lookup key).isSome = true then { s with world := s.world.endPeriod key }
    else s

/-! ### What is claimed -/

def Serves (s : State) (action : Action) (p : Party) : Prop :=
  ∃ i, action = .serve i ∧ s.parties[i]? = some p

/-- **Throttling.** What is claimed of passwords, codes and challenges. -/
structure Throttled (actions : List Action) : Prop where
  passwords : Always (step cfg) (fun s => ∀ u a, s.world.accounts.lookup u = some a →
    a.accountLockedUntil = none → s.world.wrongPasswords u ≤ cfg.maxRetryCount) {} actions
  unlocked : Along (step cfg) (fun s action _ => ∀ r u copy now,
    Serves s action (.read r u copy now) → r.correct = false →
      ∀ a, s.world.accounts.lookup u = some a → ¬Locked a s.world.now) {} actions
  codes : Always (step cfg) (fun s => ∀ key, s.world.wrongCodes key ≤ rateLimitMaxAttempts) {}
    actions
  once : Always (step cfg) (fun s => ∀ challenge,
    (s.world.tokens.filter (·.2 = some challenge)).length ≤ 1) {} actions
  permitted : Along (step cfg) (fun s action _ => ∀ u base copy challenge,
    Serves s action (.saving u base copy (.token challenge)) →
      ∀ a, s.world.accounts.lookup u = some a → a.disabled = false ∧ ¬Locked a s.world.now) {}
    actions
  disabled : Along (step cfg) (fun s _ t => ∀ u a, s.world.accounts.lookup u = some a →
    a.disabled = true → ∃ a', t.world.accounts.lookup u = some a' ∧ a'.disabled = true) {} actions

/-! ### When it is kept -/

def Party.Unsaved (u : ℕ) : Party → Prop
  | .saving u' _ _ .wrongPassword => u' = u
  | .saving u' _ _ (.rightPassword _) => u' = u
  | _ => False

def Party.Uncounted (key : Key) : Party → Prop
  | .recording key' => key' = key
  | .counted key' _ => key' = key
  | _ => False

instance (u : ℕ) : DecidablePred (Party.Unsaved u)
  | .saving u' _ _ .wrongPassword => inferInstanceAs (Decidable (u' = u))
  | .saving u' _ _ (.rightPassword _) => inferInstanceAs (Decidable (u' = u))
  | .saving _ _ _ (.temporaryPwd _) | .saving _ _ _ (.otpSecret _) | .saving _ _ _ (.token _)
  | .login _ | .read _ _ _ _ | .challenging _ _ | .verifyLogin _ _ _ | .challenged _ _ _ _
  | .allowed _ _ _ _ | .holding _ _ _ _ _ | .proven _ _ _ _ | .invalidated _ _ _ _
  | .recording _ | .counted _ _ | .verifyCode _ _ | .codeAllowed _ _ | .codeHolding _ _
  | .resetting _ | .finished => isFalse id

instance (key : Key) : DecidablePred (Party.Uncounted key)
  | .recording key' => inferInstanceAs (Decidable (key' = key))
  | .counted key' _ => inferInstanceAs (Decidable (key' = key))
  | .saving _ _ _ _ | .login _ | .read _ _ _ _ | .challenging _ _ | .verifyLogin _ _ _
  | .challenged _ _ _ _ | .allowed _ _ _ _ | .holding _ _ _ _ _ | .proven _ _ _ _
  | .invalidated _ _ _ _ | .verifyCode _ _ | .codeAllowed _ _ | .codeHolding _ _
  | .resetting _ | .finished => isFalse id

def CodeInOrder (s : State) (key : Key) (correct : Bool) : Prop :=
  correct = true ∨ s.world.attemptsOf key < rateLimitMaxAttempts ∧
    ∀ p ∈ s.parties, ¬p.Uncounted key

instance (s : State) (key : Key) (correct : Bool) : Decidable (CodeInOrder s key correct) :=
  inferInstanceAs (Decidable (_ ∨ _ ∧ _))

/-- The next access of the party goes by what is still so. -/
def InOrder (s : State) : Party → Prop
  -- a wrong password: the account is as it was read, and nobody has a result unsaved
  | .read r u copy _ => r.correct = true ∨ 0 < cfg.maxRetryCount ∧
    s.world.accounts.lookup u = some copy ∧ ∀ p ∈ s.parties, ¬p.Unsaved u
  | .saving u base _ _ => s.world.accounts.lookup u = some base
  -- a right code: the account that was read is neither disabled nor locked
  | .holding _ data ip copy correct => CodeInOrder s (ip, data.username) correct ∧
    (correct = true → copy.disabled = false ∧ ¬Locked copy s.world.now)
  | .codeHolding key correct => CodeInOrder s key correct
  -- nobody else has got past the challenge
  | .proven challenge _ _ _ => challenge ∉ s.world.redeemed
  | _ => True

instance (s : State) : DecidablePred (InOrder cfg s)
  | .read _ _ _ _ => inferInstanceAs (Decidable (_ ∨ _ ∧ _ ∧ _))
  | .saving u base _ _ => inferInstanceAs (Decidable (s.world.accounts.lookup u = some base))
  | .holding _ _ _ _ _ => inferInstanceAs (Decidable (_ ∧ (_ → _)))
  | .codeHolding key correct => inferInstanceAs (Decidable (CodeInOrder s key correct))
  | .proven challenge _ _ _ => inferInstanceAs (Decidable (challenge ∉ s.world.redeemed))
  | .login _ | .challenging _ _ | .verifyLogin _ _ _ | .challenged _ _ _ _ | .allowed _ _ _ _
  | .invalidated _ _ _ _ | .recording _ | .counted _ _ | .verifyCode _ _ | .codeAllowed _ _
  | .resetting _ | .finished => isTrue trivial

def Guard (s : State) : Action → State → Prop
  | .serve i, _ => ∀ p ∈ s.parties[i]?, InOrder cfg s p
  | _, _ => True

instance (s : State) (action : Action) (t : State) : Decidable (Guard cfg s action t) :=
  match action with
  | .serve i => inferInstanceAs (Decidable (∀ p ∈ s.parties[i]?, InOrder cfg s p))
  | .create _ | .login _ | .verifyLogin _ _ _ | .verifyCode _ _ _ | .disable _ | .lock _ _
  | .tick _ | .expireChallenge _ | .expireAttempts _ => isTrue trivial

end LoginThrottling
end SystemMgmt
