import BkLite.Framework.Rows
import BkLite.Framework.Runs
import BkLite.Framework.Table

/-!
# The permission cache

Calls of `get_permission_rules` and changes of the rules, every access to the cache and to the
database a step of its own. A call answers with what the cache has under its key, or queries the
rules and stores them. A change is committed and then clears the cache of each affected user:
all keys of the user at once where the backend has `delete_pattern`, and otherwise (or where that
fails) the keys that an index of the user lists, which the calls keep by reading and writing it.
Any entry may expire at any time.

The cache is one that all workers share. The numbers that the model gives to the changes, and the
times of the queries in terms of them, are read by nothing in it.
-/

namespace Core
namespace PermissionCache

open Runs

/-! ### Keys -/

structure User where
  username : String
  domain : String
deriving DecidableEq

structure Query where
  currentTeam : ℤ
  appName : String
  permissionKey : String
  includeChildren : Bool

/-- A key `perm_rules:{user_hash}:{key_hash}`. -/
structure CacheKey where
  userHash : String
  keyHash : String
deriving DecidableEq

/-- The digest, whether the cache has `delete_pattern`, and what the rules of a user are in a
database. -/
structure Env (D R : Type) where
  md5 : String → String
  deletePattern : Bool
  getUserRulesByApp : D → User → Query → R

variable {D R : Type} (env : Env D R)

/-- `_get_user_perm_prefix`. -/
def userPart (u : User) : String :=
  String.ofList ((env.md5 (u.username ++ ":" ++ u.domain)).toList.take 8)

def getCacheKey (u : User) (q : Query) : CacheKey where
  userHash := userPart env u
  keyHash := env.md5 (toString q.currentTeam ++ ":" ++ q.appName ++ ":" ++ q.permissionKey ++ ":" ++
    if q.includeChildren = true then "True" else "False")

/-! ### The world and the parties -/

/-- Rules, and how many changes had been committed when they were computed. -/
structure Computed (R : Type) where
  rules : R
  asOf : ℕ

structure World (D R : Type) where
  db : D
  version : ℕ := 0
  /-- The changes committed so far, each with its number and the users that it affects. -/
  changes : List (ℕ × List User) := []
  cache : Table CacheKey (Computed R) := ∅
  index : Table User (List CacheKey) := ∅

/-- A call or a change, and how far it has come. A call that has missed keeps the number of changes
before its start, a change that is committed has its own number. -/
inductive Party (D R : Type)
  | request (u : User) (q : Query)
  | missed (u : User) (q : Query) (since : ℕ)
  | computed (u : User) (q : Query) (since : ℕ) (e : Computed R)
  | stored (u : User) (q : Query) (since : ℕ) (e : Computed R)
  | indexed (u : User) (q : Query) (since : ℕ) (e : Computed R) (keys : List CacheKey)
  | answered (u : User) (e : Computed R)
  | failed
  | change (users : List User) (change : D → D)
  | clearing (c : ℕ) (users : List User)
  | byIndex (c : ℕ) (u : User) (users : List User)
  | deleting (c : ℕ) (keys : List CacheKey) (u : User) (users : List User)

structure State (D R : Type) where
  world : World D R
  parties : List (Party D R) := []

/-- `_clear_user_cache_by_index`: the index is read. -/
def readIndex (w : World D R) (c : ℕ) (u : User) (users : List User) : Party D R :=
  match (w.index.lookup u).getD [] with
  | [] => .clearing c users
  | key :: keys => .deleting c (key :: keys) u users

def write (w : World D R) : Party D R → World D R
  | .computed u q _ e => { w with cache := w.cache.insert (getCacheKey env u q) e }
  | .indexed u q _ _ keys =>
    { w with index := w.index.insert u (keys.insert (getCacheKey env u q)) }
  | .change users change =>
    { w with
      db := change w.db
      version := w.version + 1
      changes := w.changes ++ [(w.version + 1, users)] }
  | .clearing _ (u :: _) =>
    if env.deletePattern = true then
      { w with cache := w.cache.eraseWhere fun key => key.userHash = userPart env u }
    else w
  | .deleting _ (key :: _) _ _ => { w with cache := w.cache.erase key }
  | .deleting _ [] u _ => { w with index := w.index.erase u }
  | _ => w

def next (w : World D R) : Party D R → Party D R
  -- `get_cached_permission_rules`
  | .request u q =>
    match w.cache.lookup (getCacheKey env u q) with
    | some e => .answered u e
    | none => .missed u q w.version
  | .missed u q since => .computed u q since ⟨env.getUserRulesByApp w.db u q, w.version⟩
  -- `set_cached_permission_rules`
  | .computed u q since e =>
    if env.deletePattern = true then .answered u e else .stored u q since e
  | .stored u q since e => .indexed u q since e ((w.index.lookup u).getD [])
  | .indexed u _ _ e _ => .answered u e
  | .change users _ => .clearing (w.version + 1) users
  -- `clear_user_permission_cache`, one user after the other
  | .clearing c (u :: users) =>
    if env.deletePattern = true then .clearing c users else readIndex w c u users
  | .byIndex c u users => readIndex w c u users
  | .deleting c (_ :: keys) u users => .deleting c keys u users
  | .deleting c [] _ users => .clearing c users
  | p => p

/-- The access fails: a call gives up, and a clearing by pattern goes on by the index. -/
def fail : Party D R → Party D R
  | .missed _ _ _ => .failed
  | .computed _ _ _ _ => .failed
  | .stored _ _ _ _ => .failed
  | .indexed _ _ _ _ _ => .failed
  | .clearing c (u :: users) =>
    if env.deletePattern = true then .byIndex c u users else .clearing c (u :: users)
  | p => p

inductive Action (D : Type)
  | call (u : User) (q : Query)
  | change (users : List User) (change : D → D)
  | serve (i : ℕ)
  | fail (i : ℕ)
  | expire (key : CacheKey)
  | expireIndex (u : User)

def step (s : State D R) : Action D → State D R
  | .call u q => { s with parties := s.parties ++ [.request u q] }
  | .change users change => { s with parties := s.parties ++ [.change users change] }
  | .serve i =>
    match s.parties[i]? with
    | none => s
    | some p => ⟨write env s.world p, s.parties.set i (next env s.world p)⟩
  | .fail i =>
    match s.parties[i]? with
    | none => s
    | some p => { s with parties := s.parties.set i (fail env p) }
  | .expire key => { s with world := { s.world with cache := s.world.cache.erase key } }
  | .expireIndex u => { s with world := { s.world with index := s.world.index.erase u } }

def start (db : D) : State D R := { world := { db } }

/-! ### What is claimed -/

/-- The party is a call that was made before change `c` was committed, and is not answered. -/
def Before (c : ℕ) : Party D R → Prop
  | .missed _ _ since => since < c
  | .computed _ _ since _ => since < c
  | .stored _ _ since _ => since < c
  | .indexed _ _ since _ _ => since < c
  | _ => False

/-- The party is change `c`, and has not finished its clearing. -/
def AtWork (c : ℕ) : Party D R → Prop
  | .clearing c' (_ :: _) => c' = c
  | .byIndex c' _ _ => c' = c
  | .deleting c' _ _ _ => c' = c
  | _ => False

/-- Change `c` and its clearing are finished, and so are all calls made before it. -/
def Settled (s : State D R) (c : ℕ) : Prop := ∀ p ∈ s.parties, ¬Before c p ∧ ¬AtWork c p

def Unmade (s : State D R) (i : ℕ) : Prop :=
  ∀ p, s.parties[i]? = some p → ∃ u q, p = .request u q

/-- A call of an affected user that is made when a change is settled is answered with rules
computed after the change. -/
def Fresh (db : D) (actions : List (Action D)) : Prop :=
  ∀ early late, actions = early ++ late →
    ∀ change ∈ (run (step env) (start db) early).world.changes,
    Settled (run (step env) (start db) early) change.1 →
    ∀ u ∈ change.2, ∀ i, Unmade (run (step env) (start db) early) i →
      ∀ e, (run (step env) (start db) actions).parties[i]? = some (.answered u e) →
        change.1 ≤ e.asOf

/-! ### When it is kept -/

/-- The party is change `c` and is still to clear the key, as far as it lies with it. -/
def Clears (c : ℕ) (key : CacheKey) : Party D R → Prop
  | .clearing c' users => c' = c ∧ ∃ u ∈ users, userPart env u = key.userHash
  | .byIndex c' u users => c' = c ∧ ∃ u' ∈ u :: users, userPart env u' = key.userHash
  | .deleting c' keys _ users =>
    c' = c ∧ (key ∈ keys ∨ ∃ u ∈ users, userPart env u = key.userHash)
  | _ => False

instance (c : ℕ) (key : CacheKey) : DecidablePred (Clears (D := D) (R := R) env c key)
  | .clearing _ _ => inferInstanceAs (Decidable (_ ∧ _))
  | .byIndex _ _ _ => inferInstanceAs (Decidable (_ ∧ _))
  | .deleting _ _ _ _ => inferInstanceAs (Decidable (_ ∧ (_ ∨ _)))
  | .request _ _ => isFalse id
  | .missed _ _ _ => isFalse id
  | .computed _ _ _ _ => isFalse id
  | .stored _ _ _ _ => isFalse id
  | .indexed _ _ _ _ _ => isFalse id
  | .answered _ _ => isFalse id
  | .failed => isFalse id
  | .change _ _ => isFalse id

def InTime (s : State D R) (key : CacheKey) (e : Computed R) : Prop :=
  ∀ change ∈ s.world.changes, e.asOf < change.1 →
    (∃ u ∈ change.2, userPart env u = key.userHash) → ∃ p ∈ s.parties, Clears env change.1 key p

def Listed (w : World D R) (c : ℕ) (u : User) (users : List User) : Prop :=
  ∀ row ∈ w.cache.entries, row.2.asOf < c → row.1.userHash = userPart env u →
    row.1 ∈ (w.index.lookup u).getD [] ∨ ∃ u' ∈ users, userPart env u' = row.1.userHash

/-- What is stored is no older than what has cleared it, and an index lists the older entries. -/
def InOrder (s : State D R) : Party D R → Prop
  | .computed u q _ e => InTime env s (getCacheKey env u q) e
  | .clearing c (u :: users) => env.deletePattern = true ∨ Listed env s.world c u users
  | .byIndex c u users => Listed env s.world c u users
  | _ => True

def Guard (s : State D R) : Action D → State D R → Prop
  | .serve i, _ => ∀ p ∈ s.parties[i]?, InOrder env s p
  | _, _ => True

instance (s : State D R) (key : CacheKey) (e : Computed R) : Decidable (InTime env s key e) :=
  inferInstanceAs (Decidable (∀ change ∈ s.world.changes, _ → _ → _))

instance (w : World D R) (c : ℕ) (u : User) (users : List User) :
    Decidable (Listed env w c u users) :=
  inferInstanceAs (Decidable (∀ row ∈ w.cache.entries, _ → _ → _))

instance (s : State D R) : DecidablePred (InOrder env s)
  | .computed u q _ e => inferInstanceAs (Decidable (InTime env s (getCacheKey env u q) e))
  | .clearing c (u :: users) =>
    inferInstanceAs (Decidable (env.deletePattern = true ∨ Listed env s.world c u users))
  | .byIndex c u users => inferInstanceAs (Decidable (Listed env s.world c u users))
  | .clearing _ [] => isTrue trivial
  | .request _ _ => isTrue trivial
  | .missed _ _ _ => isTrue trivial
  | .stored _ _ _ _ => isTrue trivial
  | .indexed _ _ _ _ _ => isTrue trivial
  | .answered _ _ => isTrue trivial
  | .failed => isTrue trivial
  | .change _ _ => isTrue trivial
  | .deleting _ _ _ _ => isTrue trivial

instance (s : State D R) (s' : State D R) : (a : Action D) → Decidable (Guard env s a s')
  | .serve i => inferInstanceAs (Decidable (∀ p ∈ s.parties[i]?, InOrder env s p))
  | .call _ _ => isTrue trivial
  | .change _ _ => isTrue trivial
  | .fail _ => isTrue trivial
  | .expire _ => isTrue trivial
  | .expireIndex _ => isTrue trivial

section Access

variable {env} {w : World D R} {p : Party D R} {c : ℕ} {key : CacheKey} {u : User}
  {users : List User} {e : Computed R}

/-! ### What one access does -/

theorem lookup_write (h : (write env w p).cache.lookup key = some e) :
    w.cache.lookup key = some e ∨
      ∃ u q since, p = .computed u q since e ∧ key = getCacheKey env u q := by
  cases p with
  | computed u q since e' =>
    change (w.cache.insert (getCacheKey env u q) e').lookup key = some e at h
    rw [Table.lookup_insert] at h
    split_ifs at h with h_key
    · cases h
      exact .inr ⟨u, q, since, rfl, h_key⟩
    · exact .inl h
  | clearing c users =>
    cases users with
    | nil => exact .inl h
    | cons u users =>
      unfold write at h
      split_ifs at h
      · rw [Table.lookup_eraseWhere] at h
        split_ifs at h
        exact .inl h
      · exact .inl h
  | deleting c keys u users =>
    cases keys with
    | nil => exact .inl h
    | cons key' keys => exact .inl (Table.lookup_of_erase h).2
  | request u q => exact .inl h
  | missed u q since => exact .inl h
  | stored u q since e' => exact .inl h
  | indexed u q since e' keys => exact .inl h
  | answered u e' => exact .inl h
  | failed => exact .inl h
  | change users change => exact .inl h
  | byIndex c u users => exact .inl h

theorem version_write (env : Env D R) (w : World D R) (p : Party D R) :
    (write env w p).version = w.version ∧ (write env w p).changes = w.changes ∨
      ∃ users change, p = .change users change ∧ (write env w p).version = w.version + 1 ∧
        (write env w p).changes = w.changes ++ [(w.version + 1, users)] := by
  cases p with
  | change users change => exact .inr ⟨users, change, rfl, rfl, rfl⟩
  | clearing c users =>
    cases users with
    | nil => exact .inl ⟨rfl, rfl⟩
    | cons u users =>
      dsimp only [write]
      split_ifs <;> exact .inl ⟨rfl, rfl⟩
  | deleting c keys u users => cases keys <;> exact .inl ⟨rfl, rfl⟩
  | request u q => exact .inl ⟨rfl, rfl⟩
  | missed u q since => exact .inl ⟨rfl, rfl⟩
  | computed u q since e => exact .inl ⟨rfl, rfl⟩
  | stored u q since e => exact .inl ⟨rfl, rfl⟩
  | indexed u q since e keys => exact .inl ⟨rfl, rfl⟩
  | answered u e => exact .inl ⟨rfl, rfl⟩
  | failed => exact .inl ⟨rfl, rfl⟩
  | byIndex c u users => exact .inl ⟨rfl, rfl⟩

theorem version_le_write (env : Env D R) (w : World D R) (p : Party D R) :
    w.version ≤ (write env w p).version := by
  obtain ⟨h_version, -⟩ | ⟨_, _, -, h_version, -⟩ := version_write env w p <;> omega

/-- The rules of a call are no older than the call. -/
def Dated (version : ℕ) : Party D R → Prop
  | .missed _ _ since => since ≤ version
  | .computed _ _ since e => since ≤ e.asOf
  | .stored _ _ since e => since ≤ e.asOf
  | .indexed _ _ since e _ => since ≤ e.asOf
  | _ => True

theorem Dated.mono {version version' : ℕ} (h : Dated version p) (h_le : version ≤ version') :
    Dated version' p := by
  cases p with
  | missed u q since => exact le_trans h h_le
  | _ => exact h

theorem readIndex_eq (w : World D R) (c : ℕ) (u : User) (users : List User) :
    readIndex w c u users = .clearing c users ∧ (w.index.lookup u).getD [] = [] ∨
      readIndex w c u users = .deleting c ((w.index.lookup u).getD []) u users := by
  unfold readIndex
  split
  · next h_nil => exact .inl ⟨rfl, h_nil⟩
  · next h_keys => exact .inr (by rw [h_keys])

theorem dated_readIndex (version : ℕ) (w : World D R) : Dated version (readIndex w c u users) := by
  obtain ⟨h_eq, -⟩ | h_eq := readIndex_eq w c u users <;> rw [h_eq] <;> trivial

theorem Dated.next (h : Dated w.version p) : Dated w.version (next env w p) := by
  cases p with
  | request u q =>
    dsimp only [PermissionCache.next]
    split
    · trivial
    · exact le_refl w.version
  | missed u q since => exact h
  | computed u q since e =>
    dsimp only [PermissionCache.next]
    split_ifs
    · trivial
    · exact h
  | stored u q since e => exact h
  | clearing c users =>
    cases users with
    | nil => trivial
    | cons u users =>
      dsimp only [PermissionCache.next]
      split_ifs
      · trivial
      · exact dated_readIndex w.version w
  | byIndex c u users => exact dated_readIndex w.version w
  | deleting c keys u users => cases keys <;> trivial
  | _ => trivial

theorem Dated.fail {version : ℕ} (h : Dated version p) : Dated version (fail env p) := by
  cases p with
  | clearing c users =>
    cases users with
    | nil => trivial
    | cons u users =>
      dsimp only [PermissionCache.fail]
      split_ifs <;> trivial
  | _ => trivial

theorem not_before_readIndex {w : World D R} {c' : ℕ} : ¬Before c (readIndex w c' u users) := by
  obtain ⟨h_eq, -⟩ | h_eq := readIndex_eq w c' u users <;> rw [h_eq] <;> exact id

theorem not_before_next (h : ¬Before c p) (h_version : c ≤ w.version) :
    ¬Before c (next env w p) := by
  cases p with
  | request u q =>
    dsimp only [next]
    split
    · exact id
    · exact Nat.not_lt.mpr h_version
  | missed u q since => exact h
  | computed u q since e =>
    dsimp only [next]
    split_ifs
    · exact id
    · exact h
  | stored u q since e => exact h
  | clearing c users =>
    cases users with
    | nil => exact id
    | cons u users =>
      dsimp only [next]
      split_ifs
      · exact id
      · exact not_before_readIndex
  | byIndex c u users => exact not_before_readIndex
  | deleting c keys u users => cases keys <;> exact id
  | _ => exact id

theorem not_before_fail : ¬Before c (fail env p) ∨ fail env p = p := by
  cases p with
  | clearing c users =>
    cases users with
    | nil => exact .inr rfl
    | cons u users =>
      dsimp only [fail]
      split_ifs
      · exact .inl id
      · exact .inr rfl
  | missed u q since => exact .inl id
  | computed u q since e => exact .inl id
  | stored u q since e => exact .inl id
  | indexed u q since e keys => exact .inl id
  | _ => exact .inr rfl

theorem answered_next (h : next env w p = .answered u e) :
    p = .answered u e ∨ (∃ q, p = .request u q ∧ w.cache.lookup (getCacheKey env u q) = some e) ∨
      (∃ q since, p = .computed u q since e) ∨ ∃ q since keys, p = .indexed u q since e keys := by
  cases p with
  | request u' q =>
    dsimp only [next] at h
    split at h
    · next h_hit =>
      cases h
      exact .inr (.inl ⟨q, rfl, h_hit⟩)
    · cases h
  | computed u' q since e' =>
    dsimp only [next] at h
    split_ifs at h
    cases h
    exact .inr (.inr (.inl ⟨q, since, rfl⟩))
  | indexed u' q since e' keys =>
    cases h
    exact .inr (.inr (.inr ⟨q, since, keys, rfl⟩))
  | answered u' e' => exact .inl h
  | clearing c users =>
    cases users with
    | nil => cases h
    | cons u users =>
      dsimp only [next] at h
      split_ifs at h
      obtain ⟨h_eq, -⟩ | h_eq := readIndex_eq w c u users <;> rw [h_eq] at h <;> cases h
  | byIndex c u users =>
    obtain ⟨h_eq, -⟩ | h_eq := readIndex_eq w c u users <;>
      rw [next, h_eq] at h <;> cases h
  | deleting c keys u users => cases keys <;> cases h
  | _ => cases h

theorem answered_fail (h : fail env p = .answered u e) : p = .answered u e := by
  cases p with
  | clearing c users =>
    cases users with
    | nil => cases h
    | cons u users =>
      dsimp only [fail] at h
      split_ifs at h
  | answered u' e' => exact h
  | _ => cases h

theorem clears_readIndex {w : World D R}
    (h : key ∈ (w.index.lookup u).getD [] ∨ ∃ u' ∈ users, userPart env u' = key.userHash) :
    Clears env c key (readIndex w c u users) := by
  obtain ⟨h_eq, h_nil⟩ | h_eq := readIndex_eq w c u users
  · rw [h_eq]
    rw [h_nil, or_iff_right List.not_mem_nil] at h
    exact ⟨rfl, h⟩
  · rw [h_eq]
    exact ⟨rfl, h⟩

theorem Clears.next {w : World D R} {parties : List (Party D R)} (h : Clears env c key p)
    (h_guard : InOrder env ⟨w, parties⟩ p)
    (h_entry : (write env w p).cache.lookup key = some e) (h_old : e.asOf < c) :
    Clears env c key (next env w p) := by
  -- by the index: what the guard says of the entry
  have h_listed (h_row : w.cache.lookup key = some e) {u : User} {users : List User}
      (h_index : Listed env w c u users)
      (h_users : ∃ u' ∈ u :: users, userPart env u' = key.userHash) :
      Clears env c key (readIndex w c u users) := by
    refine clears_readIndex ?_
    obtain ⟨u', h_u', h_part⟩ := h_users
    obtain rfl | h_later := List.mem_cons.mp h_u'
    · exact h_index ⟨key, e⟩ (AList.mem_lookup_iff.mp h_row) h_old h_part.symm
    · exact .inr ⟨u', h_later, h_part⟩
  cases p with
  | clearing c' users =>
    obtain ⟨rfl, h_users⟩ := h
    cases users with
    | nil => exact ⟨rfl, h_users⟩
    | cons u users =>
      dsimp only [write] at h_entry
      dsimp only [PermissionCache.next]
      split_ifs at h_entry ⊢ with h_pattern
      · rw [Table.lookup_eraseWhere] at h_entry
        split_ifs at h_entry with h_part
        obtain ⟨u', h_u', h_part'⟩ := h_users
        obtain rfl | h_later := List.mem_cons.mp h_u'
        · exact absurd (decide_eq_true h_part'.symm) h_part
        · exact ⟨rfl, u', h_later, h_part'⟩
      · exact h_listed h_entry (h_guard.resolve_left h_pattern) h_users
  | byIndex c' u users =>
    obtain ⟨rfl, h_users⟩ := h
    exact h_listed h_entry h_guard h_users
  | deleting c' keys u users =>
    obtain ⟨rfl, h_keys⟩ := h
    cases keys with
    | nil => exact ⟨rfl, h_keys.resolve_left List.not_mem_nil⟩
    | cons key' keys =>
      refine ⟨rfl, h_keys.imp_left fun h_mem => ?_⟩
      obtain rfl | h_later := List.mem_cons.mp h_mem
      · exact absurd rfl (Table.lookup_of_erase h_entry).1
      · exact h_later
  | _ => exact h.elim

theorem Clears.fail (h : Clears env c key p) : Clears env c key (fail env p) := by
  cases p with
  | clearing c' users =>
    cases users with
    | nil => exact h
    | cons u users =>
      dsimp only [PermissionCache.fail]
      split_ifs
      · exact h
      · exact h
  | byIndex c' u users => exact h
  | deleting c' keys u users => exact h
  | _ => exact h.elim

theorem Clears.atWork (h : Clears env c key p) : AtWork c p := by
  cases p with
  | clearing c' users =>
    obtain ⟨rfl, u, h_u, -⟩ := h
    cases users with
    | nil => cases h_u
    | cons u users => rfl
  | byIndex c' u users => exact h.1
  | deleting c' keys u users => exact h.1
  | _ => exact h.elim

end Access

section Runs

variable {env} {s : State D R} {a : Action D} {c i : ℕ} {u : User} {db : D}
  {actions : List (Action D)}

/-! ### Until a change is settled -/

/-- An entry that is older than a change of its user is still to be cleared by that change. -/
structure Inv (env : Env D R) (s : State D R) : Prop where
  dated : ∀ p ∈ s.parties, Dated s.world.version p
  numbered : ∀ change ∈ s.world.changes, change.1 ≤ s.world.version
  covered : ∀ key e, s.world.cache.lookup key = some e → InTime env s key e

theorem inv_start (env : Env D R) (db : D) : Inv env (start db) where
  dated _ h_p := absurd h_p List.not_mem_nil
  numbered _ h_change := absurd h_change List.not_mem_nil
  covered _ _ h_entry := nomatch h_entry

theorem Inv.join {p : Party D R} (h : Inv env s) (h_p : Dated s.world.version p) :
    Inv env { s with parties := s.parties ++ [p] } where
  dated q h_q := by
    obtain h_old | h_new := List.mem_append.mp h_q
    · exact h.dated q h_old
    · exact List.mem_singleton.mp h_new ▸ h_p
  numbered := h.numbered
  covered key e h_entry change h_change h_old h_user := by
    obtain ⟨q, h_q, h_clears⟩ := h.covered key e h_entry change h_change h_old h_user
    exact ⟨q, List.mem_append_left [p] h_q, h_clears⟩

theorem Inv.serve {p : Party D R} (h : Inv env s) (h_p : s.parties[i]? = some p)
    (h_guard : InOrder env s p) :
    Inv env ⟨write env s.world p, s.parties.set i (next env s.world p)⟩ where
  dated q h_q := by
    have h_le := version_le_write env s.world p
    obtain h_old | rfl := List.mem_or_eq_of_mem_set h_q
    · exact (h.dated q h_old).mono h_le
    · exact (h.dated p (List.mem_of_getElem? h_p)).next.mono h_le
  numbered change h_change := by
    obtain ⟨h_version, h_changes⟩ | ⟨users, f, -, h_version, h_changes⟩ :=
      version_write env s.world p
    · rw [h_changes] at h_change
      exact h_version ▸ h.numbered change h_change
    · rw [h_changes] at h_change
      obtain h_old | h_new := List.mem_append.mp h_change
      · exact (h.numbered change h_old).trans (version_le_write env s.world p)
      · rw [List.mem_singleton.mp h_new]
        exact h_version.ge
  covered key e h_entry change h_change h_old h_user := by
    -- whoever was to clear the key of an old change still is, or has
    have h_kept (h_some : ∃ q ∈ s.parties, Clears env change.1 key q) :
        ∃ q ∈ s.parties.set i (next env s.world p), Clears env change.1 key q :=
      Rows.exists_set_of_exists h_p
        (fun h_clears => h_clears.next h_guard h_entry h_old) h_some
    have h_before (h_known : change ∈ s.world.changes) :
        ∃ q ∈ s.parties.set i (next env s.world p), Clears env change.1 key q := by
      refine h_kept ?_
      obtain h_cached | ⟨u, q, since, rfl, rfl⟩ := lookup_write h_entry
      · exact h.covered key e h_cached change h_known h_old h_user
      · exact h_guard change h_known h_old h_user
    obtain ⟨-, h_changes⟩ | ⟨users, f, rfl, -, h_changes⟩ := version_write env s.world p
    · exact h_before (h_changes ▸ h_change)
    · rw [h_changes] at h_change
      obtain h_known | h_new := List.mem_append.mp h_change
      · exact h_before h_known
      · -- the change that is committed is to clear all its users
        obtain rfl := List.mem_singleton.mp h_new
        exact Rows.exists_set h_p ⟨rfl, h_user⟩

theorem Inv.fail {p : Party D R} (h : Inv env s) (h_p : s.parties[i]? = some p) :
    Inv env { s with parties := s.parties.set i (fail env p) } where
  dated q h_q := by
    obtain h_old | rfl := List.mem_or_eq_of_mem_set h_q
    · exact h.dated q h_old
    · exact (h.dated p (List.mem_of_getElem? h_p)).fail
  numbered := h.numbered
  covered key e h_entry change h_change h_old h_user :=
    Rows.exists_set_of_exists h_p Clears.fail
      (h.covered key e h_entry change h_change h_old h_user)

theorem Inv.step (h : Inv env s) (a : Action D) (h_guard : Guard env s a (step env s a)) :
    Inv env (step env s a) := by
  cases a with
  | call u q => exact h.join trivial
  | change users change => exact h.join trivial
  | serve i =>
    cases h_p : s.parties[i]? with
    | none =>
      dsimp only [PermissionCache.step]
      rw [h_p]
      exact h
    | some p =>
      have h_next := h.serve h_p (h_guard p h_p)
      dsimp only [PermissionCache.step]
      rw [h_p]
      exact h_next
  | fail i =>
    dsimp only [PermissionCache.step]
    cases h_p : s.parties[i]? with
    | none => exact h
    | some p => exact h.fail h_p
  | expire key =>
    refine ⟨h.dated, h.numbered, fun key' e h_entry => ?_⟩
    exact h.covered key' e (Table.lookup_of_erase h_entry).2
  | expireIndex u => exact ⟨h.dated, h.numbered, h.covered⟩

/-! ### After it is settled -/

/-- No call is older than change `c`, no entry of the user, and no answer of party `i` to the
user. -/
structure After (env : Env D R) (c : ℕ) (u : User) (i : ℕ) (s : State D R) : Prop where
  dated : ∀ p ∈ s.parties, Dated s.world.version p
  version : c ≤ s.world.version
  calls : ∀ p ∈ s.parties, ¬Before c p
  entries : ∀ key e, s.world.cache.lookup key = some e → userPart env u = key.userHash →
    c ≤ e.asOf
  answer : ∀ e, s.parties[i]? = some (.answered u e) → c ≤ e.asOf

theorem Inv.after (h : Inv env s) {change : ℕ × List User} (h_change : change ∈ s.world.changes)
    (h_settled : Settled s change.1) (h_u : u ∈ change.2) (h_unmade : Unmade s i) :
    After env change.1 u i s where
  dated := h.dated
  version := h.numbered change h_change
  calls p h_p := (h_settled p h_p).1
  entries key e h_entry h_part := by
    by_contra h_old
    obtain ⟨p, h_p, h_clears⟩ :=
      h.covered key e h_entry change h_change (Nat.not_le.mp h_old) ⟨u, h_u, h_part⟩
    exact (h_settled p h_p).2 h_clears.atWork
  answer e h_e := by
    obtain ⟨u', q, h_request⟩ := h_unmade _ h_e
    cases h_request

theorem After.le_asOf (h : After env c u i s) {p : Party D R} (h_p : p ∈ s.parties)
    {u' : User} {q : Query} {since : ℕ} {e : Computed R}
    (h_eq : p = .computed u' q since e ∨ ∃ keys, p = .indexed u' q since e keys) :
    c ≤ e.asOf := by
  have h_calls := h.calls p h_p
  have h_dated := h.dated p h_p
  obtain rfl | ⟨keys, rfl⟩ := h_eq
  · exact (Nat.not_lt.mp h_calls).trans h_dated
  · exact (Nat.not_lt.mp h_calls).trans h_dated

theorem After.join (h : After env c u i s) {p : Party D R} (h_p : Dated s.world.version p)
    (h_calls : ¬Before c p) (h_answer : ∀ e, p ≠ .answered u e) :
    After env c u i { s with parties := s.parties ++ [p] } where
  dated q h_q := by
    obtain h_old | h_new := List.mem_append.mp h_q
    · exact h.dated q h_old
    · exact List.mem_singleton.mp h_new ▸ h_p
  version := h.version
  calls q h_q := by
    obtain h_old | h_new := List.mem_append.mp h_q
    · exact h.calls q h_old
    · exact List.mem_singleton.mp h_new ▸ h_calls
  entries := h.entries
  answer e h_e := by
    obtain h_old | ⟨-, h_new⟩ := Rows.of_getElem?_concat h_e
    · exact h.answer e h_old
    · exact absurd h_new.symm (h_answer e)

theorem After.answer_set (h : After env c u i s) {j : ℕ} {p p' : Party D R}
    (h_p : s.parties[j]? = some p) (h_moved : j = i → ∀ e, p' = .answered u e → c ≤ e.asOf)
    (e : Computed R) (h_e : (s.parties.set j p')[i]? = some (.answered u e)) : c ≤ e.asOf := by
  by_cases h_i : j = i
  · subst h_i
    rw [List.getElem?_set_self (List.getElem?_eq_some_iff.mp h_p).1] at h_e
    exact h_moved rfl e (Option.some.inj h_e)
  · rw [List.getElem?_set_ne h_i] at h_e
    exact h.answer e h_e

theorem After.serve (h : After env c u i s) {j : ℕ} {p : Party D R}
    (h_p : s.parties[j]? = some p) :
    After env c u i ⟨write env s.world p, s.parties.set j (next env s.world p)⟩ where
  dated q h_q := by
    have h_le := version_le_write env s.world p
    obtain h_old | rfl := List.mem_or_eq_of_mem_set h_q
    · exact (h.dated q h_old).mono h_le
    · exact (h.dated p (List.mem_of_getElem? h_p)).next.mono h_le
  version := h.version.trans (version_le_write env s.world p)
  calls q h_q := by
    obtain h_old | rfl := List.mem_or_eq_of_mem_set h_q
    · exact h.calls q h_old
    · exact not_before_next (h.calls p (List.mem_of_getElem? h_p)) h.version
  entries key e h_entry h_part := by
    obtain h_cached | ⟨u', q, since, rfl, -⟩ := lookup_write h_entry
    · exact h.entries key e h_cached h_part
    · exact h.le_asOf (List.mem_of_getElem? h_p) (.inl rfl)
  answer := by
    refine h.answer_set h_p fun h_j e h_e => ?_
    obtain h_given | ⟨q, -, h_hit⟩ | ⟨q, since, h_eq⟩ | ⟨q, since, keys, h_eq⟩ :=
      answered_next h_e
    · exact h.answer e (h_j ▸ h_given ▸ h_p)
    · exact h.entries _ e h_hit rfl
    · exact h.le_asOf (List.mem_of_getElem? h_p) (.inl h_eq)
    · exact h.le_asOf (List.mem_of_getElem? h_p) (.inr ⟨keys, h_eq⟩)

theorem After.fail (h : After env c u i s) {j : ℕ} {p : Party D R}
    (h_p : s.parties[j]? = some p) :
    After env c u i { s with parties := s.parties.set j (fail env p) } where
  dated q h_q := by
    obtain h_old | rfl := List.mem_or_eq_of_mem_set h_q
    · exact h.dated q h_old
    · exact (h.dated p (List.mem_of_getElem? h_p)).fail
  version := h.version
  calls q h_q := by
    obtain h_old | rfl := List.mem_or_eq_of_mem_set h_q
    · exact h.calls q h_old
    · obtain h_failed | h_same := @not_before_fail D R env p c
      · exact h_failed
      · rw [h_same]
        exact h.calls p (List.mem_of_getElem? h_p)
  entries := h.entries
  answer := by
    refine h.answer_set h_p fun h_j e h_e => ?_
    exact h.answer e (h_j ▸ answered_fail h_e ▸ h_p)

theorem After.step (h : After env c u i s) (a : Action D) : After env c u i (step env s a) := by
  cases a with
  | call u' q => exact h.join trivial id nofun
  | change users change => exact h.join trivial id nofun
  | serve j =>
    dsimp only [PermissionCache.step]
    cases h_p : s.parties[j]? with
    | none => exact h
    | some p => exact h.serve h_p
  | fail j =>
    dsimp only [PermissionCache.step]
    cases h_p : s.parties[j]? with
    | none => exact h
    | some p => exact h.fail h_p
  | expire key =>
    refine ⟨h.dated, h.version, h.calls, fun key' e h_entry => ?_, h.answer⟩
    exact h.entries key' e (Table.lookup_of_erase h_entry).2
  | expireIndex u' => exact ⟨h.dated, h.version, h.calls, h.entries, h.answer⟩

/-- **Freshness.** After a change is settled, answers are computed after it. -/
theorem fresh_of_guard (h : Along (step env) (Guard env) (start db) actions) :
    Fresh env db actions := by
  rintro early late rfl change h_change h_settled u h_u i h_unmade e h_e
  obtain ⟨h_early, -⟩ := along_append.mp h
  have h_inv : Inv env (run (step env) (start db) early) :=
    h_early.invariant (fun s a h_inv h_guard => h_inv.step a h_guard) (inv_start env db)
  have h_after := h_inv.after h_change h_settled h_u h_unmade
  rw [run_append] at h_e
  -- from here on no guard is needed
  have h_last : After env change.1 u i (run (step env) (run (step env) (start db) early) late) :=
    run_invariant (fun _ a h_mid => h_mid.step a) h_after late
  exact h_last.answer e h_e

end Runs

section Examples

private def numbers (deletePattern : Bool) : Env ℕ ℕ where
  md5 _ := "0"
  deletePattern := deletePattern
  getUserRulesByApp db _ _ := db

private def alice : User := ⟨"alice", "domain.com"⟩

private def hosts : Query := ⟨1, "monitor", "instance.1", false⟩

/-- A call before the change, and one that stores between the change and its clearing. -/
private def calm : List (Action ℕ) :=
  [.call alice hosts, .serve 0, .serve 0, .serve 0, .serve 0, .serve 0,
    .expire (getCacheKey (numbers false) alice hosts), .call alice hosts, .serve 1, .serve 1,
    .change [alice] Nat.succ, .serve 2, .serve 1, .serve 1, .serve 1,
    .serve 2, .serve 2, .serve 2, .call alice hosts, .serve 3, .serve 3, .serve 3, .serve 3,
    .serve 3]

theorem fresh_calm :
    Fresh (numbers false) 0 calm ∧
      (run (step (numbers false)) (start 0) calm).parties[3]? = some (.answered alice ⟨1, 1⟩) :=
  ⟨fresh_of_guard (by decide +kernel), rfl⟩

/-- A call computes the rules, and they are changed and the cache is cleared before it stores what
it has. -/
private def overtaken : List (Action ℕ) :=
  [.call alice hosts, .serve 0, .serve 0, .change [alice] Nat.succ, .serve 1, .serve 1, .serve 0,
    .call alice hosts]

/-- **Stored after the clearing.** The change is settled, and the next call is answered with the
old rules. -/
theorem not_fresh : ¬∀ (env : Env ℕ ℕ) (db : ℕ) (actions : List (Action ℕ)),
    Fresh env db actions := by
  intro h
  have h_settled : Settled (run (step (numbers true)) (start 0) overtaken) 1 := by
    intro p h_p
    have h_parties : (run (step (numbers true)) (start 0) overtaken).parties =
        [.answered alice ⟨0, 0⟩, .clearing 1 [], .request alice hosts] := rfl
    rw [h_parties] at h_p
    obtain rfl | rfl | rfl : p = .answered alice ⟨0, 0⟩ ∨ p = .clearing 1 [] ∨
        p = .request alice hosts := by
      simpa using h_p
    · exact ⟨id, id⟩
    · exact ⟨id, id⟩
    · exact ⟨id, id⟩
  have h_unmade : Unmade (run (step (numbers true)) (start 0) overtaken) 2 := by
    intro p h_p
    cases h_p
    exact ⟨alice, hosts, rfl⟩
  have h_late : 1 ≤ 0 :=
    h (numbers true) 0 (overtaken ++ [.serve 2]) overtaken [.serve 2] rfl (1, [alice])
      (List.mem_singleton_self _) h_settled alice (List.mem_singleton_self _) 2 h_unmade ⟨0, 0⟩ rfl
  exact absurd h_late (by decide)

end Examples

end PermissionCache
end Core
