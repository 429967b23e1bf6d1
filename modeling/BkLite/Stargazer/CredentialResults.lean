import Mathlib.Algebra.Order.BigOperators.Group.List
import Mathlib.Algebra.Order.Ring.Nat
import Mathlib.Order.ConditionallyCompleteLattice.Finset
import Mathlib.Data.Int.ConditionallyCompleteOrder
import Mathlib.Data.List.Sort
import BkLite.Framework.Rows
import BkLite.Framework.Runs

/-!
# The results of credentials

A worker that has tried a credential appends the outcome to a sorted set in Redis, scored by its
finish time in milliseconds (`append_result_event`, `core/credential_state_cache.py`). Each server
process pushes the outcomes on from time to time: it reads the cursor, lists the next events above
it, publishes them and moves the cursor to the greatest finish time among them (`push_once`,
`service/collect_credential_result_push_service.py`). Each of these is a step of its own here.

Finish times are texts of one format, whose order is that of the times; the score is known to be
monotone only, since it is computed in floating point.
-/

namespace Stargazer.CredentialResults

open Runs

/-! ### The events -/

/-- An event with its finish time. The number stands for the JSON text, which holds a new UUID. -/
structure Event where
  id : ℕ
  finishedAt : ℕ
deriving DecidableEq

/-- `_event_score`, and `COLLECT_CREDENTIAL_RESULT_PUSH_BATCH_LIMIT`. -/
structure Config where
  score : ℕ → ℤ
  mono : Monotone score
  limit : ℕ
  pos : 0 < limit

/-- `EVENT_RETENTION_SECONDS * 1000`. -/
def retention : ℤ := 7 * 24 * 3600 * 1000

section Model

variable (cfg : Config)

def Config.eventScore (e : Event) : ℤ := cfg.score e.finishedAt

def Before (e e' : Event) : Prop :=
  cfg.eventScore e < cfg.eventScore e' ∨ cfg.eventScore e = cfg.eventScore e' ∧ e.id ≤ e'.id

instance : DecidableRel (Before cfg) := fun _ _ => inferInstanceAs (Decidable (_ ∨ _))

/-- The event has a score above that of `since`; without one, every event has. -/
def Above (since : Option ℕ) (e : Event) : Prop :=
  ∀ time ∈ since, cfg.score time < cfg.eventScore e

instance (since : Option ℕ) : DecidablePred (Above cfg since) :=
  fun _ => inferInstanceAs (Decidable (∀ _ ∈ _, _))

/-- `append_result_event`: what is older than the retention goes. -/
def appendResultEvent (store : List Event) (e : Event) : List Event :=
  (store ++ [e]).filter fun e' =>
    ¬(0 ≤ cfg.eventScore e' ∧ cfg.eventScore e' ≤ cfg.eventScore e - retention)

def listResultEvents (store : List Event) (since : Option ℕ) : List Event :=
  ((store.filter fun e => Above cfg since e).insertionSort (Before cfg)).take cfg.limit

end Model

/-- The `next_since` of `build_results_payload`, none for the empty text. -/
def nextSince (events : List Event) : Option ℕ :=
  events.foldl (fun next e =>
    match next with
    | none => some e.finishedAt
    | some time => if time < e.finishedAt then some e.finishedAt else next) none

/-! ### The rounds -/

inductive Round
  | ready
  | read (since : Option ℕ)
  | listed (since : Option ℕ) (events : List Event)
  | published (next : Option ℕ) (events : List Event)
deriving DecidableEq

/-- The sorted set, the cursor and the loops, with what has been appended, published and ended. -/
structure State where
  store : List Event
  cursor : Option ℕ
  rounds : List Round
  appended : List Event
  published : List (List Event)
  ended : ℕ

inductive Action
  | append (e : Event)
  | move (i : ℕ)
  | fail (i : ℕ)

section Steps

variable (cfg : Config)

def advance (s : State) (i : ℕ) : Round → State
  | .ready => { s with rounds := s.rounds.set i (.read s.cursor) }
  | .read since =>
    let events := listResultEvents cfg s.store since
    if events = [] then { s with rounds := s.rounds.set i .ready, ended := s.ended + 1 }
    else { s with rounds := s.rounds.set i (.listed since events) }
  | .listed since events =>
    { s with
      rounds := s.rounds.set i (.published ((nextSince events).or since) events)
      published := s.published ++ [events] }
  | .published next _ =>
    { s with
      rounds := s.rounds.set i .ready
      cursor := next.or s.cursor
      ended := s.ended + 1 }

/-- `nats_publish` raises; the loop logs it and waits for its next round. -/
def failPublish (s : State) (i : ℕ) : Round → State
  | .listed _ _ => { s with rounds := s.rounds.set i .ready }
  | _ => s

def step (s : State) : Action → State
  | .append e =>
    { s with
      store := appendResultEvent cfg s.store e
      appended := s.appended ++ [e]
      ended := 0 }
  | .move i => (s.rounds[i]?).elim s (advance cfg s i)
  | .fail i => (s.rounds[i]?).elim s (failPublish s i)

end Steps

/-- Nothing has been appended; `loops` processes are up. -/
def start (loops : ℕ) : State := ⟨[], none, List.replicate loops .ready, [], [], 0⟩

/-! ### What is claimed, and when it holds -/

def State.times (s : State) (e : Event) : ℕ := s.published.countP (e ∈ ·)

def State.Enough (s : State) : Prop := s.appended.length + s.rounds.length ≤ s.ended

/-- **What is claimed.** No event is published twice, and after rounds enough each has been. -/
def Pushed (s : State) : Prop :=
  (∀ e ∈ s.appended, s.times e ≤ 1) ∧ (s.Enough → ∀ e ∈ s.appended, s.times e = 1)

def Round.Sent (e : Event) : Round → Prop
  | .published _ events => e ∈ events
  | _ => False

instance (e : Event) : DecidablePred (Round.Sent e)
  | .ready | .read _ | .listed _ _ => inferInstanceAs (Decidable False)
  | .published _ events => inferInstanceAs (Decidable (e ∈ events))

section Spec

variable (cfg : Config)

/-- An event has a new UUID, and nothing in the set is older than the retention. -/
def Assumed (s : State) : Action → State → Prop
  | .append e, _ =>
    (∀ e' ∈ s.appended, e'.id ≠ e.id) ∧
      ∀ e' ∈ s.store, cfg.eventScore e - retention < cfg.eventScore e'
  | _, _ => True

/-- No event is behind the cursor or sent before, and the cursor passes no event that is not
sent. -/
def Round.InOrder (s : State) : Round → Prop
  | .listed _ events => ∀ e ∈ events, Above cfg s.cursor e ∧ ∀ r ∈ s.rounds, ¬r.Sent e
  | .published next _ =>
    (∀ time ∈ s.cursor, ∀ time' ∈ next, cfg.score time ≤ cfg.score time') ∧
      ∀ e ∈ s.store, Above cfg s.cursor e → ¬Above cfg next e → ∃ r ∈ s.rounds, r.Sent e
  | _ => True

def InOrder (s : State) : Action → State → Prop
  | .append e, _ => Above cfg s.cursor e
  | .move i, _ => ∀ r ∈ s.rounds[i]?, r.InOrder cfg s
  | .fail _, _ => True

instance (s : State) (a : Action) (t : State) : Decidable (Assumed cfg s a t) :=
  match a with
  | .append _ => inferInstanceAs (Decidable (_ ∧ ∀ e' ∈ s.store, _))
  | .move _ | .fail _ => inferInstanceAs (Decidable True)

instance (s : State) : DecidablePred (Round.InOrder cfg s)
  | .listed _ events => inferInstanceAs (Decidable (∀ e ∈ events, _ ∧ ∀ r ∈ s.rounds, _))
  | .published _ _ =>
    inferInstanceAs (Decidable ((∀ _ ∈ s.cursor, ∀ _ ∈ _, _) ∧ ∀ e ∈ s.store, _))
  | .ready | .read _ => inferInstanceAs (Decidable True)

instance (s : State) (a : Action) (t : State) : Decidable (InOrder cfg s a t) :=
  match a with
  | .append e => inferInstanceAs (Decidable (Above cfg s.cursor e))
  | .move i => inferInstanceAs (Decidable (∀ r ∈ s.rounds[i]?, r.InOrder cfg s))
  | .fail _ => inferInstanceAs (Decidable True)

end Spec

/-! ### Batches -/

section Batches

variable {cfg : Config} {s : State} {e e' : Event} {events : List Event} {since : Option ℕ}

theorem mem_of_mem_list {store : List Event} (h : e ∈ listResultEvents cfg store since) :
    e ∈ store ∧ Above cfg since e := by
  have h_sorted := List.mem_of_mem_take h
  simpa using List.mem_filter.mp ((List.mem_insertionSort _).mp h_sorted)

theorem list_ne_nil {store : List Event} (h : e ∈ store) (h_above : Above cfg since e) :
    listResultEvents cfg store since ≠ [] := by
  have h_sorted : e ∈ (store.filter fun e => Above cfg since e).insertionSort (Before cfg) :=
    (List.mem_insertionSort _).mpr (List.mem_filter.mpr ⟨h, by simpa using h_above⟩)
  rw [listResultEvents, ne_eq, List.take_eq_nil_iff, not_or]
  exact ⟨cfg.pos.ne', List.ne_nil_of_mem h_sorted⟩

theorem nextSince_spec (h_ne : events ≠ []) :
    ∃ next, nextSince events = some next ∧ ∀ e ∈ events, e.finishedAt ≤ next := by
  induction events using List.reverseRecOn with
  | nil => exact absurd rfl h_ne
  | append_singleton events e ih =>
    have h_last : nextSince (events ++ [e]) = match nextSince events with
        | none => some e.finishedAt
        | some time => if time < e.finishedAt then some e.finishedAt else nextSince events := by
      rw [nextSince, List.foldl_append]
      rfl
    rw [h_last]
    by_cases h_first : events = []
    · subst h_first
      exact ⟨e.finishedAt, rfl, fun e' h_e' => by rw [List.mem_singleton.mp h_e']⟩
    · obtain ⟨next, h_next, h_le⟩ := ih h_first
      rw [h_next]
      dsimp only
      split_ifs with h_lt
      · refine ⟨_, rfl, fun e' h_e' => ?_⟩
        obtain h_old | h_new := List.mem_append.mp h_e'
        · exact (h_le e' h_old).trans h_lt.le
        · rw [List.mem_singleton.mp h_new]
      · refine ⟨next, rfl, fun e' h_e' => ?_⟩
        obtain h_old | h_new := List.mem_append.mp h_e'
        · exact h_le e' h_old
        · rw [List.mem_singleton.mp h_new]
          exact not_lt.mp h_lt

theorem not_above_of_le {next : ℕ} (h : e.finishedAt ≤ next) : ¬Above cfg (some next) e :=
  fun h_above => not_lt.mpr (cfg.mono h) (h_above next rfl)

theorem Above.of_le {next : Option ℕ} (h : Above cfg next e) (h_some : next.isSome)
    (h_le : ∀ time ∈ since, ∀ time' ∈ next, cfg.score time ≤ cfg.score time') :
    Above cfg since e := by
  obtain ⟨time', h_time'⟩ := Option.isSome_iff_exists.mp h_some
  intro time h_time
  exact (h_le time h_time time' h_time').trans_lt (h time' h_time')

theorem times_publish (s : State) (events : List Event) (e : Event) :
    (s.published ++ [events]).countP (e ∈ ·) = s.times e + if e ∈ events then 1 else 0 := by
  rw [List.countP_append, List.countP_singleton, State.times]
  simp

end Batches

/-! ### The invariant -/

def State.unpublished (s : State) : ℕ := s.appended.countP (s.times · = 0)

def Round.flying : Round → ℕ
  | .published _ _ => 1
  | _ => 0

def State.flying (s : State) : ℕ := (s.rounds.map Round.flying).sum

/-- What a round knows. -/
def Round.Ok (cfg : Config) (s : State) : Round → Prop
  | .ready => True
  | .read since => ∀ e, Above cfg s.cursor e → Above cfg since e
  | .listed _ events => events ≠ [] ∧ ∀ e ∈ events, e ∈ s.appended
  | .published next events =>
    next.isSome ∧ ∀ e ∈ events, e ∈ s.appended ∧ ¬Above cfg next e ∧ 0 < s.times e

/-- Behind the cursor each event is in one batch, above it only in one that has just been sent. -/
structure Inv (cfg : Config) (s : State) : Prop where
  store : s.store = s.appended
  known : ∀ e, 0 < s.times e → e ∈ s.appended
  once : ∀ e, s.times e ≤ 1
  behind : ∀ e ∈ s.appended, ¬Above cfg s.cursor e → s.times e = 1
  sent : ∀ e, 0 < s.times e → Above cfg s.cursor e → ∃ r ∈ s.rounds, r.Sent e
  rounds : ∀ r ∈ s.rounds, r.Ok cfg s
  enough : s.unpublished = 0 ∨
    s.ended + s.unpublished + s.flying ≤ s.appended.length + s.rounds.length

section Invariant

variable {cfg : Config} {s : State} {i : ℕ} {r r' : Round} {e : Event}

theorem flying_le (s : State) : s.flying ≤ s.rounds.length := by
  have h_sum : (s.rounds.map Round.flying).sum ≤ (s.rounds.map Round.flying).length • 1 := by
    refine List.sum_le_card_nsmul _ _ fun n h_n => ?_
    obtain ⟨r, -, rfl⟩ := List.mem_map.mp h_n
    cases r <;> simp [Round.flying]
  simpa [State.flying] using h_sum

theorem unpublished_le (s : State) : s.unpublished ≤ s.appended.length := List.countP_le_length

theorem inv_start (loops : ℕ) : Inv cfg (start loops) where
  store := rfl
  known e h := absurd h (lt_irrefl 0)
  once e := Nat.zero_le 1
  behind e h := absurd h List.not_mem_nil
  sent e h := absurd h (lt_irrefl 0)
  rounds r h := by
    rw [List.eq_of_mem_replicate h]
    trivial
  enough := .inl rfl

theorem Inv.setRound (h : Inv cfg s) (h_r : s.rounds[i]? = some r)
    (h_sent : ∀ e, r.Sent e → r'.Sent e) (h_ok : r'.Ok cfg s) (h_flying : r'.flying = r.flying) :
    Inv cfg { s with rounds := s.rounds.set i r' } where
  store := h.store
  known := h.known
  once := h.once
  behind := h.behind
  sent e h_pos h_above := Rows.exists_set_of_exists h_r (h_sent e) (h.sent e h_pos h_above)
  rounds q h_q := by
    obtain h_old | rfl := List.mem_or_eq_of_mem_set h_q
    · exact h.rounds q h_old
    · exact h_ok
  enough := by
    have h_sum : ((s.rounds.set i r').map Round.flying).sum = s.flying :=
      Rows.sum_map_set_of_eq Round.flying h_r (x := 0) h_flying
    show s.unpublished = 0 ∨
      s.ended + s.unpublished + ((s.rounds.set i r').map Round.flying).sum ≤
        s.appended.length + (s.rounds.set i r').length
    rw [h_sum, List.length_set]
    exact h.enough

theorem Inv.append (h : Inv cfg s) (h_assumed : Assumed cfg s (.append e) (step cfg s (.append e)))
    (h_above : Above cfg s.cursor e) : Inv cfg (step cfg s (.append e)) where
  store := by
    show appendResultEvent cfg s.store e = s.appended ++ [e]
    rw [appendResultEvent, h.store, List.filter_eq_self]
    intro e' h_e'
    have h_young : cfg.eventScore e - retention < cfg.eventScore e' := by
      obtain h_old | h_new := List.mem_append.mp h_e'
      · exact h_assumed.2 e' (h.store ▸ h_old)
      · rw [List.mem_singleton.mp h_new]
        exact Int.sub_lt_self _ (by decide)
    exact decide_eq_true fun h_removed => not_lt.mpr h_removed.2 h_young
  known e' h_pos := List.mem_append_left _ (h.known e' h_pos)
  once := h.once
  behind e' h_e' h_behind := by
    obtain h_old | h_new := List.mem_append.mp h_e'
    · exact h.behind e' h_old h_behind
    · rw [List.mem_singleton.mp h_new] at h_behind
      exact absurd h_above h_behind
  sent := h.sent
  rounds q h_q := by
    have h_ok := h.rounds q h_q
    cases q with
    | ready => trivial
    | read since => exact h_ok
    | listed since events => exact ⟨h_ok.1, fun e' h_e' => List.mem_append_left _ (h_ok.2 e' h_e')⟩
    | published next events =>
      exact ⟨h_ok.1, fun e' h_e' => ⟨List.mem_append_left _ (h_ok.2 e' h_e').1, (h_ok.2 e' h_e').2⟩⟩
  enough := by
    have h_unpublished := unpublished_le (step cfg s (.append e))
    have h_flying := flying_le (step cfg s (.append e))
    right
    show 0 + _ + _ ≤ _
    omega

theorem Inv.unpublished_of_empty (h : Inv cfg s) {since : Option ℕ}
    (h_r : s.rounds[i]? = some (.read since)) (h_empty : listResultEvents cfg s.store since = []) :
    s.unpublished = 0 := by
  rw [State.unpublished, List.countP_eq_zero]
  intro e h_e h_zero
  have h_times : s.times e = 0 := of_decide_eq_true h_zero
  have h_above : Above cfg s.cursor e := by
    by_contra h_behind
    rw [h.behind e h_e h_behind] at h_times
    exact absurd h_times one_ne_zero
  have h_known := h.rounds _ (List.mem_of_getElem? h_r) e h_above
  exact list_ne_nil (h.store ▸ h_e) h_known h_empty

theorem Inv.endEmpty (h : Inv cfg s) {since : Option ℕ}
    (h_r : s.rounds[i]? = some (.read since)) (h_empty : listResultEvents cfg s.store since = []) :
    Inv cfg { s with rounds := s.rounds.set i .ready, ended := s.ended + 1 } := by
  have h_set : Inv cfg { s with rounds := s.rounds.set i .ready } :=
    h.setRound h_r (fun _ h_sent => h_sent) trivial rfl
  exact { h_set with enough := .inl (h.unpublished_of_empty h_r h_empty) }

theorem Inv.publish (h : Inv cfg s) {since : Option ℕ} {events : List Event}
    (h_r : s.rounds[i]? = some (.listed since events))
    (h_order : (Round.listed since events).InOrder cfg s) :
    Inv cfg (advance cfg s i (.listed since events)) := by
  obtain ⟨h_ne, h_in⟩ := h.rounds _ (List.mem_of_getElem? h_r)
  obtain ⟨next, h_next, h_le⟩ := nextSince_spec h_ne
  -- an event of the batch has not been published
  have h_new : ∀ e ∈ events, s.times e = 0 := by
    intro e h_e
    by_contra h_pos
    obtain ⟨h_above, h_unsent⟩ := h_order e h_e
    obtain ⟨q, h_q, h_sent⟩ := h.sent e (Nat.pos_of_ne_zero h_pos) h_above
    exact h_unsent q h_q h_sent
  have h_times : ∀ e, (advance cfg s i (.listed since events)).times e =
      s.times e + if e ∈ events then 1 else 0 := times_publish s events
  refine ⟨h.store, fun e h_pos => ?_, fun e => ?_, fun e h_e h_behind => ?_,
    fun e h_pos h_above => ?_, fun q h_q => ?_, ?_⟩
  · rw [h_times] at h_pos
    split_ifs at h_pos with h_e
    · exact h_in e h_e
    · exact h.known e h_pos
  · rw [h_times]
    split_ifs with h_e
    · rw [h_new e h_e]
    · exact h.once e
  · have h_one := h.behind e h_e h_behind
    rw [h_times, h_one, if_neg fun h_mem => ?_]
    rw [h_new e h_mem] at h_one
    exact absurd h_one zero_ne_one
  · rw [h_times] at h_pos
    split_ifs at h_pos with h_e
    · exact Rows.exists_set h_r h_e
    · exact Rows.exists_set_of_exists h_r False.elim (h.sent e h_pos h_above)
  · obtain h_old | rfl := List.mem_or_eq_of_mem_set h_q
    · have h_ok := h.rounds q h_old
      cases q with
      | published next' events' =>
        refine ⟨h_ok.1, fun e h_e => ?_⟩
        obtain ⟨h_e_in, h_passed, h_pos⟩ := h_ok.2 e h_e
        exact ⟨h_e_in, h_passed, by rw [h_times]; exact Nat.lt_add_right _ h_pos⟩
      | _ => exact h_ok
    · show ((nextSince events).or since).isSome ∧ _
      rw [h_next]
      refine ⟨rfl, fun e h_e => ⟨h_in e h_e, not_above_of_le (h_le e h_e), ?_⟩⟩
      rw [h_times, if_pos h_e]
      exact Nat.succ_pos _
  · -- the batch takes one event at least off those that are left
    refine h.enough.imp (fun h_none => ?_) fun h_enough => ?_
    · rw [State.unpublished, List.countP_eq_zero] at h_none ⊢
      intro e h_e h_zero
      rw [decide_eq_true_iff, h_times] at h_zero
      exact h_none e h_e (decide_eq_true (Nat.eq_zero_of_add_eq_zero_right h_zero))
    · obtain ⟨e, h_e⟩ := List.exists_mem_of_ne_nil events h_ne
      have h_less : (advance cfg s i (.listed since events)).unpublished < s.unpublished := by
        refine Rows.countP_lt (fun e' _ h_zero => ?_) (h_in e h_e) (by simp [h_new e h_e]) ?_
        · rw [decide_eq_true_iff, h_times] at h_zero
          exact decide_eq_true (Nat.eq_zero_of_add_eq_zero_right h_zero)
        · rw [h_times, if_pos h_e]
          simp
      have h_flying : (advance cfg s i (.listed since events)).flying = s.flying + 1 :=
        Rows.sum_map_set_of_eq Round.flying h_r rfl
      show s.ended + _ + _ ≤ s.appended.length + (s.rounds.set i _).length
      rw [h_flying, List.length_set]
      omega

theorem Inv.moveCursor (h : Inv cfg s) {next : Option ℕ} {events : List Event}
    (h_r : s.rounds[i]? = some (.published next events))
    (h_order : (Round.published next events).InOrder cfg s) :
    Inv cfg (advance cfg s i (.published next events)) := by
  obtain ⟨h_some, h_events⟩ := h.rounds _ (List.mem_of_getElem? h_r)
  obtain ⟨h_forward, h_all⟩ := h_order
  obtain ⟨time, rfl⟩ := Option.isSome_iff_exists.mp h_some
  have h_back : ∀ e, Above cfg (some time) e → Above cfg s.cursor e := fun e h_above =>
    h_above.of_le rfl h_forward
  refine ⟨h.store, h.known, h.once, fun e h_e h_behind => ?_, fun e h_pos h_above => ?_,
    fun q h_q => ?_, ?_⟩
  · by_cases h_above : Above cfg s.cursor e
    · -- what the cursor passes has been sent
      obtain ⟨q, h_q, h_sent⟩ := h_all e (h.store ▸ h_e) h_above h_behind
      cases q with
      | published next' events' =>
        exact le_antisymm (h.once e) ((h.rounds _ h_q).2 e h_sent).2.2
      | _ => exact h_sent.elim
    · exact h.behind e h_e h_above
  · exact Rows.exists_set_of_exists h_r (fun h_mem => absurd h_above (h_events e h_mem).2.1)
      (h.sent e h_pos (h_back e h_above))
  · obtain h_old | rfl := List.mem_or_eq_of_mem_set h_q
    · have h_ok := h.rounds q h_old
      cases q with
      | read since => exact fun e h_above => h_ok e (h_back e h_above)
      | _ => exact h_ok
    · trivial
  · have h_flying : (advance cfg s i (.published (some time) events)).flying + 1 = s.flying :=
      Rows.sum_map_set Round.flying .ready h_r
    refine h.enough.imp id fun h_enough => ?_
    show s.ended + 1 + s.unpublished + _ ≤ s.appended.length + (s.rounds.set i _).length
    rw [List.length_set]
    omega

theorem Inv.step (h : Inv cfg s) (a : Action) (h_assumed : Assumed cfg s a (step cfg s a))
    (h_order : InOrder cfg s a (step cfg s a)) : Inv cfg (step cfg s a) := by
  cases a with
  | append e => exact h.append h_assumed h_order
  | move i =>
    show Inv cfg ((s.rounds[i]?).elim s (advance cfg s i))
    cases h_r : s.rounds[i]? with
    | none => exact h
    | some r =>
      have h_here : r.InOrder cfg s := h_order r h_r
      show Inv cfg (advance cfg s i r)
      cases r with
      | ready => exact h.setRound h_r (fun _ h_sent => h_sent) (fun _ h_above => h_above) rfl
      | read since =>
        unfold advance
        dsimp only
        split_ifs with h_empty
        · exact h.endEmpty h_r h_empty
        · refine h.setRound h_r (fun _ h_sent => h_sent) ⟨h_empty, fun e h_e => ?_⟩ rfl
          exact h.store ▸ (mem_of_mem_list h_e).1
      | listed since events => exact h.publish h_r h_here
      | published next events => exact h.moveCursor h_r h_here
  | fail i =>
    show Inv cfg ((s.rounds[i]?).elim s (failPublish s i))
    cases h_r : s.rounds[i]? with
    | none => exact h
    | some r =>
      show Inv cfg (failPublish s i r)
      cases r with
      | listed since events => exact h.setRound h_r (fun _ h_sent => h_sent) trivial rfl
      | _ => exact h

theorem Inv.pushed (h : Inv cfg s) : Pushed s := by
  refine ⟨fun e _ => h.once e, fun h_ended e h_e => ?_⟩
  have h_none : s.unpublished = 0 := by
    obtain h_none | h_enough := h.enough
    · exact h_none
    · unfold State.Enough at h_ended
      omega
  have h_zero := List.countP_eq_zero.mp h_none e h_e
  have h_once := h.once e
  rw [decide_eq_true_iff] at h_zero
  omega

end Invariant

/-! ### The runs -/

/-- **Each event is pushed once** in a run whose steps are in order. -/
theorem pushed_once (cfg : Config) (loops : ℕ) (as : List Action)
    (h_assumed : Along (step cfg) (Assumed cfg) (start loops) as)
    (h_order : Along (step cfg) (InOrder cfg) (start loops) as) :
    Always (step cfg) Pushed (start loops) as := by
  intro pre h_pre
  have h_always := (h_assumed.and h_order).always (I := Inv cfg)
    (fun s a h h_step => h.step a h_step.1 h_step.2) (inv_start loops)
  exact (h_always pre h_pre).pushed

section Examples

private def config : Config where
  score t := t / 1000
  mono t t' h := by
    dsimp only
    omega
  limit := 2
  pos := by decide

private def inTurn : List Action :=
  [.append ⟨0, 2000⟩, .append ⟨1, 1000⟩, .move 0, .move 0, .fail 0, .move 0, .move 0, .move 0,
    .move 0, .append ⟨2, 3000⟩, .move 0, .move 0, .move 0, .move 0, .move 0, .move 0]

private def late : List Action :=
  [.append ⟨0, 2000⟩, .move 0, .move 0, .move 0, .move 0, .append ⟨1, 1000⟩] ++
    List.replicate 6 (.move 0)

theorem pushed_inTurn : Always (step config) Pushed (start 1) inTurn :=
  pushed_once config 1 inTurn (by decide +kernel) (by decide +kernel)

theorem not_pushed_once : ¬∀ (cfg : Config) (loops : ℕ) (as : List Action),
    Along (step cfg) (Assumed cfg) (start loops) as →
      Always (step cfg) Pushed (start loops) as := by
  intro h
  have h_last := (h config 1 late (by decide +kernel)).last
  have h_lost : (run (step config) (start 1) late).times ⟨1, 1000⟩ = 1 :=
    h_last.2 (by unfold State.Enough; decide +kernel) _ (by decide +kernel)
  exact absurd h_lost (by decide +kernel)

end Examples

end Stargazer.CredentialResults
