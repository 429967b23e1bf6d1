import BkLite.Framework.Tasks

/-!
# A message that is sent once

Many tasks may come to the point from which they send a final message however they go on
(`Task.Sends`), but one must, and what the message says must be true of the record. Three phases
lead there (`Notice.Phase`): nobody is bound to send, one task is, the message is out. The record is
closed by the bound task only; the others change it within `Keeps`, so the bound task is proved on
its own (`Notice.Ensures`, a reading of the task under what the others may do), and so is every task
before it is bound (`Notice.Commits`).
-/

namespace Tasks

variable {Start Op Row Ask Ans Msg : Type*}

/-- However the task goes on, it sends a final message. -/
def Task.Sends (final : Msg → Bool) : Task Op Row Ask Ans Msg → Prop
  | .done => False
  | .access _ next => ∀ row, (next row).Sends final
  | .ask _ next => ∀ ans, (next ans).Sends final
  | .send m next => final m = true ∨ next.Sends final

/-! ### One step of one task -/

/-- What one step of a task leaves of it, of the record, and what it sends. -/
inductive Steps (apply : Op → Row → Row) (row : Row) (ans : Ans) :
    Task Op Row Ask Ans Msg → Task Op Row Ask Ans Msg → Row → List Msg → Prop
  | access (op : Op) (next : Row → Task Op Row Ask Ans Msg) :
    Steps apply row ans (.access op next) (next row) (apply op row) []
  | ask (q : Ask) (next : Ans → Task Op Row Ask Ans Msg) :
    Steps apply row ans (.ask q next) (next ans) row []
  | send (m : Msg) (next : Task Op Row Ask Ans Msg) :
    Steps apply row ans (.send m next) next row [m]

variable {S : System Start Op Row Ask Ans Msg} {s : Pool Op Row Ask Ans Msg} {i : ℕ} {ans : Ans}

theorem step_eq (ans : Ans) {t : Task Op Row Ask Ans Msg} (h : s.tasks[i]? = some t) :
    t = .done ∨ ∃ t' row' out, Steps S.apply s.row ans t t' row' out ∧
      S.step s (.step i ans) =
        ⟨row', s.tasks.set i t' ++ out.filterMap (fun m => (S.queued m).map S.task),
          s.sent ++ out⟩ := by
  cases t with
  | done => exact .inl rfl
  | access op next =>
    refine .inr ⟨_, _, _, .access op next, ?_⟩
    rw [Pool.step_access h, List.filterMap_nil, List.append_nil, List.append_nil]
  | ask q next =>
    refine .inr ⟨_, _, _, .ask q next, ?_⟩
    rw [Pool.step_ask h, List.filterMap_nil, List.append_nil, List.append_nil]
  | send m next =>
    refine .inr ⟨_, _, _, .send m next, ?_⟩
    rw [Pool.step_send h]
    cases h_queued : S.queued m with
    | none => simp [h_queued]
    | some request => simp [h_queued]

/-! ### Notices -/

/-- The final messages, the accesses that close the record, and when a message is true. -/
structure Notice (Op Row Msg : Type*) (apply : Op → Row → Row) where
  final : Msg → Bool
  Closes : Op → Row → Prop
  Allowed : Op → Row → Prop
  Keeps : Row → Row → Prop
  Open : Row → Prop
  Good : Msg → Row → Prop
  keeps_refl : ∀ row, Keeps row row
  keeps_trans : ∀ row row' row'', Keeps row row' → Keeps row' row'' → Keeps row row''
  keeps_apply : ∀ op row, ¬Closes op row → Keeps row (apply op row)
  open_keeps : ∀ row row', Open row → Keeps row row' → Open row'
  good_keeps : ∀ m row row', Good m row → Keeps row row' → Good m row'

namespace Notice

variable (N : Notice Op Row Msg S.apply)

/-- While the others keep the record, the task sends one final message, and that is true. -/
def Ensures : Task Op Row Ask Ans Msg → Row → Prop
  | .done, _ => False
  | .access op next, row => ∀ row', N.Keeps row row' → N.Allowed op row' →
    Ensures (next row') (S.apply op row')
  | .ask _ next, row => ∀ ans, Ensures (next ans) row
  | .send m next, row => (N.final m = true → N.Good m row ∧ ¬next.Sends N.final) ∧
    (N.final m = false → Ensures next row)

/-- A task that is not bound, and where it gets bound while the record is open, ensures the
message. -/
def Commits : Task Op Row Ask Ans Msg → Prop
  | .done => True
  | .access op next => ∀ row, N.Open row → N.Allowed op row →
    (N.Closes op row → (next row).Sends N.final) →
    ((next row).Sends N.final ∧ N.Ensures (next row) (S.apply op row)) ∨
      (¬(next row).Sends N.final ∧ Commits (next row))
  | .ask _ next => ∀ ans,
    ((next ans).Sends N.final ∧ ∀ row, N.Open row → N.Ensures (next ans) row) ∨
      (¬(next ans).Sends N.final ∧ Commits (next ans))
  | .send _ next =>
    (next.Sends N.final ∧ ∀ row, N.Open row → N.Ensures next row) ∨
      (¬next.Sends N.final ∧ Commits next)

def Unbound (t : Task Op Row Ask Ans Msg) : Prop := ¬t.Sends N.final ∧ N.Commits t

/-- The phases of a record. -/
inductive Phase (s : Pool Op Row Ask Ans Msg) : Prop
  | unbound (h_sent : s.sent.filter N.final = []) (h_open : N.Open s.row)
    (h_tasks : ∀ t ∈ s.tasks, N.Unbound t)
  | bound (i : ℕ) (t : Task Op Row Ask Ans Msg) (h_sent : s.sent.filter N.final = [])
    (h_i : s.tasks[i]? = some t) (h_sends : t.Sends N.final) (h_ensures : N.Ensures t s.row)
    (h_others : ∀ j u, j ≠ i → s.tasks[j]? = some u → ¬u.Sends N.final)
  | sent (m : Msg) (h_sent : s.sent.filter N.final = [m]) (h_good : N.Good m s.row)
    (h_others : ∀ u ∈ s.tasks, ¬u.Sends N.final)

/-- A task gets bound once, and one that closes the record is bound. -/
structure Orderly (s : Pool Op Row Ask Ans Msg) (e : Event Start Ans) : Prop where
  starts : ∀ request, e = .start request → N.Unbound (S.task request)
  allowed : ∀ i ans op next, e = .step i ans → s.tasks[i]? = some (.access op next) →
    N.Allowed op s.row
  closes : ∀ i ans op next, e = .step i ans → s.tasks[i]? = some (.access op next) →
    N.Closes op s.row → (next s.row).Sends N.final
  single : ∀ i ans t t', e = .step i ans → s.tasks[i]? = some t →
    (S.step s e).tasks[i]? = some t' → ¬t.Sends N.final → t'.Sends N.final →
    s.sent.filter N.final = [] ∧ ∀ u ∈ s.tasks, ¬u.Sends N.final

variable {N} {t t' u : Task Op Row Ask Ans Msg} {row row' : Row} {out : List Msg}
  {e : Event Start Ans}

theorem Ensures.keeps (h : N.Ensures t row) (h_keeps : N.Keeps row row') : N.Ensures t row' := by
  induction t generalizing row row' with
  | done => exact h
  | access op next ih =>
    exact fun row'' h_keeps' => h row'' (N.keeps_trans _ _ _ h_keeps h_keeps')
  | ask q next ih => exact fun ans => ih ans (h ans) h_keeps
  | send m next ih =>
    refine ⟨fun h_final => ?_, fun h_final => ih (h.2 h_final) h_keeps⟩
    obtain ⟨h_good, h_next⟩ := h.1 h_final
    exact ⟨N.good_keeps _ _ _ h_good h_keeps, h_next⟩

theorem sends_of_steps (h : Steps S.apply row ans t t' row' out) (h_sends : t.Sends N.final) :
    t'.Sends N.final ∨ ∃ m, out = [m] ∧ N.final m = true := by
  cases h with
  | access op next => exact .inl (h_sends row)
  | ask q next => exact .inl (h_sends ans)
  | send m next => exact h_sends.symm.imp_right fun h_final => ⟨m, rfl, h_final⟩

theorem filter_of_steps (h : Steps S.apply row ans t t' row' out) (h_sends : ¬t.Sends N.final) :
    out.filter N.final = [] := by
  cases h with
  | access op next => rfl
  | ask q next => rfl
  | send m next =>
    rw [List.filter_eq_nil_iff]
    intro m' h_m' h_final
    rw [List.mem_singleton.mp h_m'] at h_final
    exact h_sends (.inl h_final)

theorem keeps_of_steps (h : Steps S.apply s.row ans t t' row' out)
    (h_closes : ∀ op next, t = .access op next → N.Closes op s.row → t'.Sends N.final)
    (h_sends : ¬t'.Sends N.final) : N.Keeps s.row row' := by
  cases h with
  | access op next =>
    exact N.keeps_apply op s.row fun h_op => h_sends (h_closes op next rfl h_op)
  | ask q next => exact N.keeps_refl _
  | send m next => exact N.keeps_refl _

/-! ### Tasks that are ready -/

def Ready (N : Notice Op Row Msg S.apply) (t : Task Op Row Ask Ans Msg) : Prop :=
  (t.Sends N.final ∧ ∀ row, N.Open row → N.Ensures t row) ∨ N.Unbound t

theorem Ready.here (h : N.Ready t) (h_open : N.Open row) :
    (t.Sends N.final ∧ N.Ensures t row) ∨ N.Unbound t :=
  h.imp_left fun ⟨h_sends, h_all⟩ => ⟨h_sends, h_all row h_open⟩

theorem Ready.unbound (h : N.Ready t) (h_sends : ¬t.Sends N.final) : N.Unbound t :=
  h.resolve_left fun h_bound => h_sends h_bound.1

theorem ready_done : N.Ready (.done : Task Op Row Ask Ans Msg) := .inr ⟨id, trivial⟩

theorem ready_access {op : Op} {next : Row → Task Op Row Ask Ans Msg}
    (h : ∀ row, N.Open row → N.Allowed op row → (N.Closes op row → (next row).Sends N.final) →
      ((next row).Sends N.final ∧ N.Ensures (next row) (S.apply op row)) ∨
        N.Unbound (next row)) : N.Ready (.access op next) := by
  by_cases h_sends : ∀ row, (next row).Sends N.final
  · refine .inl ⟨h_sends, fun row h_open row' h_keeps h_allowed => ?_⟩
    have h_next := h row' (N.open_keeps _ _ h_open h_keeps) h_allowed fun _ => h_sends row'
    exact (h_next.resolve_right fun h_unbound => h_unbound.1 (h_sends row')).2
  · exact .inr ⟨h_sends, h⟩

theorem ready_keep {op : Op} {next : Row → Task Op Row Ask Ans Msg}
    (h_op : ∀ row, N.Open row → ¬N.Closes op row) (h : ∀ row, N.Open row → N.Ready (next row)) :
    N.Ready (.access op next) :=
  ready_access fun row h_open _ _ =>
    (h row h_open).here (N.open_keeps _ _ h_open (N.keeps_apply op row (h_op row h_open)))

theorem ready_close {op : Op} {next : Row → Task Op Row Ask Ans Msg}
    (h_op : ∀ row, N.Closes op row) (h : ∀ row, ¬(next row).Sends N.final) :
    N.Ready (.access op next) :=
  ready_access fun row _ _ h_closes => absurd (h_closes (h_op row)) (h row)

theorem ready_ask {q : Ask} {next : Ans → Task Op Row Ask Ans Msg}
    (h : ∀ ans, N.Ready (next ans)) : N.Ready (.ask q next) := by
  by_cases h_sends : ∀ ans, (next ans).Sends N.final
  · refine .inl ⟨h_sends, fun row h_open ans => ?_⟩
    exact (((h ans).here h_open).resolve_right fun h_unbound => h_unbound.1 (h_sends ans)).2
  · exact .inr ⟨h_sends, h⟩

theorem ready_send {m : Msg} {next : Task Op Row Ask Ans Msg} (h_m : N.final m = false)
    (h : N.Ready next) : N.Ready (.send m next) := by
  have h_not : ¬N.final m = true := fun h_final => Bool.false_ne_true (h_m.symm.trans h_final)
  by_cases h_sends : next.Sends N.final
  · refine .inl ⟨.inr h_sends, fun row h_open => ⟨fun h_final => absurd h_final h_not, fun _ => ?_⟩⟩
    exact ((h.here h_open).resolve_right fun h_unbound => h_unbound.1 h_sends).2
  · exact .inr ⟨fun h_or => h_or.elim h_not h_sends, h⟩

/-! ### Phases -/

/-- **The step of an unbound task** while the record is open: it gets bound and ensures the message,
or stays unbound. -/
theorem Unbound.steps (h : N.Unbound t) (h_open : N.Open s.row)
    (h_steps : Steps S.apply s.row ans t t' row' out)
    (h_allowed : ∀ op next, t = .access op next → N.Allowed op s.row)
    (h_closes : ∀ op next, t = .access op next → N.Closes op s.row → t'.Sends N.final) :
    (t'.Sends N.final ∧ N.Ensures t' row') ∨ N.Unbound t' := by
  obtain ⟨-, h_commits⟩ := h
  cases h_steps with
  | access op next => exact h_commits s.row h_open (h_allowed op next rfl) (h_closes op next rfl)
  | ask q next => exact (h_commits ans).imp_left fun ⟨h_sends, h_all⟩ => ⟨h_sends, h_all _ h_open⟩
  | send m next => exact h_commits.imp_left fun ⟨h_sends, h_all⟩ => ⟨h_sends, h_all _ h_open⟩

theorem Ensures.steps (h : N.Ensures t s.row) (h_sends : t.Sends N.final)
    (h_steps : Steps S.apply s.row ans t t' row' out)
    (h_allowed : ∀ op next, t = .access op next → N.Allowed op s.row) :
    (out.filter N.final = [] ∧ t'.Sends N.final ∧ N.Ensures t' row') ∨
      ∃ m, out.filter N.final = [m] ∧ N.Good m row' ∧ ¬t'.Sends N.final := by
  have h_next := sends_of_steps h_steps h_sends
  cases h_steps with
  | access op next =>
    have h_t' := h_next.resolve_right fun ⟨_, h_out, _⟩ => List.cons_ne_nil _ _ h_out.symm
    exact .inl ⟨rfl, h_t', h s.row (N.keeps_refl _) (h_allowed op next rfl)⟩
  | ask q next =>
    have h_t' := h_next.resolve_right fun ⟨_, h_out, _⟩ => List.cons_ne_nil _ _ h_out.symm
    exact .inl ⟨rfl, h_t', h ans⟩
  | send m next =>
    cases h_final : N.final m with
    | true =>
      refine .inr ⟨m, by rw [List.filter_singleton, h_final]; rfl, ?_⟩
      exact h.1 h_final
    | false =>
      refine .inl ⟨by rw [List.filter_singleton, h_final]; rfl, ?_, h.2 h_final⟩
      obtain h_sent | h_t' := h_sends
      · exact absurd (h_final.symm.trans h_sent) Bool.false_ne_true
      · exact h_t'

theorem getElem?_set_append {α : Type*} {xs new : List α} {x y : α} {i j : ℕ}
    (h_lt : i < xs.length) (h : (xs.set i x ++ new)[j]? = some y) :
    (j = i ∧ y = x) ∨ (j ≠ i ∧ xs[j]? = some y) ∨ y ∈ new := by
  by_cases h_j : j < xs.length
  · rw [List.getElem?_append_left (by rwa [List.length_set])] at h
    by_cases h_eq : j = i
    · rw [h_eq, List.getElem?_set_self h_lt] at h
      exact .inl ⟨h_eq, (Option.some.inj h).symm⟩
    · rw [List.getElem?_set_ne (Ne.symm h_eq)] at h
      exact .inr (.inl ⟨h_eq, h⟩)
  · rw [List.getElem?_append_right (by rw [List.length_set]; omega)] at h
    exact .inr (.inr (List.mem_of_getElem? h))

theorem Phase.start (h : N.Phase s) (h_t : N.Unbound t) :
    N.Phase { s with tasks := s.tasks ++ [t] } := by
  have h_new {u : Task Op Row Ask Ans Msg} (h_u : u ∈ s.tasks ++ [t]) : u ∈ s.tasks ∨ u = t :=
    (List.mem_append.mp h_u).imp_right List.mem_singleton.mp
  cases h with
  | unbound h_sent h_open h_tasks =>
    refine .unbound h_sent h_open fun u h_u => ?_
    obtain h_old | rfl := h_new h_u
    · exact h_tasks u h_old
    · exact h_t
  | bound i v h_sent h_i h_sends h_ensures h_others =>
    have h_lt := (List.getElem?_eq_some_iff.mp h_i).1
    refine .bound i v h_sent ((List.getElem?_append_left h_lt).trans h_i) h_sends h_ensures ?_
    intro j u h_j h_u
    by_cases h_old : j < s.tasks.length
    · exact h_others j u h_j ((List.getElem?_append_left h_old).symm.trans h_u)
    · replace h_u := (List.getElem?_append_right (Nat.le_of_not_lt h_old)).symm.trans h_u
      rw [List.mem_singleton.mp (List.mem_of_getElem? h_u)]
      exact h_t.1
  | sent m h_sent h_good h_others =>
    refine .sent m h_sent h_good fun u h_u => ?_
    obtain h_old | rfl := h_new h_u
    · exact h_others u h_old
    · exact h_t.1

/-- An orderly step of one task: what becomes of it, of the others, and of what has been sent. -/
structure Moved (N : Notice Op Row Msg S.apply) (s s' : Pool Op Row Ask Ans Msg) (ans : Ans)
    (i : ℕ) (t t' : Task Op Row Ask Ans Msg) (out : List Msg) : Prop where
  before : s.tasks[i]? = some t
  after : s'.tasks[i]? = some t'
  steps : Steps S.apply s.row ans t t' s'.row out
  sent : s'.sent = s.sent ++ out
  others : ∀ j u, j ≠ i → s'.tasks[j]? = some u → s.tasks[j]? = some u ∨ N.Unbound u
  kept : ∀ j u, j ≠ i → s.tasks[j]? = some u → s'.tasks[j]? = some u
  allowed : ∀ op next, t = .access op next → N.Allowed op s.row
  closes : ∀ op next, t = .access op next → N.Closes op s.row → t'.Sends N.final
  single : ¬t.Sends N.final → t'.Sends N.final →
    s.sent.filter N.final = [] ∧ ∀ u ∈ s.tasks, ¬u.Sends N.final

section Moved

variable {s' : Pool Op Row Ask Ans Msg} {i : ℕ}

theorem Orderly.moved (h_queue : ∀ m request, S.queued m = some request →
    N.Unbound (S.task request)) (h : N.Orderly s (.step i ans)) :
    S.step s (.step i ans) = s ∨
      ∃ t t' out, N.Moved s (S.step s (.step i ans)) ans i t t' out := by
  cases h_i : s.tasks[i]? with
  | none => exact .inl (Pool.step_idle (.inl h_i))
  | some t =>
    obtain rfl | ⟨t', row', out, h_steps, h_eq⟩ := step_eq (S := S) ans h_i
    · exact .inl (Pool.step_idle (.inr h_i))
    have h_lt := (List.getElem?_eq_some_iff.mp h_i).1
    have h_at : (S.step s (.step i ans)).tasks[i]? = some t' := by
      rw [h_eq]
      exact (List.getElem?_append_left (by rwa [List.length_set])).trans
        (List.getElem?_set_self h_lt)
    refine .inr ⟨t, t', out, {
      before := h_i
      after := h_at
      steps := h_eq ▸ h_steps
      sent := by rw [h_eq]
      others := ?_
      kept := ?_
      allowed := ?_
      closes := ?_
      single := h.single i ans t t' rfl h_i h_at }⟩
    · rw [h_eq]
      intro j u h_j h_u
      obtain ⟨h_ji, -⟩ | ⟨-, h_old⟩ | h_new := getElem?_set_append h_lt h_u
      · exact absurd h_ji h_j
      · exact .inl h_old
      · obtain ⟨m, -, h_m⟩ := List.mem_filterMap.mp h_new
        obtain ⟨request, h_request, rfl⟩ := Option.map_eq_some_iff.mp h_m
        exact .inr (h_queue m request h_request)
    · rw [h_eq]
      intro j u h_j h_u
      have h_jlt := (List.getElem?_eq_some_iff.mp h_u).1
      rw [List.getElem?_append_left (by rwa [List.length_set]),
        List.getElem?_set_ne (Ne.symm h_j)]
      exact h_u
    · rintro op next rfl
      exact h.allowed i ans op next rfl h_i
    · rintro op next rfl h_op
      cases h_steps
      exact h.closes i ans op next rfl h_i h_op

variable (h : N.Moved s s' ans i t t' out)
include h

theorem Moved.not_sends (h_others : ∀ j u, j ≠ i → s.tasks[j]? = some u → ¬u.Sends N.final)
    (j : ℕ) (u : Task Op Row Ask Ans Msg) (h_j : j ≠ i) (h_u : s'.tasks[j]? = some u) :
    ¬u.Sends N.final :=
  (h.others j u h_j h_u).elim (h_others j u h_j) fun h_unbound => h_unbound.1

theorem Moved.forall_mem {P : Task Op Row Ask Ans Msg → Prop} (h_t' : P t')
    (h_others : ∀ j u, j ≠ i → s'.tasks[j]? = some u → P u) : ∀ u ∈ s'.tasks, P u := by
  intro u h_u
  obtain ⟨j, h_j⟩ := List.mem_iff_getElem?.mp h_u
  by_cases h_ji : j = i
  · subst h_ji
    obtain rfl : u = t' := Option.some.inj (h_j.symm.trans h.after)
    exact h_t'
  · exact h_others j u h_ji h_j

theorem Moved.filter_sent :
    s'.sent.filter N.final = s.sent.filter N.final ++ out.filter N.final := by
  rw [h.sent, List.filter_append]

theorem Moved.quiet (h_t : ¬t.Sends N.final) (h_t' : ¬t'.Sends N.final) :
    s'.sent.filter N.final = s.sent.filter N.final ∧ N.Keeps s.row s'.row := by
  refine ⟨?_, keeps_of_steps h.steps h.closes h_t'⟩
  rw [h.filter_sent, filter_of_steps h.steps h_t, List.append_nil]

theorem Moved.of_unbound (h_sent : s.sent.filter N.final = []) (h_open : N.Open s.row)
    (h_tasks : ∀ u ∈ s.tasks, N.Unbound u) : N.Phase s' := by
  have h_t := h_tasks t (List.mem_of_getElem? h.before)
  obtain ⟨h_sends, h_ensures⟩ | h_t' := h_t.steps h_open h.steps h.allowed h.closes
  · -- the task gets bound
    have h_filter : s'.sent.filter N.final = [] := by
      rw [h.filter_sent, h_sent, filter_of_steps h.steps h_t.1]
      rfl
    exact .bound i t' h_filter h.after h_sends h_ensures
      (h.not_sends fun j u _ h_u => (h_tasks u (List.mem_of_getElem? h_u)).1)
  · obtain ⟨h_filter, h_keeps⟩ := h.quiet h_t.1 h_t'.1
    refine .unbound (h_filter.trans h_sent) (N.open_keeps _ _ h_open h_keeps)
      (h.forall_mem h_t' fun j u h_j h_u => ?_)
    exact (h.others j u h_j h_u).elim (fun h_old => h_tasks u (List.mem_of_getElem? h_old)) id

theorem Moved.of_bound (h_sent : s.sent.filter N.final = []) (h_sends : t.Sends N.final)
    (h_ensures : N.Ensures t s.row)
    (h_others : ∀ j u, j ≠ i → s.tasks[j]? = some u → ¬u.Sends N.final) : N.Phase s' := by
  have h_rest := h.not_sends h_others
  obtain ⟨h_out, h_t', h_go⟩ | ⟨m, h_out, h_good, h_t'⟩ :=
    h_ensures.steps h_sends h.steps h.allowed
  · refine .bound i t' ?_ h.after h_t' h_go h_rest
    rw [h.filter_sent, h_sent, h_out]
    rfl
  · refine .sent m ?_ h_good (h.forall_mem h_t' h_rest)
    rw [h.filter_sent, h_sent, h_out]
    rfl

theorem Moved.of_other {k : ℕ} (h_ik : i ≠ k) (h_sent : s.sent.filter N.final = [])
    (h_k : s.tasks[k]? = some u) (h_sends : u.Sends N.final) (h_ensures : N.Ensures u s.row)
    (h_others : ∀ j v, j ≠ k → s.tasks[j]? = some v → ¬v.Sends N.final) : N.Phase s' := by
  have h_t := h_others i t h_ik h.before
  -- no second task gets bound
  have h_t' : ¬t'.Sends N.final := fun h_new =>
    (h.single h_t h_new).2 u (List.mem_of_getElem? h_k) h_sends
  obtain ⟨h_filter, h_keeps⟩ := h.quiet h_t h_t'
  refine .bound k u (h_filter.trans h_sent) (h.kept k u (Ne.symm h_ik) h_k) h_sends
    (h_ensures.keeps h_keeps) fun j v h_j h_v => ?_
  by_cases h_ji : j = i
  · subst h_ji
    obtain rfl : v = t' := Option.some.inj (h_v.symm.trans h.after)
    exact h_t'
  · exact (h.others j v h_ji h_v).elim (h_others j v h_j) fun h_unbound => h_unbound.1

theorem Moved.of_sent {m : Msg} (h_sent : s.sent.filter N.final = [m]) (h_good : N.Good m s.row)
    (h_others : ∀ u ∈ s.tasks, ¬u.Sends N.final) : N.Phase s' := by
  have h_t := h_others t (List.mem_of_getElem? h.before)
  have h_t' : ¬t'.Sends N.final := by
    intro h_new
    have h_none := (h.single h_t h_new).1
    rw [h_sent] at h_none
    exact List.cons_ne_nil _ _ h_none
  obtain ⟨h_filter, h_keeps⟩ := h.quiet h_t h_t'
  refine .sent m (h_filter.trans h_sent) (N.good_keeps _ _ _ h_good h_keeps)
    (h.forall_mem h_t' (h.not_sends fun j u _ h_u => ?_))
  exact h_others u (List.mem_of_getElem? h_u)

end Moved

/-- **The phases.** Where no queued task is bound, an orderly step leads from a phase to one. -/
theorem phase_step (h_queue : ∀ m request, S.queued m = some request →
    N.Unbound (S.task request)) (h : N.Phase s) (h_orderly : N.Orderly s e) :
    N.Phase (S.step s e) := by
  cases e with
  | start request =>
    rw [Pool.step_start]
    exact h.start (h_orderly.starts request rfl)
  | step i ans =>
    obtain h_eq | ⟨t, t', out, h_moved⟩ := h_orderly.moved h_queue
    · rwa [h_eq]
    cases h with
    | unbound h_sent h_open h_tasks => exact h_moved.of_unbound h_sent h_open h_tasks
    | bound k u h_sent h_k h_sends h_ensures h_others =>
      by_cases h_ik : i = k
      · subst h_ik
        obtain rfl : t = u := Option.some.inj (h_moved.before.symm.trans h_k)
        exact h_moved.of_bound h_sent h_sends h_ensures h_others
      · exact h_moved.of_other h_ik h_sent h_k h_sends h_ensures h_others
    | sent m h_sent h_good h_others => exact h_moved.of_sent h_sent h_good h_others

end Notice

end Tasks
