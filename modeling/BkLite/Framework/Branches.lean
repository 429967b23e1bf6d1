import BkLite.Framework.Runs
import Mathlib.Data.List.Flatten
import Mathlib.Logic.Relation

/-!
# Branches over shared variables

A task reads a variable, sets a variable, or forks into branches, one operation at a time (`Op`).
The tasks of a program that has forked run in any order and share the variables. A task is told by
its path, the positions of the branches it comes from.
-/

namespace Branches

open Relation

/-- The next operation of a task. -/
inductive Op (Local Var Val : Type*)
  | get (u : Var) (next : Val → Local)
  | set (u : Var) (w : Val) (next : Local)
  | fork (branches : List Local)

variable {Local Var Val : Type*}

def Apart (p q : List ℕ) : Prop := ¬p <+: q ∧ ¬q <+: p

theorem Apart.symm {p q : List ℕ} (h : Apart p q) : Apart q p := ⟨h.2, h.1⟩

theorem Apart.extend {p q p' q' : List ℕ} (h : Apart p q) (h_p : p <+: p') (h_q : q <+: q') :
    Apart p' q' := by
  refine ⟨fun h_le => ?_, fun h_le => ?_⟩
  · obtain h_pq | h_qp := List.prefix_or_prefix_of_prefix (h_p.trans h_le) h_q
    · exact h.1 h_pq
    · exact h.2 h_qp
  · obtain h_pq | h_qp := List.prefix_or_prefix_of_prefix h_p (h_q.trans h_le)
    · exact h.1 h_pq
    · exact h.2 h_qp

theorem apart_of_ne {p : List ℕ} {i j : ℕ} (h : i ≠ j) : Apart (p ++ [i]) (p ++ [j]) := by
  refine ⟨fun h_le => h ?_, fun h_le => h ?_⟩
  · have h_same := h_le.eq_of_length (by simp)
    exact List.singleton_inj.mp (List.append_cancel_left h_same)
  · have h_same := h_le.eq_of_length (by simp)
    exact (List.singleton_inj.mp (List.append_cancel_left h_same)).symm

/-! ### A task by itself -/

section Alone

variable [DecidableEq Var] (op : Local → Op Local Var Val) (first : Local) (init : Var → Val)

/-- One operation of a task that does not fork. -/
inductive Straight : Local × (Var → Val) → Local × (Var → Val) → Prop
  | get {s vars u next} (h : op s = .get u next) : Straight (s, vars) (next (vars u), vars)
  | set {s vars u w next} (h : op s = .set u w next) :
    Straight (s, vars) (next, Function.update vars u w)

/-- What a task starts with. -/
inductive Entered : List ℕ → Local × (Var → Val) → Prop
  | start : Entered [] (first, init)
  | fork {p e s vars branches i c} (h : Entered p e) (h_run : ReflTransGen (Straight op) e (s, vars))
    (h_op : op s = .fork branches) (h_c : branches[i]? = some c) : Entered (p ++ [i]) (c, vars)

def Alone (p : List ℕ) (s : Local) (vars : Var → Val) : Prop :=
  ∃ e, Entered op first init p e ∧ ReflTransGen (Straight op) e (s, vars)

def Separate : Prop :=
  ∀ p s vars u next, Alone op first init p s vars → op s = .get u next →
    ∀ q s' vars' w next', Alone op first init q s' vars' → op s' = .set u w next' →
      Apart p q → w = vars u

variable {op first init} {p : List ℕ} {s s' : Local} {vars vars' : Var → Val}

theorem straight_rightUnique : Relator.RightUnique (Straight op) := by
  intro a b c h_b h_c
  cases h_b with
  | get h =>
    cases h_c with
    | get h' =>
      obtain ⟨rfl, rfl⟩ := Op.get.inj (h.symm.trans h')
      rfl
    | set h' => cases h.symm.trans h'
  | set h =>
    cases h_c with
    | get h' => cases h.symm.trans h'
    | set h' =>
      obtain ⟨rfl, rfl, rfl⟩ := Op.set.inj (h.symm.trans h')
      rfl

theorem not_straight_of_fork {branches : List Local} {b : Local × (Var → Val)}
    (h : op s = .fork branches) : ¬Straight op (s, vars) b := by
  intro h_step
  cases h_step with
  | get h' => cases h.symm.trans h'
  | set h' => cases h.symm.trans h'

theorem eq_of_forks {e a b : Local × (Var → Val)} {branches branches' : List Local}
    (h_a : ReflTransGen (Straight op) e a) (h_b : ReflTransGen (Straight op) e b)
    (h : op a.1 = .fork branches) (h' : op b.1 = .fork branches') : a = b := by
  obtain h_ab | h_ba := ReflTransGen.total_of_right_unique straight_rightUnique h_a h_b
  · obtain rfl | ⟨c, h_step, -⟩ := h_ab.cases_head
    · rfl
    · exact absurd h_step (not_straight_of_fork h)
  · obtain rfl | ⟨c, h_step, -⟩ := h_ba.cases_head
    · rfl
    · exact absurd h_step (not_straight_of_fork h')

theorem Entered.unique {e e' : Local × (Var → Val)} (h : Entered op first init p e)
    (h' : Entered op first init p e') : e = e' := by
  induction h generalizing e' with
  | start =>
    generalize h_p : ([] : List ℕ) = p at h'
    cases h' with
    | start => rfl
    | fork => exact absurd h_p.symm (List.append_ne_nil_of_right_ne_nil _ (List.cons_ne_nil _ _))
  | @fork p e s vars branches i c h_e h_run h_op h_c ih =>
    generalize h_p : p ++ [i] = path at h'
    cases h' with
    | start => exact absurd h_p (List.append_ne_nil_of_right_ne_nil _ (List.cons_ne_nil _ _))
    | fork h_e' h_run' h_op' h_c' =>
      obtain ⟨rfl, h_i⟩ := List.append_inj' h_p rfl
      obtain rfl := List.singleton_inj.mp h_i
      obtain rfl := ih h_e'
      have h_end := eq_of_forks h_run h_run' h_op h_op'
      obtain ⟨rfl, rfl⟩ := Prod.mk.inj h_end
      obtain rfl := Op.fork.inj (h_op.symm.trans h_op')
      obtain rfl := Option.some.inj (h_c.symm.trans h_c')
      rfl

theorem Entered.before {i : ℕ} {e : Local × (Var → Val)} (h : Entered op first init (p ++ [i]) e) :
    ∃ s branches, Alone op first init p s e.2 ∧ op s = .fork branches ∧
      branches[i]? = some e.1 := by
  generalize h_p : p ++ [i] = path at h
  cases h with
  | start => exact absurd h_p (List.append_ne_nil_of_right_ne_nil _ (List.cons_ne_nil _ _))
  | @fork p' e s vars branches j c h_e h_run h_op h_c =>
    obtain ⟨rfl, h_i⟩ := List.append_inj' h_p rfl
    obtain rfl := List.singleton_inj.mp h_i
    exact ⟨s, branches, ⟨e, h_e, h_run⟩, h_op, h_c⟩

theorem Alone.get {u : Var} {next : Val → Local} (h : Alone op first init p s vars)
    (h_op : op s = .get u next) : Alone op first init p (next (vars u)) vars := by
  obtain ⟨e, h_e, h_run⟩ := h
  exact ⟨e, h_e, h_run.tail (.get h_op)⟩

theorem Alone.set {u : Var} {w : Val} {next : Local} (h : Alone op first init p s vars)
    (h_op : op s = .set u w next) : Alone op first init p next (Function.update vars u w) := by
  obtain ⟨e, h_e, h_run⟩ := h
  exact ⟨e, h_e, h_run.tail (.set h_op)⟩

theorem Alone.fork {branches : List Local} {i : ℕ} {c : Local}
    (h : Alone op first init p s vars) (h_op : op s = .fork branches)
    (h_c : branches[i]? = some c) : Alone op first init (p ++ [i]) c vars := by
  obtain ⟨e, h_e, h_run⟩ := h
  exact ⟨(c, vars), h_e.fork h_run h_op h_c, .refl⟩

omit [DecidableEq Var] in
theorem Apart.exists_fork {p q : List ℕ} (h : Apart p q) :
    ∃ r i j, i ≠ j ∧ r ++ [i] <+: p ∧ r ++ [j] <+: q := by
  induction p generalizing q with
  | nil => exact absurd List.nil_prefix h.1
  | cons i p ih =>
    cases q with
    | nil => exact absurd List.nil_prefix h.2
    | cons j q =>
      by_cases h_ij : i = j
      · subst h_ij
        have h_tail : Apart p q := ⟨fun h_le => h.1 (List.cons_prefix_cons.mpr ⟨rfl, h_le⟩),
          fun h_le => h.2 (List.cons_prefix_cons.mpr ⟨rfl, h_le⟩)⟩
        obtain ⟨r, k, l, h_ne, h_p, h_q⟩ := ih h_tail
        exact ⟨i :: r, k, l, h_ne, List.cons_prefix_cons.mpr ⟨rfl, h_p⟩,
          List.cons_prefix_cons.mpr ⟨rfl, h_q⟩⟩
      · exact ⟨[], i, j, h_ij, List.cons_prefix_cons.mpr ⟨rfl, List.nil_prefix⟩,
          List.cons_prefix_cons.mpr ⟨rfl, List.nil_prefix⟩⟩

/-- What a task may go on with, whatever it reads. -/
inductive Next (op : Local → Op Local Var Val) : Local → Local → Prop
  | get {s u next} (w : Val) (h : op s = .get u next) : Next op s (next w)
  | set {s u w next} (h : op s = .set u w next) : Next op s next
  | fork {s branches c} (h : op s = .fork branches) (h_c : c ∈ branches) : Next op s c

theorem next_of_straight {a b : Local × (Var → Val)} (h : Straight op a b) : Next op a.1 b.1 := by
  cases h with
  | get h => exact .get _ h
  | set h => exact .set h

theorem nexts_of_straights {a b : Local × (Var → Val)} (h : ReflTransGen (Straight op) a b) :
    ReflTransGen (Next op) a.1 b.1 :=
  h.lift Prod.fst fun _ _ => next_of_straight

theorem Entered.descends {e : Local × (Var → Val)} (h : Entered op first init p e) {q : List ℕ}
    (h_q : q <+: p) : ∃ e', Entered op first init q e' ∧ ReflTransGen (Next op) e'.1 e.1 := by
  induction h with
  | start =>
    obtain rfl := List.prefix_nil.mp h_q
    exact ⟨_, .start, .refl⟩
  | @fork p e s vars branches i c h_e h_run h_op h_c ih =>
    obtain rfl | h_q := List.prefix_concat_iff.mp h_q
    · exact ⟨_, h_e.fork h_run h_op h_c, .refl⟩
    · obtain ⟨e', h_e', h_before⟩ := ih h_q
      refine ⟨e', h_e', (h_before.trans (nexts_of_straights h_run)).tail ?_⟩
      exact .fork h_op (List.mem_of_getElem? h_c)

/-- **Where branches part.** Parallel tasks come from different branches of one fork. -/
theorem Alone.exists_fork {q : List ℕ} (h : Alone op first init p s vars)
    (h' : Alone op first init q s' vars') (h_apart : Apart p q) :
    ∃ r t own branches, ∃ i j : ℕ, ∃ c c', Alone op first init r t own ∧
      op t = .fork branches ∧ i ≠ j ∧ branches[i]? = some c ∧ branches[j]? = some c' ∧ ReflTransGen (Next op) c s ∧
      ReflTransGen (Next op) c' s' := by
  obtain ⟨r, i, j, h_ne, h_p, h_q⟩ := h_apart.exists_fork
  obtain ⟨e, h_e, h_run⟩ := h
  obtain ⟨e', h_e', h_run'⟩ := h'
  obtain ⟨a, h_a, h_down⟩ := h_e.descends h_p
  obtain ⟨a', h_a', h_down'⟩ := h_e'.descends h_q
  obtain ⟨t, branches, ⟨b, h_b, h_end⟩, h_op, h_c⟩ := h_a.before
  obtain ⟨t', branches', ⟨b', h_b', h_end'⟩, h_op', h_c'⟩ := h_a'.before
  -- both branches part at the end of one task
  obtain rfl := h_b.unique h_b'
  have h_same := eq_of_forks h_end h_end' h_op h_op'
  obtain ⟨rfl, -⟩ := Prod.mk.inj h_same
  obtain rfl := Op.fork.inj (h_op.symm.trans h_op')
  exact ⟨r, t, a.2, branches, i, j, a.1, a'.1, ⟨b, h_b, h_end⟩, h_op, h_ne, h_c, h_c',
    h_down.trans (nexts_of_straights h_run), h_down'.trans (nexts_of_straights h_run')⟩

end Alone

/-! ### Interleavings -/

section Interleavings

variable [DecidableEq Var] (op : Local → Op Local Var Val)

/-- The variables and the tasks. -/
structure State (Local Var Val : Type*) where
  vars : Var → Val
  tasks : List (List ℕ × Local)

def nextVars (vars : Var → Val) (s : Local) : Var → Val :=
  match op s with
  | .set u w _ => Function.update vars u w
  | _ => vars

def nextTasks (vars : Var → Val) (p : List ℕ) (s : Local) : List (List ℕ × Local) :=
  match op s with
  | .get u next => [(p, next (vars u))]
  | .set _ _ next => [(p, next)]
  | .fork branches => branches.zipIdx.map fun entry => (p ++ [entry.2], entry.1)

def step (s : State Local Var Val) (path : List ℕ) : State Local Var Val :=
  match s.tasks.find? (·.1 = path) with
  | none => s
  | some task =>
    { vars := nextVars op s.vars task.2
      tasks := s.tasks.flatMap fun other =>
        if other.1 = path then nextTasks op s.vars path task.2 else [other] }

def initial (first : Local) (init : Var → Val) : State Local Var Val := ⟨init, [([], first)]⟩

variable {op} {first : Local} {init : Var → Val}

/-- A value that a task in parallel to `p` has set in a variable. -/
def Foreign (op : Local → Op Local Var Val) (first : Local) (init : Var → Val) (p : List ℕ) (u : Var)
    (w : Val) : Prop :=
  ∃ q s vars next, Alone op first init q s vars ∧ op s = .set u w next ∧ Apart p q

/-- The task is where it comes by itself, and what others have changed of its variables they have
set in parallel to it. -/
def TaskOk (op : Local → Op Local Var Val) (first : Local) (init vars : Var → Val)
    (task : List ℕ × Local) : Prop :=
  ∃ own, Alone op first init task.1 task.2 own ∧
    ∀ u, vars u = own u ∨ Foreign op first init task.1 u (vars u)

/-- Tasks are apart and each is where it comes by itself. -/
structure Ok (op : Local → Op Local Var Val) (first : Local) (init : Var → Val)
    (s : State Local Var Val) : Prop where
  apart : s.tasks.Pairwise fun a b => Apart a.1 b.1
  tasks : ∀ task ∈ s.tasks, TaskOk op first init s.vars task

theorem ok_initial : Ok op first init (initial first init) := by
  refine ⟨List.pairwise_singleton _ _, fun task h_task => ?_⟩
  rw [List.mem_singleton.mp h_task]
  exact ⟨init, ⟨_, .start, .refl⟩, fun u => .inl rfl⟩

omit [DecidableEq Var] in
theorem prefix_of_mem_nextTasks {vars : Var → Val} {p : List ℕ} {s : Local}
    {task : List ℕ × Local} (h : task ∈ nextTasks op vars p s) : p <+: task.1 := by
  unfold nextTasks at h
  split at h
  · rw [List.mem_singleton.mp h]
  · rw [List.mem_singleton.mp h]
  · obtain ⟨entry, -, rfl⟩ := List.mem_map.mp h
    exact List.prefix_append p [entry.2]

omit [DecidableEq Var] in
theorem pairwise_nextTasks {vars : Var → Val} {p : List ℕ} {s : Local} :
    (nextTasks op vars p s).Pairwise fun a b => Apart a.1 b.1 := by
  unfold nextTasks
  split
  · exact List.pairwise_singleton _ _
  · exact List.pairwise_singleton _ _
  · rename_i branches _
    rw [List.pairwise_map]
    have h_positions : (branches.zipIdx.map Prod.snd).Nodup := by
      rw [List.zipIdx_map_snd]
      exact List.nodup_range'
    rw [List.Nodup, List.pairwise_map] at h_positions
    exact h_positions.imp fun h_ne => apart_of_ne h_ne

theorem TaskOk.next (h_separate : Separate op first init) {vars : Var → Val} {p : List ℕ}
    {s : Local} (h : TaskOk op first init vars (p, s)) {task : List ℕ × Local}
    (h_task : task ∈ nextTasks op vars p s) :
    TaskOk op first init (nextVars op vars s) task := by
  obtain ⟨own, h_alone, h_vars⟩ := h
  unfold nextTasks at h_task
  unfold nextVars
  cases h_op : op s with
  | get u next =>
    rw [h_op] at h_task
    rw [List.mem_singleton.mp h_task]
    -- what it reads is its own, or has been set by a parallel task to the same value
    have h_read : vars u = own u := by
      obtain h_own | ⟨q, s', vars', next', h_foreign, h_set, h_apart⟩ := h_vars u
      · exact h_own
      · exact h_separate p s own u next h_alone h_op q s' vars' _ next' h_foreign h_set h_apart
    refine ⟨own, ?_, h_vars⟩
    rw [h_read]
    exact h_alone.get h_op
  | set u w next =>
    rw [h_op] at h_task
    rw [List.mem_singleton.mp h_task]
    refine ⟨Function.update own u w, h_alone.set h_op, fun v => ?_⟩
    show Function.update vars u w v = _ ∨ Foreign op first init p v (Function.update vars u w v)
    by_cases h_v : v = u
    · rw [h_v, Function.update_self, Function.update_self]
      exact .inl rfl
    · rw [Function.update_of_ne h_v, Function.update_of_ne h_v]
      exact h_vars v
  | fork branches =>
    rw [h_op] at h_task
    obtain ⟨entry, h_entry, rfl⟩ := List.mem_map.mp h_task
    refine ⟨own, h_alone.fork h_op (List.mem_zipIdx_iff_getElem?.mp h_entry), fun v => ?_⟩
    refine (h_vars v).imp id ?_
    rintro ⟨q, s', vars', next', h_foreign, h_set, h_apart⟩
    exact ⟨q, s', vars', next', h_foreign, h_set,
      h_apart.extend (List.prefix_append p _) List.prefix_rfl⟩

theorem TaskOk.frame {vars : Var → Val} {p : List ℕ} {s : Local}
    (h : TaskOk op first init vars (p, s)) {task : List ℕ × Local}
    (h_task : TaskOk op first init vars task) (h_apart : Apart task.1 p) :
    TaskOk op first init (nextVars op vars s) task := by
  obtain ⟨own, h_alone, h_vars⟩ := h_task
  obtain ⟨own', h_alone', -⟩ := h
  refine ⟨own, h_alone, fun v => ?_⟩
  unfold nextVars
  cases h_op : op s with
  | get u next => exact h_vars v
  | fork branches => exact h_vars v
  | set u w next =>
    show Function.update vars u w v = _ ∨ Foreign op first init _ v (Function.update vars u w v)
    by_cases h_v : v = u
    · rw [h_v, Function.update_self]
      exact .inr ⟨p, s, own', next, h_alone', h_op, h_apart⟩
    · rw [Function.update_of_ne h_v]
      exact h_vars v

theorem ok_step (h_separate : Separate op first init) (s : State Local Var Val) (path : List ℕ)
    (h : Ok op first init s) : Ok op first init (step op s path) := by
  unfold step
  cases h_find : s.tasks.find? (·.1 = path) with
  | none => exact h
  | some task =>
    have h_mem : task ∈ s.tasks := List.mem_of_find?_eq_some h_find
    have h_path : task.1 = path := by simpa using List.find?_some h_find
    subst h_path
    have h_own : TaskOk op first init s.vars (task.1, task.2) := h.tasks task h_mem
    have h_pre : ∀ a b : List ℕ × Local, b ∈ (if a.1 = task.1 then
        nextTasks op s.vars task.1 task.2 else [a]) → a.1 <+: b.1 := by
      intro a b h_b
      split_ifs at h_b with h_same
      · rw [h_same]
        exact prefix_of_mem_nextTasks h_b
      · rw [List.mem_singleton.mp h_b]
    refine ⟨?_, fun other h_other => ?_⟩
    · refine List.pairwise_flatMap.mpr ⟨fun a _ => ?_, ?_⟩
      · split_ifs
        · exact pairwise_nextTasks
        · exact List.pairwise_singleton _ _
      · exact h.apart.imp fun {a b} h_apart x h_x y h_y =>
          h_apart.extend (h_pre a x h_x) (h_pre b y h_y)
    · obtain ⟨a, h_a, h_other⟩ := List.mem_flatMap.mp h_other
      split_ifs at h_other with h_same
      · exact h_own.next h_separate h_other
      · rw [List.mem_singleton.mp h_other]
        have h_apart : Apart a.1 task.1 := by
          have h_ne : a ≠ task := fun h_eq => h_same (congrArg Prod.fst h_eq)
          refine List.Pairwise.forall_of_forall_of_flip
            (R := fun x y : List ℕ × Local => x ≠ y → Apart x.1 y.1)
            (fun _ _ h_ne => absurd rfl h_ne) ?_ ?_ h_a h_mem h_ne
          · exact h.apart.imp fun {x y} h_xy (_ : x ≠ y) => h_xy
          · exact h.apart.imp fun {x y} h_xy (_ : y ≠ x) => h_xy.symm
        exact h_own.frame (h.tasks a h_a) h_apart

/-- **Any order.** Separate branches do in every interleaving what each does by itself. -/
theorem alone_of_run (h_separate : Separate op first init) (paths : List (List ℕ))
    {task : List ℕ × Local} (h : task ∈ (Runs.run (step op) (initial first init) paths).tasks) :
    ∃ own, Alone op first init task.1 task.2 own := by
  have h_ok := Runs.run_invariant (I := Ok op first init) (fun s path => ok_step h_separate s path)
    ok_initial paths
  obtain ⟨own, h_alone, -⟩ := h_ok.tasks task h
  exact ⟨own, h_alone⟩

end Interleavings

end Branches
