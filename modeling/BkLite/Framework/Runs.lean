import Mathlib.Data.List.Infix

/-!
# Runs of a labelled transition function

A system is a state type, an action type and a total function
`step : State → Action → State`. Nondeterminism — the interleaving of the
parties, the clock, the answer of a service — is carried by the actions, and an
action that is not enabled leaves the state as it is. A run is a list of actions,
and `run step s as` is the state it ends in.

These readings of "along the run" are used:

* `Always step P s as` — `P` holds of every state the run passes through, its
  first and its last included.
* `Along step P s as` — every step of the run, read as a triple of pre-state,
  action and post-state, satisfies `P`. A guard on the run is such a `P`, and so
  is a property of its transitions.
* `Since step P Q s as` — some step satisfies `P`, and `Q` holds along the run after it.
* `run_invariant` and its guarded forms — what one step preserves, a whole run
  preserves.
* `always_iff_along` and `along_iff` — an exact condition on one step is one on a
  whole run.
-/

namespace Runs

variable {State Action : Type*} {step : State → Action → State}

/-- The state in which the run `as` from `s` ends. -/
def run (step : State → Action → State) (s : State) (as : List Action) : State :=
  as.foldl step s

@[simp] theorem run_nil (s : State) : run step s [] = s := rfl

@[simp] theorem run_cons (s : State) (a : Action) (as : List Action) :
    run step s (a :: as) = run step (step s a) as := rfl

theorem run_append (s : State) (as bs : List Action) :
    run step s (as ++ bs) = run step (run step s as) bs := by
  simp [run]

theorem run_concat (s : State) (as : List Action) (a : Action) :
    run step s (as ++ [a]) = step (run step s as) a := by
  simp [run]

/-! ### Properties of the states and of the steps of a run -/

/-- `P` holds of every state the run passes through. -/
def Always (step : State → Action → State) (P : State → Prop) (s : State)
    (as : List Action) : Prop :=
  ∀ pre, pre <+: as → P (run step s pre)

/-- Every step of the run satisfies `P`, read at its pre-state, its action and
its post-state. -/
def Along (step : State → Action → State) (P : State → Action → State → Prop) :
    State → List Action → Prop
  | _, [] => True
  | s, a :: as => P s a (step s a) ∧ Along step P (step s a) as

variable {P Q : State → Action → State → Prop} {I : State → Prop}

@[simp] theorem along_nil (s : State) : Along step P s [] := trivial

@[simp] theorem along_cons (s : State) (a : Action) (as : List Action) :
    Along step P s (a :: as) ↔ P s a (step s a) ∧ Along step P (step s a) as :=
  Iff.rfl

instance Along.decidable [∀ s a t, Decidable (P s a t)] :
    ∀ (s : State) (as : List Action), Decidable (Along step P s as)
  | _, [] => isTrue trivial
  | s, a :: as =>
    have := Along.decidable (step s a) as
    inferInstanceAs (Decidable (P s a (step s a) ∧ Along step P (step s a) as))

theorem always_nil {s : State} : Always step I s [] ↔ I s := by
  constructor
  · intro h
    exact h [] List.prefix_rfl
  · intro h pre h_pre
    rw [List.prefix_nil.mp h_pre]
    exact h

theorem always_cons {s : State} {a : Action} {as : List Action} :
    Always step I s (a :: as) ↔ I s ∧ Always step I (step s a) as := by
  constructor
  · intro h
    refine ⟨h [] (List.nil_prefix), fun pre h_pre => ?_⟩
    exact h (a :: pre) (List.cons_prefix_cons.mpr ⟨rfl, h_pre⟩)
  · rintro ⟨h_here, h_later⟩ pre h_pre
    cases pre with
    | nil => exact h_here
    | cons b pre =>
      obtain ⟨rfl, h_tail⟩ := List.cons_prefix_cons.mp h_pre
      exact h_later pre h_tail

theorem Always.last {s : State} {as : List Action} (h : Always step I s as) :
    I (run step s as) :=
  h as List.prefix_rfl

theorem along_append {s : State} {as bs : List Action} :
    Along step P s (as ++ bs) ↔ Along step P s as ∧ Along step P (run step s as) bs := by
  induction as generalizing s with
  | nil => simp
  | cons a as ih => simp [ih, and_assoc]

theorem Along.at_step {s : State} {pre post : List Action} {a : Action}
    (h : Along step P s (pre ++ a :: post)) :
    P (run step s pre) a (step (run step s pre) a) :=
  (along_append.mp h).2.1

theorem along_iff_at_step {s : State} {as : List Action} :
    Along step P s as ↔ ∀ pre a post, as = pre ++ a :: post →
      P (run step s pre) a (step (run step s pre) a) := by
  constructor
  · rintro h pre a post rfl
    exact h.at_step
  · intro h
    induction as generalizing s with
    | nil => trivial
    | cons a as ih =>
      refine ⟨h [] a as rfl, ih ?_⟩
      rintro pre b post rfl
      exact h (a :: pre) b post rfl

theorem Along.mono {s : State} {as : List Action} (h : Along step P s as)
    (h_imp : ∀ s a t, P s a t → Q s a t) : Along step Q s as := by
  induction as generalizing s with
  | nil => trivial
  | cons a as ih => exact ⟨h_imp _ _ _ h.1, ih h.2⟩

theorem Along.and {s : State} {as : List Action} (h_P : Along step P s as)
    (h_Q : Along step Q s as) : Along step (fun s a t => P s a t ∧ Q s a t) s as := by
  induction as generalizing s with
  | nil => trivial
  | cons a as ih => exact ⟨⟨h_P.1, h_Q.1⟩, ih h_P.2 h_Q.2⟩

theorem along_and {s : State} {as : List Action} :
    Along step (fun s a t => P s a t ∧ Q s a t) s as ↔ Along step P s as ∧ Along step Q s as :=
  ⟨fun h => ⟨h.mono fun _ _ _ h_step => h_step.1, h.mono fun _ _ _ h_step => h_step.2⟩,
    fun h => h.1.and h.2⟩

theorem along_congr (h : ∀ s a, P s a (step s a) ↔ Q s a (step s a)) {s : State}
    {as : List Action} : Along step P s as ↔ Along step Q s as := by
  rw [along_iff_at_step, along_iff_at_step]
  refine forall_congr' fun pre => forall_congr' fun a => forall_congr' fun post => ?_
  exact imp_congr_right fun _ => h (run step s pre) a

/-! ### Since the last step of a kind -/

/-- A step of the run satisfies `P`, and all steps after it satisfy `Q`. -/
def Since (step : State → Action → State) (P Q : State → Action → State → Prop) (s : State)
    (as : List Action) : Prop :=
  ∃ pre a post, as = pre ++ a :: post ∧ P (run step s pre) a (step (run step s pre) a) ∧
    Along step Q (run step s (pre ++ [a])) post

theorem not_since_nil {s : State} : ¬Since step P Q s [] := by
  rintro ⟨pre, a, post, h_nil, -⟩
  exact List.cons_ne_nil a post (List.append_eq_nil_iff.mp h_nil.symm).2

/-- **Since, step by step.** The last step is the one, or the one is further back and the last step
satisfies `Q`. -/
theorem since_concat {s : State} {as : List Action} {a : Action} :
    Since step P Q s (as ++ [a]) ↔
      P (run step s as) a (step (run step s as) a) ∨
        Since step P Q s as ∧ Q (run step s as) a (step (run step s as) a) := by
  constructor
  · rintro ⟨pre, b, post, h_as, h_P, h_Q⟩
    rcases List.eq_nil_or_concat post with rfl | ⟨post, c, rfl⟩
    · obtain ⟨rfl, h_last⟩ := List.append_inj' h_as rfl
      obtain rfl : a = b := List.singleton_inj.mp h_last
      exact .inl h_P
    · rw [List.concat_eq_append] at h_as h_Q
      rw [← List.cons_append, ← List.append_assoc] at h_as
      obtain ⟨rfl, h_last⟩ := List.append_inj' h_as rfl
      obtain rfl : a = c := List.singleton_inj.mp h_last
      obtain ⟨h_before, h_here, -⟩ := along_append.mp h_Q
      refine .inr ⟨⟨pre, b, post, rfl, h_P, h_before⟩, ?_⟩
      rwa [← run_append, List.append_assoc, List.singleton_append] at h_here
  · rintro (h_P | ⟨⟨pre, b, post, rfl, h_P, h_Q⟩, h_here⟩)
    · exact ⟨as, a, [], rfl, h_P, trivial⟩
    · refine ⟨pre, b, post ++ [a], by simp, h_P, along_append.mpr ⟨h_Q, ?_, trivial⟩⟩
      rwa [← run_append, List.append_assoc, List.singleton_append]

/-! ### Invariant rules -/

theorem run_invariant (h_step : ∀ s a, I s → I (step s a)) {s : State} (h : I s)
    (as : List Action) : I (run step s as) := by
  induction as generalizing s with
  | nil => exact h
  | cons a as ih => exact ih (h_step s a h)

/-- **Guarded invariant rule.** What the steps meeting `P` preserve, a run whose
steps all meet `P` preserves. -/
theorem Along.invariant {s : State} {as : List Action} (h : Along step P s as)
    (h_step : ∀ s a, I s → P s a (step s a) → I (step s a)) (h_init : I s) :
    I (run step s as) := by
  induction as generalizing s with
  | nil => exact h_init
  | cons a as ih => exact ih h.2 (h_step s a h_init h.1)

theorem Along.always {s : State} {as : List Action} (h : Along step P s as)
    (h_step : ∀ s a, I s → P s a (step s a) → I (step s a)) (h_init : I s) :
    Always step I s as := by
  rintro pre ⟨post, rfl⟩
  exact (along_append.mp h).1.invariant h_step h_init

theorem Along.trans {s : State} {as : List Action} (h : Along step P s as)
    (h_step : ∀ s a, I s → P s a (step s a) → I (step s a) ∧ Q s a (step s a))
    (h_init : I s) : Along step Q s as := by
  induction as generalizing s with
  | nil => trivial
  | cons a as ih =>
    obtain ⟨h_next, h_here⟩ := h_step s a h_init h.1
    exact ⟨h_here, ih h.2 h_next⟩

theorem always_of_step (h_step : ∀ s a, I s → I (step s a)) {s : State} (h : I s)
    (as : List Action) : Always step I s as :=
  fun pre _ => run_invariant h_step h pre

theorem along_of_step (h_step : ∀ s a, I s → I (step s a) ∧ P s a (step s a))
    {s : State} (h : I s) (as : List Action) : Along step P s as := by
  induction as generalizing s with
  | nil => trivial
  | cons a as ih => exact ⟨(h_step s a h).2, ih (h_step s a h).1⟩

/-! ### Exact conditions

Where a step keeps `I` exactly if it meets `P`, a run keeps `I` exactly if its steps
all meet `P`. -/

/-- **Exact condition on the steps.** `K` is an invariant of all steps, `Ok` what is
known of the actions of the run. -/
theorem always_iff_along {K : State → Prop} {Ok : Action → Prop}
    (h_keep : ∀ s a, K s → K (step s a))
    (h_step : ∀ s a, Ok a → K s → I s → (I (step s a) ↔ P s a (step s a)))
    {s : State} {as : List Action} (h_ok : ∀ a ∈ as, Ok a) (h_K : K s) (h_I : I s) :
    Always step I s as ↔ Along step P s as := by
  induction as generalizing s with
  | nil => exact iff_of_true (always_nil.mpr h_I) trivial
  | cons a as ih =>
    have h_here := h_step s a (h_ok a List.mem_cons_self) h_K h_I
    have h_rest : ∀ b ∈ as, Ok b := fun b h_b => h_ok b (List.mem_cons_of_mem a h_b)
    rw [always_cons, along_cons]
    constructor
    · rintro ⟨-, h_later⟩
      have h_next : I (step s a) := h_later [] List.nil_prefix
      exact ⟨h_here.mp h_next, (ih h_rest (h_keep s a h_K) h_next).mp h_later⟩
    · rintro ⟨h_P, h_later⟩
      have h_next : I (step s a) := h_here.mpr h_P
      exact ⟨h_I, (ih h_rest (h_keep s a h_K) h_next).mpr h_later⟩

theorem always_iff_along_post {s : State} {as : List Action} :
    Always step I s as ↔ I s ∧ Along step (fun _ _ t => I t) s as := by
  induction as generalizing s with
  | nil => rw [always_nil, and_iff_left (along_nil s)]
  | cons a as ih => rw [always_cons, ih, along_cons]

theorem along_iff {G : State → Action → State → Prop} {s : State} {as : List Action}
    (h_guard : Along step G s as)
    (h_step : ∀ s a, I s → G s a (step s a) →
      (P s a (step s a) ↔ Q s a (step s a)) ∧ (P s a (step s a) → I (step s a)))
    (h_I : I s) : Along step P s as ↔ Along step Q s as := by
  induction as generalizing s with
  | nil => exact Iff.rfl
  | cons a as ih =>
    obtain ⟨h_iff, h_next⟩ := h_step s a h_I h_guard.1
    rw [along_cons, along_cons]
    constructor
    · rintro ⟨h_P, h_later⟩
      exact ⟨h_iff.mp h_P, (ih h_guard.2 (h_next h_P)).mp h_later⟩
    · rintro ⟨h_Q, h_later⟩
      have h_P := h_iff.mpr h_Q
      exact ⟨h_P, (ih h_guard.2 (h_next h_P)).mpr h_later⟩

end Runs
