import Mathlib.Logic.Function.Basic

/-!
# Programs over variables

What one task does with shared variables, one access at a time: it gets a variable and goes on by
its value, sets a variable, or is done with a result. `run` is the program with nobody beside it.
A variable that a program does not set keeps its value (`run_of_not_sets`).
-/

namespace Programs

/-- The accesses of a task, and its result. -/
inductive Program (Var Val α : Type*)
  | done (result : α)
  | get (u : Var) (next : Val → Program Var Val α)
  | set (u : Var) (w : Val) (next : Program Var Val α)

namespace Program

variable {Var Val α β : Type*}

def andThen (f : α → Program Var Val β) : Program Var Val α → Program Var Val β
  | done result => f result
  | get u next => get u fun w => (next w).andThen f
  | set u w next => set u w (next.andThen f)

def setAll (writes : List (Var × Val)) (result : α) : Program Var Val α :=
  writes.foldr (fun write next => set write.1 write.2 next) (done result)

def Sets (v : Var) : Program Var Val α → Prop
  | done _ => False
  | get _ next => ∃ w, (next w).Sets v
  | set u _ next => u = v ∨ next.Sets v

def Gets (v : Var) : Program Var Val α → Prop
  | done _ => False
  | get u next => u = v ∨ ∃ w, (next w).Gets v
  | set _ _ next => next.Gets v

def run [DecidableEq Var] : Program Var Val α → (Var → Val) → α × (Var → Val)
  | done result, vars => (result, vars)
  | get u next, vars => (next (vars u)).run vars
  | set u w next, vars => next.run (Function.update vars u w)

variable {v : Var} {p : Program Var Val α} {f : α → Program Var Val β}

theorem sets_andThen (h : (p.andThen f).Sets v) : p.Sets v ∨ ∃ result, (f result).Sets v := by
  induction p with
  | done result => exact .inr ⟨result, h⟩
  | get u next ih =>
    obtain ⟨w, h_next⟩ := h
    exact (ih w h_next).imp (fun h_sets => ⟨w, h_sets⟩) id
  | set u w next ih =>
    obtain h_eq | h_next := h
    · exact .inl (.inl h_eq)
    · exact (ih h_next).imp .inr id

theorem gets_andThen (h : (p.andThen f).Gets v) : p.Gets v ∨ ∃ result, (f result).Gets v := by
  induction p with
  | done result => exact .inr ⟨result, h⟩
  | get u next ih =>
    obtain h_eq | ⟨w, h_next⟩ := h
    · exact .inl (.inl h_eq)
    · exact (ih w h_next).imp (fun h_gets => .inr ⟨w, h_gets⟩) id
  | set u w next ih => exact ih h

theorem sets_setAll {writes : List (Var × Val)} {result : α} :
    (setAll writes result).Sets v ↔ ∃ write ∈ writes, write.1 = v := by
  induction writes with
  | nil => exact ⟨False.elim, fun ⟨_, h_mem, _⟩ => absurd h_mem List.not_mem_nil⟩
  | cons write writes ih =>
    simp only [List.mem_cons, exists_eq_or_imp]
    rw [← ih]
    exact Iff.rfl

theorem not_gets_setAll {writes : List (Var × Val)} {result : α} :
    ¬(setAll writes result).Gets v := by
  induction writes with
  | nil => exact id
  | cons write writes ih => exact ih

section Run

variable [DecidableEq Var] {vars : Var → Val}

theorem run_andThen :
    (p.andThen f).run vars = (f (p.run vars).1).run (p.run vars).2 := by
  induction p generalizing vars with
  | done result => rfl
  | get u next ih => exact ih (vars u)
  | set u w next ih => exact ih

theorem run_of_not_sets (h : ¬p.Sets v) : (p.run vars).2 v = vars v := by
  induction p generalizing vars with
  | done result => rfl
  | get u next ih => exact ih (vars u) fun h_sets => h ⟨vars u, h_sets⟩
  | set u w next ih =>
    refine (ih fun h_sets => h (.inr h_sets)).trans (Function.update_of_ne ?_ _ _)
    exact fun h_eq => h (.inl h_eq.symm)

theorem run_setAll_fst {writes : List (Var × Val)} {result : α} :
    ((setAll writes result).run vars).1 = result := by
  induction writes generalizing vars with
  | nil => rfl
  | cons write writes ih => exact ih

theorem run_setAll_append {writes writes' : List (Var × Val)} {result : α} :
    (setAll (writes ++ writes') result).run vars =
      (setAll writes' result).run ((setAll writes result).run vars).2 := by
  induction writes generalizing vars with
  | nil => rfl
  | cons write writes ih => exact ih

end Run

end Program

end Programs
