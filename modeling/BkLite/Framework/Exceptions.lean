import Mathlib.Logic.Basic
import Mathlib.Tactic.SplitIfs

/-!
# Statements that raise

A sequence of statements over a store, each of which may raise: what was written before an
exception stays written (`EStateM`). A run of `x >>= f` that returns is a run of `x` that returns
and one of `f` (`bind_eq_ok`); and a property of the store that every statement keeps, whether it
raises or not, the whole sequence keeps (`Keeps`).
-/

abbrev Exec (Store α : Type) := EStateM Unit Store α

namespace Exec

variable {Store α β : Type}

def after (x : Exec Store α) (s : Store) : Store :=
  match x s with
  | .ok _ s' => s'
  | .error _ s' => s'

def completes (x : Exec Store α) (s : Store) : Bool :=
  match x s with
  | .ok _ _ => true
  | .error _ _ => false

def raiseIf (b : Bool) : Exec Store Unit :=
  if b = true then throw () else pure ()

def ofOption : Option α → Exec Store α
  | some x => pure x
  | none => throw ()

def write (f : Store → Store) : Exec Store Unit :=
  modify f

section Laws

variable {x : Exec Store α} {f : α → Exec Store β} {s s' : Store} {a : α} {b : β}

theorem bind_eq_ok :
    (x >>= f) s = .ok b s' ↔ ∃ a t, x s = .ok a t ∧ f a t = .ok b s' := by
  show EStateM.bind x f s = .ok b s' ↔ _
  unfold EStateM.bind
  cases h_x : x s with
  | ok a t =>
    refine ⟨fun h => ⟨a, t, rfl, h⟩, ?_⟩
    rintro ⟨a', t', h_at, h⟩
    cases h_at
    exact h
  | error e t =>
    refine ⟨fun h => ?_, ?_⟩
    · cases h
    · rintro ⟨a', t', h_at, -⟩
      cases h_at

theorem bind_of_ok {t : Store} (h : x s = .ok a t) : (x >>= f) s = f a t := by
  show EStateM.bind x f s = f a t
  unfold EStateM.bind
  rw [h]

theorem bind_of_error {t : Store} (h : x s = .error () t) : (x >>= f) s = .error () t := by
  show EStateM.bind x f s = .error () t
  unfold EStateM.bind
  rw [h]

theorem raiseIf_eq_ok {c : Bool} {u : Unit} :
    raiseIf c s = .ok u s' ↔ c = false ∧ s' = s := by
  cases c with
  | false =>
    refine ⟨fun h => ⟨rfl, ?_⟩, ?_⟩
    · cases h
      rfl
    · rintro ⟨-, rfl⟩
      rfl
  | true =>
    refine ⟨fun h => ?_, fun h => Bool.noConfusion h.1⟩
    cases h

theorem ofOption_eq_ok {o : Option α} : ofOption o s = .ok a s' ↔ o = some a ∧ s' = s := by
  cases o with
  | none =>
    refine ⟨fun h => ?_, ?_⟩
    · cases h
    · rintro ⟨h, -⟩
      cases h
  | some y =>
    refine ⟨fun h => ?_, ?_⟩
    · cases h
      exact ⟨rfl, rfl⟩
    · rintro ⟨h, rfl⟩
      cases h
      rfl

@[simp] theorem completes_write (g : Store → Store) (s : Store) : (write g).completes s = true :=
  rfl

theorem completes_iff : x.completes s = true ↔ ∃ a, x s = .ok a (x.after s) := by
  unfold completes after
  cases x s with
  | ok a t => exact ⟨fun _ => ⟨a, rfl⟩, fun _ => rfl⟩
  | error e t =>
    refine ⟨fun h => Bool.noConfusion h, fun h => ?_⟩
    obtain ⟨a, h_a⟩ := h
    cases h_a

end Laws

/-! ### What every statement keeps -/

def Keeps (P : Store → Prop) (x : Exec Store α) : Prop :=
  ∀ s, P s → P (x.after s)

def KeepsOnError (P : Store → Prop) (x : Exec Store α) : Prop :=
  ∀ s, P s → x.completes s = false → P (x.after s)

section Keeps

variable {P : Store → Prop} {x : Exec Store α} {f : α → Exec Store β}

theorem Keeps.onError (h : Keeps P x) : KeepsOnError P x :=
  fun s h_s _ => h s h_s

theorem Keeps.pure (a : α) : Keeps P (pure a : Exec Store α) := fun _ h => h

theorem Keeps.write {g : Store → Store} (h : ∀ s, P s → P (g s)) : Keeps P (Exec.write g) := h

theorem KeepsOnError.write (g : Store → Store) : KeepsOnError P (Exec.write g) := by
  intro s _ h_raises
  rw [completes_write] at h_raises
  cases h_raises

theorem Keeps.raiseIf (c : Bool) : Keeps P (raiseIf c : Exec Store Unit) := by
  intro s h_s
  cases c with
  | false => exact h_s
  | true => exact h_s

theorem Keeps.ofOption (o : Option α) : Keeps P (ofOption o : Exec Store α) := by
  intro s h_s
  cases o with
  | none => exact h_s
  | some a => exact h_s

theorem KeepsOnError.bind (h_x : Keeps P x) (h_f : ∀ a, KeepsOnError P (f a)) :
    KeepsOnError P (x >>= f) := by
  intro s h_s h_raises
  have h_first := h_x s h_s
  unfold after at h_first ⊢
  unfold completes at h_raises
  cases h_run : x s with
  | ok a t =>
    rw [h_run] at h_first
    rw [bind_of_ok h_run] at h_raises ⊢
    exact h_f a t h_first h_raises
  | error e t =>
    rw [h_run] at h_first
    rw [bind_of_error h_run]
    exact h_first

theorem Keeps.bind (h_x : Keeps P x) (h_f : ∀ a, Keeps P (f a)) : Keeps P (x >>= f) := by
  intro s h_s
  have h_first := h_x s h_s
  unfold after at h_first ⊢
  cases h_run : x s with
  | ok a t =>
    rw [h_run] at h_first
    rw [bind_of_ok h_run]
    exact h_f a t h_first
  | error e t =>
    rw [h_run] at h_first
    rw [bind_of_error h_run]
    exact h_first

theorem Keeps.raiseIf_bind {c : Bool} {g : Unit → Exec Store β}
    (h : c = false → Keeps P (g ())) : Keeps P (Exec.raiseIf c >>= g) := by
  cases c with
  | false => exact h rfl
  | true => exact fun s h_s => h_s

theorem KeepsOnError.raiseIf_bind {c : Bool} {g : Unit → Exec Store β}
    (h : c = false → KeepsOnError P (g ())) : KeepsOnError P (Exec.raiseIf c >>= g) := by
  cases c with
  | false => exact h rfl
  | true => exact fun s h_s _ => h_s

theorem Keeps.ofOption_bind {o : Option α} (h : ∀ a, o = some a → Keeps P (f a)) :
    Keeps P (Exec.ofOption o >>= f) := by
  cases o with
  | none => exact fun s h_s => h_s
  | some a => exact h a rfl

end Keeps

end Exec
