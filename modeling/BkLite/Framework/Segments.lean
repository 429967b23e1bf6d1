import Mathlib.Data.List.Basic

/-!
# Texts of segments

A text that has a segment for each of some fields, a name and a value, with bars between the
segments. Nothing keeps the bar out of a value, so a value can run into the segments behind it
(`RunsInto`), and that is the only way in which two readings of a text differ
(`text_eq_iff`). No value that lacks a bar with a name behind it does so
(`RunsInto.exists_infix`).
-/

namespace Segments

variable {α δ : Type} (bar : α) (name : δ → List α)

def text (v : δ → List α) : List δ → List α
  | [] => []
  | [d] => name d ++ v d
  | d :: d' :: ds => name d ++ (v d ++ bar :: text v (d' :: ds))

/-- One text has a bar where the next field of the other begins. -/
inductive RunsInto (v w : δ → List α) : List δ → Prop
  | here {d d' : δ} {ds : List δ} {x : List α} (h_value : w d = v d ++ bar :: x)
      (h_rest : text bar name v (d' :: ds) = x ++ bar :: text bar name w (d' :: ds)) :
      RunsInto v w (d :: d' :: ds)
  | later {d : δ} {ds : List δ} (h_value : v d = w d) (h_rest : RunsInto v w ds) :
      RunsInto v w (d :: ds)

variable {bar name} {v w : δ → List α} {ds : List δ}

theorem text_congr (h : ∀ d ∈ ds, v d = w d) : text bar name v ds = text bar name w ds := by
  induction ds with
  | nil => rfl
  | cons d ds ih =>
    have h_rest := ih fun d' h_d' => h d' (List.mem_cons_of_mem d h_d')
    have h_value := h d List.mem_cons_self
    cases ds with
    | nil => rw [text, text, h_value]
    | cons d' ds => rw [text, text, h_value, h_rest]

namespace RunsInto

theorem text_eq (h : RunsInto bar name v w ds) : text bar name v ds = text bar name w ds := by
  induction h with
  | here h_value h_rest => simp [text, h_value, h_rest]
  | @later d ds h_value h_rest ih =>
    cases ds with
    | nil => cases h_rest
    | cons d' ds => rw [text, text, h_value, ih]

theorem exists_ne (h : RunsInto bar name v w ds) : ∃ d ∈ ds, v d ≠ w d := by
  induction h with
  | @here d d' ds x h_value h_rest =>
    refine ⟨d, List.mem_cons_self, fun h_same => ?_⟩
    have h_length := congrArg List.length (h_same.trans h_value)
    simp at h_length
  | later h_value h_rest ih =>
    obtain ⟨d', h_mem, h_ne⟩ := ih
    exact ⟨d', List.mem_cons_of_mem _ h_mem, h_ne⟩

theorem exists_infix (h : RunsInto bar name v w ds) (h_names : ∀ d ∈ ds, bar ∉ name d) :
    ∃ d ∈ ds, ∃ d' ∈ ds, bar :: name d' <:+: w d := by
  induction h with
  | @here d d' ds x h_value h_rest =>
    refine ⟨d, List.mem_cons_self, d', List.mem_cons_of_mem d List.mem_cons_self, ?_⟩
    -- the name comes before the first bar
    have h_prefix : name d' <+: x := by
      have h_text : ∃ z, text bar name v (d' :: ds) = name d' ++ z := by
        cases ds with
        | nil => exact ⟨_, rfl⟩
        | cons d'' ds => exact ⟨_, rfl⟩
      obtain ⟨z, h_z⟩ := h_text
      rcases List.append_eq_append_iff.mp (h_z.symm.trans h_rest) with
        ⟨y, h_x, -⟩ | ⟨y, h_name, h_bar⟩
      · exact ⟨y, h_x.symm⟩
      · cases y with
        | nil => exact ⟨[], by simpa using h_name⟩
        | cons c y =>
          have h_c : bar = c := (List.cons.inj h_bar).1
          have h_mem : bar ∈ name d' := by
            rw [h_name, h_c]
            exact List.mem_append_right x List.mem_cons_self
          exact absurd h_mem (h_names d' (List.mem_cons_of_mem d List.mem_cons_self))
    obtain ⟨y, h_y⟩ := h_prefix
    exact ⟨v d, y, by simp [h_value, ← h_y]⟩
  | later h_value h_rest ih =>
    obtain ⟨d, h_d, d', h_d', h_infix⟩ := ih fun d' h_d' => h_names d' (List.mem_cons_of_mem _ h_d')
    exact ⟨d, List.mem_cons_of_mem _ h_d, d', List.mem_cons_of_mem _ h_d', h_infix⟩

end RunsInto

theorem append_bar {a b s t : List α} (h : a ++ bar :: s = b ++ bar :: t) :
    (a = b ∧ s = t) ∨ (∃ x, b = a ++ bar :: x ∧ s = x ++ bar :: t) ∨
      ∃ x, a = b ++ bar :: x ∧ t = x ++ bar :: s := by
  rcases List.append_eq_append_iff.mp h with ⟨x, h_b, h_s⟩ | ⟨x, h_a, h_t⟩
  · cases x with
    | nil => exact .inl ⟨by simpa using h_b.symm, (List.cons.inj h_s).2⟩
    | cons c x =>
      obtain ⟨rfl, h_tail⟩ := List.cons.inj h_s
      exact .inr (.inl ⟨x, h_b, h_tail⟩)
  · cases x with
    | nil => exact .inl ⟨by simpa using h_a, (List.cons.inj h_t).2.symm⟩
    | cons c x =>
      obtain ⟨rfl, h_tail⟩ := List.cons.inj h_t
      exact .inr (.inr ⟨x, h_a, h_tail⟩)

theorem text_eq_iff : text bar name v ds = text bar name w ds ↔
    (∀ d ∈ ds, v d = w d) ∨ RunsInto bar name v w ds ∨ RunsInto bar name w v ds := by
  constructor
  · intro h
    induction ds with
    | nil => exact .inl fun d h_d => absurd h_d List.not_mem_nil
    | cons d ds ih =>
      cases ds with
      | nil =>
        refine .inl fun d' h_d' => ?_
        rw [List.mem_singleton.mp h_d']
        exact List.append_cancel_left h
      | cons d' ds =>
        rcases append_bar (List.append_cancel_left h) with
          ⟨h_value, h_text⟩ | ⟨x, h_value, h_text⟩ | ⟨x, h_value, h_text⟩
        · -- the first values are the same
          rcases ih h_text with h_same | h_runs | h_runs
          · exact .inl (List.forall_mem_cons.mpr ⟨h_value, h_same⟩)
          · exact .inr (.inl (.later h_value h_runs))
          · exact .inr (.inr (.later h_value.symm h_runs))
        · exact .inr (.inl (.here h_value h_text))
        · exact .inr (.inr (.here h_value h_text))
  · rintro (h_same | h_runs | h_runs)
    · exact text_congr h_same
    · exact h_runs.text_eq
    · exact h_runs.text_eq.symm

end Segments
