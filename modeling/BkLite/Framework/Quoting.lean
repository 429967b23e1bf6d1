import BkLite.Framework.Find
import Mathlib.Data.List.TakeWhile

/-!
# Lists of quoted words in a text

A `Language` quotes words and has a reader that goes through a text one character at a time: a list
of quoted words is read back, with what is behind it (`Language.read_text`), and what is read of a
text is read of any longer one (`read_append`).
-/

namespace Quoting

/-- What a reader does with a character: it is no part of a word, it stands for one, or a word or
the last word ends. -/
inductive Move (σ : Type)
  | skip (s : σ)
  | add (s : σ) (c : Char)
  | next (s : σ)
  | stop

section Reader

variable {σ : Type} (step : σ → Char → Option (Move σ))

def readWords : σ → List Char → List Char → Option (List (List Char) × List Char)
  | _, _, [] => none
  | s, w, c :: cs =>
    match step s c with
    | none => none
    | some (.skip s') => readWords s' w cs
    | some (.add s' d) => readWords s' (w ++ [d]) cs
    | some (.next s') => (readWords s' [] cs).map (Prod.map (w :: ·) id)
    | some .stop => some ([w], cs)

variable {step} {s : σ} {w v cs r t : List Char} {vs : List (List Char)}

theorem readWords_skip {s' : σ} {c : Char} (h : step s c = some (.skip s')) :
    readWords step s w (c :: cs) = readWords step s' w cs := by
  rw [readWords, h]

theorem readWords_add {s' : σ} {c d : Char} (h : step s c = some (.add s' d)) :
    readWords step s w (c :: cs) = readWords step s' (w ++ [d]) cs := by
  rw [readWords, h]

theorem read_append (h : readWords step s w cs = some (vs, r)) :
    readWords step s w (cs ++ t) = some (vs, r ++ t) := by
  induction cs generalizing s w vs with
  | nil => cases h
  | cons c cs ih =>
    rw [List.cons_append]
    unfold readWords at h ⊢
    split at h
    · cases h
    · exact ih h
    · exact ih h
    · obtain ⟨⟨ws, r'⟩, h_rest, h_eq⟩ := Option.map_eq_some_iff.mp h
      cases h_eq
      rw [ih h_rest]
      rfl
    · cases h
      rfl

theorem mem_of_read (h_step : ∀ s c s' d, step s c = some (.add s' d) → d = c)
    (h : readWords step s w cs = some (vs, r)) : ∀ v ∈ vs, ∀ c ∈ v, c ∈ w ∨ c ∈ cs := by
  induction cs generalizing s w vs with
  | nil => cases h
  | cons a cs ih =>
    unfold readWords at h
    split at h
    · cases h
    · exact fun v h_v c h_c => (ih h v h_v c h_c).imp_right (List.mem_cons_of_mem a)
    · next s' d h_add =>
      intro v h_v c h_c
      rw [h_step _ _ _ _ h_add] at h
      have h_mem := ih h v h_v c h_c
      rwa [List.mem_append, List.mem_singleton, or_assoc, ← List.mem_cons] at h_mem
    · obtain ⟨⟨ws, r'⟩, h_rest, h_eq⟩ := Option.map_eq_some_iff.mp h
      cases h_eq
      rintro v (_ | ⟨_, h_v⟩) c h_c
      · exact .inl h_c
      · exact .inr (List.mem_cons_of_mem a ((ih h_rest v h_v c h_c).resolve_left List.not_mem_nil))
    · cases h
      rintro v (_ | ⟨_, h_v⟩) c h_c
      · exact .inl h_c
      · cases h_v

theorem read_flatMap {esc : Char → List Char}
    (h : ∀ c ∈ v, ∀ w cs, readWords step s w (esc c ++ cs) = readWords step s (w ++ [c]) cs) :
    readWords step s w (v.flatMap esc ++ cs) = readWords step s (w ++ v) cs := by
  induction v generalizing w with
  | nil => rw [List.append_nil, List.flatMap_nil, List.nil_append]
  | cons c v ih =>
    rw [List.flatMap_cons, List.append_assoc, h c List.mem_cons_self,
      ih fun d h_d => h d (List.mem_cons_of_mem c h_d), List.append_assoc, List.singleton_append]

end Reader

/-- How words are quoted and read back. -/
structure Language where
  State : Type
  start : State
  closed : State
  step : State → Char → Option (Move State)
  quote : List Char → List Char
  separator : List Char
  closing : List Char
  quoted : ∀ v cs, readWords step start [] (quote v ++ cs) = readWords step closed v cs
  next : ∀ v cs, readWords step closed v (separator ++ cs) =
    (readWords step start [] cs).map (Prod.map (v :: ·) id)
  last : ∀ v cs, readWords step closed v (closing ++ cs) = some ([v], cs)

namespace Language

variable (L : Language) {vs : List (List Char)} {cs : List Char}

def text (vs : List (List Char)) : List Char :=
  L.separator.intercalate (vs.map L.quote) ++ L.closing

theorem text_cons_cons {v v' : List Char} : L.text (v :: v' :: vs) =
    L.quote v ++ (L.separator ++ L.text (v' :: vs)) := by
  simp only [text, List.map_cons, List.intercalate_cons_cons, List.append_assoc]

theorem read_text (h : vs ≠ []) :
    readWords L.step L.start [] (L.text vs ++ cs) = some (vs, cs) := by
  induction vs with
  | nil => exact absurd rfl h
  | cons v vs ih =>
    cases vs with
    | nil =>
      rw [text, List.map_singleton, List.intercalate_singleton, List.append_assoc, L.quoted]
      exact L.last v cs
    | cons v' vs =>
      rw [text_cons_cons, List.append_assoc, List.append_assoc, L.quoted, L.next,
        ih (List.cons_ne_nil _ _)]
      rfl

variable {L}

theorem mem_text {c : Char} (h : c ∈ L.text vs) :
    (∃ v ∈ vs, c ∈ L.quote v) ∨ c ∈ L.separator ∨ c ∈ L.closing := by
  induction vs with
  | nil => exact .inr (.inr h)
  | cons v vs ih =>
    cases vs with
    | nil =>
      rw [text, List.map_singleton, List.intercalate_singleton, List.mem_append] at h
      exact h.imp (fun h_c => ⟨v, List.mem_cons_self, h_c⟩) .inr
    | cons v' vs =>
      rw [text_cons_cons, List.mem_append, List.mem_append] at h
      obtain h | h | h := h
      · exact .inl ⟨v, List.mem_cons_self, h⟩
      · exact .inr (.inl h)
      · exact (ih h).imp_left fun ⟨u, h_u, h_c⟩ => ⟨u, List.mem_cons_of_mem v h_u, h_c⟩

theorem infix_text_iff {p : List Char} {within : List Char → Prop}
    (h_quote : ∀ v y, p <:+: L.quote v ++ y ↔ within v ∨ p <:+: y)
    (h_separator : ∀ y, p <:+: L.separator ++ y ↔ p <:+: y) :
    p <:+: L.text vs ++ cs ↔ (∃ v ∈ vs, within v) ∨ p <:+: L.closing ++ cs := by
  induction vs with
  | nil => simp [text]
  | cons v vs ih =>
    cases vs with
    | nil => simp [text, h_quote]
    | cons v' vs =>
      rw [text_cons_cons, List.append_assoc, List.append_assoc, h_quote, h_separator, ih,
        List.exists_mem_cons_iff (a := v), or_assoc]

end Language

/-! ### Patterns in texts -/

section Patterns

variable {p x y v : List Char} {e : Char}

theorem infix_append_cons (h_ne : p ≠ []) (h : e ∉ p) :
    p <:+: x ++ e :: y ↔ p <:+: x ∨ p <:+: y := by
  have h_sep : ∀ c ∈ p, (c == e) = false := by
    rintro c h_c
    exact beq_eq_false_iff_ne.mpr fun h_eq => h (h_eq ▸ h_c)
  rw [Find.infix_splitOnP_iff h_ne h_sep, Find.infix_splitOnP_iff h_ne h_sep x,
    Find.infix_splitOnP_iff h_ne h_sep y,
    List.splitOnP_append_cons (p := (· == e)) x y (beq_self_eq_true e)]
  simp only [List.mem_append, or_and_right, exists_or]

theorem infix_append_of_notMem (h : e ∉ x) : e :: p <:+: x ++ y ↔ e :: p <:+: y := by
  induction x with
  | nil => rfl
  | cons c x ih =>
    obtain ⟨h_c, h_x⟩ := not_or.mp (mt List.mem_cons.mpr h)
    rw [List.cons_append, List.infix_cons_iff, List.cons_prefix_cons, ih h_x]
    exact or_iff_right fun h_begins => h_c h_begins.1

theorem infix_flatMap_iff {esc : Char → List Char} (h_ne : p ≠ []) (h : e ∉ p)
    (h_other : ∀ c, c ≠ e → esc c = [c])
    (h_esc : ∀ x y, p <:+: x ++ (esc e ++ y) ↔ p <:+: x ∨ p <:+: y) :
    p <:+: x ++ v.flatMap esc ↔ p <:+: x ++ v := by
  induction v generalizing x with
  | nil => rfl
  | cons c v ih =>
    rw [List.flatMap_cons]
    by_cases h_c : c = e
    · rw [h_c, h_esc, infix_append_cons h_ne h]
      exact or_congr_right (ih (x := []))
    · rw [h_other c h_c, ← List.append_assoc, ih, List.append_assoc, List.singleton_append]

end Patterns

/-! ### Heredocs -/

section Heredoc

variable {delimiter s : List Char}

def ofLines (lines : List (List Char)) : List Char := lines.flatMap (· ++ ['\n'])

def heredoc (delimiter : List Char) (lines : List (List Char)) : List Char :=
  ofLines (lines.takeWhile (· ≠ delimiter))

theorem ofLines_splitOn : ofLines (s.splitOn '\n') = s ++ ['\n'] := by
  have h_join (ls : List (List Char)) (h_ne : ls ≠ []) :
      ofLines ls = ['\n'].intercalate ls ++ ['\n'] := by
    induction ls with
    | nil => exact absurd rfl h_ne
    | cons l ls ih =>
      cases ls with
      | nil => simp [ofLines]
      | cons l' ls =>
        have h_rest := ih (List.cons_ne_nil _ _)
        simp only [ofLines, List.flatMap_cons, List.intercalate_cons_cons, List.append_assoc]
          at h_rest ⊢
        rw [h_rest]
  rw [h_join _ (List.splitOn_ne_nil '\n' s), List.intercalate_splitOn]

/-- A heredoc is the beginning of the text, **and all of it if no line is the delimiter**. -/
theorem heredoc_append : ∃ rest,
    heredoc delimiter (s.splitOn '\n' ++ [delimiter]) ++ rest = s ++ ['\n'] ∧
      (rest = [] ↔ delimiter ∉ s.splitOn '\n') := by
  have h_take : (s.splitOn '\n' ++ [delimiter]).takeWhile (· ≠ delimiter) =
      (s.splitOn '\n').takeWhile (· ≠ delimiter) := by
    induction s.splitOn '\n' with
    | nil => simp
    | cons l ls ih =>
      rw [List.cons_append, List.takeWhile_cons, List.takeWhile_cons, ih]
  refine ⟨ofLines ((s.splitOn '\n').dropWhile (· ≠ delimiter)), ?_, ?_⟩
  · rw [heredoc, h_take, ofLines, ofLines, ← List.flatMap_append, List.takeWhile_append_dropWhile]
    exact ofLines_splitOn
  · -- each line has its newline, so there is no text without lines
    have h_nil : ∀ ls, ofLines ls = [] ↔ ls = [] := by
      intro ls
      cases ls <;> simp [ofLines]
    rw [h_nil, List.dropWhile_eq_nil_iff]
    simp only [decide_eq_true_eq]
    exact ⟨fun h h_mem => h _ h_mem rfl, fun h l h_l h_eq => h (h_eq ▸ h_l)⟩

theorem mem_lines_iff (h_ne : delimiter ≠ []) (h : '\n' ∉ delimiter) : delimiter ∈ s.splitOn '\n' ↔
    '\n' :: (delimiter ++ ['\n']) <:+: '\n' :: (s ++ ['\n']) := by
  constructor
  · intro h_mem
    obtain ⟨before, behind, h_lines⟩ := List.append_of_mem h_mem
    have h_shift : ∀ ls, '\n' :: ofLines ls = ls.flatMap ('\n' :: ·) ++ ['\n'] := by
      intro ls
      induction ls with
      | nil => rfl
      | cons l ls ih => simp_all [ofLines]
    refine ⟨before.flatMap ('\n' :: ·), ofLines behind, ?_⟩
    rw [← ofLines_splitOn (s := s), h_lines]
    have h_front := congrArg (· ++ (delimiter ++ '\n' :: ofLines behind)) (h_shift before)
    simpa [ofLines] using h_front.symm
  · rintro ⟨x, y, h_eq⟩
    have h_left : (x ++ '\n' :: (delimiter ++ ['\n']) ++ y).splitOn '\n' =
        x.splitOn '\n' ++ delimiter :: y.splitOn '\n' := by
      rw [List.append_assoc, List.cons_append, List.append_assoc, List.singleton_append,
        List.splitOn_append_cons_self, List.splitOn_append_cons_self, List.splitOn_eq_singleton h,
        List.singleton_append]
    have h_right : ('\n' :: (s ++ ['\n'])).splitOn '\n' = [] :: (s.splitOn '\n' ++ [[]]) := by
      have h_first := List.splitOn_append_cons_self [] (s ++ ['\n']) (a := '\n')
      rw [List.nil_append] at h_first
      rw [h_first, List.splitOn_append_cons_self]
      rfl
    have h_mem : delimiter ∈ [] :: (s.splitOn '\n' ++ [[]]) := by
      rw [← h_right, ← h_eq, h_left]
      exact List.mem_append_right _ List.mem_cons_self
    simpa [h_ne] using h_mem

end Heredoc

end Quoting
