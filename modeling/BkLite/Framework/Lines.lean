import BkLite.Framework.Value
import Mathlib.Data.List.TakeWhile

/-!
# Lines of a text, and what a regular expression reads of one

`splitlines` cuts a text at its line boundaries. A regular expression that can take its parts off
the front of a line in one way only is a `Scan`: each part takes what it matches and leaves the
rest. A scan takes what stands at the front, so what it has read was there (`Scan.Reads`).
-/

namespace Py

abbrev Line := List Char

/-- The characters that end a line for `str.splitlines`. -/
def isLineBreak (c : Char) : Bool :=
  ['\n', '\x0b', '\x0c', '\r', '\x1c', '\x1d', '\x1e', '\u0085', '\u2028', '\u2029'].contains c

def splitlines : List Char → List Line
  | [] => []
  | '\r' :: '\n' :: cs => [] :: splitlines cs
  | c :: cs =>
    if isLineBreak c then [] :: splitlines cs
    else
      match splitlines cs with
      | [] => [[c]]
      | l :: ls => (c :: l) :: ls

theorem mem_of_mem_splitlines {s : List Char} {l : Line} {c : Char} (h : l ∈ splitlines s)
    (h_c : c ∈ l) : c ∈ s ∧ isLineBreak c = false := by
  induction s using splitlines.induct generalizing l with
  | case1 => exact absurd h List.not_mem_nil
  | case2 cs ih =>
    rw [splitlines] at h
    obtain rfl | h := List.mem_cons.mp h
    · exact absurd h_c List.not_mem_nil
    · exact (ih h h_c).imp_left fun h_mem => List.mem_cons_of_mem _ (List.mem_cons_of_mem _ h_mem)
  | case3 d cs h_crlf h_break ih =>
    rw [splitlines.eq_3 _ _ h_crlf, if_pos h_break] at h
    obtain rfl | h := List.mem_cons.mp h
    · exact absurd h_c List.not_mem_nil
    · exact (ih h h_c).imp_left (List.mem_cons_of_mem _)
  | case4 d cs h_crlf h_break h_lines ih =>
    rw [splitlines.eq_3 _ _ h_crlf, if_neg h_break, h_lines] at h
    rw [List.mem_singleton.mp h, List.mem_singleton] at h_c
    rw [h_c]
    exact ⟨List.mem_cons_self, Bool.not_eq_true _ ▸ h_break⟩
  | case5 d cs h_crlf h_break first others h_lines ih =>
    rw [splitlines.eq_3 _ _ h_crlf, if_neg h_break, h_lines] at h
    rw [h_lines] at ih
    obtain rfl | h := List.mem_cons.mp h
    · obtain rfl | h_c := List.mem_cons.mp h_c
      · exact ⟨List.mem_cons_self, Bool.not_eq_true _ ▸ h_break⟩
      · exact (ih List.mem_cons_self h_c).imp_left (List.mem_cons_of_mem _)
    · exact (ih (List.mem_cons_of_mem _ h) h_c).imp_left (List.mem_cons_of_mem _)

theorem splitlines_append_newline {l : Line} (h : ∀ c ∈ l, isLineBreak c = false) (cs : List Char) :
    splitlines (l ++ '\n' :: cs) = l :: splitlines cs := by
  induction l with
  | nil =>
    have h_crlf : ∀ cs', '\n' = '\r' → cs = '\n' :: cs' → False := by
      intro cs' h_eq
      exact absurd h_eq (by decide)
    show splitlines ('\n' :: cs) = _
    rw [splitlines.eq_3 _ _ h_crlf, if_pos (by decide)]
  | cons c l ih =>
    have h_c := h c List.mem_cons_self
    have h_l := ih fun d h_d => h d (List.mem_cons_of_mem c h_d)
    have h_crlf : ∀ cs', c = '\r' → l ++ '\n' :: cs = '\n' :: cs' → False := by
      rintro cs' rfl
      exact absurd h_c (by decide)
    have h_not : ¬isLineBreak c = true := by
      rw [h_c]
      exact Bool.false_ne_true
    rw [List.cons_append, splitlines.eq_3 _ _ h_crlf, if_neg h_not, h_l]

theorem splitlines_lines {ls : List Line} (h : ∀ l ∈ ls, ∀ c ∈ l, isLineBreak c = false) :
    splitlines (ls.flatMap (· ++ ['\n'])) = ls := by
  induction ls with
  | nil => rfl
  | cons l ls ih =>
    rw [List.flatMap_cons, List.append_assoc, List.singleton_append,
      splitlines_append_newline (h l List.mem_cons_self),
      ih fun l' h_l' => h l' (List.mem_cons_of_mem l h_l')]

abbrev Scan (α : Type) := StateT (List Char) Option α

namespace Scan

/-- The longest run of characters with `p`, at least one. -/
def run1 (p : Char → Bool) : Scan Line := fun cs =>
  if cs.takeWhile p = [] then none else some (cs.takeWhile p, cs.dropWhile p)

/-- `\S+`. -/
def word : Scan Line := run1 (!isSpace ·)

/-- `\s+`. -/
def blanks : Scan Line := run1 isSpace

/-- `\d+`. -/
def digits : Scan Line := run1 fun c => (digitValue c).isSome

/-- `\s*`. -/
def skipBlanks : Scan Unit := fun cs => some ((), cs.dropWhile isSpace)

def literal (s : List Char) : Scan Unit := fun cs => (s.isPrefixOf? cs).map ((), ·)

def oneOf {α : Type} (choices : List (String × α)) : Scan α := fun cs =>
  choices.findSome? fun (s, a) => (s.toList.isPrefixOf? cs).map (a, ·)

/-- `(..)?`. -/
def maybe {α : Type} (x : Scan α) : Scan (Option α) := fun cs =>
  match x cs with
  | some (a, rest) => some (some a, rest)
  | none => some (none, cs)

/-- `.*` in a line. -/
def rest : Scan Line := fun cs => some (cs, [])

/-- `$`. -/
def lineEnd : Scan Unit := fun cs => if cs = [] then some ((), []) else none

def firstMatch {α : Type} (x : Scan α) (l : Line) : Option α := (x l).map (·.1)

section Laws

variable {α β : Type} {x : Scan α} {f : α → Scan β} {cs cs' : List Char} {a : α} {b : β}

theorem bind_eq_some :
    (x >>= f) cs = some (b, cs') ↔ ∃ a r, x cs = some (a, r) ∧ f a r = some (b, cs') := by
  show (x cs >>= fun p => f p.1 p.2) = _ ↔ _
  rw [Option.bind_eq_bind, Option.bind_eq_some_iff]
  exact ⟨fun ⟨⟨a, r⟩, h⟩ => ⟨a, r, h⟩, fun ⟨a, r, h⟩ => ⟨(a, r), h⟩⟩

theorem bind_of_some {r : List Char} (h : x cs = some (a, r)) : (x >>= f) cs = f a r := by
  show (x cs >>= fun p => f p.1 p.2) = _
  rw [h]
  rfl

theorem bind_of_none (h : x cs = none) : (x >>= f) cs = none := by
  show (x cs >>= fun p => f p.1 p.2) = _
  rw [h]
  rfl

theorem run1_append {p : Char → Bool} {w r : Line} (h_ne : w ≠ []) (h_w : ∀ c ∈ w, p c = true)
    (h_r : ∀ c ∈ r.head?, p c = false) : run1 p (w ++ r) = some (w, r) := by
  have h_take : r.takeWhile p = [] := by
    cases r with
    | nil => rfl
    | cons c r => rw [List.takeWhile_cons_of_neg (by rw [h_r c rfl]; exact Bool.false_ne_true)]
  have h_drop : r.dropWhile p = r := by
    cases r with
    | nil => rfl
    | cons c r => rw [List.dropWhile_cons_of_neg (by rw [h_r c rfl]; exact Bool.false_ne_true)]
  unfold run1
  rw [List.takeWhile_append_of_pos h_w, List.dropWhile_append_of_pos h_w, h_take, h_drop,
    List.append_nil, if_neg h_ne]

theorem literal_append (s : List Char) : literal s (s ++ cs) = some ((), cs) := by
  unfold literal
  rw [List.isPrefixOf?_eq_some_iff_append_eq.mpr rfl]
  rfl

theorem literal_cons (c : Char) : literal [c] (c :: cs) = some ((), cs) := literal_append [c]

theorem maybe_of_some {r : List Char} (h : x cs = some (a, r)) :
    maybe x cs = some (some a, r) := by
  unfold maybe
  rw [h]

theorem maybe_of_none (h : x cs = none) : maybe x cs = some (none, cs) := by
  unfold maybe
  rw [h]

theorem eq_append_of_run1 {p : Char → Bool} {w : Line} (h : run1 p cs = some (w, cs')) :
    cs = w ++ cs' := by
  unfold run1 at h
  split_ifs at h
  obtain ⟨rfl, rfl⟩ := Prod.mk.inj (Option.some.inj h)
  exact List.takeWhile_append_dropWhile.symm

theorem eq_append_of_literal {s : List Char} (h : literal s cs = some ((), cs')) :
    cs = s ++ cs' := by
  obtain ⟨r, h_r, h_eq⟩ := Option.map_eq_some_iff.mp h
  obtain ⟨-, rfl⟩ := Prod.mk.inj h_eq
  exact (List.isPrefixOf?_eq_some_iff_append_eq.mp h_r).symm

end Laws

end Scan

end Py
