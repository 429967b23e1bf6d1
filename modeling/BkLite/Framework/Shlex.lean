import BkLite.Framework.Value
import Mathlib.Data.List.TakeWhile

/-!
# Words of a line, as a shell splits it

`shlex.split(line, comments=True)` of a line without its end: quotes and backslashes are taken away,
blanks outside quotes separate words, and a `#` outside quotes begins a comment.
-/

namespace Py
namespace Shlex

/-- `shlex.whitespace`. -/
def isBlank (c : Char) : Bool := c = ' ' || c = '\t' || c = '\r' || c = '\n'

def isSpecial (c : Char) : Bool := c = '"' || c = '\x27' || c = '\\'

def isPlain (c : Char) : Bool := !isBlank c && !isSpecial c && c ≠ '#'

/-- Where the reader is: in a word or between words, between quotes, or behind a backslash outside
or inside double quotes. -/
inductive Mode
  | word
  | quote (q : Char)
  | escape (inside : Option Char)

def emit (token : List Char) (quoted : Bool) (tokens : List (List Char)) : List (List Char) :=
  if token ≠ [] ∨ quoted = true then token :: tokens else tokens

/-- `shlex.read_token`, until the end of the line; `none` is a `ValueError`. -/
def read : Mode → List Char → Bool → List Char → Option (List (List Char))
  | .word, token, quoted, [] => some (emit token quoted [])
  | .word, token, quoted, c :: cs =>
    if isBlank c = true then (read .word [] false cs).map (emit token quoted)
    else if c = '#' then some (emit token quoted [])
    else if c = '\\' then read (.escape none) token quoted cs
    else if c = '"' ∨ c = '\x27' then read (.quote c) token quoted cs
    else read .word (token ++ [c]) quoted cs
  | .quote _, _, _, [] => none
  | .quote q, token, _, c :: cs =>
    if c = q then read .word token true cs
    else if c = '\\' ∧ q = '"' then read (.escape (some q)) token true cs
    else read (.quote q) (token ++ [c]) true cs
  | .escape _, _, _, [] => none
  | .escape none, token, quoted, c :: cs => read .word (token ++ [c]) quoted cs
  | .escape (some q), token, quoted, c :: cs =>
    -- inside quotes a backslash stands for itself before other characters
    read (.quote q) (token ++ if c ≠ '\\' ∧ c ≠ q then ['\\', c] else [c]) quoted cs

/-- `shlex.split(line, comments=True)`. -/
def split (line : List Char) : Option (List (List Char)) := read .word [] false line

example : split "web1 a=\"x y\\\\\" # b".toList = some ["web1".toList, "a=x y\\".toList] := by
  decide

/-- `text.replace("\\", "\\\\").replace('"', '\\"')`. -/
def escaped (text : List Char) : List Char :=
  text.flatMap fun c => if c = '\\' then ['\\', '\\'] else if c = '"' then ['\\', '"'] else [c]

variable {m : Mode} {token w cs v : List Char} {q : Bool} {ts : List (List Char)} {c : Char}

/-! ### Words that are read back -/

theorem read_plain (h : isPlain c = true) :
    read .word token q (c :: cs) = read .word (token ++ [c]) q cs := by
  unfold isPlain isSpecial at h
  simp only [Bool.and_eq_true, Bool.not_eq_true', Bool.or_eq_false_iff, decide_eq_false_iff_not,
    decide_eq_true_iff] at h
  obtain ⟨⟨h_blank, ⟨h_double, h_single⟩, h_back⟩, h_hash⟩ := h
  rw [read, if_neg (by rw [h_blank]; exact Bool.false_ne_true), if_neg h_hash, if_neg h_back,
    if_neg (not_or.mpr ⟨h_double, h_single⟩)]

theorem read_plain_append (h : ∀ c ∈ w, isPlain c = true) :
    read .word token q (w ++ cs) = read .word (token ++ w) q cs := by
  induction w generalizing token with
  | nil => rw [List.append_nil, List.nil_append]
  | cons c w ih =>
    rw [List.cons_append, read_plain (h c List.mem_cons_self),
      ih fun d h_d => h d (List.mem_cons_of_mem c h_d), List.append_assoc, List.singleton_append]

theorem escaped_cons : escaped (c :: v) =
    (if c = '\\' then ['\\', '\\'] else if c = '"' then ['\\', '"'] else [c]) ++ escaped v :=
  List.flatMap_cons

theorem read_quoted :
    read (.quote '"') token q (escaped v ++ '"' :: cs) = read .word (token ++ v) true cs := by
  induction v generalizing token q with
  | nil =>
    rw [List.append_nil]
    show read (.quote '"') token q ('"' :: cs) = _
    rw [read, if_pos rfl]
  | cons c v ih =>
    have h_assoc : token ++ c :: v = (token ++ [c]) ++ v := by
      rw [List.append_assoc, List.singleton_append]
    rw [escaped_cons, h_assoc]
    split_ifs with h_back h_double
    · rw [h_back]
      show read (.quote '"') token q ('\\' :: '\\' :: (escaped v ++ '"' :: cs)) = _
      rw [read, if_neg (by decide), if_pos ⟨rfl, rfl⟩, read, if_neg (by decide), ih]
    · rw [h_double]
      show read (.quote '"') token q ('\\' :: '"' :: (escaped v ++ '"' :: cs)) = _
      rw [read, if_neg (by decide), if_pos ⟨rfl, rfl⟩, read, if_neg (by decide), ih]
    · show read (.quote '"') token q (c :: (escaped v ++ '"' :: cs)) = _
      rw [read, if_neg h_double, if_neg fun h => h_back h.1, ih]

/-- **Without quotes** it is read back if there is nothing in it that ends a word or begins a
quote. -/
theorem read_escaped (h : ∀ c ∈ v, isBlank c = false ∧ c ≠ '#' ∧ c ≠ '"' ∧ c ≠ '\x27') :
    read .word token q (escaped v ++ cs) = read .word (token ++ v) q cs := by
  induction v generalizing token with
  | nil =>
    rw [List.append_nil]
    rfl
  | cons c v ih =>
    have h_assoc : token ++ c :: v = (token ++ [c]) ++ v := by
      rw [List.append_assoc, List.singleton_append]
    have h_v := fun d h_d => h d (List.mem_cons_of_mem c h_d)
    obtain ⟨h_blank, h_hash, h_double, h_single⟩ := h c List.mem_cons_self
    rw [escaped_cons, h_assoc]
    split_ifs with h_back
    · rw [h_back]
      show read .word token q ('\\' :: '\\' :: (escaped v ++ cs)) = _
      rw [read, if_neg (by decide), if_neg (by decide), if_pos rfl, read, ih h_v]
    · have h_plain : isPlain c = true := by
        simp [isPlain, isSpecial, h_blank, h_hash, h_double, h_single, h_back]
      show read .word token q (c :: (escaped v ++ cs)) = _
      rw [read_plain h_plain, ih h_v]

/-! ### Words that are not -/

theorem prefix_of_read (h : read m token q cs = some ts) (h_token : token ≠ []) :
    ∃ t ts', ts = t :: ts' ∧ token <+: t := by
  induction cs generalizing m token q ts with
  | nil =>
    cases m with
    | word =>
      cases h
      exact ⟨token, [], if_pos (.inl h_token), List.prefix_rfl⟩
    | quote q' => cases h
    | escape inside => cases h
  | cons c cs ih =>
    have h_longer : ∀ {m' : Mode} {q' : Bool} {x : List Char},
        read m' (token ++ x) q' cs = some ts → ∃ t ts', ts = t :: ts' ∧ token <+: t := by
      intro m' q' x h_read
      have h_ne : token ++ x ≠ [] := fun h_nil => h_token (List.append_eq_nil_iff.mp h_nil).1
      obtain ⟨t, ts', h_ts, h_pre⟩ := ih h_read h_ne
      exact ⟨t, ts', h_ts, (List.prefix_append token x).trans h_pre⟩
    cases m with
    | word =>
      rw [read] at h
      split_ifs at h
      · obtain ⟨rest, -, rfl⟩ := Option.map_eq_some_iff.mp h
        exact ⟨token, rest, if_pos (.inl h_token), List.prefix_rfl⟩
      · cases h
        exact ⟨token, [], if_pos (.inl h_token), List.prefix_rfl⟩
      · exact ih h h_token
      · exact ih h h_token
      · exact h_longer h
    | quote q' =>
      rw [read] at h
      split_ifs at h
      · exact ih h h_token
      · exact ih h h_token
      · exact h_longer h
    | escape inside =>
      cases inside with
      | none => exact h_longer (by rwa [read] at h)
      | some q' => exact h_longer (by rwa [read] at h)

theorem read_ends (h_c : isBlank c = true ∨ c = '#') (h : read .word token q (c :: cs) = some ts) :
    ∃ ts', ts = emit token q ts' ∧ (c = '#' → ts' = []) := by
  rw [read] at h
  split_ifs at h with h_blank h_hash
  · obtain ⟨rest, -, rfl⟩ := Option.map_eq_some_iff.mp h
    refine ⟨rest, rfl, ?_⟩
    rintro rfl
    exact absurd h_blank (by decide)
  · cases h
    exact ⟨[], rfl, fun _ => rfl⟩
  all_goals exact absurd h_c (not_or.mpr ⟨h_blank, h_hash⟩)

def Mode.owed : Mode → ℕ
  | .escape (some _) => 2
  | _ => 1

def Mode.Special : Mode → Prop
  | .quote q => isSpecial q = true
  | .escape (some q) => isSpecial q = true
  | _ => True

theorem read_specials {r : List Char} (h_r : ∀ c ∈ r, isSpecial c = true)
    (h_open : m = .word → token ≠ [] ∨ q = true) (h_m : m.Special) :
    ∃ m' q' r', read m token q (r ++ cs) = read m' (token ++ r') q' cs ∧
      r'.length + m'.owed ≤ r.length + m.owed ∧ (m' = .word → token ++ r' ≠ [] ∨ q' = true) ∧
      m'.Special := by
  induction r generalizing m token q with
  | nil =>
    refine ⟨m, q, [], by rw [List.append_nil, List.nil_append], le_rfl, fun h => ?_, h_m⟩
    rw [List.append_nil]
    exact h_open h
  | cons c r ih =>
    have h_c := h_r c List.mem_cons_self
    have h_rest := fun d h_d => h_r d (List.mem_cons_of_mem c h_d)
    -- one character is read, and some are taken
    have h_step : ∀ (m₁ : Mode) (q₁ : Bool) (x : List Char),
        read m token q (c :: (r ++ cs)) = read m₁ (token ++ x) q₁ (r ++ cs) →
        x.length + m₁.owed ≤ 1 + m.owed → (m₁ = .word → token ++ x ≠ [] ∨ q₁ = true) →
        m₁.Special →
        ∃ m' q' r', read m token q (c :: r ++ cs) = read m' (token ++ r') q' cs ∧
          r'.length + m'.owed ≤ (c :: r).length + m.owed ∧
          (m' = .word → token ++ r' ≠ [] ∨ q' = true) ∧ m'.Special := by
      intro m₁ q₁ x h_read h_owed h_open₁ h_m₁
      obtain ⟨m', q', r', h_run, h_length, h_open', h_m'⟩ := ih h_rest h_open₁ h_m₁
      refine ⟨m', q', x ++ r', ?_, ?_, ?_, h_m'⟩
      · rw [List.cons_append, h_read, h_run, List.append_assoc]
      · rw [List.length_append, List.length_cons]
        omega
      · rwa [List.append_assoc] at h_open'
    have h_nil : token = token ++ [] := (List.append_nil token).symm
    cases m with
    | word =>
      have h_blank : ¬isBlank c = true := by
        intro h
        simp only [isSpecial, Bool.or_eq_true, decide_eq_true_eq] at h_c
        obtain (rfl | rfl) | rfl := h_c <;> exact absurd h (by decide)
      have h_hash : c ≠ '#' := by
        rintro rfl
        exact absurd h_c (by decide)
      by_cases h_back : c = '\\'
      · refine h_step (.escape none) q [] ?_ (by decide) (fun h => nomatch h) trivial
        rw [read, if_neg h_blank, if_neg h_hash, if_pos h_back, List.append_nil]
      · have h_quote : c = '"' ∨ c = '\x27' := by
          simp only [isSpecial, Bool.or_eq_true, decide_eq_true_eq] at h_c
          exact h_c.resolve_right h_back
        refine h_step (.quote c) q [] ?_ (by simp [Mode.owed]) (fun h => nomatch h) h_c
        rw [read, if_neg h_blank, if_neg h_hash, if_neg h_back, if_pos h_quote, List.append_nil]
    | quote d =>
      by_cases h_end : c = d
      · refine h_step .word true [] ?_ (by simp [Mode.owed]) (fun _ => .inr rfl) trivial
        rw [read, if_pos h_end, List.append_nil]
      · by_cases h_back : c = '\\' ∧ d = '"'
        · refine h_step (.escape (some d)) true [] ?_ le_rfl (fun h => nomatch h) h_m
          rw [read, if_neg h_end, if_pos h_back, List.append_nil]
        · refine h_step (.quote d) true [c] ?_ le_rfl (fun h => nomatch h) h_m
          rw [read, if_neg h_end, if_neg h_back]
    | escape inside =>
      cases inside with
      | none =>
        refine h_step .word q [c] (by rw [read]) le_rfl (fun _ => .inl ?_) trivial
        exact List.append_ne_nil_of_right_ne_nil token (List.cons_ne_nil c [])
      | some d =>
        refine h_step (.quote d) q _ (by rw [read]) ?_ (fun h => nomatch h) h_m
        split_ifs <;> simp [Mode.owed]

/-- **A quote or a backslash** in a word is not read back: the first word of the line is another
one. -/
theorem split_special {pre r post : List Char} (h_pre : ∀ c ∈ pre, isPlain c = true)
    (h_r : ∀ c ∈ r, isSpecial c = true) (h_ne : r ≠ [])
    (h_post : ∀ c ∈ (post ++ cs).head?, isSpecial c = false)
    (h : split (pre ++ (r ++ (post ++ cs))) = some ts) : ts.head? ≠ some (pre ++ (r ++ post)) := by
  obtain ⟨c, r₁, rfl⟩ := List.exists_cons_of_ne_nil h_ne
  unfold split at h
  rw [read_plain_append h_pre, List.nil_append] at h
  -- the first of them is not taken
  have h_c := h_r c List.mem_cons_self
  obtain ⟨m, h_first, h_word, h_m, h_owed⟩ : ∃ m, read .word pre false (c :: r₁ ++ (post ++ cs)) =
      read m pre false (r₁ ++ (post ++ cs)) ∧ m ≠ .word ∧ m.Special ∧ m.owed = 1 := by
    simp only [isSpecial, Bool.or_eq_true, decide_eq_true_eq] at h_c
    obtain (rfl | rfl) | rfl := h_c
    · exact ⟨.quote '"', by rw [List.cons_append, read]; rfl, by simp, rfl, rfl⟩
    · exact ⟨.quote '\x27', by rw [List.cons_append, read]; rfl, by simp, rfl, rfl⟩
    · exact ⟨.escape none, by rw [List.cons_append, read]; rfl, by simp, trivial, rfl⟩
  obtain ⟨m', q', r', h_run, h_length, h_open, h_m'⟩ := @read_specials m pre (post ++ cs) false r₁
    (fun d h_d => h_r d (List.mem_cons_of_mem c h_d)) (fun h_eq => absurd h_eq h_word) h_m
  rw [h_first, h_run] at h
  rw [h_owed] at h_length
  -- a word that ends here is too short
  have h_short : r'.length < (c :: r₁).length → pre ++ r' ≠ pre ++ (c :: r₁ ++ post) := by
    intro h_lt h_eq
    have h_same := congrArg List.length (List.append_cancel_left h_eq)
    rw [List.length_append] at h_same
    omega
  -- in one that goes on another character stands where one of them should be
  have h_other : ∀ {x : List Char} {d : Char} {m'' : Mode}, x.length < (c :: r₁).length →
      isSpecial d = false → ∀ {q''} {rest : List Char},
      read m'' (pre ++ (x ++ [d])) q'' rest = some ts →
        ts.head? ≠ some (pre ++ (c :: r₁ ++ post)) := by
    intro x d m'' h_lt h_d q'' rest h_read h_head
    have h_ne : pre ++ (x ++ [d]) ≠ [] := by simp
    obtain ⟨t, ts', rfl, h_prefix⟩ := prefix_of_read h_read h_ne
    obtain rfl := Option.some.inj h_head
    have h_tail := (List.prefix_append_right_inj pre).mp h_prefix
    have h_run' : x ++ [d] <+: c :: r₁ := by
      refine List.prefix_of_prefix_length_le h_tail (List.prefix_append (c :: r₁) post) ?_
      rw [List.length_append]
      exact h_lt
    have h_mem := h_r d (h_run'.subset (List.mem_append_right x (List.mem_singleton_self d)))
    rw [h_d] at h_mem
    cases h_mem
  generalize post ++ cs = following at h h_post
  cases following with
  | nil =>
    cases m' with
    | word =>
      cases h
      rw [emit, if_pos (h_open rfl)]
      have h_lt : r'.length < (c :: r₁).length := by
        simp only [Mode.owed] at h_length
        simp only [List.length_cons]
        omega
      exact fun h_eq => h_short h_lt (Option.some.inj h_eq)
    | quote e => cases h
    | escape inside => cases h
  | cons d following =>
    have h_d := h_post d rfl
    cases m' with
    | word =>
      have h_lt : r'.length < (c :: r₁).length := by
        simp only [Mode.owed] at h_length
        simp only [List.length_cons]
        omega
      by_cases h_end : isBlank d = true ∨ d = '#'
      · obtain ⟨ts', rfl, -⟩ := read_ends h_end h
        rw [emit, if_pos (h_open rfl)]
        exact fun h_eq => h_short h_lt (Option.some.inj h_eq)
      · have h_plain : isPlain d = true := by
          obtain ⟨h_blank, h_hash⟩ := not_or.mp h_end
          simp [isPlain, h_d, h_hash, Bool.not_eq_true _ ▸ h_blank]
        rw [read_plain h_plain, List.append_assoc] at h
        exact h_other h_lt h_d h
    | quote e =>
      have h_e : d ≠ e := by
        rintro rfl
        rw [show isSpecial d = true from h_m'] at h_d
        cases h_d
      have h_back : d ≠ '\\' := by
        rintro rfl
        exact absurd h_d (by decide)
      rw [read, if_neg h_e, if_neg fun h_and => h_back h_and.1, List.append_assoc] at h
      refine h_other ?_ h_d h
      simp only [Mode.owed] at h_length
      simp only [List.length_cons]
      omega
    | escape inside =>
      cases inside with
      | none =>
        rw [read, List.append_assoc] at h
        refine h_other ?_ h_d h
        simp only [Mode.owed] at h_length
        simp only [List.length_cons]
        omega
      | some e =>
        have h_e : d ≠ '\\' ∧ d ≠ e := by
          refine ⟨?_, ?_⟩
          · rintro rfl
            exact absurd h_d (by decide)
          · rintro rfl
            rw [show isSpecial d = true from h_m'] at h_d
            cases h_d
        rw [read, if_pos h_e, List.append_assoc,
          show r' ++ ['\\', d] = (r' ++ ['\\']) ++ [d] by simp] at h
        refine h_other ?_ h_d h
        simp only [Mode.owed] at h_length
        simp only [List.length_cons, List.length_append, List.length_nil]
        omega

theorem exists_run (p : Char → Bool) (w : List Char) :
    ∃ pre rest, w = pre ++ rest ∧ (∀ c ∈ pre, p c = true) ∧ ∀ c ∈ rest.head?, p c = false := by
  refine ⟨_, _, List.takeWhile_append_dropWhile.symm, fun c => List.mem_takeWhile_imp, ?_⟩
  intro c h_c
  have h_not := List.head?_dropWhile_not p w
  rw [Option.mem_def.mp h_c] at h_not
  simpa using h_not

theorem split_head_ne (h_not : ¬∀ c ∈ w, isPlain c = true)
    (h_first : ∀ c ∈ w.head?, isBlank c = false)
    (h_cs : ∀ c ∈ cs.head?, isSpecial c = false) (h : split (w ++ cs) = some ts) :
    ts.head? ≠ some w := by
  obtain ⟨pre, rest, rfl, h_pre, h_rest⟩ := exists_run isPlain w
  obtain rfl | ⟨c, r, rfl⟩ : rest = [] ∨ ∃ c r, rest = c :: r := by
    cases rest with
    | nil => exact .inl rfl
    | cons c r => exact .inr ⟨c, r, rfl⟩
  · rw [List.append_nil] at h_not
    exact absurd h_pre h_not
  have h_c : isPlain c = false := h_rest c rfl
  by_cases h_special : isSpecial c = true
  · -- the run of quotes and backslashes, and what follows it
    obtain ⟨run, post, h_eq, h_run, h_post⟩ := exists_run isSpecial (c :: r)
    have h_ne : run ≠ [] := by
      rintro rfl
      rw [List.nil_append] at h_eq
      rw [h_post c (by rw [← h_eq]; rfl)] at h_special
      cases h_special
    have h_post' : ∀ d ∈ (post ++ cs).head?, isSpecial d = false := by
      cases post with
      | nil => exact h_cs
      | cons e post => exact h_post
    rw [h_eq, List.append_assoc, List.append_assoc] at h
    rw [h_eq]
    exact split_special h_pre h_run h_ne h_post' h
  · have h_end : isBlank c = true ∨ c = '#' := by
      by_contra h_neither
      obtain ⟨h_blank, h_hash⟩ := not_or.mp h_neither
      simp [isPlain, h_blank, h_hash, h_special] at h_c
    unfold split at h
    rw [List.append_assoc, read_plain_append h_pre, List.nil_append, List.cons_append] at h
    obtain ⟨ts', rfl, h_hash⟩ := read_ends h_end h
    intro h_head
    unfold emit at h_head
    by_cases h_pre_ne : pre ≠ []
    · -- the word ends before the character
      rw [if_pos (.inl h_pre_ne)] at h_head
      have h_same := congrArg List.length (Option.some.inj h_head)
      simp at h_same
    · obtain rfl := not_not.mp h_pre_ne
      rw [if_neg (by simp)] at h_head
      obtain h_blank | h_eq := h_end
      · rw [h_first c rfl] at h_blank
        cases h_blank
      · rw [h_hash h_eq] at h_head
        cases h_head

/-! ### Lines -/

/-- `w` is read as the word `t`, whatever comes behind it. -/
def Reads (w t : List Char) : Prop :=
  t ≠ [] ∧ ∀ cs, ∃ q, read .word [] false (w ++ cs) = read .word t q cs

theorem Reads.plain (h_ne : w ≠ []) (h : ∀ c ∈ w, isPlain c = true) : Reads w w :=
  ⟨h_ne, fun _ => ⟨false, read_plain_append h⟩⟩

theorem split_joined {ws : List (List Char × List Char)} (h : ∀ p ∈ ws, Reads p.1 p.2) :
    split ([' '].intercalate (ws.map (·.1))) = some (ws.map (·.2)) := by
  induction ws with
  | nil => rfl
  | cons p ws ih =>
    obtain ⟨h_ne, h_p⟩ := h p List.mem_cons_self
    have h_ws := ih fun p' h_p' => h p' (List.mem_cons_of_mem p h_p')
    cases ws with
    | nil =>
      obtain ⟨q, h_read⟩ := h_p []
      have h_line : [' '].intercalate ([p].map (·.1)) = p.1 ++ [] := by simp
      unfold split
      rw [h_line, h_read]
      show some (emit p.2 q []) = _
      rw [emit, if_pos (.inl h_ne)]
      rfl
    | cons p' ws =>
      obtain ⟨q, h_read⟩ := h_p (' ' :: [' '].intercalate ((p' :: ws).map (·.1)))
      have h_line : [' '].intercalate ((p :: p' :: ws).map (·.1)) =
          p.1 ++ ' ' :: [' '].intercalate ((p' :: ws).map (·.1)) := by
        simp [List.intercalate_cons_cons]
      unfold split at h_ws ⊢
      rw [h_line, h_read, read, if_pos (by decide), h_ws]
      show some (emit p.2 q _) = _
      rw [emit, if_pos (.inl h_ne)]
      rfl

theorem mem_of_read (h : read m token q cs = some ts) {t : List Char} (h_t : t ∈ ts) (h_c : c ∈ t) :
    c ∈ token ∨ c ∈ cs ∨ c = '\\' := by
  induction cs generalizing m token q ts with
  | nil =>
    cases m with
    | word =>
      cases h
      unfold emit at h_t
      split_ifs at h_t
      · rw [List.mem_singleton.mp h_t] at h_c
        exact .inl h_c
      · exact absurd h_t List.not_mem_nil
    | quote q' => cases h
    | escape inside => cases h
  | cons d cs ih =>
    have h_same : ∀ {m' : Mode} {q' : Bool}, read m' token q' cs = some ts →
        c ∈ token ∨ c ∈ d :: cs ∨ c = '\\' := fun h_read =>
      (ih h_read h_t).imp_right (.imp_left (List.mem_cons_of_mem d))
    have h_longer : ∀ {m' : Mode} {q' : Bool} {x : List Char}, (∀ e ∈ x, e = d ∨ e = '\\') →
        read m' (token ++ x) q' cs = some ts → c ∈ token ∨ c ∈ d :: cs ∨ c = '\\' := by
      intro m' q' x h_x h_read
      obtain h_mem | h_mem | h_back := ih h_read h_t
      · obtain h_mem | h_mem := List.mem_append.mp h_mem
        · exact .inl h_mem
        · exact .inr ((h_x c h_mem).imp_left fun h_eq => by rw [h_eq]; exact List.mem_cons_self)
      · exact .inr (.inl (List.mem_cons_of_mem d h_mem))
      · exact .inr (.inr h_back)
    have h_self : ∀ e ∈ [d], e = d ∨ e = '\\' := fun e h_e => .inl (List.mem_singleton.mp h_e)
    cases m with
    | word =>
      rw [read] at h
      split_ifs at h
      · obtain ⟨rest, h_rest, rfl⟩ := Option.map_eq_some_iff.mp h
        unfold emit at h_t
        split_ifs at h_t
        · obtain rfl | h_t := List.mem_cons.mp h_t
          · exact .inl h_c
          · obtain h_nil | h_mem := ih h_rest h_t
            · exact absurd h_nil List.not_mem_nil
            · exact .inr (h_mem.imp_left (List.mem_cons_of_mem d))
        · obtain h_nil | h_mem := ih h_rest h_t
          · exact absurd h_nil List.not_mem_nil
          · exact .inr (h_mem.imp_left (List.mem_cons_of_mem d))
      · cases h
        unfold emit at h_t
        split_ifs at h_t
        · rw [List.mem_singleton.mp h_t] at h_c
          exact .inl h_c
        · exact absurd h_t List.not_mem_nil
      · exact h_same h
      · exact h_same h
      · exact h_longer h_self h
    | quote q' =>
      rw [read] at h
      split_ifs at h
      · exact h_same h
      · exact h_same h
      · exact h_longer h_self h
    | escape inside =>
      cases inside with
      | none =>
        rw [read] at h
        exact h_longer h_self h
      | some q' =>
        rw [read] at h
        refine h_longer (fun e h_e => ?_) h
        split_ifs at h_e
        · obtain rfl | h_e := List.mem_cons.mp h_e
          · exact .inr rfl
          · exact h_self e h_e
        · exact h_self e h_e

end Shlex
end Py
