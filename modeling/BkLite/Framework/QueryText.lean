import BkLite.Framework.LogsQL
import BkLite.Framework.Value

/-!
# The text of a query

A query is sent as a text. `lex` divides it into tokens, unless a quote is left open, and `Reads`
takes the tokens apart into a filter and the pipes behind the first bar. A text that leaves no quote
open and ends at a separator is read as it is on its own (`lexFrom_append`), which is what the
composition of texts goes by.
-/

namespace LogsQL

/-! ### The lexer -/

def isQuote (c : Char) : Bool :=
  c = '"' || c = Char.ofNat 39 || c = Char.ofNat 96

/-- The characters that are a token each, but for the parenthesis that may belong to a name. -/
def mark : Char → Option Token
  | ')' => some .rparen
  | '|' => some .pipe
  | ':' => some .colon
  | '!' => some .not
  | _ => none

def keyword (w : List Char) : Token :=
  if w.map Char.toLower = "not".toList then .not
  else if w.map Char.toLower = "and".toList then .and
  else if w.map Char.toLower = "or".toList then .or
  else .word w

def flush (w : List Char) : List Token :=
  if w = [] then [] else [keyword w]

def opening (w : List Char) : List Token :=
  match flush w with
  | [.word w] => [.call w]
  | ts => ts ++ [.lparen]

/-- Where the lexer stands: in a word, or in a quoted text, possibly behind a backslash. -/
inductive Mode
  | plain (w : List Char)
  | quote (q : Char) (s : List Char)
  | escape (q : Char) (s : List Char)
deriving DecidableEq, Repr

def next : Mode → Char → List Token × Mode
  | .plain w, c =>
    match mark c with
    | some t => (flush w ++ [t], .plain [])
    | none =>
      if Py.isSpace c then (flush w, .plain [])
      else if c = '(' then (opening w, .plain [])
      else if isQuote c then (flush w, .quote c [])
      else ([], .plain (w ++ [c]))
  | .quote q s, c =>
    if c = '\\' then ([], .escape q s)
    else if c = q then ([.quoted s], .plain [])
    else ([], .quote q (s ++ [c]))
  | .escape q s, c => ([], .quote q (s ++ [c]))

def Mode.last : Mode → Option (List Token)
  | .plain w => some (flush w)
  | .quote _ _ | .escape _ _ => none

def lexFrom : Mode → List Char → Option (List Token)
  | mode, [] => mode.last
  | mode, c :: cs => (lexFrom (next mode c).2 cs).map ((next mode c).1 ++ ·)

def lex (text : List Char) : Option (List Token) :=
  lexFrom (.plain []) text

def modeAfter : Mode → List Char → Mode :=
  List.foldl fun mode c => (next mode c).2

theorem lexFrom_cons (mode : Mode) (c : Char) (cs : List Char) :
    lexFrom mode (c :: cs) = (lexFrom (next mode c).2 cs).map ((next mode c).1 ++ ·) := rfl

/-- What a separator adds to the tokens. The parenthesis that opens is none: the word in front of
it belongs to it. -/
def separator (c : Char) : Option (List Token) :=
  match mark c with
  | some t => some [t]
  | none => if Py.isSpace c then some [] else none

theorem next_separator (w : List Char) {us : List Token} {c : Char} (h : separator c = some us) :
    next (.plain w) c = (flush w ++ us, .plain []) := by
  rw [separator] at h
  rw [next]
  cases h_mark : mark c with
  | some t =>
    rw [h_mark] at h
    obtain rfl := Option.some.inj h
    rfl
  | none =>
    rw [h_mark] at h
    dsimp only at h ⊢
    split_ifs at h ⊢
    obtain rfl := Option.some.inj h
    rw [List.append_nil]

theorem lexFrom_append {mode : Mode} {cs : List Char} {ts us : List Token} {c : Char}
    (h : lexFrom mode cs = some ts) (h_c : separator c = some us) (cs' : List Char) :
    lexFrom mode (cs ++ c :: cs') = (lex cs').map (ts ++ us ++ ·) := by
  induction cs generalizing mode ts with
  | nil =>
    cases mode with
    | plain w =>
      obtain rfl := Option.some.inj h
      rw [List.nil_append, lexFrom_cons, next_separator w h_c]
      rfl
    | quote | escape => exact absurd h nofun
  | cons d cs ih =>
    rw [lexFrom_cons] at h
    obtain ⟨ts, h_ts, rfl⟩ := Option.map_eq_some_iff.1 h
    rw [List.cons_append, lexFrom_cons, ih h_ts, Option.map_map]
    congr 1
    funext vs
    simp only [Function.comp_apply, List.append_assoc]

theorem lex_append {cs : List Char} {ts us : List Token} {c : Char} (h : lex cs = some ts)
    (h_c : separator c = some us) (cs' : List Char) :
    lex (cs ++ c :: cs') = (lex cs').map (ts ++ us ++ ·) :=
  lexFrom_append h h_c cs'

theorem lexFrom_append_eq_none {mode : Mode} {cs cs' : List Char}
    (h : lexFrom (modeAfter mode cs) cs' = none) : lexFrom mode (cs ++ cs') = none := by
  induction cs generalizing mode with
  | nil => exact h
  | cons c cs ih =>
    rw [List.cons_append, lexFrom_cons, ih h]
    rfl

/-! ### White space and bars -/

def Mode.Proper : Mode → Prop
  | .plain _ => True
  | .quote q _ | .escape q _ => Py.isSpace q = false

theorem isSpace_of_isQuote {c : Char} (h : isQuote c) : Py.isSpace c = false := by
  simp only [isQuote, Bool.or_eq_true, decide_eq_true_eq] at h
  obtain (rfl | rfl) | rfl := h <;> decide

theorem next_proper {mode : Mode} (h : mode.Proper) (c : Char) : (next mode c).2.Proper := by
  cases mode with
  | plain w =>
    rw [next]
    cases mark c with
    | some t => trivial
    | none =>
      dsimp only
      split_ifs with h_space h_paren h_quote
      · trivial
      · trivial
      · exact isSpace_of_isQuote h_quote
      · trivial
  | quote q s =>
    rw [next]
    split_ifs
    · exact h
    · trivial
    · exact h
  | escape q s => exact h

theorem separator_of_isSpace {c : Char} (h : Py.isSpace c) : separator c = some [] := by
  have h_mark : mark c = none := by
    unfold mark
    split <;> first | rfl | exact absurd h (by decide)
  rw [separator, h_mark]
  exact if_pos h

theorem lexFrom_append_isSpace {mode : Mode} (h : mode.Proper) {c : Char} (h_c : Py.isSpace c)
    (cs : List Char) : lexFrom mode (cs ++ [c]) = lexFrom mode cs := by
  induction cs generalizing mode with
  | nil =>
    cases mode with
    | plain w =>
      rw [List.nil_append, lexFrom_cons, next_separator w (separator_of_isSpace h_c)]
      simp [lexFrom, Mode.last, flush]
    | quote q s =>
      have h_q : c ≠ q := by
        rintro rfl
        exact absurd (h.symm.trans h_c) nofun
      rw [List.nil_append, lexFrom_cons, next, if_neg h_q]
      split_ifs <;> rfl
    | escape q s => rfl
  | cons d cs ih =>
    rw [List.cons_append, lexFrom_cons, lexFrom_cons, ih (next_proper h d)]

theorem lex_cons_isSpace {c : Char} (h_c : Py.isSpace c) (cs : List Char) :
    lex (c :: cs) = lex cs := by
  rw [lex, lexFrom_cons, next_separator [] (separator_of_isSpace h_c)]
  exact Option.map_id'

theorem lex_strip (cs : List Char) : lex (Py.strip cs) = lex cs := by
  have h_left (cs : List Char) : lex (cs.dropWhile Py.isSpace) = lex cs := by
    induction cs with
    | nil => rfl
    | cons c cs ih =>
      rw [List.dropWhile_cons]
      split_ifs with h_c
      · rw [ih, lex_cons_isSpace h_c]
      · rfl
  have h_right (cs : List Char) : lex (cs.dropWhile Py.isSpace).reverse = lex cs.reverse := by
    induction cs with
    | nil => rfl
    | cons c cs ih =>
      rw [List.dropWhile_cons]
      split_ifs with h_c
      · rw [ih, List.reverse_cons, lex, lex, lexFrom_append_isSpace (by exact trivial) h_c]
      · rfl
  rw [Py.strip, h_right, List.reverse_reverse, h_left]

theorem flush_eq_nil {w : List Char} (h : flush w = []) : w = [] := by
  rw [flush] at h
  split_ifs at h with h_w
  exact h_w

theorem eq_of_next {mode : Mode} {c : Char} (h : (next mode c).1 = [])
    (h' : (next mode c).2 = .plain []) : mode = .plain [] ∧ Py.isSpace c := by
  cases mode with
  | plain w =>
    rw [next] at h h'
    cases h_mark : mark c with
    | some t =>
      rw [h_mark] at h
      exact absurd h (by simp)
    | none =>
      rw [h_mark] at h h'
      dsimp only at h h'
      split_ifs at h h' with h_space h_paren h_quote
      · exact ⟨by rw [flush_eq_nil h], h_space⟩
      · rw [opening] at h
        split at h <;> exact absurd h (by simp)
      · exact absurd h' (by simp)
  | quote q s =>
    rw [next] at h h'
    split_ifs at h h'
  | escape q s => exact absurd h' nofun

theorem isSpace_of_lexFrom_eq_nil {mode : Mode} {cs : List Char} (h : lexFrom mode cs = some []) :
    mode = .plain [] ∧ ∀ c ∈ cs, Py.isSpace c := by
  induction cs generalizing mode with
  | nil =>
    cases mode with
    | plain w =>
      obtain rfl : w = [] := flush_eq_nil (Option.some.inj h)
      exact ⟨rfl, nofun⟩
    | quote | escape => exact absurd h nofun
  | cons c cs ih =>
    obtain ⟨ts, h_ts, h_nil⟩ := Option.map_eq_some_iff.1 h
    obtain ⟨h_next, rfl⟩ := List.append_eq_nil_iff.1 h_nil
    obtain ⟨h_mode, h_cs⟩ := ih h_ts
    obtain ⟨rfl, h_c⟩ := eq_of_next h_next h_mode
    exact ⟨rfl, List.forall_mem_cons.2 ⟨h_c, h_cs⟩⟩

theorem pipe_notMem_flush (w : List Char) : .pipe ∉ flush w := by
  unfold flush keyword
  split_ifs <;> simp

theorem pipe_notMem_next (mode : Mode) {c : Char} (h_c : '|' ≠ c) :
    .pipe ∉ (next mode c).1 := by
  cases mode with
  | plain w =>
    have h_flush := pipe_notMem_flush w
    have h_mark : mark c ≠ some .pipe := by
      unfold mark
      split <;> simp_all
    rw [next]
    cases h_t : mark c with
    | some t =>
      have h_t' : t ≠ .pipe := fun h => h_mark (h ▸ h_t)
      simpa [h_flush] using h_t'.symm
    | none =>
      dsimp only
      split_ifs
      · exact h_flush
      · unfold opening
        split <;> simp_all
      · exact h_flush
      · simp
  | quote q s =>
    rw [next]
    split_ifs <;> simp
  | escape q s => simp [next]

theorem pipe_notMem_of_lexFrom {mode : Mode} {cs : List Char} {ts : List Token}
    (h : lexFrom mode cs = some ts) (h_cs : '|' ∉ cs) : .pipe ∉ ts := by
  induction cs generalizing mode ts with
  | nil =>
    cases mode with
    | plain w =>
      obtain rfl := Option.some.inj h
      exact pipe_notMem_flush w
    | quote | escape => exact absurd h nofun
  | cons c cs ih =>
    obtain ⟨h_c, h_cs⟩ := not_or.1 (mt List.mem_cons.2 h_cs)
    obtain ⟨ts, h_ts, rfl⟩ := Option.map_eq_some_iff.1 h
    exact fun h_pipe => (List.mem_append.1 h_pipe).elim (pipe_notMem_next mode h_c) (ih h_ts h_cs)

/-! ### Composed texts -/

@[simp] theorem lex_lparen (cs : List Char) :
    lex ('(' :: cs) = (lex cs).map (.lparen :: ·) := rfl

theorem lex_word {w : List Char} {t : Token} (h : lex w = some [t]) (cs : List Char) :
    lex (' ' :: (w ++ ' ' :: cs)) = (lex cs).map (t :: ·) := by
  rw [lex_cons_isSpace rfl, lex_append h (separator_of_isSpace rfl)]
  rfl

theorem lex_and (cs : List Char) : lex (" AND ".toList ++ cs) = (lex cs).map (.and :: ·) :=
  lex_word (show lex "AND".toList = some [.and] from rfl) cs

theorem lex_or (cs : List Char) : lex (" OR ".toList ++ cs) = (lex cs).map (.or :: ·) :=
  lex_word (show lex "OR".toList = some [.or] from rfl) cs

theorem lex_pipe (cs : List Char) : lex (" | ".toList ++ cs) = (lex cs).map (.pipe :: ·) := by
  calc lex (" | ".toList ++ cs)
    _ = lex ("| ".toList ++ cs) := lex_cons_isSpace rfl _
    _ = (lex (' ' :: cs)).map (.pipe :: ·) := rfl
    _ = (lex cs).map (.pipe :: ·) := by rw [lex_cons_isSpace rfl]

section Parts

variable {cs cs' : List Char} {ts us : List Token}

theorem lex_block (h : lex cs = some ts) (rest : List Char) :
    lex ("(".toList ++ cs ++ ")".toList ++ rest) = (lex rest).map (block ts ++ ·) := by
  calc lex ("(".toList ++ cs ++ ")".toList ++ rest)
    _ = lex ('(' :: (cs ++ ')' :: rest)) := by simp
    _ = (lex (cs ++ ')' :: rest)).map (.lparen :: ·) := rfl
    _ = ((lex rest).map (ts ++ [.rparen] ++ ·)).map (.lparen :: ·) := by
      rw [lex_append h (show separator ')' = some [.rparen] from rfl)]
    _ = (lex rest).map (block ts ++ ·) := by
      rw [Option.map_map]
      rfl

theorem lex_guard (h : lex cs = some ts) (h' : lex cs' = some us) (rest : List Char) :
    lex ("(".toList ++ cs ++ ") AND (".toList ++ cs' ++ ")".toList ++ rest)
      = (lex rest).map (block ts ++ guard us ++ ·) := by
  calc lex ("(".toList ++ cs ++ ") AND (".toList ++ cs' ++ ")".toList ++ rest)
    _ = lex ("(".toList ++ cs ++ ")".toList ++
          (" AND ".toList ++ ("(".toList ++ cs' ++ ")".toList ++ rest))) := by simp
    _ = (((lex rest).map (block us ++ ·)).map (.and :: ·)).map (block ts ++ ·) := by
      rw [lex_block h, lex_and, lex_block h']
    _ = (lex rest).map (block ts ++ guard us ++ ·) := by
      rw [Option.map_map, Option.map_map]
      congr 1
      funext vs
      simp [guard]

end Parts

/-! ### Queries -/

def Reads (text : List Char) (f : Filter) (pipes : List Token) : Prop :=
  ∃ fs, lex text = some (fs ++ pipes) ∧ Parses .or fs f ∧ Balanced pipes ∧
    ∀ t ∈ pipes.head?, t = .pipe

def Tail (text : List Char) : Prop :=
  text = [] ∨ ∃ cs, text = " | ".toList ++ cs

theorem Tail.head? {text : List Char} (h : Tail text) {ts : List Token}
    (h_ts : lex text = some ts) : ∀ t ∈ ts.head?, t = .pipe := by
  obtain rfl | ⟨cs, rfl⟩ := h
  · obtain rfl := Option.some.inj h_ts
    exact nofun
  · rw [lex_pipe] at h_ts
    obtain ⟨us, -, rfl⟩ := Option.map_eq_some_iff.1 h_ts
    rintro t ⟨⟩
    rfl

theorem Tail.lex_append {tail : List Char} (h : Tail tail) {cs : List Char} {ts : List Token}
    (h_cs : lex cs = some ts) : lex (cs ++ tail) = (lex tail).map (ts ++ ·) := by
  obtain rfl | ⟨rest, rfl⟩ := h
  · rw [List.append_nil, h_cs]
    simp [lex, lexFrom, Mode.last, flush]
  · calc lex (cs ++ ' ' :: ("| ".toList ++ rest))
      _ = (lex ("| ".toList ++ rest)).map (ts ++ [] ++ ·) :=
        LogsQL.lex_append h_cs (separator_of_isSpace rfl) _
      _ = (lex (" | ".toList ++ rest)).map (ts ++ ·) := by
        rw [List.append_nil]
        exact congrArg _ (lex_cons_isSpace rfl _).symm

theorem append_inj_of_pipe {fs fs' ps ps' : List Token} (h : fs ++ ps = fs' ++ ps')
    (h_fs : .pipe ∉ fs) (h_fs' : .pipe ∉ fs') (h_ps : ∀ t ∈ ps.head?, t = .pipe)
    (h_ps' : ∀ t ∈ ps'.head?, t = .pipe) : fs = fs' ∧ ps = ps' := by
  obtain ⟨us, rfl, rfl⟩ | ⟨us, rfl, rfl⟩ := List.append_eq_append_iff.1 h
  · obtain _ | ⟨u, us⟩ := us
    · exact ⟨(List.append_nil _).symm, rfl⟩
    · obtain rfl := h_ps u rfl
      exact absurd (List.mem_append_right _ List.mem_cons_self) h_fs'
  · obtain _ | ⟨u, us⟩ := us
    · exact ⟨List.append_nil _, rfl⟩
    · obtain rfl := h_ps' u rfl
      exact absurd (List.mem_append_right _ List.mem_cons_self) h_fs

theorem reads_append_iff {text tail : List Char} {ts : List Token} {f : Filter}
    {pipes : List Token} (h_text : lex (text ++ tail) = (lex tail).map (ts ++ ·))
    (h_ts : .pipe ∉ ts) (h_tail : Tail tail) :
    Reads (text ++ tail) f pipes ↔ Parses .or ts f ∧ lex tail = some pipes ∧ Balanced pipes := by
  constructor
  · rintro ⟨fs, h_lex, h_parses, h_bal, h_head⟩
    rw [h_text] at h_lex
    obtain ⟨us, h_us, h_eq⟩ := Option.map_eq_some_iff.1 h_lex
    obtain ⟨rfl, rfl⟩ :=
      append_inj_of_pipe h_eq h_ts h_parses.pipe_notMem (h_tail.head? h_us) h_head
    exact ⟨h_parses, h_us, h_bal⟩
  · rintro ⟨h_parses, h_lex, h_bal⟩
    exact ⟨ts, by rw [h_text, h_lex]; rfl, h_parses, h_bal, h_tail.head? h_lex⟩

theorem reads_block_iff {text tail : List Char} {ts us : List Token} {f : Filter}
    {pipes : List Token} (h_text : lex (text ++ tail) = (lex tail).map (ts ++ block us ++ ·))
    (h_ts : .pipe ∉ ts) (h_us : Balanced us) (h_tail : Tail tail) :
    Reads (text ++ tail) f pipes ↔
      Parses .or (ts ++ block us) f ∧ lex tail = some pipes ∧ Balanced pipes := by
  constructor
  · rintro ⟨fs, h_lex, h_parses, h_bal, h_head⟩
    rw [h_text] at h_lex
    obtain ⟨vs, h_vs, h_eq⟩ := Option.map_eq_some_iff.1 h_lex
    have h_fs : ts ++ block us = fs := by
      obtain ⟨ws, rfl, rfl⟩ | ⟨ws, h_ws, rfl⟩ := List.append_eq_append_iff.1 h_eq
      · obtain _ | ⟨w, ws⟩ := ws
        · exact (List.append_nil _).symm
        · obtain rfl := h_tail.head? h_vs w rfl
          exact absurd (List.mem_append_right _ List.mem_cons_self) h_parses.pipe_notMem
      · obtain _ | ⟨w, ws⟩ := ws
        · rw [h_ws, List.append_nil]
        · -- The filter would end at a bar inside the parentheses.
          obtain rfl := h_head w rfl
          exact absurd h_parses.balanced (not_balanced_of_block h_us h_ts (by simp) h_ws)
    subst h_fs
    obtain rfl := List.append_cancel_left h_eq
    exact ⟨h_parses, h_vs, h_bal⟩
  · rintro ⟨h_parses, h_lex, h_bal⟩
    exact ⟨ts ++ block us, by rw [h_text, h_lex]; rfl, h_parses, h_bal, h_tail.head? h_lex⟩

theorem reads_guard_iff {cs cs' tail : List Char} {ts us : List Token} {f : Filter}
    {pipes : List Token} (h : lex cs = some ts) (h_cs : '|' ∉ cs) (h' : lex cs' = some us)
    (h_us : Balanced us) (h_tail : Tail tail) :
    Reads ("(".toList ++ cs ++ ") AND (".toList ++ cs' ++ ")".toList ++ tail) f pipes ↔
      Parses .or (block ts ++ guard us) f ∧ lex tail = some pipes ∧ Balanced pipes := by
  have h_assoc : block ts ++ guard us = block ts ++ [.and] ++ block us := List.append_cons _ _ _
  have h_pipe : .pipe ∉ block ts ++ [.and] := by
    simpa [block] using pipe_notMem_of_lexFrom h h_cs
  rw [h_assoc]
  refine reads_block_iff ?_ h_pipe h_us h_tail
  rw [lex_guard h h', h_assoc]

theorem lex_append_tail_ne {text tail : List Char} {ts : List Token}
    (h_text : lex (text ++ tail) = (lex tail).map (ts ++ ·)) (h_ts : ts ≠ [])
    (h_quoted : ∀ s, ts ≠ [.quoted s]) :
    lex (text ++ tail) ≠ some [] ∧ ∀ s, lex (text ++ tail) ≠ some [.quoted s] := by
  refine ⟨fun h => ?_, fun s h => ?_⟩
  all_goals
    rw [h_text] at h
    obtain ⟨us, -, h_us⟩ := Option.map_eq_some_iff.1 h
  · exact h_ts (List.append_eq_nil_iff.1 h_us).1
  · obtain ⟨h_nil, -⟩ | ⟨h_one, -⟩ := List.append_eq_singleton_iff.1 h_us
    · exact h_ts h_nil
    · exact h_quoted s h_one

section Confined

variable {Log : Type} (holds : Option (List Char) → Atom → Log → Prop)

open Classical in
noncomputable def answer {Answer : Type} (post : List Token → List Log → Answer) (f : Filter)
    (pipes : List Token) (db : List Log) : Answer :=
  post pipes (db.filter fun log => f.Selects holds none log)

open Classical in
/-- **A text is confined to a set of logs**, whatever it is read as. -/
def Confined (rule : Log → Prop) (text : List Char) : Prop :=
  ∀ f pipes, Reads text f pipes →
    (∀ log, f.Selects holds none log → rule log) ∧
      ∀ (Answer : Type) (post : List Token → List Log → Answer) (db db' : List Log),
        (db.filter fun log => rule log) = (db'.filter fun log => rule log) →
          answer holds post f pipes db = answer holds post f pipes db'

variable {holds}

theorem confined_of_selects {rule : Log → Prop} {text : List Char}
    (h : ∀ f pipes, Reads text f pipes → ∀ log, f.Selects holds none log → rule log) :
    Confined holds rule text := by
  classical
  intro f pipes h_reads
  have h_rule := h f pipes h_reads
  refine ⟨h_rule, fun Answer post db db' h_db => ?_⟩
  -- The selection is taken from the logs of the set.
  have h_filter (db : List Log) : (db.filter fun log => f.Selects holds none log)
      = (db.filter fun log => rule log).filter fun log => f.Selects holds none log := by
    rw [List.filter_filter]
    refine List.filter_congr fun log _ => ?_
    by_cases h_log : f.Selects holds none log
    · simp [h_log, h_rule log h_log]
    · simp [h_log]
  unfold answer
  rw [h_filter db, h_filter db', h_db]

theorem confined_iff {rule : Log → Prop} {text : List Char} :
    Confined holds rule text ↔
      ∀ f pipes, Reads text f pipes → ∀ log, f.Selects holds none log → rule log :=
  ⟨fun h f pipes h_reads => (h f pipes h_reads).1, confined_of_selects⟩

end Confined

end LogsQL
