import BkLite.Framework.Reading

/-!
# Texts that are meant as a filter

A program that writes a query puts words and quoted texts into it, and means one leaf by each. A
word is a run of `isWordChar`, and a quoted text says what `unquote` takes from the characters
between its quotes. `Exact` relates a text to the filter it is meant as, and to the condition under
which it is read as that filter: the condition is enough, and where the text, with anything behind
it, has the leaves of the filter, the condition holds and what is behind it has the other leaves.
-/

namespace LogsQL

variable {ts : List Token} {f : Filter}

/-! ### Words -/

def isWordChar (c : Char) : Bool :=
  (mark c).isNone && !Py.isSpace c && c ≠ '(' && !isQuote c

theorem next_isWordChar {c : Char} (h : isWordChar c) (w : List Char) :
    next (.plain w) c = ([], .plain (w ++ [c])) := by
  simp only [isWordChar, Bool.and_eq_true, Bool.not_eq_true', decide_eq_true_eq,
    Option.isNone_iff_eq_none] at h
  obtain ⟨⟨⟨h_mark, h_space⟩, h_paren⟩, h_quote⟩ := h
  simp [next, h_mark, h_space, h_paren, h_quote]

theorem lexFrom_word {w cs : List Char} (h : ∀ c ∈ cs, isWordChar c) (rest : List Char) :
    lexFrom (.plain w) (cs ++ rest) = lexFrom (.plain (w ++ cs)) rest := by
  induction cs generalizing w with
  | nil => simp
  | cons c cs ih =>
    obtain ⟨h_c, h_cs⟩ := List.forall_mem_cons.mp h
    rw [List.cons_append, lexFrom_cons, next_isWordChar h_c, ih h_cs]
    simp

def Mode.Word : Mode → Prop
  | .plain w => ∀ c ∈ w, isWordChar c
  | .quote _ _ | .escape _ _ => True

theorem word_of_mem_flush {w u : List Char} (h : ∀ c ∈ w, isWordChar c)
    (h_u : .word u ∈ flush w) : ∀ c ∈ u, isWordChar c := by
  unfold flush keyword at h_u
  split_ifs at h_u <;> simp_all

theorem word_of_mem_next {mode : Mode} (h : mode.Word) {c : Char} {u : List Char}
    (h_u : .word u ∈ (next mode c).1) : ∀ c ∈ u, isWordChar c := by
  cases mode with
  | plain w =>
    rw [next] at h_u
    cases h_mark : mark c with
    | some t =>
      rw [h_mark] at h_u
      obtain h_u | h_u := List.mem_append.mp h_u
      · exact word_of_mem_flush h h_u
      · obtain rfl := List.mem_singleton.mp h_u
        exact absurd h_mark (by unfold mark; split <;> simp)
    | none =>
      rw [h_mark] at h_u
      dsimp only at h_u
      split_ifs at h_u
      · exact word_of_mem_flush h h_u
      · refine word_of_mem_flush h ?_
        unfold opening at h_u
        split at h_u <;> simp_all
      · exact word_of_mem_flush h h_u
      · exact absurd h_u (by simp)
  | quote q s =>
    rw [next] at h_u
    split_ifs at h_u <;> simp at h_u
  | escape q s => exact absurd h_u (by simp [next])

theorem word_next {mode : Mode} (h : mode.Word) (c : Char) : (next mode c).2.Word := by
  cases mode with
  | plain w =>
    by_cases h_c : isWordChar c = true
    · rw [next_isWordChar h_c]
      exact List.forall_mem_append.mpr ⟨h, List.forall_mem_singleton.mpr h_c⟩
    · rw [next]
      cases h_mark : mark c with
      | some t => exact fun _ h => absurd h List.not_mem_nil
      | none =>
        dsimp only
        split_ifs with h_space h_paren h_quote
        · exact fun _ h => absurd h List.not_mem_nil
        · exact fun _ h => absurd h List.not_mem_nil
        · trivial
        · exact absurd (by simp [isWordChar, h_mark, h_space, h_paren, h_quote]) h_c
  | quote q s =>
    rw [next]
    split_ifs
    · trivial
    · exact fun _ h => absurd h List.not_mem_nil
    · trivial
  | escape q s => trivial

theorem isWordChar_of_mem_lexFrom {mode : Mode} (h_mode : mode.Word) {cs u : List Char}
    (h : lexFrom mode cs = some ts) (h_u : .word u ∈ ts) : ∀ c ∈ u, isWordChar c := by
  induction cs generalizing mode ts with
  | nil =>
    cases mode with
    | plain w =>
      obtain rfl := Option.some.inj h
      exact word_of_mem_flush h_mode h_u
    | quote | escape => exact absurd h nofun
  | cons c cs ih =>
    obtain ⟨us, h_us, rfl⟩ := Option.map_eq_some_iff.mp h
    obtain h_u | h_u := List.mem_append.mp h_u
    · exact word_of_mem_next h_mode h_u
    · exact ih (word_next h_mode c) h_us h_u

theorem isWordChar_of_mem_lex {cs u : List Char} (h : lex cs = some ts) (h_u : .word u ∈ ts) :
    ∀ c ∈ u, isWordChar c :=
  have h_mode : (Mode.plain []).Word := nofun
  isWordChar_of_mem_lexFrom h_mode h h_u

/-! ### Quoted texts -/

def unquote (q : Char) : List Char → Option (List Char)
  | [] => some []
  | ['\\'] => none
  | '\\' :: c :: cs => (unquote q cs).map (c :: ·)
  | c :: cs => if c = q then none else (unquote q cs).map (c :: ·)

section Unquote

variable {q c : Char} {cs raw s u : List Char}

theorem quoted_induction {P : List Char → Prop} (h_nil : P []) (h_open : P ['\\'])
    (h_escape : ∀ c cs, P cs → P ('\\' :: c :: cs))
    (h_cons : ∀ c cs, c ≠ '\\' → P cs → P (c :: cs)) (cs : List Char) : P cs := by
  match cs with
  | [] => exact h_nil
  | [c] =>
    by_cases h_c : c = '\\'
    · exact h_c ▸ h_open
    · exact h_cons c [] h_c h_nil
  | c :: d :: cs =>
    by_cases h_c : c = '\\'
    · exact h_c ▸ h_escape d cs (quoted_induction h_nil h_open h_escape h_cons cs)
    · exact h_cons c _ h_c (quoted_induction h_nil h_open h_escape h_cons (d :: cs))
termination_by cs.length

@[simp] theorem unquote_escape (c : Char) (cs : List Char) :
    unquote q ('\\' :: c :: cs) = (unquote q cs).map (c :: ·) := rfl

theorem unquote_cons (h : c ≠ '\\') (cs : List Char) :
    unquote q (c :: cs) = if c = q then none else (unquote q cs).map (c :: ·) := by
  rw [unquote]
  · exact fun h_c _ => h h_c
  · exact fun _ _ h_c _ => h h_c

theorem lexFrom_quote (h : lexFrom (.quote q s) cs = some ts) :
    ∃ raw u rest us, cs = raw ++ q :: rest ∧ unquote q raw = some u ∧ lex rest = some us ∧
      ts = .quoted (s ++ u) :: us := by
  induction cs using quoted_induction generalizing s ts with
  | h_nil | h_open => exact absurd h nofun
  | h_escape c cs ih =>
    have h_cs : lexFrom (.quote q (s ++ [c])) cs = some ts := by
      simpa [lexFrom_cons, next] using h
    obtain ⟨raw, u, rest, us, rfl, h_raw, h_rest, rfl⟩ := ih h_cs
    refine ⟨'\\' :: c :: raw, c :: u, rest, us, rfl, ?_, h_rest, by simp⟩
    rw [unquote_escape, h_raw]
    rfl
  | h_cons c cs h_c ih =>
    by_cases h_q : c = q
    · subst h_q
      rw [lexFrom_cons, next, if_neg h_c, if_pos rfl] at h
      obtain ⟨us, h_us, rfl⟩ := Option.map_eq_some_iff.mp h
      exact ⟨[], [], cs, us, rfl, rfl, h_us, by simp⟩
    · rw [lexFrom_cons, next, if_neg h_c, if_neg h_q] at h
      obtain ⟨vs, h_cs, rfl⟩ := Option.map_eq_some_iff.mp h
      obtain ⟨raw, u, rest, us, rfl, h_raw, h_rest, rfl⟩ := ih h_cs
      refine ⟨c :: raw, c :: u, rest, us, rfl, ?_, h_rest, by simp⟩
      rw [unquote_cons h_c, if_neg h_q, h_raw]
      rfl

theorem lexFrom_quote_of_notMem (h_q : q ∉ cs) (h_escape : '\\' ∉ cs) (h_quote : q ≠ '\\')
    (rest : List Char) :
    lexFrom (.quote q s) (cs ++ q :: rest) = (lex rest).map (.quoted (s ++ cs) :: ·) := by
  induction cs generalizing s with
  | nil =>
    rw [List.nil_append, lexFrom_cons, next, if_neg h_quote, if_pos rfl, List.append_nil]
    rfl
  | cons c cs ih =>
    obtain ⟨h_cq, h_q⟩ := not_or.mp (mt List.mem_cons.mpr h_q)
    obtain ⟨h_c, h_escape⟩ := not_or.mp (mt List.mem_cons.mpr h_escape)
    rw [List.cons_append, lexFrom_cons, next, if_neg (Ne.symm h_c), if_neg (Ne.symm h_cq),
      ih h_q h_escape]
    simp [Function.comp_def]

theorem lex_quoted (h_q : '"' ∉ cs) (h_escape : '\\' ∉ cs) (rest : List Char) :
    lex ('"' :: (cs ++ '"' :: rest)) = (lex rest).map (.quoted cs :: ·) := by
  have h_open : lex ('"' :: (cs ++ '"' :: rest)) =
      (lexFrom (.quote '"' []) (cs ++ '"' :: rest)).map ([] ++ ·) := rfl
  rw [h_open, lexFrom_quote_of_notMem h_q h_escape (by decide), Option.map_map]
  rfl

theorem count_unquote (h : unquote q raw = some u) (h_c : c ≠ '\\') :
    u.count c = raw.count c := by
  induction raw using quoted_induction generalizing u with
  | h_nil =>
    obtain rfl := Option.some.inj h
    rfl
  | h_open => exact absurd h nofun
  | h_escape d raw ih =>
    obtain ⟨u, h_u, rfl⟩ := Option.map_eq_some_iff.mp h
    rw [List.count_cons, List.count_cons_of_ne (Ne.symm h_c), List.count_cons, ih h_u]
  | h_cons d raw h_d ih =>
    rw [unquote_cons h_d] at h
    split_ifs at h
    obtain ⟨u, h_u, rfl⟩ := Option.map_eq_some_iff.mp h
    rw [List.count_cons, List.count_cons, ih h_u]

theorem length_unquote (h : unquote q raw = some u) :
    u.length ≤ raw.length ∧ ('\\' ∈ raw → u.length < raw.length) := by
  induction raw using quoted_induction generalizing u with
  | h_nil =>
    obtain rfl := Option.some.inj h
    exact ⟨le_rfl, nofun⟩
  | h_open => exact absurd h nofun
  | h_escape d raw ih =>
    obtain ⟨u, h_u, rfl⟩ := Option.map_eq_some_iff.mp h
    obtain ⟨h_le, -⟩ := ih h_u
    simp only [List.length_cons]
    exact ⟨by omega, fun _ => by omega⟩
  | h_cons d raw h_d ih =>
    rw [unquote_cons h_d] at h
    split_ifs at h
    obtain ⟨u, h_u, rfl⟩ := Option.map_eq_some_iff.mp h
    obtain ⟨h_le, h_lt⟩ := ih h_u
    simp only [List.length_cons]
    refine ⟨by omega, fun h_mem => ?_⟩
    have h_raw := h_lt (List.mem_of_ne_of_mem (Ne.symm h_d) h_mem)
    omega

theorem unquote_append_quote (h_c : c ≠ '\\') (h_q : q ≠ '\\') (raw cs : List Char) :
    unquote q (raw ++ c :: q :: cs) = none := by
  induction raw using quoted_induction with
  | h_nil =>
    rw [List.nil_append, unquote_cons h_c, unquote_cons h_q, if_pos rfl]
    split_ifs <;> rfl
  | h_open =>
    rw [List.cons_append, List.nil_append, unquote_escape, unquote_cons h_q, if_pos rfl]
    rfl
  | h_escape d raw ih =>
    rw [List.cons_append, List.cons_append, unquote_escape, ih]
    rfl
  | h_cons d raw h_d ih =>
    rw [List.cons_append, unquote_cons h_d, ih]
    split_ifs <;> rfl

end Unquote

/-! ### A quoted text in front -/

section Past

variable {u cs : List Char}

theorem star_notMem_of_leaves_flush {w : List Char} (h : leaves (flush w) = []) : '*' ∉ w := by
  intro h_mem
  have h_lower : '*' ∈ w.map Char.toLower := List.mem_map.mpr ⟨'*', h_mem, rfl⟩
  unfold flush keyword at h
  split_ifs at h with h_nil h_not h_and h_or
  · exact absurd (h_nil ▸ h_mem) List.not_mem_nil
  · rw [h_not] at h_lower
    exact absurd h_lower (by decide)
  · rw [h_and] at h_lower
    exact absurd h_lower (by decide)
  · rw [h_or] at h_lower
    exact absurd h_lower (by decide)
  · simp [leaves, Token.isLeaf] at h

theorem leaves_flush_of_opening {w : List Char} (h : leaves (opening w) = []) :
    leaves (flush w) = [] := by
  unfold opening at h
  split at h
  · simp [leaves, Token.isLeaf] at h
  · rw [leaves_append] at h
    exact (List.append_eq_nil_iff.mp h).1

theorem leaves_of_append_quoted {vs us L : List Token} (h : leaves (vs ++ us) = .quoted u :: L)
    (h_vs : ∀ s, .quoted s ∉ vs) : leaves vs = [] ∧ leaves us = .quoted u :: L := by
  rw [leaves_append] at h
  match h_leaves : leaves vs with
  | [] => exact ⟨rfl, by rwa [h_leaves, List.nil_append] at h⟩
  | t :: _ =>
    rw [h_leaves] at h
    obtain ⟨rfl, -⟩ := List.cons.inj h
    have h_mem : .quoted u ∈ leaves vs := h_leaves ▸ List.mem_cons_self
    exact absurd (List.mem_filter.mp h_mem).1 (h_vs u)

theorem quoted_notMem_flush (w s : List Char) : .quoted s ∉ flush w := by
  unfold flush keyword
  split_ifs <;> simp

theorem lexFrom_quoted_leaf {w : List Char} {L : List Token}
    (h : lexFrom (.plain w) cs = some ts) (h_leaves : leaves ts = .quoted u :: L) :
    '*' ∉ w ∧ ∃ before q raw rest us, cs = before ++ q :: (raw ++ q :: rest) ∧ isQuote q = true ∧
      (∀ c ∈ before, isQuote c = false ∧ c ≠ '*' ∧ c ≠ ':') ∧ unquote q raw = some u ∧
      lex rest = some us ∧ leaves us = L := by
  induction cs generalizing w ts with
  | nil =>
    obtain rfl := Option.some.inj h
    have h_mem : .quoted u ∈ leaves (flush w) := h_leaves ▸ List.mem_cons_self
    exact absurd (List.mem_filter.mp h_mem).1 (quoted_notMem_flush w u)
  | cons c cs ih =>
    rw [lexFrom_cons] at h
    obtain ⟨us, h_us, rfl⟩ := Option.map_eq_some_iff.mp h
    -- a character that is no quote is one more in front of the quoted text
    have h_go {vs : List Token} {w' : List Char} (h_next : next (.plain w) c = (vs, .plain w'))
        (h_vs : ∀ s, .quoted s ∉ vs) (h_c : isQuote c = false)
        (h_w : leaves vs = [] → '*' ∉ w' → '*' ∉ w ∧ c ≠ '*' ∧ c ≠ ':') :
        '*' ∉ w ∧ ∃ before q raw rest us, c :: cs = before ++ q :: (raw ++ q :: rest) ∧
          isQuote q = true ∧ (∀ c ∈ before, isQuote c = false ∧ c ≠ '*' ∧ c ≠ ':') ∧
          unquote q raw = some u ∧ lex rest = some us ∧ leaves us = L := by
      rw [h_next] at h_us h_leaves
      obtain ⟨h_nil, h_rest⟩ := leaves_of_append_quoted h_leaves h_vs
      obtain ⟨h_star, before, q, raw, rest, us', rfl, h_q, h_before, h_unquote⟩ := ih h_us h_rest
      refine ⟨(h_w h_nil h_star).1, c :: before, q, raw, rest, us', rfl, h_q, ?_, h_unquote⟩
      exact List.forall_mem_cons.mpr ⟨⟨h_c, (h_w h_nil h_star).2⟩, h_before⟩
    have h_flush : ∀ s, .quoted s ∉ flush w := quoted_notMem_flush w
    by_cases h_word : isWordChar c = true
    · refine h_go (next_isWordChar h_word w) (fun _ => List.not_mem_nil) ?_ fun _ h_star => ?_
      · simp only [isWordChar, Bool.and_eq_true, Bool.not_eq_true'] at h_word
        exact h_word.2
      · obtain ⟨h_w, h_c⟩ := not_or.mp (mt List.mem_append.mpr h_star)
        refine ⟨h_w, fun h_eq => h_c (List.mem_singleton.mpr h_eq.symm), ?_⟩
        rintro rfl
        exact absurd h_word (by decide)
    cases h_mark : mark c with
    | some t =>
      have h_next : next (.plain w) c = (flush w ++ [t], .plain []) := by rw [next, h_mark]
      have h_t : isQuote c = false ∧ c ≠ '*' ∧ ∀ s, t ≠ .quoted s := by
        unfold mark at h_mark
        split at h_mark
        all_goals
          cases h_mark
          try exact ⟨by decide, by decide, fun _ h => by cases h⟩
      refine h_go h_next (fun s h_s => ?_) h_t.1 fun h_nil _ => ?_
      · obtain h_s | h_s := List.mem_append.mp h_s
        · exact h_flush s h_s
        · exact h_t.2.2 s (List.mem_singleton.mp h_s).symm
      · rw [leaves_append] at h_nil
        obtain ⟨h_w, h_own⟩ := List.append_eq_nil_iff.mp h_nil
        refine ⟨star_notMem_of_leaves_flush h_w, h_t.2.1, ?_⟩
        rintro rfl
        obtain rfl : Token.colon = t := Option.some.inj h_mark
        exact absurd h_own (by simp [leaves, Token.isLeaf])
    | none =>
      by_cases h_space : Py.isSpace c = true
      · have h_next : next (.plain w) c = (flush w, .plain []) := by simp [next, h_mark, h_space]
        refine h_go h_next h_flush ?_ fun h_nil _ => ?_
        · by_contra h_quote
          have h_no := isSpace_of_isQuote (Bool.not_eq_false _ ▸ h_quote)
          cases h_no.symm.trans h_space
        · refine ⟨star_notMem_of_leaves_flush h_nil, ?_, ?_⟩ <;>
            (rintro rfl; exact absurd h_space (by decide))
      · by_cases h_paren : c = '('
        · subst h_paren
          have h_next : next (.plain w) '(' = (opening w, .plain []) := rfl
          refine h_go h_next (fun s h_s => ?_) (by decide) fun h_nil _ =>
            ⟨star_notMem_of_leaves_flush (leaves_flush_of_opening h_nil), by decide, by decide⟩
          unfold opening at h_s
          split at h_s
          · simp at h_s
          · obtain h_s | h_s := List.mem_append.mp h_s
            · exact h_flush s h_s
            · simp at h_s
        · by_cases h_quote : isQuote c = true
          · have h_next : next (.plain w) c = (flush w, .quote c []) := by
              simp [next, h_mark, h_space, h_paren, h_quote]
            rw [h_next] at h_us h_leaves
            obtain ⟨h_nil, h_rest⟩ := leaves_of_append_quoted h_leaves h_flush
            obtain ⟨raw, u', rest, us', rfl, h_raw, h_lex, rfl⟩ := lexFrom_quote h_us
            rw [leaves_cons_leaf rfl] at h_rest
            obtain ⟨h_u, rfl⟩ := List.cons.inj h_rest
            obtain rfl : u' = u := Token.quoted.inj h_u
            exact ⟨star_notMem_of_leaves_flush h_nil, [], c, raw, rest, us', rfl, h_quote,
              fun _ h => absurd h List.not_mem_nil, h_raw, h_lex, rfl⟩
          · exact absurd (by simp [isWordChar, h_mark, h_space, h_paren, h_quote]) h_word

/-- **A text that is no word.** A quoted text that begins in it runs past its end, over a colon. -/
theorem quoted_past {text past : List Char} {L : List Token}
    (h : lex (text ++ ':' :: past) = some ts) (h_leaves : leaves ts = .quoted text :: L) :
    ∃ q skipped rest us, ':' :: past = skipped ++ q :: rest ∧ isQuote q = true ∧ q ∈ skipped ∧
      (∀ c ∈ skipped, isQuote c = true → c = q) ∧ '*' ∉ skipped ∧
      (∀ as c bs, skipped = as ++ c :: q :: bs → c = '\\') ∧ lex rest = some us ∧
      leaves us = L := by
  obtain ⟨-, before, q, raw, rest, us, h_eq, h_q, h_before, h_raw, h_us, h_L⟩ :=
    lexFrom_quoted_leaf h h_leaves
  have h_escape : q ≠ '\\' := by
    rintro rfl
    exact absurd h_q (by decide)
  -- the quote opens in the text and closes behind it
  have h_colon : ':' ≠ q := by
    rintro rfl
    exact absurd h_q (by decide)
  obtain ⟨tail, rfl⟩ : ∃ tail, text = before ++ q :: tail := by
    obtain ⟨as, rfl, h_as⟩ | ⟨bs, rfl, h_bs⟩ := List.append_eq_append_iff.mp h_eq
    · obtain _ | ⟨a, as⟩ := as
      · exact absurd (List.cons.inj h_as).1 h_colon
      · obtain ⟨rfl, -⟩ := List.cons.inj h_as
        exact absurd rfl (h_before ':' (List.mem_append_right _ List.mem_cons_self)).2.2
    · obtain _ | ⟨b, bs⟩ := bs
      · exact absurd (List.cons.inj h_bs).1.symm h_colon
      · obtain ⟨rfl, -⟩ := List.cons.inj h_bs
        exact ⟨bs, rfl⟩
  obtain ⟨skipped, rfl, h_past⟩ : ∃ skipped, raw = tail ++ skipped ∧
      ':' :: past = skipped ++ q :: rest := by
    rw [List.append_assoc] at h_eq
    obtain ⟨-, h_tail⟩ := List.cons.inj (List.append_cancel_left h_eq)
    obtain ⟨as, rfl, h_as⟩ | ⟨bs, rfl, h_bs⟩ := List.append_eq_append_iff.mp h_tail
    · exact ⟨as, rfl, h_as⟩
    · have h_le := (length_unquote h_raw).1
      simp only [List.length_append, List.length_cons] at h_le
      omega
  have h_count (c : Char) (h_c : c ≠ '\\') : skipped.count c = (before ++ [q]).count c := by
    have h_own := count_unquote h_raw h_c
    simp only [List.count_append, List.count_cons, List.count_nil] at h_own ⊢
    omega
  refine ⟨q, skipped, rest, us, h_past, h_q, ?_, ?_, ?_, ?_, h_us, h_L⟩
  · rw [← List.count_pos_iff, h_count q h_escape]
    simp
  · intro c h_c h_quote
    have h_c_escape : c ≠ '\\' := by
      rintro rfl
      exact absurd h_quote (by decide)
    rw [← List.count_pos_iff, h_count c h_c_escape, List.count_pos_iff] at h_c
    obtain h_c | h_c := List.mem_append.mp h_c
    · exact absurd h_quote (by simp [(h_before c h_c).1])
    · exact List.mem_singleton.mp h_c
  · intro h_star
    rw [← List.count_pos_iff, h_count '*' (by decide), List.count_pos_iff] at h_star
    obtain h_c | h_c := List.mem_append.mp h_star
    · exact absurd rfl (h_before '*' h_c).2.1
    · exact absurd (List.mem_singleton.mp h_c ▸ h_q) (by decide)
  · rintro as c bs rfl
    by_contra h_c
    rw [← List.append_assoc, unquote_append_quote h_c h_escape] at h_raw
    cases h_raw

variable {front skipped past rest : List Char} {c q : Char}

theorem not_over_quote (h : front ++ c :: '"' :: past = skipped ++ q :: rest)
    (h_front : (front ++ [c]).all (!isQuote ·) = true) (h_c : c ≠ '\\') (h_q : isQuote q = true)
    (h_mem : q ∈ skipped) (h_only : ∀ c ∈ skipped, isQuote c = true → c = q)
    (h_escape : ∀ as c bs, skipped = as ++ c :: q :: bs → c = '\\') : False := by
  rw [List.append_cons] at h
  replace h_front := List.all_eq_true.mp h_front
  obtain ⟨as, rfl, h_as⟩ | ⟨bs, h_bs, -⟩ := List.append_eq_append_iff.mp h
  · obtain _ | ⟨a, as⟩ := as
    · rw [List.append_nil] at h_mem
      exact absurd h_q (by simpa using h_front q h_mem)
    · obtain ⟨rfl, -⟩ := List.cons.inj h_as
      obtain rfl : '"' = q := h_only '"' (List.mem_append_right _ List.mem_cons_self) rfl
      exact h_c (h_escape front c as (by simp))
  · have h_own : q ∈ front ++ [c] := h_bs ▸ List.mem_append_left bs h_mem
    exact absurd h_q (by simpa using h_front q h_own)

theorem mem_front_of_star (h : front ++ '*' :: past = skipped ++ q :: rest)
    (h_q : isQuote q = true) (h_star : '*' ∉ skipped) : q ∈ front := by
  have h_ne : '*' ≠ q := by
    rintro rfl
    exact absurd h_q (by decide)
  obtain ⟨as, rfl, h_as⟩ | ⟨bs, rfl, h_bs⟩ := List.append_eq_append_iff.mp h
  · obtain _ | ⟨a, as⟩ := as
    · exact absurd (List.cons.inj h_as).1 h_ne
    · obtain ⟨rfl, -⟩ := List.cons.inj h_as
      exact absurd (List.mem_append_right _ List.mem_cons_self) h_star
  · obtain _ | ⟨b, bs⟩ := bs
    · exact absurd (List.cons.inj h_bs).1.symm h_ne
    · obtain ⟨rfl, -⟩ := List.cons.inj h_bs
      exact List.mem_append_right _ List.mem_cons_self

end Past

/-! ### Exact texts -/

def Separated (rest : List Char) : Prop :=
  ∀ c ∈ rest.head?, ∃ us, separator c = some us

theorem separated_nil : Separated [] := nofun

theorem separated_cons {c : Char} {us : List Token} (h : separator c = some us) (cs : List Char) :
    Separated (c :: cs) := by
  rintro _ ⟨⟩
  exact ⟨us, h⟩

theorem lexFrom_append_separated {mode : Mode} {cs rest : List Char}
    (h : lexFrom mode cs = some ts) (h_rest : Separated rest) :
    lexFrom mode (cs ++ rest) = (lex rest).map (ts ++ ·) := by
  cases rest with
  | nil =>
    rw [List.append_nil, h]
    simp [lex, lexFrom, Mode.last, flush]
  | cons c rest =>
    obtain ⟨us, h_c⟩ := h_rest c rfl
    have h_lex : lex (c :: rest) = (lex rest).map (us ++ ·) := by
      rw [lex, lexFrom_cons, next_separator [] h_c]
      rfl
    calc lexFrom mode (cs ++ c :: rest)
      _ = (lex rest).map (ts ++ us ++ ·) := lexFrom_append h h_c rest
      _ = ((lex rest).map (us ++ ·)).map (ts ++ ·) := by
        rw [Option.map_map]
        congr 1
        funext vs
        simp
      _ = (lex (c :: rest)).map (ts ++ ·) := by rw [h_lex]

theorem lex_word_append {w rest : List Char} (h : ∀ c ∈ w, isWordChar c) (h_rest : Separated rest) :
    lex (w ++ rest) = (lex rest).map (flush w ++ ·) := by
  have h_last : lexFrom (.plain w) [] = some (flush w) := rfl
  have h_end := lexFrom_append_separated h_last h_rest
  rw [List.nil_append] at h_end
  rw [lex, lexFrom_word h, List.nil_append, h_end]

theorem leaves_flush {w : List Char} (h : leaves (flush w) ≠ []) : flush w = [.word w] := by
  unfold flush keyword at h ⊢
  split_ifs at h ⊢
  all_goals first | rfl | exact absurd rfl h

theorem flush_of_star {w : List Char} (h : '*' ∈ w) : flush w = [.word w] :=
  leaves_flush fun h_nil => star_notMem_of_leaves_flush h_nil h

/-- **A word.** Where a text with a star has itself for its first leaf, it is a word. -/
theorem word_exact {w rest : List Char} {L : List Token} (h_star : '*' ∈ w)
    (h_rest : Separated rest) (h : lex (w ++ rest) = some ts)
    (h_leaves : leaves ts = .word w :: L) :
    (∀ c ∈ w, isWordChar c) ∧ ∃ us, lex rest = some us ∧ leaves us = L := by
  have h_mem : .word w ∈ ts := (List.mem_filter.mp (h_leaves ▸ List.mem_cons_self :
    .word w ∈ leaves ts)).1
  have h_word := isWordChar_of_mem_lex h h_mem
  rw [lex_word_append h_word h_rest, flush_of_star h_star] at h
  obtain ⟨us, h_us, rfl⟩ := Option.map_eq_some_iff.mp h
  refine ⟨h_word, us, h_us, ?_⟩
  exact (List.cons.inj ((leaves_cons_leaf rfl us).symm.trans h_leaves)).2

theorem notMem_of_unquote {q : Char} {cs u : List Char} (h : unquote q cs = some u)
    (h_escape : '\\' ∉ cs) : q ∉ cs := by
  induction cs generalizing u with
  | nil => exact List.not_mem_nil
  | cons c cs ih =>
    obtain ⟨h_c, h_cs⟩ := not_or.mp (mt List.mem_cons.mpr h_escape)
    rw [unquote_cons (Ne.symm h_c)] at h
    split_ifs at h with h_q
    obtain ⟨u, h_u, -⟩ := Option.map_eq_some_iff.mp h
    exact List.not_mem_cons_of_ne_of_not_mem (Ne.symm h_q) (ih h_u h_cs)

/-- **A quoted text.** Where a text between quotes has itself for its first leaf, nothing in it had
to be escaped. -/
theorem quoted_exact {cs rest : List Char} {L : List Token}
    (h : lex ('"' :: (cs ++ '"' :: rest)) = some ts) (h_leaves : leaves ts = .quoted cs :: L) :
    ('"' ∉ cs ∧ '\\' ∉ cs) ∧ ∃ us, lex rest = some us ∧ leaves us = L := by
  obtain ⟨vs, h_vs, rfl⟩ := Option.map_eq_some_iff.mp h
  obtain ⟨raw, u, rest', us, h_eq, h_raw, h_us, rfl⟩ := lexFrom_quote h_vs
  obtain ⟨h_u, h_L⟩ := List.cons.inj h_leaves
  obtain rfl : u = cs := Token.quoted.inj h_u
  -- the quote that closes is the one behind the text
  obtain rfl : raw = u := by
    obtain ⟨as, rfl, h_as⟩ | ⟨bs, rfl, -⟩ := List.append_eq_append_iff.mp h_eq
    · obtain _ | ⟨a, as⟩ := as
      · exact List.append_nil u
      · obtain ⟨rfl, -⟩ := List.cons.inj h_as
        have h_count := count_unquote h_raw (show '"' ≠ '\\' by decide)
        rw [List.count_append, List.count_cons_self] at h_count
        omega
    · have h_le := (length_unquote h_raw).1
      rw [List.length_append] at h_le
      rw [List.length_eq_zero_iff.mp (show bs.length = 0 by omega), List.append_nil]
  obtain rfl : rest = rest' := (List.cons.inj (List.append_cancel_left h_eq)).2
  have h_escape : '\\' ∉ raw := fun h_mem => absurd ((length_unquote h_raw).2 h_mem) (by omega)
  exact ⟨⟨notMem_of_unquote h_raw h_escape, h_escape⟩, us, h_us, h_L⟩

/-- **A name.** Where a text in front of a colon is the name of the first leaf, it is a word, unless
a quoted text runs past it. -/
theorem name_exact {name past : List Char} {t : Token} {L : List Token} (h_t : t.name? = some name)
    (h : lex (name ++ ':' :: past) = some ts) (h_leaves : leaves ts = t :: L)
    (h_past : t ≠ .quoted name) :
    (∀ c ∈ name, isWordChar c) ∧ flush name = [.word name] ∧
      ∃ us, lex past = some us ∧ .colon :: leaves us = L := by
  obtain rfl : t = .word name := by
    cases t
    case word w => exact congrArg Token.word (Option.some.inj h_t)
    case quoted s => exact absurd (congrArg Token.quoted (Option.some.inj h_t)) h_past
    all_goals exact absurd h_t (by simp [Token.name?])
  have h_mem : .word name ∈ ts :=
    (List.mem_filter.mp (h_leaves ▸ List.mem_cons_self : .word name ∈ leaves ts)).1
  have h_word := isWordChar_of_mem_lex h h_mem
  have h_colon : separator ':' = some [.colon] := rfl
  rw [lex_word_append h_word (separated_cons h_colon past)] at h
  obtain ⟨vs, h_vs, rfl⟩ := Option.map_eq_some_iff.mp h
  obtain ⟨us, h_us, rfl⟩ : ∃ us, lex past = some us ∧ .colon :: us = vs :=
    Option.map_eq_some_iff.mp h_vs
  rw [leaves_append, leaves_cons_leaf rfl] at h_leaves
  have h_flush : flush name = [.word name] := by
    refine leaves_flush fun h_nil => ?_
    rw [h_nil] at h_leaves
    cases (List.cons.inj h_leaves).1
  refine ⟨h_word, h_flush, us, h_us, ?_⟩
  rw [h_flush] at h_leaves
  exact (List.cons.inj h_leaves).2

/-- The text is read as the filter exactly under the condition, whatever separated text is behind
it. -/
structure Exact (text : List Char) (f : Filter) (plain : Prop) : Prop where
  read : plain → ∃ ts, lex text = some ts ∧ Parses .unary ts f
  peel : ∀ {rest ts A L}, Separated rest → lex (text ++ rest) = some ts → leaves ts = A ++ L →
    List.Forall₂ (fun P t => P t) f.leaves A → plain ∧ ∃ us, lex rest = some us ∧ leaves us = L

theorem Exact.parses_iff {text : List Char} {plain : Prop} (h : Exact text f plain) :
    (∃ ts, lex text = some ts ∧ Parses .or ts f) ↔ plain := by
  constructor
  · rintro ⟨ts, h_lex, h_f⟩
    have h_text : lex (text ++ []) = some ts := by rwa [List.append_nil]
    have h_leaves : leaves ts = leaves ts ++ [] := (List.append_nil _).symm
    exact (h.peel separated_nil h_text h_leaves h_f.leaves).1
  · intro h_plain
    obtain ⟨ts, h_lex, h_f⟩ := h.read h_plain
    exact ⟨ts, h_lex, .ofAnd (.ofUnary h_f)⟩

theorem Exact.not {text : List Char} {plain : Prop} (h : Exact text f plain) :
    Exact ('!' :: text) (.not f) plain := by
  have h_lex (cs : List Char) : lex ('!' :: cs) = (lex cs).map (.not :: ·) := rfl
  constructor
  · intro h_plain
    obtain ⟨ts, h_text, h_f⟩ := h.read h_plain
    exact ⟨.not :: ts, by rw [h_lex, h_text]; rfl, .not h_f⟩
  · intro rest ts A L h_rest h_text h_leaves h_A
    rw [List.cons_append, h_lex] at h_text
    obtain ⟨us, h_us, rfl⟩ := Option.map_eq_some_iff.mp h_text
    exact h.peel h_rest h_us h_leaves h_A

end LogsQL
