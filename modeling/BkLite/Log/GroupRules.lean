import BkLite.Framework.Literals
import BkLite.Log.LogGroups

/-!
# What the rules of log groups say

A condition of a rule means one filter: a field, and in it a quoted text, a word with a star at one
end, or a regular expression for a literal text (`Meaning.filter`); a rule means its conditions with
`AND` or `OR` between them. `json_to_logsql_expression` (`utils/log_group.py`) writes them with the
values as they are, or behind backslashes that the quotes take off again. `exact_rule` says for
which rules the text is read as the rule means it: those of which every condition is plain.
-/

namespace LogGroups

open LogsQL

/-! ### What a rule means -/

inductive Test
  | equals
  | contains
  | startswith
  | endswith
deriving DecidableEq, Repr

/-- A condition: its field, its operator with the negation told apart, and its value. -/
structure Meaning where
  field : Text
  negated : Bool
  test : Test
  value : Text
deriving DecidableEq, Repr

def testOf (op : Text) : Option (Bool × Test) :=
  if op = "==".toList then some (false, .equals)
  else if op = "!=".toList then some (true, .equals)
  else if op = "contains".toList then some (false, .contains)
  else if op = "!contains".toList then some (true, .contains)
  else if op = "startswith".toList then some (false, .startswith)
  else if op = "endswith".toList then some (false, .endswith)
  else none

def Condition.meaning (rule : Condition) : Option Meaning :=
  match rule.field, rule.op, rule.value with
  | some field, some op, some value =>
    (testOf op).map fun (negated, test) => ⟨field, negated, test, value⟩
  | _, _, _ => none

/-- The literal of a condition, as a regular expression for `contains`. -/
def Test.pattern : Test → Text → Text
  | .equals, value => value
  | .contains, value => ".*".toList ++ escapeRegexValue value ++ ".*".toList
  | .startswith, value => value ++ "*".toList
  | .endswith, value => "*".toList ++ value

def Test.literal (test : Test) (value : Text) : Text :=
  match test with
  | .equals => "\"".toList ++ test.pattern value ++ "\"".toList
  | .contains => "re(\"".toList ++ test.pattern value ++ "\")".toList
  | .startswith | .endswith => test.pattern value

def Test.atom (test : Test) (value : Text) : Atom :=
  match test with
  | .equals => .quoted (test.pattern value)
  | .contains => .call "re".toList [.quoted (test.pattern value)]
  | .startswith | .endswith => .word (test.pattern value)

def Meaning.expression (m : Meaning) : Text :=
  (if m.negated then "!".toList else []) ++ m.field ++ ":".toList ++ m.test.literal m.value

def Meaning.filter (m : Meaning) : Filter :=
  let filter := .field m.field (.atom (m.test.atom m.value))
  if m.negated then .not filter else filter

structure RuleMeaning where
  all : Bool
  first : Meaning
  others : List Meaning
deriving DecidableEq, Repr

def ruleMeaning (mode : Text) (conditions : List Condition) : Option RuleMeaning :=
  match conditions.mapM Condition.meaning with
  | some (first :: others) => some ⟨mode = "AND".toList, first, others⟩
  | _ => none

def Rule.meaning : Rule → Option RuleMeaning
  | .dict .missing .missing => ruleMeaning "AND".toList []
  | .dict .missing (.value conditions) => ruleMeaning "AND".toList conditions
  | .dict (.value mode) .missing => ruleMeaning (mode.map Char.toUpper) []
  | .dict (.value mode) (.value conditions) => ruleMeaning (mode.map Char.toUpper) conditions
  | _ => none

/-- Filters with `AND` or `OR` between them. -/
def joinFilters (all : Bool) : Filter → List Filter → Filter
  | f, [] => f
  | f, g :: fs => if all then .and f (joinFilters all g fs) else .or f (joinFilters all g fs)

def connector (all : Bool) : Text := if all then " AND ".toList else " OR ".toList

/-- Texts with `AND` or `OR` between them, in parentheses if there is more than one. -/
def joinExpressions (all : Bool) : List Text → Text
  | [expression] => expression
  | expressions => "(".toList ++ join (connector all) expressions ++ ")".toList

def RuleMeaning.filter (r : RuleMeaning) : Filter :=
  joinFilters r.all r.first.filter (r.others.map Meaning.filter)

def RuleMeaning.expression (r : RuleMeaning) : Text :=
  joinExpressions r.all ((r.first :: r.others).map Meaning.expression)

def meanings (groups : List LogGroup) : List RuleMeaning :=
  groups.filterMap fun group => group.rule.meaning

/-! ### What is written for it -/

theorem opMap_eq (op field value : Text) :
    (opMap op).map (fun exprFunc => exprFunc field value)
      = (testOf op).map fun (negated, test) =>
          Meaning.expression ⟨field, negated, test, value⟩ := by
  unfold opMap testOf
  split_ifs <;> simp [Meaning.expression, Test.literal, Test.pattern]

theorem conditionExpression_eq_ok_iff {rule : Condition} {expression : Text} :
    conditionExpression rule = .ok expression ↔
      ∃ m, rule.meaning = some m ∧ m.expression = expression := by
  rw [← Option.map_eq_some_iff]
  obtain ⟨_ | field, _ | op, _ | value⟩ := rule
  case some.some.some =>
    have h_op := opMap_eq op field value
    have h_meaning : (Condition.meaning ⟨some field, some op, some value⟩).map Meaning.expression
        = (opMap op).map fun exprFunc => exprFunc field value := by
      rw [h_op, Condition.meaning, Option.map_map]
      rfl
    rw [h_meaning]
    dsimp only [conditionExpression, Option.elim, bind, Except.bind]
    cases opMap op with
    | none => exact ⟨by rintro ⟨⟩, by rintro ⟨⟩⟩
    | some exprFunc => simp
  all_goals exact ⟨by rintro ⟨⟩, by rintro ⟨⟩⟩

theorem conditionExpressions_eq_ok_iff {rules : List Condition} {expressions : List Text} :
    rules.mapM conditionExpression = .ok expressions ↔
      ∃ ms, rules.mapM Condition.meaning = some ms ∧ ms.map Meaning.expression = expressions := by
  induction rules generalizing expressions with
  | nil => simp [pure, Except.pure, eq_comm]
  | cons rule rules ih =>
    rw [List.mapM_cons, List.mapM_cons]
    constructor
    · intro h
      obtain ⟨expression, h_rule, h⟩ := Py.bind_eq_ok.mp h
      obtain ⟨rest, h_rules, h⟩ := Py.bind_eq_ok.mp h
      cases h
      obtain ⟨m, h_m, rfl⟩ := conditionExpression_eq_ok_iff.mp h_rule
      obtain ⟨ms, h_ms, rfl⟩ := ih.mp h_rules
      exact ⟨m :: ms, by simp [h_m, h_ms], rfl⟩
    · rintro ⟨ms, h_ms, rfl⟩
      obtain ⟨m, h_m, h_ms⟩ := Option.bind_eq_some_iff.mp h_ms
      obtain ⟨ms, h_rest, h_ms⟩ := Option.bind_eq_some_iff.mp h_ms
      obtain rfl := Option.some.inj h_ms
      have h_first := conditionExpression_eq_ok_iff.mpr ⟨m, h_m, rfl⟩
      exact Py.bind_eq_ok.mpr ⟨_, h_first, Py.bind_eq_ok.mpr ⟨_, ih.mpr ⟨ms, h_rest, rfl⟩, rfl⟩⟩

def ruleExpression (mode : Text) (conditions : List Condition) : Except Py.PyError Text := do
  let expressions ← conditions.mapM conditionExpression
  match expressions with
  | [] => .ok []
  | [expression] => .ok expression
  | expressions =>
    .ok ("(".toList ++ join (if mode = "AND".toList then " AND ".toList else " OR ".toList)
      expressions ++ ")".toList)

/-- `expression` is how a rule with this meaning is written. -/
def Written (meaning : Option RuleMeaning) (expression : Except Py.PyError Text) : Prop :=
  match meaning with
  | some r => expression = .ok r.expression
  | none => expression = .ok [] ∨ ∃ e, expression = .error e

theorem written_ruleExpression (mode : Text) (conditions : List Condition) :
    Written (ruleMeaning mode conditions) (ruleExpression mode conditions) := by
  unfold ruleMeaning ruleExpression
  cases h_ms : conditions.mapM Condition.meaning with
  | none =>
    right
    cases h : conditions.mapM conditionExpression with
    | error e => exact ⟨e, rfl⟩
    | ok expressions =>
      obtain ⟨ms, h_some, -⟩ := conditionExpressions_eq_ok_iff.mp h
      rw [h_ms] at h_some
      cases h_some
  | some ms =>
    rw [conditionExpressions_eq_ok_iff.mpr ⟨ms, h_ms, rfl⟩]
    match ms with
    | [] => exact .inl rfl
    | [m] => exact rfl
    | m :: m' :: ms =>
      show Except.ok _ = Except.ok _
      simp [RuleMeaning.expression, joinExpressions, connector]

theorem written_jsonToLogsqlExpression (rule : Rule) :
    Written rule.meaning (jsonToLogsqlExpression rule) := by
  match rule with
  | .falsy => exact .inl rfl
  | .notDict => exact .inr ⟨_, rfl⟩
  | .dict .unusable _ => exact .inr ⟨_, rfl⟩
  | .dict .missing .unusable => exact .inr ⟨_, rfl⟩
  | .dict (.value _) .unusable => exact .inr ⟨_, rfl⟩
  | .dict .missing .missing => exact written_ruleExpression "AND".toList []
  | .dict .missing (.value conditions) => exact written_ruleExpression "AND".toList conditions
  | .dict (.value mode) .missing => exact written_ruleExpression (mode.map Char.toUpper) []
  | .dict (.value mode) (.value conditions) =>
    exact written_ruleExpression (mode.map Char.toUpper) conditions

/-! ### A condition is exact -/

/-- **When a value is read as it is meant.** Nothing in it has to be escaped. -/
def Test.Plain : Test → Text → Prop
  | .equals, value => '"' ∉ value ∧ '\\' ∉ value
  | .contains, value => '"' ∉ value ∧ ∀ c ∈ "\\.^$*+?\x7b\x7d[]|()".toList, c ∉ value
  | .startswith, value | .endswith, value => ∀ c ∈ value, isWordChar c

/-- **When a condition is read as it is meant.** The field is a word that is no connective. -/
def Meaning.Plain (m : Meaning) : Prop :=
  (∀ c ∈ m.field, isWordChar c) ∧ flush m.field = [.word m.field] ∧ m.test.Plain m.value

instance (test : Test) (value : Text) : Decidable (test.Plain value) :=
  match test with
  | .equals => inferInstanceAs (Decidable ('"' ∉ value ∧ '\\' ∉ value))
  | .contains =>
    have := List.decidableBAll (· ∉ value) "\\.^$*+?\x7b\x7d[]|()".toList
    inferInstanceAs (Decidable ('"' ∉ value ∧ _))
  | .startswith | .endswith => List.decidableBAll (isWordChar · = true) value

instance (m : Meaning) : Decidable m.Plain :=
  have := List.decidableBAll (isWordChar · = true) m.field
  inferInstanceAs (Decidable (_ ∧ flush m.field = [.word m.field] ∧ m.test.Plain m.value))

theorem mem_escape_iff {c char : Char} {value : Text} :
    c ∈ (value.flatMap fun d => if d = char then ['\\', d] else [d]) ↔
      c ∈ value ∨ c = '\\' ∧ char ∈ value := by
  simp only [List.mem_flatMap]
  constructor
  · rintro ⟨d, h_d, h_c⟩
    split_ifs at h_c with h_char
    · obtain rfl | h_c := List.mem_cons.mp h_c
      · exact .inr ⟨rfl, h_char ▸ h_d⟩
      · exact .inl (List.mem_singleton.mp h_c ▸ h_d)
    · exact .inl (List.mem_singleton.mp h_c ▸ h_d)
  · rintro (h_c | ⟨rfl, h_char⟩)
    · refine ⟨c, h_c, ?_⟩
      split_ifs <;> simp
    · exact ⟨char, h_char, by simp⟩

theorem mem_escapeChars_iff {c : Char} {chars value : Text} :
    c ∈ chars.foldl (fun escaped char => escaped.flatMap fun d =>
        if d = char then ['\\', d] else [d]) value ↔
      c ∈ value ∨ c = '\\' ∧ ∃ char ∈ chars, char ∈ value := by
  induction chars generalizing value with
  | nil => simp
  | cons char chars ih =>
    rw [List.foldl_cons, ih, List.exists_mem_cons_iff]
    simp only [mem_escape_iff]
    constructor
    · rintro ((h_c | ⟨rfl, h_char⟩) | ⟨rfl, char', h_char', h_value | ⟨rfl, h_char⟩⟩)
      · exact .inl h_c
      · exact .inr ⟨rfl, .inl h_char⟩
      · exact .inr ⟨rfl, .inr ⟨char', h_char', h_value⟩⟩
      · exact .inr ⟨rfl, .inl h_char⟩
    · rintro (h_c | ⟨rfl, h_char | ⟨char', h_char', h_value⟩⟩)
      · exact .inl (.inl h_c)
      · exact .inl (.inr ⟨rfl, h_char⟩)
      · exact .inr ⟨rfl, char', h_char', .inl h_value⟩

theorem pattern_contains_iff (value : Text) :
    ('"' ∉ Test.pattern .contains value ∧ '\\' ∉ Test.pattern .contains value) ↔
      Test.Plain .contains value := by
  have h_mem (c : Char) (h_c : c ∉ ".*".toList) :
      c ∈ Test.pattern .contains value ↔ c ∈ escapeRegexValue value := by
    simp only [Test.pattern, List.mem_append, h_c, false_or, or_false]
  rw [h_mem '"' (by decide), h_mem '\\' (by decide)]
  unfold escapeRegexValue
  rw [mem_escapeChars_iff, mem_escapeChars_iff]
  refine and_congr ?_ ?_
  · have h_quote : '"' ≠ '\\' := by decide
    simp [h_quote]
  · constructor
    · intro h c h_c h_value
      exact h (.inr ⟨rfl, c, h_c, h_value⟩)
    · rintro h (h_value | ⟨-, c, h_c, h_value⟩)
      · exact h '\\' (by decide) h_value
      · exact h c h_c h_value

def Test.tokens (test : Test) (value : Text) : List Token :=
  match test with
  | .equals => [.quoted (test.pattern value)]
  | .contains => [.call "re".toList, .quoted (test.pattern value), .rparen]
  | .startswith | .endswith => [.word (test.pattern value)]

theorem parses_tokens (test : Test) (value : Text) :
    Parses .unary (test.tokens value) (.atom (test.atom value)) := by
  cases test with
  | equals => exact .quoted _
  | contains => exact .call _ (List.forall_mem_singleton.mpr rfl)
  | startswith | endswith => exact .word _

theorem lex_re (cs : Text) :
    lex ("re(".toList ++ cs) = (lex cs).map (.call "re".toList :: ·) := by
  have h_word : ∀ c ∈ "re".toList, isWordChar c := List.all_eq_true.mp (by decide)
  have h_re : lex ("re".toList ++ '(' :: cs) = lexFrom (.plain ([] ++ "re".toList)) ('(' :: cs) :=
    lexFrom_word h_word ('(' :: cs)
  exact h_re

theorem lex_rparen (cs : Text) : lex (')' :: cs) = (lex cs).map (.rparen :: ·) := rfl

theorem star_mem_pattern {test : Test} (h : test = .startswith ∨ test = .endswith) (value : Text) :
    '*' ∈ test.pattern value := by
  obtain rfl | rfl := h
  · exact List.mem_append_right _ List.mem_cons_self
  · exact List.mem_append_left _ List.mem_cons_self

theorem word_pattern_iff {test : Test} (h : test = .startswith ∨ test = .endswith) (value : Text) :
    (∀ c ∈ test.pattern value, isWordChar c) ↔ test.Plain value := by
  have h_star : ∀ c ∈ "*".toList, isWordChar c := List.all_eq_true.mp (by decide)
  obtain rfl | rfl := h
  · exact List.forall_mem_append.trans (and_iff_left h_star)
  · exact List.forall_mem_append.trans (and_iff_right h_star)

theorem lex_literal {test : Test} {value rest : Text} (h : test.Plain value)
    (h_rest : Separated rest) :
    lex (test.literal value ++ rest) = (lex rest).map (test.tokens value ++ ·) := by
  have h_word (h_test : test = .startswith ∨ test = .endswith) :
      lex (test.pattern value ++ rest) = (lex rest).map ([.word (test.pattern value)] ++ ·) := by
    rw [lex_word_append ((word_pattern_iff h_test value).mpr h) h_rest,
      flush_of_star (star_mem_pattern h_test value)]
  cases test with
  | equals =>
    calc lex ("\"".toList ++ value ++ "\"".toList ++ rest)
      _ = lex ('"' :: (value ++ '"' :: rest)) := by simp
      _ = (lex rest).map (.quoted value :: ·) := lex_quoted h.1 h.2 rest
  | contains =>
    obtain ⟨h_quote, h_escape⟩ := (pattern_contains_iff value).mpr h
    generalize h_pattern : Test.pattern .contains value = pattern at h_quote h_escape
    calc lex (Test.literal .contains value ++ rest)
      _ = lex ("re(".toList ++ ('"' :: (pattern ++ '"' :: ')' :: rest))) := by
        simp [Test.literal, h_pattern]
      _ = (((lex rest).map (.rparen :: ·)).map (.quoted pattern :: ·)).map
            (.call "re".toList :: ·) := by
        rw [lex_re, lex_quoted h_quote h_escape, lex_rparen]
      _ = (lex rest).map (Test.tokens .contains value ++ ·) := by
        rw [Option.map_map, Option.map_map, Test.tokens, h_pattern]
        rfl
  | startswith => exact h_word (.inl rfl)
  | endswith => exact h_word (.inr rfl)

theorem literal_exact {test : Test} {value rest : Text} {ts A L : List Token}
    (h_rest : Separated rest) (h : lex (test.literal value ++ rest) = some ts)
    (h_leaves : leaves ts = A ++ L)
    (h_A : List.Forall₂ (fun P t => P t) (Filter.atom (test.atom value)).leaves A) :
    test.Plain value ∧ ∃ us, lex rest = some us ∧ leaves us = L := by
  obtain rfl := eq_tokens_of_leaves h_A
  have h_word (h_test : test = .startswith ∨ test = .endswith)
      (h : lex (test.pattern value ++ rest) = some ts)
      (h_leaves : leaves ts = .word (test.pattern value) :: L) :
      test.Plain value ∧ ∃ us, lex rest = some us ∧ leaves us = L := by
    rw [← word_pattern_iff h_test]
    exact word_exact (star_mem_pattern h_test value) h_rest h h_leaves
  cases test with
  | equals =>
    have h_text : lex ('"' :: (value ++ '"' :: rest)) = some ts := by
      rw [← h]
      simp [Test.literal, Test.pattern]
    exact quoted_exact h_text h_leaves
  | contains =>
    have h_text : lex ("re(".toList ++
        ('"' :: (Test.pattern .contains value ++ '"' :: ')' :: rest))) = some ts := by
      rw [← h]
      simp [Test.literal]
    rw [lex_re] at h_text
    obtain ⟨us, h_us, rfl⟩ := Option.map_eq_some_iff.mp h_text
    obtain ⟨h_plain, vs, h_vs, h_L⟩ := quoted_exact h_us (List.cons.inj h_leaves).2
    rw [lex_rparen] at h_vs
    obtain ⟨us, h_rest, rfl⟩ := Option.map_eq_some_iff.mp h_vs
    exact ⟨(pattern_contains_iff value).mp h_plain, us, h_rest, h_L⟩
  | startswith => exact h_word (.inl rfl) h h_leaves
  | endswith => exact h_word (.inr rfl) h h_leaves

/-- **A quoted text does not run past a name.** It would run over the literal behind it. -/
theorem ne_quoted_of_literal {test : Test} {name value rest : Text} {ts L : List Token} {t : Token}
    (h : lex (name ++ ':' :: (test.literal value ++ rest)) = some ts)
    (h_leaves : leaves ts = t :: .colon :: ((test.atom value).tokens ++ L)) : t ≠ .quoted name := by
  rintro rfl
  obtain ⟨q, skipped, rest', us, h_eq, h_q, h_mem, h_only, h_star, h_escape, h_us, h_L⟩ :=
    quoted_past h h_leaves
  cases test with
  | equals =>
    have h_text : [] ++ ':' :: '"' :: (value ++ '"' :: rest) = skipped ++ q :: rest' := by
      rw [← h_eq]
      simp [Test.literal, Test.pattern]
    exact not_over_quote h_text (by decide) (by decide) h_q h_mem h_only h_escape
  | contains =>
    have h_text : ":re".toList ++ '(' :: '"' ::
        (Test.pattern .contains value ++ '"' :: ')' :: rest) = skipped ++ q :: rest' := by
      rw [← h_eq]
      simp [Test.literal]
    exact not_over_quote h_text (by decide) (by decide) h_q h_mem h_only h_escape
  | startswith =>
    have h_text : ':' :: value ++ '*' :: rest = skipped ++ q :: rest' := by
      rw [← h_eq]
      simp [Test.literal, Test.pattern]
    -- it ends in the value, which is then no word
    have h_word : .word (value ++ "*".toList) ∈ us := by
      have h_leaf : .word (value ++ "*".toList) ∈ leaves us := by
        rw [h_L]
        exact List.mem_cons_of_mem _ List.mem_cons_self
      exact (List.mem_filter.mp h_leaf).1
    have h_own : q ∈ value := by
      refine List.mem_of_ne_of_mem ?_ (mem_front_of_star h_text h_q h_star)
      rintro rfl
      exact absurd h_q (by decide)
    have h_char := isWordChar_of_mem_lex h_us h_word q (List.mem_append_left _ h_own)
    simp [isWordChar, h_q] at h_char
  | endswith =>
    have h_text : [':'] ++ '*' :: (value ++ rest) = skipped ++ q :: rest' := by
      rw [← h_eq]
      simp [Test.literal, Test.pattern]
    obtain rfl := List.mem_singleton.mp (mem_front_of_star h_text h_q h_star)
    exact absurd h_q (by decide)

theorem exact_condition (m : Meaning) : Exact m.expression m.filter m.Plain := by
  obtain ⟨field, negated, test, value⟩ := m
  have h_field : Exact (field ++ ':' :: test.literal value) (.field field (.atom (test.atom value)))
      (Meaning.Plain ⟨field, negated, test, value⟩) := by
    have h_colon (cs : Text) : lex (':' :: cs) = (lex cs).map (.colon :: ·) := rfl
    have h_sep (cs : Text) : Separated (':' :: cs) :=
      separated_cons (rfl : separator ':' = some [.colon]) cs
    constructor
    · rintro ⟨h_word, h_flush, h_value⟩
      have h_literal := lex_literal h_value separated_nil
      rw [List.append_nil] at h_literal
      refine ⟨.word field :: .colon :: test.tokens value, ?_, .field rfl (parses_tokens test value)⟩
      rw [lex_word_append h_word (h_sep _), h_colon, h_literal, h_flush]
      simp [lex, lexFrom, Mode.last, flush]
    · intro rest ts A L h_rest h h_leaves h_A
      obtain ⟨t, A₁, h_t, h_A₁, rfl⟩ := List.forall₂_cons_left_iff.mp h_A
      obtain ⟨_, A₂, rfl, h_A₂, rfl⟩ := List.forall₂_cons_left_iff.mp h_A₁
      rw [List.append_assoc] at h
      have h_ne : t ≠ .quoted field := by
        rw [eq_tokens_of_leaves h_A₂] at h_leaves
        exact ne_quoted_of_literal h h_leaves
      obtain ⟨h_word, h_flush, us, h_us, h_colon'⟩ := name_exact h_t h h_leaves h_ne
      have h_tail := (List.cons.inj h_colon').2
      obtain ⟨h_value, h_rest⟩ := literal_exact h_rest h_us h_tail h_A₂
      exact ⟨⟨h_word, h_flush, h_value⟩, h_rest⟩
  have h_text : Meaning.expression ⟨field, negated, test, value⟩ =
      if negated then '!' :: (field ++ ':' :: test.literal value)
      else field ++ ':' :: test.literal value := by
    cases negated <;> simp [Meaning.expression]
  rw [h_text]
  cases negated with
  | false => exact h_field
  | true => exact h_field.not

/-! ### So are conditions with a connective between them -/

section Join

variable {α : Type} {text : α → Text} {filter : α → Filter} {plain : α → Prop}

def joinLevel (all : Bool) : Level := if all then .and else .or

def connectorToken (all : Bool) : Token := if all then .and else .or

theorem lex_connector (all : Bool) (cs : Text) :
    lex (connector all ++ cs) = (lex cs).map (connectorToken all :: ·) := by
  cases all
  · exact lex_or cs
  · exact lex_and cs

theorem separated_connector (all : Bool) (cs : Text) : Separated (connector all ++ cs) := by
  have h_blank : separator ' ' = some [] := separator_of_isSpace rfl
  cases all <;> exact separated_cons h_blank _

theorem leaves_connector (all : Bool) (ts : List Token) :
    leaves (connectorToken all :: ts) = leaves ts := by
  cases all <;> rfl

theorem leaves_joinFilters (all : Bool) (f g : Filter) (fs : List Filter) :
    (joinFilters all f (g :: fs)).leaves = f.leaves ++ (joinFilters all g fs).leaves := by
  cases all <;> rfl

theorem parses_joinFilters {all : Bool} {f g : Filter} {fs : List Filter} {ts us : List Token}
    (h : Parses .unary ts f) (h' : Parses (joinLevel all) us (joinFilters all g fs)) :
    Parses (joinLevel all) (ts ++ connectorToken all :: us) (joinFilters all f (g :: fs)) := by
  cases all
  · exact .or (.ofUnary h) h'
  · exact .and h h'

theorem parses_joinLevel {all : Bool} {f : Filter} {ts : List Token} (h : Parses .unary ts f) :
    Parses (joinLevel all) ts f := by
  cases all
  · exact .ofAnd (.ofUnary h)
  · exact .ofUnary h

theorem forall₂_append_left {P Q : List (Token → Prop)} {A : List Token}
    (h : List.Forall₂ (fun P t => P t) (P ++ Q) A) :
    ∃ A₁ A₂, A = A₁ ++ A₂ ∧ List.Forall₂ (fun P t => P t) P A₁ ∧
      List.Forall₂ (fun P t => P t) Q A₂ := by
  induction P generalizing A with
  | nil => exact ⟨[], A, rfl, .nil, h⟩
  | cons p P ih =>
    obtain ⟨t, A, h_t, h_A, rfl⟩ := List.forall₂_cons_left_iff.mp h
    obtain ⟨A₁, A₂, rfl, h₁, h₂⟩ := ih h_A
    exact ⟨t :: A₁, A₂, rfl, .cons h_t h₁, h₂⟩

theorem join_cons (all : Bool) (a b : α) (as : List α) :
    join (connector all) ((a :: b :: as).map text) =
      text a ++ connector all ++ join (connector all) ((b :: as).map text) := rfl

theorem read_join (h : ∀ a, Exact (text a) (filter a) (plain a)) (all : Bool) (a : α)
    (as : List α) (h_plain : ∀ b ∈ a :: as, plain b) :
    ∃ ts, lex (join (connector all) ((a :: as).map text)) = some ts ∧
      Parses (joinLevel all) ts (joinFilters all (filter a) (as.map filter)) := by
  induction as generalizing a with
  | nil =>
    obtain ⟨ts, h_ts, h_f⟩ := (h a).read (h_plain a List.mem_cons_self)
    exact ⟨ts, h_ts, parses_joinLevel h_f⟩
  | cons b as ih =>
    obtain ⟨ts, h_ts, h_f⟩ := (h a).read (h_plain a List.mem_cons_self)
    obtain ⟨us, h_us, h_g⟩ := ih b fun c h_c => h_plain c (List.mem_cons_of_mem a h_c)
    refine ⟨ts ++ connectorToken all :: us, ?_, parses_joinFilters h_f h_g⟩
    rw [join_cons, List.append_assoc, lex,
      lexFrom_append_separated h_ts (separated_connector all _), lex_connector, h_us]
    rfl

theorem peel_join (h : ∀ a, Exact (text a) (filter a) (plain a)) (all : Bool) (a : α)
    (as : List α) {rest : Text} {ts A L : List Token} (h_rest : Separated rest)
    (h_text : lex (join (connector all) ((a :: as).map text) ++ rest) = some ts)
    (h_leaves : leaves ts = A ++ L)
    (h_A : List.Forall₂ (fun P t => P t)
      (joinFilters all (filter a) (as.map filter)).leaves A) :
    (∀ b ∈ a :: as, plain b) ∧ ∃ us, lex rest = some us ∧ leaves us = L := by
  induction as generalizing a ts A with
  | nil =>
    obtain ⟨h_plain, h_rest⟩ := (h a).peel h_rest h_text h_leaves h_A
    exact ⟨List.forall_mem_singleton.mpr h_plain, h_rest⟩
  | cons b as ih =>
    rw [List.map_cons, leaves_joinFilters] at h_A
    obtain ⟨A₁, A₂, rfl, h_A₁, h_A₂⟩ := forall₂_append_left h_A
    rw [join_cons, List.append_assoc, List.append_assoc] at h_text
    rw [List.append_assoc] at h_leaves
    obtain ⟨h_a, us, h_us, h_L⟩ :=
      (h a).peel (separated_connector all _) h_text h_leaves h_A₁
    rw [lex_connector] at h_us
    obtain ⟨vs, h_vs, rfl⟩ := Option.map_eq_some_iff.mp h_us
    rw [leaves_connector] at h_L
    obtain ⟨h_as, h_end⟩ := ih b h_vs h_L h_A₂
    exact ⟨List.forall_mem_cons.mpr ⟨h_a, h_as⟩, h_end⟩

theorem exact_join (h : ∀ a, Exact (text a) (filter a) (plain a)) (all : Bool) (a : α)
    (as : List α) :
    Exact (joinExpressions all ((a :: as).map text)) (joinFilters all (filter a) (as.map filter))
      (∀ b ∈ a :: as, plain b) := by
  cases as with
  | nil =>
    constructor
    · intro h_plain
      exact (h a).read (h_plain a List.mem_cons_self)
    · intro rest ts A L h_rest h_text h_leaves h_A
      exact peel_join h all a [] h_rest h_text h_leaves h_A
  | cons b as =>
    have h_expr : joinExpressions all ((a :: b :: as).map text) =
        "(".toList ++ join (connector all) ((a :: b :: as).map text) ++ ")".toList := rfl
    rw [h_expr]
    constructor
    · intro h_plain
      obtain ⟨ts, h_ts, h_f⟩ := read_join h all a (b :: as) h_plain
      have h_block := lex_block h_ts []
      rw [List.append_nil] at h_block
      refine ⟨block ts, h_block.trans (by simp [lex, lexFrom, Mode.last, flush]), .parens ?_⟩
      cases all
      · exact h_f
      · exact .ofAnd h_f
    · intro rest ts A L h_rest h_text h_leaves h_A
      have h_open : lex ('(' :: (join (connector all) ((a :: b :: as).map text) ++ ')' :: rest)) =
          some ts := by
        rw [← h_text]
        simp
      rw [lex_lparen] at h_open
      obtain ⟨us, h_us, rfl⟩ := Option.map_eq_some_iff.mp h_open
      have h_close : Separated (')' :: rest) :=
        separated_cons (rfl : separator ')' = some [.rparen]) rest
      obtain ⟨h_plain, vs, h_vs, h_L⟩ :=
        peel_join h all a (b :: as) h_close h_us h_leaves h_A
      rw [lex_rparen] at h_vs
      obtain ⟨vs, h_end, rfl⟩ := Option.map_eq_some_iff.mp h_vs
      exact ⟨h_plain, vs, h_end, h_L⟩

end Join

def RuleMeaning.Plain (r : RuleMeaning) : Prop := ∀ m ∈ r.first :: r.others, m.Plain

instance (r : RuleMeaning) : Decidable r.Plain :=
  List.decidableBAll Meaning.Plain (r.first :: r.others)

theorem exact_rule (r : RuleMeaning) : Exact r.expression r.filter r.Plain :=
  exact_join exact_condition r.all r.first r.others

end LogGroups
