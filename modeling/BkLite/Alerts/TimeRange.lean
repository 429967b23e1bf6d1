import BkLite.Framework.ClockText
import BkLite.Framework.Find
import BkLite.Framework.Numerals

/-!
# Time ranges

`alerts/utils/time_range_checker.py`: whether a time is in the range of a configuration. A single
range is decided by the database as well (`to_orm_filter`), with the same two bounds. The ranges
that come back every week or month are decided from the local time: by its day, and by the text of
its time of day, compared with the texts of the bounds.

A time is an instant; its local time, the reading of dates and their instants are parameters.
-/

namespace Alerts.TimeRange

open Py

/-! ### Times -/

/-- A local time: the day of the week, with 0 for Monday, the day of the month, and the time of
day. -/
structure LocalTime where
  weekday : ℕ
  day : ℕ
  clock : Clock
  weekday_lt : weekday < 7 := by decide
  day_pos : 0 < day := by decide

/-- An exception that is a `ValueError` or another one. -/
inductive Exn
  | value
  | other
deriving DecidableEq, Repr

/-- `localtime`, `strptime` with `%Y-%m-%d %H:%M:%S`, and `make_aware`. -/
structure Env where
  Naive : Type
  localtime : ℤ → LocalTime
  strptime : Value → Except Exn Naive
  makeAware : Naive → ℤ

inductive Q
  | all
  | range (start stop : ℤ)
deriving DecidableEq, Repr

def Q.Holds (t : ℤ) : Q → Prop
  | .all => True
  | .range start stop => start ≤ t ∧ t ≤ stop

/-! ### The checker -/

section Checker

variable (env : Env) (config : List (String × Value))

/-- `self.config.get("type", "one")`. -/
def timeType : Value := ((config.find? (·.1 = "type")).map (·.2)).getD (.str "one")

/-- `self.config.get(key)`, where it is true. -/
def given (key : String) : Option Value :=
  let value := Value.lookup config key
  if value.truthy then some value else none

/-- `start_time` and `end_time`, unless one is missing. -/
def bounds : Option (Value × Value) := do
  let start ← given config "start_time"
  let stop ← given config "end_time"
  return (start, stop)

def instants (start stop : Value) : Except Exn (ℤ × ℤ) := do
  let start ← env.strptime start
  let stop ← env.strptime stop
  return (env.makeAware start, env.makeAware stop)

def toOrmFilter : Except Exn (Option Q) :=
  if config = [] then .ok (some .all)
  else
    match timeType config with
    | .str "one" =>
      match bounds config with
      | none => .ok none
      | some (start, stop) =>
        match instants env start stop with
        | .ok (start, stop) => .ok (some (.range start stop))
        | .error .value => .ok none
        | .error .other => .error .other
    | _ => .ok none

def checkOneTimeRange (t : ℤ) : Except Exn Bool :=
  match bounds config with
  | none => .ok false
  | some (start, stop) => do
    let (start, stop) ← instants env start stop
    return start ≤ t && t ≤ stop

/-- `start <= check <= end` of texts. A bound that is no text raises, or is not reached. -/
def textWithin (start stop : Option (List Char)) (check : List Char) : Except Exn Bool :=
  match start, stop with
  | some start, some stop => .ok (!textLt check start && !textLt stop check)
  | some start, none => if textLt check start then .ok false else .error .other
  | none, _ => .error .other

def asText : Value → Option (List Char)
  | .str s => some s.toList
  | _ => none

def checkDayRange (t : ℤ) : Except Exn Bool :=
  match bounds config with
  | none => .ok false
  | some (start, stop) =>
    textWithin (asText start) (asText stop) (env.localtime t).clock.text

/-- `_extract_time_part` of a text. -/
def extractTimePart (timeStr : List Char) : List Char :=
  if 8 < timeStr.length then
    if ' ' ∈ timeStr then ((timeStr.splitOn ' ')[1]?).getD []
    else timeStr.drop (timeStr.length - 8)
  else timeStr

/-- `_check_time_of_day_range`. With a bound that is no text it is false or raises. -/
def checkTimeOfDayRange (t : ℤ) : Except Exn Bool :=
  match bounds config with
  | none => .ok true
  | some (start, stop) =>
    match asText start, asText stop with
    | some start, some stop => textWithin (some (extractTimePart start))
        (some (extractTimePart stop)) (env.localtime t).clock.text
    | _, _ => .error .other

def isDayMatched (dayConfig : Value) (currentDay : ℕ) : Bool :=
  match dayConfig with
  | .null => true
  | .list days => days.any (·.equal (.int currentDay))
  | .str s => decimal currentDay <:+: s.toList
  | _ => false

def checkWeekRange (t : ℤ) : Except Exn Bool :=
  if isDayMatched (Value.lookup config "week_month") ((env.localtime t).weekday + 1) then
    checkTimeOfDayRange env config t
  else .ok false

def checkMonthRange (t : ℤ) : Except Exn Bool :=
  if isDayMatched (Value.lookup config "week_month") (env.localtime t).day then
    checkTimeOfDayRange env config t
  else .ok false

/-- The two `except` branches: whatever is raised counts as outside. -/
def excepted : Except Exn Bool → Bool
  | .ok b => b
  | .error _ => false

def isInRange (t : ℤ) : Bool :=
  if config = [] then true
  else
    excepted (match timeType config with
      | .str "one" => checkOneTimeRange env config t
      | .str "day" => checkDayRange env config t
      | .str "week" => checkWeekRange env config t
      | .str "month" => checkMonthRange env config t
      | _ => .ok true)

end Checker

/-! ### What a configuration says -/

inductive Kind
  | week
  | month
deriving DecidableEq, Repr

def Kind.name : Kind → String
  | .week => "week"
  | .month => "month"

def Kind.dayOf (time : LocalTime) : Kind → ℕ
  | .week => time.weekday + 1
  | .month => time.day

def runs (s : List Char) : List (List Char) := s.splitOnP fun c => !c.isDigit

/-- The day is named: it is in the list, or in the text. Each digit of a text names a day of the
week, and each run of digits a day of the month. -/
def Named (kind : Kind) (day : ℕ) : Value → Prop
  | .list days => ∃ value ∈ days, value.equal (.int day) = true
  | .str s =>
    match kind with
    | .week => ∃ c ∈ s.toList, decimal day = [c]
    | .month => decimal day ∈ runs s.toList
  | _ => False

def IsDays : Value → Prop
  | .list _ => True
  | .str _ => True
  | _ => False

def IsClock (bound : Value) (c : Clock) : Prop :=
  ∃ s, asText bound = some s ∧ extractTimePart s = c.text

def Within (config : List (String × Value)) (c : Clock) : Prop :=
  ∀ start stop, bounds config = some (start, stop) → ∃ a b, IsClock start a ∧ IsClock stop b ∧
    a.seconds ≤ c.seconds ∧ c.seconds ≤ b.seconds

/-- **The law of the checker.** Filter and checker agree, and a range has the times of its days. -/
structure Lawful (env : Env) (config : List (String × Value)) (t : ℤ) : Prop where
  filter : ∀ q, toOrmFilter env config = .ok (some q) →
    (q.Holds t ↔ isInRange env config t = true)
  days : ∀ kind : Kind, timeType config = .str kind.name →
    IsDays (Value.lookup config "week_month") →
    (isInRange env config t = true ↔
      Named kind (kind.dayOf (env.localtime t)) (Value.lookup config "week_month") ∧
        Within config (env.localtime t).clock)

def TextWithin (config : List (String × Value)) (c : Clock) : Prop :=
  ∀ start stop, bounds config = some (start, stop) → ∃ a b, asText start = some a ∧
    asText stop = some b ∧ textLt c.text (extractTimePart a) = false ∧
      textLt (extractTimePart b) c.text = false

def ClockBounds (config : List (String × Value)) : Prop :=
  ∀ start stop, bounds config = some (start, stop) → (∃ a, IsClock start a) ∧ ∃ b, IsClock stop b

/-! ### The filter of the database -/

section Proofs

variable {env : Env} {config : List (String × Value)} {t : ℤ} {kind : Kind} {day : ℕ}
  {value : Value}

theorem holds_iff {q : Q} (h : toOrmFilter env config = .ok (some q)) :
    q.Holds t ↔ isInRange env config t = true := by
  rw [toOrmFilter] at h
  rw [isInRange]
  by_cases h_config : config = []
  · rw [if_pos h_config] at h ⊢
    cases h
    exact iff_of_true trivial rfl
  · rw [if_neg h_config] at h ⊢
    split at h
    · next h_type =>
      rw [h_type]
      cases h_bounds : bounds config with
      | none => simp [h_bounds] at h
      | some pair =>
        obtain ⟨start, stop⟩ := pair
        rw [h_bounds] at h
        -- the bounds are read once for the filter and once for the checker
        cases h_instants : instants env start stop with
        | ok both =>
          simp only [h_instants, Except.ok.injEq, Option.some.injEq] at h
          subst h
          simp [Q.Holds, excepted, checkOneTimeRange, h_bounds, h_instants, bind, Except.bind, pure,
            Except.pure]
        | error e => cases e <;> simp [h_instants] at h
    · cases h

/-! ### Days -/

theorem length_decimal (h : day < 10) : ∃ c, decimal day = [c] :=
  ⟨Nat.digitChar day, Nat.toDigits_of_lt_base h⟩

theorem isDayMatched_iff (h_days : IsDays value) (h_week : kind = .week → day < 10) :
    isDayMatched value day = true ↔ Named kind day value ∨
      ∃ s, kind = .month ∧ value = .str s ∧ decimal day ∉ runs s.toList ∧
        ∃ run ∈ runs s.toList, decimal day <:+: run := by
  cases value with
  | list days =>
    rw [isDayMatched, List.any_eq_true]
    refine (or_iff_left ?_).symm
    rintro ⟨s, -, h_value, -⟩
    cases h_value
  | str s =>
    rw [isDayMatched, decide_eq_true_iff]
    cases kind with
    | week =>
      obtain ⟨c, h_c⟩ := length_decimal (h_week rfl)
      rw [or_iff_left (by rintro ⟨s, h_kind, -⟩; cases h_kind), Named, h_c,
        List.singleton_infix_iff]
      exact ⟨fun h => ⟨c, h, rfl⟩, fun ⟨d, h_d, h_eq⟩ => (List.cons.inj h_eq).1 ▸ h_d⟩
    | month =>
      have h_digits : ∀ c ∈ decimal day, (!c.isDigit) = false := fun c h_c => by
        rw [isDigit_of_mem_decimal h_c, Bool.not_true]
      rw [Find.infix_splitOnP_iff (w := decimal day) Nat.toDigits_ne_nil h_digits, Named]
      constructor
      · rintro ⟨run, h_run, h_infix⟩
        by_cases h_named : decimal day ∈ runs s.toList
        · exact .inl h_named
        · exact .inr ⟨s, rfl, rfl, h_named, run, h_run, h_infix⟩
      · rintro (h_named | ⟨s', -, h_eq, -, run, h_run, h_infix⟩)
        · exact ⟨_, h_named, List.infix_rfl⟩
        · cases h_eq
          exact ⟨run, h_run, h_infix⟩
  | _ => cases h_days

/-! ### Times of day -/

theorem checkTimeOfDayRange_iff :
    checkTimeOfDayRange env config t = .ok true ↔ TextWithin config (env.localtime t).clock := by
  rw [checkTimeOfDayRange, TextWithin]
  cases bounds config with
  | none => simp
  | some pair =>
    obtain ⟨start, stop⟩ := pair
    cases h_start : asText start <;> cases h_stop : asText stop <;>
      simp [textWithin, h_start, h_stop]

theorem textWithin_iff (h : ClockBounds config) (c : Clock) :
    TextWithin config c ↔ Within config c := by
  refine forall_congr' fun start => forall_congr' fun stop => imp_congr_right fun h_bounds => ?_
  constructor
  · rintro ⟨x, y, h_x, h_y, h_low, h_high⟩
    obtain ⟨⟨a, s, h_s, h_a⟩, b, s', h_s', h_b⟩ := h start stop h_bounds
    cases h_s.symm.trans h_x
    cases h_s'.symm.trans h_y
    rw [h_a, Bool.eq_false_iff, Ne, c.textLt_text a, not_lt] at h_low
    rw [h_b, Bool.eq_false_iff, Ne, b.textLt_text c, not_lt] at h_high
    exact ⟨a, b, ⟨_, h_s, h_a⟩, ⟨_, h_s', h_b⟩, h_low, h_high⟩
  · rintro ⟨a, b, ⟨s, h_s, h_a⟩, ⟨s', h_s', h_b⟩, h_low, h_high⟩
    refine ⟨s, s', h_s, h_s', ?_, ?_⟩
    · rw [h_a, Bool.eq_false_iff, Ne, c.textLt_text a]
      exact Nat.not_lt_of_le h_low
    · rw [h_b, Bool.eq_false_iff, Ne, b.textLt_text c]
      exact Nat.not_lt_of_le h_high

theorem clockBounds_of_within {c : Clock} (h : Within config c) : ClockBounds config := by
  intro start stop h_bounds
  obtain ⟨a, b, h_a, h_b, -⟩ := h start stop h_bounds
  exact ⟨⟨a, h_a⟩, b, h_b⟩

theorem excepted_iff {result : Except Exn Bool} : excepted result = true ↔ result = .ok true := by
  cases result <;> simp [excepted]

theorem isInRange_iff (h_type : timeType config = .str kind.name) :
    isInRange env config t = true ↔
      isDayMatched (Value.lookup config "week_month") (kind.dayOf (env.localtime t)) = true ∧
        TextWithin config (env.localtime t).clock := by
  have h_config : config ≠ [] := by
    rintro rfl
    have h_one : "one" = kind.name := Value.str.inj h_type
    cases kind <;> exact absurd h_one (by decide)
  have h_result : isInRange env config t = true ↔
      (if isDayMatched (Value.lookup config "week_month") (kind.dayOf (env.localtime t)) then
        checkTimeOfDayRange env config t else .ok false) = .ok true := by
    rw [isInRange, if_neg h_config, h_type, ← excepted_iff]
    cases kind <;> exact Iff.rfl
  rw [h_result, ← checkTimeOfDayRange_iff]
  split_ifs with h_day
  · exact (and_iff_right h_day).symm
  · exact iff_of_false (by simp) fun h => h_day h.1

end Proofs

/-- **When the law holds**, in terms of the texts of the bounds and of the days. -/
theorem lawful_iff (env : Env) (config : List (String × Value)) (t : ℤ) :
    Lawful env config t ↔
      ∀ kind : Kind, timeType config = .str kind.name → ∀ dayConfig,
        Value.lookup config "week_month" = dayConfig → IsDays dayConfig →
          ((∃ s, kind = .month ∧ dayConfig = .str s ∧
              decimal (kind.dayOf (env.localtime t)) ∉ runs s.toList ∧
                ∃ run ∈ runs s.toList, decimal (kind.dayOf (env.localtime t)) <:+: run) ∨
            Named kind (kind.dayOf (env.localtime t)) dayConfig ∧ ¬ClockBounds config) →
              ¬TextWithin config (env.localtime t).clock := by
  have h_week (kind : Kind) : kind = .week → kind.dayOf (env.localtime t) < 10 := by
    rintro rfl
    have h_lt := (env.localtime t).weekday_lt
    show (env.localtime t).weekday + 1 < 10
    omega
  constructor
  · rintro ⟨-, h_law⟩ kind h_type _ rfl h_days h_wrong h_text
    have h_range := (h_law kind h_type h_days).symm.trans (isInRange_iff h_type)
    rw [isDayMatched_iff h_days (h_week kind)] at h_range
    rcases h_wrong with h_misread | ⟨h_named, h_bounds⟩
    · -- the day is matched, so it would be named
      obtain ⟨h_named, -⟩ := h_range.mpr ⟨.inr h_misread, h_text⟩
      obtain ⟨s, h_kind, h_config, h_not, -⟩ := h_misread
      rw [h_config, h_kind] at h_named
      rw [h_kind] at h_not
      exact h_not h_named
    · exact h_bounds (clockBounds_of_within (h_range.mpr ⟨.inl h_named, h_text⟩).2)
  · intro h
    refine ⟨fun q h_q => holds_iff h_q, fun kind h_type h_days => ?_⟩
    rw [isInRange_iff h_type, isDayMatched_iff h_days (h_week kind)]
    constructor
    · rintro ⟨h_named | h_misread, h_text⟩
      · have h_bounds : ClockBounds config := by
          by_contra h_not
          exact h kind h_type _ rfl h_days (.inr ⟨h_named, h_not⟩) h_text
        exact ⟨h_named, (textWithin_iff h_bounds _).mp h_text⟩
      · exact absurd h_text (h kind h_type _ rfl h_days (.inl h_misread))
    · rintro ⟨h_named, h_within⟩
      exact ⟨.inl h_named, (textWithin_iff (clockBounds_of_within h_within) _).mpr h_within⟩

section Examples

private def firstNoon : Env where
  Naive := Unit
  localtime _ := ⟨2, 1, ⟨12, 0, 0, by decide, by decide, by decide⟩, by decide, by decide⟩
  strptime _ := .error .value
  makeAware _ := 0

private def fifteenth : List (String × Value) :=
  [("type", .str "month"), ("week_month", .str "15"), ("start_time", .str "00:00:00"),
    ("end_time", .str "23:59:59")]

/-- The text `"15"` has the first day of the month. -/
theorem fifteenth_has_first : ¬∀ env config t, Lawful env config t := by
  intro h
  have h_law := (h firstNoon fifteenth 0).days .month rfl trivial
  obtain ⟨h_named, -⟩ := h_law.mp (by decide +kernel)
  revert h_named
  show ¬decimal 1 ∈ runs "15".toList
  decide +kernel

end Examples

end Alerts.TimeRange
