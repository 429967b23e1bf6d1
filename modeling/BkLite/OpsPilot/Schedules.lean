import BkLite.Framework.ClockText
import BkLite.Framework.Collect
import BkLite.Framework.Find
import BkLite.Framework.Numerals
import Mathlib.Data.List.Infix

/-!
# Schedules

The configuration of a scheduled start is checked (`ScheduleConfigValidator`) and turned into
entries of a crontab (`CrontabGenerator`, `opspilot/utils/schedule_utils.py`).

The check looks at the first two parts between the slashes of a field only; `\d` and `int` know
digits outside ASCII, and `$` stands in front of a line end too; `True` is an integer; and a time
may be repeated. Nothing else goes wrong (`right_iff`).
-/

namespace OpsPilot
namespace Schedules

open Py

abbrev Text := List Char

abbrev Config := List (String × Value)

/-- `str` of a value, the text of the `ValueError` of `int`, and the characters that are digits for
`str.isdigit` and no decimals. -/
structure Env where
  str : Value → String
  intError : Text → String
  isOtherDigit : Char → Bool
  other_ascii : ∀ c, isOtherDigit c = true → 128 ≤ c.toNat

variable (env : Env)

/-! ### The validator -/

def frequencyTypes : List String := ["daily", "weekly", "monthly", "crontab"]

def isdigit (text : Text) : Bool :=
  !text.isEmpty && text.all fun c => (digitValue c).isSome || env.isOtherDigit c

/-- `int`, of digits. -/
def int (text : Text) : Except String ℕ :=
  match natOfText text with
  | some n => .ok n
  | none => .error (env.intError text)

/-- `TIME_PATTERN.match`. -/
def matchTime : Text → Bool
  | h₁ :: h₂ :: ':' :: m₁ :: m₂ :: rest =>
    ((h₁ = '0' || h₁ = '1') && (digitValue h₂).isSome ||
      h₁ = '2' && ['0', '1', '2', '3'].contains h₂) &&
    (['0', '1', '2', '3', '4', '5'].contains m₁ && (digitValue m₂).isSome) &&
    (rest = [] || rest = ['\n'])
  | _ => false

/-- `isinstance(v, int)`, and its value. -/
def number : Value → Option ℤ
  | .int i => some i
  | .bool b => some (if b then 1 else 0)
  | _ => none

def validateTime (config : Config) : Except String Unit :=
  let timeValue := Value.lookup config "time"
  if timeValue.truthy = false then .error "time is required for daily/weekly/monthly schedule"
  else
    match timeValue with
    | .list times => times.forM fun
      | .str time =>
        if matchTime time.toList then .ok ()
        else .error ("Invalid time format: " ++ time ++ ". Must be HH:MM (24-hour format)")
      | time => .error ("Invalid time format: " ++ env.str time ++ ". Must be a string.")
    | _ => .error "time must be a list"

/-- What `_validate_weekdays` and `_validate_monthly` share. -/
def validateNumbers (key kind frequency range : String) (minVal maxVal : ℤ) (config : Config) :
    Except String Unit :=
  let values := Value.lookup config key
  if values.truthy = false then .error (key ++ " is required for " ++ frequency ++ " schedule")
  else
    match values with
    | .list values => values.forM fun v =>
      match number v with
      | none => .error ("Invalid " ++ kind ++ ": " ++ env.str v ++ ". Must be an integer.")
      | some n =>
        if n < minVal ∨ maxVal < n then
          .error ("Invalid " ++ kind ++ ": " ++ env.str v ++ ". Must be " ++ range)
        else .ok ()
    | _ => .error (key ++ " must be a list")

def validateWeekdays : Config → Except String Unit :=
  validateNumbers env "weekdays" "weekday" "weekly" "0-6 (0=Sunday)" 0 6

def validateMonthly : Config → Except String Unit :=
  validateNumbers env "days" "day" "monthly" "1-31" 1 31

/-- The step of a field, if it has one. -/
def checkStep (name : String) (field : Text) : Option Text → Except String Unit
  | none => .ok ()
  | some step =>
    let error := "Invalid step value in " ++ name ++ " field: " ++ String.ofList field
    if isdigit env step then do
      let n ← int env step
      if n < 1 then .error error else .ok ()
    else .error error

/-- A part of a list: a range or a value. -/
def checkPart (name : String) (minVal maxVal : ℕ) (part : Text) : Except String Unit :=
  let range := "Invalid range in " ++ name ++ " field: " ++ String.ofList part
  let value := "Invalid value in " ++ name ++ " field: " ++ String.ofList part
  if '-' ∈ part then
    match part.splitOn '-' with
    | [start, stop] =>
      if isdigit env start && isdigit env stop then do
        let startVal ← int env start
        let endVal ← int env stop
        if endVal < startVal then .error (range ++ " (start > end)")
        else if startVal < minVal ∨ maxVal < endVal then
          .error (range ++ ". Values must be " ++ toString minVal ++ "-" ++ toString maxVal)
        else .ok ()
      else .error range
    | _ => .error range
  else if isdigit env part then do
    let val ← int env part
    if val < minVal ∨ maxVal < val then
      .error (value ++ ". Must be " ++ toString minVal ++ "-" ++ toString maxVal)
    else .ok ()
  else .error value

def validateCrontabField (name : String) (minVal maxVal : ℕ) (field : Text) :
    Except String Unit :=
  if field = ['*'] then .ok ()
  else do
    let stepParts := field.splitOn '/'
    let base := stepParts.headD []
    checkStep env name field stepParts[1]?
    if base = ['*'] then .ok ()
    else (base.splitOn ',').forM (checkPart env name minVal maxVal)

/-- `field_names` and `field_ranges`. -/
def fieldSpecs : List (String × ℕ × ℕ) :=
  [("minute", 0, 59), ("hour", 0, 23), ("day of month", 1, 31), ("month", 1, 12),
    ("day of week", 0, 6)]

/-- `expression.strip().split()`. -/
def fields (config : Config) : List Text :=
  match Value.lookup config "crontab_expression" with
  | .str expression => ((strip expression.toList).splitOnP isSpace).filter (· ≠ [])
  | _ => []

def validateCrontab (config : Config) : Except String Unit :=
  let expression := Value.lookup config "crontab_expression"
  if expression.truthy = false then
    .error "crontab_expression is required for crontab schedule"
  else
    match expression with
    | .str text =>
      if (fields config).length ≠ 5 then
        .error ("Invalid crontab expression: " ++ text ++
          ". Must have exactly 5 fields (minute hour day month weekday)")
      else
        ((fields config).zip fieldSpecs).forM fun (field, name, minVal, maxVal) =>
          validateCrontabField env name minVal maxVal field
    | _ => .error "crontab_expression must be a string"

def validate (config : Config) : Except String Unit :=
  if config = [] then .error "config is required"
  else
    let frequency := Value.lookup config "frequency"
    let invalid := "Invalid frequency: " ++ env.str frequency ++ ". Must be one of: " ++
      String.intercalate ", " frequencyTypes
    if frequency.truthy = false then .error "frequency is required"
    else
      match frequency with
      | .str "crontab" => validateCrontab env config
      | .str "daily" => validateTime env config
      | .str "weekly" => validateTime env config >>= fun _ => validateWeekdays env config
      | .str "monthly" => validateTime env config >>= fun _ => validateMonthly env config
      | _ => .error invalid

/-! ### The generator -/

/-- The keys of a `crontab_dict`. -/
structure Crontab where
  minute : Text
  hour : Text
  dayOfWeek : Text := ['*']
  dayOfMonth : Text := ['*']
  monthOfYear : Text := ['*']
deriving DecidableEq, Repr

/-- The entries of a JSON list. -/
def entries (config : Config) (key : String) : List Value :=
  match Value.lookup config key with
  | .list xs => xs
  | _ => []

/-- `str(d)` of an integer. -/
def text : Value → Text
  | .int i => intRepr i
  | .bool true => "True".toList
  | .bool false => "False".toList
  | _ => []

/-- `",".join(str(d) for d in sorted(values))`. -/
def join (values : List Value) : Text :=
  [','].intercalate ((values.mergeSort fun v w => (number v).getD 0 ≤ (number w).getD 0).map text)

/-- `part.lstrip("0") or "0"`. -/
def unpad (part : Text) : Text :=
  let stripped := part.dropWhile (· = '0')
  if stripped = [] then ['0'] else stripped

/-- The entries of all times, which differ in nothing else. -/
def generateTimes (dayOfWeek dayOfMonth : Text) (config : Config) :
    Except PyError (List (String × Crontab)) :=
  (entries config "time").zipIdx.mapM fun
    | (.str time, index) =>
      match time.toList.splitOn ':' with
      | [hour, minute] =>
        .ok (toString index, { minute := unpad minute, hour := unpad hour, dayOfWeek, dayOfMonth })
      | _ => .error .valueError
    | _ => .error .attributeError

def generateCrontab (config : Config) : Except PyError (List (String × Crontab)) :=
  match fields config with
  | minute :: hour :: dayOfMonth :: monthOfYear :: dayOfWeek :: _ =>
    .ok [("0", ⟨minute, hour, dayOfWeek, dayOfMonth, monthOfYear⟩)]
  | _ => .error .indexError

/-- `generate` of a validated configuration. -/
def generate (config : Config) : Except PyError (List (String × Crontab)) :=
  match Value.lookup config "frequency" with
  | .str "daily" => generateTimes ['*'] ['*'] config
  | .str "weekly" => generateTimes (join (entries config "weekdays")) ['*'] config
  | .str "monthly" => generateTimes ['*'] (join (entries config "days")) config
  | .str "crontab" => generateCrontab config
  | _ => .error .valueError

/-! ### What is claimed -/

/-- A number of ASCII digits, in the range. -/
def IsNumber (minVal maxVal : ℕ) (t : Text) : Prop :=
  (∀ c ∈ t, c.isDigit = true) ∧ ∃ n, natOfText t = some n ∧ minVal ≤ n ∧ n ≤ maxVal

inductive Base (minVal maxVal : ℕ) : Text → Prop
  | any : Base minVal maxVal ['*']
  | value {t : Text} (h : IsNumber minVal maxVal t) : Base minVal maxVal t
  | range {s t : Text} (h_s : IsNumber minVal maxVal s) (h_t : IsNumber minVal maxVal t) :
    Base minVal maxVal (s ++ '-' :: t)

inductive Item (minVal maxVal : ℕ) : Text → Prop
  | plain {t : Text} (h : Base minVal maxVal t) : Item minVal maxVal t
  | step {t s : Text} (h : Base minVal maxVal t) (h_ne : s ≠ []) (h_s : ∀ c ∈ s, c.isDigit = true) :
    Item minVal maxVal (t ++ '/' :: s)

def WellFormed (minVal maxVal : ℕ) (field : Text) : Prop :=
  ∀ item ∈ field.splitOn ',', Item minVal maxVal item

/-- The hour and the minute that a text says. -/
def timeOf : Text → Option (ℕ × ℕ)
  | h₁ :: h₂ :: _ :: m₁ :: m₂ :: _ => do
    return (10 * (← digitValue h₁) + (← digitValue h₂), 10 * (← digitValue m₁) + (← digitValue m₂))
  | _ => none

structure Moment where
  minute : ℕ
  hour : ℕ
  dayOfMonth : ℕ
  month : ℕ
  dayOfWeek : ℕ

/-- The numbers of a list; none where the list cannot be read. -/
def numbers (field : Text) : List ℕ :=
  let parts := field.splitOn ','
  if parts.all fun part => part.all Char.isDigit && (natOfText part).isSome then
    parts.filterMap natOfText
  else []

def hits (field : Text) (n : ℕ) : Bool := field = ['*'] || (numbers field).contains n

def Crontab.fires (e : Crontab) (t : Moment) : Bool :=
  hits e.minute t.minute && hits e.hour t.hour && hits e.dayOfMonth t.dayOfMonth &&
    hits e.monthOfYear t.month && hits e.dayOfWeek t.dayOfWeek

structure Listed (config : Config) (t : Moment) : Prop where
  time : ∃ s, .str s ∈ entries config "time" ∧ timeOf s.toList = some (t.hour, t.minute)
  weekday : Value.lookup config "frequency" = .str "weekly" →
    ∃ v ∈ entries config "weekdays", number v = some ↑t.dayOfWeek
  day : Value.lookup config "frequency" = .str "monthly" →
    ∃ v ∈ entries config "days", number v = some ↑t.dayOfMonth

structure Faithful (config : Config) (es : List (String × Crontab)) : Prop where
  numerals : ∀ e ∈ es, (∃ h < 24, e.2.hour = decimal h) ∧ ∃ m < 60, e.2.minute = decimal m
  exact : ∀ t, (∃ e ∈ es, e.2.fires t = true) ↔ Listed config t
  once : es.Pairwise fun e e' => ∀ t, ¬(e.2.fires t = true ∧ e'.2.fires t = true)

/-- What is promised of a configuration that is accepted. -/
structure Right (config : Config) : Prop where
  crontab : Value.lookup config "frequency" = .str "crontab" → (fields config).length = 5 ∧
    ∀ x ∈ (fields config).zip fieldSpecs, WellFormed x.2.2.1 x.2.2.2 x.1
  times : Value.lookup config "frequency" ≠ .str "crontab" →
    ∃ es, generate config = .ok es ∧ Faithful config es

/-- One slash in a field, ASCII in fields and times, no line end, no time twice, no truth value. -/
structure Regular (config : Config) : Prop where
  crontab : Value.lookup config "frequency" = .str "crontab" → ∀ field ∈ fields config,
    (field.splitOn '/').length ≤ 2 ∧ ∀ c ∈ field, c.toNat < 128
  times : Value.lookup config "frequency" ≠ .str "crontab" → (entries config "time").Nodup ∧
    ∀ s, .str s ∈ entries config "time" → ∀ c ∈ s.toList, c.toNat < 128 ∧ c ≠ '\n'
  weekdays : Value.lookup config "frequency" = .str "weekly" →
    ∀ b, .bool b ∉ entries config "weekdays"
  days : Value.lookup config "frequency" = .str "monthly" → ∀ b, .bool b ∉ entries config "days"

/-! ### The fields of a crontab -/

section Fields

variable {env : Env} {name : String} {minVal maxVal : ℕ} {t : Text}

theorem forM_eq_ok {α : Type} {f : α → Except String Unit} {xs : List α} :
    xs.forM f = .ok () ↔ ∀ x ∈ xs, f x = .ok () := by
  induction xs with
  | nil => simp [pure, Except.pure]
  | cons x xs ih =>
    show (f x >>= fun _ => xs.forM f) = .ok () ↔ _
    rw [bind_eq_ok, List.forall_mem_cons, ← ih]
    exact ⟨fun ⟨_, h_x, h_xs⟩ => ⟨h_x, h_xs⟩, fun ⟨h_x, h_xs⟩ => ⟨(), h_x, h_xs⟩⟩

theorem isDigit_of_digitValue {c : Char} (h : (digitValue c).isSome = true) (h_c : c.toNat < 128) :
    c.isDigit = true := by
  obtain ⟨d, h_d⟩ := Option.isSome_iff_exists.mp h
  obtain ⟨z, h_z, h_found⟩ := List.exists_of_findSome?_eq_some h_d
  have h_ascii : ∀ z ∈ zeroDigits, z < 128 → z = 48 := by decide
  split_ifs at h_found with h_range
  obtain rfl := h_ascii z h_z (by omega)
  exact Char.isDigit_iff_toNat.mpr ⟨h_range.1, Nat.le_of_lt_succ h_range.2⟩

theorem toNat_of_isDigit {c : Char} (h : c.isDigit = true) : c.toNat < 128 ∧ c ≠ '\n' := by
  have h_range := Char.isDigit_iff_toNat.mp h
  refine ⟨lt_of_le_of_lt h_range.2 (by decide), ?_⟩
  rintro rfl
  exact absurd h (by decide)

theorem of_isdigit (h : isdigit env t = true) (h_t : ∀ c ∈ t, c.toNat < 128) :
    t ≠ [] ∧ ∀ c ∈ t, c.isDigit = true := by
  rw [isdigit, Bool.and_eq_true] at h
  refine ⟨fun h_nil => by simp [h_nil] at h, fun c h_c => ?_⟩
  obtain h_digit | h_other := (Bool.or_eq_true _ _).mp (List.all_eq_true.mp h.2 c h_c)
  · exact isDigit_of_digitValue h_digit (h_t c h_c)
  · exact absurd (env.other_ascii c h_other) (by have := h_t c h_c; omega)

theorem int_eq_ok {n : ℕ} (h : int env t = .ok n) : natOfText t = some n := by
  unfold int at h
  split at h
  · rename_i h_n
    rw [h_n, Except.ok.inj h]
  · cases h

theorem of_checkPart (h : checkPart env name minVal maxVal t = .ok ())
    (h_t : ∀ c ∈ t, c.toNat < 128) : Base minVal maxVal t := by
  unfold checkPart at h
  dsimp only at h
  split_ifs at h with h_range h_digit
  · split at h
    · rename_i start stop h_split
      have h_eq : ['-'].intercalate (t.splitOn '-') = t := List.intercalate_splitOn '-'
      rw [h_split] at h_eq
      replace h_eq : t = start ++ '-' :: stop := by simpa [List.intercalate] using h_eq.symm
      split_ifs at h with h_digits
      obtain ⟨h_start, h_stop⟩ := (Bool.and_eq_true _ _).mp h_digits
      obtain ⟨m, h_m, h⟩ := bind_eq_ok.mp h
      obtain ⟨n, h_n, h⟩ := bind_eq_ok.mp h
      split_ifs at h with h_order h_bounds
      subst h_eq
      refine .range ⟨(of_isdigit h_start fun c h_c => h_t c (by simp [h_c])).2, m, int_eq_ok h_m,
        by omega, by omega⟩ ⟨(of_isdigit h_stop fun c h_c => h_t c (by simp [h_c])).2, n,
        int_eq_ok h_n, by omega, by omega⟩
    · cases h
  · obtain ⟨n, h_n, h⟩ := bind_eq_ok.mp h
    split_ifs at h with h_bounds
    exact .value ⟨(of_isdigit h_digit h_t).2, n, int_eq_ok h_n, by omega, by omega⟩

/-- What has no comma is put behind the last part. -/
theorem splitOn_append {y : Text} (h : ',' ∉ y) (x : Text) : ∃ init last,
    x.splitOn ',' = init ++ [last] ∧ (x ++ y).splitOn ',' = init ++ [last ++ y] := by
  induction x with
  | nil => exact ⟨[], [], rfl, List.splitOn_eq_singleton h⟩
  | cons c x ih =>
    obtain ⟨init, last, h_x, h_xy⟩ := ih
    rw [List.splitOn] at h_x h_xy
    rw [List.splitOn, List.splitOn, List.cons_append, List.splitOnP_cons_eq_if_modifyHead,
      List.splitOnP_cons_eq_if_modifyHead, h_x, h_xy]
    split_ifs
    · exact ⟨[] :: init, last, rfl, rfl⟩
    · cases init with
      | nil => exact ⟨[], c :: last, rfl, rfl⟩
      | cons part init => exact ⟨(c :: part) :: init, last, rfl, rfl⟩

theorem count_slash (h : ∀ c ∈ t, c.isDigit = true) : t.count '/' = 0 :=
  List.count_eq_zero.mpr fun h_mem => absurd (h _ h_mem) (by decide)

theorem Base.spec (h : Base minVal maxVal t) : t.count '/' = 0 ∧ ∀ c ∈ t, c.toNat < 128 := by
  cases h with
  | any => exact ⟨by decide, fun c h_c => List.mem_singleton.mp h_c ▸ by decide⟩
  | value h => exact ⟨count_slash h.1, fun c h_c => (toNat_of_isDigit (h.1 c h_c)).1⟩
  | range h_s h_t =>
    refine ⟨by simp [List.count_append, count_slash h_s.1, count_slash h_t.1],
      fun c h_c => ?_⟩
    obtain h_c | h_c := List.mem_append.mp h_c
    · exact (toNat_of_isDigit (h_s.1 c h_c)).1
    · obtain rfl | h_c := List.mem_cons.mp h_c
      · decide
      · exact (toNat_of_isDigit (h_t.1 c h_c)).1

theorem Item.spec (h : Item minVal maxVal t) : t.count '/' ≤ 1 ∧ ∀ c ∈ t, c.toNat < 128 := by
  cases h with
  | plain h => exact ⟨h.spec.1.trans_le (Nat.zero_le _), h.spec.2⟩
  | step h h_ne h_s =>
    refine ⟨by simp [List.count_append, h.spec.1, count_slash h_s], fun c h_c => ?_⟩
    obtain h_c | h_c := List.mem_append.mp h_c
    · exact h.spec.2 c h_c
    · obtain rfl | h_c := List.mem_cons.mp h_c
      · decide
      · exact (toNat_of_isDigit (h_s c h_c)).1

theorem comma_notMem (h : isdigit env t = true) : ',' ∉ t := by
  intro h_mem
  rw [isdigit, Bool.and_eq_true] at h
  obtain h_digit | h_other := (Bool.or_eq_true _ _).mp (List.all_eq_true.mp h.2 ',' h_mem)
  · exact absurd h_digit (by decide)
  · exact absurd (env.other_ascii _ h_other) (by decide)

theorem mem_iff_part {c : Char} (h : c ≠ ',') : c ∈ t ↔ ∃ part ∈ t.splitOn ',', c ∈ part := by
  have h_split := @Find.infix_splitOnP_iff _ (· == ',') [c] (List.cons_ne_nil c [])
    (by simpa using h) t
  simp only [List.singleton_infix_iff] at h_split
  exact h_split

/-- **A field that is accepted** is well formed if it has one slash at most and is of ASCII. -/
theorem wellFormed_iff (h : validateCrontabField env name minVal maxVal t = .ok ()) :
    WellFormed minVal maxVal t ↔ (t.splitOn '/').length ≤ 2 ∧ ∀ c ∈ t, c.toNat < 128 := by
  obtain ⟨base, more, h_split⟩ := List.exists_cons_of_ne_nil (List.splitOnP_ne_nil (· == '/') t)
  replace h_split : t.splitOn '/' = base :: more := h_split
  have h_join : ['/'].intercalate (base :: more) = t := h_split ▸ List.intercalate_splitOn '/'
  have h_star : t = ['*'] → base = ['*'] ∧ more = [] := by
    rintro rfl
    exact (List.cons.inj h_split).imp Eq.symm Eq.symm
  have h_checked : checkStep env name t more.head? = .ok () ∧
      (base ≠ ['*'] →
        ∀ part ∈ base.splitOn ',', checkPart env name minVal maxVal part = .ok ()) := by
    unfold validateCrontabField at h
    split_ifs at h with h_t
    · obtain ⟨rfl, rfl⟩ := h_star h_t
      exact ⟨rfl, fun h_base => absurd rfl h_base⟩
    · dsimp only at h
      rw [h_split] at h
      obtain ⟨_, h_step, h⟩ := bind_eq_ok.mp h
      refine ⟨by cases more <;> exact h_step, fun h_base => ?_⟩
      exact forM_eq_ok.mp ((if_neg h_base).symm.trans h)
  have h_digits : ∀ step ∈ more.head?, isdigit env step = true := by
    intro step h_step
    obtain ⟨h_step', -⟩ := h_checked
    rw [Option.mem_def.mp h_step, checkStep] at h_step'
    split_ifs at h_step' with h_digit
    exact h_digit
  rw [h_split]
  constructor
  · intro h_items
    refine ⟨?_, fun c h_c => ?_⟩
    · -- a step has no comma, so two slashes around it stand in one item
      match more with
      | [] => exact Nat.le_succ 1
      | [_] => exact le_rfl
      | step :: last :: more =>
        have h_infix : ('/' :: step ++ ['/']) <:+: t :=
          ⟨base, ['/'].intercalate (last :: more), by simpa [List.intercalate] using h_join⟩
        have h_comma := comma_notMem (h_digits step rfl)
        rw [@Find.infix_splitOnP_iff _ (· == ',') _ (by simp) (by
          intro x h_x
          rw [beq_eq_false_iff_ne]
          rintro rfl
          simp [h_comma] at h_x)] at h_infix
        obtain ⟨item, h_item, h_in⟩ := h_infix
        have h_count := (h_in.sublist.count_le '/').trans (h_items item h_item).spec.1
        rw [List.cons_append, List.count_cons, List.count_append] at h_count
        simp at h_count
    · by_cases h_comma : c = ','
      · rw [h_comma]
        decide
      · obtain ⟨item, h_item, h_in⟩ := (mem_iff_part h_comma).mp h_c
        exact (h_items item h_item).spec.2 c h_in
  · rintro ⟨h_length, h_ascii⟩
    have h_base : ∀ c ∈ base, c.toNat < 128 := fun c h_c =>
      h_ascii c (h_join ▸ by cases more <;> simp [List.intercalate, h_c])
    have h_parts : ∀ part ∈ base.splitOn ',', Base minVal maxVal part := by
      intro part h_part
      by_cases h_any : base = ['*']
      · rw [h_any] at h_part
        rw [List.mem_singleton.mp h_part]
        exact .any
      · refine of_checkPart (h_checked.2 h_any part h_part) fun c h_c => ?_
        by_cases h_comma : c = ','
        · rw [h_comma]
          decide
        · exact h_base c ((mem_iff_part h_comma).mpr ⟨part, h_part, h_c⟩)
    match more with
    | [] =>
      have h_t : base = t := by simpa [List.intercalate] using h_join
      exact fun item h_item => .plain (h_parts item (h_t ▸ h_item))
    | [step] =>
      have h_t : base ++ '/' :: step = t := by simpa [List.intercalate] using h_join
      have h_step := h_digits step rfl
      obtain ⟨h_ne, h_all⟩ := of_isdigit h_step fun c h_c => h_ascii c (h_t ▸ by simp [h_c])
      have h_comma : ',' ∉ '/' :: step := by simp [comma_notMem h_step]
      obtain ⟨init, last, h_init, h_last⟩ := splitOn_append h_comma base
      rw [h_init] at h_parts
      intro item h_item
      rw [← h_t, h_last] at h_item
      obtain h_item | h_item := List.mem_append.mp h_item
      · exact .plain (h_parts item (List.mem_append_left _ h_item))
      · rw [List.mem_singleton.mp h_item]
        exact .step (h_parts last (by simp)) h_ne h_all
    | _ :: _ :: _ => simp at h_length

end Fields

/-! ### The times -/

section Times

/-- A text of ASCII without a line end. -/
def Clean (t : Text) : Prop := ∀ c ∈ t, c.toNat < 128 ∧ c ≠ '\n'

theorem exists_digitChar {c : Char} (h : c.isDigit = true) : ∃ d < 10, c = Nat.digitChar d := by
  have h_range := Char.isDigit_iff_toNat.mp h
  have h_low : '0'.toNat = 48 := rfl
  have h_high : '9'.toNat = 57 := rfl
  refine ⟨c.toNat - 48, by omega, Char.toNat_inj.mp ?_⟩
  rw [Nat.toNat_digitChar_of_lt_ten (by omega)]
  omega

/-- The text of a time that is accepted. -/
theorem matchTime_cases {t : Text} (h : matchTime t = true) : ∃ h₁ h₂ m₁ m₂ rest,
    t = h₁ :: h₂ :: ':' :: m₁ :: m₂ :: rest ∧
      (h₁ ∈ ['0', '1'] ∧ (digitValue h₂).isSome ∨ h₁ = '2' ∧ h₂ ∈ ['0', '1', '2', '3']) ∧
      m₁ ∈ ['0', '1', '2', '3', '4', '5'] ∧ (digitValue m₂).isSome ∧
        (rest = [] ∨ rest = ['\n']) := by
  unfold matchTime at h
  split at h
  · rename_i h₁ h₂ m₁ m₂ rest
    simp only [Bool.and_eq_true, Bool.or_eq_true, decide_eq_true_eq, List.contains_iff_mem] at h
    refine ⟨h₁, h₂, m₁, m₂, rest, rfl, h.1.1.imp_left fun h_h => ⟨?_, h_h.2⟩, h.1.2.1, h.1.2.2, h.2⟩
    obtain rfl | rfl := h_h.1 <;> decide
  · cases h

/-- The entry of a time, as it is read off its places. -/
def entryOf (dayOfWeek dayOfMonth : Text) : Value → Crontab
  | .str s => ⟨unpad (s.toList.drop 3), unpad (s.toList.take 2), dayOfWeek, dayOfMonth, ['*']⟩
  | _ => ⟨[], [], dayOfWeek, dayOfMonth, ['*']⟩

theorem digit_ne_colon {c : Char} (h : (digitValue c).isSome = true) : c ≠ ':' := by
  rintro rfl
  exact absurd h (by decide)

theorem splitOn_time {t : Text} (h : matchTime t = true) :
    t.splitOn ':' = [t.take 2, t.drop 3] := by
  obtain ⟨h₁, h₂, m₁, m₂, rest, rfl, h_h, h_m₁, h_m₂, h_rest⟩ := matchTime_cases h
  have h_hour : ':' ∉ [h₁, h₂] := by
    obtain ⟨h_h₁, h_h₂⟩ | ⟨rfl, h_h₂⟩ := h_h
    · have := digit_ne_colon h_h₂
      have h_ne : h₁ ≠ ':' := by rintro rfl; exact absurd h_h₁ (by decide)
      simp [h_ne.symm, this.symm]
    · have h_ne : h₂ ≠ ':' := by rintro rfl; exact absurd h_h₂ (by decide)
      simp [h_ne.symm]
  have h_minute : ':' ∉ m₁ :: m₂ :: rest := by
    have h_ne₂ := digit_ne_colon h_m₂
    have h_ne₁ : m₁ ≠ ':' := by rintro rfl; exact absurd h_m₁ (by decide)
    obtain rfl | rfl := h_rest <;> simp [h_ne₁.symm, h_ne₂.symm]
  show ([h₁, h₂] ++ ':' :: (m₁ :: m₂ :: rest)).splitOn ':' = _
  rw [List.splitOn_append_cons_self_of_not_mem h_hour, List.splitOn_eq_singleton h_minute]
  rfl

theorem mem_unpad {part : Text} {c : Char} (h : c ∈ part) : c = '0' ∨ c ∈ unpad part := by
  by_cases h_zero : c = '0'
  · exact .inl h_zero
  · right
    have h_drop : c ∈ part.dropWhile (· = '0') := by
      rw [← @List.takeWhile_append_dropWhile _ (· = '0') part] at h
      refine (List.mem_append.mp h).resolve_left fun h_take => h_zero ?_
      simpa using List.all_eq_true.mp List.all_takeWhile c h_take
    rw [unpad, if_neg (List.ne_nil_of_mem h_drop)]
    exact h_drop

/-- A time of ASCII is that of a clock. -/
theorem exists_clock {t : Text} (h : matchTime t = true) (h_clean : Clean t) :
    ∃ h < 24, ∃ m < 60, t = twoDigits h ++ ':' :: twoDigits m := by
  obtain ⟨h₁, h₂, m₁, m₂, rest, rfl, h_h, h_m₁, h_m₂, h_rest⟩ := matchTime_cases h
  have h_digit : ∀ c ∈ [h₂, m₂], (digitValue c).isSome = true → ∃ d < 10, c = Nat.digitChar d :=
    fun c h_c h_some => exists_digitChar (isDigit_of_digitValue h_some
      (h_clean c (by simp only [List.mem_cons, List.not_mem_nil, or_false] at h_c ⊢; tauto)).1)
  have h_two : ∀ a < 10, ∀ b < 10, twoDigits (10 * a + b) = [Nat.digitChar a, Nat.digitChar b] := by
    intro a _ b _
    rw [twoDigits, show (10 * a + b) / 10 = a by omega, show (10 * a + b) % 10 = b by omega]
  have h_nil : rest = [] := h_rest.resolve_right fun h_line =>
    (h_clean '\n' (by simp [h_line])).2 rfl
  obtain ⟨d, h_d, rfl⟩ := h_digit m₂ (by simp) h_m₂
  have h_tens : ['0', '1', '2', '3', '4', '5'] = (List.range 6).map Nat.digitChar := by decide
  obtain ⟨a, h_a, rfl⟩ := List.mem_map.mp (h_tens ▸ h_m₁)
  replace h_a := List.mem_range.mp h_a
  have h_hour : ∃ x < 24, [h₁, h₂] = twoDigits x := by
    obtain ⟨h_h₁, h_h₂⟩ | ⟨rfl, h_h₂⟩ := h_h
    · obtain ⟨e, h_e, rfl⟩ := h_digit h₂ (by simp) h_h₂
      have h_first : ['0', '1'] = (List.range 2).map Nat.digitChar := by decide
      obtain ⟨b, h_b, rfl⟩ := List.mem_map.mp (h_first ▸ h_h₁)
      replace h_b := List.mem_range.mp h_b
      exact ⟨10 * b + e, by omega, (h_two b (by omega) e h_e).symm⟩
    · have h_last : ['0', '1', '2', '3'] = (List.range 4).map Nat.digitChar := by decide
      obtain ⟨e, h_e, rfl⟩ := List.mem_map.mp (h_last ▸ h_h₂)
      replace h_e := List.mem_range.mp h_e
      exact ⟨10 * 2 + e, by omega, (h_two 2 (by omega) e (by omega)).symm⟩
  obtain ⟨x, h_x, h_eq⟩ := h_hour
  refine ⟨x, h_x, 10 * a + d, by omega, ?_⟩
  rw [h_nil, ← h_eq, h_two a (by omega) d h_d]
  rfl

theorem numerals_twoDigits : ∀ n < 60, unpad (twoDigits n) = decimal n ∧
    numbers (decimal n) = [n] ∧ decimal n ≠ ['*'] := by
  decide +kernel

theorem hits_decimal {n k : ℕ} (h : n < 60) : hits (decimal n) k = true ↔ k = n := by
  obtain ⟨-, h_numbers, h_star⟩ := numerals_twoDigits n h
  rw [hits, h_numbers, decide_eq_false h_star, Bool.false_or, List.contains_iff_mem,
    List.mem_singleton]

theorem timeOf_clock {h m : ℕ} (h_h : h < 24) (h_m : m < 60) :
    timeOf (twoDigits h ++ ':' :: twoDigits m) = some (h, m) := by
  have h_digit : ∀ d < 10, digitValue (Nat.digitChar d) = some d := by decide
  simp only [timeOf, twoDigits, List.cons_append, List.nil_append, bind, pure, Option.bind,
    h_digit (h / 10) (by omega), h_digit (h % 10) (by omega), h_digit (m / 10) (by omega),
    h_digit (m % 10) (by omega)]
  rw [Nat.div_add_mod, Nat.div_add_mod]

variable (dow dom : Text) {s : String}

/-- What is read off a clean time. -/
theorem exists_entry (h : matchTime s.toList = true) (h_clean : Clean s.toList) :
    ∃ x < 24, ∃ y < 60, s.toList = twoDigits x ++ ':' :: twoDigits y ∧
      timeOf s.toList = some (x, y) ∧
      entryOf dow dom (.str s) = ⟨decimal y, decimal x, dow, dom, ['*']⟩ := by
  obtain ⟨x, h_x, y, h_y, h_eq⟩ := exists_clock h h_clean
  refine ⟨x, h_x, y, h_y, h_eq, h_eq ▸ timeOf_clock h_x h_y, ?_⟩
  rw [entryOf, h_eq, ← (numerals_twoDigits x (by omega)).1, ← (numerals_twoDigits y h_y).1]
  rfl

/-- The hour and the minute of an entry are numerals exactly if its time is clean. -/
theorem numerals_iff (h : matchTime s.toList = true) :
    ((∃ x < 24, (entryOf dow dom (.str s)).hour = decimal x) ∧
      ∃ y < 60, (entryOf dow dom (.str s)).minute = decimal y) ↔ Clean s.toList := by
  constructor
  · rintro ⟨⟨x, -, h_x⟩, y, -, h_y⟩ c h_c
    have h_part : ∀ {part : Text} {n : ℕ}, unpad part = decimal n → c ∈ part →
        c.toNat < 128 ∧ c ≠ '\n' := by
      intro part n h_n h_part
      obtain rfl | h_mem := mem_unpad h_part
      · decide
      · exact toNat_of_isDigit (isDigit_of_mem_decimal (h_n ▸ h_mem))
    obtain ⟨h₁, h₂, m₁, m₂, rest, h_eq, -⟩ := matchTime_cases h
    rw [entryOf, h_eq] at h_x h_y
    rw [h_eq] at h_c
    obtain h_hour | rfl | h_minute : c ∈ [h₁, h₂] ∨ c = ':' ∨ c ∈ m₁ :: m₂ :: rest := by
      simp only [List.mem_cons, List.not_mem_nil, or_false] at h_c ⊢
      tauto
    · exact h_part h_x h_hour
    · decide
    · exact h_part h_y h_minute
  · intro h_clean
    obtain ⟨x, h_x, y, h_y, -, -, h_entry⟩ := exists_entry dow dom h h_clean
    rw [h_entry]
    exact ⟨⟨x, h_x, rfl⟩, y, h_y, rfl⟩

theorem fires_iff (t : Moment) {x y : ℕ} (h_x : x < 24) (h_y : y < 60) :
    (⟨decimal y, decimal x, dow, dom, ['*']⟩ : Crontab).fires t = true ↔
      (t.hour = x ∧ t.minute = y) ∧ hits dow t.dayOfWeek = true ∧ hits dom t.dayOfMonth = true := by
  have h_any : hits ['*'] t.month = true := rfl
  simp only [Crontab.fires, Bool.and_eq_true, h_any, hits_decimal h_y,
    hits_decimal (show x < 60 by omega)]
  tauto

variable {config : Config} {xs : List Value} {L : ℕ → ℕ → Prop}
  (h_xs : ∀ v ∈ xs, ∃ s, v = .str s ∧ matchTime s.toList = true)

include h_xs

theorem generateTimes_eq (h_entries : entries config "time" = xs) :
    generateTimes dow dom config =
      .ok (xs.zipIdx.map fun x => (toString x.2, entryOf dow dom x.1)) := by
  rw [generateTimes, h_entries]
  refine List.mapM_eq_ok fun ⟨v, i⟩ h_mem => ?_
  obtain ⟨s, rfl, h_s⟩ := h_xs v (List.fst_mem_of_mem_zipIdx h_mem)
  dsimp only
  rw [splitOn_time h_s]
  rfl

/-- **The entries of the times** are faithful where these are clean and different, and the days
are hit that are listed. -/
theorem faithful_iff (h_ne : xs ≠ []) (h_L : ∃ w d, L w d)
    (h_listed : ∀ t, Listed config t ↔
      (∃ s, .str s ∈ xs ∧ timeOf s.toList = some (t.hour, t.minute)) ∧ L t.dayOfWeek t.dayOfMonth) :
    Faithful config (xs.zipIdx.map fun x => (toString x.2, entryOf dow dom x.1)) ↔
      (xs.Nodup ∧ ∀ s, .str s ∈ xs → Clean s.toList) ∧
        ∀ w d, hits dow w = true ∧ hits dom d = true ↔ L w d := by
  set es := xs.zipIdx.map fun x => (toString x.2, entryOf dow dom x.1) with h_es
  have h_entries : es.map Prod.snd = xs.map (entryOf dow dom) := by
    rw [h_es, List.map_map]
    conv_rhs => rw [← @List.zipIdx_map_fst _ 0 xs, List.map_map]
    rfl
  have h_match : ∀ {s}, .str s ∈ xs → matchTime s.toList = true := by
    intro s h_s
    obtain ⟨s', h_eq, h_s'⟩ := h_xs _ h_s
    exact Value.str.inj h_eq ▸ h_s'
  have h_mem : ∀ {P : Crontab → Prop}, (∀ e ∈ es, P e.2) ↔
      ∀ s, .str s ∈ xs → P (entryOf dow dom (.str s)) := by
    intro P
    have h_all : (∀ e ∈ es, P e.2) ↔ ∀ e ∈ es.map Prod.snd, P e := List.forall_mem_map.symm
    rw [h_all, h_entries, List.forall_mem_map]
    refine ⟨fun h s h_s => h _ h_s, fun h v h_v => ?_⟩
    obtain ⟨s, rfl, -⟩ := h_xs v h_v
    exact h s h_v
  have h_numerals := @h_mem fun e => (∃ x < 24, e.hour = decimal x) ∧ ∃ y < 60, e.minute = decimal y
  have h_once : (es.Pairwise fun e e' => ∀ t, ¬(e.2.fires t = true ∧ e'.2.fires t = true)) ↔
      xs.Pairwise fun v w => ∀ t, ¬((entryOf dow dom v).fires t = true ∧
        (entryOf dow dom w).fires t = true) := by
    have h_snd := @List.pairwise_map _ _ Prod.snd
      (fun e e' : Crontab => ∀ t, ¬(e.fires t = true ∧ e'.fires t = true)) es
    rw [h_entries, List.pairwise_map] at h_snd
    exact h_snd.symm
  have h_fires : (∀ s, .str s ∈ xs → Clean s.toList) → ∀ t, (∃ e ∈ es, e.2.fires t = true) ↔
      (∃ s, .str s ∈ xs ∧ timeOf s.toList = some (t.hour, t.minute)) ∧
        hits dow t.dayOfWeek = true ∧ hits dom t.dayOfMonth = true := by
    intro h_clean t
    have h_exists := not_congr (@h_mem fun e => ¬e.fires t = true)
    simp only [not_forall, not_not, exists_prop] at h_exists
    rw [h_exists, ← exists_and_right]
    refine exists_congr fun s => ?_
    rw [and_assoc]
    refine and_congr_right fun h_s => ?_
    obtain ⟨x, h_x, y, h_y, -, h_time, h_entry⟩ :=
      exists_entry dow dom (h_match h_s) (h_clean s h_s)
    rw [h_entry, fires_iff dow dom t h_x h_y, h_time, Option.some_inj, Prod.mk.injEq, eq_comm,
      @eq_comm _ y]
  constructor
  · rintro ⟨h_numeral, h_exact, h_apart⟩
    have h_clean : ∀ s, .str s ∈ xs → Clean s.toList := fun s h_s =>
      (numerals_iff dow dom (h_match h_s)).mp (h_numerals.mp h_numeral s h_s)
    have h_days : ∀ w d, hits dow w = true ∧ hits dom d = true ↔ L w d := by
      intro w d
      obtain ⟨v, h_v⟩ := List.exists_mem_of_ne_nil xs h_ne
      obtain ⟨s, rfl, h_s⟩ := h_xs v h_v
      obtain ⟨x, -, y, -, -, h_time, -⟩ := exists_entry dow dom h_s (h_clean s h_v)
      have h_both := (h_fires h_clean ⟨y, x, d, 1, w⟩).symm.trans
        ((h_exact _).trans (h_listed _))
      exact and_congr_right_iff.mp h_both ⟨s, h_v, h_time⟩
    refine ⟨⟨(h_once.mp h_apart).imp_of_mem fun {v w} h_v _ h_not => ?_, h_clean⟩, h_days⟩
    rintro rfl
    obtain ⟨s, rfl, h_s⟩ := h_xs v h_v
    obtain ⟨x, h_x, y, h_y, -, -, h_entry⟩ := exists_entry dow dom h_s (h_clean s h_v)
    obtain ⟨w, d, h_wd⟩ := h_L
    have h_fire : (entryOf dow dom (.str s)).fires ⟨y, x, d, 1, w⟩ = true := by
      rw [h_entry, fires_iff dow dom _ h_x h_y]
      exact ⟨⟨rfl, rfl⟩, (h_days w d).mpr h_wd⟩
    exact h_not _ ⟨h_fire, h_fire⟩
  · rintro ⟨⟨h_nodup, h_clean⟩, h_days⟩
    refine ⟨h_numerals.mpr fun s h_s => (numerals_iff dow dom (h_match h_s)).mpr (h_clean s h_s),
      fun t => by rw [h_fires h_clean t, h_listed t, h_days],
      h_once.mpr (List.Pairwise.imp_of_mem (fun {v w} h_v h_w h_ne t h_both => h_ne ?_) h_nodup)⟩
    have h_same : ∀ v ∈ xs, (entryOf dow dom v).fires t = true →
        v = .str (String.ofList (twoDigits t.hour ++ ':' :: twoDigits t.minute)) := by
      intro v h_v h_fire
      obtain ⟨s, rfl, h_s⟩ := h_xs v h_v
      obtain ⟨x, h_x, y, h_y, h_eq, -, h_entry⟩ := exists_entry dow dom h_s (h_clean s h_v)
      rw [h_entry, fires_iff dow dom t h_x h_y] at h_fire
      rw [h_fire.1.1, h_fire.1.2, ← h_eq, String.ofList_toList]
    rw [h_same v h_v h_both.1, h_same w h_w h_both.2]

end Times

/-! ### The days -/

/-- What `sorted` and `join` make of numbers is read back, unless one is a truth value. -/
theorem hits_join {xs : List Value} (h_ne : xs ≠ [])
    (h_xs : ∀ v ∈ xs, ∃ n, number v = some n ∧ 0 ≤ n ∧ n < 32) (k : ℕ) :
    hits (join xs) k = true ↔ (∀ b, .bool b ∉ xs) ∧ ∃ v ∈ xs, number v = some ↑k := by
  set sorted := xs.mergeSort fun v w => (number v).getD 0 ≤ (number w).getD 0 with h_sorted
  have h_mem : ∀ v, v ∈ sorted ↔ v ∈ xs := fun v => List.mem_mergeSort
  have h_decimal : ∀ n < 32, (decimal n).all Char.isDigit = true ∧ natOfText (decimal n) = some n ∧
      ',' ∉ decimal n ∧ decimal n ≠ ['*'] := by decide +kernel
  have h_text : ∀ v ∈ sorted, (∃ b, v = .bool b ∧ (text v).all Char.isDigit = false ∧
      ',' ∉ text v ∧ text v ≠ ['*']) ∨
        ∃ n : ℕ, n < 32 ∧ v = .int n ∧ text v = decimal n := by
    intro v h_v
    obtain ⟨n, h_n, h_low, h_high⟩ := h_xs v ((h_mem v).mp h_v)
    cases v with
    | bool b => cases b <;> exact .inl ⟨_, rfl, by decide, by decide, by decide⟩
    | int i =>
      obtain rfl := Option.some.inj h_n
      lift i to ℕ using h_low
      exact .inr ⟨i, by omega, rfl, rfl⟩
    | _ => cases h_n
  have h_parts : (join xs).splitOn ',' = sorted.map text := by
    refine List.splitOn_intercalate ',' (fun part h_part => ?_) ?_
    · obtain ⟨v, h_v, rfl⟩ := List.mem_map.mp h_part
      obtain ⟨b, -, -, h_comma, -⟩ | ⟨n, h_n, -, h_eq⟩ := h_text v h_v
      · exact h_comma
      · exact h_eq ▸ (h_decimal n h_n).2.2.1
    · obtain ⟨v, h_v⟩ := List.exists_mem_of_ne_nil xs h_ne
      exact List.ne_nil_of_mem (List.mem_map_of_mem ((h_mem v).mpr h_v))
  have h_star : join xs ≠ ['*'] := by
    intro h_star
    rw [h_star] at h_parts
    have h_mem : ['*'] ∈ sorted.map text := h_parts ▸ List.mem_singleton_self _
    obtain ⟨v, h_v, h_eq⟩ := List.mem_map.mp h_mem
    obtain ⟨b, -, -, -, h_text⟩ | ⟨n, h_n, -, h_text⟩ := h_text v h_v
    · exact h_text h_eq
    · exact (h_decimal n h_n).2.2.2 (h_text ▸ h_eq)
  have h_all : ((sorted.map text).all fun part => part.all Char.isDigit && (natOfText part).isSome)
      = true ↔ ∀ b, .bool b ∉ xs := by
    simp only [List.all_map, List.all_eq_true, Function.comp_apply, Bool.and_eq_true]
    constructor
    · intro h b h_b
      obtain ⟨_, -, h_digit, -⟩ | ⟨n, -, h_eq, -⟩ := h_text _ ((h_mem _).mpr h_b)
      · exact absurd (h _ ((h_mem _).mpr h_b)).1 (by simpa using h_digit)
      · cases h_eq
    · intro h v h_v
      obtain ⟨b, rfl, -⟩ | ⟨n, h_n, -, h_eq⟩ := h_text v h_v
      · exact absurd ((h_mem _).mp h_v) (h b)
      · rw [h_eq]
        exact ⟨List.all_eq_true.mp (h_decimal n h_n).1 , by rw [(h_decimal n h_n).2.1]; rfl⟩
  rw [hits, decide_eq_false h_star, Bool.false_or, List.contains_iff_mem, numbers, h_parts]
  split_ifs with h_read
  · have h_bool := h_all.mp h_read
    simp only [List.mem_filterMap, List.mem_map, exists_exists_and_eq_and]
    refine ((exists_congr fun v => and_congr_right fun h_v => ?_).trans
      (exists_congr fun v => and_congr_left fun _ => h_mem v)).trans (and_iff_right h_bool).symm
    obtain ⟨b, rfl, -⟩ | ⟨n, h_n, rfl, h_eq⟩ := h_text v h_v
    · exact absurd ((h_mem _).mp h_v) (h_bool b)
    · rw [h_eq, (h_decimal n h_n).2.1, number, Option.some_inj, Option.some_inj, Int.natCast_inj]
  · exact iff_of_false List.not_mem_nil fun h => h_read (h_all.mpr h.1)

/-! ### A configuration that is accepted -/

section Accepted

variable {env : Env} {config : Config}

theorem of_checkList {key required notList : String} {f : Value → Except String Unit}
    (h : (if (Value.lookup config key).truthy = false then .error required
      else match Value.lookup config key with
        | .list xs => xs.forM f
        | _ => .error notList) = .ok ()) :
    entries config key ≠ [] ∧ ∀ v ∈ entries config key, f v = .ok () := by
  split_ifs at h with h_falsy
  split at h
  · rename_i values h_values
    rw [entries, h_values]
    rw [h_values] at h_falsy
    refine ⟨?_, forM_eq_ok.mp h⟩
    rintro rfl
    exact h_falsy rfl
  · cases h

theorem of_validateTime (h : validateTime env config = .ok ()) : entries config "time" ≠ [] ∧
    ∀ v ∈ entries config "time", ∃ s, v = .str s ∧ matchTime s.toList = true := by
  obtain ⟨h_ne, h_each⟩ := of_checkList h
  refine ⟨h_ne, fun v h_v => ?_⟩
  have h_time := h_each v h_v
  split at h_time
  · rename_i s
    split_ifs at h_time with h_match
    exact ⟨s, rfl, h_match⟩
  · cases h_time

theorem of_validateNumbers {key kind frequency range : String} {lo hi : ℤ}
    (h : validateNumbers env key kind frequency range lo hi config = .ok ()) :
    entries config key ≠ [] ∧
      ∀ v ∈ entries config key, ∃ n, number v = some n ∧ lo ≤ n ∧ n ≤ hi := by
  obtain ⟨h_ne, h_each⟩ := of_checkList h
  refine ⟨h_ne, fun v h_v => ?_⟩
  have h_number := h_each v h_v
  split at h_number
  · cases h_number
  · rename_i n h_n
    split_ifs at h_number with h_range
    exact ⟨n, h_n, by omega, by omega⟩

theorem of_validateCrontab (h : validateCrontab env config = .ok ()) :
    (fields config).length = 5 ∧ ∀ x ∈ (fields config).zip fieldSpecs,
      validateCrontabField env x.2.1 x.2.2.1 x.2.2.2 x.1 = .ok () := by
  unfold validateCrontab at h
  dsimp only at h
  split at h
  · cases h
  · split at h
    · split at h
      · cases h
      · rename_i h_length
        exact ⟨not_not.mp h_length, forM_eq_ok.mp h⟩
    · cases h

/-- The frequencies but `crontab`, by the days they hit and the days that are listed. -/
theorem right_times (dow dom : Text) {L : ℕ → ℕ → Prop}
    (h_frequency : Value.lookup config "frequency" ≠ .str "crontab")
    (h_generate : generate config = generateTimes dow dom config)
    (h_time : validateTime env config = .ok ()) (h_L : ∃ w d, L w d)
    (h_listed : ∀ t, Listed config t ↔
      (∃ s, .str s ∈ entries config "time" ∧ timeOf s.toList = some (t.hour, t.minute)) ∧
        L t.dayOfWeek t.dayOfMonth)
    (h_days : (∀ w d, hits dow w = true ∧ hits dom d = true ↔ L w d) ↔
      (Value.lookup config "frequency" = .str "weekly" →
        ∀ b, .bool b ∉ entries config "weekdays") ∧
      (Value.lookup config "frequency" = .str "monthly" → ∀ b, .bool b ∉ entries config "days")) :
    Right config ↔ Regular config := by
  obtain ⟨h_ne, h_xs⟩ := of_validateTime h_time
  have h_es := h_generate.trans (generateTimes_eq dow dom h_xs rfl)
  have h_faithful := (faithful_iff dow dom h_xs h_ne h_L h_listed).trans (and_congr_right' h_days)
  constructor
  · intro h
    obtain ⟨es, h_eq, h_es'⟩ := h.times h_frequency
    rw [← Except.ok.inj (h_eq.symm.trans h_es)] at h_faithful
    obtain ⟨h_times, h_weekdays, h_monthly⟩ := h_faithful.mp h_es'
    exact ⟨fun h_eq => absurd h_eq h_frequency, fun _ => h_times, h_weekdays, h_monthly⟩
  · exact fun h => ⟨fun h_eq => absurd h_eq h_frequency, fun _ => ⟨_, h_es,
      h_faithful.mpr ⟨h.times h_frequency, h.weekdays, h.days⟩⟩⟩

/-- The days of a list are hit that are listed, exactly if there is no truth value among them. -/
theorem hits_days_iff {xs : List Value} (h_ne : xs ≠ [])
    (h_xs : ∀ v ∈ xs, ∃ n, number v = some n ∧ 0 ≤ n ∧ n < 32) :
    (∃ k : ℕ, ∃ v ∈ xs, number v = some ↑k) ∧
      ((∀ k : ℕ, hits (join xs) k = true ↔ ∃ v ∈ xs, number v = some ↑k) ↔
        ∀ b, .bool b ∉ xs) := by
  obtain ⟨v, h_v⟩ := List.exists_mem_of_ne_nil xs h_ne
  obtain ⟨n, h_n, h_low, -⟩ := h_xs v h_v
  lift n to ℕ using h_low
  refine ⟨⟨n, v, h_v, h_n⟩, fun h => ?_, fun h k => ?_⟩
  · exact ((hits_join h_ne h_xs n).mp ((h n).mpr ⟨v, h_v, h_n⟩)).1
  · rw [hits_join h_ne h_xs k]
    exact and_iff_right h

/-- **Schedules.** A configuration that is accepted is right exactly if it is regular. -/
theorem right_iff (env : Env) (config : Config) (h : validate env config = .ok ()) :
    Right config ↔ Regular config := by
  have h_any : ∀ k, hits ['*'] k = true := fun _ => rfl
  unfold validate at h
  dsimp only at h
  split_ifs at h
  split at h
  · rename_i h_frequency
    obtain ⟨h_length, h_fields⟩ := of_validateCrontab h
    have h_each : (∀ x ∈ (fields config).zip fieldSpecs, WellFormed x.2.2.1 x.2.2.2 x.1) ↔
        ∀ field ∈ fields config, (field.splitOn '/').length ≤ 2 ∧ ∀ c ∈ field, c.toNat < 128 := by
      have h_fst : ((fields config).zip fieldSpecs).map Prod.fst = fields config :=
        List.map_fst_zip (h_length.trans_le le_rfl)
      conv_rhs => rw [← h_fst, List.forall_mem_map]
      exact forall₂_congr fun x h_x => wellFormed_iff (h_fields x h_x)
    constructor
    · intro h
      refine ⟨fun h_eq => h_each.mp (h.crontab h_eq).2, fun h_ne => absurd h_frequency h_ne,
        fun h_eq => ?_, fun h_eq => ?_⟩ <;>
        exact absurd (h_eq.symm.trans h_frequency) (by simp)
    · exact fun h => ⟨fun h_eq => ⟨h_length, h_each.mpr (h.crontab h_eq)⟩,
        fun h_ne => absurd h_frequency h_ne⟩
  · rename_i h_frequency
    refine right_times ['*'] ['*'] (L := fun _ _ => True) (by simp [h_frequency])
      (by rw [generate, h_frequency]; rfl) h ⟨0, 0, trivial⟩ (fun t => ?_) ?_
    · exact ⟨fun h => ⟨h.time, trivial⟩, fun h => ⟨h.1, by simp [h_frequency],
        by simp [h_frequency]⟩⟩
    · simp [h_frequency, h_any]
  · rename_i h_frequency
    obtain ⟨_, h_time, h_weekdays⟩ := bind_eq_ok.mp h
    obtain ⟨h_ne, h_xs⟩ := of_validateNumbers h_weekdays
    obtain ⟨⟨k, h_k⟩, h_days⟩ := hits_days_iff h_ne fun v h_v =>
      (h_xs v h_v).imp fun n h_n => ⟨h_n.1, h_n.2.1, by omega⟩
    refine right_times (join (entries config "weekdays")) ['*'] (by simp [h_frequency])
      (L := fun w _ => ∃ v ∈ entries config "weekdays", number v = some ↑w)
      (by rw [generate, h_frequency]; rfl) h_time ⟨k, 0, h_k⟩ (fun t => ?_) ?_
    · exact ⟨fun h => ⟨h.time, h.weekday h_frequency⟩, fun h => ⟨h.1, fun _ => h.2,
        by simp [h_frequency]⟩⟩
    · rw [← h_days]
      simp [h_frequency, h_any]
  · rename_i h_frequency
    obtain ⟨_, h_time, h_monthly⟩ := bind_eq_ok.mp h
    obtain ⟨h_ne, h_xs⟩ := of_validateNumbers h_monthly
    obtain ⟨⟨k, h_k⟩, h_days⟩ := hits_days_iff h_ne fun v h_v =>
      (h_xs v h_v).imp fun n h_n => ⟨h_n.1, by omega, by omega⟩
    refine right_times ['*'] (join (entries config "days")) (by simp [h_frequency])
      (L := fun _ d => ∃ v ∈ entries config "days", number v = some ↑d)
      (by rw [generate, h_frequency]; rfl) h_time ⟨0, k, h_k⟩ (fun t => ?_) ?_
    · exact ⟨fun h => ⟨h.time, h.day h_frequency⟩, fun h => ⟨h.1, by simp [h_frequency],
        fun _ => h.2⟩⟩
    · rw [← h_days]
      simp [h_frequency, h_any]
  · cases h

/-- **Generation.** What is accepted raises nothing later, and leaves something to run. -/
theorem generate_of_validate (h : validate env config = .ok ()) :
    ∃ es, generate config = .ok es ∧ es ≠ [] := by
  have h_times (dow dom : Text) (h_time : validateTime env config = .ok ()) :
      ∃ es, generateTimes dow dom config = .ok es ∧ es ≠ [] := by
    obtain ⟨h_ne, h_xs⟩ := of_validateTime h_time
    exact ⟨_, generateTimes_eq dow dom h_xs rfl, by simpa using h_ne⟩
  unfold validate at h
  dsimp only at h
  split_ifs at h
  split at h
  on_goal 5 => cases h
  all_goals
    rename_i h_frequency
    rw [generate, h_frequency]
  · match h_fields : fields config, (of_validateCrontab h).1 with
    | [_, _, _, _, _], _ =>
      show ∃ es, generateCrontab config = .ok es ∧ es ≠ []
      rw [generateCrontab, h_fields]
      exact ⟨_, rfl, List.cons_ne_nil _ []⟩
  · exact h_times _ _ h
  · exact h_times _ _ (bind_eq_ok.mp h).choose_spec.1
  · exact h_times _ _ (bind_eq_ok.mp h).choose_spec.1

end Accepted

/-! ### A tail that is not looked at -/

def Env.ascii : Env where
  str _ := ""
  intError _ := ""
  isOtherDigit _ := false
  other_ascii _ h := absurd h (by decide)

/-- The step of the minutes is followed by another one. -/
def twoSteps : Config :=
  [("frequency", .str "crontab"), ("crontab_expression", .str "*/5/x * * * *")]

theorem not_right_twoSteps : validate .ascii twoSteps = .ok () ∧ ¬Right twoSteps := by
  have h_fields : fields twoSteps = ["*/5/x".toList, ['*'], ['*'], ['*'], ['*']] := by
    decide +kernel
  refine ⟨by decide +kernel, fun h => ?_⟩
  have h_minute := (h.crontab rfl).2 ("*/5/x".toList, "minute", 0, 59) (by rw [h_fields]; decide)
  have h_item : "*/5/x".toList ∈ "*/5/x".toList.splitOn ',' := by decide
  exact absurd (h_minute _ h_item).spec.1 (by decide)

def nine : Config := [("frequency", .str "daily"), ("time", .list [.str "09:00"])]

theorem generate_nine : ∃ es, generate nine = .ok es ∧ es ≠ [] :=
  generate_of_validate (show validate .ascii nine = .ok () by decide +kernel)

theorem right_nine : Right nine := by
  refine (right_iff .ascii nine (by decide +kernel)).mpr ⟨nofun, fun _ => ⟨?_, ?_⟩, nofun, nofun⟩
  · exact List.nodup_singleton _
  · rintro s h_s
    obtain rfl := Value.str.inj (List.mem_singleton.mp h_s)
    have h_all : "09:00".toList.all (fun c => c.toNat < 128 ∧ c ≠ '\n') = true := by decide
    exact fun c h_c => of_decide_eq_true (List.all_eq_true.mp h_all c h_c)

end Schedules
end OpsPilot
