import BkLite.Framework.Numerals
import Mathlib.Algebra.Order.Field.Rat
import Mathlib.Tactic.Ring

/-!
# Doubles

What `float()` reads and how doubles compare. The rounding of a rational number to a double is a
parameter (`Rounding`) of which its order, and what it leaves alone, is known. So the order of two
rounded numbers is that of the numbers, unless they are rounded to the same double
(`lt_round_iff`, `le_round_iff`).

`numeral` is the exact number that a text is a numeral of, before it is rounded.
-/

namespace Py

/-- A double. The two zeros are one. -/
inductive Double
  | fin (q : ℚ)
  | inf (neg : Bool)
  | nan
deriving DecidableEq

namespace Double

/-- `x < y`. -/
def lt : Double → Double → Bool
  | fin q, fin r => q < r
  | fin _, inf neg => !neg
  | inf neg, fin _ => neg
  | inf neg, inf neg' => neg && !neg'
  | nan, _ => false
  | _, nan => false

/-- `x <= y`. -/
def le : Double → Double → Bool
  | fin q, fin r => q ≤ r
  | fin _, inf neg => !neg
  | inf neg, fin _ => neg
  | inf neg, inf neg' => neg || !neg'
  | nan, _ => false
  | _, nan => false

/-- `abs(x)`. -/
def abs : Double → Double
  | fin q => fin |q|
  | inf _ => inf false
  | nan => nan

/-- `int(x)` of a double; `none` for the infinities and NaN. -/
def trunc : Double → Option ℤ
  | fin q => some (q.num.tdiv q.den)
  | _ => none

variable {x y : Double}

theorem eq_of_le (h : x.le y = true) (h' : y.le x = true) : x = y := by
  cases x <;> cases y <;> simp_all [le]
  · exact le_antisymm h h'
  · next a b => cases a <;> cases b <;> simp_all

theorem lt_iff : x.lt y = true ↔ x.le y = true ∧ y.le x = false := by
  cases x <;> cases y <;> simp [lt, le]
  · exact le_of_lt
  · next a b => cases a <;> cases b <;> simp

@[simp] theorem trunc_fin_int (m : ℤ) : (fin m).trunc = some m := by
  simp [trunc]

end Double

/-! ### Rounding -/

/-- The rounding of a number to the double next to it. -/
structure Rounding where
  round : ℚ → Double
  mono : ∀ {q r}, q ≤ r → (round q).le (round r) = true
  idem : ∀ {q r}, round q = .fin r → round r = .fin r
  int : ∀ {n : ℤ} {r}, round n = .fin r → ∃ m : ℤ, r = m
  finite : ∀ {q}, |q| ≤ 2 ^ 1023 → ∃ r, round q = .fin r

namespace Rounding

/-- Nothing is rounded. -/
def exact : Rounding where
  round q := .fin q
  mono h := decide_eq_true h
  idem _ := rfl
  int h := ⟨_, (Double.fin.inj h).symm⟩
  finite _ := ⟨_, rfl⟩

variable (R : Rounding) {q r : ℚ}

/-- `x - y`. -/
def sub : Double → Double → Double
  | .fin q, .fin r => R.round (q - r)
  | .fin _, .inf neg => .inf (!neg)
  | .inf neg, .fin _ => .inf neg
  | .inf neg, .inf neg' => if neg = neg' then .nan else .inf neg
  | .nan, _ => .nan
  | _, .nan => .nan

theorem lt_round_iff : (R.round q).lt (R.round r) = true ↔ q < r ∧ R.round q ≠ R.round r := by
  rw [Double.lt_iff]
  constructor
  · rintro ⟨h_le, h_not⟩
    refine ⟨lt_of_not_ge fun h_ge => ?_, fun h_eq => ?_⟩
    · rw [R.mono h_ge] at h_not
      exact absurd h_not (by decide)
    · rw [h_eq] at h_le h_not
      rw [h_le] at h_not
      exact absurd h_not (by decide)
  · rintro ⟨h_lt, h_ne⟩
    have h_le := R.mono h_lt.le
    refine ⟨h_le, Bool.eq_false_iff.mpr fun h_ge => h_ne (Double.eq_of_le h_le h_ge)⟩

theorem le_round_iff : (R.round q).le (R.round r) = true ↔ q ≤ r ∨ R.round q = R.round r := by
  constructor
  · intro h_le
    refine or_iff_not_imp_left.mpr fun h_not => ?_
    exact Double.eq_of_le h_le (R.mono (le_of_not_ge h_not))
  · rintro (h_le | h_eq)
    · exact R.mono h_le
    · rw [h_eq]
      exact R.mono le_rfl

end Rounding

/-! ### Reading -/

def natOfDigits (ds : List ℕ) : ℕ := ds.foldl (fun n d => 10 * n + d) 0

def optionalDigits (s : List Char) : Option (List ℕ) := if s = [] then some [] else digits s

/-- Digits with at most one point among them, `12`, `12.`, `.5` or `1.5`. -/
def mantissa (s : List Char) : Option ℚ :=
  let whole := s.takeWhile (· ≠ '.')
  match s.dropWhile (· ≠ '.') with
  | [] => (digits whole).map fun ds => natOfDigits ds
  | _ :: frac =>
    if whole = [] ∧ frac = [] then none
    else do
      let ds ← optionalDigits whole
      let es ← optionalDigits frac
      return natOfDigits (ds ++ es) / 10 ^ es.length

/-- What stands behind the `e` of a numeral. -/
def exponent : List Char → Option ℤ
  | '-' :: cs => (digits cs).map fun ds => -(natOfDigits ds : ℤ)
  | '+' :: cs => (digits cs).map fun ds => (natOfDigits ds : ℤ)
  | cs => (digits cs).map fun ds => (natOfDigits ds : ℤ)

def unsigned (s : List Char) : Option ℚ :=
  let m := s.takeWhile fun c => c ≠ 'e' && c ≠ 'E'
  match s.dropWhile fun c => c ≠ 'e' && c ≠ 'E' with
  | [] => mantissa m
  | _ :: e => do
    let q ← mantissa m
    let n ← exponent e
    return q * 10 ^ n

def numeral (s : List Char) : Option ℚ :=
  match strip s with
  | '-' :: cs => (unsigned cs).map (-·)
  | '+' :: cs => unsigned cs
  | cs => unsigned cs

/-- `inf`, `infinity` or `nan` in any case, with or without a sign. -/
def specialDouble (s : List Char) : Option Double :=
  let word (neg : Bool) (cs : List Char) : Option Double :=
    let lower := String.ofList (cs.map Char.toLower)
    if lower = "inf" ∨ lower = "infinity" then some (.inf neg)
    else if lower = "nan" then some .nan
    else none
  match strip s with
  | '-' :: cs => word true cs
  | '+' :: cs => word false cs
  | cs => word false cs

/-- `float(s)` of a text; `none` is `ValueError`. -/
def floatOfText (R : Rounding) (s : List Char) : Option Double :=
  match numeral s with
  | some q => some (R.round q)
  | none => specialDouble s

theorem floatOfText_of_numeral {R : Rounding} {s : List Char} {q : ℚ} (h : numeral s = some q) :
    floatOfText R s = some (R.round q) := by
  rw [floatOfText, h]

example : numeral "-1_0.25e1".toList = some (-205 / 2) := by decide +kernel

/-! ### Decimal numbers -/

def isDecimal (s : List Char) : Bool :=
  s.all (fun c => c.isDigit || c = '.' || c = '-' || c = '+') && (numeral s).isSome

/-- `s.isdigit()`, of the digits that `float` reads. -/
def isDigits (s : List Char) : Bool := !s.isEmpty && s.all fun c => (digitValue c).isSome

section Decimal

variable {s cs : List Char} {c : Char} {q : ℚ}

theorem exists_of_digits {ds : List ℕ} (h : digits cs = some ds) :
    ∃ c ∈ cs, (digitValue c).isSome := by
  cases cs with
  | nil =>
    unfold digits at h
    cases h
  | cons c cs =>
    refine ⟨c, List.mem_cons_self, Option.isSome_iff_ne_none.mpr fun h_none => ?_⟩
    unfold digits at h
    split at h <;> simp_all

theorem exists_of_mantissa (h : mantissa s = some q) : ∃ c ∈ s, (digitValue c).isSome := by
  have h_span : s.takeWhile (· ≠ '.') ++ s.dropWhile (· ≠ '.') = s :=
    List.takeWhile_append_dropWhile
  unfold mantissa at h
  dsimp only at h
  generalize s.takeWhile (· ≠ '.') = whole at h h_span
  generalize s.dropWhile (· ≠ '.') = rest at h h_span
  subst h_span
  cases rest with
  | nil =>
    obtain ⟨ds, h_digits, -⟩ := Option.map_eq_some_iff.mp h
    simpa using exists_of_digits h_digits
  | cons point frac =>
    dsimp only at h
    split_ifs at h with h_none
    obtain ⟨ds, h_ds, h⟩ := Option.bind_eq_some_iff.mp h
    obtain ⟨es, h_es, -⟩ := Option.bind_eq_some_iff.mp h
    unfold optionalDigits at h_ds h_es
    by_cases h_whole : whole = []
    · have h_frac : frac ≠ [] := fun h_frac => h_none ⟨h_whole, h_frac⟩
      rw [if_neg h_frac] at h_es
      obtain ⟨c, h_mem, h_c⟩ := exists_of_digits h_es
      exact ⟨c, List.mem_append_right _ (List.mem_cons_of_mem _ h_mem), h_c⟩
    · rw [if_neg h_whole] at h_ds
      obtain ⟨c, h_mem, h_c⟩ := exists_of_digits h_ds
      exact ⟨c, List.mem_append_left _ h_mem, h_c⟩

theorem exists_of_unsigned (h : unsigned s = some q) : ∃ c ∈ s, (digitValue c).isSome := by
  have h_span := @List.takeWhile_append_dropWhile _ (fun c : Char => c ≠ 'e' && c ≠ 'E') s
  have h_mantissa : ∃ q, mantissa (s.takeWhile fun c => c ≠ 'e' && c ≠ 'E') = some q := by
    unfold unsigned at h
    dsimp only at h
    split at h
    · exact ⟨q, h⟩
    · obtain ⟨q', h_q', -⟩ := Option.bind_eq_some_iff.mp h
      exact ⟨q', h_q'⟩
  obtain ⟨q', h_q'⟩ := h_mantissa
  obtain ⟨c, h_mem, h_c⟩ := exists_of_mantissa h_q'
  rw [← h_span]
  exact ⟨c, List.mem_append_left _ h_mem, h_c⟩

theorem mem_of_mem_strip (h : c ∈ strip s) : c ∈ s := by
  unfold strip at h
  have h_tail := (List.dropWhile_sublist _).subset (List.mem_reverse.mp h)
  exact (List.dropWhile_sublist _).subset (List.mem_reverse.mp h_tail)

theorem exists_of_numeral (h : numeral s = some q) : ∃ c ∈ s, (digitValue c).isSome := by
  have h_strip : ∃ c ∈ strip s, (digitValue c).isSome := by
    unfold numeral at h
    split at h
    · next cs h_eq =>
      obtain ⟨q', h_q', -⟩ := Option.map_eq_some_iff.mp h
      obtain ⟨c, h_mem, h_c⟩ := exists_of_unsigned h_q'
      exact ⟨c, h_eq ▸ List.mem_cons_of_mem _ h_mem, h_c⟩
    · next cs h_eq =>
      obtain ⟨c, h_mem, h_c⟩ := exists_of_unsigned h
      exact ⟨c, h_eq ▸ List.mem_cons_of_mem _ h_mem, h_c⟩
    · exact exists_of_unsigned h
  obtain ⟨c, h_mem, h_c⟩ := h_strip
  exact ⟨c, mem_of_mem_strip h_mem, h_c⟩

/-- **Without its points and dashes a decimal number is digits, unless it has a plus sign.** -/
theorem isDigits_filter_iff (h : isDecimal s = true) :
    isDigits (s.filter fun c => c ≠ '.' && c ≠ '-') = true ↔ '+' ∉ s := by
  obtain ⟨h_chars, h_some⟩ := Bool.and_eq_true_iff.mp h
  obtain ⟨q, h_q⟩ := Option.isSome_iff_exists.mp h_some
  obtain ⟨d, h_d, h_digit⟩ := exists_of_numeral h_q
  have h_ne : d ≠ '.' ∧ d ≠ '-' := by
    constructor <;> rintro rfl <;> exact absurd h_digit (by decide)
  have h_in : d ∈ s.filter fun c => c ≠ '.' && c ≠ '-' :=
    List.mem_filter.mpr ⟨h_d, by simp [h_ne]⟩
  unfold isDigits
  rw [Bool.and_eq_true_iff, List.all_eq_true]
  constructor
  · rintro ⟨-, h_all⟩ h_plus
    have h_read := h_all '+' (List.mem_filter.mpr ⟨h_plus, by decide⟩)
    exact absurd h_read (by decide)
  · intro h_plus
    refine ⟨by rw [List.isEmpty_eq_false_iff.mpr (List.ne_nil_of_mem h_in)]; rfl, fun c h_c => ?_⟩
    obtain ⟨h_mem, h_kept⟩ := List.mem_filter.mp h_c
    have h_char := List.all_eq_true.mp h_chars c h_mem
    have h_not : c ≠ '+' := fun h_eq => h_plus (h_eq ▸ h_mem)
    have h_isDigit : c.isDigit = true := by simp_all
    rw [digitValue_of_isDigit h_isDigit]
    rfl

end Decimal

end Py
