import BkLite.Framework.Value

/-!
# Times of day as texts

`%H:%M:%S` writes a time of day with two digits for each of its parts, so comparing two such texts
is comparing the times (`textLt_text`).
-/

namespace Py

/-- A time of day. -/
structure Clock where
  hour : ℕ
  minute : ℕ
  second : ℕ
  hour_lt : hour < 24 := by decide
  minute_lt : minute < 60 := by decide
  second_lt : second < 60 := by decide

def twoDigits (n : ℕ) : List Char := [Nat.digitChar (n / 10), Nat.digitChar (n % 10)]

namespace Clock

/-- `strftime("%H:%M:%S")`. -/
def text (c : Clock) : List Char :=
  twoDigits c.hour ++ ':' :: (twoDigits c.minute ++ ':' :: twoDigits c.second)

def seconds (c : Clock) : ℕ := 3600 * c.hour + 60 * c.minute + c.second

end Clock

theorem textLt_append {a b x y : List Char} (h : a.length = b.length) :
    textLt (a ++ x) (b ++ y) = true ↔ textLt a b = true ∨ a = b ∧ textLt x y = true := by
  induction a generalizing b with
  | nil =>
    rw [List.eq_nil_of_length_eq_zero h.symm]
    simp [textLt]
  | cons c a ih =>
    cases b with
    | nil => cases h
    | cons d b =>
      rw [List.cons_append, List.cons_append, textLt, textLt]
      by_cases h_eq : c = d
      · rw [if_pos h_eq, if_pos h_eq, ih (Nat.succ.inj h), h_eq, List.cons_inj_right]
      · rw [if_neg h_eq, if_neg h_eq]
        exact (or_iff_left fun h_both => h_eq (List.cons.inj h_both.1).1).symm

theorem textLt_digitChar {d e : ℕ} (h_d : d < 10) (h_e : e < 10) :
    textLt [Nat.digitChar d] [Nat.digitChar e] = true ↔ d < e := by
  have h_toNat_d := Nat.toNat_digitChar_of_lt_ten h_d
  have h_toNat_e := Nat.toNat_digitChar_of_lt_ten h_e
  rw [textLt, textLt]
  split_ifs with h_eq
  · rw [h_eq] at h_toNat_d
    exact iff_of_false not_false (by omega)
  · rw [decide_eq_true_iff, h_toNat_d, h_toNat_e]
    omega

theorem digitChar_inj {d e : ℕ} (h_d : d < 10) (h_e : e < 10)
    (h : Nat.digitChar d = Nat.digitChar e) : d = e := by
  have h_toNat := congrArg Char.toNat h
  rw [Nat.toNat_digitChar_of_lt_ten h_d, Nat.toNat_digitChar_of_lt_ten h_e] at h_toNat
  omega

theorem twoDigits_inj {m n : ℕ} (h_m : m < 100) (h_n : n < 100) (h : twoDigits m = twoDigits n) :
    m = n := by
  have h_tens := digitChar_inj (by omega) (by omega) (List.cons.inj h).1
  have h_ones := digitChar_inj (by omega) (by omega) (List.cons.inj (List.cons.inj h).2).1
  omega

theorem textLt_twoDigits {m n : ℕ} (h_m : m < 100) (h_n : n < 100) :
    textLt (twoDigits m) (twoDigits n) = true ↔ m < n := by
  have h_split := textLt_append (x := [Nat.digitChar (m % 10)]) (y := [Nat.digitChar (n % 10)])
    (show [Nat.digitChar (m / 10)].length = [Nat.digitChar (n / 10)].length from rfl)
  rw [textLt_digitChar (by omega) (by omega), textLt_digitChar (by omega) (by omega)] at h_split
  refine h_split.trans ⟨?_, fun h => ?_⟩
  · rintro (h_tens | ⟨h_tens, h_ones⟩)
    · omega
    · have h_eq := digitChar_inj (by omega) (by omega) (List.cons.inj h_tens).1
      omega
  · rcases Nat.lt_or_ge (m / 10) (n / 10) with h_tens | h_tens
    · exact .inl h_tens
    · have h_eq : m / 10 = n / 10 := by omega
      exact .inr ⟨by rw [h_eq], by omega⟩

theorem textLt_part {m n : ℕ} {x y : List Char} (h_m : m < 100) (h_n : n < 100) :
    textLt (twoDigits m ++ ':' :: x) (twoDigits n ++ ':' :: y) = true ↔
      m < n ∨ m = n ∧ textLt x y = true := by
  have h_colon : textLt (':' :: x) (':' :: y) = textLt x y := by rw [textLt, if_pos rfl]
  rw [textLt_append (a := twoDigits m) (b := twoDigits n) rfl, textLt_twoDigits h_m h_n, h_colon]
  refine or_congr_right (and_congr_left fun _ => ⟨twoDigits_inj h_m h_n, fun h => by rw [h]⟩)

theorem Clock.textLt_text (a b : Clock) :
    textLt a.text b.text = true ↔ a.seconds < b.seconds := by
  have h_a := a.hour_lt
  have h_b := b.hour_lt
  have h_a' := a.minute_lt
  have h_b' := b.minute_lt
  have h_a'' := a.second_lt
  have h_b'' := b.second_lt
  rw [text, text, textLt_part (by omega) (by omega), textLt_part (by omega) (by omega),
    textLt_twoDigits (by omega) (by omega), seconds, seconds]
  omega

end Py
