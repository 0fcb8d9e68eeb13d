import Mathlib.Algebra.Order.Field.Rat
import Mathlib.Data.List.Basic

namespace Python

/-- `f"{n:0{width}d}"` of a number that is not negative. -/
def zeroPad (width n : Nat) : List Char :=
  List.replicate (width - (Nat.toDigits 10 n).length) '0' ++ Nat.toDigits 10 n

/-- Reading the digits back gives the number, whether or not it fits the width. -/
theorem ofDigitChars_zeroPad (width n : Nat) : Nat.ofDigitChars 10 (zeroPad width n) 0 = n := by
  rw [zeroPad, Nat.ofDigitChars_append, Nat.ofDigitChars_replicate_zero, Nat.mul_zero, Nat.ofDigitChars_ten_toDigits]

theorem zeroPad_injective (width : Nat) : Function.Injective (zeroPad width) := by
  intro a b same
  rw [← ofDigitChars_zeroPad width a, same, ofDigitChars_zeroPad]

theorem length_zeroPad {width n : Nat} (positive : 0 < width) (fits : n < 10 ^ width) :
    (zeroPad width n).length = width := by
  have short := (Nat.length_toDigits_le_iff (by decide) positive).mpr fits
  rw [zeroPad, List.length_append, List.length_replicate]
  omega

theorem toDigits_isDigit (n : Nat) : ∀ c ∈ Nat.toDigits 10 n, c.isDigit = true :=
  fun _ member => Nat.isDigit_of_mem_toDigits (by decide) (by decide) member

theorem zeros_isDigit (count : Nat) : ∀ c ∈ List.replicate count '0', c.isDigit = true := by
  intro c member
  rw [List.eq_of_mem_replicate member]
  rfl

theorem append_isDigit {s t : List Char} (first : ∀ c ∈ s, c.isDigit = true) (second : ∀ c ∈ t, c.isDigit = true) :
    ∀ c ∈ s ++ t, c.isDigit = true := by
  intro c member
  rcases List.mem_append.mp member with inFirst | inSecond
  · exact first c inFirst
  · exact second c inSecond

theorem zeroPad_isDigit (width n : Nat) : ∀ c ∈ zeroPad width n, c.isDigit = true :=
  append_isDigit (zeros_isDigit _) (toDigits_isDigit _)

theorem zeroPad_ne_nil (width n : Nat) : zeroPad width n ≠ [] :=
  List.append_ne_nil_of_right_ne_nil _ Nat.toDigits_ne_nil

theorem ofDigitChars_below {digits : List Char} (start : Nat) (isDigits : ∀ c ∈ digits, c.isDigit = true) :
    Nat.ofDigitChars 10 digits start < 10 ^ digits.length * (start + 1) := by
  induction digits generalizing start with
  | nil => simp
  | cons c rest ih =>
    have digit := Char.isDigit_iff_toNat.mp (isDigits c List.mem_cons_self)
    have bound := ih (10 * start + (c.toNat - '0'.toNat)) fun d member => isDigits d (List.mem_cons_of_mem _ member)
    have next : 10 * start + (c.toNat - '0'.toNat) + 1 ≤ 10 * (start + 1) := by
      have bounds : '0'.toNat = 48 ∧ '9'.toNat = 57 := ⟨rfl, rfl⟩
      omega
    rw [Nat.ofDigitChars_cons, List.length_cons, Nat.pow_succ, Nat.mul_assoc]
    exact bound.trans_le (Nat.mul_le_mul_left _ next)

/-- Of two texts of as many digits the one that is less as a text is less as a number. -/
theorem ofDigitChars_lt {one other : List Char} (start : Nat) (digits : ∀ c ∈ one, c.isDigit = true)
    (digits' : ∀ c ∈ other, c.isDigit = true) (same : one.length = other.length) (less : one < other) :
    Nat.ofDigitChars 10 one start < Nat.ofDigitChars 10 other start := by
  induction one generalizing other start with
  | nil =>
    obtain rfl := List.length_eq_zero_iff.mp same.symm
    exact absurd less (List.lt_irrefl _)
  | cons c rest ih =>
    cases other with
    | nil => cases same
    | cons d others =>
      have tail (e : Char) (member : e ∈ rest) := digits e (List.mem_cons_of_mem _ member)
      have tail' (e : Char) (member : e ∈ others) := digits' e (List.mem_cons_of_mem _ member)
      have lengths : rest.length = others.length := Nat.succ.inj same
      rw [Nat.ofDigitChars_cons, Nat.ofDigitChars_cons]
      rcases List.cons_lt_cons_iff.mp less with first | ⟨rfl, later⟩
      · have apart : c.toNat < d.toNat := first
        have low := Char.isDigit_iff_toNat.mp (digits c List.mem_cons_self)
        have zero : '0'.toNat = 48 := rfl
        calc Nat.ofDigitChars 10 rest (10 * start + (c.toNat - '0'.toNat))
            < 10 ^ rest.length * (10 * start + (c.toNat - '0'.toNat) + 1) := ofDigitChars_below _ tail
          _ ≤ 10 ^ others.length * (10 * start + (d.toNat - '0'.toNat)) := by
            rw [lengths]
            exact Nat.mul_le_mul_left _ (by omega)
          _ ≤ Nat.ofDigitChars 10 others (10 * start + (d.toNat - '0'.toNat)) := by
            rw [Nat.ofDigitChars_eq_ofDigitChars_zero]
            exact Nat.le_add_right _ _
      · exact ih _ tail tail' lengths later

theorem append_lt_iff {s t : List Char} (later : List Char) (same : s.length = t.length) : s ++ later < t ↔ s < t := by
  induction s generalizing t with
  | nil =>
    obtain rfl := List.length_eq_zero_iff.mp same.symm
    simp
  | cons c rest ih =>
    cases t with
    | nil => cases same
    | cons d others =>
      rw [List.cons_append, List.cons_lt_cons_iff, List.cons_lt_cons_iff, ih (Nat.succ.inj same)]

/-- Texts of as many digits are in order as texts just if they are as numbers. -/
theorem ofDigitChars_lt_iff {one other : List Char} (digits : ∀ c ∈ one, c.isDigit = true)
    (digits' : ∀ c ∈ other, c.isDigit = true) (same : one.length = other.length) :
    one < other ↔ Nat.ofDigitChars 10 one 0 < Nat.ofDigitChars 10 other 0 := by
  constructor
  · exact ofDigitChars_lt 0 digits digits' same
  · intro value
    by_contra after
    rcases List.le_iff_lt_or_eq.mp (List.not_lt.mp after) with less | equal
    · have less' := ofDigitChars_lt 0 digits' digits same.symm less
      omega
    · rw [equal] at value
      exact Nat.lt_irrefl _ value

/-- A text of digits comes before a shorter one just if its number is less
once zeros make the shorter one as long. -/
theorem ofDigitChars_longer_lt_iff {one other : List Char} (digits : ∀ c ∈ one, c.isDigit = true)
    (digits' : ∀ c ∈ other, c.isDigit = true) (shorter : one.length ≤ other.length) :
    other < one ↔
      Nat.ofDigitChars 10 other 0 < Nat.ofDigitChars 10 one 0 * 10 ^ (other.length - one.length) := by
  obtain ⟨first, later, rfl, same⟩ : ∃ first later, other = first ++ later ∧ one.length = first.length :=
    ⟨other.take one.length, other.drop one.length, (List.take_append_drop _ _).symm, by
      rw [List.length_take, Nat.min_eq_left shorter]⟩
  have inFirst (c : Char) (member : c ∈ first) := digits' c (List.mem_append_left _ member)
  have inLater (c : Char) (member : c ∈ later) := digits' c (List.mem_append_right _ member)
  have rest := ofDigitChars_below 0 inLater
  have length : (first ++ later).length - one.length = later.length := by
    rw [List.length_append]
    omega
  rw [append_lt_iff later same.symm, ofDigitChars_lt_iff inFirst digits same.symm, length, Nat.ofDigitChars_append,
    Nat.ofDigitChars_eq_ofDigitChars_zero (l := later)]
  generalize Nat.ofDigitChars 10 one 0 = a
  generalize Nat.ofDigitChars 10 first 0 = b
  generalize Nat.ofDigitChars 10 later 0 = r at *
  rw [Nat.mul_comm a]
  constructor
  · intro less
    calc 10 ^ later.length * b + r
        < 10 ^ later.length * (b + 1) := by
          rw [Nat.mul_add]
          omega
      _ ≤ 10 ^ later.length * a := Nat.mul_le_mul_left _ less
  · intro less
    exact Nat.lt_of_mul_lt_mul_left ((Nat.le_add_right _ _).trans_lt less)

theorem length_zeroPad_mono (width : Nat) : Monotone fun n => (zeroPad width n).length := by
  intro a b order
  have more : (Nat.toDigits 10 a).length ≤ (Nat.toDigits 10 b).length :=
    (Nat.length_toDigits_le_iff (by decide) Nat.length_toDigits_pos).mpr
      (order.trans_lt ((Nat.length_toDigits_le_iff (by decide) Nat.length_toDigits_pos).mp le_rfl))
  simp only [zeroPad, List.length_append, List.length_replicate]
  omega

/-- The order of numbers is the order of their texts while these are as
long; a text that is longer may come first. -/
theorem zeroPad_lt_iff {width a b : Nat} (order : a ≤ b) :
    zeroPad width b < zeroPad width a ↔ b < a * 10 ^ ((zeroPad width b).length - (zeroPad width a).length) := by
  rw [ofDigitChars_longer_lt_iff (zeroPad_isDigit width a) (zeroPad_isDigit width b)
    (length_zeroPad_mono width order), ofDigitChars_zeroPad, ofDigitChars_zeroPad]

/-- `f"{x:.0f}"`: to the nearest integer, a half to the even one. -/
def fixed0 (x : ℚ) : String :=
  let below := x.floor
  let rest := x - below
  toString (if rest < 1 / 2 ∨ rest = 1 / 2 ∧ below % 2 = 0 then below else below + 1)

example : fixed0 (125 / 2) = "62" := by decide +kernel

/-- Year, month and day of a day counted from 1970-01-01. -/
def civil (day : Int) : Int × Nat × Nat :=
  let shifted := day + 719468
  let era := shifted / 146097
  let dayOfEra := (shifted % 146097).toNat
  let yearOfEra := (dayOfEra - dayOfEra / 1460 + dayOfEra / 36524 - dayOfEra / 146096) / 365
  let dayOfYear := dayOfEra - (365 * yearOfEra + yearOfEra / 4 - yearOfEra / 100)
  let march := (5 * dayOfYear + 2) / 153
  let month := if march < 10 then march + 3 else march - 9
  (yearOfEra + era * 400 + if month ≤ 2 then 1 else 0, month, dayOfYear - (153 * march + 2) / 5 + 1)

/-- `date().isoformat()` of a naive datetime in microseconds. -/
def isoDate (instant : Int) : String :=
  let (year, month, day) := civil (instant / 86400000000)
  String.ofList (zeroPad 4 year.toNat ++ '-' :: zeroPad 2 month ++ '-' :: zeroPad 2 day)

example : isoDate 1789776000000000 = "2026-09-19" := by decide +kernel

end Python
