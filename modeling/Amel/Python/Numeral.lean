import Amel.Python.Literal

namespace Python.Json

/-- A text whose first code point, if any, is none of a number. -/
def StopsNumber (rest : Text) : Prop :=
  ∀ c ∈ rest.head?, isDigit c = false ∧ c ≠ 0x2E ∧ c ≠ 0x65 ∧ c ≠ 0x45

/-- The parts of a number as JSON writes it, with the digits after the point
and the exponent left out where they are empty. -/
structure Numeral where
  negative : Bool
  whole : Text
  places : Text
  exponent : Text
  whole_digits : ∀ c ∈ whole, isDigit c = true
  whole_first : whole = [0x30] ∨ ∃ first rest, whole = first :: rest ∧ first ≠ 0x30
  places_digits : ∀ c ∈ places, isDigit c = true
  exponent_form : exponent = [] ∨ ∃ sign digits, exponent = 0x65 :: sign :: digits ∧
    (sign = 0x2D ∨ sign = 0x2B) ∧ digits ≠ [] ∧ ∀ c ∈ digits, isDigit c = true

namespace Numeral

/-- The point with its digits. -/
def point (n : Numeral) : Text := if n.places = [] then [] else 0x2E :: n.places

def text (n : Numeral) : Text :=
  (if n.negative then Python.text "-" else []) ++ n.whole ++ n.point ++ n.exponent

end Numeral

theorem span_digits {digits rest : Text} (all : ∀ c ∈ digits, isDigit c = true)
    (stops : ∀ c ∈ rest.head?, isDigit c = false) :
    (digits ++ rest).takeWhile isDigit = digits ∧ (digits ++ rest).dropWhile isDigit = rest := by
  rw [List.takeWhile_append_of_pos all, List.dropWhile_append_of_pos all]
  cases rest with
  | nil => simp
  | cons c rest =>
    have stop := stops c rfl
    rw [List.takeWhile_cons_of_neg (by rw [stop]; decide), List.dropWhile_cons_of_neg (by rw [stop]; decide)]
    simp

theorem fraction_of_no_point {rest : Text} (stops : ∀ c ∈ rest.head?, c ≠ 0x2E) : fraction rest = ([], rest) := by
  unfold fraction
  split
  · exact absurd rfl (stops _ rfl)
  · rfl

theorem exponent_of_no_e {rest : Text} (stops : ∀ c ∈ rest.head?, c ≠ 0x65 ∧ c ≠ 0x45) :
    exponent rest = ([], rest) := by
  cases rest with
  | nil => rfl
  | cons c rest =>
    have stop := stops c rfl
    unfold exponent
    exact if_neg (not_or.mpr stop)

namespace Numeral

variable (n : Numeral) {rest : Text}

theorem integerDigits_eq (stops : ∀ c ∈ rest.head?, isDigit c = false) :
    integerDigits (n.whole ++ rest) = some (n.whole, rest) := by
  have digits := n.whole_digits
  rcases n.whole_first with zero | ⟨first, more, whole, nonzero⟩
  · rw [zero]
    rfl
  · rw [whole] at digits ⊢
    obtain ⟨taken, left⟩ := span_digits (fun c member => digits c (List.mem_cons_of_mem _ member)) stops
    rw [List.cons_append, integerDigits, if_neg nonzero, if_pos (digits first List.mem_cons_self), taken, left]

theorem fraction_eq (stops : ∀ c ∈ rest.head?, isDigit c = false ∧ c ≠ 0x2E) :
    fraction (n.point ++ rest) = (n.point, rest) := by
  have digits := n.places_digits
  unfold point
  generalize n.places = places at digits ⊢
  cases places with
  | nil => exact fraction_of_no_point fun c first => (stops c first).2
  | cons d more =>
    obtain ⟨taken, left⟩ := span_digits (fun c member => digits c (List.mem_cons_of_mem _ member))
      fun c first => (stops c first).1
    rw [if_neg (List.cons_ne_nil _ _), List.cons_append, List.cons_append, fraction,
      if_pos (digits d List.mem_cons_self), taken, left]

theorem exponent_eq (stops : ∀ c ∈ rest.head?, isDigit c = false ∧ c ≠ 0x65 ∧ c ≠ 0x45) :
    Json.exponent (n.exponent ++ rest) = (n.exponent, rest) := by
  rcases n.exponent_form with none | ⟨sign, digits, form, signed, nonempty, all⟩
  · rw [none]
    exact exponent_of_no_e fun c first => (stops c first).2
  · obtain ⟨taken, left⟩ := span_digits all fun c first => (stops c first).1
    rw [form, List.cons_append, List.cons_append, Json.exponent, if_pos (Or.inl rfl)]
    dsimp only
    rw [if_pos signed]
    dsimp only
    rw [taken, left, if_neg (by rw [List.isEmpty_iff]; exact nonempty)]
    rfl

/-- Neither the point nor what follows is read as a digit. -/
theorem point_stops (stops : ∀ c ∈ rest.head?, isDigit c = false) :
    ∀ c ∈ (n.point ++ rest).head?, isDigit c = false := by
  unfold point
  split
  · exact stops
  · intro c first
    cases first
    rfl

theorem exponent_stops (stops : StopsNumber rest) :
    ∀ c ∈ (n.exponent ++ rest).head?, isDigit c = false ∧ c ≠ 0x2E := by
  rcases n.exponent_form with none | ⟨sign, digits, form, -, -, -⟩
  · rw [none]
    exact fun c first => ⟨(stops c first).1, (stops c first).2.1⟩
  · rw [form]
    intro c first
    cases first
    exact ⟨rfl, by decide⟩

theorem minus_eq (rest : Text) : minus (n.text ++ rest) = (n.negative, n.whole ++ (n.point ++ (n.exponent ++ rest))) := by
  unfold text
  cases n.negative with
  | true =>
    simp only [if_true, List.append_assoc]
    rfl
  | false =>
    simp only [Bool.false_eq_true, if_false, List.nil_append, List.append_assoc]
    have digits := n.whole_digits
    rcases n.whole_first with zero | ⟨first, more, whole, -⟩
    · rw [zero]
      rfl
    · rw [whole] at digits ⊢
      have digit := digits first List.mem_cons_self
      unfold minus
      split
      · rename_i same
        cases same
        exact absurd digit (by decide)
      · rfl

/-- The scanner takes the parts off one by one. -/
theorem scan_parts (stops : StopsNumber rest) :
    integerDigits (minus (n.text ++ rest)).2 = some (n.whole, n.point ++ (n.exponent ++ rest)) ∧
      fraction (n.point ++ (n.exponent ++ rest)) = (n.point, n.exponent ++ rest) ∧
        Json.exponent (n.exponent ++ rest) = (n.exponent, rest) := by
  have afterPoint := n.exponent_stops stops
  refine ⟨?_, n.fraction_eq afterPoint, n.exponent_eq fun c first => ⟨(stops c first).1, (stops c first).2.2⟩⟩
  rw [minus_eq]
  exact n.integerDigits_eq (n.point_stops fun c first => (afterPoint c first).1)

/-- A number with a point or an exponent is scanned as a float. -/
theorem matchNumber_float (stops : StopsNumber rest) (isFloat : n.places ≠ [] ∨ n.exponent ≠ []) :
    matchNumber (n.text ++ rest) = pure (.float (.literal n.text), rest) := by
  obtain ⟨whole, frac, exp⟩ := n.scan_parts stops
  have nonempty : ¬(n.point.isEmpty && n.exponent.isEmpty) = true := by
    rw [Bool.and_eq_true, List.isEmpty_iff, List.isEmpty_iff, not_and_or]
    refine isFloat.imp (fun places => ?_) id
    rw [point, if_neg places]
    exact List.cons_ne_nil _ _
  unfold matchNumber
  rw [whole]
  dsimp only
  rw [frac]
  dsimp only
  rw [exp, if_neg nonempty, minus_eq]
  rfl

/-- A number with neither is scanned as an integer, whose digits the
interpreter must convert. -/
theorem matchNumber_int (stops : StopsNumber rest) (places : n.places = []) (exponent : n.exponent = []) :
    matchNumber (n.text ++ rest) =
      ⟨[.digits n.whole.length], .ok (.int (if n.negative then -(decimal n.whole : Int) else decimal n.whole), rest)⟩ := by
  obtain ⟨whole, frac, exp⟩ := n.scan_parts stops
  have empty : (n.point.isEmpty && n.exponent.isEmpty) = true := by
    rw [point, if_pos places, exponent]
    rfl
  unfold matchNumber
  rw [whole]
  dsimp only
  rw [frac]
  dsimp only
  rw [exp, if_pos empty, minus_eq]
  rfl

/-- The value of a number is that of all its digits, moved by the exponent. -/
theorem literalValue_eq : literalValue n.text =
    .ofDecimal n.negative (decimal (n.whole ++ n.places)) (exponentValue n.exponent - n.places.length) := by
  have ends : StopsNumber [] := fun c first => by cases first
  obtain ⟨whole, frac, exp⟩ := n.scan_parts ends
  have drop : n.point.drop 1 = n.places := by
    unfold point
    split
    · rename_i none
      rw [none]
      rfl
    · rfl
  simp only [List.append_nil] at whole frac exp
  unfold literalValue
  rw [whole]
  dsimp only
  rw [frac]
  dsimp only
  have sign := n.minus_eq []
  rw [List.append_nil] at sign
  rw [exp, drop, sign]

end Numeral

theorem decimal_map (digits : List Char) : decimal (digits.map Char.toNat) = Nat.ofDigitChars 10 digits 0 := by
  rw [decimal, List.foldl_map, Nat.ofDigitChars_eq_foldl]
  simp only [Nat.mul_comm]
  rfl

theorem isDigit_map {digits : List Char} (all : ∀ c ∈ digits, c.isDigit = true) :
    ∀ c ∈ digits.map Char.toNat, isDigit c = true := by
  intro code member
  obtain ⟨c, inDigits, rfl⟩ := List.mem_map.mp member
  have digit := all c inDigits
  rw [Char.isDigit, Bool.and_eq_true, decide_eq_true_iff, decide_eq_true_iff] at digit
  rw [isDigit, Bool.and_eq_true, decide_eq_true_iff, decide_eq_true_iff]
  exact digit

theorem map_toDigits_ne_nil (s : List Char) (n : Nat) : (s ++ Nat.toDigits 10 n).map Char.toNat ≠ [] := by
  intro empty
  exact Nat.toDigits_ne_nil (List.append_eq_nil_iff.mp (List.map_eq_nil_iff.mp empty)).2

/-- The digits of a positive number do not start with a zero. -/
theorem toDigits_first {n : Nat} (positive : 0 < n) :
    ∃ first rest, Nat.toDigits 10 n = first :: rest ∧ first ≠ '0' := by
  induction n using Nat.strongRecOn with
  | ind n ih =>
    rw [Nat.toDigits_eq_if (by decide)]
    split
    · rename_i single
      refine ⟨_, [], rfl, ?_⟩
      rw [Ne, Nat.digitChar_eq_zero]
      exact Nat.pos_iff_ne_zero.mp positive
    · obtain ⟨first, rest, digits, nonzero⟩ := ih (n / 10) (by omega) (by omega)
      exact ⟨first, rest ++ [(n % 10).digitChar], by rw [digits, List.cons_append], nonzero⟩

/-- `repr` of an `int`. -/
def intText (n : Int) : Text := (if n < 0 then text "-" else []) ++ (Nat.toDigits 10 n.natAbs).map Char.toNat

/-- The digits of a whole number, as the whole part of a number. -/
theorem whole_first_toDigits (n : Nat) : (Nat.toDigits 10 n).map Char.toNat = [0x30] ∨
    ∃ first rest, (Nat.toDigits 10 n).map Char.toNat = first :: rest ∧ first ≠ 0x30 := by
  rcases Nat.eq_zero_or_pos n with rfl | positive
  · left
    decide
  · obtain ⟨first, rest, digits, nonzero⟩ := toDigits_first positive
    rw [digits]
    exact Or.inr ⟨_, _, rfl, fun same => nonzero (Char.toNat_inj.mp same)⟩

def Numeral.ofInt (n : Int) : Numeral where
  negative := n < 0
  whole := (Nat.toDigits 10 n.natAbs).map Char.toNat
  places := []
  exponent := []
  whole_digits := isDigit_map (toDigits_isDigit _)
  whole_first := whole_first_toDigits _
  places_digits := by simp
  exponent_form := Or.inl rfl

theorem Numeral.ofInt_text (n : Int) : (Numeral.ofInt n).text = intText n := by
  simp [Numeral.text, Numeral.ofInt, Numeral.point, intText]

/-- An integer is scanned as itself. -/
theorem matchNumber_intText (n : Int) {rest : Text} (stops : StopsNumber rest) :
    matchNumber (intText n ++ rest) = ⟨[.digits (Nat.toDigits 10 n.natAbs).length], .ok (.int n, rest)⟩ := by
  rw [← Numeral.ofInt_text, Numeral.matchNumber_int _ stops rfl rfl]
  have value : decimal (Numeral.ofInt n).whole = n.natAbs := by
    rw [Numeral.ofInt, decimal_map, Nat.ofDigitChars_ten_toDigits]
  have length : (Numeral.ofInt n).whole.length = (Nat.toDigits 10 n.natAbs).length := List.length_map ..
  have sign : (Numeral.ofInt n).negative = decide (n < 0) := rfl
  rw [value, length, sign]
  by_cases below : n < 0
  · rw [if_pos (decide_eq_true below), show -(n.natAbs : Int) = n by omega]
  · rw [if_neg (by simpa using below), show (n.natAbs : Int) = n by omega]

end Python.Json
