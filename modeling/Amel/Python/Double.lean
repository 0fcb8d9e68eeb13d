import Mathlib.Algebra.Group.Int.Defs
import Mathlib.Algebra.Group.Nat.Defs
import Amel.Python.Format

namespace Python

/-- A binary interchange format by the widths of its fields. Magnitudes are
counted in units of the least subnormal, so those of finite values are whole. -/
structure BinaryFormat where
  exponentBits : Nat
  fractionBits : Nat

def binary32 : BinaryFormat := ⟨8, 23⟩

def binary64 : BinaryFormat := ⟨11, 52⟩

/-- `numerator / denominator` to the nearest whole number, halves to even. -/
def roundDiv (numerator denominator : Nat) : Nat :=
  let quotient := numerator / denominator
  let twice := 2 * (numerator % denominator)
  if twice < denominator then quotient
  else if denominator < twice then quotient + 1
  else quotient + quotient % 2

namespace BinaryFormat

/-- The bits of infinity without the sign. -/
def infinity (format : BinaryFormat) : Nat := (2 ^ format.exponentBits - 1) * 2 ^ format.fractionBits

/-- The units that the bits without the sign stand for. -/
def decode (format : BinaryFormat) (bits : Nat) : Nat :=
  let exponent := bits / 2 ^ format.fractionBits
  let fraction := bits % 2 ^ format.fractionBits
  if exponent = 0 then fraction else (2 ^ format.fractionBits + fraction) * 2 ^ (exponent - 1)

/-- The bits, without the sign, nearest to `numerator / denominator` units. -/
def encode (format : BinaryFormat) (numerator denominator : Nat) : Nat :=
  let shift := Nat.log2 (numerator / denominator) - format.fractionBits
  min format.infinity (shift * 2 ^ format.fractionBits + roundDiv numerator (denominator * 2 ^ shift))

end BinaryFormat

/-- A `float` by its bits. -/
abbrev Double := BitVec 64

namespace Double

def nan : Double := 0x7FF8000000000000

def one : Double := 0x3FF0000000000000

def negative (x : Double) : Bool := x.msb

/-- The bits without the sign. -/
def magnitude (x : Double) : Nat := x.toNat % 2 ^ 63

def isNaN (x : Double) : Bool := binary64.infinity < x.magnitude

def isFinite (x : Double) : Bool := x.magnitude < binary64.infinity

/-- The rank of a value that is not NaN among all of them; both zeros have rank 0. -/
def rank (x : Double) : Int := if x.negative then -x.magnitude else x.magnitude

/-- `x < y`, which is false when either is NaN. -/
def lt (x y : Double) : Bool := !x.isNaN && !y.isNaN && x.rank < y.rank

/-- `x >= y`, which is false when either is NaN. -/
def ge (x y : Double) : Bool := !x.isNaN && !y.isNaN && y.rank ≤ x.rank

/-- The exact value of a finite double, in units of 2 ^ -1074. -/
def units (x : Double) : Int :=
  if x.negative then -binary64.decode x.magnitude else binary64.decode x.magnitude

/-- A whole number in these units. -/
def wholeUnits (n : Int) : Int := n * 2 ^ 1074

def ofBits (negative : Bool) (magnitude : Nat) : Double :=
  BitVec.ofNat 64 (magnitude + if negative then 2 ^ 63 else 0)

/-- The double nearest to a number of units. -/
def ofUnits (numerator : Int) (denominator : Nat) : Double :=
  ofBits (numerator < 0) (binary64.encode numerator.natAbs denominator)

/-- The double nearest to a fraction. -/
def ofRatio (numerator : Int) (denominator : Nat) : Double :=
  ofUnits (numerator * 2 ^ 1074) denominator

/-- `x - y`. -/
def sub (x y : Double) : Double :=
  if x.isNaN || y.isNaN then nan
  else if x.isFinite && y.isFinite then
    if x.units = y.units then ofBits (x.negative && !y.negative) 0 else ofUnits (x.units - y.units) 1
  else if y.isFinite then x
  else if x.isFinite || x.negative != y.negative then ofBits (!y.negative) binary64.infinity
  else nan

/-- `x + y`. -/
def add (x y : Double) : Double := x.sub (y ^^^ 0x8000000000000000)

/-- `x * y`. -/
def mul (x y : Double) : Double :=
  let sign := x.negative != y.negative
  if x.isNaN || y.isNaN then nan
  else if x.isFinite && y.isFinite then
    ofBits sign (binary64.encode (x.units.natAbs * y.units.natAbs) (2 ^ 1074))
  else if x.magnitude = 0 || y.magnitude = 0 then nan
  else ofBits sign binary64.infinity

/-- `x / y`; dividing by zero raises. -/
def div (x y : Double) : Option Double :=
  let sign := x.negative != y.negative
  if y.magnitude = 0 then none
  else if x.isNaN || y.isNaN then some nan
  else if y.isFinite then
    some (ofBits sign (if x.isFinite then binary64.encode (x.units.natAbs * 2 ^ 1074) y.units.natAbs
      else binary64.infinity))
  else some (if x.isFinite then ofBits sign 0 else nan)

/-- The bits of `numpy.float32(x)`. -/
def toSingle (x : Double) : BitVec 32 :=
  let bits := if x.isNaN then 0x7FC00000
    else if x.isFinite then binary32.encode (binary64.decode x.magnitude) (2 ^ 925)
    else binary32.infinity
  BitVec.ofNat 32 (bits + if x.negative then 2 ^ 31 else 0)

/-- The text before the digits. -/
def sign (x : Double) : List Char := if x.negative then ['-'] else []

/-- The text of a value that is not finite. -/
def special (x : Double) : List Char := if x.isNaN then "nan".toList else x.sign ++ "inf".toList

/-- The decimal digits of `scaled / 10 ^ places`, with all the places. -/
def pointed (scaled places : Nat) : List Char :=
  let digits := zeroPad (places + 1) scaled
  digits.take (digits.length - places) ++ '.' :: digits.drop (digits.length - places)

/-- `round(x * 10 ** places)` of the exact absolute value. -/
def scaled (x : Double) (places : Nat) : Nat :=
  roundDiv (binary64.decode x.magnitude * 10 ^ places) (2 ^ 1074)

/-- `f"{x:.{places}f}"`. -/
def fixed (x : Double) (places : Nat) : String :=
  String.ofList (if x.isFinite then x.sign ++ pointed (x.scaled places) places else x.special)

/-- `round(x, places)`. -/
def round (x : Double) (places : Nat) : Double :=
  if x.isFinite then ofBits x.negative (binary64.encode (x.scaled places * 2 ^ 1074) (10 ^ places)) else x

/-- A decimal `digits * 10 ^ exponent` that reads as the double with these bits. -/
def reads (bits digits : Nat) (exponent : Int) : Bool :=
  binary64.encode (digits * 10 ^ exponent.toNat * 2 ^ 1074) (10 ^ (-exponent).toNat) = bits

/-- Among the decimals with `precision` digits the one nearest to the double
that reads as it, as digits and exponent; `point` is the place of the point. -/
def decimalOf (bits : Nat) (point : Int) (precision : Nat) : Option (Nat × Int) :=
  let exponent := point - precision
  let numerator := binary64.decode bits * 10 ^ (-exponent).toNat
  let denominator := 2 ^ 1074 * 10 ^ exponent.toNat
  let nearest := roundDiv numerator denominator
  let other := if nearest = numerator / denominator then nearest + 1 else nearest - 1
  if reads bits nearest exponent then some (nearest, exponent)
  else if reads bits other exponent then some (other, exponent)
  else none

/-- The place of the decimal point: the value lies in `[10 ^ (point - 1), 10 ^ point)`. -/
def pointOf (bits : Nat) : Int :=
  let value := binary64.decode bits
  if 2 ^ 1074 ≤ value then (Nat.toDigits 10 (value / 2 ^ 1074)).length
  else 1 - ((List.range 325).find? fun zeros => 2 ^ 1074 ≤ value * 10 ^ zeros).getD 0

/-- The shortest digits that read back as the double, and the point. -/
def shortest (bits : Nat) : List Char × Int :=
  match (List.range 17).findSome? fun extra => decimalOf bits (pointOf bits) (extra + 1) with
  | some (digits, exponent) =>
    let text := Nat.toDigits 10 digits
    (text, exponent + text.length)
  | none => (['0'], 1)

/-- `repr(x)`. -/
def repr (x : Double) : String :=
  if !x.isFinite then String.ofList x.special
  else if x.magnitude = 0 then String.ofList (x.sign ++ "0.0".toList)
  else
    let (digits, point) := shortest x.magnitude
    let zeros (count : Int) : List Char := List.replicate count.toNat '0'
    let text :=
      if -4 < point ∧ point ≤ 0 then '0' :: '.' :: zeros (-point) ++ digits
      else if 0 < point ∧ point ≤ 16 then
        let whole := digits.take point.toNat ++ zeros (point - digits.length)
        let fraction := digits.drop point.toNat
        whole ++ '.' :: if fraction.isEmpty then ['0'] else fraction
      else
        let mantissa := digits.take 1 ++ if digits.length = 1 then [] else '.' :: digits.drop 1
        mantissa ++ 'e' :: (if point ≤ 0 then '-' else '+') :: zeroPad 2 (point - 1).natAbs
    String.ofList (x.sign ++ text)

example : repr 0x3FE51EB851EB851F = "0.66" ∧ fixed 0x3FE51EB851EB851F 4 = "0.6600" := by decide +kernel

/-- `<` is the negation of `>=` exactly where neither side is NaN. -/
theorem not_lt_eq_ge_iff (x y : Double) : (!x.lt y) = x.ge y ↔ x.isNaN = false ∧ y.isNaN = false := by
  unfold lt ge
  cases x.isNaN with
  | true => simp
  | false =>
    cases y.isNaN with
    | true => simp
    | false => by_cases below : x.rank < y.rank <;> simp [below, Int.not_lt.mp]

theorem ge_of_not_lt {x y : Double} (ordered : x.isNaN = false ∧ y.isNaN = false) : x.ge y = !x.lt y :=
  ((not_lt_eq_ge_iff x y).mpr ordered).symm

theorem not_lt_and_not_ge {x y : Double} (unordered : ¬(x.isNaN = false ∧ y.isNaN = false)) :
    x.lt y = false ∧ x.ge y = false := by
  unfold lt ge
  cases first : x.isNaN with
  | true => exact ⟨rfl, rfl⟩
  | false =>
    cases second : y.isNaN with
    | true => exact ⟨rfl, rfl⟩
    | false => exact absurd ⟨first, second⟩ unordered

theorem encode_le (format : BinaryFormat) (numerator denominator : Nat) :
    format.encode numerator denominator ≤ format.infinity := Nat.min_le_left _ _

theorem magnitude_ofBits (negative : Bool) {magnitude : Nat} (small : magnitude < 2 ^ 63) :
    (ofBits negative magnitude).magnitude = magnitude := by
  unfold ofBits Double.magnitude
  rw [BitVec.toNat_ofNat]
  cases negative with
  | false =>
    simp only [Bool.false_eq_true, if_false, Nat.add_zero]
    omega
  | true =>
    simp only [if_true]
    omega

/-- Bits up to those of infinity are never NaN. -/
theorem ofBits_not_nan {negative : Bool} {magnitude : Nat} (bound : magnitude ≤ binary64.infinity) :
    (ofBits negative magnitude).isNaN = false := by
  rw [isNaN, magnitude_ofBits negative (lt_of_le_of_lt bound (by decide))]
  exact decide_eq_false (Nat.not_lt.mpr bound)

/-- A difference is NaN when one side is, and between infinities of one sign. -/
theorem sub_isNaN_iff (x y : Double) : (x.sub y).isNaN = true ↔
    x.isNaN = true ∨ y.isNaN = true ∨ x.isFinite = false ∧ y.isFinite = false ∧ x.negative = y.negative := by
  unfold sub
  by_cases nan : (x.isNaN || y.isNaN) = true
  · rw [if_pos nan]
    rcases Bool.or_eq_true_iff.mp nan with first | second
    · exact iff_of_true (by decide) (Or.inl first)
    · exact iff_of_true (by decide) (Or.inr (Or.inl second))
  · rw [if_neg nan]
    obtain ⟨first, second⟩ : x.isNaN = false ∧ y.isNaN = false := by simpa using nan
    simp only [first, second, Bool.false_eq_true, false_or]
    cases xFinite : x.isFinite with
    | true =>
      cases yFinite : y.isFinite with
      | true =>
        simp only [Bool.and_self, if_true, Bool.true_eq_false, false_and, iff_false, Bool.not_eq_true]
        split
        · exact ofBits_not_nan (Nat.zero_le _)
        · exact ofBits_not_nan (encode_le ..)
      | false =>
        simp only [Bool.and_false, Bool.false_eq_true, if_false, Bool.true_or, if_true, Bool.true_eq_false,
          false_and, iff_false, Bool.not_eq_true]
        exact ofBits_not_nan le_rfl
    | false =>
      cases yFinite : y.isFinite with
      | true =>
        simp only [Bool.false_and, Bool.false_eq_true, if_false, if_true, Bool.true_eq_false, false_and, and_false,
          iff_false, Bool.not_eq_true]
        exact first
      | false =>
        simp only [Bool.and_self, Bool.false_eq_true, if_false, Bool.false_or, bne_iff_ne, true_and]
        by_cases signs : x.negative = y.negative
        · rw [if_neg (fun differ => differ signs)]
          exact iff_of_true (by decide) signs
        · rw [if_pos signs]
          refine iff_of_false ?_ signs
          rw [Bool.not_eq_true]
          exact ofBits_not_nan le_rfl

end Double

end Python
