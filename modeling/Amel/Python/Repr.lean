import Mathlib.Tactic.Linarith
import Mathlib.Tactic.Ring
import Amel.Python.Numeral

namespace Python

/-- The nearest whole number is within a half. -/
theorem roundDiv_near (numerator : Nat) {denominator : Nat} (positive : 0 < denominator) :
    2 * numerator ≤ 2 * (roundDiv numerator denominator * denominator) + denominator ∧
      2 * (roundDiv numerator denominator * denominator) ≤ 2 * numerator + denominator := by
  have split := Nat.div_add_mod numerator denominator
  have small := Nat.mod_lt numerator positive
  rw [Nat.mul_comm] at split
  unfold roundDiv
  dsimp only
  split
  · omega
  · split
    · rw [Nat.add_mul, Nat.one_mul]
      omega
    · rw [Nat.add_mul]
      rcases Nat.mod_two_eq_zero_or_one (numerator / denominator) with even | odd
      · rw [even]
        omega
      · rw [odd]
        omega

/-- A whole number closer than a half is the nearest. -/
theorem roundDiv_eq {numerator denominator whole : Nat}
    (above : 2 * (whole * denominator) < 2 * numerator + denominator)
    (below : 2 * numerator < 2 * (whole * denominator) + denominator) : roundDiv numerator denominator = whole := by
  have positive : 0 < denominator := by omega
  obtain ⟨low, high⟩ := roundDiv_near numerator positive
  generalize roundDiv numerator denominator = nearest at low high
  rcases Nat.lt_trichotomy nearest whole with less | same | more
  · have gap := Nat.mul_le_mul_right denominator (show nearest + 1 ≤ whole from less)
    rw [Nat.succ_mul] at gap
    omega
  · exact same
  · have gap := Nat.mul_le_mul_right denominator (show whole + 1 ≤ nearest from more)
    rw [Nat.succ_mul] at gap
    omega

theorem roundDiv_scale (numerator denominator : Nat) {factor : Nat} (positive : 0 < factor) :
    roundDiv (numerator * factor) (denominator * factor) = roundDiv numerator denominator := by
  unfold roundDiv
  dsimp only
  rw [Nat.mul_div_mul_right _ _ positive, Nat.mul_mod_mul_right, ← Nat.mul_assoc]
  simp only [Nat.mul_lt_mul_right positive]

namespace BinaryFormat

variable (format : BinaryFormat)

theorem encode_scale (numerator denominator : Nat) {factor : Nat} (positive : 0 < factor) :
    format.encode (numerator * factor) (denominator * factor) = format.encode numerator denominator := by
  unfold encode
  dsimp only
  rw [Nat.mul_div_mul_right _ _ positive, Nat.mul_right_comm denominator factor, roundDiv_scale _ _ positive]

/-- Only the ratio counts. -/
theorem encode_congr {numerator denominator other divisor : Nat} (positive : 0 < denominator) (positive' : 0 < divisor)
    (same : numerator * divisor = other * denominator) :
    format.encode numerator denominator = format.encode other divisor := by
  rw [← format.encode_scale numerator denominator positive', same, Nat.mul_comm denominator divisor,
    format.encode_scale other divisor positive]

theorem encode_zero (denominator : Nat) : format.encode 0 denominator = 0 := by
  simp [encode, roundDiv]

end BinaryFormat

namespace Double

theorem decode_eq (bits : Nat) : binary64.decode bits =
    if bits / 2 ^ 52 = 0 then bits % 2 ^ 52 else (2 ^ 52 + bits % 2 ^ 52) * 2 ^ (bits / 2 ^ 52 - 1) := rfl

/-- The significand and the exponent of the bits of a finite value. -/
theorem exists_significand (bits : Nat) :
    ∃ significand shift, bits = shift * 2 ^ 52 + significand ∧ binary64.decode bits = significand * 2 ^ shift ∧
      significand < 2 ^ 53 ∧ (shift = 0 ∨ 2 ^ 52 ≤ significand) := by
  have split := Nat.div_add_mod bits (2 ^ 52)
  have small := Nat.mod_lt bits (show 0 < 2 ^ 52 by decide)
  rcases Nat.eq_zero_or_pos (bits / 2 ^ 52) with subnormal | normal
  · refine ⟨bits % 2 ^ 52, 0, by omega, ?_, by omega, Or.inl rfl⟩
    rw [decode_eq, if_pos subnormal, pow_zero, Nat.mul_one]
  · refine ⟨2 ^ 52 + bits % 2 ^ 52, bits / 2 ^ 52 - 1, by omega, ?_, by omega, Or.inr (by omega)⟩
    rw [decode_eq, if_neg (by omega)]

/-- How close a number of units must be to read as the nearest double. -/
def Near (numerator denominator units : Nat) : Prop :=
  2 * 10 ^ 16 * numerator ≤ (2 * 10 ^ 16 + 1) * (units * denominator) ∧
    2 * 10 ^ 16 * (units * denominator) ≤ 2 * 10 ^ 16 * numerator + units * denominator

/-- Rounding at a place where the integral part has no more than 53 bits. -/
theorem encode_eq {numerator denominator shift whole : Nat}
    (place : Nat.log2 (numerator / denominator) - 52 = shift)
    (nearest : roundDiv numerator (denominator * 2 ^ shift) = whole)
    (finite : shift * 2 ^ 52 + whole < binary64.infinity) :
    binary64.encode numerator denominator = shift * 2 ^ 52 + whole := by
  unfold BinaryFormat.encode
  dsimp only
  rw [show binary64.fractionBits = 52 from rfl, place, nearest]
  exact Nat.min_eq_right (Nat.le_of_lt finite)

/-- A significand of at most 53 bits, also one that has just carried over. -/
theorem decode_place {shift whole : Nat} (small : whole ≤ 2 ^ 53) (normal : shift = 0 ∨ 2 ^ 52 ≤ whole) :
    binary64.decode (shift * 2 ^ 52 + whole) = whole * 2 ^ shift := by
  rcases Nat.lt_or_ge whole (2 ^ 52) with subnormal | large
  · obtain rfl : shift = 0 := by omega
    rw [decode_eq, if_pos (by omega), pow_zero, Nat.mul_one]
    omega
  · rcases small.lt_or_eq with inside | rfl
    · have exponent : (shift * 2 ^ 52 + whole) / 2 ^ 52 = shift + 1 := by omega
      have fraction : (shift * 2 ^ 52 + whole) % 2 ^ 52 = whole - 2 ^ 52 := by omega
      have significand : 2 ^ 52 + (whole - 2 ^ 52) = whole := by omega
      rw [decode_eq, exponent, fraction, if_neg (Nat.succ_ne_zero _), Nat.add_sub_cancel, significand]
    · have exponent : (shift * 2 ^ 52 + 2 ^ 53) / 2 ^ 52 = shift + 2 := by omega
      have fraction : (shift * 2 ^ 52 + 2 ^ 53) % 2 ^ 52 = 0 := by omega
      rw [decode_eq, exponent, fraction, if_neg (Nat.succ_ne_zero _), show shift + 2 - 1 = shift + 1 from rfl]
      ring

/-- Of two values that are not negative the one with the larger bits is the larger. -/
theorem decode_strictMono : StrictMono binary64.decode := by
  refine strictMono_nat_of_lt_succ fun bits => ?_
  obtain ⟨significand, shift, rfl, value, small, normal⟩ := exists_significand bits
  have next : binary64.decode (shift * 2 ^ 52 + significand + 1) = (significand + 1) * 2 ^ shift := by
    rw [Nat.add_assoc]
    exact decode_place small (by omega)
  rw [value, next]
  exact Nat.mul_lt_mul_of_pos_right (Nat.lt_succ_self _) (Nat.two_pow_pos shift)

/-- Rounding moves a value by at most half of a unit in the last place. -/
theorem decode_encode_near {numerator denominator shift : Nat} (positive : 0 < denominator)
    (place : Nat.log2 (numerator / denominator) - 52 = shift) (finite : shift ≤ 2044) :
    2 * numerator ≤ 2 * (binary64.decode (binary64.encode numerator denominator) * denominator) + denominator * 2 ^ shift ∧
      2 * (binary64.decode (binary64.encode numerator denominator) * denominator) ≤
        2 * numerator + denominator * 2 ^ shift := by
  have unit : 0 < denominator * 2 ^ shift := Nat.mul_pos positive (Nat.two_pow_pos shift)
  obtain ⟨above, below⟩ := roundDiv_near numerator unit
  generalize nearest : roundDiv numerator (denominator * 2 ^ shift) = whole at above below
  have scaled (n : Nat) : n * (denominator * 2 ^ shift) = n * 2 ^ shift * denominator := by ring
  have under : numerator < 2 ^ 53 * (denominator * 2 ^ shift) := by
    have high := Nat.lt_log2_self (n := numerator / denominator)
    have enough := Nat.pow_le_pow_right (show 0 < 2 by decide)
      (show Nat.log2 (numerator / denominator) + 1 ≤ 53 + shift by omega)
    rw [Nat.pow_add 2 53] at enough
    rw [scaled]
    exact (Nat.div_lt_iff_lt_mul positive).mp (high.trans_le enough)
  have small : whole ≤ 2 ^ 53 := by
    by_contra more
    have gap := Nat.mul_le_mul_right (denominator * 2 ^ shift) (show 2 ^ 53 + 1 ≤ whole by omega)
    rw [Nat.succ_mul] at gap
    omega
  have normal : shift = 0 ∨ 2 ^ 52 ≤ whole := by
    refine or_iff_not_imp_left.mpr fun shifted => ?_
    have nonzero : numerator / denominator ≠ 0 := by
      rintro zero
      rw [zero] at place
      exact shifted place.symm
    have low := Nat.log2_self_le nonzero
    rw [show Nat.log2 (numerator / denominator) = 52 + shift by omega, Nat.pow_add] at low
    have reached := (Nat.le_div_iff_mul_le positive).mp low
    rw [← scaled] at reached
    by_contra less
    have gap := Nat.mul_le_mul_right (denominator * 2 ^ shift) (show whole + 1 ≤ 2 ^ 52 by omega)
    rw [Nat.succ_mul] at gap
    omega
  have encoded := encode_eq place nearest (by rw [show binary64.infinity = 2047 * 2 ^ 52 from rfl]; omega)
  have swap : whole * 2 ^ shift * denominator = whole * (denominator * 2 ^ shift) := by ring
  rw [encoded, decode_place small normal, swap]
  exact ⟨above, below⟩

/-- What is near a double reads as it. -/
theorem encode_of_near {bits numerator denominator : Nat} (positive : 0 < denominator)
    (finite : bits < binary64.infinity) (near : Near numerator denominator (binary64.decode bits)) :
    binary64.encode numerator denominator = bits := by
  obtain ⟨significand, shift, rfl, value, small, normal⟩ := exists_significand bits
  obtain ⟨above, below⟩ := near
  have scaled : significand * 2 ^ shift * denominator = significand * (denominator * 2 ^ shift) := by ring
  rw [value, scaled] at above below
  have bound := Nat.mul_le_mul_right (denominator * 2 ^ shift) (Nat.le_sub_one_of_lt small)
  have unit : 0 < denominator * 2 ^ shift := Nat.mul_pos positive (Nat.two_pow_pos shift)
  have under : numerator / denominator < 2 ^ (53 + shift) := by
    rw [Nat.div_lt_iff_lt_mul positive, Nat.pow_add, Nat.mul_assoc, Nat.mul_comm _ denominator]
    omega
  by_cases reached : shift = 0 ∨ 2 ^ (52 + shift) ≤ numerator / denominator
  · refine encode_eq ?_ (roundDiv_eq (by omega) (by omega)) finite
    rcases Nat.eq_zero_or_pos (numerator / denominator) with zero | nonzero
    · rcases reached with rfl | large
      · rw [zero]
        decide
      · exact absurd (zero ▸ large) (Nat.not_le.mpr (Nat.two_pow_pos _))
    · have high := (Nat.log2_lt (Nat.pos_iff_ne_zero.mp nonzero)).mpr under
      rcases reached with rfl | large
      · omega
      · have low := (Nat.le_log2 (Nat.pos_iff_ne_zero.mp nonzero)).mpr large
        omega
  · -- Just below a power of two the place is one lower.
    obtain ⟨positiveShift, short⟩ := not_or.mp reached
    obtain ⟨before, rfl⟩ : ∃ before, shift = before + 1 := ⟨shift - 1, by omega⟩
    have double : denominator * 2 ^ (before + 1) = 2 * (denominator * 2 ^ before) := by ring
    have least : significand = 2 ^ 52 := by
      by_contra more
      have next := Nat.mul_le_mul_right (denominator * 2 ^ (before + 1)) (show 2 ^ 52 + 1 ≤ significand by omega)
      refine short ((Nat.le_div_iff_mul_le positive).mpr ?_)
      rw [Nat.pow_add, Nat.mul_assoc, Nat.mul_comm _ denominator]
      omega
    subst least
    have lower : 2 ^ (51 + (before + 1)) ≤ numerator / denominator := by
      rw [Nat.le_div_iff_mul_le positive, Nat.pow_add, Nat.mul_assoc, Nat.mul_comm _ denominator]
      omega
    have nonzero : numerator / denominator ≠ 0 := by
      have := Nat.two_pow_pos (51 + (before + 1))
      omega
    have high := (Nat.log2_lt nonzero).mpr (Nat.not_le.mp short)
    have low := (Nat.le_log2 nonzero).mpr lower
    have same : (before + 1) * 2 ^ 52 + 2 ^ 52 = before * 2 ^ 52 + 2 ^ 53 := by ring
    rw [same] at finite ⊢
    exact encode_eq (by omega) (roundDiv_eq (by omega) (by omega)) finite

theorem decode_pos {bits : Nat} (nonzero : bits ≠ 0) : 0 < binary64.decode bits := by
  obtain ⟨significand, shift, rfl, value, _, normal⟩ := exists_significand bits
  rw [value]
  refine Nat.mul_pos ?_ (Nat.two_pow_pos shift)
  rcases normal with rfl | large
  · omega
  · omega

theorem pow_length_toDigits_le {n : Nat} (positive : 0 < n) : 10 ^ ((Nat.toDigits 10 n).length - 1) ≤ n := by
  have size := Nat.length_toDigits_pos (b := 10) (n := n)
  generalize length : (Nat.toDigits 10 n).length = count at size
  rcases Nat.eq_or_lt_of_le (show 1 ≤ count from size) with rfl | more
  · exact positive
  · by_contra below
    have short := (Nat.length_toDigits_le_iff (by decide) (show 0 < count - 1 by omega)).mpr (Nat.not_le.mp below)
    omega

theorem exists_find_place {unit value bound : Nat} (enough : unit ≤ value * 10 ^ bound) :
    ∃ zeros, ((List.range (bound + 1)).find? fun zeros => unit ≤ value * 10 ^ zeros) = some zeros ∧
      unit ≤ value * 10 ^ zeros := by
  cases found : (List.range (bound + 1)).find? fun zeros => unit ≤ value * 10 ^ zeros with
  | none =>
    have never := List.find?_eq_none.mp found bound (List.mem_range.mpr (Nat.lt_succ_self _))
    exact absurd (decide_eq_true enough) never
  | some zeros =>
    have hit := List.find?_some found
    exact ⟨zeros, rfl, of_decide_eq_true hit⟩

/-- Seventeen digits reach down to a place that is fine enough. -/
theorem pointOf_fine {bits : Nat} (nonzero : bits ≠ 0) :
    10 ^ 16 * (2 ^ 1074 * 10 ^ (pointOf bits - 17).toNat) ≤
      binary64.decode bits * 10 ^ (-(pointOf bits - 17)).toNat := by
  have positive := decode_pos nonzero
  have smallest : 2 ^ 1074 ≤ 1 * 10 ^ 324 := by decide +kernel
  have unitPositive : 0 < 2 ^ 1074 := by positivity
  unfold pointOf
  dsimp only
  generalize binary64.decode bits = value at positive
  generalize 2 ^ 1074 = unit at smallest unitPositive
  split
  · rename_i normal
    have least := (Nat.le_div_iff_mul_le unitPositive).mp
      (pow_length_toDigits_le (Nat.div_pos normal unitPositive))
    have size := Nat.length_toDigits_pos (b := 10) (n := value / unit)
    generalize (Nat.toDigits 10 (value / unit)).length = count at least size
    have place : 16 + ((count : Int) - 17).toNat = (count - 1) + (-((count : Int) - 17)).toNat := by omega
    calc 10 ^ 16 * (unit * 10 ^ ((count : Int) - 17).toNat)
        = unit * 10 ^ (16 + ((count : Int) - 17).toNat) := by rw [Nat.pow_add, Nat.mul_left_comm]
      _ = 10 ^ (count - 1) * unit * 10 ^ (-((count : Int) - 17)).toNat := by
        rw [place, Nat.pow_add, ← Nat.mul_assoc, Nat.mul_comm unit]
      _ ≤ value * 10 ^ (-((count : Int) - 17)).toNat := Nat.mul_le_mul_right _ least
  · obtain ⟨zeros, found, hit⟩ := exists_find_place (smallest.trans (Nat.mul_le_mul_right _ positive))
    have up : ((1 - (zeros : Int)) - 17).toNat = 0 := by omega
    have down : (-((1 - (zeros : Int)) - 17)).toNat = 16 + zeros := by omega
    rw [found, Option.getD_some, up, down, Nat.pow_add, Nat.pow_zero, Nat.mul_one, Nat.mul_left_comm]
    exact Nat.mul_le_mul_left _ hit

/-- Of the decimals with 17 digits the nearest reads back. -/
theorem reads_of_fine {bits : Nat} {exponent : Int} (finite : bits < binary64.infinity)
    (fine : 10 ^ 16 * (2 ^ 1074 * 10 ^ exponent.toNat) ≤ binary64.decode bits * 10 ^ (-exponent).toNat) :
    reads bits (roundDiv (binary64.decode bits * 10 ^ (-exponent).toNat) (2 ^ 1074 * 10 ^ exponent.toNat))
      exponent = true := by
  have unit : 0 < 2 ^ 1074 * 10 ^ exponent.toNat := by positivity
  obtain ⟨above, below⟩ := roundDiv_near (binary64.decode bits * 10 ^ (-exponent).toNat) unit
  generalize nearest : roundDiv _ _ = digits at above below
  refine decide_eq_true (encode_of_near (Nat.pow_pos (by decide)) finite ?_)
  rw [Nat.mul_assoc digits, Nat.mul_comm (10 ^ _)]
  generalize 2 ^ 1074 * 10 ^ exponent.toNat = place at fine above below
  constructor
  · omega
  · omega

theorem decimalOf_reads {bits precision digits : Nat} {point exponent : Int}
    (found : decimalOf bits point precision = some (digits, exponent)) : reads bits digits exponent = true := by
  unfold decimalOf at found
  dsimp only at found
  generalize roundDiv _ _ = nearest at found
  generalize (if nearest = _ then nearest + 1 else nearest - 1) = other at found
  split at found
  · rename_i nearestReads
    cases found
    exact nearestReads
  · split at found
    · rename_i otherReads
      cases found
      exact otherReads
    · cases found

theorem decimalOf_fine {bits : Nat} (nonzero : bits ≠ 0) (finite : bits < binary64.infinity) :
    decimalOf bits (pointOf bits) 17 ≠ none := by
  have fine := reads_of_fine finite (pointOf_fine nonzero)
  unfold decimalOf
  dsimp only
  rw [Nat.cast_ofNat, if_pos fine]
  exact Option.some_ne_none _

theorem shortest_def : shortest = fun bits =>
    match (List.range 17).findSome? fun extra => decimalOf bits (pointOf bits) (extra + 1) with
    | some (digits, exponent) =>
      let text := Nat.toDigits 10 digits
      (text, exponent + text.length)
    | none => (['0'], 1) := by
  delta shortest
  rfl

/-- The shortest digits are those of a number that reads as the double. -/
theorem shortest_reads {bits : Nat} (nonzero : bits ≠ 0) (finite : bits < binary64.infinity) :
    ∃ (digits : Nat) (exponent : Int),
      shortest bits = (Nat.toDigits 10 digits, exponent + (Nat.toDigits 10 digits).length) ∧
        reads bits digits exponent = true := by
  rw [shortest_def]
  beta_reduce
  generalize search : (List.range 17).findSome? (fun extra => decimalOf bits (pointOf bits) (extra + 1)) = found
  cases found with
  | none =>
    have last := List.findSome?_eq_none_iff.mp search 16 (List.mem_range.mpr (by decide))
    exact absurd last (decimalOf_fine nonzero finite)
  | some decimal =>
    obtain ⟨digits, exponent⟩ := decimal
    obtain ⟨extra, _, taken⟩ := List.exists_of_findSome?_eq_some search
    exact ⟨digits, exponent, rfl, decimalOf_reads taken⟩

/-- Moving the digits up and the exponent down leaves the value. -/
theorem ofDecimal_shift (negative : Bool) (digits places : Nat) (exponent : Int) :
    ofDecimal negative (digits * 10 ^ places) (exponent - places) = ofDecimal negative digits exponent := by
  unfold ofDecimal
  generalize 2 ^ 1074 = unit
  refine congrArg (ofBits negative) (binary64.encode_congr (by positivity) (by positivity) ?_)
  have powers : places + (exponent - places).toNat + (-exponent).toNat =
      exponent.toNat + (-(exponent - places)).toNat := by omega
  calc digits * 10 ^ places * 10 ^ (exponent - places).toNat * unit * 10 ^ (-exponent).toNat
      = digits * unit * 10 ^ (places + (exponent - places).toNat + (-exponent).toNat) := by ring
    _ = digits * 10 ^ exponent.toNat * unit * 10 ^ (-(exponent - places)).toNat := by
      rw [powers]
      ring

theorem ofBits_negative_magnitude (x : Double) : ofBits x.negative x.magnitude = x := by
  apply BitVec.eq_of_toNat_eq
  have small := x.isLt
  unfold ofBits magnitude negative
  rw [BitVec.toNat_ofNat, BitVec.msb_eq_decide]
  by_cases high : 2 ^ 63 ≤ x.toNat
  · rw [decide_eq_true (by simpa using high), if_pos rfl]
    omega
  · rw [decide_eq_false (by simpa using high), if_neg (by decide)]
    omega

theorem negative_ofBits {magnitude : Nat} (small : magnitude < 2 ^ 63) : (ofBits false magnitude).negative = false := by
  unfold ofBits negative
  rw [BitVec.msb_eq_decide, BitVec.toNat_ofNat]
  exact decide_eq_false (by simp only [Bool.false_eq_true, if_false]; omega)

theorem ofRatio_natCast (part whole : Nat) :
    ofRatio part whole = ofBits false (binary64.encode (part * 2 ^ 1074) whole) := by
  have positive : ¬(part : Int) * 2 ^ 1074 < 0 :=
    Int.not_lt.mpr (Int.mul_nonneg (Int.natCast_nonneg part) (Int.pow_nonneg (by decide)))
  have size (places : Nat) : ((part : Int) * 2 ^ places).natAbs = part * 2 ^ places := by
    rw [Int.natAbs_mul, Int.natAbs_natCast, Int.natAbs_pow, show (2 : Int).natAbs = 2 from rfl]
  rw [ofRatio, ofUnits, decide_eq_false positive, size]

/-- A share of a whole, in units, is off by at most a quarter of the step below one. -/
theorem share_near {part whole : Nat} (positive : 0 < whole) (within : part ≤ whole) :
    part * 2 ^ 1074 ≤ binary64.decode (binary64.encode (part * 2 ^ 1074) whole) * whole + whole * 2 ^ 1020 ∧
      binary64.decode (binary64.encode (part * 2 ^ 1074) whole) * whole ≤ part * 2 ^ 1074 + whole * 2 ^ 1020 := by
  rcases within.lt_or_eq with less | rfl
  · have scaled (unit : Nat) (some : 0 < unit) : part * unit / whole < unit := by
      rw [Nat.div_lt_iff_lt_mul positive, Nat.mul_comm part]
      exact Nat.mul_lt_mul_of_pos_left less some
    have quotient := scaled (2 ^ 1074) (pow_pos (by decide) _)
    generalize place : Nat.log2 (part * 2 ^ 1074 / whole) - 52 = shift
    have bound : shift ≤ 1020 + 1 := by
      rcases Nat.eq_zero_or_pos (part * 2 ^ 1074 / whole) with zero | nonzero
      · rw [zero, Nat.log2_zero] at place
        omega
      · have under (e : Nat) (less : part * 2 ^ 1074 / whole < 2 ^ e) : Nat.log2 (part * 2 ^ 1074 / whole) < e :=
          (Nat.log2_lt nonzero.ne').mpr less
        have below := under 1074 quotient
        omega
    obtain ⟨above, below⟩ := decode_encode_near positive place (by omega)
    have step (e : Nat) (bound : shift ≤ e + 1) : whole * 2 ^ shift ≤ 2 * (whole * 2 ^ e) := by
      have double : whole * 2 ^ (e + 1) = 2 * (whole * 2 ^ e) := by ring
      exact (Nat.mul_le_mul_left whole (Nat.pow_le_pow_right (by decide) bound)).trans_eq double
    have half := step 1020 bound
    exact ⟨by omega, by omega⟩
  · have itself : binary64.decode (binary64.encode (part * 2 ^ 1074) part) = 2 ^ 1074 := by
      have reduced := binary64.encode_scale (2 ^ 1074) 1 positive
      rw [Nat.one_mul, Nat.mul_comm (2 ^ 1074)] at reduced
      rw [reduced]
      decide +kernel
    rw [itself, Nat.mul_comm part]
    exact ⟨Nat.le_add_right _ _, Nat.le_add_right _ _⟩

open Json (Numeral decimal exponentValue literalValue decimal_map isDigit_map map_toDigits_ne_nil toDigits_first)

/-- A number that is written so and stands for `digits * 10 ^ exponent`. -/
structure Written (n : Numeral) (written : List Char) (digits : Nat) (exponent : Int) : Prop where
  text_eq : n.text = written.map Char.toNat
  isFloat : n.places ≠ [] ∨ n.exponent ≠ []
  value : ∃ places : Nat, decimal (n.whole ++ n.places) = digits * 10 ^ places ∧
    exponentValue n.exponent - n.places.length = exponent - places

theorem Written.literalValue_eq {n : Numeral} {written : List Char} {digits : Nat} {exponent : Int}
    (is : Written n written digits exponent) : literalValue n.text = ofDecimal n.negative digits exponent := by
  obtain ⟨places, all, moved⟩ := is.value
  rw [n.literalValue_eq, all, moved, ofDecimal_shift]

/-- The digits after a point, with zeros first. -/
theorem written_small (negative : Bool) (digits : Nat) {point : Int} (small : point ≤ 0) :
    ∃ n : Numeral, n.negative = negative ∧ Written n ((if negative then ['-'] else []) ++
      ('0' :: '.' :: List.replicate (-point).toNat '0' ++ Nat.toDigits 10 digits)) digits
        (point - (Nat.toDigits 10 digits).length) := by
  let fraction := List.replicate (-point).toNat '0' ++ Nat.toDigits 10 digits
  have all : ∀ c ∈ fraction, c.isDigit = true := append_isDigit (zeros_isDigit _) (toDigits_isDigit digits)
  have nonempty : fraction.map Char.toNat ≠ [] := map_toDigits_ne_nil _ digits
  refine ⟨⟨negative, [0x30], fraction.map Char.toNat, [], by decide, Or.inl rfl, isDigit_map all, Or.inl rfl⟩, rfl,
    ?_, Or.inl nonempty, 0, ?_, ?_⟩
  · unfold Numeral.text Numeral.point
    rw [if_neg nonempty]
    cases negative <;> simp [fraction, text]
  · show decimal (('0' :: fraction).map Char.toNat) = _
    rw [decimal_map, Nat.ofDigitChars_cons, Nat.ofDigitChars_append, Nat.ofDigitChars_replicate_zero]
    simp
  · have length : (fraction.map Char.toNat).length = (-point).toNat + (Nat.toDigits 10 digits).length := by
      rw [List.length_map, List.length_append, List.length_replicate]
    show (0 : Int) - ((fraction.map Char.toNat).length : Nat) = _
    rw [length]
    omega

/-- The digits before a point, with zeros where there are too few. -/
def wholeDigits (shown : List Char) (point : Int) : List Char :=
  shown.take point.toNat ++ List.replicate (point - shown.length).toNat '0'

/-- The digits behind it, or a zero. -/
def fractionDigits (shown : List Char) (point : Int) : List Char :=
  if (shown.drop point.toNat).isEmpty then ['0'] else shown.drop point.toNat

theorem fractionDigits_isDigit {shown : List Char} (digit : ∀ c ∈ shown, c.isDigit = true) (point : Int) :
    ∀ c ∈ fractionDigits shown point, c.isDigit = true := by
  intro c member
  unfold fractionDigits at member
  split at member
  · rw [List.mem_singleton.mp member]
    rfl
  · exact digit c (List.mem_of_mem_drop member)

theorem fractionDigits_ne_nil (shown : List Char) (point : Int) : (fractionDigits shown point).map Char.toNat ≠ [] := by
  unfold fractionDigits
  split
  · exact List.cons_ne_nil _ _
  · rename_i more
    rwa [Ne, List.map_eq_nil_iff, ← List.isEmpty_iff]

/-- The point moves the digits, over some zeros where it stands behind them. -/
theorem pointed_value (shown : List Char) {point : Int} (large : 0 < point) : ∃ places : Nat,
    Nat.ofDigitChars 10 (wholeDigits shown point ++ fractionDigits shown point) 0 =
        Nat.ofDigitChars 10 shown 0 * 10 ^ places ∧
      (0 : Int) - (fractionDigits shown point).length = point - shown.length - places := by
  unfold wholeDigits fractionDigits
  by_cases inside : point.toNat < shown.length
  · have more : ¬(shown.drop point.toNat).isEmpty = true := by
      rw [List.isEmpty_iff, List.drop_eq_nil_iff]
      omega
    rw [if_neg more, show (point - shown.length).toNat = 0 by omega, List.replicate_zero, List.append_nil,
      List.take_append_drop, List.length_drop]
    exact ⟨0, by rw [Nat.pow_zero, Nat.mul_one], by omega⟩
  · have none : (shown.drop point.toNat).isEmpty = true := by
      rw [List.isEmpty_iff, List.drop_eq_nil_iff]
      omega
    rw [if_pos none, List.take_of_length_le (by omega), List.append_assoc, ← List.replicate_succ',
      List.length_singleton]
    refine ⟨(point - shown.length).toNat + 1, ?_, by omega⟩
    rw [Nat.ofDigitChars_append, Nat.ofDigitChars_replicate_zero, Nat.mul_comm]

/-- The point among the digits, or after them and some zeros. -/
theorem written_plain (negative : Bool) {digits : Nat} (positive : 0 < digits) {point : Int} (large : 0 < point) :
    ∃ n : Numeral, n.negative = negative ∧ Written n ((if negative then ['-'] else []) ++
      ((Nat.toDigits 10 digits).take point.toNat ++
          List.replicate (point - (Nat.toDigits 10 digits).length).toNat '0' ++ '.' ::
        if ((Nat.toDigits 10 digits).drop point.toNat).isEmpty then ['0']
        else (Nat.toDigits 10 digits).drop point.toNat)) digits
        (point - (Nat.toDigits 10 digits).length) := by
  obtain ⟨first, rest, split, nonzero⟩ := toDigits_first positive
  have digit := toDigits_isDigit digits
  have read : Nat.ofDigitChars 10 (Nat.toDigits 10 digits) 0 = digits := Nat.ofDigitChars_ten_toDigits
  generalize Nat.toDigits 10 digits = shown at split digit read ⊢
  have whole : ∀ c ∈ wholeDigits shown point, c.isDigit = true :=
    append_isDigit (fun c member => digit c (List.mem_of_mem_take member)) (zeros_isDigit _)
  have wholeFirst : ∃ c more, (wholeDigits shown point).map Char.toNat = c :: more ∧ c ≠ 0x30 := by
    obtain ⟨count, some⟩ : ∃ count, point.toNat = count + 1 := ⟨point.toNat - 1, by omega⟩
    rw [wholeDigits, some, split]
    exact ⟨_, _, rfl, fun same => nonzero (Char.toNat_inj.mp same)⟩
  have nonempty := fractionDigits_ne_nil shown point
  refine ⟨⟨negative, (wholeDigits shown point).map Char.toNat, (fractionDigits shown point).map Char.toNat, [],
    isDigit_map whole, Or.inr wholeFirst, isDigit_map (fractionDigits_isDigit digit point), Or.inl rfl⟩, rfl, ?_,
    Or.inl nonempty, ?_⟩
  · unfold Numeral.text Numeral.point
    rw [if_neg nonempty]
    cases negative <;> simp [wholeDigits, fractionDigits, text]
  · obtain ⟨places, value, moved⟩ := pointed_value shown large
    refine ⟨places, ?_, ?_⟩
    · show decimal ((wholeDigits shown point).map Char.toNat ++ (fractionDigits shown point).map Char.toNat) = _
      rw [← List.map_append, decimal_map, value, read]
    · show (0 : Int) - (((fractionDigits shown point).map Char.toNat).length : Nat) = _
      rw [List.length_map]
      exact moved

/-- An exponent of at least two digits reads as itself. -/
theorem exponentValue_zeroPad (point : Int) :
    exponentValue (0x65 :: (if point ≤ 0 then 0x2D else 0x2B) :: (zeroPad 2 (point - 1).natAbs).map Char.toNat) =
      point - 1 := by
  have value : decimal ((zeroPad 2 (point - 1).natAbs).map Char.toNat) = (point - 1).natAbs := by
    rw [decimal_map, ofDigitChars_zeroPad]
  generalize (zeroPad 2 (point - 1).natAbs).map Char.toNat = power at value ⊢
  split
  · show -(decimal power : Int) = _
    rw [value]
    omega
  · show (decimal power : Int) = _
    rw [value]
    omega

/-- One digit before the point, and an exponent. -/
theorem written_exponent (negative : Bool) {digits : Nat} (positive : 0 < digits) (point : Int) :
    ∃ n : Numeral, n.negative = negative ∧ Written n ((if negative then ['-'] else []) ++
      ((Nat.toDigits 10 digits).take 1 ++
        (if (Nat.toDigits 10 digits).length = 1 then [] else '.' :: (Nat.toDigits 10 digits).drop 1) ++
          'e' :: (if point ≤ 0 then '-' else '+') :: zeroPad 2 (point - 1).natAbs)) digits
        (point - (Nat.toDigits 10 digits).length) := by
  obtain ⟨first, rest, split, nonzero⟩ := toDigits_first positive
  have digit := toDigits_isDigit digits
  have read : Nat.ofDigitChars 10 (Nat.toDigits 10 digits) 0 = digits := Nat.ofDigitChars_ten_toDigits
  rw [split] at digit read ⊢
  let power := (zeroPad 2 (point - 1).natAbs).map Char.toNat
  have powerDigits : ∀ c ∈ zeroPad 2 (point - 1).natAbs, c.isDigit = true := zeroPad_isDigit _ _
  have powerSome : power ≠ [] := map_toDigits_ne_nil _ _
  have firstDigit : ∀ c ∈ [first], c.isDigit = true := fun c member =>
    digit c (List.mem_singleton.mp member ▸ List.mem_cons_self)
  let sign : Nat := if point ≤ 0 then 0x2D else 0x2B
  have signed : sign = 0x2D ∨ sign = 0x2B := by
    simp only [sign]
    split
    · exact Or.inl rfl
    · exact Or.inr rfl
  refine ⟨⟨negative, [first.toNat], rest.map Char.toNat, 0x65 :: sign :: power,
    isDigit_map firstDigit, Or.inr ⟨_, [], rfl, fun same => nonzero (Char.toNat_inj.mp same)⟩,
    isDigit_map (fun c member => digit c (List.mem_cons_of_mem _ member)),
    Or.inr ⟨sign, power, rfl, signed, powerSome, isDigit_map powerDigits⟩⟩, rfl, ?_, Or.inr (List.cons_ne_nil _ _),
    0, ?_, ?_⟩
  · unfold Numeral.text Numeral.point
    cases negative <;> cases rest <;> by_cases low : point ≤ 0 <;> simp [sign, power, low, text]
  · show decimal ((first :: rest).map Char.toNat) = _
    rw [decimal_map, read, Nat.pow_zero, Nat.mul_one]
  · show exponentValue (0x65 :: sign :: power) - ((rest.map Char.toNat).length : Nat) = _
    rw [exponentValue_zeroPad, List.length_map, List.length_cons]
    omega

/-- The text of a zero. -/
theorem written_zero (negative : Bool) : ∃ n : Numeral, n.negative = negative ∧
    Written n ((if negative then ['-'] else []) ++ "0.0".toList) 0 0 := by
  refine ⟨⟨negative, [0x30], [0x30], [], by decide, Or.inl rfl, by decide, Or.inl rfl⟩, rfl, ?_,
    Or.inl (List.cons_ne_nil _ _), 1, ?_, ?_⟩
  · cases negative <;> rfl
  · show decimal [0x30, 0x30] = 0 * 10 ^ 1
    decide
  · show (0 : Int) - (1 : Nat) = 0 - (1 : Nat)
    rfl

theorem repr_def : repr = fun x =>
    if !x.isFinite then String.ofList x.special
    else if x.magnitude = 0 then String.ofList (x.sign ++ "0.0".toList)
    else
      let (digits, point) := shortest x.magnitude
      let zeros (count : Int) : List Char := List.replicate count.toNat '0'
      let text :=
        if -4 < point ∧ point ≤ 0 then '0' :: '.' :: zeros (-point) ++ digits
        else if 0 < point ∧ point ≤ 16 then
          let whole := digits.take point.toNat ++ zeros (point - digits.length)
          let fraction := digits.drop point.toNat
          whole ++ '.' :: if fraction.isEmpty then ['0'] else fraction
        else
          let mantissa := digits.take 1 ++ if digits.length = 1 then [] else '.' :: digits.drop 1
          mantissa ++ 'e' :: (if point ≤ 0 then '-' else '+') :: zeroPad 2 (point - 1).natAbs
      String.ofList (x.sign ++ text) := by
  delta repr
  rfl

/-- The digits laid out around the point. -/
def layout (digits : List Char) (point : Int) : List Char :=
  let zeros (count : Int) : List Char := List.replicate count.toNat '0'
  if -4 < point ∧ point ≤ 0 then '0' :: '.' :: zeros (-point) ++ digits
  else if 0 < point ∧ point ≤ 16 then
    let whole := digits.take point.toNat ++ zeros (point - digits.length)
    let fraction := digits.drop point.toNat
    whole ++ '.' :: if fraction.isEmpty then ['0'] else fraction
  else
    let mantissa := digits.take 1 ++ if digits.length = 1 then [] else '.' :: digits.drop 1
    mantissa ++ 'e' :: (if point ≤ 0 then '-' else '+') :: zeroPad 2 (point - 1).natAbs

theorem repr_eq {x : Double} (finite : x.isFinite = true) (nonzero : x.magnitude ≠ 0) {digits : List Char}
    {point : Int} (short : shortest x.magnitude = (digits, point)) :
    repr x = String.ofList (x.sign ++ layout digits point) := by
  rw [congrFun repr_def x, short]
  rw [finite, if_neg (by decide), if_neg nonzero]
  rfl

theorem repr_zero {x : Double} (finite : x.isFinite = true) (zero : x.magnitude = 0) :
    repr x = String.ofList (x.sign ++ "0.0".toList) := by
  rw [congrFun repr_def x]
  generalize shortest x.magnitude = short
  rw [finite, if_neg (by decide), if_pos zero]

theorem layout_written (negative : Bool) {digits : Nat} (positive : 0 < digits) (point : Int) :
    ∃ n : Numeral, n.negative = negative ∧
      Written n ((if negative then ['-'] else []) ++ layout (Nat.toDigits 10 digits) point) digits
        (point - (Nat.toDigits 10 digits).length) := by
  unfold layout
  dsimp only
  by_cases small : -4 < point ∧ point ≤ 0
  · rw [if_pos small]
    exact written_small negative digits small.2
  · rw [if_neg small]
    by_cases large : 0 < point ∧ point ≤ 16
    · rw [if_pos large]
      exact written_plain negative positive large.1
    · rw [if_neg large]
      exact written_exponent negative positive point

/-- What `repr` writes for a finite value is a number that stands for some
digits that read as the value. -/
theorem repr_written {x : Double} (finite : x.isFinite = true) :
    ∃ (n : Numeral) (digits : Nat) (exponent : Int), n.negative = x.negative ∧
      Written n (repr x).toList digits exponent ∧ ofDecimal x.negative digits exponent = x := by
  by_cases zero : x.magnitude = 0
  · obtain ⟨n, sign, written⟩ := written_zero x.negative
    refine ⟨n, 0, 0, sign, ?_, ?_⟩
    · rw [repr_zero finite zero, String.toList_ofList]
      exact written
    · rw [ofDecimal, Nat.zero_mul, Nat.zero_mul, BinaryFormat.encode_zero, ← zero, ofBits_negative_magnitude]
  · obtain ⟨digits, exponent, short, reads⟩ := shortest_reads zero (of_decide_eq_true finite)
    have same := of_decide_eq_true reads
    have positive : 0 < digits := by
      rcases Nat.eq_zero_or_pos digits with rfl | positive
      · rw [Nat.zero_mul, Nat.zero_mul, BinaryFormat.encode_zero] at same
        exact absurd same.symm zero
      · exact positive
    obtain ⟨n, sign, written⟩ := layout_written x.negative positive (exponent + (Nat.toDigits 10 digits).length)
    rw [Int.add_sub_cancel] at written
    refine ⟨n, digits, exponent, sign, ?_, ?_⟩
    · rw [repr_eq finite zero short, String.toList_ofList]
      exact written
    · rw [ofDecimal, same, ofBits_negative_magnitude]

/-- The text of a finite value is a float literal, which reads as the value. -/
theorem literalValue_repr {x : Double} (finite : x.isFinite = true) :
    ∃ n : Numeral, text (repr x) = n.text ∧ (n.places ≠ [] ∨ n.exponent ≠ []) ∧ literalValue (text (repr x)) = x := by
  obtain ⟨n, digits, exponent, sign, written, value⟩ := repr_written finite
  refine ⟨n, written.text_eq.symm, written.isFloat, ?_⟩
  rw [text, ← written.text_eq, written.literalValue_eq, sign, value]

end Double

end Python
