import Amel.Library.Assoc
import Amel.Python.Json

namespace Python

/-- `str.encode("utf-8")`, or `none` where it raises for a surrogate. -/
def encodeUtf8 : Text → Option Bytes
  | [] => some []
  | c :: rest => do
    let bytes ← if c ≤ 0x7F then some [c]
      else if c ≤ 0x7FF then some [0xC0 + c / 0x40, 0x80 + c % 0x40]
      else if 0xD800 ≤ c ∧ c ≤ 0xDFFF then none
      else if c ≤ 0xFFFF then some [0xE0 + c / 0x1000, 0x80 + c / 0x40 % 0x40, 0x80 + c % 0x40]
      else some [0xF0 + c / 0x40000, 0x80 + c / 0x1000 % 0x40, 0x80 + c / 0x40 % 0x40, 0x80 + c % 0x40]
    let more ← encodeUtf8 rest
    return bytes.map UInt8.ofNat ++ more

/-- A text of printing ASCII. -/
def Printing (s : Text) : Prop := ∀ c ∈ s, 0x20 ≤ c ∧ c ≤ 0x7E

instance (s : Text) : Decidable (Printing s) := inferInstanceAs (Decidable (∀ c ∈ s, 0x20 ≤ c ∧ c ≤ 0x7E))

theorem Printing.append {s t : Text} (first : Printing s) (second : Printing t) : Printing (s ++ t) := by
  intro c member
  rcases List.mem_append.mp member with inFirst | inSecond
  · exact first c inFirst
  · exact second c inSecond

theorem encodeUtf8_of_printing {s : Text} (printing : Printing s) : encodeUtf8 s = some (s.map UInt8.ofNat) := by
  induction s with
  | nil => rfl
  | cons c s ih =>
    have small := (printing c List.mem_cons_self).2
    rw [encodeUtf8, if_pos (by omega), ih fun d member => printing d (List.mem_cons_of_mem _ member)]
    rfl

theorem toNat_of_printing {c : Nat} (printing : 0x20 ≤ c ∧ c ≤ 0x7E) : (UInt8.ofNat c).toNat = c := by
  rw [UInt8.toNat_ofNat']
  omega

theorem decodeUtf8_of_printing {s : Text} (printing : Printing s) : decodeUtf8 (s.map UInt8.ofNat) = some s := by
  induction s with
  | nil => rfl
  | cons c s ih =>
    have one := printing c List.mem_cons_self
    rw [List.map_cons, decodeUtf8.eq_def]
    dsimp only
    rw [toNat_of_printing one, if_pos (by omega), ih fun d member => printing d (List.mem_cons_of_mem _ member)]
    rfl

theorem not_isPrefixOf_of_printing {s : Text} (printing : Printing s) {code : UInt8}
    (other : code.toNat < 0x20 ∨ 0x7E < code.toNat) (more : Bytes) :
    (code :: more).isPrefixOf (s.map UInt8.ofNat) = false := by
  cases s with
  | nil => rfl
  | cons c s =>
    have one := printing c List.mem_cons_self
    have apart : code ≠ UInt8.ofNat c := by
      rintro rfl
      rw [toNat_of_printing one] at other
      omega
    rw [List.map_cons, List.isPrefixOf, beq_false_of_ne apart, Bool.false_and]

/-- Bytes of printing ASCII are taken for UTF-8. -/
theorem detectEncoding_of_printing {s : Text} (printing : Printing s) :
    detectEncoding (s.map UInt8.ofNat) = .utf8 := by
  have nonzero (c : Nat) (member : c ∈ s) : UInt8.ofNat c ≠ 0 := by
    have one := toNat_of_printing (printing c member)
    intro zero
    rw [zero] at one
    have least := (printing c member).1
    rw [← one] at least
    exact absurd least (by decide)
  have unmarked (code : UInt8) (more : Bytes) (other : code.toNat < 0x20 ∨ 0x7E < code.toNat) :=
    not_isPrefixOf_of_printing printing other more
  unfold detectEncoding
  rw [unmarked 0x00 _ (by decide), unmarked 0xFF _ (by decide), unmarked 0xFE _ (by decide),
    unmarked 0xFF _ (by decide), unmarked 0xEF _ (by decide)]
  rcases s with _ | ⟨a, _ | ⟨b, _ | ⟨c, _ | ⟨d, more⟩⟩⟩⟩
  · rfl
  · rfl
  · simp only [List.map_cons, List.map_nil, if_neg (nonzero a (by simp)), if_neg (nonzero b (by simp))]
    rfl
  · rfl
  · simp only [List.map_cons, if_neg (nonzero a (by simp)), if_neg (nonzero b (by simp))]
    rfl

namespace Json

/-- A digit of `f"{n:04x}"`. -/
def hexDigitOf (n : Nat) : Nat := if n < 10 then 0x30 + n else 0x61 + (n - 10)

/-- `"\\u{unit:04x}"`. -/
def escapeUnit (unit : Nat) : Text :=
  [0x5C, 0x75, hexDigitOf (unit / 0x1000 % 16), hexDigitOf (unit / 0x100 % 16), hexDigitOf (unit / 0x10 % 16),
    hexDigitOf (unit % 16)]

/-- `ESCAPE_DCT`, by the character after the backslash. -/
def escapeDct : List (Nat × Nat) :=
  [(0x5C, 0x5C), (0x22, 0x22), (0x08, 0x62), (0x0C, 0x66), (0x0A, 0x6E), (0x0D, 0x72), (0x09, 0x74)]

/-- One code point under `ensure_ascii`. -/
def escape (c : Nat) : Text :=
  match escapeDct.lookup c with
  | some e => [0x5C, e]
  | none =>
    if 0x20 ≤ c ∧ c ≤ 0x7E then [c]
    else if c < 0x10000 then escapeUnit c
    else escapeUnit (0xD800 + (c - 0x10000) / 0x400) ++ escapeUnit (0xDC00 + (c - 0x10000) % 0x400)

/-- `py_encode_basestring_ascii`. -/
def encodeString (s : Text) : Text := 0x22 :: s.flatMap escape ++ [0x22]

theorem hexDigit_hexDigitOf {n : Nat} (small : n < 16) : hexDigit (hexDigitOf n) = some n := by
  unfold hexDigitOf hexDigit isDigit
  split
  · rw [if_pos (by simp only [Bool.and_eq_true, decide_eq_true_eq]; omega)]
    congr 1
    omega
  · rw [if_neg (by simp only [Bool.and_eq_true, decide_eq_true_eq]; omega), if_pos (by omega)]
    congr 1
    omega

theorem hex4_hexDigitOf {unit : Nat} (small : unit < 0x10000) :
    hex4 (hexDigitOf (unit / 0x1000 % 16)) (hexDigitOf (unit / 0x100 % 16)) (hexDigitOf (unit / 0x10 % 16))
      (hexDigitOf (unit % 16)) = some unit := by
  have value : ((unit / 0x1000 % 16 * 16 + unit / 0x100 % 16) * 16 + unit / 0x10 % 16) * 16 + unit % 16 = unit := by
    omega
  unfold hex4
  rw [hexDigit_hexDigitOf (Nat.mod_lt _ (by decide)), hexDigit_hexDigitOf (Nat.mod_lt _ (by decide)),
    hexDigit_hexDigitOf (Nat.mod_lt _ (by decide)), hexDigit_hexDigitOf (Nat.mod_lt _ (by decide))]
  exact congrArg some value

section ScanString

variable (opened : Nat) {tail : Text}

theorem scanString_plain {c : Nat} (quote : c ≠ 0x22) (backslash : c ≠ 0x5C) (printing : 0x20 ≤ c) :
    scanString opened (c :: tail) = prepend c (scanString opened tail) := by
  rw [scanString.eq_def]
  dsimp only
  rw [if_neg quote, if_pos backslash, if_neg (by omega)]

theorem scanString_simple {e decoded : Nat} (noUnit : e ≠ 0x75) (found : simpleEscape e = some decoded) :
    scanString opened (0x5C :: e :: tail) = prepend decoded (scanString opened tail) := by
  rw [scanString.eq_def]
  dsimp only
  rw [if_neg (by decide), if_neg (by decide), if_pos noUnit, found]

theorem scanString_unit {unit : Nat} (small : unit < 0x10000) (low : isHighSurrogate unit = false) (more : tail ≠ []) :
    scanString opened (escapeUnit unit ++ tail) = prepend unit (scanString opened tail) := by
  have hex := hex4_hexDigitOf small
  rw [scanString.eq_def]
  simp only [escapeUnit, List.cons_append, List.nil_append]
  rw [if_neg (by decide), if_neg (by decide), if_neg (by decide), if_neg (by rwa [List.isEmpty_iff]), hex]
  dsimp only
  rw [low, if_neg (by decide)]

theorem scanString_pair {high low : Nat} (isHigh : isHighSurrogate high = true) (isLow : isLowSurrogate low = true)
    (more : tail ≠ []) : scanString opened (escapeUnit high ++ escapeUnit low ++ tail) =
      prepend (joinSurrogates high low) (scanString opened tail) := by
  have highSmall : high < 0x10000 := by
    unfold isHighSurrogate at isHigh
    simp only [Bool.and_eq_true, decide_eq_true_eq] at isHigh
    omega
  have lowSmall : low < 0x10000 := by
    unfold isLowSurrogate at isLow
    simp only [Bool.and_eq_true, decide_eq_true_eq] at isLow
    omega
  have hexHigh := hex4_hexDigitOf highSmall
  have hexLow := hex4_hexDigitOf lowSmall
  have pairs : True ∧ True ∧ (!tail.isEmpty) = true := by
    refine ⟨trivial, trivial, ?_⟩
    rw [Bool.not_eq_true', ← Bool.not_eq_true, List.isEmpty_iff]
    exact more
  rw [scanString.eq_def]
  simp only [escapeUnit, List.cons_append, List.nil_append]
  rw [if_neg (by decide), if_neg (by decide), if_neg (by decide), if_neg (by rw [List.isEmpty_cons]; decide), hexHigh]
  dsimp only
  rw [isHigh, if_pos rfl, if_pos pairs, hexLow]
  dsimp only
  rw [isLow, if_pos rfl]

/-- What one code point is written as reads as that code point. -/
theorem scanString_escape {c : Nat} (scalar : c < 0xD800 ∨ 0xDFFF < c ∧ c ≤ 0x10FFFF) (more : tail ≠ []) :
    scanString opened (escape c ++ tail) = prepend c (scanString opened tail) := by
  unfold escape
  split
  · rename_i e short
    have table : ∀ entry ∈ escapeDct, entry.2 ≠ 0x75 ∧ simpleEscape entry.2 = some entry.1 := by decide
    obtain ⟨noUnit, reads⟩ := table _ (List.mem_of_lookup_eq_some short)
    exact scanString_simple opened noUnit reads
  · rename_i long
    have quote : c ≠ 0x22 := by
      rintro rfl
      exact absurd long (by decide)
    have backslash : c ≠ 0x5C := by
      rintro rfl
      exact absurd long (by decide)
    split
    · rename_i printing
      exact scanString_plain opened quote backslash printing.1
    split
    · rename_i small
      refine scanString_unit opened small ?_ more
      unfold isHighSurrogate
      simp only [Bool.and_eq_false_iff, decide_eq_false_iff_not]
      omega
    · rename_i large
      have joined : joinSurrogates (0xD800 + (c - 0x10000) / 0x400) (0xDC00 + (c - 0x10000) % 0x400) = c := by
        unfold joinSurrogates
        omega
      rw [scanString_pair opened _ _ more, joined]
      · unfold isHighSurrogate
        simp only [Bool.and_eq_true, decide_eq_true_eq]
        omega
      · unfold isLowSurrogate
        simp only [Bool.and_eq_true, decide_eq_true_eq]
        omega

/-- A string reads back, whatever follows its closing quote. -/
theorem scanString_encodeString {s : Text} (scalar : Scalar s) (rest : Text) :
    scanString opened (s.flatMap escape ++ 0x22 :: rest) = .ok (s, rest) := by
  induction s with
  | nil =>
    rw [List.flatMap_nil, List.nil_append, scanString.eq_def]
    exact if_pos rfl
  | cons c s ih =>
    rw [List.flatMap_cons, List.append_assoc, scanString_escape opened (scalar c List.mem_cons_self) (by simp),
      ih fun d member => scalar d (List.mem_cons_of_mem _ member)]
    rfl

end ScanString

theorem hexDigitOf_printing {n : Nat} (small : n < 16) : 0x20 ≤ hexDigitOf n ∧ hexDigitOf n ≤ 0x7E := by
  unfold hexDigitOf
  split
  · omega
  · omega

theorem escapeUnit_printing (unit : Nat) : Printing (escapeUnit unit) := by
  intro c member
  simp only [escapeUnit, List.mem_cons, List.not_mem_nil, or_false] at member
  rcases member with rfl | rfl | rfl | rfl | rfl | rfl
  · decide
  · decide
  · exact hexDigitOf_printing (Nat.mod_lt _ (by decide))
  · exact hexDigitOf_printing (Nat.mod_lt _ (by decide))
  · exact hexDigitOf_printing (Nat.mod_lt _ (by decide))
  · exact hexDigitOf_printing (Nat.mod_lt _ (by decide))

theorem escape_printing (c : Nat) : Printing (escape c) := by
  unfold escape
  split
  · rename_i e short
    have table : ∀ entry ∈ escapeDct, 0x20 ≤ entry.2 ∧ entry.2 ≤ 0x7E := by decide
    intro code member
    rcases List.mem_pair.mp member with rfl | rfl
    · decide
    · exact table _ (List.mem_of_lookup_eq_some short)
  split
  · rename_i printing
    intro code member
    rwa [List.mem_singleton.mp member]
  split
  · exact escapeUnit_printing c
  · exact (escapeUnit_printing _).append (escapeUnit_printing _)

theorem encodeString_printing (s : Text) : Printing (encodeString s) := by
  have body : Printing (s.flatMap escape) := by
    intro code member
    obtain ⟨c, -, inEscape⟩ := List.mem_flatMap.mp member
    exact escape_printing c code inEscape
  have quote : Printing [0x22] := by decide
  exact (quote.append body).append quote

end Json

end Python
