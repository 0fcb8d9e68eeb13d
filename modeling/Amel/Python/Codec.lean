import Mathlib.Data.List.Basic

namespace Python

/-- A `bytes` object. -/
abbrev Bytes := List UInt8

/-- A `str` as its code points. Python strings may hold lone surrogates,
so a code point is a number and not a `Char`. -/
abbrev Text := List Nat

/-- The code points of a literal. -/
def text (s : String) : Text := s.toList.map Char.toNat

/-- Code points that are no surrogates: what UTF-8 encodes. -/
def Scalar (s : Text) : Prop := ∀ c ∈ s, c < 0xD800 ∨ 0xDFFF < c ∧ c ≤ 0x10FFFF

instance (s : Text) : Decidable (Scalar s) := inferInstanceAs (Decidable (∀ c ∈ s, _))

/-- The characters of a text without surrogates. -/
def characters (s : Text) : String := String.ofList (s.map Char.ofNat)

theorem text_injective : Function.Injective text := by
  intro a b same
  have chars : a.toList = b.toList := List.map_injective_iff.mpr (fun _ _ => Char.toNat_inj.mp) same
  exact String.toList_inj.mp chars

theorem text_scalar (s : String) : Scalar (text s) := by
  intro code member
  obtain ⟨c, -, rfl⟩ := List.mem_map.mp member
  rcases c.valid with low | high
  · exact Or.inl low
  · exact Or.inr ⟨high.1, Nat.le_of_lt_succ high.2⟩

theorem ofNat_toNat_map (s : List Char) : (s.map Char.toNat).map Char.ofNat = s := by
  rw [List.map_map]
  exact (List.map_congr_left fun c _ => Char.ofNat_toNat c).trans (List.map_id' s)

@[simp] theorem characters_text (s : String) : characters (text s) = s := by
  rw [characters, text, ofNat_toNat_map, String.ofList_toList]

theorem text_characters {s : Text} (scalar : Scalar s) : text (characters s) = s := by
  rw [text, characters, String.toList_ofList, List.map_map]
  refine (List.map_congr_left fun code member => ?_).trans (List.map_id' s)
  have valid : code.isValidChar := (scalar code member).imp id fun high => ⟨high.1, Nat.lt_succ_of_le high.2⟩
  rw [Function.comp_apply, Char.ofNat, dif_pos valid]
  rfl

def isHighSurrogate (c : Nat) : Bool := 0xD800 ≤ c && c ≤ 0xDBFF

def isLowSurrogate (c : Nat) : Bool := 0xDC00 ≤ c && c ≤ 0xDFFF

def joinSurrogates (high low : Nat) : Nat := 0x10000 + (high - 0xD800) * 0x400 + (low - 0xDC00)

def isUtf8Tail (b : UInt8) : Bool := 0x80 ≤ b.toNat && b.toNat ≤ 0xBF

/-- `bytes.decode("utf-8", "surrogatepass")`; `none` where it raises
UnicodeDecodeError. Overlong forms and values past U+10FFFF are refused,
three-byte surrogates are let through. -/
def decodeUtf8 : Bytes → Option Text
  | [] => some []
  | a :: rest =>
    if a.toNat ≤ 0x7F then (decodeUtf8 rest).map (a.toNat :: ·)
    else match rest with
      | [] => none
      | b :: rest =>
        if !isUtf8Tail b then none
        else if 0xC2 ≤ a.toNat && a.toNat ≤ 0xDF then
          (decodeUtf8 rest).map (((a.toNat - 0xC0) * 0x40 + (b.toNat - 0x80)) :: ·)
        else match rest with
          | [] => none
          | c :: rest =>
            if !isUtf8Tail c then none
            else if 0xE0 ≤ a.toNat && a.toNat ≤ 0xEF then
              let point := (a.toNat - 0xE0) * 0x1000 + (b.toNat - 0x80) * 0x40 + (c.toNat - 0x80)
              if 0x800 ≤ point then (decodeUtf8 rest).map (point :: ·) else none
            else match rest with
              | [] => none
              | d :: rest =>
                let point := (a.toNat - 0xF0) * 0x40000 + (b.toNat - 0x80) * 0x1000
                  + (c.toNat - 0x80) * 0x40 + (d.toNat - 0x80)
                if isUtf8Tail d && 0xF0 ≤ a.toNat && a.toNat ≤ 0xF4 && 0x10000 ≤ point && point ≤ 0x10FFFF then
                  (decodeUtf8 rest).map (point :: ·)
                else none

/-- The 16-bit units of a byte string; `none` for an odd byte at the end. -/
def utf16Units (bigEndian : Bool) : Bytes → Option (List Nat)
  | [] => some []
  | [_] => none
  | a :: b :: rest =>
    let unit := if bigEndian then a.toNat * 0x100 + b.toNat else b.toNat * 0x100 + a.toNat
    (utf16Units bigEndian rest).map (unit :: ·)

/-- Surrogate pairs become one code point; under "surrogatepass" a lone
surrogate stays. -/
def fromUtf16 : List Nat → Text
  | [] => []
  | [unit] => [unit]
  | high :: low :: rest =>
    if isHighSurrogate high && isLowSurrogate low then joinSurrogates high low :: fromUtf16 rest
    else high :: fromUtf16 (low :: rest)

/-- UTF-32 with "surrogatepass"; `none` past U+10FFFF or for a short tail. -/
def decodeUtf32 (bigEndian : Bool) : Bytes → Option Text
  | [] => some []
  | a :: b :: c :: d :: rest =>
    let point := if bigEndian then ((a.toNat * 0x100 + b.toNat) * 0x100 + c.toNat) * 0x100 + d.toNat
      else ((d.toNat * 0x100 + c.toNat) * 0x100 + b.toNat) * 0x100 + a.toNat
    if point ≤ 0x10FFFF then (decodeUtf32 bigEndian rest).map (point :: ·) else none
  | _ => none

inductive Encoding
  | utf8 | utf8Sig | utf16 | utf16le | utf16be | utf32 | utf32le | utf32be
  deriving DecidableEq, Repr

/-- `bytes.decode(encoding, "surrogatepass")`. "utf-16" and "utf-32" read
their byte order mark and drop it, as "utf-8-sig" drops its own. -/
def Bytes.decode (encoding : Encoding) (bytes : Bytes) : Option Text :=
  match encoding with
  | .utf8 => decodeUtf8 bytes
  | .utf8Sig => decodeUtf8 (bytes.drop 3)
  | .utf16 => (utf16Units (bytes.head? == some 0xFE) (bytes.drop 2)).map fromUtf16
  | .utf16le => (utf16Units false bytes).map fromUtf16
  | .utf16be => (utf16Units true bytes).map fromUtf16
  | .utf32 => decodeUtf32 (bytes.head? == some 0x00) (bytes.drop 4)
  | .utf32le => decodeUtf32 false bytes
  | .utf32be => decodeUtf32 true bytes

/-- `json.detect_encoding`: a byte order mark, else the pattern of zero
bytes at the start (RFC 4627 section 3), else UTF-8. -/
def detectEncoding (bytes : Bytes) : Encoding :=
  if [0x00, 0x00, 0xFE, 0xFF].isPrefixOf bytes || [0xFF, 0xFE, 0x00, 0x00].isPrefixOf bytes then .utf32
  else if [0xFE, 0xFF].isPrefixOf bytes || [0xFF, 0xFE].isPrefixOf bytes then .utf16
  else if [0xEF, 0xBB, 0xBF].isPrefixOf bytes then .utf8Sig
  else match bytes with
    | a :: b :: c :: d :: _ =>
      if a = 0 then (if b = 0 then .utf32be else .utf16be)
      else if b = 0 then (if c = 0 && d = 0 then .utf32le else .utf16le)
      else .utf8
    | [a, b] => if a = 0 then .utf16be else if b = 0 then .utf16le else .utf8
    | _ => .utf8

def base64Alphabet : List Char :=
  "ABCDEFGHIJKLMNOPQRSTUVWXYZabcdefghijklmnopqrstuvwxyz0123456789+/".toList

def base64Digit (n : Nat) : Char := base64Alphabet.getD (n % 64) '='

/-- `base64.b64encode(...).decode("ascii")`. -/
def b64encode : Bytes → List Char
  | [] => []
  | [a] => [base64Digit (a.toNat / 4), base64Digit (a.toNat * 16), '=', '=']
  | [a, b] => [base64Digit (a.toNat / 4), base64Digit (a.toNat * 16 + b.toNat / 16),
      base64Digit (b.toNat * 4), '=']
  | a :: b :: c :: rest =>
    base64Digit (a.toNat / 4) :: base64Digit (a.toNat * 16 + b.toNat / 16)
      :: base64Digit (b.toNat * 4 + c.toNat / 64) :: base64Digit c.toNat :: b64encode rest

example : b64encode [0x66, 0x6F, 0x6F, 0x62] = "Zm9vYg==".toList := by decide

end Python
