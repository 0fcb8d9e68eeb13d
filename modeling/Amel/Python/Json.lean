import Mathlib.Data.List.TakeWhile
import Amel.Python.Codec

namespace Python.Json

/-- A decoded number that is no integer literal: the literal itself, before
any rounding, or one of the three names the decoder also reads. -/
inductive JsonFloat
  | nan | infinity | negInfinity
  | literal (digits : Text)
  deriving DecidableEq, Repr

/-- The objects `json.loads` builds. -/
inductive Value
  | null
  | bool (b : Bool)
  | int (n : Int)
  | float (f : JsonFloat)
  | str (s : Text)
  | list (items : List Value)
  | dict (items : List (Text × Value))

/-- Why decoding stops by itself: a JSONDecodeError, with how many code
points were left at its position, or an exhausted recursion counter of this
definition, which `document_ne_fuel` rules out. -/
inductive Fault
  | malformed (message : String) (remaining : Nat)
  | fuel
  deriving DecidableEq, Repr

/-- What decoding asks of the interpreter on the way: one more level of
recursion at each `[` and brace, and the conversion of an integer literal
of so many digits. -/
inductive Demand
  | nest (depth : Nat)
  | digits (count : Nat)
  deriving DecidableEq, Repr

/-- A stretch of decoding: its demands in order, and how it ends when all of
them are met. -/
structure Decode (α : Type) where
  demands : List Demand
  result : Except Fault α

namespace Decode

def fault {α : Type} (f : Fault) : Decode α := ⟨[], .error f⟩

def demand (d : Demand) : Decode Unit := ⟨[d], .ok ()⟩

def lift {α : Type} (result : Except Fault α) : Decode α := ⟨[], result⟩

instance : Monad Decode where
  pure a := ⟨[], .ok a⟩
  bind x f := match x.result with
    | .ok a => ⟨x.demands ++ (f a).demands, (f a).result⟩
    | .error e => ⟨x.demands, .error e⟩

end Decode

def isWhitespace (c : Nat) : Bool := c == 0x20 || c == 0x09 || c == 0x0A || c == 0x0D

def isDigit (c : Nat) : Bool := 0x30 ≤ c && c ≤ 0x39

def skipWhitespace (s : Text) : Text := s.dropWhile isWhitespace

/-- The named constants, three of which are no JSON. -/
def constants : List (String × Value) :=
  [("null", .null), ("true", .bool true), ("false", .bool false), ("NaN", .float .nan),
    ("Infinity", .float .infinity), ("-Infinity", .float .negInfinity)]

/-- A named constant off the front. -/
def matchConstant (s : Text) : Option (Value × Text) :=
  constants.findSome? fun (word, value) =>
    if (text word).isPrefixOf s then some (value, s.drop word.length) else none

def hexDigit (c : Nat) : Option Nat :=
  if isDigit c then some (c - 0x30)
  else if 0x61 ≤ c ∧ c ≤ 0x66 then some (c - 0x61 + 10)
  else if 0x41 ≤ c ∧ c ≤ 0x46 then some (c - 0x41 + 10)
  else none

def hex4 (a b c d : Nat) : Option Nat := do
  let w ← hexDigit a
  let x ← hexDigit b
  let y ← hexDigit c
  let z ← hexDigit d
  return ((w * 16 + x) * 16 + y) * 16 + z

/-- The escapes of one character: quote, backslash, slash, b, f, n, r, t. -/
def simpleEscape (c : Nat) : Option Nat :=
  match Char.ofNat c with
  | '"' => some 0x22
  | '\\' => some 0x5C
  | '/' => some 0x2F
  | 'b' => some 0x08
  | 'f' => some 0x0C
  | 'n' => some 0x0A
  | 'r' => some 0x0D
  | 't' => some 0x09
  | _ => none

def prepend (c : Nat) (scanned : Except Fault (Text × Text)) : Except Fault (Text × Text) :=
  scanned.map fun (s, rest) => (c :: s, rest)

/-- `scanstring`, strict, behind the opening quote; `opened` counts the code
points from that quote to the end of the document. -/
def scanString (opened : Nat) : Text → Except Fault (Text × Text)
  | [] => .error (.malformed "Unterminated string starting at" opened)
  | c :: rest =>
    if c = 0x22 then .ok ([], rest)
    else if c ≠ 0x5C then
      if c ≤ 0x1F then .error (.malformed "Invalid control character at" (rest.length + 1))
      else prepend c (scanString opened rest)
    else match rest with
      | [] => .error (.malformed "Unterminated string starting at" opened)
      | e :: rest' =>
        if e ≠ 0x75 then
          match simpleEscape e with
          | none => .error (.malformed "Invalid \\escape" (rest'.length + 2))
          | some decoded => prepend decoded (scanString opened rest')
        else match rest' with
          | h₁ :: h₂ :: h₃ :: h₄ :: tail =>
            if tail.isEmpty then .error (.malformed "Invalid \\uXXXX escape" (rest'.length + 1))
            else match hex4 h₁ h₂ h₃ h₄ with
              | none => .error (.malformed "Invalid \\uXXXX escape" (rest'.length + 1))
              | some unit =>
                if isHighSurrogate unit then
                  match _pair : tail with
                  | b :: u :: k₁ :: k₂ :: k₃ :: k₄ :: after =>
                    if b = 0x5C ∧ u = 0x75 ∧ !after.isEmpty then
                      match hex4 k₁ k₂ k₃ k₄ with
                      | none => .error (.malformed "Invalid \\uXXXX escape" (after.length + 5))
                      | some low =>
                        if isLowSurrogate low then prepend (joinSurrogates unit low) (scanString opened after)
                        else prepend unit (scanString opened tail)
                    else prepend unit (scanString opened tail)
                  | _ => prepend unit (scanString opened tail)
                else prepend unit (scanString opened tail)
          | _ => .error (.malformed "Invalid \\uXXXX escape" (rest'.length + 1))
termination_by s => s.length
decreasing_by all_goals simp_all only [List.length_cons]; omega

/-- The integer digits of a number: one `0`, or digits that start with none. -/
def integerDigits : Text → Option (Text × Text)
  | [] => none
  | c :: rest =>
    if c = 0x30 then some ([c], rest)
    else if isDigit c then some (c :: rest.takeWhile isDigit, rest.dropWhile isDigit)
    else none

/-- A point and at least one digit, or nothing. -/
def fraction : Text → Text × Text
  | 0x2E :: d :: rest =>
    if isDigit d then (0x2E :: d :: rest.takeWhile isDigit, rest.dropWhile isDigit)
    else ([], 0x2E :: d :: rest)
  | s => ([], s)

/-- An exponent with at least one digit, or nothing: the scanner backs up
when the digits are missing. -/
def exponent (s : Text) : Text × Text :=
  match s with
  | e :: rest =>
    if e = 0x65 ∨ e = 0x45 then
      let (sign, body) := match rest with
        | c :: rest' => if c = 0x2D ∨ c = 0x2B then ([c], rest') else ([], rest)
        | [] => ([], [])
      let digits := body.takeWhile isDigit
      if digits.isEmpty then ([], s) else (e :: sign ++ digits, body.dropWhile isDigit)
    else ([], s)
  | [] => ([], s)

def decimal (digits : Text) : Nat := digits.foldl (fun n d => n * 10 + (d - 0x30)) 0

/-- A minus sign off the front. -/
def minus : Text → Bool × Text
  | 0x2D :: rest => (true, rest)
  | s => (false, s)

/-- `_match_number`. A literal with no fraction and no exponent goes through
`int`, whose digit limit is the one demand a number makes. -/
def matchNumber (s : Text) : Decode (Value × Text) :=
  match integerDigits (minus s).2 with
  | none => .fault (.malformed "Expecting value" s.length)
  | some (whole, rest) =>
    let frac := fraction rest
    let exp := exponent frac.2
    if frac.1.isEmpty && exp.1.isEmpty then do
      .demand (.digits whole.length)
      return (.int (if (minus s).1 then -(decimal whole : Int) else decimal whole), exp.2)
    else
      return (.float (.literal ((if (minus s).1 then text "-" else []) ++ whole ++ frac.1 ++ exp.1)), exp.2)

/-- `dict[key] = value`: a repeated key keeps its first place and takes the
last value. -/
def setItem (key : Text) (value : Value) : List (Text × Value) → List (Text × Value)
  | [] => [(key, value)]
  | (k, v) :: rest => if k = key then (k, value) :: rest else (k, v) :: setItem key value rest

/-- A new key comes last. -/
theorem setItem_fresh {key : Text} {members : List (Text × Value)} (fresh : key ∉ members.map Prod.fst)
    (value : Value) : setItem key value members = members ++ [(key, value)] := by
  induction members with
  | nil => rfl
  | cons member rest ih =>
    obtain ⟨name, old⟩ := member
    rw [List.map_cons, List.mem_cons, not_or] at fresh
    rw [setItem, if_neg (Ne.symm fresh.1), ih fresh.2, List.cons_append]

mutual

/-- `scan_once` at nesting `depth`. The counter only bounds this definition;
nesting is limited by the demands it makes. -/
def scanOnce : Nat → Nat → Text → Decode (Value × Text)
  | 0, _, _ => .fault .fuel
  | _ + 1, _, [] => .fault (.malformed "Expecting value" 0)
  | fuel + 1, depth, c :: rest =>
    if c = 0x22 then do
      let (s, rest) ← .lift (scanString (rest.length + 1) rest)
      return (.str s, rest)
    else if c = 0x7B then do
      .demand (.nest (depth + 1))
      match skipWhitespace rest with
      | 0x7D :: rest => return (.dict [], rest)
      | rest => scanMembers fuel (depth + 1) [] rest
    else if c = 0x5B then do
      .demand (.nest (depth + 1))
      match skipWhitespace rest with
      | 0x5D :: rest => return (.list [], rest)
      | rest => scanItems fuel (depth + 1) [] rest
    else match matchConstant (c :: rest) with
      | some constant => return constant
      | none => matchNumber (c :: rest)

/-- The loop of `_parse_object`, from a key on. -/
def scanMembers : Nat → Nat → List (Text × Value) → Text → Decode (Value × Text)
  | 0, _, _, _ => .fault .fuel
  | fuel + 1, depth, members, s =>
    match s with
    | 0x22 :: rest => do
      let (key, rest) ← .lift (scanString (rest.length + 1) rest)
      match skipWhitespace rest with
      | 0x3A :: rest => do
        let (value, rest) ← scanOnce fuel depth (skipWhitespace rest)
        let members := setItem key value members
        match skipWhitespace rest with
        | 0x7D :: rest => return (.dict members, rest)
        | 0x2C :: rest => scanMembers fuel depth members (skipWhitespace rest)
        | rest => .fault (.malformed "Expecting ',' delimiter" rest.length)
      | rest => .fault (.malformed "Expecting ':' delimiter" rest.length)
    | _ => .fault (.malformed "Expecting property name enclosed in double quotes" s.length)

/-- The loop of `_parse_array`, from an element on. -/
def scanItems : Nat → Nat → List Value → Text → Decode (Value × Text)
  | 0, _, _, _ => .fault .fuel
  | fuel + 1, depth, items, s => do
    let (value, rest) ← scanOnce fuel depth s
    let items := items ++ [value]
    match skipWhitespace rest with
    | 0x5D :: rest => return (.list items, rest)
    | 0x2C :: rest => scanItems fuel depth items (skipWhitespace rest)
    | rest => .fault (.malformed "Expecting ',' delimiter" rest.length)

end

/-- `JSONDecoder.decode`: one value between whitespace and nothing after. -/
def document (doc : Text) : Decode Value := do
  let s := skipWhitespace doc
  let (value, rest) ← scanOnce (2 * s.length + 1) 0 s
  match skipWhitespace rest with
  | [] => return value
  | rest => .fault (.malformed "Extra data" rest.length)

/-- A scan that succeeds leaves fewer than `n` code points, and one that
fails does so for a fault of the text. -/
def Consumes {α : Type} (result : Except Fault (α × Text)) (n : Nat) : Prop :=
  match result with
  | .ok (_, rest) => rest.length < n
  | .error fault => fault ≠ .fuel

theorem Consumes.prepend {scanned : Except Fault (Text × Text)} {n m : Nat}
    (consumes : Consumes scanned n) (bound : n ≤ m) (c : Nat) : Consumes (prepend c scanned) m := by
  cases scanned with
  | error => exact consumes
  | ok => exact Nat.lt_of_lt_of_le consumes bound

theorem scanString_consumes (opened : Nat) (s : Text) : Consumes (scanString opened s) s.length := by
  fun_induction scanString opened s with
  | case2 => exact Nat.lt_succ_self _
  | _ => first
    | (intro exhausted; cases exhausted)
    | exact Consumes.prepend (by assumption) (by simp only [List.length_cons]; omega) _

theorem skipWhitespace_length_le (s : Text) : (skipWhitespace s).length ≤ s.length :=
  List.length_dropWhile_le _ _

theorem matchConstant_shorter {s rest : Text} {value : Value} (found : matchConstant s = some (value, rest)) :
    rest.length < s.length := by
  obtain ⟨⟨word, constant⟩, member, hit⟩ := List.exists_of_findSome?_eq_some found
  have nonempty : 0 < word.length := by
    revert member
    simp only [constants, List.mem_cons, Prod.mk.injEq, List.not_mem_nil, or_false]
    rintro (⟨rfl, -⟩ | ⟨rfl, -⟩ | ⟨rfl, -⟩ | ⟨rfl, -⟩ | ⟨rfl, -⟩ | ⟨rfl, -⟩) <;> decide
  dsimp only at hit
  split at hit
  · rename_i isPrefix
    have within := (List.isPrefixOf_iff_prefix.mp isPrefix).length_le
    simp only [text, List.length_map, String.length_toList] at within
    cases hit
    simp only [List.length_drop]
    omega
  · cases hit

theorem integerDigits_shorter {s digits rest : Text} (found : integerDigits s = some (digits, rest)) :
    rest.length < s.length := by
  cases s with
  | nil => cases found
  | cons c body =>
    have bound := List.length_dropWhile_le isDigit body
    simp only [integerDigits] at found
    split at found
    · cases found
      simp
    · split at found
      · cases found
        simp only [List.length_cons]
        omega
      · cases found

theorem fraction_length_le (s : Text) : (fraction s).2.length ≤ s.length := by
  unfold fraction
  split
  · rename_i d rest
    have bound := List.length_dropWhile_le isDigit rest
    split
    · simp only [List.length_cons]
      omega
    · exact Nat.le_refl _
  · exact Nat.le_refl _

theorem exponent_length_le (s : Text) : (exponent s).2.length ≤ s.length := by
  cases s with
  | nil => exact Nat.le_refl _
  | cons e rest =>
    cases rest with
    | nil => simp only [exponent]; split <;> simp
    | cons c rest =>
      have signed := List.length_dropWhile_le isDigit rest
      have unsigned := List.length_dropWhile_le isDigit (c :: rest)
      simp only [exponent]
      split_ifs <;> simp only [List.length_cons] at * <;> omega

theorem minus_length_le (s : Text) : (minus s).2.length ≤ s.length := by
  unfold minus
  split
  · simp
  · exact Nat.le_refl _

theorem matchNumber_consumes (s : Text) : Consumes (matchNumber s).result s.length := by
  unfold matchNumber
  split
  · intro exhausted
    cases exhausted
  · rename_i whole rest found
    have whole_shorter := integerDigits_shorter found
    have body := minus_length_le s
    have frac := fraction_length_le rest
    have exp := exponent_length_le (fraction rest).2
    have shorter : (exponent (fraction rest).2).2.length < s.length := by omega
    dsimp only
    split <;> exact shorter

theorem Consumes.weaken {α : Type} {result : Except Fault (α × Text)} {n m : Nat}
    (consumes : Consumes result n) (bound : n ≤ m) : Consumes result m := by
  cases result with
  | error => exact consumes
  | ok => exact Nat.lt_of_lt_of_le consumes bound

namespace Decode

variable {α β : Type}

theorem bind_result (x : Decode α) (f : α → Decode β) :
    (x >>= f).result = x.result >>= fun a => (f a).result := by
  cases x with
  | mk demands result => cases result <;> rfl

theorem demand_bind_result (d : Demand) (f : Unit → Decode β) : (demand d >>= f).result = (f ()).result := rfl

/-- A scan followed by a scan of what it left. -/
theorem consumes_bind {γ : Type} {x : Decode (α × Text)} {f : α × Text → Decode (γ × Text)} {n m : Nat}
    (first : Consumes x.result n)
    (second : ∀ a rest, rest.length < n → Consumes (f (a, rest)).result m) : Consumes (x >>= f).result m := by
  rw [bind_result]
  cases h : x.result with
  | error fault =>
    rw [h] at first
    exact first
  | ok pair =>
    rw [h] at first
    exact second pair.1 pair.2 first

end Decode

theorem skipWhitespace_cons {s rest : Text} {c : Nat} (skipped : skipWhitespace s = c :: rest) :
    rest.length < s.length := by
  have bound := skipWhitespace_length_le s
  rw [skipped] at bound
  exact bound

section Scan

variable {fuel : Nat}

/-- With this many levels of the counter each scanner of what is inside reads
on, so `scan_once` one level up does too. -/
theorem scanOnce_consumes
    (members : ∀ depth acc s, 2 * s.length + 2 ≤ fuel → Consumes (scanMembers fuel depth acc s).result s.length)
    (items : ∀ depth acc s, 2 * s.length + 2 ≤ fuel → Consumes (scanItems fuel depth acc s).result s.length)
    (depth : Nat) (s : Text) (bound : 2 * s.length + 1 ≤ fuel + 1) :
    Consumes (scanOnce (fuel + 1) depth s).result s.length := by
  cases s with
  | nil => intro exhausted; cases exhausted
  | cons c rest =>
    simp only [List.length_cons] at bound
    have skipped := skipWhitespace_length_le rest
    rw [scanOnce]
    split
    · refine Decode.consumes_bind (scanString_consumes _ rest) fun content after shorter => ?_
      exact Nat.lt_succ_of_lt shorter
    split
    · rw [Decode.demand_bind_result]
      split
      · rename_i after atClose
        exact Nat.lt_succ_of_lt (skipWhitespace_cons atClose)
      · exact (members _ _ _ (by omega)).weaken (Nat.le_succ_of_le skipped)
    split
    · rw [Decode.demand_bind_result]
      split
      · rename_i after atClose
        exact Nat.lt_succ_of_lt (skipWhitespace_cons atClose)
      · exact (items _ _ _ (by omega)).weaken (Nat.le_succ_of_le skipped)
    split
    · rename_i constant found
      exact matchConstant_shorter found
    · exact matchNumber_consumes _

theorem scanMembers_consumes
    (once : ∀ depth s, 2 * s.length + 1 ≤ fuel → Consumes (scanOnce fuel depth s).result s.length)
    (members : ∀ depth acc s, 2 * s.length + 2 ≤ fuel → Consumes (scanMembers fuel depth acc s).result s.length)
    (depth : Nat) (acc : List (Text × Value)) (s : Text) (bound : 2 * s.length + 2 ≤ fuel + 1) :
    Consumes (scanMembers (fuel + 1) depth acc s).result s.length := by
  rw [scanMembers.eq_def]
  dsimp only
  split
  · rename_i rest
    simp only [List.length_cons] at bound ⊢
    refine Decode.consumes_bind (scanString_consumes _ rest) fun key afterKey keyShorter => ?_
    dsimp only
    split
    · rename_i afterColon atColon
      have colon := (skipWhitespace_cons atColon).trans keyShorter
      have skipped := skipWhitespace_length_le afterColon
      refine Decode.consumes_bind (once depth _ (by omega)) fun value afterValue shorter => ?_
      dsimp only
      split
      · rename_i after atClose
        have closer := (skipWhitespace_cons atClose).trans shorter
        show after.length < rest.length + 1
        omega
      · rename_i after atComma
        have closer := (skipWhitespace_cons atComma).trans shorter
        have skippedAfter := skipWhitespace_length_le after
        exact (members depth _ _ (by omega)).weaken (by omega)
      · intro exhausted
        cases exhausted
    · intro exhausted
      cases exhausted
  · intro exhausted
    cases exhausted

theorem scanItems_consumes
    (once : ∀ depth s, 2 * s.length + 1 ≤ fuel → Consumes (scanOnce fuel depth s).result s.length)
    (items : ∀ depth acc s, 2 * s.length + 2 ≤ fuel → Consumes (scanItems fuel depth acc s).result s.length)
    (depth : Nat) (acc : List Value) (s : Text) (bound : 2 * s.length + 2 ≤ fuel + 1) :
    Consumes (scanItems (fuel + 1) depth acc s).result s.length := by
  rw [scanItems]
  refine Decode.consumes_bind (once depth s (by omega)) fun value rest shorter => ?_
  dsimp only
  split
  · rename_i after atClose
    exact (skipWhitespace_cons atClose).trans shorter
  · rename_i after atComma
    have closer := (skipWhitespace_cons atComma).trans shorter
    have skipped := skipWhitespace_length_le after
    exact (items depth _ _ (by omega)).weaken (by omega)
  · intro exhausted
    cases exhausted

end Scan

/-- Every scan but the counter's own stop reads at least one code point.
Two levels of the counter for each code point are therefore enough. -/
theorem scan_consumes (fuel : Nat) :
    (∀ depth s, 2 * s.length + 1 ≤ fuel → Consumes (scanOnce fuel depth s).result s.length) ∧
    (∀ depth members s, 2 * s.length + 2 ≤ fuel → Consumes (scanMembers fuel depth members s).result s.length) ∧
    (∀ depth items s, 2 * s.length + 2 ≤ fuel → Consumes (scanItems fuel depth items s).result s.length) := by
  induction fuel with
  | zero => exact ⟨by omega, by omega, by omega⟩
  | succ fuel ih =>
    obtain ⟨once, members, items⟩ := ih
    exact ⟨scanOnce_consumes members items, scanMembers_consumes once members, scanItems_consumes once items⟩

/-- Decoding a document always ends in a value or in a fault of the text. -/
theorem document_ne_fuel (doc : Text) : (document doc).result ≠ .error .fuel := by
  have consumes := (scan_consumes (2 * (skipWhitespace doc).length + 1)).1 0 (skipWhitespace doc) le_rfl
  unfold document
  dsimp only
  rw [Decode.bind_result]
  cases h : (scanOnce (2 * (skipWhitespace doc).length + 1) 0 (skipWhitespace doc)).result with
  | error fault =>
    rw [h] at consumes
    exact fun exhausted => consumes (Except.error.inj exhausted)
  | ok pair =>
    show Decode.result (match skipWhitespace pair.2 with
      | [] => pure pair.1
      | rest => .fault (.malformed "Extra data" rest.length)) ≠ _
    split <;> intro exhausted <;> cases exhausted

/-- The interpreter's limits: how deep the C scanner may still recurse, and
`sys.set_int_max_str_digits` (0 lifts that limit). -/
structure Limits where
  recursion : Nat
  maxStrDigits : Nat

/-- The exceptions `json.loads` raises on bytes. Only the first is a
JSONDecodeError; all but RecursionError are ValueErrors. -/
inductive LoadsError
  | jsonDecodeError (message : String) (doc : Text) (pos : Nat)
  | unicodeDecodeError (encoding : Encoding)
  | recursionError
  | intDigitsError
  deriving DecidableEq, Repr

/-- The exception a demand past a limit raises. -/
def Limits.refuses (limits : Limits) : Demand → Option LoadsError
  | .nest depth => if limits.recursion < depth then some .recursionError else none
  | .digits count => if limits.maxStrDigits ≠ 0 ∧ limits.maxStrDigits < count then some .intDigitsError else none

/-- Decoding under limits: the first refused demand ends it. -/
def Decode.run {α : Type} (decode : Decode α) (limits : Limits) (doc : Text) : Except LoadsError α :=
  match decode.demands.findSome? limits.refuses with
  | some refused => .error refused
  | none => decode.result.mapError fun
    | .malformed message remaining => .jsonDecodeError message doc (doc.length - remaining)
    | .fuel => .recursionError

/-- `json.loads(bytes)`. -/
def loads (limits : Limits) (bytes : Bytes) : Except LoadsError Value :=
  match bytes.decode (detectEncoding bytes) with
  | none => .error (.unicodeDecodeError (detectEncoding bytes))
  | some doc => (document doc).run limits doc

/-- `str(JSONDecodeError)`: the message with line, column and offset. -/
def errorText (message : String) (doc : Text) (pos : Nat) : String :=
  let before := doc.take pos
  let line := before.count 0x0A + 1
  let column := (before.reverse.takeWhile (· ≠ 0x0A)).length + 1
  s!"{message}: line {line} column {column} (char {pos})"

/-- Decoding `bytes` disturbs no limit: they decode in the encoding detected,
and up to the end or the first fault of the text no array or object nests
deeper than the recursion limit and no integer literal is over-long. -/
def Undisturbed (limits : Limits) (bytes : Bytes) : Prop :=
  ∃ doc, bytes.decode (detectEncoding bytes) = some doc ∧
    (∀ depth, .nest depth ∈ (document doc).demands → depth ≤ limits.recursion) ∧
    ∀ count, .digits count ∈ (document doc).demands → limits.maxStrDigits = 0 ∨ count ≤ limits.maxStrDigits

theorem refuses_eq_none_iff {limits : Limits} {demands : List Demand} :
    demands.findSome? limits.refuses = none ↔
      (∀ depth, .nest depth ∈ demands → depth ≤ limits.recursion) ∧
        ∀ count, .digits count ∈ demands → limits.maxStrDigits = 0 ∨ count ≤ limits.maxStrDigits := by
  rw [List.findSome?_eq_none_iff]
  constructor
  · intro met
    refine ⟨fun depth member => ?_, fun count member => ?_⟩
    · have depthMet := met _ member
      simp only [Limits.refuses, ite_eq_right_iff, reduceCtorEq, imp_false] at depthMet
      omega
    · have digitsMet := met _ member
      simp only [Limits.refuses, ite_eq_right_iff, reduceCtorEq, imp_false] at digitsMet
      omega
  · rintro ⟨nesting, digits⟩ demand member
    cases demand with
    | nest depth => simp only [Limits.refuses, if_neg (Nat.not_lt.mpr (nesting depth member))]
    | digits count =>
      have within := digits count member
      rw [Limits.refuses, if_neg (by omega)]

/-- `json.loads` of bytes returns a value or raises JSONDecodeError exactly
on the bytes that disturb no limit. On all others it raises one of the
exceptions that are no JSONDecodeError. -/
theorem loads_iff (limits : Limits) (bytes : Bytes) :
    ((∃ value, loads limits bytes = .ok value) ∨
      ∃ message doc pos, loads limits bytes = .error (.jsonDecodeError message doc pos)) ↔
      Undisturbed limits bytes := by
  unfold loads Undisturbed
  cases bytes.decode (detectEncoding bytes) with
  | none => simp
  | some doc =>
    simp only [Option.some.injEq, exists_eq_left', Decode.run]
    rw [← refuses_eq_none_iff]
    have total := document_ne_fuel doc
    cases refused : (document doc).demands.findSome? limits.refuses with
    | some e =>
      obtain ⟨demand, _, raised⟩ := List.exists_of_findSome?_eq_some refused
      cases demand <;> simp only [Limits.refuses, Option.ite_none_right_eq_some, Option.some.injEq] at raised <;>
        simp [← raised.2]
    | none =>
      cases outcome : (document doc).result with
      | ok value => simp [Except.mapError]
      | error fault =>
        cases fault with
        | fuel => exact absurd outcome total
        | malformed message remaining => simp [Except.mapError]

end Python.Json
