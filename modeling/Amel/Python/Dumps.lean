import Amel.Python.Escape
import Amel.Python.Numeral

namespace Python

namespace Json

mutual

/-- `json.dumps(value)`. -/
def dumps : Value → Text
  | .null => text "null"
  | .bool true => text "true"
  | .bool false => text "false"
  | .int n => intText n
  | .float .nan => text "NaN"
  | .float .infinity => text "Infinity"
  | .float .negInfinity => text "-Infinity"
  | .float (.literal digits) => digits
  | .str s => encodeString s
  | .list items => 0x5B :: dumpsItems [] items ++ [0x5D]
  | .dict items => 0x7B :: dumpsMembers [] items ++ [0x7D]

/-- The loop of `_iterencode_list`; a separator stands before all but the
first. -/
def dumpsItems (before : Text) : List Value → Text
  | [] => []
  | value :: rest => before ++ dumps value ++ dumpsItems (text ", ") rest

/-- The loop of `_iterencode_dict`. -/
def dumpsMembers (before : Text) : List (Text × Value) → Text
  | [] => []
  | (key, value) :: rest =>
    before ++ encodeString key ++ text ": " ++ dumps value ++ dumpsMembers (text ", ") rest

end

mutual

/-- What decoding the text of a value asks of the interpreter. -/
def demandsOf (depth : Nat) : Value → List Demand
  | .int n => [.digits (Nat.toDigits 10 n.natAbs).length]
  | .list items => .nest (depth + 1) :: demandsOfItems (depth + 1) items
  | .dict items => .nest (depth + 1) :: demandsOfMembers (depth + 1) items
  | _ => []

def demandsOfItems (depth : Nat) : List Value → List Demand
  | [] => []
  | value :: rest => demandsOf depth value ++ demandsOfItems depth rest

def demandsOfMembers (depth : Nat) : List (Text × Value) → List Demand
  | [] => []
  | (_, value) :: rest => demandsOf depth value ++ demandsOfMembers depth rest

end

/-- A value whose text reads back: its strings hold no surrogates, its
dicts repeat no key and its floats stand as numbers. -/
inductive Printable : Value → Prop
  | null : Printable .null
  | bool (b : Bool) : Printable (.bool b)
  | int (n : Int) : Printable (.int n)
  | nan : Printable (.float .nan)
  | infinity : Printable (.float .infinity)
  | negInfinity : Printable (.float .negInfinity)
  | literal (n : Numeral) (isFloat : n.places ≠ [] ∨ n.exponent ≠ []) : Printable (.float (.literal n.text))
  | str {s : Text} (scalar : Scalar s) : Printable (.str s)
  | list {items : List Value} (each : ∀ value ∈ items, Printable value) : Printable (.list items)
  | dict {items : List (Text × Value)} (keys : ∀ item ∈ items, Scalar item.1)
      (distinct : (items.map Prod.fst).Nodup) (each : ∀ item ∈ items, Printable item.2) : Printable (.dict items)

/-- A text that ends, or goes on as behind a value in an array or object. -/
def StopsValue (rest : Text) : Prop := ∀ c ∈ rest.head?, c = 0x2C ∨ c = 0x5D ∨ c = 0x7D

theorem StopsValue.number {rest : Text} (stops : StopsValue rest) : StopsNumber rest := by
  intro c first
  rcases stops c first with rfl | rfl | rfl
  · decide
  · decide
  · decide

/-- A number begins with a digit, or with a minus sign and a digit. -/
theorem Numeral.text_first (n : Numeral) :
    ∃ c rest, isDigit c = true ∧ (n.text = c :: rest ∨ n.text = 0x2D :: c :: rest) := by
  have digits := n.whole_digits
  obtain ⟨c, more, whole⟩ : ∃ c more, n.whole = c :: more := by
    rcases n.whole_first with zero | ⟨c, more, whole, -⟩
    · exact ⟨_, _, zero⟩
    · exact ⟨_, _, whole⟩
  unfold text
  rw [whole] at digits ⊢
  refine ⟨c, more ++ n.point ++ n.exponent, digits c List.mem_cons_self, ?_⟩
  cases n.negative with
  | false => exact Or.inl rfl
  | true => exact Or.inr rfl

theorem matchConstant_number (n : Numeral) (rest : Text) : matchConstant (n.text ++ rest) = none := by
  obtain ⟨c, more, digit, plain | signed⟩ := n.text_first
  · rw [plain]
    simp only [isDigit, Bool.and_eq_true, decide_eq_true_eq] at digit
    simp [matchConstant, constants, Python.text]
    omega
  · rw [signed]
    simp only [isDigit, Bool.and_eq_true, decide_eq_true_eq] at digit
    simp [matchConstant, constants, Python.text]
    omega

/-- The text of a value starts with no whitespace and closes no array. -/
theorem Printable.first {value : Value} (printable : Printable value) :
    ∃ c rest, dumps value = c :: rest ∧ isWhitespace c = false ∧ c ≠ 0x5D := by
  have number (n : Numeral) : ∃ c rest, n.text = c :: rest ∧ isWhitespace c = false ∧ c ≠ 0x5D := by
    obtain ⟨c, rest, digit, plain | signed⟩ := n.text_first
    · refine ⟨c, rest, plain, ?_, ?_⟩
      · rw [isDigit, Bool.and_eq_true, decide_eq_true_iff, decide_eq_true_iff] at digit
        simp only [isWhitespace, Bool.or_eq_false_iff, beq_eq_false_iff_ne]
        omega
      · rintro rfl
        exact absurd digit (by decide)
    · exact ⟨_, _, signed, by decide, by decide⟩
  cases printable with
  | null => exact ⟨_, _, rfl, by decide, by decide⟩
  | bool b => cases b <;> exact ⟨_, _, rfl, by decide, by decide⟩
  | int n =>
    obtain ⟨c, rest, shown, first⟩ := number (Numeral.ofInt n)
    exact ⟨c, rest, by rw [dumps, ← Numeral.ofInt_text, shown], first⟩
  | nan => exact ⟨_, _, rfl, by decide, by decide⟩
  | infinity => exact ⟨_, _, rfl, by decide, by decide⟩
  | negInfinity => exact ⟨_, _, rfl, by decide, by decide⟩
  | literal n isFloat =>
    obtain ⟨c, rest, shown, first⟩ := number n
    exact ⟨c, rest, by rw [dumps, shown], first⟩
  | str scalar => exact ⟨_, _, by rw [dumps, encodeString]; rfl, by decide, by decide⟩
  | list each => exact ⟨_, _, by rw [dumps]; rfl, by decide, by decide⟩
  | dict keys distinct each => exact ⟨_, _, by rw [dumps]; rfl, by decide, by decide⟩

theorem Printable.skipWhitespace_eq {value : Value} (printable : Printable value) (rest : Text) :
    skipWhitespace (dumps value ++ rest) = dumps value ++ rest := by
  obtain ⟨c, more, shown, solid, -⟩ := printable.first
  rw [shown, List.cons_append, skipWhitespace, List.dropWhile_cons_of_neg (by rw [solid]; decide)]

namespace Decode

theorem ok_bind {α β : Type} (demands : List Demand) (a : α) (f : α → Decode β) :
    (⟨demands, .ok a⟩ : Decode α) >>= f = ⟨demands ++ (f a).demands, (f a).result⟩ := rfl

theorem demand_bind {β : Type} (d : Demand) (f : Unit → Decode β) :
    demand d >>= f = ⟨d :: (f ()).demands, (f ()).result⟩ := rfl

end Decode

/-- The text of a value is scanned as that value, up to what follows. -/
def Reads (value : Value) : Prop :=
  ∀ depth fuel rest, StopsValue rest → 2 * (dumps value ++ rest).length + 1 ≤ fuel →
    scanOnce fuel depth (dumps value ++ rest) = ⟨demandsOf depth value, .ok (value, rest)⟩

theorem reads_number {value : Value} (n : Numeral) (shown : dumps value = n.text)
    (scanned : ∀ depth rest, StopsNumber rest →
      matchNumber (n.text ++ rest) = ⟨demandsOf depth value, .ok (value, rest)⟩) : Reads value := by
  intro depth fuel rest stops enough
  obtain ⟨fuel, rfl⟩ : ∃ less, fuel = less + 1 := ⟨fuel - 1, by omega⟩
  rw [shown, ← scanned depth rest stops.number]
  have none := matchConstant_number n rest
  obtain ⟨c, more, digit, plain | signed⟩ := n.text_first
  · have apart : ∀ code, isDigit code = false → c ≠ code := fun code other same => by
      rw [same, other] at digit
      cases digit
    rw [plain, List.cons_append] at none ⊢
    rw [scanOnce, if_neg (apart _ rfl), if_neg (apart _ rfl), if_neg (apart _ rfl), none]
  · rw [signed, List.cons_append] at none ⊢
    rw [scanOnce, if_neg (by decide), if_neg (by decide), if_neg (by decide), none]

theorem reads_constant {word : String} {value : Value} (shown : dumps value = text word)
    (found : ∀ rest, matchConstant (text word ++ rest) = some (value, rest))
    (quiet : ∀ depth, demandsOf depth value = [])
    (first : ∃ c more, text word = c :: more ∧ c ≠ 0x22 ∧ c ≠ 0x7B ∧ c ≠ 0x5B) : Reads value := by
  intro depth fuel rest stops enough
  obtain ⟨fuel, rfl⟩ : ∃ less, fuel = less + 1 := ⟨fuel - 1, by omega⟩
  have constant := found rest
  obtain ⟨c, more, spelled, quote, brace, bracket⟩ := first
  rw [spelled, List.cons_append] at constant
  rw [shown, quiet, spelled, List.cons_append, scanOnce, if_neg quote, if_neg brace, if_neg bracket, constant]
  rfl

theorem reads_str {s : Text} (scalar : Scalar s) : Reads (.str s) := by
  intro depth fuel rest stops enough
  obtain ⟨fuel, rfl⟩ : ∃ less, fuel = less + 1 := ⟨fuel - 1, by omega⟩
  rw [dumps, encodeString, List.append_assoc, List.cons_append, scanOnce, if_pos rfl]
  rw [show [0x22] ++ rest = 0x22 :: rest from rfl, scanString_encodeString _ scalar]
  rfl

/-- The elements of an array are scanned one after the other. -/
theorem scanItems_dumpsItems {items : List Value} (printable : ∀ value ∈ items, Printable value)
    (each : ∀ value ∈ items, Reads value) {value : Value} (first : Reads value) (acc : List Value) (depth : Nat)
    {fuel : Nat} {rest : Text}
    (enough : 2 * (dumps value ++ (dumpsItems (text ", ") items ++ 0x5D :: rest)).length + 2 ≤ fuel) :
    scanItems fuel depth acc (dumps value ++ (dumpsItems (text ", ") items ++ 0x5D :: rest)) =
      ⟨demandsOf depth value ++ demandsOfItems depth items, .ok (.list (acc ++ value :: items), rest)⟩ := by
  induction items generalizing value acc fuel with
  | nil =>
    obtain ⟨fuel, rfl⟩ : ∃ less, fuel = less + 1 := ⟨fuel - 1, by omega⟩
    rw [scanItems, dumpsItems, List.nil_append] at *
    rw [first depth fuel _ (fun c closing => by cases closing; simp) (by omega), Decode.ok_bind]
    rfl
  | cons next items ih =>
    obtain ⟨fuel, rfl⟩ : ∃ less, fuel = less + 1 := ⟨fuel - 1, by omega⟩
    have nextPrintable := printable next List.mem_cons_self
    have spelled : dumpsItems (text ", ") (next :: items) ++ 0x5D :: rest =
        0x2C :: 0x20 :: (dumps next ++ (dumpsItems (text ", ") items ++ 0x5D :: rest)) := by
      rw [dumpsItems, List.append_assoc, List.append_assoc]
      rfl
    rw [spelled] at enough ⊢
    have shorter : 2 * (dumps next ++ (dumpsItems (text ", ") items ++ 0x5D :: rest)).length + 2 ≤ fuel := by
      rw [List.length_append, List.length_cons, List.length_cons] at enough
      omega
    have later := ih (fun value member => printable value (List.mem_cons_of_mem _ member))
      (fun value member => each value (List.mem_cons_of_mem _ member)) (each next List.mem_cons_self)
      (acc ++ [value]) shorter
    rw [scanItems, first depth fuel _ (fun c comma => by cases comma; simp) (by omega), Decode.ok_bind]
    show (⟨_ ++ (scanItems fuel depth (acc ++ [value]) (skipWhitespace (dumps next ++ _))).demands,
      (scanItems fuel depth (acc ++ [value]) (skipWhitespace (dumps next ++ _))).result⟩ : Decode _) = _
    rw [nextPrintable.skipWhitespace_eq, later, demandsOfItems]
    simp

/-- A member of an object up to the text after its value. -/
def memberText (key : Text) (value : Value) (rest : Text) : Text :=
  0x22 :: (key.flatMap escape ++ 0x22 :: 0x3A :: 0x20 :: (dumps value ++ rest))

theorem dumpsMembers_cons (key : Text) (value : Value) (items : List (Text × Value)) (rest : Text) :
    dumpsMembers (text ", ") ((key, value) :: items) ++ rest =
      0x2C :: 0x20 :: memberText key value (dumpsMembers (text ", ") items ++ rest) := by
  simp [dumpsMembers, encodeString, memberText, text]

/-- A key and its value are scanned, and what follows the value decides. -/
theorem scanMembers_member {key : Text} {value : Value} (scalar : Scalar key) (printable : Printable value)
    (reads : Reads value) (acc : List (Text × Value)) (depth : Nat) {fuel : Nat} {rest : Text} (stops : StopsValue rest)
    (enough : 2 * (memberText key value rest).length + 2 ≤ fuel + 1) :
    scanMembers (fuel + 1) depth acc (memberText key value rest) =
      (⟨demandsOf depth value, .ok (value, rest)⟩ : Decode (Value × Text)) >>= fun (value, rest) =>
        match skipWhitespace rest with
        | 0x7D :: rest => pure (.dict (setItem key value acc), rest)
        | 0x2C :: rest => scanMembers fuel depth (setItem key value acc) (skipWhitespace rest)
        | rest => .fault (.malformed "Expecting ',' delimiter" rest.length) := by
  have inner : 2 * (dumps value ++ rest).length + 1 ≤ fuel := by
    rw [memberText, List.length_cons, List.length_append, List.length_cons, List.length_cons, List.length_cons] at enough
    omega
  rw [← reads depth fuel rest stops inner, memberText, scanMembers, scanString_encodeString _ scalar]
  show (scanOnce fuel depth (skipWhitespace (dumps value ++ rest)) >>= _) = _
  have solid := printable.skipWhitespace_eq rest
  generalize skipWhitespace (dumps value ++ rest) = skipped at solid ⊢
  subst solid
  rfl

/-- The members of an object are scanned one after the other. -/
theorem scanMembers_dumpsMembers {items : List (Text × Value)} (scalar : ∀ item ∈ items, Scalar item.1)
    (printable : ∀ item ∈ items, Printable item.2) (each : ∀ item ∈ items, Reads item.2) {key : Text} {value : Value}
    (keyScalar : Scalar key) (valuePrintable : Printable value) (first : Reads value) (acc : List (Text × Value))
    (distinct : ((acc ++ (key, value) :: items).map Prod.fst).Nodup) (depth : Nat) {fuel : Nat} {rest : Text}
    (enough : 2 * (memberText key value (dumpsMembers (text ", ") items ++ 0x7D :: rest)).length + 2 ≤ fuel) :
    scanMembers fuel depth acc (memberText key value (dumpsMembers (text ", ") items ++ 0x7D :: rest)) =
      ⟨demandsOf depth value ++ demandsOfMembers depth items, .ok (.dict (acc ++ (key, value) :: items), rest)⟩ := by
  induction items generalizing key value acc fuel with
  | nil =>
    obtain ⟨fuel, rfl⟩ : ∃ less, fuel = less + 1 := ⟨fuel - 1, by omega⟩
    have fresh : key ∉ acc.map Prod.fst := by
      rw [List.map_append, List.nodup_append] at distinct
      exact fun member => distinct.2.2 key member key (by simp) rfl
    rw [scanMembers_member keyScalar valuePrintable first acc depth (fun c closing => by cases closing; simp) enough,
      Decode.ok_bind]
    show (⟨_ ++ [], .ok (Value.dict (setItem key value acc), rest)⟩ : Decode _) = _
    rw [setItem_fresh fresh]
    rfl
  | cons next items ih =>
    obtain ⟨fuel, rfl⟩ : ∃ less, fuel = less + 1 := ⟨fuel - 1, by omega⟩
    obtain ⟨nextKey, nextValue⟩ := next
    have fresh : key ∉ acc.map Prod.fst := by
      rw [List.map_append, List.nodup_append] at distinct
      exact fun member => distinct.2.2 key member key (by simp) rfl
    have shorter : 2 * (memberText nextKey nextValue (dumpsMembers (text ", ") items ++ 0x7D :: rest)).length + 2 ≤
        fuel := by
      rw [dumpsMembers_cons, memberText, List.length_cons, List.length_append, List.length_cons, List.length_cons,
        List.length_cons, List.length_append, List.length_cons, List.length_cons] at enough
      omega
    have later := ih (fun item member => scalar item (List.mem_cons_of_mem _ member))
      (fun item member => printable item (List.mem_cons_of_mem _ member))
      (fun item member => each item (List.mem_cons_of_mem _ member)) (scalar _ List.mem_cons_self)
      (printable _ List.mem_cons_self) (each _ List.mem_cons_self) (acc ++ [(key, value)])
      (by rwa [List.append_assoc]) shorter
    rw [dumpsMembers_cons] at enough ⊢
    rw [scanMembers_member keyScalar valuePrintable first acc depth (fun c comma => by cases comma; simp) enough,
      Decode.ok_bind]
    show (⟨_ ++ (scanMembers fuel depth (setItem key value acc) (memberText nextKey nextValue _)).demands,
      (scanMembers fuel depth (setItem key value acc) (memberText nextKey nextValue _)).result⟩ : Decode _) = _
    rw [setItem_fresh fresh, later, demandsOfMembers]
    simp

theorem reads_list {items : List Value} (printable : ∀ value ∈ items, Printable value)
    (each : ∀ value ∈ items, Reads value) : Reads (.list items) := by
  intro depth fuel rest stops enough
  obtain ⟨fuel, rfl⟩ : ∃ less, fuel = less + 1 := ⟨fuel - 1, by omega⟩
  rw [dumps, List.append_assoc, List.cons_append] at enough ⊢
  rw [scanOnce, if_neg (by decide), if_neg (by decide), if_pos rfl]
  cases items with
  | nil => rfl
  | cons value items =>
    have opening := printable value List.mem_cons_self
    have spelled : dumpsItems [] (value :: items) ++ ([0x5D] ++ rest) =
        dumps value ++ (dumpsItems (text ", ") items ++ 0x5D :: rest) := by
      rw [dumpsItems, List.nil_append, List.append_assoc]
      rfl
    rw [spelled] at enough ⊢
    have shorter : 2 * (dumps value ++ (dumpsItems (text ", ") items ++ 0x5D :: rest)).length + 2 ≤ fuel := by
      rw [List.length_cons] at enough
      omega
    have scanned := scanItems_dumpsItems (fun value member => printable value (List.mem_cons_of_mem _ member))
      (fun value member => each value (List.mem_cons_of_mem _ member)) (each value List.mem_cons_self) [] (depth + 1)
      shorter
    rw [opening.skipWhitespace_eq]
    obtain ⟨c, more, shown, -, closes⟩ := opening.first
    rw [shown, List.cons_append] at scanned ⊢
    rw [Decode.demand_bind]
    split
    · rename_i same
      cases same
      exact absurd rfl closes
    · rw [scanned]
      rfl

theorem reads_dict {items : List (Text × Value)} (scalar : ∀ item ∈ items, Scalar item.1)
    (distinct : (items.map Prod.fst).Nodup) (printable : ∀ item ∈ items, Printable item.2)
    (each : ∀ item ∈ items, Reads item.2) : Reads (.dict items) := by
  intro depth fuel rest stops enough
  obtain ⟨fuel, rfl⟩ : ∃ less, fuel = less + 1 := ⟨fuel - 1, by omega⟩
  rw [dumps, List.append_assoc, List.cons_append] at enough ⊢
  rw [scanOnce, if_neg (by decide), if_pos rfl]
  cases items with
  | nil => rfl
  | cons item items =>
    obtain ⟨key, value⟩ := item
    have spelled : dumpsMembers [] ((key, value) :: items) ++ ([0x7D] ++ rest) =
        memberText key value (dumpsMembers (text ", ") items ++ 0x7D :: rest) := by
      simp [dumpsMembers, encodeString, memberText, text]
    rw [spelled] at enough ⊢
    have shorter : 2 * (memberText key value (dumpsMembers (text ", ") items ++ 0x7D :: rest)).length + 2 ≤ fuel := by
      rw [List.length_cons] at enough
      omega
    have keyScalar : Scalar key := scalar _ List.mem_cons_self
    have valuePrintable : Printable value := printable _ List.mem_cons_self
    have scanned := scanMembers_dumpsMembers (fun item member => scalar item (List.mem_cons_of_mem _ member))
      (fun item member => printable item (List.mem_cons_of_mem _ member))
      (fun item member => each item (List.mem_cons_of_mem _ member)) keyScalar valuePrintable
      (each _ List.mem_cons_self) [] distinct (depth + 1) shorter
    show (⟨.nest (depth + 1) :: (scanMembers fuel (depth + 1) [] (memberText key value _)).demands,
      (scanMembers fuel (depth + 1) [] (memberText key value _)).result⟩ : Decode _) = _
    rw [scanned]
    rfl

/-- What is written for a printable value reads back as that value. -/
theorem Printable.reads {value : Value} (printable : Printable value) : Reads value := by
  induction printable with
  | null => exact reads_constant rfl (fun _ => rfl) (fun _ => rfl) ⟨_, _, rfl, by decide⟩
  | bool b =>
    cases b with
    | true => exact reads_constant rfl (fun _ => rfl) (fun _ => rfl) ⟨_, _, rfl, by decide⟩
    | false => exact reads_constant rfl (fun _ => rfl) (fun _ => rfl) ⟨_, _, rfl, by decide⟩
  | int n =>
    refine reads_number (Numeral.ofInt n) (by rw [dumps, Numeral.ofInt_text]) fun depth rest stops => ?_
    rw [Numeral.ofInt_text, matchNumber_intText n stops, demandsOf]
  | nan => exact reads_constant rfl (fun _ => rfl) (fun _ => rfl) ⟨_, _, rfl, by decide⟩
  | infinity => exact reads_constant rfl (fun _ => rfl) (fun _ => rfl) ⟨_, _, rfl, by decide⟩
  | negInfinity => exact reads_constant rfl (fun _ => rfl) (fun _ => rfl) ⟨_, _, rfl, by decide⟩
  | literal n isFloat =>
    refine reads_number n rfl fun depth rest stops => ?_
    rw [n.matchNumber_float stops isFloat]
    rfl
  | str scalar => exact reads_str scalar
  | list printable each => exact reads_list printable each
  | dict scalar distinct printable each => exact reads_dict scalar distinct printable each

theorem document_dumps {value : Value} (printable : Printable value) :
    document (dumps value) = ⟨demandsOf 0 value, .ok value⟩ := by
  have skipped := printable.skipWhitespace_eq []
  have scanned := printable.reads 0 (2 * (dumps value).length + 1) [] (fun c first => by cases first) (by simp)
  rw [List.append_nil] at skipped scanned
  unfold document
  dsimp only
  rw [skipped, scanned]
  show (⟨_ ++ [], .ok value⟩ : Decode Value) = _
  rw [List.append_nil]

theorem isDigit_printing {s : Text} (digits : ∀ c ∈ s, isDigit c = true) : Printing s := by
  intro c member
  have digit := digits c member
  rw [isDigit, Bool.and_eq_true, decide_eq_true_iff, decide_eq_true_iff] at digit
  omega

theorem Numeral.text_printing (n : Numeral) : Printing n.text := by
  have sign : Printing (if n.negative then Python.text "-" else []) := by
    cases n.negative with
    | true => decide
    | false => decide
  have point : Printing n.point := by
    unfold Numeral.point
    split
    · decide
    · have mark : Printing [0x2E] := by decide
      exact mark.append (isDigit_printing n.places_digits)
  have exponent : Printing n.exponent := by
    rcases n.exponent_form with none | ⟨sign, digits, form, signed, -, all⟩
    · rw [none]
      decide
    · rw [form]
      have mark : Printing [0x65, sign] := by
        rcases signed with rfl | rfl
        · decide
        · decide
      exact mark.append (isDigit_printing all)
  exact ((sign.append (isDigit_printing n.whole_digits)).append point).append exponent

theorem dumpsItems_printing {items : List Value} (each : ∀ value ∈ items, Printing (dumps value)) {before : Text}
    (separator : Printing before) : Printing (dumpsItems before items) := by
  induction items generalizing before with
  | nil =>
    rw [dumpsItems]
    decide
  | cons value items ih =>
    rw [dumpsItems]
    exact (separator.append (each value List.mem_cons_self)).append
      (ih (fun value member => each value (List.mem_cons_of_mem _ member)) (by decide))

theorem dumpsMembers_printing {items : List (Text × Value)} (each : ∀ item ∈ items, Printing (dumps item.2))
    {before : Text} (separator : Printing before) : Printing (dumpsMembers before items) := by
  induction items generalizing before with
  | nil =>
    rw [dumpsMembers]
    decide
  | cons item items ih =>
    obtain ⟨key, value⟩ := item
    have colon : Printing (text ": ") := by decide
    rw [dumpsMembers]
    exact (((separator.append (encodeString_printing key)).append colon).append (each _ List.mem_cons_self)).append
      (ih (fun item member => each item (List.mem_cons_of_mem _ member)) (by decide))

/-- `ensure_ascii` keeps its word. -/
theorem Printable.printing {value : Value} (printable : Printable value) : Printing (dumps value) := by
  induction printable with
  | null => decide
  | bool b =>
    cases b with
    | true => decide
    | false => decide
  | int n =>
    rw [dumps, ← Numeral.ofInt_text]
    exact Numeral.text_printing _
  | nan => decide
  | infinity => decide
  | negInfinity => decide
  | literal n isFloat => exact n.text_printing
  | str scalar => exact encodeString_printing _
  | list printable each =>
    rw [dumps]
    have opening : Printing [0x5B] := by decide
    exact (opening.append (dumpsItems_printing each (by decide))).append (by decide)
  | dict scalar distinct printable each =>
    rw [dumps]
    have opening : Printing [0x7B] := by decide
    exact (opening.append (dumpsMembers_printing each (by decide))).append (by decide)

/-- `json.dumps(value).encode("utf-8")`, or `none` where it raises. -/
def serialize (value : Value) : Option Bytes := encodeUtf8 (dumps value)

/-- A printable value serialises, and within the interpreter's limits the
bytes load as that value. -/
theorem Printable.loads_serialize {value : Value} (printable : Printable value) {limits : Limits}
    (met : (demandsOf 0 value).findSome? limits.refuses = none) :
    ∃ bytes, serialize value = some bytes ∧ loads limits bytes = .ok value := by
  have printing := printable.printing
  refine ⟨_, encodeUtf8_of_printing printing, ?_⟩
  have decoded : Bytes.decode .utf8 ((dumps value).map UInt8.ofNat) = some (dumps value) :=
    decodeUtf8_of_printing printing
  rw [loads, detectEncoding_of_printing printing, decoded]
  dsimp only
  rw [document_dumps printable, Decode.run, met]
  rfl

end Json

end Python
