import Mathlib.Data.List.Forall2
import Amel.Common.Events
import Amel.Python.Codec
import Amel.Python.Double

namespace Amel

open Python (Double Text text)

/-- `HiggsRow`. -/
structure DatasetRow where
  target : Int
  features : Features
  deriving DecidableEq, Repr

/-- What `csv.reader` makes of a file: its records, and then the end or an
error. -/
structure CsvContent where
  records : List (List Text)
  broken : Bool

/-- The archive at `zip_path`. The content of a member is that of its bytes,
gunzipped or as they stand. -/
structure HiggsArchive where
  namelist : List String
  content (member : String) (gunzip : Bool) : CsvContent

/-- `name.lower().endswith(suffix)` of an ASCII suffix. -/
def lowerEndsWith (name suffix : String) : Bool := suffix.toList.isSuffixOf (name.toList.map Char.toLower)

/-- `_find_csv_member`; `none` where it raises FileNotFoundError. -/
def findCsvMember (archive : HiggsArchive) : Option String :=
  archive.namelist.find? fun name => lowerEndsWith name ".csv" || lowerEndsWith name ".csv.gz"

def HiggsArchive.opened (archive : HiggsArchive) (member : String) : CsvContent :=
  archive.content member (lowerEndsWith member ".gz")

/-- `int(x)`, which raises for NaN and the infinities. -/
def truncate (x : Double) : Option Int := if x.isFinite then some (x.units.tdiv (2 ^ 1074)) else none

/-- `zip(names, values, strict=True)`. -/
def zipStrict {α β : Type} (names : List α) (values : List β) : Option (List (α × β)) :=
  if names.length = values.length then some (names.zip values) else none

section

/- `float(text)`, or `none` where it raises ValueError. -/
variable (float : Text → Option Double)

/-- The body of the inner loop up to its `yield`; `none` where it raises. -/
def higgsRow (row : List Text) : Option DatasetRow := do
  let first ← row[0]?
  let target ← truncate (← float first)
  let values ← ((row.drop 1).take 28).mapM float
  return { target, features := ← zipStrict higgsFeatureNames values }

/-- Where the generator stands: at the head of `while True`, at that of the
inner loop with what is left of the file and of `max_rows`, or at its end. -/
inductive StreamPoint
  | opening
  | reading (rest : CsvContent) (left : Option Nat)
  | closed

inductive StreamStep
  | silent (point : StreamPoint)
  | yields (row : DatasetRow) (point : StreamPoint)
  | ends
  | raises

/-- The stop of `itertools.islice(reader, max_rows)`; `none` where it raises
ValueError. -/
def isliceStop (maxRows : Int) : Option Nat := if 0 ≤ maxRows ∧ maxRows < 2 ^ 63 then some maxRows.toNat else none

/-- The arguments of `stream_rows`. -/
structure RowStream where
  archive : HiggsArchive
  maxRows : Option Int
  cycle : Bool

namespace RowStream

variable (stream : RowStream)

/-- `rows`: the reader, or its first `max_rows` records. -/
def openRows (content : CsvContent) : StreamStep :=
  match stream.maxRows with
  | none => .silent (.reading content none)
  | some maxRows =>
    match isliceStop maxRows with
    | some stop => .silent (.reading content (some stop))
    | none => .raises

/-- What follows the inner loop. -/
def exhausted : StreamStep := if stream.cycle then .silent .opening else .ends

/-- One step of the generator. -/
def step : StreamPoint → StreamStep
  | .opening =>
    match findCsvMember stream.archive with
    | some member => stream.openRows (stream.archive.opened member)
    | none => .raises
  | .reading _ (some 0) => stream.exhausted
  | .reading ⟨[], broken⟩ _ => if broken then .raises else stream.exhausted
  | .reading ⟨record :: rest, broken⟩ left =>
    match higgsRow float record with
    | some row => .yields row (.reading ⟨rest, broken⟩ (left.map Nat.pred))
    | none => .raises
  | .closed => .ends

/-- `next(rows)`, as far as so many steps go. -/
def next : Nat → StreamPoint → Option StreamStep
  | 0, _ => none
  | fuel + 1, point =>
    match stream.step float point with
    | .silent point => next fuel point
    | answer => some answer

/-- The rows yielded so far and where the generator then stands. -/
inductive Run : List DatasetRow → StreamPoint → Prop
  | start : Run [] .opening
  | silent {rows point after} : Run rows point → stream.step float point = .silent after → Run rows after
  | yields {rows point row after} : Run rows point → stream.step float point = .yields row after →
      Run (rows ++ [row]) after
  | ends {rows point} : Run rows point → stream.step float point = .ends → Run rows .closed
  | raises {rows point} : Run rows point → stream.step float point = .raises → Run rows .closed

/-- The file has a CSV member whose records are these rows. -/
def WellFormed (rows : List DatasetRow) : Prop :=
  ∃ member records, findCsvMember stream.archive = some member ∧ stream.archive.opened member = ⟨records, false⟩ ∧
    List.Forall₂ (fun record row => higgsRow float record = some row) records rows

/-- `min(n, max_rows)`. -/
def window (rows : List DatasetRow) : Nat :=
  match stream.maxRows with
  | none => rows.length
  | some maxRows => min rows.length maxRows.toNat

/-- A request at this point gets a row, the end or an exception. -/
def Answered (point : StreamPoint) : Prop := ∃ fuel, (stream.next float fuel point).isSome

/-- `itertools.islice` refuses the limit. -/
def Refused : Prop := ∃ maxRows, stream.maxRows = some maxRows ∧ isliceStop maxRows = none

/-- Every row yielded is the one of its place in the cycle, without `cycle`
the rows of the window come once, and every request is answered. -/
structure Streams (rows : List DatasetRow) : Prop where
  cyclic : ∀ yielded point, stream.Run float yielded point → ∀ k, k < yielded.length →
    yielded[k]? = rows[k % stream.window rows]?
  once : ∀ yielded point, stream.Run float yielded point → stream.cycle = false →
    yielded.length ≤ stream.window rows
  complete : ∀ yielded point, stream.Run float yielded point → point ≠ .closed →
    stream.step float point = .ends → stream.cycle = false ∧ yielded.length = stream.window rows
  sound : ∀ yielded point, stream.Run float yielded point → stream.step float point = .raises → stream.Refused
  answers : ∀ yielded point, stream.Run float yielded point → stream.Answered float point

/-- The records that the inner loop still takes. -/
def remaining (rest : CsvContent) (left : Option Nat) : Nat := left.elim rest.records.length (min rest.records.length)

/-- What is left of the file is what is left of these rows. -/
def Leaves (rest : CsvContent) (rows : List DatasetRow) : Prop :=
  rest.broken = false ∧ List.Forall₂ (fun record row => higgsRow float record = some row) rest.records rows

/-- Where the generator stands after so many rows: some whole passes, and a
part of the current one. -/
def Place (rows : List DatasetRow) (yielded : Nat) : StreamPoint → Prop
  | .opening => ∃ passes, yielded = passes * stream.window rows ∧ (stream.cycle = false → passes = 0)
  | .reading rest left => ∃ passes count, yielded = passes * stream.window rows + count ∧
      (stream.cycle = false → passes = 0) ∧ count + remaining rest left = stream.window rows ∧
      Leaves float rest (rows.drop count)
  | .closed => stream.cycle = false → yielded ≤ stream.window rows

/-- What a step does to the count of rows. -/
def Follows (rows : List DatasetRow) (yielded : Nat) : StreamStep → Prop
  | .silent after => stream.Place float rows yielded after
  | .yields row after => stream.Place float rows (yielded + 1) after ∧ rows[yielded % stream.window rows]? = some row
  | .ends | .raises => stream.Place float rows yielded .closed

variable {float} {stream} {rows yielded : List DatasetRow} {rest : CsvContent} {left : Option Nat} {point : StreamPoint}

/-- The outer loop opens the file at its first record, unless the limit is
refused. -/
theorem opening_step (content : stream.WellFormed float rows) :
    (stream.Refused ∧ stream.step float .opening = .raises) ∨
      ∃ rest left, ¬stream.Refused ∧ stream.step float .opening = .silent (.reading rest left) ∧
        remaining rest left = stream.window rows ∧ Leaves float rest rows := by
  obtain ⟨member, records, found, opened, parsed⟩ := content
  have length := parsed.length_eq
  simp only [step, found, opened, openRows, window, Refused]
  cases limit : stream.maxRows with
  | none => exact Or.inr ⟨_, _, by simp, rfl, length, rfl, parsed⟩
  | some maxRows =>
    simp only
    cases accepted : isliceStop maxRows with
    | none => exact Or.inl ⟨⟨_, rfl, accepted⟩, rfl⟩
    | some stop =>
      have same : stop = maxRows.toNat := by
        unfold isliceStop at accepted
        split at accepted
        · exact (Option.some.inj accepted).symm
        · cases accepted
      refine Or.inr ⟨_, _, by simp [accepted], rfl, ?_, rfl, parsed⟩
      simp only [remaining, Option.elim_some, length, same]

/-- The inner loop yields the next row as long as it takes records. -/
theorem reading_step (stream : RowStream) (left : Option Nat) (leaves : Leaves float rest rows) :
    (remaining rest left = 0 ∧ stream.step float (.reading rest left) = stream.exhausted) ∨
      ∃ row others after fewer, rows = row :: others ∧
        stream.step float (.reading rest left) = .yields row (.reading after fewer) ∧
        remaining rest left = remaining after fewer + 1 ∧ Leaves float after others := by
  obtain ⟨records, broken⟩ := rest
  obtain ⟨rfl, parsed⟩ := leaves
  simp only at parsed
  cases parsed with
  | nil =>
    left
    rcases left with _ | _ | stop <;> exact ⟨by simp [remaining], rfl⟩
  | @cons record row records others head tail =>
    rcases left with _ | _ | stop
    · refine Or.inr ⟨row, others, ⟨records, false⟩, none, rfl, ?_, rfl, rfl, tail⟩
      simp only [step, head, Option.map_none]
    · exact Or.inl ⟨by simp [remaining], rfl⟩
    · refine Or.inr ⟨row, others, ⟨records, false⟩, some stop, rfl, ?_, ?_, rfl, tail⟩
      · simp only [step, head, Option.map_some, Nat.pred_succ]
      · simp only [remaining, Option.elim_some, List.length_cons]
        omega

theorem Leaves.drop_succ {row : DatasetRow} {others : List DatasetRow} {count : Nat}
    (leaves : Leaves float rest others) (here : rows.drop count = row :: others) :
    Leaves float rest (rows.drop (count + 1)) := by
  rw [← List.drop_drop, here]
  exact leaves

theorem Place.follows {count : Nat} (place : stream.Place float rows count point)
    (content : stream.WellFormed float rows) : stream.Follows float rows count (stream.step float point) := by
  cases point with
  | opening =>
    obtain ⟨passes, rfl, single⟩ := place
    rcases opening_step content with ⟨_, refused⟩ | ⟨rest, left, _, opened, whole, leaves⟩
    · rw [refused]
      intro once
      rw [single once]
      omega
    · rw [opened]
      exact ⟨passes, 0, rfl, single, by omega, leaves⟩
  | reading rest left =>
    obtain ⟨passes, count, rfl, single, part, leaves⟩ := place
    rcases reading_step stream left leaves with
      ⟨spent, moved⟩ | ⟨row, others, after, fewer, here, moved, further, leaves⟩
    · rw [moved, exhausted]
      have whole : count = stream.window rows := by omega
      cases cycle : stream.cycle with
      | true => exact ⟨passes + 1, by rw [whole, Nat.succ_mul], fun once => by simp [cycle] at once⟩
      | false =>
        intro _
        rw [single cycle]
        omega
    · rw [moved]
      refine ⟨⟨passes, count + 1, rfl, single, by omega, leaves.drop_succ here⟩, ?_⟩
      have below : count < stream.window rows := by omega
      rw [Nat.add_comm, Nat.add_mul_mod_self_right, Nat.mod_eq_of_lt below]
      have first := congrArg (·[0]?) here
      rwa [List.getElem?_drop, Nat.add_zero] at first
  | closed => exact place

/-- The generator is where its count of rows says. -/
theorem Run.place (run : stream.Run float yielded point) (content : stream.WellFormed float rows) :
    stream.Place float rows yielded.length point ∧
      ∀ k, k < yielded.length → yielded[k]? = rows[k % stream.window rows]? := by
  induction run with
  | start => exact ⟨⟨0, by simp, fun _ => rfl⟩, fun k below => absurd below (Nat.not_lt_zero k)⟩
  | @silent yielded point after _ moved ih =>
    have follows := ih.1.follows content
    rw [moved] at follows
    exact ⟨follows, ih.2⟩
  | @yields yielded point row after _ moved ih =>
    have follows := ih.1.follows content
    rw [moved] at follows
    obtain ⟨place, next⟩ := follows
    refine ⟨by rwa [List.length_append], fun k below => ?_⟩
    rw [List.length_append, List.length_singleton] at below
    by_cases earlier : k < yielded.length
    · rw [List.getElem?_append_left earlier]
      exact ih.2 k earlier
    · obtain rfl : k = yielded.length := by omega
      rw [next, List.getElem?_concat_length]
  | @ends yielded point _ moved ih =>
    have follows := ih.1.follows content
    rw [moved] at follows
    exact ⟨follows, ih.2⟩
  | @raises yielded point _ moved ih =>
    have follows := ih.1.follows content
    rw [moved] at follows
    exact ⟨follows, ih.2⟩

theorem Answered.here (answer : ∀ after, stream.step float point ≠ .silent after) : stream.Answered float point := by
  refine ⟨1, ?_⟩
  unfold next
  split
  · rename_i after moved
    exact absurd moved (answer after)
  · rfl

theorem Answered.silent {after : StreamPoint} (moved : stream.step float point = .silent after)
    (answered : stream.Answered float after) : stream.Answered float point := by
  obtain ⟨fuel, answers⟩ := answered
  exact ⟨fuel + 1, by rwa [next, moved]⟩

/-- The exact condition: the generator stops, its limit is refused, or it has
a row to yield. -/
def Progresses (rows : List DatasetRow) : Prop :=
  stream.cycle = false ∨ stream.Refused ∨ 0 < stream.window rows

theorem opening_answered (content : stream.WellFormed float rows) (progresses : stream.Progresses rows) :
    stream.Answered float .opening := by
  rcases opening_step content with ⟨_, refused⟩ | ⟨rest, left, accepted, opened, whole, leaves⟩
  · exact .here (by simp [refused])
  · refine .silent opened ?_
    rcases reading_step stream left leaves with
      ⟨spent, moved⟩ | ⟨row, others, after, fewer, here, moved, further, leaves⟩
    · rcases progresses with once | refused | positive
      · exact .here (by simp [moved, exhausted, once])
      · exact absurd refused accepted
      · omega
    · exact .here (by simp [moved])

theorem Place.answered {count : Nat} (place : stream.Place float rows count point)
    (content : stream.WellFormed float rows) (progresses : stream.Progresses rows) : stream.Answered float point := by
  cases point with
  | opening => exact opening_answered content progresses
  | reading rest left =>
    obtain ⟨_, _, _, _, _, leaves⟩ := place
    rcases reading_step stream left leaves with
      ⟨spent, moved⟩ | ⟨row, others, after, fewer, here, moved, further, leaves⟩
    · cases cycle : stream.cycle with
      | true => exact .silent (by rw [moved, exhausted, if_pos cycle]) (opening_answered content progresses)
      | false => exact .here (by simp [moved, exhausted, cycle])
    · exact .here (by simp [moved])
  | closed => exact .here (by simp [step])

/-- With nothing to yield the two loops go round for good. -/
theorem never_answers (content : stream.WellFormed float rows) (cycle : stream.cycle = true)
    (accepted : ¬stream.Refused) (empty : stream.window rows = 0) (fuel : Nat) :
    stream.next float fuel .opening = none ∧
      ∀ rest left, Leaves float rest rows → remaining rest left = 0 →
        stream.next float fuel (.reading rest left) = none := by
  induction fuel with
  | zero => exact ⟨rfl, fun _ _ _ _ => rfl⟩
  | succ fuel ih =>
    refine ⟨?_, fun rest left leaves spent => ?_⟩
    · rcases opening_step content with ⟨refused, _⟩ | ⟨rest, left, _, opened, whole, leaves⟩
      · exact absurd refused accepted
      · rw [next, opened]
        exact ih.2 rest left leaves (whole.trans empty)
    · rcases reading_step stream left leaves with
        ⟨_, moved⟩ | ⟨row, others, after, fewer, here, moved, further, leaves⟩
      · rw [next, moved, exhausted, if_pos cycle]
        exact ih.1
      · omega

theorem Place.once {count : Nat} (place : stream.Place float rows count point) (cycle : stream.cycle = false) :
    count ≤ stream.window rows := by
  cases point with
  | opening =>
    obtain ⟨passes, rfl, single⟩ := place
    rw [single cycle]
    omega
  | reading rest left =>
    obtain ⟨passes, part, rfl, single, within, _⟩ := place
    rw [single cycle]
    omega
  | closed => exact place cycle

theorem Place.complete {count : Nat} (place : stream.Place float rows count point)
    (content : stream.WellFormed float rows) (started : point ≠ .closed)
    (ends : stream.step float point = .ends) : stream.cycle = false ∧ count = stream.window rows := by
  cases point with
  | opening =>
    rcases opening_step content with ⟨_, moved⟩ | ⟨rest, left, _, moved, _⟩ <;> simp [moved] at ends
  | reading rest left =>
    obtain ⟨passes, part, rfl, single, within, leaves⟩ := place
    rcases reading_step stream left leaves with
      ⟨spent, moved⟩ | ⟨row, others, after, fewer, _, moved, _⟩
    · cases cycle : stream.cycle with
      | true => simp [moved, exhausted, cycle] at ends
      | false =>
        rw [single cycle]
        exact ⟨rfl, by omega⟩
    · simp [moved] at ends
  | closed => exact absurd rfl started

theorem Place.sound {count : Nat} (place : stream.Place float rows count point)
    (content : stream.WellFormed float rows) (raises : stream.step float point = .raises) : stream.Refused := by
  cases point with
  | opening =>
    rcases opening_step content with ⟨refused, _⟩ | ⟨rest, left, _, moved, _⟩
    · exact refused
    · simp [moved] at raises
  | reading rest left =>
    obtain ⟨_, _, _, _, _, leaves⟩ := place
    rcases reading_step stream left leaves with
      ⟨_, moved⟩ | ⟨row, others, after, fewer, _, moved, _⟩
    · cases cycle : stream.cycle <;> simp [moved, exhausted, cycle] at raises
    · simp [moved] at raises
  | closed => simp [step] at raises

/-- The stream is the cyclic prefix and answers every request exactly where
it progresses. -/
theorem streams_iff (content : stream.WellFormed float rows) :
    stream.Streams float rows ↔ stream.Progresses rows := by
  constructor
  · intro streams
    by_contra stuck
    obtain ⟨cycle, accepted, empty⟩ : stream.cycle = true ∧ ¬stream.Refused ∧ stream.window rows = 0 := by
      simpa [Progresses, not_or] using stuck
    obtain ⟨fuel, answer⟩ := streams.answers _ _ .start
    rw [(never_answers content cycle accepted empty fuel).1] at answer
    exact absurd answer Bool.false_ne_true
  · intro progresses
    exact {
      cyclic := fun yielded point run => (run.place content).2
      once := fun yielded point run => (run.place content).1.once
      complete := fun yielded point run => (run.place content).1.complete content
      sound := fun yielded point run => (run.place content).1.sound content
      answers := fun yielded point run => (run.place content).1.answered content progresses }

/-- An archive of one CSV file. -/
def ofRecords (records : List (List Text)) (maxRows : Option Int) (cycle : Bool) : RowStream where
  archive := { namelist := ["HIGGS.csv"], content := fun _ _ => ⟨records, false⟩ }
  maxRows
  cycle

/-- A file of three rows, the first two of them over and over. -/
theorem cut_file_streams :
    let record (target feature : String) := text target :: List.replicate 28 (text feature)
    let row (target : Int) (feature : Double) : DatasetRow :=
      ⟨target, higgsFeatureNames.map fun name => (name, feature)⟩
    (ofRecords [record "1.0" "0.0", record "0.0" "1.0", record "1.0" "1.0"] (some 2) true).Streams
      (fun field => if field = text "1.0" then some Double.one else if field = text "0.0" then some 0 else none)
      [row 1 0, row 0 Double.one, row 1 Double.one] :=
  (streams_iff ⟨"HIGGS.csv", _, by decide, rfl,
    .cons (by decide +kernel) (.cons (by decide +kernel) (.cons (by decide +kernel) .nil))⟩).mpr
    (Or.inr (Or.inr (by decide)))

/-- A file without rows is opened again and again, and no request for a row
is ever answered. -/
theorem no_rows_spin :
    (ofRecords [] none true).WellFormed (fun _ => none) [] ∧ ¬(ofRecords [] none true).Streams (fun _ => none) [] := by
  have content : (ofRecords [] none true).WellFormed (fun _ => none) [] := ⟨"HIGGS.csv", [], by decide, rfl, .nil⟩
  refine ⟨content, fun streams => ?_⟩
  obtain ⟨fuel, answer⟩ := streams.answers _ _ .start
  rw [(never_answers content rfl (by rintro ⟨_, ⟨⟩, _⟩) rfl fuel).1] at answer
  exact absurd answer Bool.false_ne_true

end RowStream

end

end Amel
