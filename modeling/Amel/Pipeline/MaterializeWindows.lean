import Amel.Backfill.Materialize
import Amel.Pipeline.Tasks

namespace Amel

/-- The event timestamps of the rows a run inserted, in order. -/
def runTimestamps (table : List CuratedHiggsFeature) (runId : String) : List Int :=
  ((table.filter fun r => r.sourceRunId = runId).map (·.eventTimestamp)).insertionSort (· ≤ ·)

/-- The rows that the feature store's `BETWEEN start_ts AND end_ts` loads for a window. -/
def loadedRows (table : List CuratedHiggsFeature) (window : Int × Int) : List CuratedHiggsFeature :=
  table.filter fun r => window.1 ≤ r.eventTimestamp ∧ r.eventTimestamp ≤ window.2

variable {table : List CuratedHiggsFeature} {runId : String} {chunkRows : ℕ+}

theorem runTimestamps_perm (table : List CuratedHiggsFeature) (runId : String) :
    (runTimestamps table runId).Perm ((table.filter fun r => r.sourceRunId = runId).map (·.eventTimestamp)) :=
  List.perm_insertionSort _ _

theorem runTimestamps_sorted (table : List CuratedHiggsFeature) (runId : String) :
    (runTimestamps table runId).Pairwise (· ≤ ·) :=
  List.pairwise_insertionSort _ _

theorem runTimestamps_eq_nil :
    runTimestamps table runId = [] ↔ (table.filter fun r => r.sourceRunId = runId) = [] := by
  rw [← List.length_eq_zero_iff, (runTimestamps_perm table runId).length_eq, List.length_map, List.length_eq_zero_iff]

theorem materializeWindowsForRun_nil (chunkRows : ℕ+) (none : runTimestamps table runId = []) :
    materializeWindowsForRun table runId chunkRows = [] := by
  rw [materializeWindowsForRun, runTimestamps_eq_nil.mp none]
  rfl

/-- The largest timestamp of a run, where it has rows. -/
def lastTimestamp (table : List CuratedHiggsFeature) (runId : String) : Int := (runTimestamps table runId).getLastD 0

theorem le_lastTimestamp {ts : Int} (member : ts ∈ runTimestamps table runId) : ts ≤ lastTimestamp table runId := by
  have sorted := runTimestamps_sorted table runId
  rw [lastTimestamp]
  generalize runTimestamps table runId = timestamps at member sorted
  induction timestamps using List.reverseRecOn with
  | nil => simp at member
  | append_singleton earlier last =>
    rw [List.getLastD_concat]
    rcases List.mem_append.mp member with inEarlier | isLast
    · exact (List.pairwise_append.mp sorted).2.2 ts inEarlier last (List.mem_singleton.mpr rfl)
    · exact (List.mem_singleton.mp isLast).le

theorem least_le {lo ts : Int} (least : (runTimestamps table runId).head? = some lo)
    (member : ts ∈ runTimestamps table runId) : lo ≤ ts := by
  obtain ⟨rest, rows⟩ := List.head?_eq_some_iff.mp least
  have sorted := runTimestamps_sorted table runId
  rw [rows] at member sorted
  rcases List.mem_cons.mp member with rfl | later
  · exact le_rfl
  · exact (List.pairwise_cons.mp sorted).1 ts later

theorem min?_of_least {lo : Int} (least : (runTimestamps table runId).head? = some lo) :
    ((table.filter fun r => r.sourceRunId = runId).map (·.eventTimestamp)).min? = some lo := by
  have same {ts : Int} := (runTimestamps_perm table runId).mem_iff (a := ts)
  exact List.min?_eq_some_iff.mpr
    ⟨same.mp (List.mem_of_mem_head? least), fun ts member => least_le least (same.mpr member)⟩

theorem max?_of_least {lo : Int} (least : (runTimestamps table runId).head? = some lo) :
    ((table.filter fun r => r.sourceRunId = runId).map (·.eventTimestamp)).max? = some (lastTimestamp table runId) := by
  have same {ts : Int} := (runTimestamps_perm table runId).mem_iff (a := ts)
  obtain ⟨rest, rows⟩ := List.head?_eq_some_iff.mp least
  refine List.max?_eq_some_iff.mpr ⟨same.mp ?_, fun ts member => le_lastTimestamp (same.mpr member)⟩
  rw [lastTimestamp, rows, List.getLastD_cons]
  exact List.getLastD_mem_cons

/-- With rows, the windows run from the smallest timestamp to just past the largest. -/
theorem materializeWindowsForRun_split (chunkRows : ℕ+) {lo : Int}
    (least : (runTimestamps table runId).head? = some lo) :
    materializeWindowsForRun table runId chunkRows =
      Windows.split lo (lastTimestamp table runId + windowEndPad)
        (Windows.everyNth chunkRows (runTimestamps table runId)) := by
  simp only [materializeWindowsForRun, min?_of_least least, max?_of_least least, materializeWindows]
  rfl

/-- The time range of the `i`-th block of a run's rows, those from one
`chunk_rows`-th row to the next; the last range ends past the last row. -/
def blockRange (table : List CuratedHiggsFeature) (runId : String) (chunkRows : ℕ+) (i : Nat) : Int × Int :=
  let timestamps := runTimestamps table runId
  (timestamps[i * chunkRows - 1]?.getD 0,
    timestamps[(i + 1) * chunkRows - 1]?.getD (lastTimestamp table runId + windowEndPad))

theorem blockRange_fst {i : Nat} (inside : i * chunkRows - 1 < (runTimestamps table runId).length) :
    (runTimestamps table runId)[i * chunkRows - 1]? = some (blockRange table runId chunkRows i).1 := by
  rw [blockRange, List.getElem?_eq_getElem inside]
  rfl

theorem below_end {ts : Int} (member : ts ∈ runTimestamps table runId) :
    ts < lastTimestamp table runId + windowEndPad := by
  have bound := le_lastTimestamp member
  unfold windowEndPad
  omega

/-- The windows of a run are the proper ones among the ranges of its blocks. -/
theorem mem_materializeWindowsForRun (chunkRows : ℕ+) {window : Int × Int} :
    window ∈ materializeWindowsForRun table runId chunkRows ↔
      ∃ i : Nat, i * chunkRows - 1 < (runTimestamps table runId).length ∧
        window = blockRange table runId chunkRows i ∧ window.1 < window.2 := by
  cases rows : (runTimestamps table runId).head? with
  | none =>
    have empty := List.head?_eq_none_iff.mp rows
    simp [materializeWindowsForRun_nil chunkRows empty, empty]
  | some lo =>
    rw [materializeWindowsForRun_split chunkRows rows,
      Windows.mem_split_everyNth chunkRows (runTimestamps_sorted table runId) rows fun _ => below_end]
    refine exists_congr fun i => ⟨fun ⟨atLow, atHigh, wide⟩ => ?_, fun ⟨inside, same, wide⟩ => ?_⟩
    · have inside := (List.getElem?_eq_some_iff.mp atLow).1
      have isLow := Option.some.inj (atLow.symm.trans (blockRange_fst inside))
      exact ⟨inside, Prod.ext isLow atHigh.symm, wide⟩
    · subst same
      exact ⟨blockRange_fst inside, rfl, wide⟩

/-- The rows a block's range holds and the block does not: those of other
runs, and rows of the run itself tied with one of the two cuts. -/
def strangers (table : List CuratedHiggsFeature) (runId : String) (chunkRows : ℕ+) (i : Nat) : Nat :=
  let range := blockRange table runId chunkRows i
  ((loadedRows table range).filter fun r => r.sourceRunId ≠ runId).length +
    (Windows.outside chunkRows (runTimestamps table runId) i).countP fun ts => ts = range.1 ∨ ts = range.2

/-- The room the `i`-th block of a run with `count` rows leaves under
`chunk_rows + 1`: none between two cuts, one before the first cut, after
the last cut what is missing to a whole chunk. -/
def spareRows (chunkRows : ℕ+) (count i : Nat) : Nat :=
  if i = 0 then chunkRows + 1 - min count chunkRows else (i + 1) * chunkRows - count

theorem length_block_add_spare (timestamps : List Int) {i : Nat} (inside : i * chunkRows - 1 < timestamps.length) :
    (Windows.block chunkRows timestamps i).length + spareRows chunkRows timestamps.length i = chunkRows + 1 := by
  have positive := chunkRows.pos
  have grown : (i + 1) * (chunkRows : Nat) = i * chunkRows + chunkRows := Nat.succ_mul ..
  rw [Windows.block, List.length_take, List.length_drop, spareRows]
  by_cases first : i = 0
  · subst first
    simp only [if_pos]
    omega
  · have full : (chunkRows : Nat) ≤ i * chunkRows := Nat.le_mul_of_pos_left _ (Nat.pos_of_ne_zero first)
    rw [if_neg first]
    omega

/-- The rows of the run itself in a window, counted by their timestamps. -/
theorem length_ownRows (table : List CuratedHiggsFeature) (runId : String) (window : Int × Int) :
    (loadedRows (table.filter fun r => r.sourceRunId = runId) window).length =
      (runTimestamps table runId).countP fun ts => window.1 ≤ ts ∧ ts ≤ window.2 := by
  rw [(runTimestamps_perm table runId).countP_eq, List.countP_map, List.countP_eq_length_filter, loadedRows]
  rfl

theorem length_loadedRows (table : List CuratedHiggsFeature) (runId : String) (window : Int × Int) :
    (loadedRows table window).length =
      (runTimestamps table runId).countP (fun ts => window.1 ≤ ts ∧ ts ≤ window.2) +
        ((loadedRows table window).filter fun r => r.sourceRunId ≠ runId).length := by
  have own : (loadedRows (table.filter fun r => r.sourceRunId = runId) window).length =
      ((loadedRows table window).filter fun r => r.sourceRunId = runId).length := by
    rw [loadedRows, loadedRows, List.filter_filter, List.filter_filter]
    exact congrArg List.length (List.filter_congr fun r _ => Bool.and_comm _ _)
  rw [← length_ownRows, own, List.length_eq_length_filter_add fun r => decide (r.sourceRunId = runId)]
  simp

/-- In the proper range of a block lie its rows and the strangers. -/
theorem length_loadedRows_block {i : Nat} (inside : i * chunkRows - 1 < (runTimestamps table runId).length)
    (wide : (blockRange table runId chunkRows i).1 < (blockRange table runId chunkRows i).2) :
    (loadedRows table (blockRange table runId chunkRows i)).length =
      (Windows.block chunkRows (runTimestamps table runId) i).length + strangers table runId chunkRows i := by
  have sorted := runTimestamps_sorted table runId
  have atLow := blockRange_fst inside
  set range := blockRange table runId chunkRows i with isRange
  have members : (Windows.block chunkRows (runTimestamps table runId) i).countP
      (fun ts => range.1 ≤ ts ∧ ts ≤ range.2) = (Windows.block chunkRows (runTimestamps table runId) i).length := by
    refine List.countP_eq_length.mpr fun ts member => decide_eq_true ?_
    exact Windows.block_within chunkRows sorted (fun _ => below_end) atLow rfl member
  have tied : (Windows.outside chunkRows (runTimestamps table runId) i).countP
      (fun ts => range.1 ≤ ts ∧ ts ≤ range.2) =
      (Windows.outside chunkRows (runTimestamps table runId) i).countP fun ts => ts = range.1 ∨ ts = range.2 := by
    refine List.countP_congr fun ts member => ?_
    have apart : ts ≤ range.1 ∨ range.2 ≤ ts := Windows.outside_apart chunkRows sorted atLow rfl member
    rw [decide_eq_true_iff, decide_eq_true_iff]
    omega
  rw [length_loadedRows table runId, ← (Windows.block_perm chunkRows (runTimestamps table runId) i).countP_eq,
    List.countP_append, members, tied, strangers, ← isRange]
  omega

/-- No window of a run holds more than a chunk and one row exactly when no
block has more strangers in its range than room. -/
theorem windows_bounded_iff (table : List CuratedHiggsFeature) (runId : String) (chunkRows : ℕ+) :
    (∀ window ∈ materializeWindowsForRun table runId chunkRows,
      (loadedRows table window).length ≤ chunkRows + 1) ↔
    ∀ i : Nat, i * chunkRows - 1 < (runTimestamps table runId).length →
      (blockRange table runId chunkRows i).1 < (blockRange table runId chunkRows i).2 →
      strangers table runId chunkRows i ≤ spareRows chunkRows (runTimestamps table runId).length i := by
  have room {i : Nat} (inside : i * chunkRows - 1 < (runTimestamps table runId).length)
      (wide : (blockRange table runId chunkRows i).1 < (blockRange table runId chunkRows i).2) :
      (loadedRows table (blockRange table runId chunkRows i)).length ≤ chunkRows + 1 ↔
        strangers table runId chunkRows i ≤ spareRows chunkRows (runTimestamps table runId).length i := by
    have held := length_loadedRows_block inside wide
    have bound := @length_block_add_spare chunkRows (runTimestamps table runId) i inside
    omega
  constructor
  · intro bounded i inside wide
    exact (room inside wide).mp (bounded _ ((mem_materializeWindowsForRun chunkRows).mpr ⟨i, inside, rfl, wide⟩))
  · intro spare window member
    obtain ⟨i, inside, rfl, wide⟩ := (mem_materializeWindowsForRun chunkRows).mp member
    exact (room inside wide).mpr (spare i inside wide)

/-- Two rows of a run, with two rows of another run between them. -/
theorem windows_unbounded :
    ¬∀ (table : List CuratedHiggsFeature) (runId : String) (chunkRows : ℕ+),
      ∀ window ∈ materializeWindowsForRun table runId chunkRows, (loadedRows table window).length ≤ chunkRows + 1 := by
  intro bounded
  let row (eventId runId : String) (ts : Int) : CuratedHiggsFeature := ⟨eventId, eventId, ts, "1.0.0", [], runId⟩
  have window := bounded [row "a" "second" 0, row "b" "first" 5, row "c" "first" 6, row "d" "second" 10] "second" 1
    (0, 10) (by decide)
  exact absurd window (by decide)

/-- Where no two rows of a run have one timestamp, those in a window are rows of its block. -/
theorem length_ownRows_le (distinct : ((table.filter fun r => r.sourceRunId = runId).map (·.eventTimestamp)).Nodup)
    {window : Int × Int} (member : window ∈ materializeWindowsForRun table runId chunkRows) :
    (loadedRows (table.filter fun r => r.sourceRunId = runId) window).length ≤ chunkRows + 1 := by
  obtain ⟨i, inside, rfl, wide⟩ := (mem_materializeWindowsForRun chunkRows).mp member
  have strict : (runTimestamps table runId).Pairwise (· < ·) := by
    have apart : (runTimestamps table runId).Nodup := (runTimestamps_perm table runId).nodup_iff.mpr distinct
    exact ((runTimestamps_sorted table runId).and apart).imp fun both => lt_of_le_of_ne both.1 both.2
  have atLow := blockRange_fst inside
  set range := blockRange table runId chunkRows i with isRange
  have others : (Windows.outside chunkRows (runTimestamps table runId) i).countP
      (fun ts => range.1 ≤ ts ∧ ts ≤ range.2) = 0 := by
    refine List.countP_eq_zero.mpr fun ts member => ?_
    have apart : ts < range.1 ∨ range.2 < ts := Windows.outside_apart chunkRows strict atLow rfl member
    rw [decide_eq_true_iff]
    omega
  have members := List.countP_le_length (l := Windows.block chunkRows (runTimestamps table runId) i)
    (p := fun ts => decide (range.1 ≤ ts ∧ ts ≤ range.2))
  have bound := Windows.length_block_le chunkRows (runTimestamps table runId) i
  rw [length_ownRows, ← (Windows.block_perm chunkRows (runTimestamps table runId) i).countP_eq, List.countP_append,
    others]
  omega

theorem materializeWindowsForRun_tiles (chunkRows : ℕ+) {lo : Int}
    (least : (runTimestamps table runId).head? = some lo) :
    Windows.Tiles lo (materializeWindowsForRun table runId chunkRows) (lastTimestamp table runId + windowEndPad) := by
  have sorted := runTimestamps_sorted table runId
  have cuts := Windows.everyNth_sublist chunkRows (runTimestamps table runId)
  rw [materializeWindowsForRun_split chunkRows least]
  exact Windows.split_tiles (below_end (List.mem_of_mem_head? least)).le (sorted.sublist cuts)

/-- The windows of a run begin and end where its rows do and leave none
out; where no two of the rows have one timestamp each window holds at most
a chunk of them and one more. -/
theorem windows_cover_run (table : List CuratedHiggsFeature) (runId : String) (chunkRows : ℕ+) :
    let rows := table.filter fun r => r.sourceRunId = runId
    let windows := materializeWindowsForRun table runId chunkRows
    (windows = [] ↔ rows = []) ∧
      (∀ window ∈ windows, window.1 < window.2) ∧
      windows.IsChain (fun window next => window.2 = next.1) ∧
      (∀ window, windows.head? = some window → (rows.map (·.eventTimestamp)).min? = some window.1) ∧
      (∀ window, windows.getLast? = some window → ∀ r ∈ rows, r.eventTimestamp < window.2) ∧
      (∀ r ∈ rows, ∃ window ∈ windows, window.1 ≤ r.eventTimestamp ∧ r.eventTimestamp ≤ window.2) ∧
      ((rows.map (·.eventTimestamp)).Nodup → ∀ window ∈ windows, (loadedRows rows window).length ≤ chunkRows + 1) := by
  intro rows windows
  have covers (r : CuratedHiggsFeature) (member : r ∈ rows) :
      ∃ window ∈ windows, window.1 ≤ r.eventTimestamp ∧ r.eventTimestamp ≤ window.2 := by
    obtain ⟨inTable, source⟩ := List.mem_filter.mp member
    exact materializeWindowsForRun_covers chunkRows inTable (of_decide_eq_true source)
  have bounded (distinct : (rows.map (·.eventTimestamp)).Nodup) (window : Int × Int) (member : window ∈ windows) :=
    length_ownRows_le distinct member
  cases least : (runTimestamps table runId).head? with
  | none =>
    have noRows := List.head?_eq_none_iff.mp least
    have noWindows : windows = [] := materializeWindowsForRun_nil chunkRows noRows
    have empty : rows = [] := runTimestamps_eq_nil.mp noRows
    rw [noWindows, empty] at *
    simp
  | some lo =>
    have tiles : Windows.Tiles lo windows (lastTimestamp table runId + windowEndPad) :=
      materializeWindowsForRun_tiles chunkRows least
    have someRow : rows ≠ [] := fun empty => by
      rw [runTimestamps_eq_nil.mpr empty] at least
      cases least
    have someWindow : windows ≠ [] := fun empty => by
      obtain ⟨r, member⟩ := List.exists_mem_of_ne_nil rows someRow
      obtain ⟨window, inside, _⟩ := covers r member
      rw [empty] at inside
      cases inside
    refine ⟨iff_of_false someWindow someRow, tiles.proper, tiles.shared, fun window isFirst => ?_,
      fun window isLast r member => ?_, covers, bounded⟩
    · rw [tiles.first isFirst]
      exact min?_of_least least
    · rw [tiles.last isLast]
      exact below_end ((runTimestamps_perm table runId).mem_iff.mpr (List.mem_map_of_mem member))

/-- **Window construction.** The pipeline and the backfill script split every
range at every list of boundaries as a splitting should. -/
theorem windows_split (start stop : Int) (boundaries : List Int) :
    Windows.Splitting start stop boundaries (materializeWindows start stop boundaries) ∧
      Windows.Splitting start stop boundaries (Backfill.windows start stop boundaries) :=
  ⟨Windows.split_splitting start stop boundaries, Windows.split_splitting start stop boundaries⟩

/-- Boundaries out of order still cover the range, with windows that overlap. -/
example : materializeWindows 0 10 [7, 7, 3, 12] = [(0, 7), (3, 10)] := by decide

end Amel
