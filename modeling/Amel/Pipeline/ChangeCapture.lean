import Amel.Pipeline.WatermarkInvariant

namespace Amel

open Transition (Reach Guarded)

namespace Stream

abbrev Row : Stream → Type
  | features => HiggsFeatureEvent
  | labels => HiggsLabelEvent

def eventId : (stream : Stream) → stream.Row → String
  | features => HiggsFeatureEvent.eventId
  | labels => HiggsLabelEvent.eventId

def ingestedAt : (stream : Stream) → stream.Row → Int
  | features => HiggsFeatureEvent.ingestedAt
  | labels => HiggsLabelEvent.ingestedAt

def landed : (stream : Stream) → Landing → List stream.Row
  | features => Landing.features
  | labels => Landing.labels

def inserted : (stream : Stream) → LandingTransaction → List stream.Row
  | features => LandingTransaction.features
  | labels => LandingTransaction.labels

def extracted : (stream : Stream) → Extraction → List stream.Row
  | features => Extraction.features
  | labels => Extraction.labels

def openAt : Stream → Extraction → List LandingTransaction
  | features => Extraction.openAtFeatures
  | labels => Extraction.openAtLabels

theorem landed_insert (stream : Stream) (landing : Landing) (transaction : LandingTransaction) :
    stream.landed (landing.insert transaction.features transaction.labels) =
      KeyedTable.insertIgnore stream.eventId (stream.landed landing) (stream.inserted transaction) := by
  cases stream <;> rfl

end Stream

/-- The rows that a query over the window returned miss at most rows of
transactions that were open at the time and had started in it, and no
others of that age are open now. -/
structure Stream.Captures (stream : Stream) (bounds : WatermarkBounds) (rows : List stream.Row)
    (openThen : List LandingTransaction) (s : World) : Prop where
  landed : ∀ r ∈ stream.landed s.landing, bounds.lower stream < stream.ingestedAt r →
    stream.ingestedAt r ≤ bounds.upperBound →
    r ∈ rows ∨ ∃ transaction ∈ openThen, transaction.startedAt ≤ bounds.upperBound ∧ r ∈ stream.inserted transaction
  stillOpen : ∀ transaction ∈ s.transactions, transaction.startedAt ≤ bounds.upperBound → transaction ∈ openThen

/-- The run has an extraction query behind it. -/
def DagRun.HasQueried (p : DagRun) : Prop :=
  p.extraction.isSome = true ∨ ∃ features openAtFeatures, p.position = .featuresExtracted features openAtFeatures

/-- No ingestor transaction that was open at an extraction query and had
started at or before its upper bound adds a row: neither until the run
commits nor afterwards. And none starts at an instant that a query has
covered already. -/
def Pipeline.Uncrossed (lake : Lake) : LakeAction → Prop
  | .inl (.beginLanding _ _) =>
    (∀ commit ∈ lake.shared.commits, commit.bounds.upperBound < lake.shared.clock) ∧
      ∀ id bounds, (lake.processes id).HasQueried → (lake.processes id).bounds = some bounds →
        bounds.upperBound < lake.shared.clock
  | .inl (.commitLanding transaction) =>
    ∀ stream : Stream, ∀ commit ∈ lake.shared.commits, transaction ∈ stream.openAt commit.extraction →
      transaction.startedAt ≤ commit.bounds.upperBound →
      ∀ r ∈ stream.inserted transaction, stream.eventId r ∈ (stream.landed lake.shared.landing).map stream.eventId
  | .inr (id, .commitCurated) =>
    ∀ bounds extraction, (lake.processes id).bounds = some bounds → (lake.processes id).extraction = some extraction →
      ∀ stream : Stream, ∀ transaction ∈ stream.openAt extraction, transaction.startedAt ≤ bounds.upperBound →
        ∀ r ∈ stream.inserted transaction, r ∉ stream.landed lake.shared.landing
  | _ => True

variable {pipeline : Pipeline} {id : String} {s after : World} {p next : DagRun} {action : RunAction}

namespace Stream.Captures

variable {stream : Stream} {bounds : WatermarkBounds} {rows : List stream.Row} {openThen : List LandingTransaction}

theorem congr (captures : stream.Captures bounds rows openThen s) (landing : after.landing = s.landing)
    (transactions : after.transactions = s.transactions) : stream.Captures bounds rows openThen after := by
  obtain ⟨landed, stillOpen⟩ := captures
  exact ⟨landing ▸ landed, transactions ▸ stillOpen⟩

/-- At the query itself. -/
theorem queried (complete : ∀ r ∈ stream.landed s.landing, bounds.lower stream < stream.ingestedAt r →
    stream.ingestedAt r ≤ bounds.upperBound → r ∈ rows) : stream.Captures bounds rows s.transactions s :=
  ⟨fun r member late early => Or.inl (complete r member late early), fun _ member _ => member⟩

/-- The ingestor's side. A transaction that commits later either was open at
the query or started after the window. -/
theorem happens (captures : stream.Captures bounds rows openThen s)
    (dated : ∀ transaction ∈ s.transactions, ∀ r ∈ stream.inserted transaction,
      stream.ingestedAt r = transaction.startedAt)
    {event : LakeEvent} (happened : LakeEvent.Happens s event after)
    (starts : ∀ features labels, event = .beginLanding features labels → bounds.upperBound < s.clock) :
    stream.Captures bounds rows openThen after := by
  obtain ⟨landed, stillOpen⟩ := captures
  cases happened with
  | tick => exact ⟨landed, stillOpen⟩
  | beginLanding =>
    refine ⟨landed, fun transaction member early => ?_⟩
    rcases List.mem_append.mp member with old | new
    · exact stillOpen transaction old early
    · rw [List.mem_singleton.mp new] at early
      have later := starts _ _ rfl
      dsimp only at early
      omega
  | @commitLanding transaction present =>
    refine ⟨fun r member late early => ?_, fun other member => stillOpen other (List.mem_of_mem_erase member)⟩
    rw [stream.landed_insert] at member
    rcases KeyedTable.mem_insertIgnore _ member with old | new
    · exact landed r old late early
    · have started := dated transaction present r new
      have was := stillOpen transaction present (by omega)
      exact Or.inr ⟨transaction, was, by omega, new⟩
  | abortLanding => exact ⟨landed, fun other member => stillOpen other (List.mem_of_mem_erase member)⟩

end Stream.Captures

namespace Pipeline.Act

/-- An extraction is completed by the second query, and dropped or carried
along with its bounds by everything after it. -/
theorem extraction (taken : pipeline.Act id s p action after next) :
    next.extraction = none ∨
    (next.extraction = p.extraction ∧
      (next.bounds = p.bounds ∨ p.position.task = some .determineHighWatermark)) ∨
    ∃ bounds features openAtFeatures, p.position = .featuresExtracted features openAtFeatures ∧
      p.bounds = some bounds ∧ next.bounds = some bounds ∧
      next.extraction = some ⟨features, selectLabels s.landing bounds.labelsWatermark bounds.upperBound,
        openAtFeatures, s.transactions⟩ := by
  cases taken with
  | readLabelsWatermark read => exact Or.inr (Or.inl ⟨rfl, Or.inr (by rw [read]; rfl)⟩)
  | extractLabels atPosition atBounds => exact Or.inr (Or.inr ⟨_, _, _, atPosition, atBounds, atBounds, rfl⟩)
  | @clear task =>
    unfold DagRun.clearFrom
    by_cases extracts : Task.extractNewRecords.index < task.index
    · have determines : Task.determineHighWatermark.index < task.index := Nat.zero_lt_of_lt extracts
      exact Or.inr (Or.inl ⟨if_pos extracts, Or.inl (if_pos determines)⟩)
    · exact Or.inl (if_neg extracts)
  | _ => exact Or.inr (Or.inl ⟨rfl, Or.inl rfl⟩)

theorem featuresExtracted (taken : pipeline.Act id s p action after next) {features : List HiggsFeatureEvent}
    {openAtFeatures : List LandingTransaction} (atPosition : next.position = .featuresExtracted features openAtFeatures) :
    ∃ bounds, p.bounds = some bounds ∧ next.bounds = some bounds ∧
      features = selectFeatures s.landing bounds.featuresWatermark bounds.upperBound ∧
      openAtFeatures = s.transactions := by
  cases taken with
  | extractFeatures _ atBounds => cases atPosition; exact ⟨_, atBounds, atBounds, rfl, rfl⟩
  | validateFails waiting => cases waiting.symm.trans atPosition
  | _ => cases atPosition

theorem determines (taken : pipeline.Act id s p action after next)
    (early : next.position = .idle ∨ next.position.task = some .determineHighWatermark) :
    next.extraction = none ∨
      next.extraction = p.extraction ∧ (p.position = .idle ∨ p.position.task = some .determineHighWatermark) := by
  cases taken with
  | trigger idle => exact Or.inr ⟨rfl, Or.inl idle⟩
  | readFeaturesWatermark waiting => exact Or.inr ⟨rfl, Or.inr (by rw [waiting]; rfl)⟩
  | validateFails => exact Or.inr ⟨rfl, early⟩
  | retry atPosition =>
    rcases early with idle | determine
    · cases idle
    · cases determine
      exact Or.inr ⟨rfl, Or.inr atPosition⟩
  | clear =>
    rcases early with idle | determine
    · cases idle
    · cases determine
      exact Or.inl rfl
  | _ => rcases early with early | early <;> cases early

end Pipeline.Act

/-- What the queries of a run still miss. -/
structure DagRun.Captured (s : World) (p : DagRun) : Prop where
  fresh : p.position = .idle ∨ p.position.task = some .determineHighWatermark → p.extraction = none
  features : ∀ features openAtFeatures bounds, p.position = .featuresExtracted features openAtFeatures →
    p.bounds = some bounds → Stream.features.Captures bounds features openAtFeatures s
  extraction : ∀ extraction bounds, p.extraction = some extraction → p.bounds = some bounds →
    ∀ stream : Stream, stream.Captures bounds (stream.extracted extraction) (stream.openAt extraction) s

theorem DagRun.Captured.congr (captured : p.Captured s) (landing : after.landing = s.landing)
    (transactions : after.transactions = s.transactions) : p.Captured after where
  fresh := captured.fresh
  features _ _ _ atPosition atBounds := (captured.features _ _ _ atPosition atBounds).congr landing transactions
  extraction _ _ atPosition atBounds stream :=
    (captured.extraction _ _ atPosition atBounds stream).congr landing transactions

theorem DagRun.Captured.step (captured : p.Captured s) (taken : pipeline.Act id s p action after next) :
    next.Captured after := by
  obtain ⟨-, landing, transactions⟩ := taken.landing
  refine ⟨fun early => ?_, fun features openAtFeatures bounds atPosition atBounds => ?_,
    fun extraction bounds atPosition atBounds stream => ?_⟩
  · rcases taken.determines early with none | ⟨same, before⟩
    · exact none
    · rw [same]
      exact captured.fresh before
  · obtain ⟨window, -, stays, rfl, rfl⟩ := taken.featuresExtracted atPosition
    cases stays.symm.trans atBounds
    refine Stream.Captures.congr (.queried fun r member late early => ?_) landing transactions
    exact mem_selectFeatures.mpr ⟨member, late, early⟩
  · refine Stream.Captures.congr ?_ landing transactions
    rcases taken.extraction with
      none | ⟨same, kept⟩ | ⟨window, features, openAtFeatures, queried, was, stays, complete⟩
    · cases none.symm.trans atPosition
    · rcases kept with kept | determine
      · exact captured.extraction extraction bounds (same ▸ atPosition) (kept ▸ atBounds) stream
      · cases (captured.fresh (Or.inr determine)).symm.trans (same.symm.trans atPosition)
    · cases stays.symm.trans atBounds
      cases complete.symm.trans atPosition
      cases stream with
      | features => exact captured.features features openAtFeatures bounds queried was
      | labels =>
        exact .queried fun r member late early => mem_selectLabels.mpr ⟨member, late, early⟩

/-- The rows carry the start of their transaction, and each commit took
along every row that landed in its window. -/
structure World.Captured (s : World) : Prop where
  started : Watermarks.epoch < s.clock
  openDated : ∀ transaction ∈ s.transactions, Watermarks.epoch < transaction.startedAt ∧
    ∀ stream : Stream, ∀ r ∈ stream.inserted transaction, stream.ingestedAt r = transaction.startedAt
  landedDated : ∀ stream : Stream, ∀ r ∈ stream.landed s.landing, Watermarks.epoch < stream.ingestedAt r
  missed : ∀ commit ∈ s.commits, ∀ stream : Stream, stream.Captures commit.bounds
    (stream.extracted commit.extraction) (stream.openAt commit.extraction) s
  complete : ∀ commit ∈ s.commits, ∀ stream : Stream, ∀ r ∈ stream.landed s.landing,
    commit.bounds.lower stream < stream.ingestedAt r → stream.ingestedAt r ≤ commit.bounds.upperBound →
    r ∈ stream.extracted commit.extraction

/-- A landing transaction brings no row that a recorded commit should have
taken along. -/
theorem World.Captured.happens (captured : s.Captured) {processes : String → DagRun} {event : LakeEvent}
    (uncrossed : Pipeline.Uncrossed ⟨s, processes⟩ (.inl event)) (happened : LakeEvent.Happens s event after) :
    after.Captured := by
  obtain ⟨-, commits, -⟩ := happened.lake
  have dated (stream : Stream) (transaction : LandingTransaction) (present : transaction ∈ s.transactions) :=
    (captured.openDated transaction present).2 stream
  refine ⟨?_, ?_, fun stream => ?_, fun commit recorded stream => ?_, fun commit recorded stream => ?_⟩
  · have started := captured.started
    cases happened with
    | tick => dsimp only; omega
    | _ => exact started
  · cases happened with
    | tick => exact captured.openDated
    | beginLanding =>
      intro transaction member
      rcases List.mem_append.mp member with old | new
      · exact captured.openDated transaction old
      · rw [List.mem_singleton.mp new]
        refine ⟨captured.started, fun stream r inserted => ?_⟩
        cases stream <;> exact (List.exists_of_mem_map inserted).elim fun _ ⟨_, written⟩ => written ▸ rfl
    | _ => exact fun transaction member => captured.openDated transaction (List.mem_of_mem_erase member)
  · cases happened with
    | @commitLanding transaction present =>
      intro r member
      rw [stream.landed_insert] at member
      rcases KeyedTable.mem_insertIgnore _ member with old | new
      · exact captured.landedDated stream r old
      · rw [dated stream transaction present r new]
        exact (captured.openDated transaction present).1
    | _ => exact captured.landedDated stream
  · rw [commits] at recorded
    refine (captured.missed commit recorded stream).happens (dated stream) happened fun _ _ begins => ?_
    subst begins
    exact uncrossed.1 commit recorded
  · rw [commits] at recorded
    have complete := captured.complete commit recorded stream
    cases happened with
    | @commitLanding transaction present =>
      intro r member late early
      rw [stream.landed_insert] at member
      rcases KeyedTable.mem_insertIgnore _ member with old | new
      · exact complete r old late early
      · have started := dated stream transaction present r new
        have wasOpen := (captured.missed commit recorded stream).stillOpen transaction present (by omega)
        have known := uncrossed stream commit recorded wasOpen (by omega)
        rw [KeyedTable.insertIgnore_of_present _ known] at member
        exact complete r member late early
    | _ => exact complete

/-- A run that commits has missed nothing that landed in its window. -/
theorem World.Captured.step (captured : s.Captured) {processes : String → DagRun} (own : (processes id).Captured s)
    (uncrossed : Pipeline.Uncrossed ⟨s, processes⟩ (.inr (id, action)))
    (taken : pipeline.Act id s (processes id) action after next) : after.Captured := by
  obtain ⟨clock, landing, transactions⟩ := taken.landing
  have recorded (commit : Commit) (member : commit ∈ after.commits) : commit ∈ s.commits ∨
      action = .commitCurated ∧ (processes id).bounds = some commit.bounds ∧
        (processes id).extraction = some commit.extraction := by
    rcases taken.curates with ⟨-, -, -, -, commits⟩ | ⟨bounds, extraction, _, _, isCommit, atBounds, atPosition, -, -, rfl⟩
    · exact Or.inl (commits ▸ member)
    · rcases List.mem_append.mp member with old | new
      · exact Or.inl old
      · rw [List.mem_singleton.mp new]
        exact Or.inr ⟨isCommit, atBounds, atPosition⟩
  refine ⟨clock ▸ captured.started, transactions ▸ captured.openDated, landing ▸ captured.landedDated,
    fun commit member stream => ?_, fun commit member stream r => ?_⟩
  · refine Stream.Captures.congr ?_ landing transactions
    rcases recorded commit member with old | ⟨-, atBounds, atPosition⟩
    · exact captured.missed commit old stream
    · exact own.extraction _ _ atPosition atBounds stream
  · rw [landing]
    intro landed late early
    rcases recorded commit member with old | ⟨rfl, atBounds, atPosition⟩
    · exact captured.complete commit old stream r landed late early
    · refine ((own.extraction _ _ atPosition atBounds stream).landed r landed late early).resolve_right ?_
      rintro ⟨transaction, wasOpen, early, crossing⟩
      exact uncrossed _ _ atBounds atPosition stream transaction wasOpen early r crossing landed

theorem DagRun.Captured.happens (captured : p.Captured s) (world : s.Captured) {processes : String → DagRun}
    (atProcess : processes id = p) {event : LakeEvent} (uncrossed : Pipeline.Uncrossed ⟨s, processes⟩ (.inl event))
    (happened : LakeEvent.Happens s event after) : p.Captured after := by
  subst atProcess
  have dated (stream : Stream) (transaction : LandingTransaction) (present : transaction ∈ s.transactions) :=
    (world.openDated transaction present).2 stream
  refine ⟨captured.fresh, fun features openAtFeatures bounds atPosition atBounds => ?_,
    fun extraction bounds atPosition atBounds stream => ?_⟩
  · refine (captured.features features openAtFeatures bounds atPosition atBounds).happens (dated _) happened ?_
    rintro _ _ rfl
    exact uncrossed.2 id bounds (Or.inr ⟨_, _, atPosition⟩) atBounds
  · refine (captured.extraction extraction bounds atPosition atBounds stream).happens (dated stream) happened ?_
    rintro _ _ rfl
    exact uncrossed.2 id bounds (Or.inl (by rw [atPosition]; rfl)) atBounds

theorem Pipeline.captured_of_reach {clock : ℕ+} {lake : Lake}
    (reach : Reach (Guarded pipeline.Step Uncrossed) (.initial clock) lake) :
    lake.shared.Captured ∧ ∀ id, (lake.processes id).Captured lake.shared := by
  refine Fleet.invariant World.Captured (fun _ s p => p.Captured s) reach ⟨?_, fun _ => ?_⟩ ?_ ?_
  · refine ⟨?_, ?_, fun stream => ?_, ?_, ?_⟩
    · have positive := clock.pos
      dsimp only [Lake.initial]
      omega
    · intro _ member
      cases member
    · cases stream <;> exact fun _ member => nomatch member
    · intro _ member
      cases member
    · intro _ member
      cases member
  · exact ⟨fun _ => rfl, fun _ _ _ atPosition => (nomatch atPosition), fun _ _ atPosition => (nomatch atPosition)⟩
  · intro before event after uncrossed happened world each
    exact ⟨world.happens uncrossed happened, fun id => (each id).happens world rfl uncrossed happened⟩
  · intro before id action after next uncrossed taken world each
    obtain ⟨-, landing, transactions⟩ := taken.landing
    exact ⟨world.step (each id) uncrossed taken, (each id).step taken,
      fun other _ => (each other).congr landing transactions⟩

/-- In every run in which no transaction crosses an extraction, each landed
row at or below its stream's watermark was in the extraction of some run
that committed. -/
theorem Pipeline.no_row_missed {clock : ℕ+} {lake : Lake}
    (reach : Reach (Guarded pipeline.Step Uncrossed) (.initial clock) lake) (stream : Stream) (r : stream.Row)
    (landed : r ∈ stream.landed lake.shared.landing)
    (below : stream.ingestedAt r ≤ lake.shared.watermark stream) :
    ∃ commit ∈ lake.shared.commits, r ∈ stream.extracted commit.extraction := by
  obtain ⟨watermarked, -⟩ := watermarked_of_reach reach.forget_guard
  obtain ⟨captured, -⟩ := captured_of_reach reach
  have late := captured.landedDated stream r landed
  obtain ⟨commit, recorded, low, high⟩ := watermarked.covered stream _ late below
  exact ⟨commit, recorded, captured.complete commit recorded stream r landed low high⟩

theorem Pipeline.landed_row_captured :
    let pipeline := Pipeline.accepting (fun _ => 25) fun _ => by decide
    ∃ lake, Reach (Guarded pipeline.Step Uncrossed) (.initial 20) lake ∧ lake.shared.landing.features.length = 1 ∧
      ∀ r ∈ lake.shared.landing.features, ∃ commit ∈ lake.shared.commits, r ∈ commit.extraction.features := by
  intro pipeline
  let row := HiggsFeatureEvent.of "feature" "higgs-000000000" 10
  let landing : Landing := { features := [{ row with ingestedAt := 20 }] }
  have start : Reach (Guarded pipeline.Step Uncrossed) (.initial 20) _ := Lake.reach_initial 20 "first"
  have began := start.next (.inl (.beginLanding [row] [])) ⟨.environment .beginLanding, fun _ member => (nomatch member),
    fun id bounds _ atPosition => by simp only [Function.update_apply, ite_self, reduceCtorEq] at atPosition⟩
  have landed := began.next (.inl (.commitLanding ⟨20, landing.features, []⟩))
    ⟨.environment (.commitLanding (List.mem_singleton.mpr rfl)), fun _ _ member => (nomatch member)⟩
  have due : Reach (Guarded pipeline.Step Uncrossed) (.initial 20)
      ⟨{ clock := 30, landing }, Function.update (fun _ => {}) "first" {}⟩ :=
    landed.next (.inl (.tick 10)) ⟨.environment .tick, trivial⟩
  obtain ⟨after, reach, prepared⟩ := reach_prepared due rfl (by decide : (25 : Int) ≤ 30)
    (gatePasses_accepting _ _ _ _ _) (fun lake action quiet => by cases action <;> trivial)
  have untouched : after.landing = landing ∧ after.watermarks = fun _ => none := by
    rw [prepared.frame]
    exact ⟨rfl, rfl⟩
  have committed := Fleet.reach_act reach
    (.commitCurated rfl rfl rfl prepared.silverFeatures prepared.silverLabels) (by
      intro bounds extraction _ atPosition stream transaction wasOpen
      simp only [Function.update_self] at atPosition
      cases atPosition
      cases stream <;> cases wasOpen)
  refine ⟨_, committed, congrArg (·.features.length) untouched.1, fun r member => ?_⟩
  refine no_row_missed committed .features r member ?_
  have isRow : r ∈ after.landing.features := member
  rw [untouched.1] at isRow
  cases List.mem_singleton.mp isRow
  change (20 : Int) ≤ ((after.watermarks.advance featuresPipeline 25).advance labelsPipeline 25).get featuresPipeline
  rw [untouched.2]
  decide

/-- A transaction that opens before a run extracts and commits after the
run has. -/
theorem Pipeline.open_transaction_missed :
    ¬∀ (pipeline : Pipeline) (clock : ℕ+) (lake : Lake), Reach pipeline.Step (.initial clock) lake →
      ∀ (stream : Stream) (r : stream.Row), r ∈ stream.landed lake.shared.landing →
        stream.ingestedAt r ≤ lake.shared.watermark stream →
        ∃ commit ∈ lake.shared.commits, r ∈ stream.extracted commit.extraction := by
  intro captures
  let pipeline := Pipeline.accepting (fun _ => 25) fun _ => by decide
  let row := HiggsFeatureEvent.of "feature" "higgs-000000000" 10
  let transaction : LandingTransaction := ⟨20, [{ row with ingestedAt := 20 }], []⟩
  let s : World := { clock := 30, transactions := [transaction] }
  have start : Reach (Guarded pipeline.Step fun _ _ => True) (.initial 20) _ := Lake.reach_initial 20 "first"
  have began := start.next (.inl (.beginLanding [row] [])) ⟨.environment .beginLanding, trivial⟩
  have opened : Reach (Guarded pipeline.Step fun _ _ => True) (.initial 20)
      ⟨s, Function.update (fun _ => {}) "first" {}⟩ := began.next (.inl (.tick 10)) ⟨.environment .tick, trivial⟩
  obtain ⟨after, reach, prepared⟩ := reach_prepared opened rfl (by decide : (25 : Int) ≤ 30)
    (gatePasses_accepting _ _ _ _ _) (fun _ _ _ => trivial)
  have untouched : after.landing = {} ∧ after.transactions = [transaction] ∧ after.commits = [] ∧
      after.watermarks = fun _ => none := by
    rw [prepared.frame]
    exact ⟨rfl, rfl, rfl, rfl⟩
  obtain ⟨landing, transactions, commits, watermarks⟩ := untouched
  have committed := Fleet.reach_act reach
    (.commitCurated rfl rfl rfl prepared.silverFeatures prepared.silverLabels) trivial
  have stillOpen : transaction ∈ after.transactions := by
    rw [transactions]
    exact List.mem_singleton.mpr rfl
  have landed := committed.next (.inl (.commitLanding transaction)) ⟨.environment (.commitLanding stillOpen), trivial⟩
  have inLanding : ({ row with ingestedAt := 20 } : HiggsFeatureEvent) ∈
      (after.landing.insert transaction.features transaction.labels).features := by
    rw [landing]
    exact List.mem_singleton.mpr rfl
  have below : (20 : Int) ≤ ((after.watermarks.advance featuresPipeline 25).advance labelsPipeline 25).get
      featuresPipeline := by
    rw [watermarks]
    decide
  obtain ⟨commit, member, found⟩ := captures pipeline 20 _ landed.forget_guard .features _ inLanding below
  have only : commit ∈ after.commits ++ [_] := member
  rw [commits, List.nil_append, List.mem_singleton] at only
  subst only
  cases found

end Amel
