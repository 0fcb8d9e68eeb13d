import Mathlib.Data.List.Nodup
import Amel.Training.Registry

namespace Amel

open Transition (Reach Restricted)
open Workload (reach_start reach_call reach_return reach_crash)

/-- The champion a call has read, from its exchanges. -/
def championSeen (past : List (Program.Exchange PromoteReply)) : Option String :=
  past.findSome? fun
    | ⟨.getModelVersionByAlias .champion _, reply⟩ => match (reply : Except CallError String) with
      | .ok version => some version
      | .error _ => none
    | _ => none

/-- The version a call has asked the champion alias to name. -/
def aliasWritten (past : List (Program.Exchange PromoteReply)) : Option String :=
  past.findSome? fun
    | ⟨.setRegisteredModelAlias _ version, _⟩ => some version
    | _ => none

section Trace

variable {past : List (Program.Exchange PromoteReply)} {cfg : TrainingConfig} {champion : String}

@[simp] theorem championSeen_append (exchange : Program.Exchange PromoteReply) :
    championSeen (past ++ [exchange]) = (championSeen past).or (championSeen [exchange]) := by
  simp only [championSeen, List.findSome?_append]

@[simp] theorem aliasWritten_append (exchange : Program.Exchange PromoteReply) :
    aliasWritten (past ++ [exchange]) = (aliasWritten past).or (aliasWritten [exchange]) := by
  simp only [aliasWritten, List.findSome?_append]

/-- The alias is written once and after the champion is read, and the row says what was written and what was
read as the champion. -/
def PromoteRule (champion : String) (past : List (Program.Exchange PromoteReply)) : PromoteCall → Prop
  | .getModelVersionByAlias .champion _ => aliasWritten past = none
  | .setRegisteredModelAlias name _ => name = champion ∧ aliasWritten past = none
  | .insertPromotion row => aliasWritten past = some row.version ∧ championSeen past = row.previousChampionVersion
  | _ => True

/-- What a call has read as the champion and what it has written so far. -/
def Stands (seen written : Option String) (past : List (Program.Exchange PromoteReply)) : Prop :=
  championSeen past = seen ∧ aliasWritten past = written

theorem Stands.append {seen written : Option String} (stands : Stands seen written past)
    (exchange : Program.Exchange PromoteReply) :
    Stands (seen.or (championSeen [exchange])) (written.or (aliasWritten [exchange])) (past ++ [exchange]) := by
  rw [Stands, championSeen_append, aliasWritten_append, stands.1, stands.2]
  exact ⟨rfl, rfl⟩

/-- An exchange that is neither a read nor a write of the champion. -/
theorem Stands.pass {seen written : Option String} (stands : Stands seen written past)
    {exchange : Program.Exchange PromoteReply} (unread : championSeen [exchange] = none)
    (unwritten : aliasWritten [exchange] = none) : Stands seen written (past ++ [exchange]) := by
  simpa only [unread, unwritten, Option.or_none] using stands.append exchange

section Obeys

variable {seen written : Option String} {α : Type}

theorem ofReply_obeys {rule : List (Program.Exchange PromoteReply) → PromoteCall → Prop}
    {post : List (Program.Exchange PromoteReply) → Except CallError α → Prop} (reply : Except CallError α)
    (holds : ∀ result, post past result) : (PromoteProgram.ofReply reply).Obeys rule post past := by
  cases reply <;> exact holds _

theorem candidateVersion_obeys (version : Option String) (stands : Stands seen written past) :
    (candidateVersion cfg version).Obeys (PromoteRule champion) (fun before _ => Stands seen written before) past := by
  cases version with
  | some version => exact stands
  | none => exact ⟨trivial, fun reply => ofReply_obeys reply fun _ => stands.pass rfl rfl⟩

theorem metricsForVersion_obeys (side : Side) (version : String) (stands : Stands seen written past) :
    (metricsForVersion side version).Obeys (PromoteRule champion) (fun before _ => Stands seen written before)
      past := by
  have versionRead : (getModelVersion side version).Obeys (PromoteRule champion)
      (fun before _ => Stands seen written before) past :=
    ⟨trivial, fun reply => ofReply_obeys reply fun _ => stands.pass rfl rfl⟩
  refine versionRead.bind (fun _ _ => id) fun before runId here => ?_
  cases runId with
  | none => exact here
  | some runId =>
    have runRead : (getRun side runId).Obeys (PromoteRule champion)
        (fun before _ => Stands seen written before) before :=
      ⟨trivial, fun reply => ofReply_obeys reply fun _ => here.pass rfl rfl⟩
    exact runRead.bind (fun _ _ => id) fun _ _ => id

/-- What is taken for the champion is what was read, whether or not its
metrics could be read. -/
theorem currentChampion_obeys (fresh : Stands none none past) :
    (currentChampion cfg).Obeys (PromoteRule champion)
      (fun before result => ∀ read, result = .ok read → Stands read.1 none before) past := by
  refine ⟨fresh.2, fun reply => ?_⟩
  match (reply : Except CallError String) with
  | .error .mlflowException =>
    rintro read ⟨⟩
    exact fresh.pass rfl rfl
  | .error .other => exact nofun
  | .ok previous =>
    let post (before : List (Program.Exchange PromoteReply))
        (result : Except CallError (Option String × Option Metrics)) : Prop :=
      Stands (some previous) none before ∧ ∀ read, result = .ok read → read.1 = some previous
    have metricsRead {before : List (Program.Exchange PromoteReply)} (stands : Stands (some previous) none before) :
        ((metricsForVersion .champion previous).bind fun read =>
          .pure (some previous, some read.2)).Obeys (PromoteRule champion) post before := by
      refine (metricsForVersion_obeys .champion previous stands).bind (fun _ _ here => ⟨here, nofun⟩)
        fun _ _ here => ⟨here, ?_⟩
      rintro _ ⟨⟩
      rfl
    have stands : Stands (some previous) none (past ++ [⟨.getModelVersionByAlias .champion cfg.championAlias,
      (Except.ok previous : Except CallError String)⟩]) := fresh.append _
    refine (metricsRead stands).rescue ?_ ?_
    · rintro before error ⟨here, -⟩
      cases error with
      | mlflowException => rintro _ ⟨⟩; exact here
      | other => exact nofun
    · rintro before value ⟨here, same⟩ _ ⟨⟩
      rw [same value rfl]
      exact here

theorem recordPromotion_obeys (call : PromoteRequest) (version : String) (runId previous : Option String)
    (decision : PromotionDecision) (stands : Stands previous (some version) past) :
    (recordPromotion cfg call version runId previous decision).Obeys (PromoteRule champion) (fun _ _ => True)
      past := by
  let post (before : List (Program.Exchange PromoteReply)) (_ : Except CallError Unit) : Prop :=
    Stands previous (some version) before
  have tagged {before : List (Program.Exchange PromoteReply)} (key value tag : String)
      (here : Stands previous (some version) before) :
      (setModelVersionTag tag key value).Obeys (PromoteRule champion) post before :=
    ⟨trivial, fun reply => ofReply_obeys reply fun _ => here.pass rfl rfl⟩
  refine (tagged _ _ _ stands).bind (fun _ _ _ => trivial) fun _ _ here => ?_
  refine (tagged _ _ _ here).bind (fun _ _ _ => trivial) fun before _ here => ?_
  have superseded : (tagSuperseded version previous).Obeys (PromoteRule champion) post before := by
    unfold tagSuperseded
    split
    · split
      · exact tagged _ _ _ here
      · exact here
    · exact here
  refine superseded.bind (fun _ _ _ => trivial) fun before _ here => ?_
  have inserted {row : ModelPromotion} (wrote : row.version = version)
      (read : row.previousChampionVersion = previous) :
      (insertPromotion row).Obeys (PromoteRule champion) (fun _ _ => True) before := by
    refine ⟨⟨?_, ?_⟩, fun reply => ofReply_obeys reply fun _ => trivial⟩
    · rw [wrote]
      exact here.2
    · rw [read]
      exact here.1
  exact (inserted rfl rfl).bind (fun _ _ _ => trivial) fun _ _ _ => trivial

theorem promote_obeys (cfg : TrainingConfig) (request : PromoteRequest) :
    (promote cfg request).Obeys (PromoteRule cfg.championAlias) (fun _ _ => True) [] := by
  have fresh : Stands none none [] := ⟨rfl, rfl⟩
  refine (candidateVersion_obeys _ fresh).bind (fun _ _ _ => trivial) fun _ version fresh => ?_
  refine (metricsForVersion_obeys .candidate version fresh).bind (fun _ _ _ => trivial) fun _ read fresh => ?_
  refine (currentChampion_obeys fresh).bind (fun _ _ _ => trivial) fun before champion here => ?_
  dsimp only
  split
  · trivial
  · have stands := here champion rfl
    have wrote : (setRegisteredModelAlias cfg.championAlias version).Obeys (PromoteRule cfg.championAlias)
        (fun before _ => Stands champion.1 (some version) before) before := by
      refine ⟨⟨rfl, stands.2⟩, fun reply => ?_⟩
      have written : Stands (champion.1.or none) (some version) _ :=
        stands.append ⟨.setRegisteredModelAlias cfg.championAlias version, reply⟩
      rw [Option.or_none] at written
      exact ofReply_obeys reply fun _ => written
    exact wrote.bind (fun _ _ _ => trivial) fun _ _ here =>
      recordPromotion_obeys request version read.1 champion.1 _ here

end Obeys

end Trace

variable {model champion : String}

/-- A write of the alias takes effect only while the alias still is what the
call has read, rows are inserted in the order in which the alias was written,
and a call that has put another version in the champion's place does not end
before its insert. A write or an insert that fails may come at any time. -/
def PromotionFleet.InStep (fleet : PromotionFleet model champion) :
    PromotionAction model champion → PromotionFleet model champion → Prop
  | .inr (id, .call ⟨.setRegisteredModelAlias name _, _⟩), after =>
    after.shared.moves ≠ fleet.shared.moves →
      championSeen (fleet.processes id).past = fleet.shared.registry.aliases name
  | .inr (id, .call ⟨.insertPromotion _, _⟩), after =>
    after.shared.promotions ≠ fleet.shared.promotions → fleet.shared.unaudited.head?.map (·.call) = some id
  | .inr (id, .finish), _ | .inr (id, .crash), _ =>
    ∀ m ∈ fleet.shared.unaudited, m.call = id → m.displaced = some m.version
  | _, _ => True

/-- The version of the most recent row. -/
def PromotionWorld.lastPromoted (s : PromotionWorld) : Option String := s.promotions.getLast?.map (·.row.version)

/-- Moves that lead from one champion to another. -/
def Chained : Option String → List AliasMove → Option String → Prop
  | before, [], after => before = after
  | before, m :: rest, after => m.displaced = before ∧ Chained (some m.version) rest after

theorem Chained.append {before middle : Option String} {moves : List AliasMove} (chained : Chained before moves middle)
    (call : Nat) (version : String) : Chained before (moves ++ [⟨call, version, middle⟩]) (some version) := by
  induction moves generalizing before with
  | nil => exact ⟨Eq.symm chained, rfl⟩
  | cons m rest ih => exact ⟨chained.1, ih chained.2⟩

/-- Moves that change nothing can be left out. -/
theorem Chained.filter {before after : Option String} {moves : List AliasMove} (chained : Chained before moves after)
    (keep : AliasMove → Bool) (idle : ∀ m ∈ moves, keep m = false → m.displaced = some m.version) :
    Chained before (moves.filter keep) after := by
  induction moves generalizing before with
  | nil => exact chained
  | cons m rest ih =>
    have later := ih chained.2 fun m member => idle m (List.mem_cons_of_mem _ member)
    cases kept : keep m with
    | true =>
      rw [List.filter_cons_of_pos kept]
      exact ⟨chained.1, later⟩
    | false =>
      rw [List.filter_cons_of_neg (by simp [kept]), ← chained.1, idle m List.mem_cons_self kept]
      exact later

/-- The rows lead up to the champion through the moves not yet audited, and
each row tells what its move displaced. -/
structure PromotionWorld.Audited (champion : String) (s : PromotionWorld) : Prop where
  chained : Chained s.lastPromoted s.unaudited (s.registry.aliases champion)
  displaced : ∀ e ∈ s.promotions, ∃ m ∈ s.moves, m.call = e.call ∧ m.version = e.row.version ∧
    m.displaced = e.row.previousChampionVersion
  recorded : ∀ m ∈ s.unaudited, m ∈ s.moves
  distinct : (s.unaudited.map (·.call)).Nodup

/-- A move not yet audited is that of a call in progress, which knows it. -/
def OwnMoves (id : Nat) (s : PromotionWorld)
    (thread : Thread (PromoteCallOn model champion) PromoteCall PromoteReply CallError PromotionDecision) : Prop :=
  ∀ m ∈ s.unaudited, m.call = id →
    thread.InProgress ∧ Stands m.displaced (some m.version) thread.past

section Step

variable {s after : PromotionWorld} {id other : Nat}
  {thread : Thread (PromoteCallOn model champion) PromoteCall PromoteReply CallError PromotionDecision}

theorem mem_settle {m : AliasMove} : m ∈ (s.settle id).unaudited ↔ m ∈ s.unaudited ∧ m.call ≠ id := by
  simp [PromotionWorld.settle]

theorem PromotionWorld.Audited.settle (audited : s.Audited champion)
    (idle : ∀ m ∈ s.unaudited, m.call = id → m.displaced = some m.version) : (s.settle id).Audited champion where
  chained := audited.chained.filter _ fun m member left => idle m member (by simpa using left)
  displaced := audited.displaced
  recorded m member := audited.recorded m (mem_settle.mp member).1
  distinct := audited.distinct.sublist (List.filter_sublist.map _)

theorem PromotionWorld.Audited.moveAlias (audited : s.Audited champion) (version : String)
    (fresh : ∀ m ∈ s.unaudited, m.call ≠ id) : (s.moveAlias id champion version).Audited champion where
  chained := by
    simp only [PromotionWorld.moveAlias, PromotionWorld.lastPromoted, Function.update_self]
    exact audited.chained.append id version
  displaced e member := by
    obtain ⟨m, recorded, told⟩ := audited.displaced e member
    exact ⟨m, List.mem_append_left _ recorded, told⟩
  recorded m member := by
    rcases List.mem_append.mp member with old | new
    · exact List.mem_append_left _ (audited.recorded m old)
    · exact List.mem_append_right _ new
  distinct := by
    simp only [PromotionWorld.moveAlias, List.map_append, List.map_singleton]
    refine List.Nodup.append audited.distinct (List.nodup_singleton _) (List.disjoint_singleton.mpr fun member => ?_)
    obtain ⟨m, unaudited, same⟩ := List.mem_map.mp member
    exact fresh m unaudited same

/-- A row whose move comes first among those not yet audited. -/
theorem PromotionWorld.Audited.insert (audited : s.Audited champion) {row : ModelPromotion} {m : AliasMove}
    {rest : List AliasMove} (first : s.unaudited = m :: rest) (own : m.call = id) (version : m.version = row.version)
    (displaced : m.displaced = row.previousChampionVersion) : (s.insert id row).Audited champion := by
  have chained := audited.chained
  have distinct := audited.distinct
  rw [first] at chained distinct
  have apart : ∀ later ∈ rest, later.call ≠ id := fun later member same =>
    (List.nodup_cons.mp distinct).1 (List.mem_map.mpr ⟨later, member, same.trans own.symm⟩)
  have remaining : (s.insert id row).unaudited = rest := by
    simpa [PromotionWorld.insert, PromotionWorld.settle, first, own] using apart
  refine ⟨?_, ?_, ?_, ?_⟩
  · rw [remaining]
    simpa [PromotionWorld.insert, PromotionWorld.settle, PromotionWorld.lastPromoted, version] using chained.2
  · intro e member
    rcases List.mem_append.mp member with old | new
    · exact audited.displaced e old
    · obtain rfl := List.mem_singleton.mp new
      exact ⟨m, audited.recorded m (first ▸ List.mem_cons_self), own, version, displaced⟩
  · intro later member
    rw [remaining] at member
    exact audited.recorded later (first ▸ List.mem_cons_of_mem _ member)
  · rw [remaining]
    exact (List.nodup_cons.mp distinct).2

/-- What a call can do to the registry and the table. -/
theorem PromotionWorld.Performs.effect {request : PromoteCall} {reply : PromoteReply request}
    (performed : PromotionWorld.Performs id s request reply after) :
    after = s ∨ (∃ name version, request = .setRegisteredModelAlias name version ∧ after = s.moveAlias id name version) ∨
      ∃ row, request = .insertPromotion row ∧ after = s.insert id row := by
  cases performed with
  | aliasSet => exact Or.inr (Or.inl ⟨_, _, rfl, rfl⟩)
  | inserted => exact Or.inr (Or.inr ⟨_, rfl, rfl⟩)
  | _ => exact Or.inl rfl

theorem OwnMoves.stands (own : OwnMoves id s thread) {m : AliasMove} (member : m ∈ s.unaudited) (same : m.call = id) :
    Stands m.displaced (some m.version) thread.past :=
  (own m member same).2

theorem OwnMoves.fresh (own : OwnMoves id s thread) (unwritten : aliasWritten thread.past = none) :
    ∀ m ∈ s.unaudited, m.call ≠ id := by
  intro m member same
  cases (own.stands member same).2.symm.trans unwritten

/-- What the others do to the moves of a call. -/
theorem OwnMoves.mono (own : OwnMoves id s thread) (fewer : ∀ m ∈ after.unaudited, m.call = id → m ∈ s.unaudited) :
    OwnMoves id after thread :=
  fun m member same => own m (fewer m member same) same

end Step

section Run

variable {fleet : PromotionFleet model champion} {before : PromotionFleet model champion} {id : Nat}
  {past : List (Program.Exchange PromoteReply)} {call : PromoteCallOn model champion} {ask : PromoteCall}
  {resume : PromoteReply ask → PromoteProgram PromotionDecision} {reply : PromoteReply ask} {after : PromotionWorld}

/-- One exchange of a call of `promote`. -/
theorem PromotionWorld.Audited.exchange (audited : before.shared.Audited champion)
    (own : OwnMoves id before.shared (before.processes id))
    (atCall : before.processes id = .running call past (.call ask resume))
    (rule : PromoteRule champion past ask)
    (inStep : before.InStep (.inr (id, .call ⟨ask, reply⟩))
      ⟨after, Function.update before.processes id (.running call (past ++ [⟨ask, reply⟩]) (resume reply))⟩)
    (performed : PromotionWorld.Performs id before.shared ask reply after) :
    after.Audited champion ∧ OwnMoves id after (.running call (past ++ [⟨ask, reply⟩]) (resume reply)) ∧
      ∀ m ∈ after.unaudited, m.call ≠ id → m ∈ before.shared.unaudited := by
  have here : (before.processes id).past = past := by rw [atCall]; rfl
  have goesOn : (Thread.running call (past ++ [⟨ask, reply⟩]) (resume reply)).InProgress := ⟨_, _, _, rfl⟩
  rcases performed.effect with rfl | ⟨name, version, rfl, rfl⟩ | ⟨row, rfl, rfl⟩
  · refine ⟨audited, fun m member same => ⟨goesOn, ?_⟩, fun m member _ => member⟩
    have stands := own.stands member same
    rw [here] at stands
    cases ask with
    | getModelVersionByAlias side name =>
      cases side with
      | champion => cases stands.2.symm.trans rule
      | candidate => exact stands.pass rfl rfl
    | setRegisteredModelAlias name version => cases stands.2.symm.trans rule.2
    | _ => exact stands.pass rfl rfl
  · obtain ⟨rfl, unwritten⟩ := rule
    have fresh := own.fresh (by rw [here]; exact unwritten)
    have seen : championSeen past = before.shared.registry.aliases name :=
      here ▸ inStep (by simp [PromotionWorld.moveAlias])
    refine ⟨audited.moveAlias version fresh, fun m member same => ⟨goesOn, ?_⟩, fun m member other => ?_⟩
    · rcases List.mem_append.mp member with old | new
      · exact absurd same (fresh m old)
      · obtain rfl := List.mem_singleton.mp new
        have written : Stands ((championSeen past).or none) ((aliasWritten past).or (some version)) _ :=
          Stands.append ⟨rfl, rfl⟩ ⟨.setRegisteredModelAlias name version, reply⟩
        rwa [Option.or_none, unwritten, Option.none_or, seen] at written
    · rcases List.mem_append.mp member with old | new
      · exact old
      · exact absurd (congrArg AliasMove.call (List.mem_singleton.mp new)) other
  · obtain ⟨m, rest, first, ownEntry⟩ : ∃ m rest, before.shared.unaudited = m :: rest ∧ m.call = id := by
      have first : before.shared.unaudited.head?.map (·.call) = some id :=
        inStep (by simp [PromotionWorld.insert, PromotionWorld.settle])
      cases queue : before.shared.unaudited with
      | nil => rw [queue] at first; cases first
      | cons m rest => rw [queue] at first; exact ⟨m, rest, rfl, Option.some.inj first⟩
    have stands := own.stands (first ▸ List.mem_cons_self) ownEntry
    rw [here] at stands
    have version : m.version = row.version := Option.some.inj (stands.2.symm.trans rule.1)
    have displaced : m.displaced = row.previousChampionVersion := stands.1.symm.trans rule.2
    refine ⟨audited.insert first ownEntry version displaced, fun m member same => ?_, fun m member _ => ?_⟩
    · exact absurd same (mem_settle.mp member).2
    · exact (mem_settle.mp member).1

/-- The end of a call, on which nothing hangs any more. -/
theorem PromotionWorld.Audited.finish (audited : before.shared.Audited champion)
    (inStep : ∀ m ∈ before.shared.unaudited, m.call = id → m.displaced = some m.version)
    (thread : Thread (PromoteCallOn model champion) PromoteCall PromoteReply CallError PromotionDecision) :
    (before.shared.settle id).Audited champion ∧ OwnMoves id (before.shared.settle id) thread ∧
      ∀ m ∈ (before.shared.settle id).unaudited, m.call ≠ id → m ∈ before.shared.unaudited :=
  ⟨audited.settle inStep, fun _ member same => absurd same (mem_settle.mp member).2,
    fun _ member _ => (mem_settle.mp member).1⟩

theorem PromotionFleet.audited {registry : ModelRegistry}
    (reach : Reach (Restricted (PromotionStep model champion) PromotionFleet.InStep) (.initial model champion registry)
      fleet) :
    fleet.shared.Audited champion ∧ ∀ id, OwnMoves id fleet.shared (fleet.processes id) ∧
      (fleet.processes id).Follows (promotions model champion).body := by
  refine Fleet.invariant (PromotionWorld.Audited champion) (fun id s thread => OwnMoves id s thread ∧
    thread.Follows (promotions model champion).body) reach ⟨⟨?_, nofun, nofun, .nil⟩, fun _ => ⟨nofun, trivial⟩⟩ ?_ ?_
  · show none = Function.update registry.aliases champion none champion
    rw [Function.update_self]
  · rintro before event after - happened audited each
    cases happened with
    | change same => exact ⟨{ audited with chained := by rw [same]; exact audited.chained }, each⟩
  · rintro before id action after next inStep taken audited each
    have others {later : PromotionWorld} (fewer : ∀ m ∈ later.unaudited, m.call ≠ id → m ∈ before.shared.unaudited)
        (other : Nat) (different : other ≠ id) : OwnMoves other later (before.processes other) ∧
          (before.processes other).Follows (promotions model champion).body :=
      ⟨(each other).1.mono fun m member same => fewer m member (same ▸ different), (each other).2⟩
    have follows := taken.follows (each id).2
    generalize atCall : before.processes id = thread at taken
    cases taken with
    | start call =>
      refine ⟨audited, ⟨fun m member same => ?_, follows⟩, others fun _ member _ => member⟩
      obtain ⟨⟨_, _, _, progress⟩, -⟩ := (each id).1 m member same
      cases atCall.symm.trans progress
    | @call call past ask resume _ reply performed =>
      have runs := (each id).2
      rw [atCall] at runs
      have rule := (Program.Runs.obeys runs (promote_obeys call.cfg call.request)).1
      rw [call.sameAlias] at rule
      obtain ⟨kept, own, fewer⟩ := audited.exchange (each id).1 atCall rule inStep performed
      exact ⟨kept, ⟨own, follows⟩, others fewer⟩
    | crash | «return» | raise =>
      obtain ⟨kept, own, fewer⟩ := audited.finish inStep _
      exact ⟨kept, ⟨own, follows⟩, others fewer⟩

/-- No call of `promote` is in progress. -/
def PromotionFleet.Quiet (fleet : PromotionFleet model champion) : Prop := ∀ id, ¬(fleet.processes id).InProgress

/-- The champion is the version of the most recent row, and each row names
the version that was champion immediately before its promotion. -/
def PromotionFleet.AuditAgrees (fleet : PromotionFleet model champion) : Prop :=
  fleet.shared.registry.aliases champion = fleet.shared.lastPromoted ∧
    ∀ e ∈ fleet.shared.promotions, ∃ m ∈ fleet.shared.moves, m.call = e.call ∧ m.version = e.row.version ∧
      m.displaced = e.row.previousChampionVersion

theorem PromotionFleet.audit_agrees (registry : ModelRegistry)
    (reach : Reach (Restricted (PromotionStep model champion) PromotionFleet.InStep) (.initial model champion registry)
      fleet) (quiet : fleet.Quiet) : fleet.AuditAgrees := by
  obtain ⟨audited, each⟩ := PromotionFleet.audited reach
  have settled : fleet.shared.unaudited = [] :=
    List.eq_nil_iff_forall_not_mem.mpr fun m member => quiet m.call ((each m.call).1 m member rfl).1
  have chained := audited.chained
  rw [settled] at chained
  exact ⟨Eq.symm chained, audited.displaced⟩

/-- The metrics of a run that clears both floors. -/
def clearingMetrics : Metrics := [("test_accuracy", 0x3FE5C28F5C28F5C3), ("test_roc_auc", 0x3FE70A3D70A3D70A)]

/-- A model with two versions that were trained and none that is champion. -/
def trainedRegistry : ModelRegistry where
  runIds version := [("2", some "run-2"), ("3", some "run-3")].lookup version
  runs runId := [("run-2", clearingMetrics), ("run-3", clearingMetrics)].lookup runId

def promotionOf (version : String) : PromoteCallOn "higgs_decision_tree" "champion" where
  cfg := {}
  request := ⟨some version, "operator", false⟩
  sameModel := rfl
  sameAlias := rfl

def firstDecision : PromotionDecision := evaluatePromotion clearingMetrics none (.fromConfig {})

theorem firstDecision_approved : firstDecision.approved = true := by decide +kernel

theorem nextDecision_approved :
    (evaluatePromotion clearingMetrics (some clearingMetrics) (.fromConfig {})).approved = true := by
  decide +kernel

/-- An approved decision goes on to the write of the alias. -/
theorem judged_approved {version : String} {runId previous : Option String} {decision : PromotionDecision}
    (approved : decision.approved = true) :
    (if (!decision.approved && !(promotionOf version).request.force) = true then .pure decision
      else (setRegisteredModelAlias "champion" version).bind fun _ =>
        recordPromotion {} (promotionOf version).request version runId previous decision) =
      (setRegisteredModelAlias "champion" version).bind fun _ =>
        recordPromotion {} (promotionOf version).request version runId previous decision :=
  if_neg (by simp [approved])

/-- The first promotion after its write of the alias. -/
theorem first_alias_set : ∃ past,
    Reach (Restricted (PromotionStep "higgs_decision_tree" "champion") PromotionFleet.InStep)
      (.initial _ _ trainedRegistry)
      ⟨(PromotionFleet.initial "higgs_decision_tree" "champion" trainedRegistry).shared.moveAlias 0 "champion" "2",
        Function.update (fun _ => .idle) 0 (.running (promotionOf "2") past
          (recordPromotion {} (promotionOf "2").request "2" (some "run-2") none firstDecision))⟩ := by
  let start := (PromotionFleet.initial "higgs_decision_tree" "champion" trainedRegistry).shared
  have initial : Reach (Restricted (PromotionStep "higgs_decision_tree" "champion") PromotionFleet.InStep)
      (.initial _ _ trainedRegistry) ⟨start, Function.update (fun _ => .idle) 0 .idle⟩ := by
    rw [Function.update_eq_self_iff.mpr rfl]
    exact .refl
  have started := reach_start initial (promotionOf "2") trivial
  have version := reach_call started rfl (Except.ok (some "run-2") : Except CallError (Option String))
    (.getModelVersion (by rintro _ ⟨⟩; rfl)) trivial
  have run := reach_call version rfl (Except.ok clearingMetrics : Except CallError Metrics)
    (.getRun (by rintro _ ⟨⟩; rfl)) trivial
  have noChampion := reach_call run rfl (Except.error CallError.mlflowException : Except CallError String)
    (.getModelVersionByAlias nofun) trivial
  exact ⟨_, reach_call noChampion (judged_approved firstDecision_approved) (Except.ok () : Except CallError Unit)
    (.aliasSet _) fun _ => rfl⟩

/-- A second promotion that reads the first one's version as the champion,
before its own write of the alias. -/
theorem reach_next_judged {fleet : PromotionFleet "higgs_decision_tree" "champion"} {s : PromotionWorld}
    {processes : Nat → Thread (PromoteCallOn "higgs_decision_tree" "champion") PromoteCall PromoteReply CallError
      PromotionDecision} {id : Nat} {metrics : Metrics}
    (reach : Reach (Restricted (PromotionStep "higgs_decision_tree" "champion") PromotionFleet.InStep) fleet
      ⟨s, Function.update processes id .idle⟩)
    (trained : s.registry.runIds = trainedRegistry.runIds)
    (measured : ∀ runId ∈ ["run-2", "run-3"], s.registry.runs runId = some metrics)
    (champion : s.registry.aliases "champion" = some "2")
    (approved : (evaluatePromotion metrics (some metrics) (.fromConfig {})).approved = true) : ∃ past rest,
    Reach (Restricted (PromotionStep "higgs_decision_tree" "champion") PromotionFleet.InStep) fleet
        ⟨s, Function.update processes id (.running (promotionOf "3") past rest)⟩ ∧
      (rest = (setRegisteredModelAlias "champion" "3").bind fun _ => recordPromotion {} (promotionOf "3").request "3"
        (some "run-3") (some "2") (evaluatePromotion metrics (some metrics) (.fromConfig {}))) ∧
      championSeen past = some "2" := by
  have started := reach_start reach (promotionOf "3") trivial
  have version := reach_call started rfl (Except.ok (some "run-3") : Except CallError (Option String))
    (.getModelVersion (by rintro _ ⟨⟩; rw [trained]; rfl)) trivial
  have run := reach_call version rfl (Except.ok metrics : Except CallError Metrics)
    (.getRun (by rintro _ ⟨⟩; exact measured _ (by decide))) trivial
  have read := reach_call run rfl (Except.ok "2" : Except CallError String)
    (.getModelVersionByAlias (by rintro _ ⟨⟩; exact champion)) trivial
  have readVersion := reach_call read rfl (Except.ok (some "run-2") : Except CallError (Option String))
    (.getModelVersion (by rintro _ ⟨⟩; rw [trained]; rfl)) trivial
  have readRun := reach_call readVersion rfl (Except.ok metrics : Except CallError Metrics)
    (.getRun (by rintro _ ⟨⟩; exact measured _ (by decide))) trivial
  exact ⟨_, _, readRun, judged_approved approved, rfl⟩

/-- Two promotions that write the alias one after the other and then their
tags in turn, and a third whose write of the alias fails in between. -/
theorem PromotionFleet.interleaved_promotions_agree : ∃ fleet,
    Reach (Restricted (PromotionStep "higgs_decision_tree" "champion") PromotionFleet.InStep)
      (.initial _ _ trainedRegistry) fleet ∧ fleet.shared.promotions.map (·.row.version) = ["2", "3"] ∧
      fleet.AuditAgrees := by
  have measured : ∀ runId ∈ ["run-2", "run-3"], trainedRegistry.runs runId = some clearingMetrics := by decide
  obtain ⟨past, moved⟩ := first_alias_set
  obtain ⟨nextPast, _, judged, atWrite, saw⟩ :=
    reach_next_judged (Fleet.reach_other moved (by decide : 1 ≠ 0)) rfl measured rfl nextDecision_approved
  obtain ⟨lastPast, _, lastJudged, atLastWrite, -⟩ :=
    reach_next_judged (Fleet.reach_other judged (by decide : 2 ≠ 1)) rfl measured rfl nextDecision_approved
  have first := Fleet.reach_other lastJudged (by decide : 0 ≠ 2)
  have tagged := reach_call first rfl (Except.ok () : Except CallError Unit) (.tag _) trivial
  have next := Fleet.reach_other tagged (by decide : 1 ≠ 0)
  have movedAgain := reach_call next atWrite (Except.ok () : Except CallError Unit) (.aliasSet _) fun _ => saw
  have last := Fleet.reach_other movedAgain (by decide : 2 ≠ 1)
  have failed := reach_call last atLastWrite (Except.error CallError.other : Except CallError Unit) (.aliasNotSet _)
    fun moved => absurd rfl moved
  have died := reach_crash failed (by
    intro m member same
    rcases List.mem_pair.mp member with rfl | rfl <;> cases same)
  have first := Fleet.reach_other died (by decide : 0 ≠ 2)
  have reasoned := reach_call first rfl (Except.ok () : Except CallError Unit) (.tag _) trivial
  have inserted := reach_call reasoned rfl (Except.ok () : Except CallError Unit) (.inserted _) fun _ => rfl
  have returned := reach_return inserted rfl fun m member same => absurd same (mem_settle.mp member).2
  have next := Fleet.reach_other returned (by decide : 1 ≠ 0)
  have tagged := reach_call next rfl (Except.ok () : Except CallError Unit) (.tag _) trivial
  have reasoned := reach_call tagged rfl (Except.ok () : Except CallError Unit) (.tag _) trivial
  have superseded := reach_call reasoned rfl (Except.ok () : Except CallError Unit) (.tag _) trivial
  have inserted := reach_call superseded rfl (Except.ok () : Except CallError Unit) (.inserted _) fun _ => rfl
  have ended := reach_return inserted rfl (by rintro m ⟨⟩)
  refine ⟨_, ended, rfl, PromotionFleet.audit_agrees trainedRegistry ended ?_⟩
  rintro id ⟨_, _, _, progress⟩
  rcases id with _ | _ | _ | id <;> cases progress

theorem quiet_of_ended {s : PromotionWorld} {call : PromoteCallOn model champion}
    {past : List (Program.Exchange PromoteReply)} {result : Option (Except CallError PromotionDecision)} :
    PromotionFleet.Quiet ⟨s, Function.update (fun _ => .idle) 0 (.ended call past result)⟩ := by
  rintro id ⟨_, _, _, progress⟩
  by_cases same : id = 0
  · subst same
    simp only [Function.update_self] at progress
    cases progress
  · simp only [Function.update_of_ne same] at progress
    cases progress

/-- A crash after the write of the alias leaves a champion without a row. -/
theorem PromotionFleet.silent_alias_flip :
    ¬∀ (model champion : String) (registry : ModelRegistry) (fleet : PromotionFleet model champion),
      Reach (PromotionStep model champion) (.initial model champion registry) fleet → fleet.Quiet →
      fleet.AuditAgrees := by
  intro agrees
  obtain ⟨past, moved⟩ := first_alias_set
  have crashed := reach_crash moved.forget_guard.guardTrivially trivial
  have flipped : some "2" = none := (agrees _ _ _ _ crashed.forget_guard quiet_of_ended).1
  cases flipped

end Run

end Amel
