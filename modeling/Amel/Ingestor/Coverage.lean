import Amel.Ingestor.Consumer

namespace Amel

open Python (Bytes)

variable {ingestor : Ingestor} {s after : Backend} {p next : Process} {action : ProcessAction}

/-- The process has the message at this place in its batch. -/
def Process.Holds (p : Process) (tp : TopicPartition) (offset : Nat) : Prop :=
  ∃ msg ∈ p.batch, msg.At tp offset

/-- Every message of the batch was read at its place in a partition of a
subscribed topic. -/
def Process.Polled (ingestor : Ingestor) (s : Backend) (p : Process) : Prop :=
  ∀ msg ∈ p.batch, ∃ tp offset value, msg = .delivered tp offset value ∧
    ingestor.settings.Subscribed tp.topic ∧ (s.log tp)[offset]? = some value

/-- What is about to be written is what the loop made of the batch. -/
def Process.Staged (ingestor : Ingestor) (p : Process) : Prop :=
  ∀ work attempt, p.phase = .writing work attempt →
    ∃ outside, ingestor.processMessages outside {} p.batch = (work, none)

theorem Process.Polled.grows (polled : p.Polled ingestor s) (grows : s.Grows after) : p.Polled ingestor after := by
  intro msg member
  obtain ⟨tp, offset, value, same, subscribed, found⟩ := polled msg member
  exact ⟨tp, offset, value, same, subscribed, grows.message found⟩

theorem Process.Polled.held (polled : p.Polled ingestor s) {tp : TopicPartition} {offset : Nat}
    (held : p.Holds tp offset) : ∃ value, Message.delivered tp offset value ∈ p.batch ∧
      ingestor.settings.Subscribed tp.topic ∧ (s.log tp)[offset]? = some value := by
  obtain ⟨msg, member, hasTopic, hasPartition, hasOffset⟩ := held
  obtain ⟨key, place, value, rfl, subscribed, found⟩ := polled msg member
  obtain ⟨topic, partition⟩ := tp
  cases hasTopic; cases hasPartition; cases hasOffset
  exact ⟨value, member, subscribed, found⟩

/-- A position is only ever held on a subscribed topic. -/
def Process.Assigned (ingestor : Ingestor) (p : Process) : Prop :=
  ∀ tp position, p.positions tp = some position → ingestor.settings.Subscribed tp.topic

theorem Process.Assigned.step (assigned : p.Assigned ingestor) (taken : ingestor.ProcessStep s p action after next) :
    next.Assigned ingestor := by
  intro tp position found
  cases taken with
  | start => cases found
  | crash => cases found
  | @assign key running subscribed =>
    by_cases same : tp = key
    · exact same ▸ subscribed
    · exact assigned _ _ (by simpa only [Function.update_of_ne same] using found)
  | @revoke key =>
    by_cases same : tp = key
    · simp [same] at found
    · exact assigned _ _ (by simpa only [Function.update_of_ne same] using found)
  | @poll key earlier _ _ _ _ atKey =>
    by_cases same : tp = key
    · exact assigned _ _ (same ▸ atKey)
    · exact assigned _ _ (by simpa only [Function.update_of_ne same] using found)
  | _ => exact assigned _ _ found

theorem Process.Polled.step (polled : p.Polled ingestor s) (assigned : p.Assigned ingestor)
    (taken : ingestor.ProcessStep s p action after next) : next.Polled ingestor after := by
  have grown := polled.grows taken.grows
  cases taken with
  | start => intro msg member; cases member
  | crash => intro msg member; cases member
  | skipWrite => intro msg member; cases member
  | write => intro msg member; cases member
  | @poll tp position value _ _ _ atTp found =>
    intro msg member
    rcases List.mem_append.mp member with old | new
    · exact polled msg old
    · exact ⟨tp, position, value, List.mem_singleton.mp new, assigned _ _ atTp, found⟩
  | _ => exact grown

theorem Process.Staged.step (staged : p.Staged ingestor) (taken : ingestor.ProcessStep s p action after next) :
    next.Staged ingestor := by
  intro work attempt writing
  cases taken with
  | assign => exact staged _ _ writing
  | revoke => exact staged _ _ writing
  | poll polling => cases polling.symm.trans writing
  | process _ _ finished => cases writing; exact ⟨_, finished⟩
  | writeRetried before => cases writing; exact staged _ _ before
  | deliver => exact staged _ _ writing
  | deliveryFails => exact staged _ _ writing
  | _ => cases writing

/-- Below each position of the process, below each message it holds and
below each offset it is about to commit, every message is handled or in
its hands. -/
structure Process.Covered (handled : TopicPartition → Nat → Prop) (p : Process) : Prop where
  position : ∀ {tp position offset}, p.positions tp = some position → offset < position →
    handled tp offset ∨ p.Holds tp offset
  earlier : ∀ {tp held offset}, p.Holds tp held → offset < held → handled tp offset ∨ p.Holds tp offset
  offsets : ∀ {work tp stored offset}, p.phase = .committing work → (tp, stored) ∈ work.offsets →
    offset < stored → handled tp offset

theorem Process.Covered.mono {handled handledLater : TopicPartition → Nat → Prop} (covered : p.Covered handled)
    (kept : ∀ tp offset, handled tp offset → handledLater tp offset) : p.Covered handledLater where
  position atTp below := (covered.position atTp below).imp_left (kept _ _)
  earlier held below := (covered.earlier held below).imp_left (kept _ _)
  offsets committing member below := kept _ _ (covered.offsets committing member below)

theorem Process.Covered.fresh {handled : TopicPartition → Nat → Prop} (noPositions : ∀ tp, p.positions tp = none)
    (noBatch : p.batch = []) (notCommitting : ∀ work, p.phase ≠ .committing work) : p.Covered handled where
  position atTp := by rw [noPositions] at atTp; cases atTp
  earlier := by rintro tp held offset ⟨msg, member, -⟩; rw [noBatch] at member; cases member
  offsets committing := absurd committing (notCommitting _)

theorem Process.holds_append {msg : Message} {phase : Phase} {positions : TopicPartition → Option Nat}
    {tp : TopicPartition} {offset : Nat} :
    ({ p with phase, positions, batch := p.batch ++ [msg] } : Process).Holds tp offset ↔
      p.Holds tp offset ∨ msg.At tp offset := by
  simp only [Holds, List.mem_append, List.mem_singleton, or_and_right, exists_or, exists_eq_left]

/-- What the process has in hand when its write ends is what it goes on to
commit, so once that is handled nothing below the offsets is left out. -/
theorem Process.Covered.written {handled : TopicPartition → Nat → Prop} {work : Batch} {outside : Outside}
    {phase : Phase} (covered : p.Covered handled)
    (finished : ingestor.processMessages outside {} p.batch = (work, none))
    (done : ∀ tp offset, p.Holds tp offset → handled tp offset) (committing : phase = .committing work) :
    ({ p with phase, batch := [] } : Process).Covered handled where
  position atTp below := Or.inl ((covered.position atTp below).elim id (done _ _))
  earlier := by rintro tp held offset ⟨msg, member, -⟩; cases member
  offsets := by
    rintro staged tp stored offset same member below
    cases committing.symm.trans same
    obtain ⟨⟨key, top⟩, inTops, equal⟩ := List.mem_map.mp member
    cases equal
    rw [(Ingestor.processMessages_finished_iff.mp finished).2.symm] at inTops
    rcases Ingestor.mem_absorbAll_maxOffset inTops with none | ⟨msg, inBatch, place⟩
    · cases none
    · rcases Nat.lt_succ_iff_lt_or_eq.mp below with earlier | rfl
      · exact (covered.earlier ⟨msg, inBatch, place⟩ earlier).elim id (done _ _)
      · exact done _ _ ⟨msg, inBatch, place⟩

/-- A partition is assigned where everything earlier is handled, or it is revoked. -/
theorem Process.Covered.placed {handled : TopicPartition → Nat → Prop} {key : TopicPartition} {place : Option Nat}
    (covered : p.Covered handled)
    (below : ∀ position offset, place = some position → offset < position → handled key offset) :
    ({ p with positions := Function.update p.positions key place } : Process).Covered handled where
  position {tp position offset} atTp earlier := by
    by_cases same : tp = key
    · subst same
      exact Or.inl (below _ _ ((Function.update_self _ _ p.positions).symm.trans atTp) earlier)
    · exact covered.position (by simpa only [Function.update_of_ne same] using atTp) earlier
  earlier := covered.earlier
  offsets := covered.offsets

/-- The message at the position of its partition joins those in hand. -/
theorem Process.Covered.polled {handled : TopicPartition → Nat → Prop} {key : TopicPartition} {here : Nat}
    {value : Option Bytes} (covered : p.Covered handled) (polling : p.phase = .polling)
    (atKey : p.positions key = some here) :
    ({ p with
        positions := Function.update p.positions key (some (here + 1))
        batch := p.batch ++ [Message.delivered key here value] } : Process).Covered handled where
  position {tp position offset} atTp below := by
    rw [holds_append]
    by_cases same : tp = key
    · subst same
      cases (Function.update_self _ _ p.positions).symm.trans atTp
      rcases Nat.lt_succ_iff_lt_or_eq.mp below with earlier | rfl
      · exact (covered.position atKey earlier).imp_right Or.inl
      · exact Or.inr (Or.inr (Message.delivered_at tp _ value))
    · exact (covered.position (by simpa only [Function.update_of_ne same] using atTp) below).imp_right Or.inl
  earlier {tp held offset} holds below := by
    rw [holds_append] at holds ⊢
    rcases holds with held | ⟨hasTopic, hasPartition, hasOffset⟩
    · exact (covered.earlier held below).imp_right Or.inl
    · obtain ⟨topic, partition⟩ := tp
      cases hasTopic; cases hasPartition; cases hasOffset
      exact (covered.position atKey below).imp_right Or.inl
  offsets committing := by cases polling.symm.trans committing

/-- A process that is not about to commit has nothing more to cover. -/
theorem Process.Covered.idle {handled : TopicPartition → Nat → Prop} {phase : Phase} {outbox : List DlqRecord}
    (covered : p.Covered handled) (notCommitting : ∀ work, phase ≠ .committing work) :
    ({ p with phase, outbox } : Process).Covered handled where
  position := covered.position
  earlier := covered.earlier
  offsets committing := absurd committing (notCommitting _)

/-- One step keeps the cover, provided it loses nothing that was handled,
everything below the committed offsets is handled, and a write that ends
has handled what was in hand. -/
theorem Process.Covered.step {handled handledLater : TopicPartition → Nat → Prop} (covered : p.Covered handled)
    (staged : p.Staged ingestor) (taken : ingestor.ProcessStep s p action after next)
    (committed : ∀ tp offset, offset < s.committed tp → handledLater tp offset)
    (kept : next.phase ≠ .down → p.phase ≠ .down → ∀ tp offset, handled tp offset → handledLater tp offset)
    (written : ∀ work attempt, p.phase = .writing work attempt → next.phase = .committing work →
      ∀ tp offset, p.Holds tp offset → handledLater tp offset) : next.Covered handledLater := by
  have running {phase : Phase} (was : p.phase = phase) (up : phase ≠ .down) : p.phase ≠ .down := was ▸ up
  cases taken with
  | start => exact .fresh (fun _ => rfl) rfl (by simp)
  | crash => exact .fresh (fun _ => rfl) rfl (by simp)
  | @assign key up =>
    refine (covered.mono (kept up up)).placed fun position offset same below => ?_
    cases same
    exact committed _ _ below
  | revoke up =>
    refine (covered.mono (kept up up)).placed fun position offset same below => ?_
    cases same
  | poll polling room inTime atKey found =>
    have up := running polling (by simp)
    exact (covered.mono (kept up up)).polled polling atKey
  | process polling =>
    have up := running polling (by simp)
    exact (covered.mono (kept (by simp) up)).idle (by simp)
  | raise polling =>
    have up := running polling (by simp)
    exact (covered.mono (kept (by simp) up)).idle (by simp)
  | skipWrite writing =>
    have up := running writing (by simp)
    obtain ⟨outside, finished⟩ := staged _ _ writing
    exact (covered.mono (kept (by simp) up)).written finished (written _ _ writing rfl) rfl
  | write writing =>
    have up := running writing (by simp)
    obtain ⟨outside, finished⟩ := staged _ _ writing
    exact (covered.mono (kept (by simp) up)).written finished (written _ _ writing rfl) rfl
  | writeRetried writing =>
    have up := running writing (by simp)
    exact (covered.mono (kept (by simp) up)).idle (by simp)
  | writeExhausted writing =>
    have up := running writing (by simp)
    exact (covered.mono (kept (by simp) up)).idle (by simp)
  | commit committing =>
    have up := running committing (by simp)
    exact (covered.mono (kept (by simp) up)).idle (by simp)
  | deliver up =>
    have old := covered.mono (kept up up)
    exact ⟨old.position, old.earlier, old.offsets⟩
  | deliveryFails up =>
    have old := covered.mono (kept up up)
    exact ⟨old.position, old.earlier, old.offsets⟩

end Amel
