import Mathlib.Algebra.Order.Field.Rat
import Mathlib.Data.NNRat.Defs
import Mathlib.Data.Prod.Lex
import Amel.Library.Transition
import Amel.Python.Heapq

namespace Amel

open Transition Python.Heapq

/-- A call of `schedule`: when the clock was read and the delay asked for. -/
structure ScheduleCall where
  called : ℚ
  delaySeconds : ℚ
  deriving DecidableEq

def ScheduleCall.runAt (call : ScheduleCall) : ℚ := call.called + max call.delaySeconds 0

/-- An item of `_heap`: the deadline, and the count that names the callback.
Tuples are compared by the first, then by the second, which no two share. -/
abbrev HeapItem := ℚ ×ₗ Nat

/-- Where `_run` stands: about to look at the queue with the lock held, in
`wait`, with a timeout or without and notified or not, in a callback with
the lock released, or out. -/
inductive WorkerPoint
  | ready
  | waiting (timeout : Option ℚ) (notified : Bool)
  | running (item : HeapItem)
  | ended

/-- A `DelayedDispatcher`: the clock, the calls of `schedule` that have read
it and not yet taken the lock, and the fields. For the record stand the
calls with their counts, and the items taken with the time. -/
structure DelayedDispatcher where
  monotonic : ℚ
  arriving : List ScheduleCall := []
  heap : Array HeapItem := #[]
  counter : Nat := 0
  stop : Bool := false
  worker : WorkerPoint := .ready
  scheduled : List (ScheduleCall × Nat) := []
  taken : List (HeapItem × ℚ) := []
  finished : List HeapItem := []

inductive DispatcherAction
  | call (delaySeconds : ℚ)
  | push (call : ScheduleCall)
  | look
  | wake
  | callbackReturns
  | close
  | passes (seconds : ℚ≥0)

/-- `notify`, which only the worker waits for. -/
def WorkerPoint.notify : WorkerPoint → WorkerPoint
  | .waiting timeout _ => .waiting timeout true
  | worker => worker

namespace DelayedDispatcher

/-- The rest of `schedule`, with the lock. -/
def push (s : DelayedDispatcher) (call : ScheduleCall) : DelayedDispatcher :=
  { s with
    arriving := s.arriving.erase call
    heap := heappush s.heap (toLex (call.runAt, s.counter))
    counter := s.counter + 1
    worker := s.worker.notify
    scheduled := s.scheduled ++ [(call, s.counter)] }

/-- The callers of `schedule` and `close`, the worker, and time. What is done
under the lock is one step; `timeoutMax` is `threading.TIMEOUT_MAX`, beyond
which `wait` raises and the worker ends. -/
inductive Step (timeoutMax : ℚ) : DelayedDispatcher → DispatcherAction → DelayedDispatcher → Prop
  | call {s : DelayedDispatcher} {delaySeconds} :
      Step timeoutMax s (.call delaySeconds) { s with arriving := ⟨s.monotonic, delaySeconds⟩ :: s.arriving }
  | push {s : DelayedDispatcher} {call} : call ∈ s.arriving → Step timeoutMax s (.push call) (s.push call)
  | stops {s : DelayedDispatcher} : s.worker = .ready → s.stop = true →
      Step timeoutMax s .look { s with worker := .ended }
  | waits {s : DelayedDispatcher} : s.worker = .ready → s.stop = false → s.heap.size = 0 →
      Step timeoutMax s .look { s with worker := .waiting none false }
  | waitsUntil {s : DelayedDispatcher} {item} : s.worker = .ready → s.stop = false → s.heap[0]? = some item →
      s.monotonic < (ofLex item).1 → (ofLex item).1 - s.monotonic ≤ timeoutMax →
      Step timeoutMax s .look { s with worker := .waiting (some (ofLex item).1) false }
  | waitRaises {s : DelayedDispatcher} {item} : s.worker = .ready → s.stop = false → s.heap[0]? = some item →
      timeoutMax < (ofLex item).1 - s.monotonic → s.monotonic < (ofLex item).1 →
      Step timeoutMax s .look { s with worker := .ended }
  | takes {s : DelayedDispatcher} {first item rest} : s.worker = .ready → s.stop = false → s.heap[0]? = some first →
      (ofLex first).1 ≤ s.monotonic → heappop s.heap = some (item, rest) →
      Step timeoutMax s .look
        { s with heap := rest, worker := .running first, taken := s.taken ++ [(first, s.monotonic)] }
  | notified {s : DelayedDispatcher} {timeout} : s.worker = .waiting timeout true →
      Step timeoutMax s .wake { s with worker := .ready }
  | timedOut {s : DelayedDispatcher} {time} : s.worker = .waiting (some time) false → time ≤ s.monotonic →
      Step timeoutMax s .wake { s with worker := .ready }
  | callbackReturns {s : DelayedDispatcher} {item} : s.worker = .running item →
      Step timeoutMax s .callbackReturns { s with worker := .ready, finished := s.finished ++ [item] }
  | close {s : DelayedDispatcher} : Step timeoutMax s .close { s with stop := true, worker := s.worker.notify }
  | passes {s : DelayedDispatcher} {seconds : ℚ≥0} :
      Step timeoutMax s (.passes seconds) { s with monotonic := s.monotonic + seconds }

def initial (now : ℚ) : DelayedDispatcher := { monotonic := now }

/-- The item that a call of `schedule` pushes. -/
def itemOf (scheduled : ScheduleCall × Nat) : HeapItem := toLex (scheduled.1.runAt, scheduled.2)

/-- The callback that is running. -/
def running (s : DelayedDispatcher) : List HeapItem :=
  match s.worker with
  | .running item => [item]
  | .ready | .waiting _ _ | .ended => []

/-- No callback is taken twice or before its deadline, none is lost, and the
worker sleeps no longer than until the first deadline. -/
structure Delivers (s : DelayedDispatcher) : Prop where
  once : (s.taken.map fun entry => (ofLex entry.1).2).Nodup
  due : ∀ item time, (item, time) ∈ s.taken → ∃ call count, (call, count) ∈ s.scheduled ∧
    item = itemOf (call, count) ∧ call.called + max call.delaySeconds 0 ≤ time
  kept : ∀ scheduled ∈ s.scheduled, itemOf scheduled ∈ s.finished ∨ s.worker = .running (itemOf scheduled) ∨
    itemOf scheduled ∈ s.heap
  awaited : ∀ timeout, s.worker = .waiting timeout false → ∀ item ∈ s.heap, ∃ time, timeout = some time ∧
    time ≤ (ofLex item).1

/-- The bookkeeping of the queue. -/
structure Booked (s : DelayedDispatcher) : Prop where
  ordered : Ordered s.heap
  counts : s.scheduled.map Prod.snd = List.range s.counter
  items : (s.scheduled.map itemOf).Perm (s.heap.toList ++ s.taken.map Prod.fst)
  runs : s.taken.map Prod.fst = s.finished ++ s.running
  due : ∀ entry ∈ s.taken, (ofLex entry.1).1 ≤ entry.2
  awaited : ∀ timeout, s.worker = .waiting timeout false → ∀ item ∈ s.heap, ∃ time, timeout = some time ∧
    time ≤ (ofLex item).1

variable {timeoutMax now : ℚ} {s after : DelayedDispatcher} {action : DispatcherAction}

theorem running_notify (worker : WorkerPoint) :
    running { s with worker := worker.notify } = running { s with worker } := by
  cases worker <;> rfl

theorem notify_ne_asleep (worker : WorkerPoint) (timeout : Option ℚ) : worker.notify ≠ .waiting timeout false := by
  cases worker <;> simp [WorkerPoint.notify]

theorem mem_running {item : HeapItem} (member : item ∈ s.running) : s.worker = .running item := by
  cases isAt : s.worker with
  | running other =>
    simp only [running, isAt, List.mem_singleton] at member
    rw [member]
  | ready | waiting | ended => simp [running, isAt] at member

/-- No item is before the one at the root. -/
theorem first_le (ordered : Ordered s.heap) {first item : HeapItem} (isFirst : s.heap[0]? = some first)
    (member : item ∈ s.heap) : first ≤ item := by
  obtain ⟨nonempty, rfl⟩ := Array.getElem?_eq_some_iff.mp isFirst
  obtain ⟨i, inside, rfl⟩ := Array.getElem_of_mem member
  exact ordered.root_le i inside

theorem Booked.push (booked : s.Booked) (call : ScheduleCall) : (s.push call).Booked := by
  obtain ⟨ordered, pushed⟩ := heappush_spec booked.ordered (itemOf (call, s.counter))
  have asleep : ∀ timeout, (s.push call).worker ≠ .waiting timeout false := notify_ne_asleep s.worker
  refine ⟨ordered, ?_, ?_, ?_, booked.due, fun timeout waits => absurd waits (asleep timeout)⟩
  · show (s.scheduled ++ [(call, s.counter)]).map Prod.snd = List.range (s.counter + 1)
    rw [List.map_append, booked.counts, List.range_succ]
    rfl
  · show ((s.scheduled ++ [(call, s.counter)]).map itemOf).Perm
      ((heappush s.heap (itemOf (call, s.counter))).toList ++ s.taken.map Prod.fst)
    rw [List.map_append]
    refine (List.perm_append_comm.trans ?_).trans (pushed.append_right _).symm
    exact booked.items.cons _
  · exact booked.runs.trans (congrArg (s.finished ++ ·) (running_notify s.worker).symm)

/-- The item taken is the one at the root. -/
theorem Booked.takes (booked : s.Booked) {first item : HeapItem} {rest : Array HeapItem}
    (ready : s.worker = .ready) (isFirst : s.heap[0]? = some first) (isDue : (ofLex first).1 ≤ s.monotonic)
    (popped : heappop s.heap = some (item, rest)) :
    Booked { s with heap := rest, worker := .running first, taken := s.taken ++ [(first, s.monotonic)] } := by
  obtain ⟨nonempty, rfl⟩ := Array.getElem?_eq_some_iff.mp isFirst
  obtain ⟨others, same, ordered, split⟩ := heappop_spec booked.ordered nonempty
  obtain ⟨rfl, rfl⟩ : s.heap[0] = item ∧ others = rest := by simpa [popped, eq_comm] using same
  have idle : s.running = [] := by simp only [running, ready]
  refine ⟨ordered, booked.counts, ?_, ?_, ?_, fun timeout waits => by cases waits⟩
  · rw [List.map_append]
    refine (booked.items.trans (split.append_right _)).trans ?_
    rw [← List.append_assoc]
    exact (List.perm_append_singleton _ _).symm
  · rw [List.map_append, booked.runs, idle, List.append_nil]
    rfl
  · intro entry member
    rcases List.mem_append.mp member with earlier | now
    · exact booked.due entry earlier
    · rw [List.mem_singleton.mp now]
      exact isDue

theorem Booked.step (booked : s.Booked) (taken : Step timeoutMax s action after) : after.Booked := by
  obtain ⟨ordered, counts, items, runs, due, awaited⟩ := booked
  have idle {worker : WorkerPoint} (before : s.running = []) (still : running { s with worker } = []) :
      s.taken.map Prod.fst = s.finished ++ running { s with worker } := by
    rw [still, runs, before]
  cases taken with
  | call | passes => exact ⟨ordered, counts, items, runs, due, awaited⟩
  | push => exact Booked.push ⟨ordered, counts, items, runs, due, awaited⟩ _
  | takes ready _ isFirst isDue popped =>
    exact Booked.takes ⟨ordered, counts, items, runs, due, awaited⟩ ready isFirst isDue popped
  | stops ready | waitRaises ready =>
    exact ⟨ordered, counts, items, idle (by simp only [running, ready]) rfl, due, fun timeout waits => by cases waits⟩
  | waits ready _ empty =>
    refine ⟨ordered, counts, items, idle (by simp only [running, ready]) rfl, due, ?_⟩
    intro timeout waits item member
    obtain ⟨i, inside, _⟩ := Array.getElem_of_mem member
    change i < s.heap.size at inside
    omega
  | @waitsUntil item ready _ isFirst =>
    refine ⟨ordered, counts, items, idle (by simp only [running, ready]) rfl, due, ?_⟩
    intro timeout waits other member
    cases waits
    exact ⟨_, rfl, Prod.Lex.monotone_fst _ _ (first_le ordered isFirst member)⟩
  | notified waits | timedOut waits =>
    exact ⟨ordered, counts, items, idle (by simp only [running, waits]) rfl, due, fun timeout waits => by cases waits⟩
  | @callbackReturns item isRunning =>
    refine ⟨ordered, counts, items, ?_, due, fun timeout waits => by cases waits⟩
    rw [runs]
    simp only [running, isRunning, List.append_nil]
  | close =>
    refine ⟨ordered, counts, items, runs.trans (congrArg (s.finished ++ ·) (running_notify s.worker).symm), due, ?_⟩
    exact fun timeout waits => absurd waits (notify_ne_asleep s.worker timeout)

theorem Booked.of_reach (reach : Reach (Step timeoutMax) (initial now) s) : s.Booked :=
  reach.invariant _ ⟨fun _ inside => absurd inside (Nat.not_lt_zero _), rfl, .refl _, rfl, by simp [initial],
    fun _ waits => by cases waits⟩ fun _ _ _ _ booked taken => booked.step taken

/-- The counts tell the items apart. -/
theorem Booked.distinct (booked : s.Booked) :
    ((s.heap.toList ++ s.taken.map Prod.fst).map fun item => (ofLex item).2).Nodup := by
  have counts : ((s.scheduled.map itemOf).map fun item => (ofLex item).2) = List.range s.counter := by
    rw [List.map_map, ← booked.counts]
    rfl
  rw [← (booked.items.map _).nodup_iff, counts]
  exact List.nodup_range

theorem Booked.delivers (booked : s.Booked) : s.Delivers where
  once := by
    have distinct := booked.distinct
    rw [List.map_append, List.nodup_append, List.map_map] at distinct
    exact distinct.2.1
  due item time member := by
    have scheduled : item ∈ s.scheduled.map itemOf :=
      booked.items.mem_iff.mpr (List.mem_append_right _ (List.mem_map.mpr ⟨_, member, rfl⟩))
    obtain ⟨⟨call, count⟩, isCall, rfl⟩ := List.mem_map.mp scheduled
    exact ⟨call, count, isCall, rfl, booked.due _ member⟩
  kept scheduled member := by
    rcases List.mem_append.mp (booked.items.mem_iff.mp (List.mem_map_of_mem member)) with pending | taken
    · exact Or.inr (Or.inr (Array.mem_toList_iff.mp pending))
    · rw [booked.runs] at taken
      rcases List.mem_append.mp taken with finished | running
      · exact Or.inl finished
      · exact Or.inr (Or.inl (mem_running running))
  awaited := booked.awaited

/-- A step that takes a callback takes the first of those pending. -/
theorem Booked.takes_first (booked : s.Booked) (taken : Step timeoutMax s action after) {item other : HeapItem}
    {time : ℚ} (isTaken : after.taken = s.taken ++ [(item, time)]) (pending : other ∈ s.heap)
    (differs : other ≠ item) : item < other := by
  cases taken with
  | takes ready _ isFirst isDue popped =>
    simp only [List.append_cancel_left_eq, List.cons.injEq, Prod.mk.injEq, and_true] at isTaken
    obtain ⟨rfl, _⟩ := isTaken
    exact lt_of_le_of_ne (first_le booked.ordered isFirst pending) differs.symm
  | _ => exact absurd isTaken (by simp [DelayedDispatcher.push])

/-- Every callback is delivered once, in the order of the deadlines and then
of the calls, and not early, in every run. -/
theorem delivers_in_order (timeoutMax now : ℚ) :
    (∀ s, Reach (Step timeoutMax) (initial now) s → s.Delivers) ∧
      ∀ s action after item time, Reach (Step timeoutMax) (initial now) s → Step timeoutMax s action after →
        after.taken = s.taken ++ [(item, time)] → ∀ other ∈ s.heap, other ≠ item → item < other :=
  ⟨fun _ reach => (Booked.of_reach reach).delivers, fun _ _ _ _ _ reach taken isTaken _ pending differs =>
    (Booked.of_reach reach).takes_first taken isTaken pending differs⟩

end DelayedDispatcher

end Amel
