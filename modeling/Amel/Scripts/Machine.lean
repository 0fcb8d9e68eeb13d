import Mathlib.Logic.Function.Basic
import Amel.Library.Session

namespace Amel

/-- The services of the Compose file, in its order, without those of a
profile. -/
inductive ComposeService
  | postgres | kafka | kafkaInit | migrate | redis | minio | minioInit | airflow | sourceSimulator | streamIngestor
  | feastApply | feastServer | mlflow | inferenceApi | otelCollector | tempo | loki | prometheus | kafkaExporter | grafana
  deriving DecidableEq, Repr

namespace ComposeService

def all : List ComposeService :=
  [postgres, kafka, kafkaInit, migrate, redis, minio, minioInit, airflow, sourceSimulator, streamIngestor, feastApply,
    feastServer, mlflow, inferenceApi, otelCollector, tempo, loki, prometheus, kafkaExporter, grafana]

def dependsOn : ComposeService → List ComposeService
  | kafkaInit | kafkaExporter => [kafka]
  | migrate => [postgres]
  | minioInit => [minio]
  | airflow => [postgres, minioInit, migrate]
  | sourceSimulator => [kafkaInit]
  | streamIngestor => [kafkaInit, migrate]
  | feastApply => [migrate, postgres]
  | feastServer => [feastApply, redis]
  | mlflow => [postgres, minioInit]
  | inferenceApi => [mlflow, feastServer, kafkaInit, migrate]
  | otelCollector => [tempo, loki]
  | grafana => [prometheus, tempo, loki]
  | postgres | kafka | redis | minio | tempo | loki | prometheus => []

/-- The services that run once and end. -/
def oneShot : ComposeService → Bool
  | kafkaInit | migrate | minioInit | feastApply => true
  | _ => false

/-- What `up` may start: the named services, or all when none is named, and
what these depend on. -/
def Wanted (noDeps : Bool) (services : List ComposeService) (service : ComposeService) : Prop :=
  services = [] ∨ service ∈ services ∨
    noDeps = false ∧ ∃ named ∈ services, Relation.ReflTransGen (fun s dependency => dependency ∈ s.dependsOn) named service

end ComposeService

/-- The four services that move into the cluster. -/
def moved : List ComposeService := [.inferenceApi, .feastServer, .sourceSimulator, .streamIngestor]

inductive KubeNamespace
  | kubeflow
  | keda
  deriving DecidableEq, Repr

inductive NamespacePhase
  | absent
  | active
  | terminating
  deriving DecidableEq, Repr

/-- The container of the kind node, with the cluster it holds. A memory of 0
is no cap. -/
structure KindNode where
  running : Bool
  memory : Nat
  phase : KubeNamespace → NamespacePhase

def KindNode.fresh : KindNode := ⟨true, 0, fun _ => .absent⟩

def KindNode.withPhase (n : KindNode) (ns : KubeNamespace) (phase : NamespacePhase) : KindNode :=
  { n with phase := Function.update n.phase ns phase }

theorem KindNode.withPhase_other {n : KindNode} {ns other : KubeNamespace} {phase : NamespacePhase}
    (different : other ≠ ns) : (n.withPhase ns phase).phase other = n.phase other :=
  Function.update_of_ne different _ _

/-- What the scripts act on: the kind node, and the Compose services that
run. -/
structure Machine where
  node : Option KindNode := none
  compose : List ComposeService := []

/-- The commands of the scripts. `run` stands for those that touch nothing of
this. -/
inductive MachineCommand
  | kindGetClusters
  | kindCreate
  | kindDelete
  | inspectRunning
  | inspectMemory
  | nodeAnon
  | updateMemory (bytes : Nat)
  | startNode
  | stopNode
  | getNamespace (ns : KubeNamespace)
  | applyNamespace (ns : KubeNamespace)
  | deleteNamespace (ns : KubeNamespace)
  | composePs
  | composeConfig
  | composeStop (services : List ComposeService)
  | composeUp (noDeps : Bool) (services : List ComposeService)
  | deadlinePassed
  | run (command : String)
  deriving DecidableEq

/-- Whether a command succeeded. -/
abbrev Exit := Except Unit Unit

def MachineAnswer : MachineCommand → Type
  | .kindGetClusters | .deadlinePassed => Bool
  | .inspectRunning => Option Bool
  | .inspectMemory => Option Nat
  | .nodeAnon => Except Unit Nat
  | .getNamespace _ => Except Unit Bool
  | .composePs | .composeConfig => Option (List ComposeService)
  | _ => Exit

/-- A query answers what is so or fails. A command takes effect and succeeds,
takes effect and fails, or only fails; `compose stop` and `compose up` may take
effect for some of the services. -/
inductive Machine.Performs : Machine → (command : MachineCommand) → MachineAnswer command → Machine → Prop
  | clusters {m} (found : Bool) : (found = true → m.node.isSome = true) → Performs m .kindGetClusters found m
  | created {m} (exit : Exit) : m.node = none → Performs m .kindCreate exit { m with node := some .fresh }
  | notCreated {m} : Performs m .kindCreate (.error () : Exit) m
  | deleted {m} (exit : Exit) : Performs m .kindDelete exit { m with node := none }
  | notDeleted {m} : Performs m .kindDelete (.error () : Exit) m
  | nodeRunning {m n} : m.node = some n → Performs m .inspectRunning (some n.running : Option Bool) m
  | runningUnknown {m} : Performs m .inspectRunning (none : Option Bool) m
  | nodeMemory {m n} : m.node = some n → Performs m .inspectMemory (some n.memory : Option Nat) m
  | memoryUnknown {m} : Performs m .inspectMemory (none : Option Nat) m
  | anon {m} (reply : Except Unit Nat) : Performs m .nodeAnon reply m
  | updated {m n bytes} (exit : Exit) : m.node = some n →
      Performs m (.updateMemory bytes) exit { m with node := some { n with memory := bytes } }
  | notUpdated {m bytes} : Performs m (.updateMemory bytes) (.error () : Exit) m
  | started {m n} (exit : Exit) : m.node = some n →
      Performs m .startNode exit { m with node := some { n with running := true } }
  | notStarted {m} : Performs m .startNode (.error () : Exit) m
  | stopped {m n} (exit : Exit) : m.node = some n →
      Performs m .stopNode exit { m with node := some { n with running := false } }
  | notStopped {m} : Performs m .stopNode (.error () : Exit) m
  | namespaceFound {m n ns} : m.node = some n → n.running = true →
      Performs m (.getNamespace ns) (.ok (n.phase ns ≠ .absent) : Except Unit Bool) m
  | namespaceUnknown {m ns} : Performs m (.getNamespace ns) (.error () : Except Unit Bool) m
  | applied {m n ns} (exit : Exit) : m.node = some n → n.running = true → n.phase ns ≠ .terminating →
      Performs m (.applyNamespace ns) exit { m with node := some (n.withPhase ns .active) }
  | notApplied {m ns} : Performs m (.applyNamespace ns) (.error () : Exit) m
  | namespaceDeleted {m n ns} (exit : Exit) : m.node = some n → n.running = true → n.phase ns ≠ .absent →
      Performs m (.deleteNamespace ns) exit { m with node := some (n.withPhase ns .terminating) }
  | nothingToDelete {m n ns} (exit : Exit) : m.node = some n → n.running = true → n.phase ns = .absent →
      Performs m (.deleteNamespace ns) exit m
  | namespaceNotDeleted {m ns} : Performs m (.deleteNamespace ns) (.error () : Exit) m
  | running {m} : Performs m .composePs (some m.compose : Option (List ComposeService)) m
  | psFails {m} : Performs m .composePs (none : Option (List ComposeService)) m
  | services {m} : Performs m .composeConfig (some ComposeService.all : Option (List ComposeService)) m
  | configFails {m} : Performs m .composeConfig (none : Option (List ComposeService)) m
  | composeStopped {m services} :
      Performs m (.composeStop services) (.ok () : Exit) { m with compose := m.compose.filter (· ∉ services) }
  | someStopped {m services} (keeps : ComposeService → Bool) : Performs m (.composeStop services) (.error () : Exit)
      { m with compose := m.compose.filter fun s => s ∉ services ∨ keeps s }
  | composeStarted {m noDeps services} (started : List ComposeService) (exit : Exit) :
      (∀ s ∈ started, s.Wanted noDeps services) →
      Performs m (.composeUp noDeps services) exit { m with compose := m.compose ++ started }
  | deadline {m} (passed : Bool) : Performs m .deadlinePassed passed m
  | ran {m command} (exit : Exit) : Performs m (.run command) exit m

namespace Machine

/-- A command for a node that fits. -/
def onNode (m : Machine) (fits : KindNode → Bool) (change : KindNode → KindNode) : Exit × Machine :=
  match m.node with
  | some n => if fits n then (.ok (), { m with node := some (change n) }) else (.error (), m)
  | none => (.error (), m)

/-- Such a command does what it does to a node that fits, or it fails. -/
theorem onNode_rule {P : Exit → Machine → Prop} {m : Machine} {fits : KindNode → Bool} {change : KindNode → KindNode}
    (done : ∀ n, m.node = some n → fits n = true → P (.ok ()) { m with node := some (change n) })
    (failed : P (.error ()) m) : P (m.onNode fits change).1 (m.onNode fits change).2 := by
  unfold onNode
  cases found : m.node with
  | none => exact failed
  | some n =>
    by_cases isFit : fits n = true
    · simpa only [if_pos isFit] using done n found isFit
    · simpa only [if_neg isFit] using failed

/-- The services that `up` leaves running when all goes well. The lists that
the scripts name hold what their services depend on. -/
def upped (m : Machine) (services : List ComposeService) : List ComposeService :=
  (if services = [] then ComposeService.all else services).filter fun s => !s.oneShot && s ∉ m.compose

def found (m : Machine) (ns : KubeNamespace) : Except Unit Bool :=
  match m.node with
  | some n => if n.running then .ok (n.phase ns ≠ .absent) else .error ()
  | none => .error ()

theorem found_cases (m : Machine) (ns : KubeNamespace) :
    (∃ n, m.node = some n ∧ n.running = true ∧ m.found ns = .ok (n.phase ns ≠ .absent)) ∨ m.found ns = .error () := by
  unfold found
  cases m.node with
  | none => exact Or.inr rfl
  | some n =>
    by_cases runs : n.running = true
    · exact Or.inl ⟨n, rfl, runs, if_pos runs⟩
    · exact Or.inr (if_neg runs)

theorem mapNode_rule {α : Type} {P : Option α → Prop} {m : Machine} (field : KindNode → α)
    (known : ∀ n, m.node = some n → P (some (field n))) (unknown : P none) : P (m.node.map field) := by
  cases found : m.node with
  | none => exact unknown
  | some n => exact known n found

/-- The machine where every command succeeds. -/
def answer (m : Machine) : (command : MachineCommand) → MachineAnswer command × Machine
  | .kindGetClusters => (m.node.isSome, m)
  | .kindCreate => match m.node with
    | none => ((.ok () : Exit), { m with node := some .fresh })
    | some _ => ((.error () : Exit), m)
  | .kindDelete => ((.ok () : Exit), { m with node := none })
  | .inspectRunning => (m.node.map (·.running), m)
  | .inspectMemory => (m.node.map (·.memory), m)
  | .nodeAnon => ((.ok 0 : Except Unit Nat), m)
  | .updateMemory bytes => m.onNode (fun _ => true) fun n => { n with memory := bytes }
  | .startNode => m.onNode (fun _ => true) fun n => { n with running := true }
  | .stopNode => m.onNode (fun _ => true) fun n => { n with running := false }
  | .getNamespace ns => (m.found ns, m)
  | .applyNamespace ns => m.onNode (fun n => n.running && n.phase ns ≠ .terminating) fun n => n.withPhase ns .active
  | .deleteNamespace ns =>
    m.onNode (·.running) fun n => if n.phase ns = .absent then n else n.withPhase ns .terminating
  | .composePs => (some m.compose, m)
  | .composeConfig => (some ComposeService.all, m)
  | .composeStop services => ((.ok () : Exit), { m with compose := m.compose.filter (· ∉ services) })
  | .composeUp _ services => ((.ok () : Exit), { m with compose := m.compose ++ m.upped services })
  | .deadlinePassed => (true, m)
  | .run _ => ((.ok () : Exit), m)

theorem answer_performs (m : Machine) (command : MachineCommand) :
    m.Performs command (m.answer command).1 (m.answer command).2 := by
  cases command with
  | kindGetClusters => exact .clusters _ id
  | kindCreate =>
    unfold answer
    split
    · rename_i absent
      exact .created _ absent
    · exact .notCreated
  | kindDelete => exact .deleted _
  | inspectRunning =>
    refine mapNode_rule (P := fun answer => m.Performs .inspectRunning answer m) (·.running) ?_ .runningUnknown
    intro n found
    exact .nodeRunning found
  | inspectMemory =>
    refine mapNode_rule (P := fun answer => m.Performs .inspectMemory answer m) (·.memory) ?_ .memoryUnknown
    intro n found
    exact .nodeMemory found
  | nodeAnon => exact .anon _
  | updateMemory bytes =>
    refine onNode_rule (P := m.Performs (.updateMemory bytes)) ?_ .notUpdated
    intro n found _
    exact .updated _ found
  | startNode =>
    refine onNode_rule (P := m.Performs .startNode) ?_ .notStarted
    intro n found _
    exact .started _ found
  | stopNode =>
    refine onNode_rule (P := m.Performs .stopNode) ?_ .notStopped
    intro n found _
    exact .stopped _ found
  | getNamespace ns =>
    show m.Performs (.getNamespace ns) (m.found ns) m
    rcases m.found_cases ns with ⟨n, found, runs, same⟩ | same
    · rw [same]
      exact .namespaceFound found runs
    · rw [same]
      exact .namespaceUnknown
  | applyNamespace ns =>
    refine onNode_rule (P := m.Performs (.applyNamespace ns)) ?_ .notApplied
    intro n found fits
    obtain ⟨runs, phase⟩ := (Bool.and_eq_true _ _).mp fits
    exact .applied _ found runs (of_decide_eq_true phase)
  | deleteNamespace ns =>
    refine onNode_rule (P := m.Performs (.deleteNamespace ns)) ?_ .namespaceNotDeleted
    intro n found runs
    by_cases absent : n.phase ns = .absent
    · have unchanged : { m with node := some n } = m := by rw [← found]
      simpa only [if_pos absent, unchanged] using Performs.nothingToDelete (.ok ()) found runs absent
    · simpa only [if_neg absent] using Performs.namespaceDeleted (.ok ()) found runs absent
  | composePs => exact .running
  | composeConfig => exact .services
  | composeStop services => exact .composeStopped
  | composeUp noDeps services =>
    refine .composeStarted _ _ fun s started => ?_
    have named := (List.mem_filter.mp started).1
    split at named
    · exact Or.inl ‹_›
    · exact Or.inr (Or.inl named)
  | deadlinePassed => exact .deadline _
  | run command => exact .ran _

end Machine

/-- What a node keeps through a command. -/
structure KindNode.From (n old : KindNode) (command : MachineCommand) : Prop where
  running : n.running = true → old.running = true ∨ command = .startNode
  memory : n.memory = old.memory ∨ command = .updateMemory n.memory
  phase : ∀ ns, n.phase ns ≠ .absent → old.phase ns ≠ .absent ∨ command = .applyNamespace ns

/-- What a command can do to the machine. -/
structure Machine.Frame (before : Machine) (command : MachineCommand) (after : Machine) : Prop where
  node : ∀ n, after.node = some n → (∃ old, before.node = some old ∧ n.From old command) ∨
    command = .kindCreate ∧ n = .fresh
  compose : ∀ s ∈ after.compose, s ∈ before.compose ∨
    ∃ noDeps services, command = .composeUp noDeps services ∧ s.Wanted noDeps services

section Frame

variable {before after : Machine} {command : MachineCommand} {answer : MachineAnswer command}

theorem KindNode.From.refl (n : KindNode) (command : MachineCommand) : n.From n command :=
  ⟨Or.inl, Or.inl rfl, fun _ => Or.inl⟩

theorem Machine.Frame.refl (m : Machine) (command : MachineCommand) : m.Frame command m :=
  ⟨fun n found => Or.inl ⟨n, found, .refl n command⟩, fun _ => Or.inl⟩

/-- A command that only changes the node it finds. -/
theorem Machine.Frame.changed {m : Machine} {old n : KindNode} (found : m.node = some old) (kept : n.From old command) :
    m.Frame command { m with node := some n } := by
  refine ⟨fun now is => ?_, fun _ => Or.inl⟩
  cases is
  exact Or.inl ⟨old, found, kept⟩

theorem Machine.Performs.frame (performed : Performs before command answer after) : before.Frame command after := by
  cases performed with
  | created =>
    refine ⟨fun n is => ?_, fun _ => Or.inl⟩
    cases is
    exact Or.inr ⟨rfl, rfl⟩
  | deleted => exact ⟨nofun, fun _ => Or.inl⟩
  | updated _ found => exact .changed found ⟨Or.inl, Or.inr rfl, fun _ => Or.inl⟩
  | started _ found => exact .changed found ⟨fun _ => Or.inr rfl, Or.inl rfl, fun _ => Or.inl⟩
  | stopped _ found => exact .changed found ⟨nofun, Or.inl rfl, fun _ => Or.inl⟩
  | @applied n ns exit found _ _ =>
    refine .changed found ⟨Or.inl, Or.inl rfl, fun other present => ?_⟩
    by_cases same : other = ns
    · exact Or.inr (congrArg _ same.symm)
    · left
      rwa [KindNode.withPhase_other same] at present
  | @namespaceDeleted n ns exit found _ there =>
    refine .changed found ⟨Or.inl, Or.inl rfl, fun other present => ?_⟩
    by_cases same : other = ns
    · exact Or.inl (same ▸ there)
    · left
      rwa [KindNode.withPhase_other same] at present
  | composeStopped | someStopped =>
    exact ⟨fun n found => Or.inl ⟨n, found, .refl n _⟩, fun s running => Or.inl ((List.mem_filter.mp running).1)⟩
  | composeStarted started _ wanted =>
    refine ⟨fun n found => Or.inl ⟨n, found, .refl n _⟩, fun s running => ?_⟩
    rcases List.mem_append.mp running with old | new
    · exact Or.inl old
    · exact Or.inr ⟨_, _, rfl, wanted s new⟩
  | _ => exact .refl _ _

end Frame

/-- A namespace that is being deleted may be gone at any time. -/
structure Machine.Settles (before after : Machine) : Prop where
  compose : after.compose = before.compose
  exists_node : after.node.isSome = before.node.isSome
  node : ∀ n, after.node = some n → ∃ old, before.node = some old ∧ n.running = old.running ∧ n.memory = old.memory ∧
    ∀ ns, n.phase ns = old.phase ns ∨ old.phase ns = .terminating ∧ n.phase ns = .absent

namespace Machine.Settles

variable {before now after : Machine}

theorem refl (m : Machine) : m.Settles m := ⟨rfl, rfl, fun n found => ⟨n, found, rfl, rfl, fun _ => Or.inl rfl⟩⟩

theorem trans (first : before.Settles now) (second : now.Settles after) : before.Settles after := by
  refine ⟨second.compose.trans first.compose, second.exists_node.trans first.exists_node, fun n found => ?_⟩
  obtain ⟨middle, foundMiddle, running, memory, phase⟩ := second.node n found
  obtain ⟨old, foundOld, runningOld, memoryOld, phaseOld⟩ := first.node middle foundMiddle
  refine ⟨old, foundOld, running.trans runningOld, memory.trans memoryOld, fun ns => ?_⟩
  rcases phase ns with same | ⟨was, is⟩
  · rw [same]
    exact phaseOld ns
  · rcases phaseOld ns with sameOld | ⟨-, gone⟩
    · exact Or.inr ⟨sameOld ▸ was, is⟩
    · rw [gone] at was
      cases was

/-- Less than any command can do. -/
theorem frame (settled : before.Settles after) (command : MachineCommand) : before.Frame command after := by
  refine ⟨fun n found => Or.inl ?_, fun s running => Or.inl (settled.compose ▸ running)⟩
  obtain ⟨old, foundOld, running, memory, phase⟩ := settled.node n found
  refine ⟨old, foundOld, fun runs => Or.inl (running ▸ runs), Or.inl memory, fun ns present => Or.inl ?_⟩
  rcases phase ns with same | ⟨-, gone⟩
  · rwa [← same]
  · exact absurd gone present

end Machine.Settles

end Amel
