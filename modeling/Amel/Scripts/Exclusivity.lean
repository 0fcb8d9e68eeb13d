import Amel.Scripts.KubeflowCap

namespace Amel

open Transition (Reach Guarded)
open Script

/-- None of the four moved services runs in Compose. -/
def Machine.Trimmed (m : Machine) : Prop := ∀ s ∈ moved, s ∉ m.compose

/-- The kind node, if there is one, is stopped. -/
def Machine.NodeDown (m : Machine) : Prop := ∀ n, m.node = some n → n.running = false

/-- No moved service runs beside a running node, and no node with KEDA has the
k8s cap. -/
structure Machine.Exclusive (caps : Caps) (m : Machine) : Prop where
  services : m.NodeDown ∨ m.Trimmed
  keda : ∀ n, m.node = some n → n.phase .keda ≠ .absent → n.memory ≠ caps.k8s

/-- A command goes wrong where its script does not notice and relies on it. -/
inductive Mishap (caps : Caps) : Script Unit → Machine → (ask : MachineCommand) → MachineAnswer ask → Prop
  /-- `to_compose` takes a node it cannot inspect for stopped. -/
  | nodeUnseen {m n} : m.node = some n → n.running = true →
      Mishap caps toCompose m .inspectRunning (none : Option Bool)
  /-- `to_k8s` does not look for KEDA in a node it cannot inspect. -/
  | kedaUnseen {m n} : m.node = some n → n.running = true → n.phase .keda ≠ .absent →
      Mishap caps refuseKeda m .inspectRunning (none : Option Bool)
  /-- `trim_compose kfp` takes a listing that fails for an empty one. -/
  | movedUnseen {m} : ¬ m.Trimmed → Mishap caps (verifyTrimmed .kfp) m .composePs (none : Option (List ComposeService))
  /-- `up -d $(allowed k8s)` without a list starts everything. -/
  | unlisted {m} : ¬ m.NodeDown → Mishap caps upAllowed m .composeConfig (none : Option (List ComposeService))
  /-- `k8s_down.sh` goes on though the cluster was not deleted. -/
  | notDeleted {m} (exit : Exit) : ¬ m.NodeDown → Mishap caps k8sHandBack m (.run maxEntityId) exit
  /-- `k8s_up.sh` goes on, with no cluster, though the services were not
  stopped. -/
  | notStopped {m} (found : Bool) : m.node = none → ¬ m.Trimmed → Mishap caps (k8sUpCluster caps) m .kindGetClusters found
  | within {program : Script Unit} {next : Unit → Script Unit} {m ask} {answer : MachineAnswer ask} :
      Mishap caps program m ask answer → Mishap caps (program.bind next) m ask answer

/-- What holds when a script is started: `to_k8s` looks for KEDA only in a
node that runs, and `kfp_down.sh` does not look for it. -/
def Invocation.Ready : Invocation → Machine → Prop
  | .mode .k8s, m => ∀ n, m.node = some n → n.running = false → n.phase .keda = .absent
  | .kfpDown, m => ∀ n, m.node = some n → n.running = true → n.phase .keda = .absent
  | _, _ => True

/-- The steps of an operator who starts scripts when they are ready for it,
and has no mishap. -/
def Careful (caps : Caps) (operator : Operator) : OperatorAction → Prop
  | .start invocation => invocation.Ready operator.state
  | .call ⟨ask, answer⟩ => ∀ rest, operator.running = some rest → ¬ Mishap caps rest operator.state ask answer
  | _ => True

/-- The commands that start no moved service and no node, do not install KEDA
and do not set the k8s cap. -/
def ModeNeutral (caps : Caps) : MachineCommand → Prop
  | .updateMemory bytes => bytes ≠ caps.k8s
  | .applyNamespace ns => ns ≠ .keda
  | .composeUp noDeps services => ∀ s ∈ moved, ¬ s.Wanted noDeps services
  | .startNode | .kindCreate => False
  | _ => True

section

variable {caps : Caps} {m now : Machine}

theorem Harmless.modeNeutral (command : MachineCommand) (harmless : Harmless command) : ModeNeutral caps command := by
  cases command with
  | updateMemory | applyNamespace | composeUp | startNode | kindCreate => exact absurd harmless id
  | _ => trivial

/-- Nothing that is not moved depends on a moved service. -/
theorem dependsOn_not_moved {s dependency : ComposeService} (depends : dependency ∈ s.dependsOn) (stays : s ∉ moved) :
    dependency ∉ moved := by
  revert stays depends
  cases s <;> cases dependency <;> decide

theorem not_wanted {services : List ComposeService} (nonempty : services ≠ []) (stay : ∀ s ∈ services, s ∉ moved)
    (noDeps : Bool) : ∀ s ∈ moved, ¬ s.Wanted noDeps services := by
  rintro s isMoved (none | named | ⟨-, origin, named, path⟩)
  · exact nonempty none
  · exact stay s named isMoved
  · have along (reached : ComposeService)
        (path : Relation.ReflTransGen (fun s dependency => dependency ∈ ComposeService.dependsOn s) origin reached) :
        reached ∉ moved := by
      induction path with
      | refl => exact stay origin named
      | tail _ depends ih => exact dependsOn_not_moved depends ih
    exact along s path isMoved

theorem trimmed_kept : Kept (ModeNeutral caps) Machine.Trimmed := by
  intro before command after neutral frame trimmed s isMoved runs
  rcases frame.compose s runs with old | ⟨noDeps, services, rfl, wanted⟩
  · exact trimmed s isMoved old
  · exact neutral s isMoved wanted

/-- The commands after which a node may run that did not. -/
def StartsNode : MachineCommand → Prop
  | .startNode | .kindCreate => True
  | _ => False

theorem nodeDown_kept : Kept (fun command => ¬ StartsNode command) Machine.NodeDown := by
  intro before command after startsNone frame down n found
  rcases frame.node n found with ⟨old, foundOld, fromOld⟩ | ⟨rfl, -⟩
  · by_contra runs
    rcases fromOld.running (by simpa using runs) with ran | rfl
    · rw [down old foundOld] at ran
      cases ran
    · exact startsNone trivial
  · exact absurd trivial startsNone

theorem ModeNeutral.starts_nothing {command : MachineCommand} (neutral : ModeNeutral caps command) :
    ¬ StartsNode command := by
  cases command with
  | startNode | kindCreate => exact fun _ => neutral
  | _ => exact id

/-- Where KEDA is, the cap is not the k8s cap. -/
theorem kedaCap_kept : Kept (ModeNeutral caps) fun m =>
    ∀ n, m.node = some n → n.phase .keda ≠ .absent → n.memory ≠ caps.k8s := by
  intro before command after neutral frame fits n found present
  rcases frame.node n found with ⟨old, foundOld, fromOld⟩ | ⟨-, rfl⟩
  · have presentOld : old.phase .keda ≠ .absent := by
      rcases fromOld.phase .keda present with there | rfl
      · exact there
      · exact absurd rfl neutral
    rcases fromOld.memory with same | updates
    · rw [same]
      exact fits old foundOld presentOld
    · subst updates
      exact neutral
  · exact absurd rfl present

theorem exclusive_kept : Kept (ModeNeutral caps) (Machine.Exclusive caps) := by
  intro before command after neutral frame ⟨services, keda⟩
  refine ⟨?_, kedaCap_kept neutral frame keda⟩
  rcases services with down | trimmed
  · exact Or.inl (nodeDown_kept neutral.starts_nothing frame down)
  · exact Or.inr (trimmed_kept neutral frame trimmed)

theorem exclusive_harmless : Kept Harmless (Machine.Exclusive caps) := exclusive_kept.mono Harmless.modeNeutral

theorem trimmed_harmless : Kept Harmless Machine.Trimmed := by
  have kept : Kept (ModeNeutral .default) Machine.Trimmed := trimmed_kept
  exact kept.mono Harmless.modeNeutral

theorem nodeDown_harmless : Kept Harmless Machine.NodeDown := by
  refine nodeDown_kept.mono fun command harmless => ?_
  have neutral : ModeNeutral .default command := Harmless.modeNeutral command harmless
  exact neutral.starts_nothing

/-- What a script leads to without a mishap. -/
abbrev Script.Runs (caps : Caps) (program : Script Unit) (post : Machine → Prop) (m : Machine) : Prop :=
  program.Outline Machine.Settles
    (fun rest before ask answer after => before.Performs ask answer after ∧ ¬ Mishap caps rest before ask answer)
    (Machine.Exclusive caps) (fun _ => post) m

section Rules

variable {α : Type} {program : Script Unit} {next : Unit → Script Unit} {holds post last : Machine → Prop}

theorem Script.Runs.of_leads (leads : program.Leads (Machine.Exclusive caps) (fun _ => post) m) :
    program.Runs caps post m :=
  leads.fewer fun performed => performed.1

theorem Script.Runs.of_neutral (uses : program.Uses (ModeNeutral caps)) (kept : Kept (ModeNeutral caps) holds)
    (base : holds m) : program.Runs caps holds m :=
  .of_leads (.of_uses uses Harmless.modeNeutral exclusive_kept kept base)

theorem Script.Runs.neutral (uses : program.Uses (ModeNeutral caps)) : program.Runs caps (fun _ => True) m :=
  .of_neutral uses .anything trivial

theorem Script.Runs.bind (valid : m.Exclusive caps) (first : program.Runs caps post m)
    (goesOn : ∀ now, now.Exclusive caps → post now → (next ()).Runs caps last now) :
    Script.Runs caps (program.bind next) last m := by
  refine Program.Outline.bind Machine.Settles.refl valid (first.fewer ?_) fun _ now valid => goesOn now valid
  exact fun ⟨performed, careful⟩ => ⟨performed, fun mishap => careful (.within mishap)⟩

/-- A part in which there is no mishap to be had. -/
theorem Script.Runs.after {first : Script α} {next : α → Script Unit} {post : α → Machine → Prop}
    (valid : m.Exclusive caps) (leads : first.Leads (Machine.Exclusive caps) post m)
    (goesOn : ∀ value now, now.Exclusive caps → post value now → (next value).Runs caps last now) :
    Script.Runs caps (first.bind next) last m :=
  Program.Outline.bind Machine.Settles.refl valid (leads.fewer fun performed => performed.1) goesOn

theorem Script.Leads.quietly {first : Script α} (uses : first.Uses Harmless) (kept : Kept Harmless holds)
    (base : holds m) : first.Leads (Machine.Exclusive caps) (fun _ => holds) m :=
  .of_harmless uses exclusive_harmless kept base

end Rules

/-- A new cap leaves the services as they are. -/
theorem exclusive_updateMemory {before after : Machine} {bytes : Nat} {exit : Exit}
    (performed : before.Performs (.updateMemory bytes) exit after) (valid : before.Exclusive caps)
    (lacks : after.Lacks .keda) : after.Exclusive caps := by
  refine ⟨?_, fun n found present => absurd (lacks n found) present⟩
  rcases valid.services with down | trimmed
  · have starts : ¬ StartsNode (.updateMemory bytes) := id
    exact Or.inl (nodeDown_kept starts performed.frame down)
  · refine Or.inr fun s isMoved runs => ?_
    rcases performed.frame.compose s runs with old | ⟨_, _, impossible, -⟩
    · exact trimmed s isMoved old
    · cases impossible

/-- Without KEDA any cap will do. -/
theorem updateMemory_without_keda (lacks : m.Lacks .keda) (bytes : Nat) :
    (updateMemory bytes).Leads (Machine.Exclusive caps) (fun _ m => m.Lacks .keda) m :=
  updateMemory_without exclusive_updateMemory lacks bytes

theorem setCap_without_keda (valid : m.Exclusive caps) (lacks : m.Lacks .keda) (bytes : Nat) :
    (setCap bytes).Leads (Machine.Exclusive caps) (fun _ m => m.Lacks .keda) m :=
  setCap_without exclusive_updateMemory exclusive_harmless valid lacks bytes

/-- Beside a stopped node any service may be started. -/
theorem composeUp_beside_nothing (down : m.NodeDown) (noDeps : Bool) (services : List ComposeService) :
    (composeUp noDeps services).Leads (Machine.Exclusive caps) (fun _ m => m.NodeDown) m := by
  intro now settled ⟨_, keda⟩ exit after performed
  have still : now.NodeDown := nodeDown_harmless.settled settled down
  have starts : ¬ StartsNode (.composeUp noDeps services) := id
  have downAfter : after.NodeDown := nodeDown_kept starts performed.frame still
  cases performed with
  | composeStarted started _ _ =>
    exact ⟨⟨Or.inl downAfter, keda⟩, Script.Leads.ofExit nodeDown_harmless fun _ => downAfter⟩

theorem neutral_up {services : List ComposeService} (nonempty : services ≠ []) (stay : ∀ s ∈ services, s ∉ moved)
    (noDeps : Bool) : (composeUp noDeps services).Uses (ModeNeutral caps) :=
  ⟨not_wanted nonempty stay noDeps, uses_ofExit⟩

/-- What a node that is not seen running is known to be. -/
theorem nodeRunning_tells {holds : Machine → Prop}
    {perform : Script Bool → Machine → (ask : MachineCommand) → MachineAnswer ask → Machine → Prop}
    (kept : Kept Harmless holds)
    (performs : ∀ {rest before ask answer after}, perform rest before ask answer after →
      before.Performs ask answer after)
    (tells : ∀ {now after} (answer : Option Bool), m.Settles now →
      perform nodeRunning now .inspectRunning answer after → answer ≠ some true → holds now) :
    nodeRunning.Outline Machine.Settles perform (Machine.Exclusive caps) (fun isRunning m => isRunning = false → holds m)
      m := by
  intro now settled valid answer after performed
  have told : (answer : Option Bool) ≠ some true → holds now := tells answer settled performed
  have same : after = now := by cases performs performed <;> rfl
  subst same
  refine ⟨valid, fun later settles _ unseen => kept.settled settles (told ?_)⟩
  intro isTrue
  rw [isTrue] at unseen
  cases unseen

/-- A node that runs and is not found running could not be inspected. -/
theorem Machine.Performs.unseen {after : Machine} {n : KindNode} {answer : Option Bool}
    (performed : m.Performs .inspectRunning answer after) (unseen : answer ≠ some true) (found : m.node = some n)
    (runs : n.running = true) : answer = none := by
  cases performed with
  | @nodeRunning n' found' =>
    obtain rfl : n = n' := Option.some.inj (found.symm.trans found')
    exact absurd (congrArg some runs) unseen
  | runningUnknown => rfl

theorem toCompose_runs (valid : m.Exclusive caps) : toCompose.Runs caps Machine.NodeDown m := by
  refine Program.Outline.bind Machine.Settles.refl valid
    (nodeRunning_tells nodeDown_harmless (fun performed => performed.1) ?_) ?_
  · rintro now after answer - ⟨performed, careful⟩ unseen n found
    by_contra runs
    have isRunning : n.running = true := by simpa using runs
    obtain rfl := performed.unseen unseen found isRunning
    exact careful (.nodeUnseen found isRunning)
  · intro isRunning now valid down
    have stopped : Script.Leads (Machine.Exclusive caps) (if isRunning then stopNode else .pure ())
        (fun _ m => m.NodeDown) now := by
      cases isRunning with
      | false => exact .pure nodeDown_harmless (down rfl)
      | true =>
        intro later _ valid exit after performed
        have harmless : Harmless .stopNode := trivial
        refine ⟨exclusive_harmless harmless performed.frame valid, Script.Leads.ofExit nodeDown_harmless fun succeeded => ?_⟩
        cases performed with
        | stopped =>
          rintro n ⟨⟩
          rfl
        | notStopped => cases succeeded
    refine Script.Runs.of_leads (.bind valid stopped ?_)
    intro _ now valid down
    refine .bind valid (composeUp_beside_nothing down false _) ?_
    intro _ now valid down
    refine .bind valid (.quietly (attempt_uses (fun _ => id) _) nodeDown_harmless down) ?_
    intro _ now valid down
    exact composeUp_beside_nothing down false []

theorem kfpKeep_not_moved : ∀ s ∈ kfpKeep, s ∉ moved := by decide

/-- After `trim_compose kfp` only services of the kfp set run. -/
theorem trimCompose_runs {holds : Machine → Prop} (valid : m.Exclusive caps) (kept : Kept Harmless holds) (base : holds m) :
    (trimCompose .kfp).Runs caps (fun m => m.Trimmed ∧ holds m) m := by
  refine .after valid (.quietly (extra_uses (fun _ => id) .kfp) kept base) ?_
  intro more now valid still
  have stop : Program.Uses Harmless (if more = [] then .pure () else composeStop more) := uses_else ⟨trivial, uses_ofExit⟩
  refine .bind valid (.of_leads (.quietly stop kept still)) ?_
  intro now valid still later settled validLater answer after ⟨performed, careful⟩
  have stillLater : holds later := kept.settled settled still
  have trimmed : (((answer : Option (List ComposeService)).getD []).filter (· ∉ kfpKeep)) = [] → later.Trimmed := by
    intro noneMoved s isMoved runs
    cases performed with
    | running =>
      have outside := List.filter_eq_nil_iff.mp noneMoved s runs
      have isKept : s ∈ kfpKeep := by simpa using outside
      exact kfpKeep_not_moved s isKept isMoved
    | psFails => exact careful (.movedUnseen fun trimmed => trimmed s isMoved runs)
  have same : after = later := by cases performed <;> rfl
  subst same
  refine ⟨validLater, ?_⟩
  show Script.Runs caps (if ((answer : Option (List ComposeService)).getD []).filter (· ∉ kfpKeep) = [] then .pure ()
    else .raise ()) _ after
  split
  · rename_i noneMoved
    exact .of_leads (.pure (trimmed_harmless.and kept) ⟨trimmed noneMoved, stillLater⟩)
  · trivial

/-- The node is started beside the kfp set. -/
theorem startNodeInKfpEnvelope_runs {holds : Machine → Prop} (valid : m.Exclusive caps)
    (kept : Kept (· ≠ .applyNamespace .keda) holds) (base : holds m) :
    (startNodeInKfpEnvelope caps).Runs caps holds m := by
  have keptQuietly : Kept Harmless holds := kept.mono fun _ harmless => harmless.ne_applyNamespace .keda
  refine .bind valid (trimCompose_runs valid keptQuietly base) ?_
  intro now valid facts
  have installs : ∀ command, ModeNeutral caps command → command ≠ .applyNamespace .keda := by
    rintro command neutral rfl
    exact neutral rfl
  have factsKept : Kept (ModeNeutral caps) fun m => m.Trimmed ∧ holds m := trimmed_kept.and (kept.mono installs)
  have raises : ModeNeutral caps (.updateMemory caps.kfp) :=
    Nat.ne_of_gt (Nat.lt_trans caps.k8s_lt_scale caps.scale_lt_kfp)
  refine .bind valid (.of_neutral (setCap_uses Harmless.modeNeutral raises) factsKept facts) ?_
  intro now valid facts
  have factsQuietly : Kept Harmless fun m => m.Trimmed ∧ holds m := trimmed_harmless.and keptQuietly
  refine .after valid (.quietly (nodeRunning_uses fun _ => id) factsQuietly facts) ?_
  intro isRunning now valid facts
  have started : Script.Leads (Machine.Exclusive caps) (if isRunning then .pure () else startNode)
      (fun _ m => holds m) now := by
    split
    · exact .pure keptQuietly facts.2
    · intro later settled ⟨_, keda⟩ exit after performed
      have trimmed : later.Trimmed := trimmed_harmless.settled settled facts.1
      have isOther : MachineCommand.startNode ≠ .applyNamespace .keda := by rintro ⟨⟩
      have still : holds after := kept isOther performed.frame (keptQuietly.settled settled facts.2)
      refine ⟨?_, Script.Leads.ofExit keptQuietly fun _ => still⟩
      cases performed with
      | @started n _ found =>
        refine ⟨Or.inr trimmed, ?_⟩
        rintro _ ⟨⟩ present
        exact keda n found present
      | notStarted => exact ⟨Or.inr trimmed, keda⟩
  refine .bind valid (.of_leads started) ?_
  intro now _ still
  exact .of_leads (.quietly (waitApi_uses (fun _ => id) 60) keptQuietly still)

theorem toKfp_runs (valid : m.Exclusive caps) : (toKfp caps).Runs caps (fun _ => True) m := by
  refine .after valid (.quietly (clusterExists_uses fun _ => id) .anything trivial) ?_
  rintro found now valid -
  cases found with
  | false => trivial
  | true =>
    refine .bind valid (startNodeInKfpEnvelope_runs valid .anything trivial) ?_
    rintro now valid -
    refine .bind valid (.neutral (neutral_up (by decide) kfpKeep_not_moved false)) ?_
    rintro now - -
    exact .neutral ((succeeds_uses Harmless.modeNeutral _).bind fun _ => uses_then (run_uses Harmless.modeNeutral _))

/-- A running node has no KEDA. -/
def Machine.NoKedaRunning (m : Machine) : Prop := ∀ n, m.node = some n → n.running = true → n.phase .keda = .absent

theorem noKedaRunning_harmless : Kept Harmless Machine.NoKedaRunning := by
  intro before command after harmless frame without n found runs
  by_contra present
  rcases frame.node n found with ⟨old, foundOld, fromOld⟩ | ⟨-, rfl⟩
  · rcases fromOld.running runs with ran | rfl
    · rcases fromOld.phase .keda present with there | applies
      · exact there (without old foundOld ran)
      · exact harmless.ne_applyNamespace .keda applies
    · exact harmless
  · exact present rfl

/-- The API that takes the request to delete is that of a running node. -/
theorem kfpDown_leads_exclusive (valid : m.Exclusive caps) (without : m.NoKedaRunning) (timeout : Nat) :
    (kfpDown caps timeout).Leads (Machine.Exclusive caps) (fun _ _ => True) m := by
  refine .bind valid (.quietly (clusterExists_uses fun _ => id) noKedaRunning_harmless without) ?_
  intro found now valid without
  cases found with
  | false => trivial
  | true =>
    refine .bind valid (.quietly (run_uses (fun _ => id) _) noKedaRunning_harmless without) ?_
    intro _ now valid without
    have deletes : Script.Leads (Machine.Exclusive caps) (.call (.deleteNamespace .kubeflow) ofExit)
        (fun _ m => m.Lacks .keda) now := by
      intro later settled valid exit after performed
      have still : later.NoKedaRunning := noKedaRunning_harmless.settled settled without
      have harmless : Harmless (.deleteNamespace .kubeflow) := trivial
      refine ⟨exclusive_harmless harmless performed.frame valid, Script.Leads.ofExit (lacks_harmless _) fun succeeded => ?_⟩
      have lacks {n : KindNode} (found : later.node = some n) (runs : n.running = true) : later.Lacks .keda := by
        intro other foundOther
        obtain rfl : n = other := Option.some.inj (found.symm.trans foundOther)
        exact still n found runs
      have kept : later.Lacks .keda → after.Lacks .keda := lacks_harmless .keda harmless performed.frame
      cases performed with
      | namespaceDeleted _ found runs _ => exact kept (lacks found runs)
      | nothingToDelete _ found runs _ => exact kept (lacks found runs)
      | namespaceNotDeleted => cases succeeded
    refine .bind valid deletes ?_
    intro _ now valid lacks
    refine .bind valid (.quietly (waitGone_uses (fun _ => id) _) (lacks_harmless _) lacks) ?_
    intro _ now _ lacks
    exact (updateMemory_without_keda lacks caps.k8s).mono fun _ _ _ _ => trivial

theorem Machine.Lacks.noKedaRunning (lacks : m.Lacks .keda) : m.NoKedaRunning := fun n found _ => lacks n found

theorem leaveScale_leads (valid : m.Exclusive caps) (lacks : m.Lacks .keda) :
    (leaveScale caps).Leads (Machine.Exclusive caps) (fun _ _ => True) m := by
  refine .bind valid (.quietly (run_uses (fun _ => id) _) (lacks_harmless _) lacks) ?_
  intro _ now valid lacks
  refine .bind valid (.quietly (rollouts_uses fun _ => id) (lacks_harmless _) lacks) ?_
  intro _ now valid lacks
  exact (setCap_without_keda valid lacks caps.k8s).mono fun _ _ _ _ => trivial

theorem settleNode_runs (valid : m.Exclusive caps) (lacks : m.Lacks .keda) (timeout : Nat) :
    (settleNode caps timeout).Runs caps (fun _ => True) m := by
  refine .after valid (.quietly (inScale_uses (fun _ => id) caps) (lacks_harmless _) lacks) ?_
  intro scale now valid lacks
  cases scale with
  | true => exact .of_leads (leaveScale_leads valid lacks)
  | false =>
    refine .after valid (.quietly (outsideK8s_uses (fun _ => id) caps) (lacks_harmless _) lacks) ?_
    intro outside now valid lacks
    cases outside with
    | true =>
      refine .bind valid (startNodeInKfpEnvelope_runs valid (lacks_kept .keda) lacks) ?_
      intro now valid lacks
      refine .after valid (.quietly (installed_uses (fun _ => id) _) (lacks_harmless _) lacks) ?_
      intro kfp now valid lacks
      cases kfp with
      | true => exact .of_leads (kfpDown_leads_exclusive valid lacks.noKedaRunning timeout)
      | false => exact .of_leads ((setCap_without_keda valid lacks caps.k8s).mono fun _ _ _ _ => trivial)
    | false => exact .neutral ((installed_uses Harmless.modeNeutral _).bind fun _ => uses_ite trivial trivial)

/-- `to_k8s` goes on only without KEDA. -/
theorem refuseKeda_runs (valid : m.Exclusive caps)
    (stopped : ∀ n, m.node = some n → n.running = false → n.phase .keda = .absent) :
    refuseKeda.Runs caps (Machine.Lacks .keda) m := by
  refine Program.Outline.bind Machine.Settles.refl valid
    (nodeRunning_tells (lacks_harmless .keda) (fun performed => performed.1) ?_) ?_
  · rintro now after answer settled ⟨performed, careful⟩ unseen n found
    obtain ⟨old, foundOld, running, -, phase⟩ := settled.node n found
    by_contra present
    have presentOld : old.phase .keda ≠ .absent := by
      rcases phase .keda with same | ⟨-, gone⟩
      · rwa [← same]
      · exact absurd gone present
    have isRunning : n.running = true := by
      by_contra stops
      exact presentOld (stopped old foundOld (by simpa [running] using stops))
    obtain rfl := performed.unseen unseen found isRunning
    exact careful (.kedaUnseen found isRunning present)
  · intro isRunning now valid lacks
    cases isRunning with
    | false => exact Script.Runs.of_leads (.pure (lacks_harmless _) (lacks rfl))
    | true =>
      refine Script.Runs.after valid (installed_leads .anything trivial .keda) ?_
      rintro keda now - ⟨absent, -⟩
      cases keda with
      | true => trivial
      | false => exact Script.Runs.of_leads (.pure (lacks_harmless _) (absent rfl))

/-- A cluster that has the k8s cap has no KEDA. -/
theorem k8sUpExisting_leads (valid : m.Exclusive caps) :
    (k8sUpExisting caps).Leads (Machine.Exclusive caps) (fun _ m => m.Lacks .keda) m := by
  refine .bind valid (.quietly (nodeRunning_uses fun _ => id) .anything trivial) ?_
  rintro isRunning now valid -
  cases isRunning with
  | false => trivial
  | true =>
    refine .bind valid (.quietly (installed_uses (fun _ => id) .kubeflow) .anything trivial) ?_
    rintro kfp now valid -
    cases kfp with
    | true => trivial
    | false =>
      refine .bind valid (nodeCap_leads .anything trivial) ?_
      rintro cap now ⟨-, keda⟩ ⟨capped, -⟩
      show Script.Leads _ (if cap = some caps.k8s then .pure () else .raise ()) _ now
      split
      · rename_i isCap
        refine .pure (lacks_harmless _) fun n found => ?_
        by_contra present
        exact keda n found present (capped caps.k8s isCap n found)
      · trivial

/-- A cluster is created only beside no moved service. -/
theorem k8sUpCluster_runs : (k8sUpCluster caps).Runs caps (Machine.Lacks .keda) m := by
  intro now _ valid answer after ⟨performed, careful⟩
  have trimmed : now.node = none → now.Trimmed := by
    intro absent
    by_contra runs
    exact careful (.notStopped answer absent runs)
  have same : after = now := by cases performed; rfl
  subst same
  refine ⟨valid, ?_⟩
  match (answer : Bool) with
  | true => exact Script.Runs.of_leads (k8sUpExisting_leads valid)
  | false =>
    intro later settles ⟨services, keda⟩ exit created ⟨performed, _⟩
    cases performed with
    | created _ absent =>
      have absentNow : after.node = none := by
        have same := settles.exists_node
        rw [absent] at same
        cases here : after.node with
        | none => rfl
        | some n =>
          rw [here] at same
          cases same
      have trimmedLater : later.Trimmed := trimmed_harmless.settled settles (trimmed absentNow)
      have lacks : Machine.Lacks .keda { later with node := some .fresh } := by
        rintro n ⟨⟩
        rfl
      exact ⟨⟨Or.inr trimmedLater, fun n found present => absurd (lacks n found) present⟩,
        Script.Runs.of_leads (Script.Leads.ofExit (lacks_harmless _) fun _ => lacks)⟩
    | notCreated => exact ⟨⟨services, keda⟩, trivial⟩

theorem k8sUp_runs : (k8sUp caps).Runs caps (fun _ => True) m := by
  intro now _ valid exit after ⟨performed, _⟩
  have harmless : Harmless (.composeStop moved) := trivial
  have validAfter : after.Exclusive caps := exclusive_harmless harmless performed.frame valid
  refine ⟨validAfter, Script.Runs.bind validAfter k8sUpCluster_runs ?_⟩
  intro now valid lacks
  refine .bind valid (.of_leads (updateMemory_without_keda lacks caps.k8s)) ?_
  intro now _ _
  exact .neutral (k8sUpWorkloads_uses Harmless.modeNeutral (not_wanted (by decide) (by decide) true))

theorem k8sDown_runs : k8sDown.Runs caps (fun _ => True) m := by
  intro now _ valid exit after ⟨performed, _⟩
  have harmless : Harmless .kindDelete := trivial
  refine ⟨exclusive_harmless harmless performed.frame valid, ?_⟩
  intro later _ valid exit' handed ⟨performed, careful⟩
  have down : later.NodeDown := by
    by_contra runs
    exact careful (.notDeleted exit' runs)
  have same : handed = later := by cases performed; rfl
  subst same
  refine ⟨valid, ?_⟩
  exact Script.Runs.of_leads ((composeUp_beside_nothing down true _).mono fun _ _ _ _ => trivial)

theorem upAllowed_runs : upAllowed.Runs caps (fun _ => True) m := by
  intro now _ valid answer after ⟨performed, careful⟩
  cases performed with
  | services =>
    have neutral : (composeUp false (ComposeService.all.filter (· ∉ moved))).Uses (ModeNeutral caps) :=
      neutral_up (by decide) (by decide) false
    exact ⟨valid, Script.Runs.neutral neutral⟩
  | configFails =>
    have down : now.NodeDown := by
      by_contra runs
      exact careful (.unlisted runs)
    exact ⟨valid, Script.Runs.of_leads ((composeUp_beside_nothing down false []).mono fun _ _ _ _ => trivial)⟩

theorem toK8s_runs (valid : m.Exclusive caps)
    (stopped : ∀ n, m.node = some n → n.running = false → n.phase .keda = .absent) (timeout : Nat) {next : Script Unit}
    (rest : next.Uses (ModeNeutral caps)) : (toK8s caps timeout next).Runs caps (fun _ => True) m := by
  have looks : clusterExists.Leads (Machine.Exclusive caps)
      (fun _ m => ∀ n, m.node = some n → n.running = false → n.phase .keda = .absent) m := by
    have settled {before after : Machine} (settles : before.Settles after)
        (without : ∀ n, before.node = some n → n.running = false → n.phase .keda = .absent) :
        ∀ n, after.node = some n → n.running = false → n.phase .keda = .absent := by
      intro n found stops
      obtain ⟨old, foundOld, running, -, phase⟩ := settles.node n found
      rcases phase .keda with same | ⟨-, gone⟩
      · rw [same]
        exact without old foundOld (running ▸ stops)
      · exact gone
    intro now settles valid answer after performed
    cases performed
    exact ⟨valid, fun later settles' _ => settled settles' (settled settles stopped)⟩
  refine .after valid looks ?_
  intro found now valid stopped
  cases found with
  | true =>
    refine .bind valid (refuseKeda_runs valid stopped) ?_
    intro now valid lacks
    refine .bind valid (settleNode_runs valid lacks timeout) ?_
    rintro now valid -
    refine .bind valid (.neutral (trimCompose_uses Harmless.modeNeutral .k8s)) ?_
    rintro now valid -
    refine .bind valid upAllowed_runs ?_
    rintro now valid -
    refine .bind valid k8sUp_runs ?_
    rintro now - -
    exact .neutral rest
  | false =>
    refine .bind valid (.neutral (trimCompose_uses Harmless.modeNeutral .k8s)) ?_
    rintro now - -
    exact k8sUp_runs

theorem toScale_uses : (toScale caps).Uses (ModeNeutral caps) := by
  have raises : ModeNeutral caps (.updateMemory caps.scale) := Nat.ne_of_gt caps.k8s_lt_scale
  refine (check_uses Harmless.modeNeutral caps .k8s).bind fun _ => uses_ite ?_ ?_
  · exact (setCap_uses Harmless.modeNeutral raises).bind fun _ => trimCompose_uses Harmless.modeNeutral .scale
  · exact (check_uses Harmless.modeNeutral caps .k8s).bind fun _ => trivial

theorem kfpUp_uses : (kfpUp caps).Uses (ModeNeutral caps) := by
  have ran (command : String) : (run command).Uses (ModeNeutral caps) := run_uses Harmless.modeNeutral command
  have installs : ModeNeutral caps (.applyNamespace .kubeflow) := by rintro ⟨⟩
  refine (checkMode_uses Harmless.modeNeutral caps .kfp).bind fun _ => ?_
  refine Program.Uses.bind ⟨installs, uses_ofExit⟩ fun _ => (ran _).bind fun _ => (ran _).bind fun _ => ?_
  refine (ran _).bind fun _ => (attempt_uses Harmless.modeNeutral _).bind fun _ => ?_
  refine (uses_each (fun _ => attempt_uses Harmless.modeNeutral _) _).bind fun _ => ?_
  exact (ran _).bind fun _ => ran _

/-- KEDA is installed after a check for the scale cap. -/
theorem autoscalingUp_leads (valid : m.Exclusive caps) :
    (autoscalingUp caps).Leads (Machine.Exclusive caps) (fun _ _ => True) m := by
  have ran (command : String) : (run command).Uses Harmless := run_uses (fun _ => id) command
  refine .bind valid (checkMode_leads exclusive_harmless valid rfl) ?_
  intro _ now valid checked
  have capKept : Kept Harmless (Machine.HasCap caps.scale) := hasCap_harmless caps.scale
  refine .bind valid (.quietly (ran _) capKept checked.cap) ?_
  intro _ now valid capped
  refine .bind valid (.quietly (ran _) capKept capped) ?_
  intro _ now valid capped
  refine .bind valid (.quietly (succeeds_uses (fun _ => id) _) capKept capped) ?_
  intro absent now valid capped
  refine .bind valid (.quietly (uses_then (ran _)) capKept capped) ?_
  intro _ now valid capped
  refine .bind valid (.quietly (ran _) capKept capped) ?_
  intro _ now valid capped
  refine .bind valid (.quietly (ran _) capKept capped) ?_
  intro _ now valid capped
  have installs : Script.Leads (Machine.Exclusive caps) (.call (.applyNamespace .keda) ofExit) (fun _ _ => True) now := by
    intro later settled ⟨services, keda⟩ exit after performed
    have cappedLater : later.HasCap caps.scale := capKept.settled settled capped
    refine ⟨?_, Script.Leads.ofExit .anything fun _ => trivial⟩
    cases performed with
    | applied exit found isRunning settling =>
      rename_i n
      refine ⟨?_, ?_⟩
      · rcases services with down | trimmed
        · refine Or.inl ?_
          rintro _ ⟨⟩
          exact down n found
        · exact Or.inr trimmed
      · rintro _ ⟨⟩ -
        show n.memory ≠ caps.k8s
        rw [cappedLater n found]
        exact Nat.ne_of_gt caps.k8s_lt_scale
    | notApplied => exact ⟨services, keda⟩
  refine .bind valid installs ?_
  rintro - now - -
  refine .quietly ?_ .anything trivial
  refine (uses_each (fun _ => ran _) _).bind fun _ => ?_
  refine (uses_each (fun _ => attempt_uses (fun _ => id) _) _).bind fun _ => (ran _).bind fun _ => ?_
  exact (awaitTop_uses (fun _ => id) 24).bind fun _ => ran _

theorem script_runs (valid : m.Exclusive caps) (timeout : Nat) (invocation : Invocation) (ready : invocation.Ready m) :
    (invocation.script caps timeout).Runs caps (fun _ => True) m := by
  have asked : (status caps).Uses (ModeNeutral caps) := status_uses Harmless.modeNeutral caps
  cases invocation with
  | status => exact .neutral asked
  | check which => exact .neutral (checkMode_uses Harmless.modeNeutral caps which)
  | mode which =>
    cases which with
    | compose => exact .bind valid (toCompose_runs valid) fun _ _ _ => .neutral asked
    | k8s => exact toK8s_runs valid ready timeout asked
    | scale => exact .neutral (toScale_uses.bind fun _ => asked)
    | kfp => exact .bind valid (toKfp_runs valid) fun _ _ _ => .neutral asked
  | k8sUp => exact k8sUp_runs
  | k8sDown => exact k8sDown_runs
  | kfpUp => exact .neutral kfpUp_uses
  | kfpDown => exact .of_leads (kfpDown_leads_exclusive valid ready timeout)
  | autoscalingUp => exact .of_leads (autoscalingUp_leads valid)
  | autoscalingDown => exact .neutral (autoscalingDown_uses Harmless.modeNeutral)

end

/-- No moved service in Compose beside a running node, and no KEDA in a node
with the k8s cap, in every run of a careful operator. -/
theorem modes_exclusive {caps : Caps} {timeout : Nat} {operator : Operator}
    (reach : Reach (Guarded (OperatorStep caps timeout) (Careful caps)) ⟨{}, none⟩ operator) {n : KindNode}
    (found : operator.state.node = some n) (runs : n.running = true) :
    (∀ s ∈ moved, s ∉ operator.state.compose) ∧ ¬ (n.phase .keda ≠ .absent ∧ n.memory = caps.k8s) := by
  have base : ({} : Machine).Exclusive caps := by
    refine ⟨Or.inl ?_, ?_⟩
    · rintro n ⟨⟩
    · rintro n ⟨⟩
  have valid : operator.state.Exclusive caps := by
    refine Session.invariant Machine.Settles.refl Machine.Settles.trans reach base rfl ?_ ?_
    · exact fun settled before => exclusive_harmless.settled settled before
    · intro m invocation ready valid
      refine (script_runs valid timeout invocation ready).fewer ?_
      exact fun ⟨performed, careful⟩ => ⟨performed, careful _ rfl⟩
  constructor
  · rcases valid.services with down | trimmed
    · rw [down n found] at runs
      cases runs
    · exact trimmed
  · rintro ⟨present, cap⟩
    exact valid.keda n found present cap

/-- The command that a script makes first, and the one after it where that
one succeeds. -/
def Script.first : Script Unit → Option MachineCommand
  | .call ask _ => some ask
  | _ => none

def Machine.following (m : Machine) : Script Unit → Option MachineCommand
  | .call ask resume => Script.first (resume (m.answer ask).1)
  | _ => none

theorem Script.first_bind {program : Script Unit} {command : MachineCommand} (found : Script.first program = some command)
    (next : Unit → Script Unit) : Script.first (program.bind next) = some command := by
  cases program with
  | call => exact found
  | pure | raise => cases found

theorem Machine.following_bind {m : Machine} {program : Script Unit} {command : MachineCommand}
    (found : m.following program = some command) (next : Unit → Script Unit) :
    m.following (program.bind next) = some command := by
  cases program with
  | call => exact Script.first_bind found next
  | pure | raise => cases found

/-- What each mishap takes. -/
def MishapTakes (rest : Script Unit) (m : Machine) : (ask : MachineCommand) → MachineAnswer ask → Prop
  | .inspectRunning, answer => m.node ≠ none ∧ (answer : Option Bool) = none
  | .composePs, answer | .composeConfig, answer => (answer : Option (List ComposeService)) = none
  | .kindGetClusters, _ => m.following rest = some .kindCreate ∧ ¬ m.Trimmed
  | .run _, _ => m.following rest = some (.composeUp true (.airflow :: moved)) ∧ ¬ m.NodeDown
  | _, _ => False

theorem Mishap.takes {caps : Caps} {rest : Script Unit} {m : Machine} {ask : MachineCommand} {answer : MachineAnswer ask}
    (mishap : Mishap caps rest m ask answer) : MishapTakes rest m ask answer := by
  induction mishap with
  | nodeUnseen found | kedaUnseen found => exact ⟨by simp [found], rfl⟩
  | movedUnseen | unlisted => rfl
  | notDeleted _ runs => exact ⟨rfl, runs⟩
  | @notStopped m _ absent runs =>
    refine ⟨?_, runs⟩
    show Script.first (if m.node.isSome then k8sUpExisting caps else .call .kindCreate ofExit) = some .kindCreate
    rw [absent]
    rfl
  | @within program next m ask answer _ ih =>
    cases ask with
    | inspectRunning | composePs | composeConfig => exact ih
    | kindGetClusters | run => exact ⟨Machine.following_bind ih.1 next, ih.2⟩
    | _ => exact ih.elim

/-- The services are stopped when the cluster is made, and the cluster gone
when they are handed back. -/
def Machine.Smooth (rest : Script Unit) (m : Machine) : MachineCommand → Prop
  | .kindGetClusters => m.following rest = some .kindCreate → m.Trimmed
  | .run _ => m.following rest = some (.composeUp true (.airflow :: moved)) → m.NodeDown
  | _ => True

instance (m : Machine) : Decidable m.Trimmed := inferInstanceAs (Decidable (∀ s ∈ moved, s ∉ m.compose))

instance (m : Machine) : Decidable m.NodeDown := inferInstanceAs (Decidable (∀ n ∈ m.node, n.running = false))

instance (rest : Script Unit) (m : Machine) (command : MachineCommand) : Decidable (m.Smooth rest command) := by
  cases command <;> unfold Machine.Smooth <;> infer_instance

theorem Machine.Smooth.careful {caps : Caps} {rest : Script Unit} {m : Machine} {command : MachineCommand}
    (smooth : m.Smooth rest command) : Careful caps ⟨m, some rest⟩ (.call ⟨command, (m.answer command).1⟩) := by
  rintro _ ⟨⟩ mishap
  have takes := mishap.takes
  cases command with
  | inspectRunning =>
    obtain ⟨there, unseen⟩ := takes
    exact there (Option.map_eq_none_iff.mp unseen)
  | composePs | composeConfig => cases takes
  | kindGetClusters | run => exact takes.2 (smooth takes.1)
  | _ => exact takes

/-- A script that runs to its end, where all its commands succeed. -/
theorem reach_smooth {caps : Caps} {timeout : Nat} {origin : Operator} {m : Machine}
    (reach : Reach (Guarded (OperatorStep caps timeout) (Careful caps)) origin ⟨m, none⟩) (invocation : Invocation)
    (ready : invocation.Ready m)
    (smooth : (invocation.script caps timeout).Throughout Machine.answer (fun rest m => m.Smooth rest) m) :
    Reach (Guarded (OperatorStep caps timeout) (Careful caps)) origin
      ⟨((invocation.script caps timeout).eval Machine.answer m).2, none⟩ :=
  Session.reach_eval_allowed Machine.answer_performs reach invocation ready (fun _ => trivial)
    (smooth.mono fun _ _ _ => Machine.Smooth.careful)

/-- All services in Compose, and then the move to a first cluster. -/
theorem moved_exclusive : ∃ operator : Operator,
    Reach (Guarded (OperatorStep .default 300) (Careful .default)) ⟨{}, none⟩ operator ∧ operator.running = none ∧
      ComposeService.airflow ∈ operator.state.compose ∧
      ∃ n, operator.state.node = some n ∧ n.running = true ∧ (∀ s ∈ moved, s ∉ operator.state.compose) ∧
        ¬ (n.phase .keda ≠ .absent ∧ n.memory = Caps.default.k8s) := by
  let started := Machine.after [.mode .compose]
  let final := Machine.after [.mode .compose, .k8sUp]
  have composed : Reach (Guarded (OperatorStep .default 300) (Careful .default)) ⟨{}, none⟩ ⟨started, none⟩ := by
    refine reach_smooth .refl (.mode .compose) trivial (by decide +kernel)
  have reach : Reach (Guarded (OperatorStep .default 300) (Careful .default)) ⟨{}, none⟩ ⟨final, none⟩ := by
    refine reach_smooth composed .k8sUp trivial (by decide +kernel)
  have running : final.node.map (·.running) = some true := by decide +kernel
  obtain ⟨n, found, runs⟩ := Option.map_eq_some_iff.mp running
  exact ⟨_, reach, rfl, by decide +kernel, n, found, runs, modes_exclusive reach found runs⟩

/-- The machine whose cluster cannot be deleted. -/
def Machine.answerUndeleted (m : Machine) : (command : MachineCommand) → MachineAnswer command × Machine
  | .kindDelete => ((.error () : Exit), m)
  | command => m.answer command

theorem Machine.answerUndeleted_performs (m : Machine) (command : MachineCommand) :
    m.Performs command (m.answerUndeleted command).1 (m.answerUndeleted command).2 := by
  cases command with
  | kindDelete => exact .notDeleted
  | _ => exact m.answer_performs _

/-- When `kind delete` fails, `k8s_down.sh` starts the four services beside
the node; and with no failure at all KEDA, left in a node that compose mode
stopped, comes under the k8s cap. -/
theorem modes_mixed :
    (∃ operator : Operator, Reach (OperatorStep .default 300) ⟨{}, none⟩ operator ∧
      ∃ n, operator.state.node = some n ∧ n.running = true ∧ ∀ s ∈ moved, s ∈ operator.state.compose) ∧
    ∃ operator : Operator, Reach (OperatorStep .default 300) ⟨{}, none⟩ operator ∧
      ∃ n, operator.state.node = some n ∧ n.running = true ∧ n.phase .keda ≠ .absent ∧ n.memory = Caps.default.k8s := by
  constructor
  · have reach := Session.reach_eval Machine.answerUndeleted_performs (reach_after [.mode .k8s]) .k8sDown
    let final := ((Invocation.k8sDown.script .default 300).eval Machine.answerUndeleted (Machine.after [.mode .k8s])).2
    have node : final.node.map (·.running) = some true := by decide +kernel
    have started : ∀ s ∈ moved, s ∈ final.compose := by decide +kernel
    obtain ⟨n, found, runs⟩ := Option.map_eq_some_iff.mp node
    exact ⟨_, reach, n, found, runs, started⟩
  · have reach := reach_after [.mode .k8s, .mode .scale, .autoscalingUp, .mode .compose, .mode .k8s]
    let final := Machine.after [.mode .k8s, .mode .scale, .autoscalingUp, .mode .compose, .mode .k8s]
    have node : final.node.map (fun n => (n.running, n.phase .keda, n.memory)) =
        some (true, .active, Caps.default.k8s) := by decide +kernel
    obtain ⟨n, found, same⟩ := Option.map_eq_some_iff.mp node
    obtain ⟨runs, keda, memory⟩ : n.running = true ∧ n.phase .keda = .active ∧ n.memory = Caps.default.k8s := by
      simpa using same
    refine ⟨_, reach, n, found, runs, ?_, memory⟩
    rw [keda]
    decide

end Amel
