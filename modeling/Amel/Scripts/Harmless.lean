import Amel.Scripts.Modes

namespace Amel

open Script

/-- The commands that only ask or take away. -/
def Harmless : MachineCommand → Prop
  | .kindCreate | .updateMemory _ | .startNode | .applyNamespace _ | .composeUp _ _ => False
  | _ => True

/-- A fact that quiet commands leave standing. -/
def Kept (quiet : MachineCommand → Prop) (holds : Machine → Prop) : Prop :=
  ∀ ⦃before command after⦄, quiet command → before.Frame command after → holds before → holds after

/-- What a script leads to from `m` on while `inv` is kept. -/
abbrev Script.Leads {α : Type} (inv : Machine → Prop) (program : Script α) (post : α → Machine → Prop) (m : Machine) :
    Prop :=
  program.Outline Machine.Settles (fun _ => Machine.Performs) inv post m

section Rules

variable {α β : Type} {quiet : MachineCommand → Prop} {inv holds : Machine → Prop} {program : Script α}
  {next : α → Script β} {post : α → Machine → Prop} {last : β → Machine → Prop} {m now : Machine}

theorem Kept.settled (kept : Kept Harmless holds) (settled : m.Settles now) (before : holds m) : holds now := by
  have asks : Harmless .kindGetClusters := trivial
  exact kept asks (settled.frame _) before

theorem Kept.mono {wider : MachineCommand → Prop} (kept : Kept wider holds) (weaker : ∀ c, quiet c → wider c) :
    Kept quiet holds :=
  fun _ _ _ isQuiet frame before => kept (weaker _ isQuiet) frame before

theorem Kept.and {other : Machine → Prop} (first : Kept quiet holds) (second : Kept quiet other) :
    Kept quiet fun m => holds m ∧ other m :=
  fun _ _ _ isQuiet frame before => ⟨first isQuiet frame before.1, second isQuiet frame before.2⟩

theorem Script.Leads.bind (valid : inv m) (first : program.Leads inv post m)
    (goesOn : ∀ value now, inv now → post value now → (next value).Leads inv last now) :
    Script.Leads inv (program.bind next) last m :=
  Program.Outline.bind Machine.Settles.refl valid first goesOn

theorem Script.Leads.of_uses (uses : program.Uses quiet) (harmless : ∀ c, Harmless c → quiet c)
    (invKept : Kept quiet inv) (kept : Kept quiet holds) (base : holds m) :
    program.Leads inv (fun _ => holds) m :=
  uses.outline (fun settled before => (kept.mono harmless).settled settled before)
    (fun isQuiet performed valid before =>
      ⟨invKept isQuiet performed.frame valid, kept isQuiet performed.frame before⟩) base

theorem Script.Leads.call {command : MachineCommand} {resume : MachineAnswer command → Script α}
    (isQuiet : quiet command) (harmless : ∀ c, Harmless c → quiet c) (invKept : Kept quiet inv)
    (kept : Kept quiet holds) (base : holds m)
    (rest : ∀ answer now, inv now → holds now → (resume answer).Leads inv post now) :
    Script.Leads inv (.call command resume) post m := by
  intro now settled valid answer after performed
  have validAfter : inv after := invKept isQuiet performed.frame valid
  have still : holds now := (kept.mono harmless).settled settled base
  exact ⟨validAfter, rest answer after validAfter (kept isQuiet performed.frame still)⟩

/-- A script that only asks or takes away. -/
theorem Script.Leads.of_harmless (uses : program.Uses Harmless) (invKept : Kept Harmless inv)
    (kept : Kept Harmless holds) (base : holds m) : program.Leads inv (fun _ => holds) m :=
  .of_uses uses (fun _ => id) invKept kept base

theorem Script.Leads.pure {value : α} (kept : Kept Harmless (post value)) (base : post value m) :
    Script.Leads inv (.pure value) post m :=
  fun _ settled _ => kept.settled settled base

theorem Kept.imp (kept : Kept quiet holds) (condition : Prop) : Kept quiet fun m => condition → holds m :=
  fun _ _ _ isQuiet frame before met => kept isQuiet frame (before met)

theorem Kept.anything : Kept quiet fun _ => True := fun _ _ _ _ _ _ => trivial

theorem Script.uses_ofExit (exit : Exit) : (ofExit exit).Uses quiet := by
  cases exit <;> trivial

theorem Script.uses_each {body : α → Script Unit} (eachUses : ∀ value, (body value).Uses quiet) (values : List α) :
    (each body values).Uses quiet := by
  induction values with
  | nil => trivial
  | cons value rest ih => exact (eachUses value).bind fun _ => ih

theorem Script.uses_ite {condition : Prop} [Decidable condition] {other : Script α} (yes : program.Uses quiet)
    (no : other.Uses quiet) : Program.Uses quiet (if condition then program else other) := by
  split
  · exact yes
  · exact no

theorem Script.uses_then {condition : Prop} [Decidable condition] {program : Script Unit} (uses : program.Uses quiet) :
    Program.Uses quiet (if condition then program else .pure ()) :=
  uses_ite uses trivial

theorem Script.uses_else {condition : Prop} [Decidable condition] {program : Script Unit} (uses : program.Uses quiet) :
    Program.Uses quiet (if condition then .pure () else program) :=
  uses_ite trivial uses

theorem Script.Leads.ofExit {exit : Exit} (kept : Kept Harmless holds) (succeeded : exit = .ok () → holds m) :
    (ofExit exit).Leads inv (fun _ => holds) m := by
  cases exit with
  | ok => exact .pure kept (succeeded rfl)
  | error => trivial

end Rules

section Uses

variable {quiet : MachineCommand → Prop} (harmless : ∀ c, Harmless c → quiet c)

include harmless

theorem run_uses (command : String) : (run command).Uses quiet := ⟨harmless _ trivial, uses_ofExit⟩

theorem attempt_uses (command : String) : (attempt command).Uses quiet := ⟨harmless _ trivial, fun _ => trivial⟩

theorem succeeds_uses (command : String) : (succeeds command).Uses quiet := ⟨harmless _ trivial, fun _ => trivial⟩

theorem clusterExists_uses : clusterExists.Uses quiet := ⟨harmless _ trivial, fun _ => trivial⟩

theorem nodeRunning_uses : nodeRunning.Uses quiet := ⟨harmless _ trivial, fun _ => trivial⟩

theorem nodeCap_uses : nodeCap.Uses quiet := ⟨harmless _ trivial, fun _ => trivial⟩

theorem installed_uses (ns : KubeNamespace) : (installed ns).Uses quiet := by
  refine ⟨harmless _ trivial, fun answer => ?_⟩
  match (answer : Except Unit Bool) with
  | .ok found => trivial
  | .error () => trivial

theorem guardAnon_uses (new : Nat) : (guardAnon new).Uses quiet := by
  refine (nodeRunning_uses harmless).bind fun isRunning => uses_ite ?_ trivial
  refine (nodeCap_uses harmless).bind fun cap => uses_ite ?_ trivial
  refine Program.Uses.bind ⟨harmless _ trivial, fun answer => ?_⟩ fun anon => uses_ite trivial trivial
  match (answer : Except Unit Nat) with
  | .ok bytes => trivial
  | .error () => trivial

theorem setCap_uses {new : Nat} (raises : quiet (.updateMemory new)) : (setCap new).Uses quiet :=
  (guardAnon_uses harmless new).bind fun _ => ⟨raises, uses_ofExit⟩

theorem allowed_uses (mode : Mode) : (allowed mode).Uses quiet := by
  cases mode with
  | kfp => trivial
  | _ => exact ⟨harmless _ trivial, fun _ => trivial⟩

theorem extra_uses (mode : Mode) : (extra mode).Uses quiet :=
  (allowed_uses harmless mode).bind fun _ => ⟨harmless _ trivial, fun _ => trivial⟩

theorem checkNode_uses (mode : Mode) (want : Nat) : (checkNode mode want).Uses quiet := by
  refine (nodeRunning_uses harmless).bind fun isRunning => uses_ite ?_ trivial
  refine (nodeCap_uses harmless).bind fun cap => ?_
  have kfp : Program.Uses quiet (if mode = .kfp then .pure false else kfpInstalled : Script Bool) :=
    uses_ite trivial (installed_uses harmless _)
  have keda : Program.Uses quiet (if mode = .k8s then kedaInstalled else .pure false : Script Bool) :=
    uses_ite (installed_uses harmless _) trivial
  exact kfp.bind fun _ => keda.bind fun _ => trivial

theorem check_uses (caps : Caps) (mode : Mode) : (check caps mode).Uses quiet := by
  refine (extra_uses harmless mode).bind fun more => Program.Uses.bind ?_ fun _ => trivial
  cases capFor caps mode with
  | none => exact (nodeRunning_uses harmless).bind fun _ => trivial
  | some want => exact checkNode_uses harmless mode want

theorem checkMode_uses (caps : Caps) (mode : Mode) : (checkMode caps mode).Uses quiet :=
  (check_uses harmless caps mode).bind fun _ => uses_ite trivial trivial

theorem matching_uses (caps : Caps) (choices : List Mode) : (matching caps choices).Uses quiet := by
  induction choices with
  | nil => trivial
  | cons mode rest ih => exact (check_uses harmless caps mode).bind fun _ => uses_ite trivial ih

theorem status_uses (caps : Caps) : (status caps).Uses quiet := by
  have anon : Program.Uses quiet (.call .nodeAnon fun _ => .pure () : Script Unit) := ⟨harmless _ trivial, fun _ => trivial⟩
  have node : Program.Uses quiet (nodeCap.bind fun _ => .call .nodeAnon fun _ => .pure () : Script Unit) :=
    (nodeCap_uses harmless).bind fun _ => anon
  refine (clusterExists_uses harmless).bind fun found => Program.Uses.bind ?_ fun _ => ?_
  · exact uses_ite ((nodeRunning_uses harmless).bind fun _ => uses_ite node trivial) trivial
  · refine Program.Uses.bind ⟨harmless _ trivial, fun _ => trivial⟩ fun _ => ?_
    refine (matching_uses harmless caps modes).bind fun _ => uses_ite trivial ?_
    have again (mode : Mode) : Program.Uses quiet ((check caps mode).bind fun _ => .pure () : Script Unit) :=
      (check_uses harmless caps mode).bind fun _ => trivial
    exact (uses_each again modes).bind fun _ => trivial

theorem verifyTrimmed_uses (mode : Mode) : (verifyTrimmed mode).Uses quiet :=
  (extra_uses harmless mode).bind fun _ => uses_ite trivial trivial

theorem trimCompose_uses (mode : Mode) : (trimCompose mode).Uses quiet := by
  refine (extra_uses harmless mode).bind fun more => Program.Uses.bind ?_ fun _ => verifyTrimmed_uses harmless mode
  exact uses_ite trivial ⟨harmless _ trivial, uses_ofExit⟩

theorem waitApi_uses (turns : Nat) : (waitApi turns).Uses quiet := by
  induction turns with
  | zero => exact (succeeds_uses harmless _).bind fun _ => uses_ite trivial trivial
  | succ turns ih =>
    refine (succeeds_uses harmless _).bind fun _ => uses_ite trivial ?_
    refine Program.Uses.bind ⟨harmless _ trivial, fun _ => trivial⟩ fun _ => uses_ite trivial ?_
    exact (run_uses harmless _).bind fun _ => ih

theorem waitGone_uses (turns : Nat) : (waitGone turns).Uses quiet := by
  induction turns with
  | zero => exact (installed_uses harmless _).bind fun _ => uses_ite trivial trivial
  | succ turns ih =>
    refine (installed_uses harmless _).bind fun _ => uses_ite ?_ trivial
    refine Program.Uses.bind ⟨harmless _ trivial, fun _ => trivial⟩ fun _ => uses_ite trivial ?_
    exact (run_uses harmless _).bind fun _ => ih

theorem refuseKeda_uses : refuseKeda.Uses quiet := by
  refine (nodeRunning_uses harmless).bind fun _ => uses_ite ?_ trivial
  exact (installed_uses harmless _).bind fun _ => uses_ite trivial trivial

theorem inScale_uses (caps : Caps) : (inScale caps).Uses quiet := by
  refine (nodeRunning_uses harmless).bind fun _ => uses_ite ?_ trivial
  refine (nodeCap_uses harmless).bind fun _ => uses_ite ?_ trivial
  exact (installed_uses harmless _).bind fun _ => trivial

theorem outsideK8s_uses (caps : Caps) : (outsideK8s caps).Uses quiet := by
  refine (nodeRunning_uses harmless).bind fun _ => uses_ite ?_ trivial
  exact (nodeCap_uses harmless).bind fun _ => trivial

theorem awaitTop_uses (turns : Nat) : (awaitTop turns).Uses quiet := by
  induction turns with
  | zero => trivial
  | succ turns ih =>
    refine (succeeds_uses harmless _).bind fun _ => uses_ite trivial ?_
    exact (run_uses harmless _).bind fun _ => ih

theorem rollouts_uses : (each (fun deployment => run ("kubectl -n amel rollout status deployment/" ++ deployment))
    deployments).Uses quiet :=
  uses_each (fun _ => run_uses harmless _) deployments

theorem autoscalingDown_uses : autoscalingDown.Uses quiet := by
  refine (attempt_uses harmless _).bind fun _ => ?_
  refine Program.Uses.bind ⟨harmless _ trivial, uses_ofExit⟩ fun _ => ?_
  exact (run_uses harmless _).bind fun _ => (installed_uses harmless _).bind fun _ => trivial

theorem k8sUpWorkloads_uses (airflow : quiet (.composeUp true [.airflow])) : k8sUpWorkloads.Uses quiet := by
  have ran (command : String) : (run command).Uses quiet := run_uses harmless command
  refine (ran _).bind fun _ => (ran _).bind fun _ => (ran _).bind fun _ => (ran _).bind fun _ => ?_
  refine (ran _).bind fun _ => (ran _).bind fun _ => ?_
  refine (uses_each (fun _ => attempt_uses harmless _) _).bind fun _ => ?_
  refine (ran _).bind fun _ => (ran _).bind fun _ => (attempt_uses harmless _).bind fun _ => ?_
  refine (ran _).bind fun _ => (ran _).bind fun _ => ?_
  refine (uses_each (fun _ => (ran _).bind fun _ => ran _) _).bind fun _ => (ran _).bind fun _ => ?_
  refine (rollouts_uses harmless).bind fun _ => ?_
  exact Program.Uses.bind ⟨airflow, uses_ofExit⟩ fun _ => ran _

end Uses

/-- The node, if there is one, does not have the namespace. -/
def Machine.Lacks (ns : KubeNamespace) (m : Machine) : Prop := ∀ n, m.node = some n → n.phase ns = .absent

def Machine.HasCap (bytes : Nat) (m : Machine) : Prop := ∀ n, m.node = some n → n.memory = bytes

theorem lacks_kept (ns : KubeNamespace) : Kept (· ≠ .applyNamespace ns) (Machine.Lacks ns) := by
  intro before command after other frame lacks n found
  by_contra present
  rcases frame.node n found with ⟨old, foundOld, fromOld⟩ | ⟨-, rfl⟩
  · rcases fromOld.phase ns present with there | applies
    · exact there (lacks old foundOld)
    · exact other applies
  · exact present rfl

theorem hasCap_kept (bytes : Nat) :
    Kept (fun command => (∀ other, command ≠ .updateMemory other) ∧ command ≠ .kindCreate) (Machine.HasCap bytes) := by
  intro before command after ⟨notUpdate, notCreate⟩ frame capped n found
  rcases frame.node n found with ⟨old, foundOld, fromOld⟩ | ⟨creates, -⟩
  · rcases fromOld.memory with same | updates
    · rw [same]
      exact capped old foundOld
    · exact absurd updates (notUpdate _)
  · exact absurd creates notCreate

theorem Harmless.ne_applyNamespace {command : MachineCommand} (harmless : Harmless command) (ns : KubeNamespace) :
    command ≠ .applyNamespace ns := by
  rintro rfl
  exact harmless

theorem lacks_harmless (ns : KubeNamespace) : Kept Harmless (Machine.Lacks ns) :=
  (lacks_kept ns).mono fun _ harmless => harmless.ne_applyNamespace ns

theorem hasCap_harmless (bytes : Nat) : Kept Harmless (Machine.HasCap bytes) := by
  refine (hasCap_kept bytes).mono fun command harmless => ⟨?_, ?_⟩
  · rintro other rfl
    exact harmless
  · rintro rfl
    exact harmless

section Queries

variable {inv holds : Machine → Prop} {m : Machine} (kept : Kept Harmless holds) (base : holds m)

include kept base

theorem installed_leads (ns : KubeNamespace) :
    (installed ns).Leads inv (fun found m => (found = false → m.Lacks ns) ∧ holds m) m := by
  intro now settled valid answer after performed
  have still : holds now := kept.settled settled base
  cases performed with
  | @namespaceFound n ns node runs =>
    refine ⟨valid, fun later settles _ => ⟨fun absent => ?_, kept.settled settles still⟩⟩
    have lacks : now.Lacks ns := by
      intro other found
      obtain rfl : n = other := Option.some.inj (node.symm.trans found)
      by_contra present
      exact absurd absent (by simp [present])
    exact (lacks_harmless ns).settled settles lacks
  | namespaceUnknown => exact ⟨valid, trivial⟩

theorem nodeCap_leads :
    nodeCap.Leads inv (fun cap m => (∀ bytes, cap = some bytes → m.HasCap bytes) ∧ holds m) m := by
  intro now settled valid answer after performed
  have still : holds now := kept.settled settled base
  cases performed with
  | @nodeMemory n node =>
    refine ⟨valid, fun later settles _ => ⟨fun bytes same => ?_, kept.settled settles still⟩⟩
    have capped : now.HasCap bytes := by
      intro other found
      obtain rfl : n = other := Option.some.inj (node.symm.trans found)
      exact Option.some.inj same
    exact (hasCap_harmless bytes).settled settles capped
  | memoryUnknown => exact ⟨valid, fun later settles _ => ⟨nofun, kept.settled settles still⟩⟩

end Queries

section Caps

variable {inv : Machine → Prop} {ns : KubeNamespace} {m : Machine}
  (spared : ∀ {before bytes exit after}, before.Performs (.updateMemory bytes) exit after → inv before →
    after.Lacks ns → inv after)

include spared

/-- The cap may change where a namespace is absent, if the invariant asks for
one cap only where it is there. -/
theorem updateMemory_without (lacks : m.Lacks ns) (bytes : Nat) :
    (updateMemory bytes).Leads inv (fun _ m => m.Lacks ns) m := by
  intro now settled valid exit after performed
  have still : now.Lacks ns := (lacks_harmless ns).settled settled lacks
  have installs : MachineCommand.updateMemory bytes ≠ .applyNamespace ns := by rintro ⟨⟩
  have lacksAfter : after.Lacks ns := lacks_kept ns installs performed.frame still
  exact ⟨spared performed valid lacksAfter, Script.Leads.ofExit (lacks_harmless ns) fun _ => lacksAfter⟩

theorem setCap_without (invKept : Kept Harmless inv) (valid : inv m) (lacks : m.Lacks ns) (bytes : Nat) :
    (setCap bytes).Leads inv (fun _ m => m.Lacks ns) m := by
  refine .bind valid (.of_harmless (guardAnon_uses (fun _ => id) bytes) invKept (lacks_harmless ns) lacks) ?_
  intro _ now _ still
  exact updateMemory_without spared still bytes

end Caps

/-- What a passed check says of the node. -/
structure Machine.Checked (mode : Mode) (bytes : Nat) (m : Machine) : Prop where
  cap : m.HasCap bytes
  kfp : mode ≠ .kfp → m.Lacks .kubeflow
  keda : mode = .k8s → m.Lacks .keda

theorem checked_kept (mode : Mode) (bytes : Nat) : Kept Harmless (Machine.Checked mode bytes) := by
  intro before command after harmless frame ⟨cap, kfp, keda⟩
  exact ⟨hasCap_harmless bytes harmless frame cap, fun not => lacks_harmless .kubeflow harmless frame (kfp not),
    fun isK8s => lacks_harmless .keda harmless frame (keda isK8s)⟩

section Check

variable {inv : Machine → Prop} {m : Machine} (invKept : Kept Harmless inv)

include invKept

theorem checkNode_leads (valid : inv m) (mode : Mode) (want : Nat) :
    (checkNode mode want).Leads inv (fun good m => good = true → m.Checked mode want) m := by
  refine .bind valid (.of_harmless (nodeRunning_uses fun _ => id) invKept .anything trivial) ?_
  rintro isRunning now valid -
  cases isRunning with
  | false => exact .pure (fun _ _ _ _ _ _ => nofun) nofun
  | true =>
    refine .bind valid (nodeCap_leads .anything trivial) ?_
    rintro cap now valid ⟨capped, -⟩
    have capKept : Kept Harmless fun m => cap = some want → m.HasCap want := (hasCap_harmless want).imp _
    have kfp : Script.Leads inv (if mode = .kfp then .pure false else kfpInstalled)
        (fun kfp m => (kfp = false → mode ≠ .kfp → m.Lacks .kubeflow) ∧ (cap = some want → m.HasCap want)) now := by
      split
      · rename_i isKfp
        exact .pure ((((lacks_harmless .kubeflow).imp _).imp _).and capKept) ⟨fun _ not => absurd isKfp not, capped want⟩
      · exact (installed_leads capKept (capped want) .kubeflow).mono fun kfp m _ ⟨lacks, rest⟩ =>
          ⟨fun absent _ => lacks absent, rest⟩
    refine .bind valid kfp ?_
    rintro kfp now valid facts
    have factsKept := (((lacks_harmless .kubeflow).imp (mode ≠ .kfp)).imp (kfp = false)).and capKept
    have keda : Script.Leads inv (if mode = .k8s then kedaInstalled else .pure false)
        (fun keda m => (keda = false → mode = .k8s → m.Lacks .keda) ∧
          (kfp = false → mode ≠ .kfp → m.Lacks .kubeflow) ∧ (cap = some want → m.HasCap want)) now := by
      split
      · exact (installed_leads factsKept facts .keda).mono fun keda m _ ⟨lacks, rest⟩ => ⟨fun absent _ => lacks absent, rest⟩
      · rename_i notK8s
        exact .pure ((((lacks_harmless .keda).imp _).imp _).and factsKept) ⟨fun _ isK8s => absurd isK8s notK8s, facts⟩
    refine .bind valid keda ?_
    intro keda now valid facts later settled _ passed
    have allKept := (((lacks_harmless .keda).imp (mode = .k8s)).imp (keda = false)).and factsKept
    obtain ⟨noKeda, noKfp, memory⟩ := allKept.settled settled facts
    obtain ⟨⟨isCap, rfl⟩, rfl⟩ : (cap = some want ∧ kfp = false) ∧ keda = false := by simpa using passed
    exact ⟨memory isCap, noKfp rfl, noKeda rfl⟩

theorem check_leads (valid : inv m) {caps : Caps} {mode : Mode} {want : Nat} (isCap : capFor caps mode = some want) :
    (check caps mode).Leads inv (fun good m => good = true → m.Checked mode want) m := by
  refine .bind valid (.of_harmless (extra_uses (fun _ => id) mode) invKept .anything trivial) ?_
  rintro more now valid -
  rw [isCap]
  refine .bind valid (checkNode_leads invKept valid mode want) ?_
  rintro node now - checked later settled _ passed
  have isNode : node = true := ((Bool.and_eq_true _ _).mp passed).2
  exact (checked_kept mode want).settled settled (checked isNode)

theorem checkMode_leads (valid : inv m) {caps : Caps} {mode : Mode} {want : Nat} (isCap : capFor caps mode = some want) :
    (checkMode caps mode).Leads inv (fun _ m => m.Checked mode want) m := by
  refine .bind valid (check_leads invKept valid isCap) ?_
  rintro good now - checked
  cases good with
  | false => trivial
  | true => exact .pure (checked_kept mode want) (checked rfl)

end Check

end Amel
