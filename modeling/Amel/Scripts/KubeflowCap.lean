import Amel.Scripts.Harmless

namespace Amel

open Transition (Reach)
open Script

/-- A node that has KFP is not capped below the kfp cap. -/
def Machine.FitsKfp (caps : Caps) (m : Machine) : Prop :=
  ∀ n, m.node = some n → n.phase .kubeflow ≠ .absent → n.memory = 0 ∨ caps.kfp ≤ n.memory

/-- The commands that neither install KFP nor lower the cap below its own. -/
def KfpNeutral (caps : Caps) : MachineCommand → Prop
  | .updateMemory bytes => caps.kfp ≤ bytes
  | .applyNamespace ns => ns ≠ .kubeflow
  | _ => True

section

variable {caps : Caps} {m : Machine}

theorem Harmless.kfpNeutral (command : MachineCommand) (harmless : Harmless command) : KfpNeutral caps command := by
  cases command with
  | updateMemory | applyNamespace => exact absurd harmless id
  | _ => trivial

theorem Machine.Lacks.fitsKfp (lacks : m.Lacks .kubeflow) : m.FitsKfp caps :=
  fun n found present => absurd (lacks n found) present

theorem Machine.HasCap.fitsKfp (capped : m.HasCap caps.kfp) : m.FitsKfp caps :=
  fun n found _ => Or.inr (capped n found ▸ Nat.le_refl _)

theorem fitsKfp_kept : Kept (KfpNeutral caps) (Machine.FitsKfp caps) := by
  intro before command after neutral frame fits n found present
  rcases frame.node n found with ⟨old, foundOld, fromOld⟩ | ⟨-, rfl⟩
  · have presentOld : old.phase .kubeflow ≠ .absent := by
      rcases fromOld.phase .kubeflow present with there | rfl
      · exact there
      · exact absurd rfl neutral
    rcases fromOld.memory with same | updates
    · rw [same]
      exact fits old foundOld presentOld
    · subst updates
      exact Or.inr neutral
  · exact Or.inl rfl

theorem lacksKfp_kept : Kept (KfpNeutral caps) (Machine.Lacks .kubeflow) := by
  refine (lacks_kept .kubeflow).mono ?_
  rintro command neutral rfl
  exact neutral rfl

theorem fitsKfp_harmless : Kept Harmless (Machine.FitsKfp caps) := fitsKfp_kept.mono Harmless.kfpNeutral

/-- A script that neither installs KFP nor lowers the cap. -/
theorem Script.Leads.of_neutral {α : Type} {program : Script α} {holds : Machine → Prop}
    (uses : program.Uses (KfpNeutral caps)) (kept : Kept (KfpNeutral caps) holds) (base : holds m) :
    program.Leads (Machine.FitsKfp caps) (fun _ => holds) m :=
  .of_uses uses Harmless.kfpNeutral fitsKfp_kept kept base

theorem Script.Leads.neutral {α : Type} {program : Script α} (uses : program.Uses (KfpNeutral caps)) :
    program.Leads (Machine.FitsKfp caps) (fun _ _ => True) m :=
  .of_neutral uses .anything trivial

/-- Without KFP any cap will do. -/
theorem updateMemory_without_kfp (lacks : m.Lacks .kubeflow) (bytes : Nat) :
    (updateMemory bytes).Leads (Machine.FitsKfp caps) (fun _ m => m.Lacks .kubeflow) m :=
  updateMemory_without (fun _ _ lacks => lacks.fitsKfp) lacks bytes

theorem setCap_without_kfp (valid : m.FitsKfp caps) (lacks : m.Lacks .kubeflow) (bytes : Nat) :
    (setCap bytes).Leads (Machine.FitsKfp caps) (fun _ m => m.Lacks .kubeflow) m :=
  setCap_without (fun _ _ lacks => lacks.fitsKfp) fitsKfp_harmless valid lacks bytes

theorem startNodeInKfpEnvelope_uses : (startNodeInKfpEnvelope caps).Uses (KfpNeutral caps) := by
  have harmless : ∀ command, Harmless command → KfpNeutral caps command := Harmless.kfpNeutral
  refine (trimCompose_uses harmless .kfp).bind fun _ => ?_
  refine (setCap_uses harmless (Nat.le_refl caps.kfp)).bind fun _ => ?_
  refine (nodeRunning_uses harmless).bind fun _ => ?_
  have start : Program.Uses (KfpNeutral caps) startNode := ⟨trivial, uses_ofExit⟩
  exact (uses_else start).bind fun _ => waitApi_uses harmless 60

theorem up_uses (noDeps : Bool) (services : List ComposeService) :
    (composeUp noDeps services).Uses (KfpNeutral caps) := ⟨trivial, uses_ofExit⟩

theorem toCompose_uses : toCompose.Uses (KfpNeutral caps) := by
  have stop : Program.Uses (KfpNeutral caps) stopNode := ⟨trivial, uses_ofExit⟩
  refine (nodeRunning_uses Harmless.kfpNeutral).bind fun _ => (uses_then stop).bind fun _ => ?_
  refine (up_uses _ _).bind fun _ => (attempt_uses Harmless.kfpNeutral _).bind fun _ => up_uses _ _

theorem toKfp_uses : (toKfp caps).Uses (KfpNeutral caps) := by
  refine (clusterExists_uses Harmless.kfpNeutral).bind fun _ => uses_ite ?_ trivial
  refine startNodeInKfpEnvelope_uses.bind fun _ => (up_uses _ _).bind fun _ => ?_
  exact (succeeds_uses Harmless.kfpNeutral _).bind fun _ => uses_ite (run_uses Harmless.kfpNeutral _) trivial

theorem k8sDown_uses : k8sDown.Uses (KfpNeutral caps) :=
  ⟨trivial, fun _ => (attempt_uses Harmless.kfpNeutral _).bind fun _ => up_uses _ _⟩

theorem autoscalingUp_uses : (autoscalingUp caps).Uses (KfpNeutral caps) := by
  have ran (command : String) : (run command).Uses (KfpNeutral caps) := run_uses Harmless.kfpNeutral command
  refine (checkMode_uses Harmless.kfpNeutral caps .scale).bind fun _ => (ran _).bind fun _ => (ran _).bind fun _ => ?_
  refine (succeeds_uses Harmless.kfpNeutral _).bind fun _ => (uses_then (ran _)).bind fun _ => ?_
  refine (ran _).bind fun _ => (ran _).bind fun _ => ?_
  have installs : KfpNeutral caps (.applyNamespace .keda) := by rintro ⟨⟩
  refine Program.Uses.bind ⟨installs, uses_ofExit⟩ fun _ => ?_
  refine (uses_each (fun _ => ran _) _).bind fun _ => ?_
  refine (uses_each (fun _ => attempt_uses Harmless.kfpNeutral _) _).bind fun _ => (ran _).bind fun _ => ?_
  exact (awaitTop_uses Harmless.kfpNeutral 24).bind fun _ => ran _

/-- `set_cap` in `to_scale` comes after a check that finds no KFP. -/
theorem toScale_leads (valid : m.FitsKfp caps) : (toScale caps).Leads (Machine.FitsKfp caps) (fun _ _ => True) m := by
  refine .bind valid (check_leads fitsKfp_harmless valid rfl) ?_
  rintro good now valid checked
  cases good with
  | false => exact .neutral ((check_uses Harmless.kfpNeutral caps .k8s).bind fun _ => trivial)
  | true =>
    have lacks : now.Lacks .kubeflow := (checked rfl).kfp nofun
    refine .bind valid (setCap_without_kfp valid lacks caps.scale) ?_
    intro _ later _ _
    exact .neutral (trimCompose_uses Harmless.kfpNeutral .scale)

/-- `k8s_up.sh` comes to its cap in a new cluster or after a query that finds
no KFP. -/
theorem k8sUpCluster_leads (valid : m.FitsKfp caps) :
    (k8sUpCluster caps).Leads (Machine.FitsKfp caps) (fun _ m => m.Lacks .kubeflow) m := by
  refine .bind valid (.neutral (clusterExists_uses Harmless.kfpNeutral)) ?_
  rintro found now valid -
  cases found with
  | true =>
    refine .bind valid (.neutral (nodeRunning_uses Harmless.kfpNeutral)) ?_
    rintro isRunning now valid -
    cases isRunning with
    | false => trivial
    | true =>
      refine .bind valid (installed_leads .anything trivial .kubeflow) ?_
      rintro kfp now valid ⟨absent, -⟩
      cases kfp with
      | true => trivial
      | false =>
        refine .bind valid (nodeCap_leads (lacks_harmless .kubeflow) (absent rfl)) ?_
        rintro cap now - ⟨-, lacks⟩
        show Script.Leads _ (if cap = some caps.k8s then .pure () else .raise ()) _ now
        split
        · exact .pure (lacks_harmless _) lacks
        · trivial
  | false =>
    intro now settled valid exit after performed
    have lacks : (exit : Exit) = .ok () → after.Lacks .kubeflow := by
      intro succeeded n found
      cases performed with
      | created =>
        cases found
        rfl
      | notCreated => cases succeeded
    have neutral : KfpNeutral caps .kindCreate := trivial
    exact ⟨fitsKfp_kept neutral performed.frame valid, Script.Leads.ofExit (lacks_harmless _) lacks⟩

theorem k8sUp_leads : (k8sUp caps).Leads (Machine.FitsKfp caps) (fun _ _ => True) m := by
  have stops : KfpNeutral caps (.composeStop moved) := trivial
  refine .call stops Harmless.kfpNeutral fitsKfp_kept .anything trivial ?_
  rintro - now valid -
  refine .bind valid (k8sUpCluster_leads valid) ?_
  intro _ now valid lacks
  refine .bind valid (updateMemory_without_kfp lacks caps.k8s) ?_
  intro _ now _ _
  exact .neutral (k8sUpWorkloads_uses Harmless.kfpNeutral trivial)

theorem kfpUp_leads (valid : m.FitsKfp caps) : (kfpUp caps).Leads (Machine.FitsKfp caps) (fun _ _ => True) m := by
  refine .bind valid (checkMode_leads fitsKfp_harmless valid rfl) ?_
  intro _ now valid checked
  have installs : Script.Leads (Machine.FitsKfp caps) (.call (.applyNamespace .kubeflow) ofExit) (fun _ _ => True) now := by
    intro later settled _ exit after performed
    have capped : later.HasCap caps.kfp := (hasCap_harmless _).settled settled checked.cap
    have neither : (∀ bytes, MachineCommand.applyNamespace .kubeflow ≠ .updateMemory bytes) ∧
        MachineCommand.applyNamespace .kubeflow ≠ .kindCreate := by
      constructor
      · rintro bytes ⟨⟩
      · rintro ⟨⟩
    have cappedAfter : after.HasCap caps.kfp := hasCap_kept _ neither performed.frame capped
    exact ⟨cappedAfter.fitsKfp, Script.Leads.ofExit .anything fun _ => trivial⟩
  refine .bind valid installs ?_
  intro _ later _ _
  have ran (command : String) : (run command).Uses (KfpNeutral caps) := run_uses Harmless.kfpNeutral command
  refine .neutral ((ran _).bind fun _ => (ran _).bind fun _ => (ran _).bind fun _ => ?_)
  refine (attempt_uses Harmless.kfpNeutral _).bind fun _ => ?_
  refine (uses_each (fun _ => attempt_uses Harmless.kfpNeutral _) _).bind fun _ => ?_
  exact (ran _).bind fun _ => ran _

/-- The loop is left in peace only when the namespace is gone. -/
theorem waitGone_leads (valid : m.FitsKfp caps) (turns : Nat) :
    (waitGone turns).Leads (Machine.FitsKfp caps) (fun _ m => m.Lacks .kubeflow) m := by
  induction turns generalizing m with
  | zero =>
    refine .bind valid (installed_leads .anything trivial .kubeflow) ?_
    rintro found now - ⟨absent, -⟩
    cases found with
    | true => trivial
    | false => exact .pure (lacks_harmless _) (absent rfl)
  | succ turns ih =>
    refine .bind valid (installed_leads .anything trivial .kubeflow) ?_
    rintro found now valid ⟨absent, -⟩
    cases found with
    | false => exact .pure (lacks_harmless _) (absent rfl)
    | true =>
      refine .bind valid (.neutral ⟨trivial, fun _ => trivial⟩) ?_
      rintro passed now valid -
      cases passed with
      | true => trivial
      | false =>
        refine .bind valid (.neutral (run_uses Harmless.kfpNeutral _)) ?_
        rintro - now valid -
        exact ih valid

/-- The cap is lowered only once the namespace is gone. -/
theorem kfpDown_leads (valid : m.FitsKfp caps) (timeout : Nat) :
    (kfpDown caps timeout).Leads (Machine.FitsKfp caps) (fun _ _ => True) m := by
  refine .bind valid (.neutral (clusterExists_uses Harmless.kfpNeutral)) ?_
  rintro found now valid -
  cases found with
  | false => trivial
  | true =>
    refine .bind valid (.neutral (run_uses Harmless.kfpNeutral _)) ?_
    rintro - now valid -
    refine .bind valid (.neutral ⟨trivial, uses_ofExit⟩) ?_
    rintro - now valid -
    refine .bind valid (waitGone_leads valid _) ?_
    intro _ now valid lacks
    exact (updateMemory_without_kfp lacks caps.k8s).mono fun _ _ _ _ => trivial

theorem inScale_leads (valid : m.FitsKfp caps) :
    (inScale caps).Leads (Machine.FitsKfp caps) (fun scale m => scale = true → m.Lacks .kubeflow) m := by
  have refused {now : Machine} : Script.Leads (Machine.FitsKfp caps) (.pure false)
      (fun scale m => scale = true → m.Lacks .kubeflow) now := .pure (fun _ _ _ _ _ _ => nofun) nofun
  refine .bind valid (.neutral (nodeRunning_uses Harmless.kfpNeutral)) ?_
  rintro isRunning now valid -
  cases isRunning with
  | false => exact refused
  | true =>
    refine .bind valid (.neutral (nodeCap_uses Harmless.kfpNeutral)) ?_
    rintro cap now valid -
    show Script.Leads _ (if cap = some caps.scale then _ else _) _ now
    split
    · refine .bind valid (installed_leads .anything trivial .kubeflow) ?_
      rintro kfp now - ⟨absent, -⟩
      refine .pure ((lacks_harmless .kubeflow).imp _) fun isAbsent => absent ?_
      simpa using isAbsent
    · exact refused

theorem settleNode_leads (valid : m.FitsKfp caps) (timeout : Nat) :
    (settleNode caps timeout).Leads (Machine.FitsKfp caps) (fun _ _ => True) m := by
  have lowered {now : Machine} (valid : now.FitsKfp caps) (lacks : now.Lacks .kubeflow) :
      (setCap caps.k8s).Leads (Machine.FitsKfp caps) (fun _ _ => True) now :=
    (setCap_without_kfp valid lacks caps.k8s).mono fun _ _ _ _ => trivial
  refine .bind valid (inScale_leads valid) ?_
  rintro scale now valid absent
  cases scale with
  | true =>
    have lacks : now.Lacks .kubeflow := absent rfl
    refine .bind valid (.of_neutral (run_uses Harmless.kfpNeutral _) lacksKfp_kept lacks) ?_
    intro _ now valid lacks
    refine .bind valid (.of_neutral (rollouts_uses Harmless.kfpNeutral) lacksKfp_kept lacks) ?_
    intro _ now valid lacks
    exact lowered valid lacks
  | false =>
    refine .bind valid (.neutral (outsideK8s_uses Harmless.kfpNeutral caps)) ?_
    rintro outside now valid -
    cases outside with
    | true =>
      refine .bind valid (.neutral startNodeInKfpEnvelope_uses) ?_
      rintro - now valid -
      refine .bind valid (installed_leads .anything trivial .kubeflow) ?_
      rintro kfp now valid ⟨absent, -⟩
      cases kfp with
      | true => exact kfpDown_leads valid timeout
      | false => exact lowered valid (absent rfl)
    | false => exact .neutral ((installed_uses Harmless.kfpNeutral _).bind fun _ => uses_ite trivial trivial)

theorem toK8s_leads (valid : m.FitsKfp caps) (timeout : Nat) {next : Script Unit}
    (rest : next.Uses (KfpNeutral caps)) :
    (toK8s caps timeout next).Leads (Machine.FitsKfp caps) (fun _ _ => True) m := by
  refine .bind valid (.neutral (clusterExists_uses Harmless.kfpNeutral)) ?_
  rintro found now valid -
  cases found with
  | true =>
    refine .bind valid (.neutral (refuseKeda_uses Harmless.kfpNeutral)) ?_
    rintro - now valid -
    refine .bind valid (settleNode_leads valid timeout) ?_
    rintro - now valid -
    refine .bind valid (.neutral (trimCompose_uses Harmless.kfpNeutral .k8s)) ?_
    rintro - now valid -
    refine .bind valid (.neutral ((allowed_uses Harmless.kfpNeutral .k8s).bind fun _ => up_uses _ _)) ?_
    rintro - now valid -
    refine .bind valid k8sUp_leads ?_
    rintro - now - -
    exact .neutral rest
  | false =>
    refine .bind valid (.neutral (trimCompose_uses Harmless.kfpNeutral .k8s)) ?_
    rintro - now - -
    exact k8sUp_leads

theorem script_leads (valid : m.FitsKfp caps) (timeout : Nat) (invocation : Invocation) :
    (invocation.script caps timeout).Leads (Machine.FitsKfp caps) (fun _ _ => True) m := by
  have asked : (status caps).Uses (KfpNeutral caps) := status_uses Harmless.kfpNeutral caps
  cases invocation with
  | status => exact .neutral asked
  | check which => exact .neutral (checkMode_uses Harmless.kfpNeutral caps which)
  | mode which =>
    cases which with
    | compose => exact .neutral (toCompose_uses.bind fun _ => asked)
    | k8s => exact toK8s_leads valid timeout asked
    | scale => exact .bind valid (toScale_leads valid) fun _ _ _ _ => .neutral asked
    | kfp => exact .neutral (toKfp_uses.bind fun _ => asked)
  | k8sUp => exact k8sUp_leads
  | k8sDown => exact .neutral k8sDown_uses
  | kfpUp => exact kfpUp_leads valid
  | kfpDown => exact kfpDown_leads valid timeout
  | autoscalingUp => exact .neutral autoscalingUp_uses
  | autoscalingDown => exact .neutral (autoscalingDown_uses Harmless.kfpNeutral)

end

/-- A kind node with KFP in it runs with the kfp cap or none, whatever the
operator starts, in whatever order, and wherever a script fails or is
aborted. -/
theorem kubeflow_capped {caps : Caps} {timeout : Nat} {origin : Machine} {operator : Operator}
    (fits : origin.FitsKfp caps) (reach : Reach (OperatorStep caps timeout) ⟨origin, none⟩ operator) :
    ¬ ∃ n, operator.state.node = some n ∧ n.running = true ∧ n.phase .kubeflow ≠ .absent ∧
      n.memory ≠ 0 ∧ n.memory < caps.kfp := by
  have valid : operator.state.FitsKfp caps := by
    refine Session.invariant Machine.Settles.refl Machine.Settles.trans reach.guardTrivially fits rfl ?_ ?_
    · exact fun settled before => fitsKfp_harmless.settled settled before
    · exact fun {m invocation} _ valid => (script_leads valid timeout invocation).fewer fun performed => performed.1
  rintro ⟨n, found, -, present, hasCap, below⟩
  rcases valid n found present with uncapped | enough
  · exact hasCap uncapped
  · exact absurd below (Nat.not_lt.mpr enough)

/-- The machine after some invocations that all go well. -/
def Machine.after (invocations : List Invocation) : Machine :=
  invocations.foldl (fun m invocation => ((invocation.script .default 300).eval Machine.answer m).2) {}

theorem reach_after (invocations : List Invocation) :
    Reach (OperatorStep .default 300) ⟨{}, none⟩ ⟨Machine.after invocations, none⟩ := by
  have along (m : Machine) (reach : Reach (OperatorStep .default 300) ⟨{}, none⟩ ⟨m, none⟩) :
      Reach (OperatorStep .default 300) ⟨{}, none⟩
        ⟨invocations.foldl (fun m invocation => ((invocation.script .default 300).eval Machine.answer m).2) m, none⟩ := by
    induction invocations generalizing m with
    | nil => exact reach
    | cons invocation rest ih => exact ih _ (Session.reach_eval Machine.answer_performs reach invocation)
  exact along {} .refl

theorem installed_kubeflow_capped : ∃ operator : Operator,
    Reach (OperatorStep .default 300) ⟨{}, none⟩ operator ∧
      (∃ n, operator.state.node = some n ∧ n.phase .kubeflow = .active) ∧
      ¬ ∃ n, operator.state.node = some n ∧ n.running = true ∧ n.phase .kubeflow ≠ .absent ∧
        n.memory ≠ 0 ∧ n.memory < Caps.default.kfp := by
  have reach := reach_after [.mode .k8s, .mode .kfp, .kfpUp]
  have active : (Machine.after [.mode .k8s, .mode .kfp, .kfpUp]).node.map (·.phase .kubeflow) = some .active := by
    decide +kernel
  obtain ⟨n, found, phase⟩ := Option.map_eq_some_iff.mp active
  have fits : ({} : Machine).FitsKfp .default := by rintro n ⟨⟩
  exact ⟨_, reach, ⟨n, found, phase⟩, kubeflow_capped fits reach⟩

end Amel
