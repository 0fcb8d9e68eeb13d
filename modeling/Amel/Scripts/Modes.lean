import Amel.Scripts.Machine

namespace Amel

/-- The modes of `mode.sh`. -/
inductive Mode
  | compose
  | k8s
  | scale
  | kfp
  deriving DecidableEq, Repr

/-- `K8S_CAP`, `SCALE_CAP` and `KFP_CAP` in bytes. -/
structure Caps where
  k8s : Nat
  scale : Nat
  kfp : Nat
  k8s_lt_scale : k8s < scale
  scale_lt_kfp : scale < kfp

/-- 3g, 5632m and 6g. -/
def Caps.default : Caps := ⟨3221225472, 5905580032, 6442450944, by decide, by decide⟩

def capFor (caps : Caps) : Mode → Option Nat
  | .k8s => some caps.k8s
  | .scale => some caps.scale
  | .kfp => some caps.kfp
  | .compose => none

/-- A script, which a command that fails ends under `set -e`, with no error
but its exit status. -/
abbrev Script := Program MachineCommand MachineAnswer Unit

namespace Script

def ofExit : Exit → Script Unit
  | .ok _ => .pure ()
  | .error _ => .raise ()

def run (command : String) : Script Unit := .call (.run command) ofExit

/-- A command whose exit status decides. -/
def succeeds (command : String) : Script Bool := .call (.run command) fun exit => .pure (exit : Exit).isOk

/-- A command whose failure is swallowed. -/
def attempt (command : String) : Script Unit := .call (.run command) fun _ => .pure ()

def updateMemory (bytes : Nat) : Script Unit := .call (.updateMemory bytes) ofExit

def startNode : Script Unit := .call .startNode ofExit

def stopNode : Script Unit := .call .stopNode ofExit

def composeStop (services : List ComposeService) : Script Unit := .call (.composeStop services) ofExit

def composeUp (noDeps : Bool) (services : List ComposeService) : Script Unit :=
  .call (.composeUp noDeps services) ofExit

/-- `for`. -/
def each {α : Type} (body : α → Script Unit) : List α → Script Unit
  | [] => .pure ()
  | value :: rest => (body value).bind fun _ => each body rest

end Script

open Script

/-- `running` and `all_services`. They are read in process substitutions,
where a failure is an empty list. -/
def running : Script (List ComposeService) :=
  .call .composePs fun listed => .pure ((listed : Option (List ComposeService)).getD [])

def allServices : Script (List ComposeService) :=
  .call .composeConfig fun listed => .pure ((listed : Option (List ComposeService)).getD [])

def kfpKeep : List ComposeService := [.minio, .mlflow, .postgres]

def allowed : Mode → Script (List ComposeService)
  | .compose => allServices
  | .k8s => allServices.bind fun services => .pure (services.filter (· ∉ moved))
  | .scale => allServices.bind fun services => .pure (services.filter (· ∉ .airflow :: moved))
  | .kfp => .pure kfpKeep

def clusterExists : Script Bool := .call .kindGetClusters .pure

def nodeRunning : Script Bool := .call .inspectRunning fun (state : Option Bool) => .pure (state == some true)

/-- `node_cap` where it is compared: a failure is an empty string. -/
def nodeCap : Script (Option Nat) := .call .inspectMemory .pure

/-- `kfp_installed` and `keda_installed`: an unreachable API ends the script. -/
def installed (ns : KubeNamespace) : Script Bool :=
  .call (.getNamespace ns) fun
    | .ok found => .pure found
    | .error _ => .raise ()

def kfpInstalled : Script Bool := installed .kubeflow

def kedaInstalled : Script Bool := installed .keda

def deadlinePassed : Script Bool := .call .deadlinePassed .pure

/-- `wait_api`. A turn takes 3 s, so that the deadline has passed when no turn
is left. -/
def waitApi : Nat → Script Unit
  | 0 => (succeeds "kubectl get --raw /readyz").bind fun ready => if ready then .pure () else .raise ()
  | turns + 1 => (succeeds "kubectl get --raw /readyz").bind fun ready =>
    if ready then .pure () else deadlinePassed.bind fun passed =>
      if passed then .raise () else (run "sleep 3").bind fun _ => waitApi turns

def nodeAnon : Script Nat :=
  .call .nodeAnon fun
    | .ok bytes => .pure bytes
    | .error _ => .raise ()

/-- The first half of `set_cap`. -/
def guardAnon (new : Nat) : Script Unit :=
  nodeRunning.bind fun isRunning =>
  if isRunning then
    nodeCap.bind fun cap =>
    if cap.any (new < ·) then
      nodeAnon.bind fun anon => if anon * 4 > new * 3 then .raise () else .pure ()
    else .pure ()
  else .pure ()

def setCap (new : Nat) : Script Unit := (guardAnon new).bind fun _ => updateMemory new

/-- The running services outside the list of the mode. -/
def extra (mode : Mode) : Script (List ComposeService) :=
  (allowed mode).bind fun services => running.bind fun found => .pure (found.filter (· ∉ services))

/-- `check` of the node. -/
def checkNode (mode : Mode) (want : Nat) : Script Bool :=
  nodeRunning.bind fun isRunning =>
  if isRunning then
    nodeCap.bind fun cap =>
    (if mode = .kfp then .pure false else kfpInstalled).bind fun kfp =>
    (if mode = .k8s then kedaInstalled else .pure false).bind fun keda =>
    .pure (cap = some want && !kfp && !keda)
  else .pure false

def check (caps : Caps) (mode : Mode) : Script Bool :=
  (extra mode).bind fun more =>
  (match capFor caps mode with
    | some want => checkNode mode want
    | none => nodeRunning.bind fun isRunning => .pure !isRunning).bind fun node =>
  .pure (more = [] && node)

/-- `mode.sh check`. -/
def checkMode (caps : Caps) (mode : Mode) : Script Unit :=
  (check caps mode).bind fun good => if good then .pure () else .raise ()

def modes : List Mode := [.compose, .k8s, .scale, .kfp]

/-- The first mode that the running set matches. -/
def matching (caps : Caps) : List Mode → Script Bool
  | [] => .pure false
  | mode :: rest => (check caps mode).bind fun good => if good then .pure true else matching caps rest

def status (caps : Caps) : Script Unit :=
  clusterExists.bind fun found =>
  (if found then
    nodeRunning.bind fun isRunning =>
    if isRunning then nodeCap.bind fun _ => .call .nodeAnon fun _ => .pure () else .pure ()
  else .pure ()).bind fun _ =>
  running.bind fun _ =>
  (matching caps modes).bind fun good =>
  if good then .pure ()
  else (each (fun mode => (check caps mode).bind fun _ => .pure ()) modes).bind fun _ => .raise ()

/-- The second half of `trim_compose`. -/
def verifyTrimmed (mode : Mode) : Script Unit :=
  (extra mode).bind fun more => if more = [] then .pure () else .raise ()

def trimCompose (mode : Mode) : Script Unit :=
  (extra mode).bind fun more =>
  (if more = [] then .pure () else composeStop more).bind fun _ =>
  verifyTrimmed mode

def startNodeInKfpEnvelope (caps : Caps) : Script Unit :=
  (trimCompose .kfp).bind fun _ =>
  (setCap caps.kfp).bind fun _ =>
  nodeRunning.bind fun isRunning =>
  (if isRunning then .pure () else startNode).bind fun _ =>
  waitApi 60

def maxEntityId : String :=
  "docker exec amel-postgres-1 psql -U amel -d amel -tAc \"SELECT coalesce(max(entity_id),'higgs-000000000') FROM landing.higgs_feature_events\""

def toCompose : Script Unit :=
  nodeRunning.bind fun isRunning =>
  (if isRunning then stopNode else .pure ()).bind fun _ =>
  (composeUp false [.postgres]).bind fun _ =>
  (attempt maxEntityId).bind fun _ =>
  composeUp false []

def toKfp (caps : Caps) : Script Unit :=
  clusterExists.bind fun found =>
  if found then
    (startNodeInKfpEnvelope caps).bind fun _ =>
    (composeUp false kfpKeep).bind fun _ =>
    (succeeds "kubectl get namespace amel --ignore-not-found -o name").bind fun named =>
    if named then run "kubectl -n amel scale deployment --all --replicas=0" else .pure ()
  else .raise ()

def deployments : List String := ["feast-server", "inference-api", "source-simulator", "stream-ingestor"]

/-- What `k8s_up.sh` asks of a cluster that is there. -/
def k8sUpExisting (caps : Caps) : Script Unit :=
  nodeRunning.bind fun isRunning =>
  if isRunning then
    kfpInstalled.bind fun kfp =>
    if kfp then .raise ()
    else nodeCap.bind fun cap => if cap = some caps.k8s then .pure () else .raise ()
  else .raise ()

/-- The cluster of `k8s_up.sh`. -/
def k8sUpCluster (caps : Caps) : Script Unit :=
  clusterExists.bind fun found => if found then k8sUpExisting caps else .call .kindCreate ofExit

/-- The rest of `k8s_up.sh`. -/
def k8sUpWorkloads : Script Unit :=
  (run "kubectl apply -f ingress-nginx/deploy.yaml").bind fun _ =>
  (run "kubectl -n ingress-nginx wait --for=condition=available deployment/ingress-nginx-controller").bind fun _ =>
  (run "kubectl -n ingress-nginx patch configmap ingress-nginx-controller --type merge").bind fun _ =>
  (run "kubectl -n ingress-nginx set resources deployment/ingress-nginx-controller --limits=memory=256Mi").bind fun _ =>
  (run "kubectl -n ingress-nginx rollout status deployment/ingress-nginx-controller").bind fun _ =>
  (run "docker compose build -q").bind fun _ =>
  (each (fun image => attempt ("kind load docker-image " ++ image ++ ":latest --name amel"))
    ["amel-inference-api", "amel-feast-server", "amel-source-simulator", "amel-stream-ingestor",
      "amel-migrate"]).bind fun _ =>
  (run "kubectl apply -f infra/k8s/base/namespace.yaml").bind fun _ =>
  (run "kubectl -n amel create secret generic amel-secrets").bind fun _ =>
  (attempt maxEntityId).bind fun _ =>
  (run "kubectl -n amel create configmap simulator-runtime").bind fun _ =>
  (run "kubectl apply -k infra/k8s/base").bind fun _ =>
  (each (fun job =>
    (run ("kubectl -n amel delete job " ++ job ++ " --ignore-not-found")).bind fun _ =>
    run ("kubectl apply -f infra/k8s/jobs/" ++ job ++ ".yaml")) ["migrate", "feast-apply"]).bind fun _ =>
  (run "kubectl -n amel wait --for=condition=complete job/migrate job/feast-apply").bind fun _ =>
  (each (fun deployment => run ("kubectl -n amel rollout status deployment/" ++ deployment)) deployments).bind fun _ =>
  (composeUp true [.airflow]).bind fun _ =>
  run "kubectl -n amel get pods -o wide"

/-- `k8s_up.sh`. The failure of its first command is swallowed. -/
def k8sUp (caps : Caps) : Script Unit :=
  .call (.composeStop moved) fun _ =>
  (k8sUpCluster caps).bind fun _ =>
  (updateMemory caps.k8s).bind fun _ =>
  k8sUpWorkloads

/-- What `k8s_down.sh` does once it has asked for the cluster to go. -/
def k8sHandBack : Script Unit :=
  (attempt maxEntityId).bind fun _ => composeUp true (.airflow :: moved)

/-- `k8s_down.sh`. The failure of `kind delete` is swallowed. -/
def k8sDown : Script Unit := .call .kindDelete fun _ => k8sHandBack

/-- `kfp_up.sh`. The namespace is one of the cluster-scoped resources. -/
def kfpUp (caps : Caps) : Script Unit :=
  (checkMode caps .kfp).bind fun _ =>
  (.call (.applyNamespace .kubeflow) ofExit : Script Unit).bind fun _ =>
  (run "kubectl wait --for=condition=established crd/applications.app.k8s.io").bind fun _ =>
  (run "kubectl apply -k pipelines/manifests/kustomize/env/platform-agnostic").bind fun _ =>
  (run "docker compose --profile train build -q train").bind fun _ =>
  (attempt "kind load docker-image amel-training:local --name amel").bind fun _ =>
  (each (fun deployment => attempt ("kubectl -n kubeflow rollout status deployment/" ++ deployment))
    ["ml-pipeline", "ml-pipeline-ui", "workflow-controller", "metadata-grpc-deployment", "mysql",
      "seaweedfs"]).bind fun _ =>
  (run "kubectl -n kubeflow create secret generic amel-secrets").bind fun _ =>
  run "kubectl -n kubeflow get pods"

/-- The loop of `kfp_down.sh`. A turn takes 5 s. -/
def waitGone : Nat → Script Unit
  | 0 => kfpInstalled.bind fun found => if found then .raise () else .pure ()
  | turns + 1 => kfpInstalled.bind fun found =>
    if found then deadlinePassed.bind fun passed =>
      if passed then .raise () else (run "sleep 5").bind fun _ => waitGone turns
    else .pure ()

/-- `kfp_down.sh`, with `KFP_NS_GONE_TIMEOUT` in seconds. -/
def kfpDown (caps : Caps) (timeout : Nat) : Script Unit :=
  clusterExists.bind fun found =>
  if found then
    (run "kubectl delete -k pipelines/manifests/kustomize/env/platform-agnostic --wait=false").bind fun _ =>
    (.call (.deleteNamespace .kubeflow) ofExit : Script Unit).bind fun _ =>
    (waitGone (timeout / 5 + 1)).bind fun _ =>
    updateMemory caps.k8s
  else .raise ()

/-- The refusal in `to_k8s` while KEDA is installed in a node that runs. -/
def refuseKeda : Script Unit :=
  nodeRunning.bind fun isRunning =>
  if isRunning then kedaInstalled.bind fun keda => if keda then .raise () else .pure () else .pure ()

def inScale (caps : Caps) : Script Bool :=
  nodeRunning.bind fun isRunning =>
  if isRunning then
    nodeCap.bind fun cap =>
    if cap = some caps.scale then kfpInstalled.bind fun kfp => .pure !kfp else .pure false
  else .pure false

def outsideK8s (caps : Caps) : Script Bool :=
  nodeRunning.bind fun isRunning =>
  if isRunning then nodeCap.bind fun cap => .pure (cap ≠ some caps.k8s) else .pure true

def leaveScale (caps : Caps) : Script Unit :=
  (run "kubectl apply -k infra/k8s/base").bind fun _ =>
  (each (fun deployment => run ("kubectl -n amel rollout status deployment/" ++ deployment)) deployments).bind fun _ =>
  setCap caps.k8s

/-- How `to_k8s` brings the node to the k8s cap without KFP. -/
def settleNode (caps : Caps) (timeout : Nat) : Script Unit :=
  (inScale caps).bind fun scale =>
  if scale then leaveScale caps
  else
    (outsideK8s caps).bind fun outside =>
    if outside then
      (startNodeInKfpEnvelope caps).bind fun _ =>
      kfpInstalled.bind fun kfp => if kfp then kfpDown caps timeout else setCap caps.k8s
    else kfpInstalled.bind fun kfp => if kfp then .raise () else .pure ()

/-- `up -d` with the services of k8s mode. -/
def upAllowed : Script Unit := (allowed .k8s).bind fun services => composeUp false services

/-- `to_k8s`, and what its caller does next, which `exec` gives up. -/
def toK8s (caps : Caps) (timeout : Nat) (next : Script Unit) : Script Unit :=
  clusterExists.bind fun found =>
  if found then
    refuseKeda.bind fun _ =>
    (settleNode caps timeout).bind fun _ =>
    (trimCompose .k8s).bind fun _ =>
    upAllowed.bind fun _ =>
    (k8sUp caps).bind fun _ =>
    next
  else
    (trimCompose .k8s).bind fun _ =>
    k8sUp caps

def toScale (caps : Caps) : Script Unit :=
  (check caps .k8s).bind fun good =>
  if good then
    (setCap caps.scale).bind fun _ =>
    trimCompose .scale
  else (check caps .k8s).bind fun _ => .raise ()

def awaitTop : Nat → Script Unit
  | 0 => .pure ()
  | turns + 1 => (succeeds "kubectl top nodes").bind fun answers =>
    if answers then .pure () else (run "sleep 5").bind fun _ => awaitTop turns

/-- `autoscaling_up.sh`. -/
def autoscalingUp (caps : Caps) : Script Unit :=
  (checkMode caps .scale).bind fun _ =>
  (run "kubectl apply -f metrics-server/components.yaml").bind fun _ =>
  (run "kubectl -n kube-system get deployment metrics-server").bind fun _ =>
  (succeeds "[[ $args != *--kubelet-insecure-tls* ]]").bind fun absent =>
  (if absent then run "kubectl -n kube-system patch deployment metrics-server --type json" else .pure ()).bind fun _ =>
  (run "kubectl -n kube-system set resources deployment/metrics-server").bind fun _ =>
  (run "kubectl -n kube-system rollout status deployment/metrics-server").bind fun _ =>
  (.call (.applyNamespace .keda) ofExit : Script Unit).bind fun _ =>
  (each (fun deployment => run ("kubectl -n keda set resources deployment/" ++ deployment))
    ["keda-operator", "keda-metrics-apiserver", "keda-admission"]).bind fun _ =>
  (each (fun deployment => attempt ("kubectl -n keda rollout status deployment/" ++ deployment))
    ["keda-operator", "keda-metrics-apiserver", "keda-admission"]).bind fun _ =>
  (run "kubectl wait --for=condition=Available apiservice/v1beta1.metrics.k8s.io").bind fun _ =>
  (awaitTop 24).bind fun _ =>
  run "kubectl top nodes"

/-- `autoscaling_down.sh`. -/
def autoscalingDown : Script Unit :=
  (attempt "kubectl delete scaledobjects.keda.sh --all -A --ignore-not-found").bind fun _ =>
  (.call (.deleteNamespace .keda) ofExit : Script Unit).bind fun _ =>
  (run "kubectl delete --ignore-not-found -f metrics-server/components.yaml").bind fun _ =>
  kedaInstalled.bind fun _ => .pure ()

/-- What the operator can start. -/
inductive Invocation
  | status
  | check (mode : Mode)
  | mode (mode : Mode)
  | k8sUp
  | k8sDown
  | kfpUp
  | kfpDown
  | autoscalingUp
  | autoscalingDown
  deriving DecidableEq, Repr

def Invocation.script (caps : Caps) (timeout : Nat) : Invocation → Script Unit
  | .status => Amel.status caps
  | .check which => checkMode caps which
  | .mode .compose => toCompose.bind fun _ => Amel.status caps
  | .mode .k8s => toK8s caps timeout (Amel.status caps)
  | .mode .scale => (toScale caps).bind fun _ => Amel.status caps
  | .mode .kfp => (toKfp caps).bind fun _ => Amel.status caps
  | .k8sUp => Amel.k8sUp caps
  | .k8sDown => Amel.k8sDown
  | .kfpUp => Amel.kfpUp caps
  | .kfpDown => Amel.kfpDown caps timeout
  | .autoscalingUp => Amel.autoscalingUp caps
  | .autoscalingDown => Amel.autoscalingDown

abbrev Operator := Session Machine MachineCommand MachineAnswer Unit Unit

abbrev OperatorAction := SessionAction Invocation MachineAnswer

abbrev OperatorStep (caps : Caps) (timeout : Nat) : Operator → OperatorAction → Operator → Prop :=
  Session.Step Machine.Settles (Invocation.script caps timeout) Machine.Performs

end Amel
