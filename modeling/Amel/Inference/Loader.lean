import Amel.Inference.Service

namespace Amel

open Python (Double)

/-- What `mlflow.sklearn.load_model` returns, as far as it is used. -/
abbrev Estimator := List (BitVec 32) → Option Double

/-- What the registry tells of a version. -/
structure ModelVersion where
  version : String
  runId : Option String
  tags : List (String × String)

inductive LoaderCall
  | setTrackingUri (uri : String)
  | getModelVersionByAlias (name «alias» : String)
  | loadModel (modelUri : String)
  | utcNow

def LoaderReply : LoaderCall → Type
  | .setTrackingUri _ => Except Unit Unit
  | .getModelVersionByAlias _ _ => Except Unit ModelVersion
  | .loadModel _ => Except Unit Estimator
  | .utcNow => Datetime

abbrev LoaderProgram := Program LoaderCall LoaderReply Unit

/-- An exception of a call is an exception of the loader. -/
def LoaderProgram.ofReply {α : Type} : Except Unit α → LoaderProgram α
  | .ok value => .pure value
  | .error error => .raise error

open LoaderProgram (ofReply)

/-- Where a version of a model is found. -/
def modelUri (name version : String) : String := s!"models:/{name}/{version}"

/-- What is served once the version and its estimator are known. -/
def ModelVersion.loaded (mv : ModelVersion) (name «alias» : String) (model : Estimator) (loadedAt : Datetime) :
    LoadedModel where
  predictProba := model
  metadata :=
    { name, «alias», version := mv.version, runId := mv.runId
      gitSha := mv.tags.lookup "git_sha"
      datasetFingerprint := mv.tags.lookup "dataset_fingerprint"
      featureView := mv.tags.lookup "feature_view"
      testAccuracy := mv.tags.lookup "test_accuracy"
      loadedAt }

/-- `mlflow_loader`. The alias is resolved once, and the version found is the
one that is loaded. -/
def mlflowLoader (trackingUri name «alias» : String) : LoaderProgram LoadedModel :=
  (.call (.setTrackingUri trackingUri) ofReply : LoaderProgram Unit).bind fun _ =>
  (.call (.getModelVersionByAlias name «alias») ofReply : LoaderProgram ModelVersion).bind fun mv =>
  (.call (.loadModel (modelUri name mv.version)) ofReply : LoaderProgram Estimator).bind fun model =>
  .call .utcNow fun loadedAt => .pure (mv.loaded name «alias» model loadedAt)

/-- The exchanges that a model comes from. -/
structure LoadedFrom (name «alias» : String) (loaded : LoadedModel) (past : List (Program.Exchange LoaderReply)) :
    Prop where
  named : loaded.metadata.name = name
  aliased : loaded.metadata.alias = «alias»
  resolved : ∃ mv : ModelVersion, mv.version = loaded.metadata.version ∧ mv.runId = loaded.metadata.runId ∧
    ⟨.getModelVersionByAlias name «alias», (Except.ok mv : Except Unit ModelVersion)⟩ ∈ past
  found : ⟨.loadModel (modelUri name loaded.metadata.version),
    (Except.ok loaded.predictProba : Except Unit Estimator)⟩ ∈ past

theorem mlflowLoader_loads (trackingUri name «alias» : String) :
    (mlflowLoader trackingUri name «alias»).Obeys (fun _ _ => True)
      (fun past result => ∀ loaded, result = .ok loaded → LoadedFrom name «alias» loaded past) [] := by
  refine ⟨trivial, fun (reply : Except Unit Unit) => ?_⟩
  cases reply with
  | error error => exact fun loaded impossible => by cases impossible
  | ok =>
    refine ⟨trivial, fun (reply : Except Unit ModelVersion) => ?_⟩
    cases reply with
    | error error => exact fun loaded impossible => by cases impossible
    | ok mv =>
      refine ⟨trivial, fun (reply : Except Unit Estimator) => ?_⟩
      cases reply with
      | error error => exact fun loaded impossible => by cases impossible
      | ok model =>
        refine ⟨trivial, fun (loadedAt : Datetime) loaded same => ?_⟩
        cases same
        refine ⟨rfl, rfl, ⟨mv, rfl, rfl, ?_⟩, ?_⟩
        · exact List.mem_append_left _ (List.mem_append_left _ (List.mem_append_right _ (List.mem_singleton.mpr rfl)))
        · exact List.mem_append_left _ (List.mem_append_right _ (List.mem_singleton.mpr rfl))

end Amel
