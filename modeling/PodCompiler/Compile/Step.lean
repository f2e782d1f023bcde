import PodCompiler.Compile.Pod
import PodCompiler.Compile.Secrets
import PodCompiler.Cluster.Manifest
import PodCompiler.Yaml.Writer

/-!
# PodCompiler — compiled steps

* `Step.compile` compiles a step into everything the cluster needs to run it.
* `Specification.compile` compiles every step in order.
* `CompiledStep.trees` lists the objects in the order in which they are submitted: whatever a pod
  refers to comes before it. `CompiledStep.manifests` are their documents.
-/

namespace PodCompiler

/-- Everything a cluster needs to run one step. -/
structure CompiledStep where
  pod : Pod
  service : Option Service
  secrets : List SecretObject
  configMaps : List ConfigMap
  deriving DecidableEq

/-- Compiles a step. -/
def Step.compile (spec : Specification) (step : Step) : Logged CompiledStep := do
  Logged.note (.compiling step.metadata.name)
  let pod ← step.pod spec
  let secrets ← step.secretObjects spec
  let configMaps := step.configMaps spec
  Logged.note
    (.compiled step.metadata.name step.metadata.uid secrets.length configMaps.length)
  pure { pod, service := step.service spec, secrets, configMaps }

/-- Compiles the steps of a specification. -/
def Specification.compile (spec : Specification) : Logged (List CompiledStep) :=
  Logged.gather (fun step => do pure [← step.compile spec]) spec.steps

/-- The trees of a compiled step in the order of submission. -/
def CompiledStep.trees (c : CompiledStep) : List Tree :=
  c.secrets.map SecretObject.tree ++ c.configMaps.map ConfigMap.tree ++ c.pod.tree ::
    c.service.toList.map Service.tree

/-- The documents of a compiled step in the order of submission. -/
def CompiledStep.manifests (c : CompiledStep) : List String := c.trees.map Yaml.document

end PodCompiler
