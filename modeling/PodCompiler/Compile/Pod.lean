import PodCompiler.Compile.Env
import PodCompiler.Compile.Files
import PodCompiler.Compile.Volumes
import PodCompiler.Quantity

/-!
# PodCompiler — the pod of a step

* `Step.pod` assembles the pod: the volumes first, then the mounts, the environment and the rest.
* `Step.automount` decides about the service account token, `readTruth` reads its variable.
* `Step.service` is the service of a step that has ports.
-/

namespace PodCompiler

/-! ## Ports -/

/-- The ports of a step's container, if it has any. -/
def Step.containerPorts (step : Step) : Option (List Int32) :=
  if step.ports.isEmpty then none else some (step.ports.map (·.port))

/-- The port of a service for a port of a step. -/
def Port.servicePort (p : Port) : ServicePort :=
  { port := p.port, target := if p.host = 0 then p.port else p.host }

/-- The service of a step, if it has ports. -/
def Step.service (spec : Specification) (step : Step) : Option Service :=
  if step.ports.isEmpty then none
  else
    some
      { metadata := { name := dnsName step.metadata.name, namespaceName := step.namespace? spec }
        selector := [(stepLabel, step.metadata.name)]
        ports := step.ports.map Port.servicePort }

/-! ## Resources -/

/-- An amount as a quantity, if it is positive. -/
def positiveQuantity (quantity : Int64 → String) (amount : Int64) : Option String :=
  if 0 < amount then some (quantity amount) else none

/-- The quantities of resource amounts. -/
def ResourceAmounts.quantities (r : ResourceAmounts) : ResourceList :=
  { cpu := positiveQuantity Quantity.milli r.cpu
    memory := positiveQuantity Quantity.binary r.memory }

/-- The resource requirements of a step's container. -/
def Step.requirements (step : Step) : ResourceRequirements :=
  let resources := step.resources.getD {}
  { limits := resources.limits.map (·.quantities)
    requests := resources.requests.map (·.quantities) }

/-! ## Policies -/

/-- The word for a pull policy in a cluster. -/
def PullPolicy.clusterWord : PullPolicy → String
  | .always => "Always"
  | .never => "Never"
  | .ifNotExists => "IfNotPresent"
  | .unspecified => "IfNotPresent"

/-- A truth value in one of its spellings. -/
def readTruth (value : String) : Option Bool :=
  if value ∈ ["1", "t", "T", "TRUE", "true", "True"] then some true
  else if value ∈ ["0", "f", "F", "FALSE", "false", "False"] then some false
  else none

/-- Whether a step's pod mounts its service account token: the option of the step decides, then
the variable reserved for it; what is missing or cannot be read means no. -/
def Step.automount (step : Step) : Logged Bool :=
  match step.automountToken with
  | some automount => pure automount
  | none =>
    match step.envs.get? automountVariable with
    | none => pure false
    | some value =>
      match readTruth value with
      | some automount => pure automount
      | none => do
        Logged.note (.invalidAutomount step.metadata.name automountVariable value)
        pure false

/-! ## The pod -/

/-- The names of the secrets that images are pulled with. -/
def Specification.pullSecrets (spec : Specification) : List String :=
  if spec.registries.auths.isEmpty then [] else [registrySecretName]

/-- The container of a step with its environment and mounts. -/
def Step.container (step : Step) (env : List EnvVar) (mounts : List Mount) : Container :=
  { name := step.metadata.uid
    image := step.image
    pullPolicy := step.pullPolicy.clusterWord
    command := step.command
    args := step.args
    workingDir := step.workingDir
    privileged := step.privileged
    env
    ports := step.containerPorts
    resources := step.requirements
    mounts }

/-- The pod of a step. -/
def Step.pod (spec : Specification) (step : Step) : Logged Pod := do
  let volumes ← step.podVolumes spec
  let fileVolumes ← step.fileVolumes spec
  let mounts ← step.volumeMounts spec
  let env ← step.env spec
  let automountToken ← step.automount
  pure
    { metadata :=
        { name := step.metadata.uid
          namespaceName := step.namespace? spec
          labels := step.metadata.labels? }
      automountToken
      container := step.container env (mounts ++ step.fileMounts spec)
      pullSecrets := spec.pullSecrets
      volumes := volumes ++ fileVolumes }

end PodCompiler
