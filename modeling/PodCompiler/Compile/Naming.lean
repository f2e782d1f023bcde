import PodCompiler.Specification
import PodCompiler.Cluster.Object

/-!
# PodCompiler — names, namespaces and labels of cluster objects

* `Metadata.namespace?` and `Metadata.labels?` are a namespace and labels unless they are empty.
* `Step.namespace?` is the namespace a step runs in: its own, or else the specification's.
* `dnsName` makes a step's name fit for a service.
* `Namespace.ofSpecification` is the namespace object of a specification.
-/

namespace PodCompiler

/-- The environment variable that controls a pod's service account token. -/
def automountVariable : String := "PLUGIN_AUTOMOUNTSERVICEACCOUNTTOKEN"

/-- The environment variable that holds the name of the machine a pod runs on. -/
def nodeVariable : String := "KUBERNETES_NODE"

/-- The name of the secret object that holds the registry credentials. -/
def registrySecretName : String := "docker-auth-config"

/-- The label by which a service selects the pod of a step. -/
def stepLabel : String := "io.drone.step.name"

/-- The directory under which scratch space is kept. -/
def scratchRoot : String := "/tmp/drone"

/-- The namespace that is set, if any. -/
def Metadata.namespace? (m : Metadata) : Option String :=
  if m.namespaceName = "" then none else some m.namespaceName

/-- The labels, if there are any. -/
def Metadata.labels? (m : Metadata) : Option (SortedMap String) :=
  if m.labels.isEmpty then none else some m.labels

/-- The namespace that a step runs in. -/
def Step.namespace? (spec : Specification) (step : Step) : Option String :=
  step.metadata.namespace?.or spec.metadata.namespace?

/-- A name with hyphens for underscores. -/
def dnsName (name : String) : String :=
  String.ofList (name.toList.map fun c => if c = '_' then '-' else c)

/-- The namespace object of a specification. -/
def Namespace.ofSpecification (spec : Specification) : Namespace :=
  { metadata := { name := spec.metadata.namespaceName, labels := spec.metadata.labels? } }

end PodCompiler
