import PodCompiler.SortedMap

/-!
# PodCompiler — cluster objects

The Kubernetes objects that a specification turns into, reduced to what differs between them.
Their written form is in `PodCompiler.Cluster.Manifest`.

* `Pod` runs one step in one container, `Service` makes its ports reachable.
* `SecretObject` and `ConfigMap` hold the texts that a pod refers to; `Namespace` holds them all.
-/

namespace PodCompiler

/-- The metadata of a cluster object. -/
structure ObjectMeta where
  name : String
  namespaceName : Option String := none
  labels : Option (SortedMap String) := none
  deriving DecidableEq, Inhabited

/-- Where the value of an environment variable comes from. -/
inductive EnvValue where
  | literal (value : String)
  /-- A field of the pod itself. -/
  | podField (fieldPath : String)
  /-- An entry of a secret object; the pod also starts without it. -/
  | secretKey (secret key : String)
  deriving DecidableEq

/-- An environment variable of a container. -/
structure EnvVar where
  name : String
  value : EnvValue
  deriving DecidableEq

/-- An entry of a secret or config map shown as a file. -/
structure Projection where
  key : String
  path : String
  mode : Option Int32
  deriving DecidableEq

/-- What stands behind a volume of a pod. -/
inductive PodVolumeSource where
  /-- A directory of the machine, made if it does not exist. -/
  | hostPath (path : String)
  | secret (secret : String) (items : List Projection)
  | configMap (configMap : String) (items : List Projection)
  deriving DecidableEq

/-- A volume of a pod. -/
structure PodVolume where
  name : String
  source : PodVolumeSource
  deriving DecidableEq

/-- Where a container sees a volume of its pod, or one path inside the volume. -/
structure Mount where
  name : String
  mountPath : String
  subPath : Option String := none
  deriving DecidableEq

/-- Quantities of computing time and memory; an absent one sets no bound. -/
structure ResourceList where
  cpu : Option String := none
  memory : Option String := none
  deriving DecidableEq

/-- The resources of a container. -/
structure ResourceRequirements where
  limits : Option ResourceList := none
  requests : Option ResourceList := none
  deriving DecidableEq

/-- A container of a pod. Empty lists are not written, except for the environment. -/
structure Container where
  name : String
  image : String
  pullPolicy : String
  command : List String
  args : List String
  workingDir : Option String
  privileged : Bool
  env : List EnvVar
  ports : Option (List Int32)
  resources : ResourceRequirements
  mounts : List Mount
  deriving DecidableEq

/-- A pod of one container that is never restarted. -/
structure Pod where
  metadata : ObjectMeta
  automountToken : Bool
  container : Container
  /-- The secrets that hold the credentials for pulling images. -/
  pullSecrets : List String
  volumes : List PodVolume
  deriving DecidableEq

/-- A port of a service and the port it forwards to. -/
structure ServicePort where
  port : Int32
  target : Int32
  deriving DecidableEq

/-- A service inside the cluster. -/
structure Service where
  metadata : ObjectMeta
  /-- The labels of the pods that the service stands for. -/
  selector : List (String × String)
  ports : List ServicePort
  deriving DecidableEq

/-- A secret object: texts given as they are, and texts given as octets. -/
structure SecretObject where
  metadata : ObjectMeta
  kind : String
  texts : List (String × String) := []
  octets : List (String × String) := []
  deriving DecidableEq

/-- A config map object. -/
structure ConfigMap where
  metadata : ObjectMeta
  data : List (String × String)
  deriving DecidableEq

/-- A namespace object. -/
structure Namespace where
  metadata : ObjectMeta
  deriving DecidableEq

end PodCompiler
