import PodCompiler.SortedMap

/-!
# PodCompiler — pipeline specifications

What a pipeline consists of: steps, and the secrets, files and volumes that steps refer to by
name. Every entity carries metadata: its name is what steps use, its unique identifier is what
cluster objects are named after.

* `Specification.secret?`, `file?`, `volume?` and `step?` look an entity up by name; of several
  with the same name the first is meant.
* `Volume.kind?` is the source a volume stands for; of several sources the first counts.
-/

namespace PodCompiler

/-- The metadata of an entity. An empty namespace means that none is set. -/
structure Metadata where
  uid : String
  name : String
  namespaceName : String := ""
  labels : SortedMap String := .empty
  deriving DecidableEq, Inhabited

namespace Metadata

/-- Metadata with an identifier and a name only. -/
def new (uid name : String) : Metadata := { uid, name }

/-- The same metadata in a namespace. -/
def withNamespace (m : Metadata) (namespaceName : String) : Metadata :=
  { m with namespaceName }

/-- The same metadata with one more label; a label of the same key is replaced. -/
def withLabel (m : Metadata) (key value : String) : Metadata :=
  { m with labels := m.labels.insert key value }

end Metadata

/-- Credentials for one image registry. -/
structure RegistryAuth where
  address : String
  username : String
  password : String
  deriving DecidableEq, Inhabited

/-- The credentials that step images are pulled with. -/
structure Registries where
  auths : List RegistryAuth := []
  deriving DecidableEq, Inhabited

/-- A secret text. -/
structure Secret where
  metadata : Metadata
  data : String := ""
  deriving DecidableEq, Inhabited

/-- A text that steps mount as a single file. -/
structure File where
  metadata : Metadata
  data : String := ""
  deriving DecidableEq, Inhabited

/-! ## Volumes -/

/-- Scratch space that the steps of one run share. -/
structure EmptyDirSource where
  deriving DecidableEq, Inhabited

/-- A directory of the machine that a step runs on. -/
structure HostPathSource where
  path : String
  deriving DecidableEq, Inhabited

/-- A secret projected as a file of a volume. -/
structure SecretItem where
  key : String
  path : String
  mode : Option Int32 := none
  deriving DecidableEq, Inhabited

/-- Secrets projected as the files of a volume. -/
structure SecretSource where
  name : String
  items : List SecretItem := []
  deriving DecidableEq, Inhabited

/-- A volume of the specification. At most one source is expected. -/
structure Volume where
  metadata : Metadata
  emptyDir : Option EmptyDirSource := none
  hostPath : Option HostPathSource := none
  secret : Option SecretSource := none
  deriving DecidableEq, Inhabited

/-- What a volume stands for. -/
inductive VolumeKind where
  | emptyDir (source : EmptyDirSource)
  | hostPath (source : HostPathSource)
  | secret (source : SecretSource)
  deriving DecidableEq

/-- The source of a volume, if it has one. -/
def Volume.kind? (v : Volume) : Option VolumeKind :=
  match v.emptyDir, v.hostPath, v.secret with
  | some source, _, _ => some (.emptyDir source)
  | none, some source, _ => some (.hostPath source)
  | none, none, some source => some (.secret source)
  | none, none, none => none

/-! ## Steps -/

/-- When a step's image is pulled. -/
inductive PullPolicy where
  | always
  | never
  | ifNotExists
  | unspecified
  deriving DecidableEq, Inhabited

/-- A port of a step's container. The service forwards to `host`, or to `port` itself if `host` is
zero. -/
structure Port where
  port : Int32
  host : Int32 := 0
  deriving DecidableEq, Inhabited

/-- Amounts of computing time in thousandths of a core and of memory in bytes; zero means that the
amount is not given. -/
structure ResourceAmounts where
  cpu : Int64 := 0
  memory : Int64 := 0
  deriving DecidableEq, Inhabited

/-- The resources a step may use and those it asks for. -/
structure Resources where
  limits : Option ResourceAmounts := none
  requests : Option ResourceAmounts := none
  deriving DecidableEq, Inhabited

/-- A reference to a secret that becomes an environment variable. -/
structure SecretRef where
  name : String
  env : String
  deriving DecidableEq, Inhabited

/-- A reference to a file and the path it is mounted at. -/
structure FileRef where
  name : String
  path : String
  mode : Option Int32 := none
  deriving DecidableEq, Inhabited

/-- A reference to a volume and the path it is mounted at. -/
structure VolumeRef where
  name : String
  path : String
  deriving DecidableEq, Inhabited

/-- One step of a pipeline: a container and what it refers to. -/
structure Step where
  metadata : Metadata
  image : String
  command : List String := []
  args : List String := []
  workingDir : Option String := none
  pullPolicy : PullPolicy := .unspecified
  privileged : Bool := false
  envs : SortedMap String := .empty
  ports : List Port := []
  resources : Option Resources := none
  secrets : List SecretRef := []
  files : List FileRef := []
  volumes : List VolumeRef := []
  automountToken : Option Bool := none
  deriving DecidableEq, Inhabited

/-! ## Specifications -/

/-- A pipeline. -/
structure Specification where
  metadata : Metadata
  registries : Registries := {}
  steps : List Step := []
  secrets : List Secret := []
  files : List File := []
  volumes : List Volume := []
  deriving DecidableEq, Inhabited

namespace Specification

variable (spec : Specification)

/-- The first step of a name. -/
def step? (name : String) : Option Step := spec.steps.find? fun s => s.metadata.name = name

/-- The first secret of a name. -/
def secret? (name : String) : Option Secret := spec.secrets.find? fun s => s.metadata.name = name

/-- The first file of a name. -/
def file? (name : String) : Option File := spec.files.find? fun f => f.metadata.name = name

/-- The first volume of a name. -/
def volume? (name : String) : Option Volume := spec.volumes.find? fun v => v.metadata.name = name

end Specification
end PodCompiler
