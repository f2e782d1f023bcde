import PodCompiler.Specification
import PodCompiler.Tree

/-!
# PodCompiler — specifications as value trees

The tree of a specification and of everything in it. Every field is written, whether or not it
could be left out; what may be missing is null when it is.

* `Specification.tree` and its companions are undone by the readers of
  `PodCompiler.Specification.Reading`.
-/

namespace PodCompiler

/-- A map as an object. -/
def SortedMap.tree (m : SortedMap String) : Tree := .textFields m.entries

/-- The tree of metadata. -/
def Metadata.tree (m : Metadata) : Tree :=
  .object
    [("uid", .text m.uid), ("name", .text m.name), ("namespace", .text m.namespaceName),
      ("labels", m.labels.tree)]

/-- The tree of registry credentials. -/
def RegistryAuth.tree (a : RegistryAuth) : Tree :=
  .object
    [("address", .text a.address), ("username", .text a.username), ("password", .text a.password)]

/-- The tree of the registries. -/
def Registries.tree (r : Registries) : Tree :=
  .object [("auths", .list (r.auths.map RegistryAuth.tree))]

/-- The tree of a secret. -/
def Secret.tree (s : Secret) : Tree :=
  .object [("metadata", s.metadata.tree), ("data", .text s.data)]

/-- The tree of a file. -/
def File.tree (f : File) : Tree :=
  .object [("metadata", f.metadata.tree), ("data", .text f.data)]

/-- The tree of scratch space. -/
def EmptyDirSource.tree (_ : EmptyDirSource) : Tree := .object []

/-- The tree of a directory of the machine. -/
def HostPathSource.tree (s : HostPathSource) : Tree := .object [("path", .text s.path)]

/-- The tree of a projected secret. -/
def SecretItem.tree (i : SecretItem) : Tree :=
  .object [("key", .text i.key), ("path", .text i.path), ("mode", .orNull (i.mode.map .int32))]

/-- The tree of projected secrets. -/
def SecretSource.tree (s : SecretSource) : Tree :=
  .object [("name", .text s.name), ("items", .list (s.items.map SecretItem.tree))]

/-- The tree of a volume. -/
def Volume.tree (v : Volume) : Tree :=
  .object
    [("metadata", v.metadata.tree), ("empty_dir", .orNull (v.emptyDir.map EmptyDirSource.tree)),
      ("host_path", .orNull (v.hostPath.map HostPathSource.tree)),
      ("secret", .orNull (v.secret.map SecretSource.tree))]

/-- The name under which a pull policy is written. -/
def PullPolicy.name : PullPolicy → String
  | .always => "always"
  | .never => "never"
  | .ifNotExists => "if_not_exists"
  | .unspecified => "default"

/-- The tree of a port. -/
def Port.tree (p : Port) : Tree := .object [("port", .int32 p.port), ("host", .int32 p.host)]

/-- The tree of resource amounts. -/
def ResourceAmounts.tree (r : ResourceAmounts) : Tree :=
  .object [("cpu", .int64 r.cpu), ("memory", .int64 r.memory)]

/-- The tree of resources. -/
def Resources.tree (r : Resources) : Tree :=
  .object
    [("limits", .orNull (r.limits.map ResourceAmounts.tree)),
      ("requests", .orNull (r.requests.map ResourceAmounts.tree))]

/-- The tree of a reference to a secret. -/
def SecretRef.tree (r : SecretRef) : Tree :=
  .object [("name", .text r.name), ("env", .text r.env)]

/-- The tree of a reference to a file. -/
def FileRef.tree (r : FileRef) : Tree :=
  .object [("name", .text r.name), ("path", .text r.path), ("mode", .orNull (r.mode.map .int32))]

/-- The tree of a reference to a volume. -/
def VolumeRef.tree (r : VolumeRef) : Tree :=
  .object [("name", .text r.name), ("path", .text r.path)]

/-- The tree of a step. -/
def Step.tree (s : Step) : Tree :=
  .object
    [("metadata", s.metadata.tree), ("image", .text s.image), ("command", .texts s.command),
      ("args", .texts s.args), ("working_dir", .orNull (s.workingDir.map .text)),
      ("pull_policy", .text s.pullPolicy.name), ("privileged", .bool s.privileged),
      ("envs", s.envs.tree), ("ports", .list (s.ports.map Port.tree)),
      ("resources", .orNull (s.resources.map Resources.tree)),
      ("secrets", .list (s.secrets.map SecretRef.tree)),
      ("files", .list (s.files.map FileRef.tree)),
      ("volumes", .list (s.volumes.map VolumeRef.tree)),
      ("automount_service_account_token", .orNull (s.automountToken.map .bool))]

/-- The tree of a specification. -/
def Specification.tree (s : Specification) : Tree :=
  .object
    [("metadata", s.metadata.tree), ("docker", s.registries.tree),
      ("steps", .list (s.steps.map Step.tree)), ("secrets", .list (s.secrets.map Secret.tree)),
      ("files", .list (s.files.map File.tree)), ("volumes", .list (s.volumes.map Volume.tree))]

end PodCompiler
