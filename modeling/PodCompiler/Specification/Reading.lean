import PodCompiler.Specification
import PodCompiler.Record

/-!
# PodCompiler — reading specifications

The fields of a specification and of everything in it: their names, their types, and what it
means that one is absent. The readers work for every notation.

* `Specification.read` reads a whole specification; `Step.read` a step by itself.
* `PullPolicy.ofName` knows every name of a pull policy; any other name leaves it unspecified.
-/

namespace PodCompiler

variable {ν : Type} (d : Dialect ν)

/-- A field that must be given. -/
def required (name : String) (read : Path → ν → Reading α) : Field ν α :=
  { name, read, absence := .required }

/-- A field that stands for a value when it is absent. -/
def defaulted (name : String) (read : Path → ν → Reading α) (fallback : α) : Field ν α :=
  { name, read, absence := .defaulted fallback }

/-- A field that may be null or, if it is named, absent. -/
def nullable (name : String) (read : Path → ν → Reading α) : Field ν (Option α) :=
  { name, read := d.optional read, absence := .named none }

/-- The pull policy of a name. -/
def PullPolicy.ofName : String → PullPolicy
  | "always" => .always
  | "never" => .never
  | "if_not_exists" => .ifNotExists
  | "if-not-exists" => .ifNotExists
  | _ => .unspecified

/-- Reads a pull policy. -/
def PullPolicy.read (path : Path) (v : ν) : Reading PullPolicy := do
  pure (.ofName (← d.variant path v))

/-! ## Metadata, credentials, secrets and files -/

/-- The fields of metadata. -/
def Metadata.fields : Fields ν [String, String, String, SortedMap String] :=
  .cons (required "uid" d.text) <|
  .cons (required "name" d.text) <|
  .cons (defaulted "namespace" d.text "") <|
  .cons (defaulted "labels" d.textMap .empty) .nil

/-- Reads metadata. -/
def Metadata.read (path : Path) (v : ν) : Reading Metadata := do
  let (uid, name, namespaceName, labels, ()) ← d.record "Metadata" (Metadata.fields d) path v
  pure { uid, name, namespaceName, labels }

/-- The fields of registry credentials. -/
def RegistryAuth.fields : Fields ν [String, String, String] :=
  .cons (required "address" d.text) <|
  .cons (required "username" d.text) <|
  .cons (required "password" d.text) .nil

/-- Reads registry credentials. -/
def RegistryAuth.read (path : Path) (v : ν) : Reading RegistryAuth := do
  let (address, username, password, ()) ← d.record "DockerAuth" (RegistryAuth.fields d) path v
  pure { address, username, password }

/-- The field of the registries. -/
def Registries.fields : Fields ν [List RegistryAuth] :=
  .cons (defaulted "auths" (d.list (RegistryAuth.read d)) []) .nil

/-- Reads the registries. -/
def Registries.read (path : Path) (v : ν) : Reading Registries := do
  let (auths, ()) ← d.record "DockerConfig" (Registries.fields d) path v
  pure { auths }

/-- The fields of a secret, and of a file. -/
def dataFields : Fields ν [Metadata, String] :=
  .cons (required "metadata" (Metadata.read d)) <|
  .cons (defaulted "data" d.text "") .nil

/-- Reads a secret. -/
def Secret.read (path : Path) (v : ν) : Reading Secret := do
  let (metadata, data, ()) ← d.record "Secret" (dataFields d) path v
  pure { metadata, data }

/-- Reads a file. -/
def File.read (path : Path) (v : ν) : Reading File := do
  let (metadata, data, ()) ← d.record "File" (dataFields d) path v
  pure { metadata, data }

/-! ## Volumes -/

/-- Reads scratch space. -/
def EmptyDirSource.read (path : Path) (v : ν) : Reading EmptyDirSource := do
  let () ← d.record "EmptyDirVolume" Fields.nil path v
  pure {}

/-- Reads a directory of the machine. -/
def HostPathSource.read (path : Path) (v : ν) : Reading HostPathSource := do
  let (source, ()) ← d.record "HostPathVolume" (.cons (required "path" d.text) .nil) path v
  pure { path := source }

/-- The fields of a projected secret. -/
def SecretItem.fields : Fields ν [String, String, Option Int32] :=
  .cons (required "key" d.text) <|
  .cons (required "path" d.text) <|
  .cons (nullable d "mode" d.int32) .nil

/-- Reads a projected secret. -/
def SecretItem.read (path : Path) (v : ν) : Reading SecretItem := do
  let (key, target, mode, ()) ← d.record "SecretItem" (SecretItem.fields d) path v
  pure { key, path := target, mode }

/-- The fields of projected secrets. -/
def SecretSource.fields : Fields ν [String, List SecretItem] :=
  .cons (required "name" d.text) <|
  .cons (defaulted "items" (d.list (SecretItem.read d)) []) .nil

/-- Reads projected secrets. -/
def SecretSource.read (path : Path) (v : ν) : Reading SecretSource := do
  let (name, items, ()) ← d.record "SecretVolume" (SecretSource.fields d) path v
  pure { name, items }

/-- The fields of a volume. -/
def Volume.fields :
    Fields ν [Metadata, Option EmptyDirSource, Option HostPathSource, Option SecretSource] :=
  .cons (required "metadata" (Metadata.read d)) <|
  .cons (nullable d "empty_dir" (EmptyDirSource.read d)) <|
  .cons (nullable d "host_path" (HostPathSource.read d)) <|
  .cons (nullable d "secret" (SecretSource.read d)) .nil

/-- Reads a volume. -/
def Volume.read (path : Path) (v : ν) : Reading Volume := do
  let (metadata, emptyDir, hostPath, secret, ()) ← d.record "Volume" (Volume.fields d) path v
  pure { metadata, emptyDir, hostPath, secret }

/-! ## Steps -/

/-- The fields of a port. -/
def Port.fields : Fields ν [Int32, Int32] :=
  .cons (required "port" d.int32) <|
  .cons (defaulted "host" d.int32 0) .nil

/-- Reads a port. -/
def Port.read (path : Path) (v : ν) : Reading Port := do
  let (port, host, ()) ← d.record "Port" (Port.fields d) path v
  pure { port, host }

/-- The fields of resource amounts. -/
def ResourceAmounts.fields : Fields ν [Int64, Int64] :=
  .cons (defaulted "cpu" d.int64 0) <|
  .cons (defaulted "memory" d.int64 0) .nil

/-- Reads resource amounts. -/
def ResourceAmounts.read (path : Path) (v : ν) : Reading ResourceAmounts := do
  let (cpu, memory, ()) ← d.record "ResourceObject" (ResourceAmounts.fields d) path v
  pure { cpu, memory }

/-- The fields of resources. -/
def Resources.fields : Fields ν [Option ResourceAmounts, Option ResourceAmounts] :=
  .cons (nullable d "limits" (ResourceAmounts.read d)) <|
  .cons (nullable d "requests" (ResourceAmounts.read d)) .nil

/-- Reads resources. -/
def Resources.read (path : Path) (v : ν) : Reading Resources := do
  let (limits, requests, ()) ← d.record "Resources" (Resources.fields d) path v
  pure { limits, requests }

/-- The fields of a reference to a secret. -/
def SecretRef.fields : Fields ν [String, String] :=
  .cons (required "name" d.text) <|
  .cons (required "env" d.text) .nil

/-- Reads a reference to a secret. -/
def SecretRef.read (path : Path) (v : ν) : Reading SecretRef := do
  let (name, env, ()) ← d.record "SecretVar" (SecretRef.fields d) path v
  pure { name, env }

/-- The fields of a reference to a file. -/
def FileRef.fields : Fields ν [String, String, Option Int32] :=
  .cons (required "name" d.text) <|
  .cons (required "path" d.text) <|
  .cons (nullable d "mode" d.int32) .nil

/-- Reads a reference to a file. -/
def FileRef.read (path : Path) (v : ν) : Reading FileRef := do
  let (name, target, mode, ()) ← d.record "FileMount" (FileRef.fields d) path v
  pure { name, path := target, mode }

/-- The fields of a reference to a volume. -/
def VolumeRef.fields : Fields ν [String, String] :=
  .cons (required "name" d.text) <|
  .cons (required "path" d.text) .nil

/-- Reads a reference to a volume. -/
def VolumeRef.read (path : Path) (v : ν) : Reading VolumeRef := do
  let (name, target, ()) ← d.record "VolumeMount" (VolumeRef.fields d) path v
  pure { name, path := target }

/-- The types of a step's fields. -/
abbrev Step.Types : List Type :=
  [Metadata, String, List String, List String, Option String, PullPolicy, Bool, SortedMap String,
    List Port, Option Resources, List SecretRef, List FileRef, List VolumeRef, Option Bool]

/-- The fields of a step. -/
def Step.fields : Fields ν Step.Types :=
  .cons (required "metadata" (Metadata.read d)) <|
  .cons (required "image" d.text) <|
  .cons (defaulted "command" (d.list d.text) []) <|
  .cons (defaulted "args" (d.list d.text) []) <|
  .cons (nullable d "working_dir" d.text) <|
  .cons (defaulted "pull_policy" (PullPolicy.read d) .unspecified) <|
  .cons (defaulted "privileged" d.bool false) <|
  .cons (defaulted "envs" d.textMap .empty) <|
  .cons (defaulted "ports" (d.list (Port.read d)) []) <|
  .cons (nullable d "resources" (Resources.read d)) <|
  .cons (defaulted "secrets" (d.list (SecretRef.read d)) []) <|
  .cons (defaulted "files" (d.list (FileRef.read d)) []) <|
  .cons (defaulted "volumes" (d.list (VolumeRef.read d)) []) <|
  .cons (nullable d "automount_service_account_token" d.bool) .nil

/-- Reads a step. -/
def Step.read (path : Path) (v : ν) : Reading Step := do
  let (metadata, image, command, args, workingDir, pullPolicy, privileged, envs, ports, resources,
    secrets, files, volumes, automountToken, ()) ← d.record "Step" (Step.fields d) path v
  pure
    { metadata, image, command, args, workingDir, pullPolicy, privileged, envs, ports, resources,
      secrets, files, volumes, automountToken }

/-! ## Specifications -/

/-- The fields of a specification. -/
def Specification.fields :
    Fields ν [Metadata, Registries, List Step, List Secret, List File, List Volume] :=
  .cons (required "metadata" (Metadata.read d)) <|
  .cons (defaulted "docker" (Registries.read d) {}) <|
  .cons (defaulted "steps" (d.list (Step.read d)) []) <|
  .cons (defaulted "secrets" (d.list (Secret.read d)) []) <|
  .cons (defaulted "files" (d.list (File.read d)) []) <|
  .cons (defaulted "volumes" (d.list (Volume.read d)) []) .nil

/-- Reads a specification. -/
def Specification.read (path : Path) (v : ν) : Reading Specification := do
  let (metadata, registries, steps, secrets, files, volumes, ()) ←
    d.record "Specification" (Specification.fields d) path v
  pure { metadata, registries, steps, secrets, files, volumes }

end PodCompiler
