import PodCompiler.Compile.Naming
import PodCompiler.Notice
import PodCompiler.SlashPath

/-!
# PodCompiler — the files of a step

A file becomes a config map with a single entry. The pod shows that entry under the last element
of the path the step asks for, in a volume that is mounted on the directory before it; only both
together put the file where it belongs.

* `Step.configMaps` are the config maps of a step, one for each identifier.
* `Step.fileVolumes` and `Step.fileMounts` are the volumes and mounts, one for each reference to a
  file that is defined.
-/

namespace PodCompiler

/-- The name that a mounted file has in its directory. -/
def FileRef.fileName (ref : FileRef) : String := String.ofList (SlashPath.base ref.path.toList)

/-- The directory that a file is mounted in. -/
def FileRef.directory (ref : FileRef) : String :=
  String.ofList (SlashPath.parent ref.path.toList)

/-- The config map of a file. -/
def File.configMap (spec : Specification) (file : File) : ConfigMap :=
  { metadata := { name := file.metadata.uid, namespaceName := spec.metadata.namespace? }
    data := [(file.metadata.uid, file.data)] }

/-- The members of a list whose key has not come before. -/
def distinctBy (key : α → String) (seen : List String) : List α → List α
  | [] => []
  | a :: rest =>
    if key a ∈ seen then distinctBy key seen rest
    else a :: distinctBy key (key a :: seen) rest

/-- The files that a step refers to, in order of reference. -/
def Step.referencedFiles (spec : Specification) (step : Step) : List File :=
  step.files.filterMap fun ref => spec.file? ref.name

/-- The config maps of a step, in order of first reference. -/
def Step.configMaps (spec : Specification) (step : Step) : List ConfigMap :=
  (distinctBy (·.metadata.uid) [] (step.referencedFiles spec)).map (·.configMap spec)

/-- The volume that shows a file. -/
def FileRef.volume (ref : FileRef) (file : File) : PodVolume :=
  { name := file.metadata.uid
    source := .configMap file.metadata.uid
      [{ key := file.metadata.uid, path := ref.fileName, mode := ref.mode }] }

/-- The volume of a reference to a file, if the file is defined. -/
def Step.fileVolume (spec : Specification) (step : Step) (ref : FileRef) :
    Logged (List PodVolume) :=
  match spec.file? ref.name with
  | some file => pure [ref.volume file]
  | none => do
    Logged.note (.unknownFile step.metadata.name ref.name)
    pure []

/-- The volumes of a step's files. -/
def Step.fileVolumes (spec : Specification) (step : Step) : Logged (List PodVolume) :=
  Logged.gather (step.fileVolume spec) step.files

/-- The mounts of a step's files. -/
def Step.fileMounts (spec : Specification) (step : Step) : List Mount :=
  step.files.filterMap fun ref =>
    (spec.file? ref.name).map fun file =>
      { name := file.metadata.uid, mountPath := ref.directory }

end PodCompiler
