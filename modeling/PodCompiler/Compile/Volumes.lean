import PodCompiler.Compile.Naming
import PodCompiler.Notice
import PodCompiler.SlashPath

/-!
# PodCompiler — the volumes of a step

Scratch space and directories of the machine become directories of the machine; a volume of
secrets becomes one volume for every item whose secret is defined.

* `Volume.resolveItems` finds the secrets behind the items of a volume.
* `Step.podVolumes` and `Step.volumeMounts` are the volumes and mounts of a step's references to
  volumes; they come in the same order.
-/

namespace PodCompiler

/-! ## Items of secret volumes -/

/-- An item of a volume with the secret it stands for. -/
structure ResolvedItem where
  item : SecretItem
  lookupKey : String
  secret : Secret
  deriving DecidableEq

/-- The name under which the secret of an item is defined. -/
def Volume.lookupKey (volume : Volume) (source : SecretSource) (item : SecretItem) : String :=
  volume.metadata.name ++ "-" ++ source.name ++ "-" ++ item.key

/-- The secret of an item, if it is defined. -/
def Volume.resolveItem (spec : Specification) (volume : Volume) (source : SecretSource)
    (item : SecretItem) : Logged (List ResolvedItem) :=
  let lookupKey := volume.lookupKey source item
  match spec.secret? lookupKey with
  | some secret => pure [{ item, lookupKey, secret }]
  | none => do
    Logged.note (.unresolvedItem volume.metadata.name item.key lookupKey)
    pure []

/-- The items of a volume whose secrets are defined. -/
def Volume.resolveItems (spec : Specification) (volume : Volume) (source : SecretSource) :
    Logged (List ResolvedItem) :=
  Logged.gather (volume.resolveItem spec source) source.items

/-! ## Volumes of the pod -/

/-- The directory of scratch space. The namespace and the identifier are cleaned each on its own,
so that neither leads out of its part of the path. -/
def scratchPath (namespaceName uid : String) : String :=
  String.ofList <| scratchRoot.toList ++
    (SlashPath.clean namespaceName.toList ++ SlashPath.clean uid.toList).flatMap ('/' :: ·)

/-- A volume of the pod for a directory of the machine. -/
def Volume.directory (volume : Volume) (path : String) : PodVolume :=
  { name := volume.metadata.uid, source := .hostPath path }

/-- The directory of the machine that a volume stands for, if it stands for one. -/
def Volume.hostDirectory (spec : Specification) (volume : Volume) : Option PodVolume :=
  match volume.kind? with
  | some (.emptyDir _) =>
    some (volume.directory (scratchPath spec.metadata.namespaceName volume.metadata.uid))
  | some (.hostPath source) => some (volume.directory source.path)
  | some (.secret _) => none
  | none => none

/-- The name of the pod's volume for one item of a volume. -/
def Volume.itemName (volume : Volume) (item : SecretItem) : String :=
  volume.metadata.uid ++ "-" ++ item.key

/-- The pod's volume for one item of a volume. -/
def Volume.itemVolume (volume : Volume) (resolved : ResolvedItem) : PodVolume :=
  { name := volume.itemName resolved.item
    source := .secret resolved.secret.metadata.uid
      [{ key := resolved.secret.metadata.uid, path := resolved.item.path
         mode := resolved.item.mode }] }

/-- The pod's volumes for the items of a volume. -/
def Volume.itemVolumes (spec : Specification) (volume : Volume) (source : SecretSource) :
    Logged (List PodVolume) := do
  let resolved ← volume.resolveItems spec source
  pure (resolved.map volume.itemVolume)

/-- The pod's volumes for one reference to a volume. -/
def Step.volumesOf (spec : Specification) (step : Step) (ref : VolumeRef) :
    Logged (List PodVolume) :=
  match spec.volume? ref.name with
  | none => do
    Logged.note (.unknownVolume step.metadata.name ref.name)
    pure []
  | some volume =>
    match volume.kind? with
    | some (.secret source) => volume.itemVolumes spec source
    | some _ => pure (volume.hostDirectory spec).toList
    | none => do
      Logged.note (.sourcelessVolume volume.metadata.name)
      pure []

/-- The pod's volumes for a step's references to volumes. -/
def Step.podVolumes (spec : Specification) (step : Step) : Logged (List PodVolume) :=
  Logged.gather (step.volumesOf spec) step.volumes

/-! ## Mounts -/

/-- Where the container sees one item of a volume. -/
def Volume.itemMount (volume : Volume) (ref : VolumeRef) (resolved : ResolvedItem) : Mount :=
  { name := volume.itemName resolved.item
    mountPath := ref.path ++ "/" ++ resolved.item.path
    subPath := some resolved.item.path }

/-- The mounts of one reference to a volume. -/
def VolumeRef.mounts (spec : Specification) (ref : VolumeRef) : Logged (List Mount) :=
  match spec.volume? ref.name with
  | none => pure []
  | some volume =>
    match volume.kind? with
    | some (.secret source) => do
      let resolved ← volume.resolveItems spec source
      pure (resolved.map (volume.itemMount ref))
    | some _ => pure [{ name := volume.metadata.uid, mountPath := ref.path }]
    | none => pure []

/-- The mounts of a step's references to volumes. -/
def Step.volumeMounts (spec : Specification) (step : Step) : Logged (List Mount) :=
  Logged.gather (·.mounts spec) step.volumes

end PodCompiler
