import PodCompiler.Proofs.Parts
import Mathlib.Data.List.Forall2

/-!
# PodCompiler — volumes and mounts in step

A pod declares its volumes, its container declares where it sees them, and the two lists know of
each other only by name. They are made by separate traversals, which skip what does not resolve
and turn one reference to a volume of secrets into many volumes. Here they are shown to come in
the same blocks, one block for each reference of the step, so that the mount at each position is
that of the volume at the same position.

`Shown` says what a volume and its mount have to do with the reference behind them, for each of the
three sources a volume can have. A volume's source is a single value here; that it is also written
as a single field is part of the result.

Main results:

* `shown_of_part` — the volume and the mount of a part belong to the part's reference.
* `volumes_pair_with_mounts` — the volumes and mounts of a compiled step pair up.
-/

namespace PodCompiler

/-- The name of the field that a source is written in. -/
def PodVolumeSource.field : PodVolumeSource → String
  | .hostPath _ => "hostPath"
  | .secret _ _ => "secret"
  | .configMap _ _ => "configMap"

/-- The fields of a written volume beside its name. -/
def PodVolume.sourceFields (v : PodVolume) : List String :=
  match v.tree with
  | .object fields => (fields.map (·.1)).filter fun name => name ≠ "name"
  | _ => []

/-- What a volume and a mount have to do with the reference they were made for. -/
def Shown (spec : Specification) (ref : MountRef) (volume : PodVolume) (mount : Mount) : Prop :=
  match ref, volume.source with
  | .volume ref, .hostPath _ =>
    -- the directory of the volume referred to, under the declared path
    mount.mountPath = ref.path ∧ mount.subPath = none ∧
      ∃ declared, spec.volume? ref.name = some declared ∧
        declared.hostDirectory spec = some volume
  | .volume ref, .secret _ projections =>
    -- one item of the volume referred to, under its path below the declared path
    ∃ projection, projections = [projection] ∧ mount.subPath = some projection.path ∧
      mount.mountPath = ref.path ++ "/" ++ projection.path ∧
      ∃ declared source item, spec.volume? ref.name = some declared ∧
        declared.kind? = some (.secret source) ∧ item ∈ source.items ∧
        volume.name = declared.itemName item ∧ projection.path = item.path
  | .file ref, .configMap configMap projections =>
    -- the only entry of the config map of the file referred to
    (∃ projection, projections = [projection] ∧ projection.key = configMap) ∧
      mount.subPath = none ∧
      ∃ declared, spec.file? ref.name = some declared ∧ declared.metadata.uid = configMap
  | _, _ => False

/-- The volume and the mount of a part. -/
def Part.pair (part : Part) : PodVolume × Mount := (part.podVolume, part.mount)

/-- A volume is written with exactly one source. -/
theorem sourceFields_eq (v : PodVolume) : v.sourceFields = [v.source.field] := by
  obtain ⟨name, source⟩ := v
  cases source with
  | hostPath path => rfl
  | secret secret items => rfl
  | configMap configMap items => rfl

/-- The mount of a part names the volume of the part. -/
theorem mount_name (part : Part) : part.mount.name = part.podVolume.name := by
  cases part with
  | directory ref volume path => rfl
  | item ref volume resolved => rfl
  | file ref content => rfl

/-- The volume and the mount of a part belong to the reference that the part is of. -/
theorem shown_of_part {spec : Specification} {ref : MountRef} {part : Part}
    (hPart : part ∈ ref.parts spec) : Shown spec ref part.podVolume part.mount := by
  cases ref with
  | volume ref =>
    obtain ⟨volume, hVolume, ⟨path, hDirectory, rfl⟩ |
      ⟨source, item, resolved, hKind, hItem, hResolve, rfl⟩⟩ := mem_volumeRef_parts hPart
    · exact ⟨rfl, rfl, volume, hVolume, hDirectory⟩
    · obtain ⟨secret, -, rfl⟩ := Option.map_eq_some_iff.mp hResolve
      exact ⟨_, rfl, rfl, rfl, volume, source, item, hVolume, hKind, hItem, rfl, rfl⟩
  | file ref =>
    obtain ⟨file, hFile, rfl⟩ := mem_fileRef_parts hPart
    exact ⟨⟨_, rfl, rfl⟩, rfl, file, hFile, rfl⟩

/-- **Pairing.** The volumes of a compiled pod and the mounts of its container have the same names
in the same order, so that no mount names a volume that is not there; every volume has one source;
and both lists come in blocks, one for each reference of the step, of volumes and mounts that
belong together. -/
theorem volumes_pair_with_mounts (spec : Specification) (step : Step) :
    (step.compile spec).value.pod.container.mounts.map (·.name) =
        (step.compile spec).value.pod.volumes.map (·.name) ∧
      (∀ mount ∈ (step.compile spec).value.pod.container.mounts,
        ∃ volume ∈ (step.compile spec).value.pod.volumes, volume.name = mount.name) ∧
      (∀ volume ∈ (step.compile spec).value.pod.volumes,
        volume.sourceFields = [volume.source.field]) ∧
      ∃ blocks : List (List (PodVolume × Mount)),
        (step.compile spec).value.pod.volumes = blocks.flatten.map Prod.fst ∧
        (step.compile spec).value.pod.container.mounts = blocks.flatten.map Prod.snd ∧
        List.Forall₂ (fun ref block => ∀ pair ∈ block, Shown spec ref pair.1 pair.2)
          step.mountRefs blocks := by
  rw [compile_volumes, compile_mounts]
  refine ⟨?names, ?closed, fun volume _ => sourceFields_eq volume, ?blocks⟩
  case names =>
    -- both lists are read off the same parts, so it is enough to compare part by part
    rw [List.map_map, List.map_map]
    congr 1
    funext part
    exact mount_name part
  case closed =>
    intro mount hMount
    obtain ⟨part, hPart, rfl⟩ := List.mem_map.mp hMount
    exact ⟨part.podVolume, List.mem_map_of_mem hPart, (mount_name part).symm⟩
  case blocks =>
    -- a block holds what the parts of one reference are read for
    have hFlatten : (step.mountRefs.map fun ref => (ref.parts spec).map Part.pair).flatten =
        (step.parts spec).map Part.pair := by
      rw [← List.flatMap_def, Step.parts, List.map_flatMap]
    refine ⟨step.mountRefs.map fun ref => (ref.parts spec).map Part.pair, ?_, ?_, ?_⟩
    · rw [hFlatten, List.map_map]
      rfl
    · rw [hFlatten, List.map_map]
      rfl
    · rw [List.forall₂_map_right_iff, List.forall₂_same]
      intro ref _ pair hPair
      obtain ⟨part, hPart, rfl⟩ := List.mem_map.mp hPair
      exact shown_of_part hPart

end PodCompiler
