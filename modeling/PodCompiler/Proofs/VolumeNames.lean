import PodCompiler.Proofs.Parts
import Mathlib.Data.List.Nodup

/-!
# PodCompiler — names of a pod's volumes

A cluster refuses a pod two of whose volumes have one name. A volume for a directory or for a file
is named by the identifier of the volume or file behind it, a volume for an item of secrets by that
identifier, a hyphen and the item's key. Secret objects and config maps are made once however
often a step refers to them, but volumes are made anew for each reference, so even a specification
without shared identifiers can give a pod that has two volumes of one name.

`Separate` lists what it takes: nothing is referred to twice, no two items of a volume have one
key, and no name with a key in it is at the same time a name of something else. The three
conditions are about different pairs of volumes: those of two references to one entity, those of
one reference, and those of different entities.

Main results:

* `podVolume_name` — how a part's volume is named.
* `shared_name` — two references to one entity share the names of their volumes.
* `volume_names_nodup_iff` — when the volumes of a pod have different names.
-/

namespace PodCompiler

/-! ## How volumes are named -/

/-- The identifier of the volume or file behind a part. -/
def Part.uid : Part → String
  | .directory _ volume _ => volume.metadata.uid
  | .item _ volume _ => volume.metadata.uid
  | .file _ content => content.metadata.uid

/-- The key of the item that a part shows, if it shows one. -/
def Part.key? : Part → Option String
  | .item _ _ resolved => some resolved.item.key
  | _ => none

/-- The name of a volume for an entity as a whole, or for an item of it. -/
def volumeName (uid : String) : Option String → String
  | none => uid
  | some key => uid ++ "-" ++ key

/-- The volume of a part is named by the identifier behind the part and by the key of the item. -/
theorem podVolume_name (part : Part) : part.podVolume.name = volumeName part.uid part.key? := by
  cases part with
  | directory ref volume path => rfl
  | item ref volume resolved => rfl
  | file ref content => rfl

theorem volumeName_injective (uid : String) : Function.Injective (volumeName uid) := by
  intro k k' hName
  have hChars : (volumeName uid k).toList = (volumeName uid k').toList := by rw [hName]
  cases k with
  | none =>
    cases k' with
    | none => rfl
    | some key' =>
      -- a name with a key is longer than one without
      simp [volumeName] at hChars
  | some key =>
    cases k' with
    | none => simp [volumeName] at hChars
    | some key' =>
      simp only [volumeName, String.toList_append, List.append_cancel_left_eq] at hChars
      rw [String.toList_inj.mp hChars]

/-! ## Entities behind references -/

/-- The identifier of the volume or file that a reference stands for, if it comes to anything. -/
def MountRef.uid? (spec : Specification) (ref : MountRef) : Option String :=
  (ref.parts spec).head?.map Part.uid

/-- The parts of a reference to a volume are parts of one volume of the specification. -/
theorem parts_of_volumeRef {spec : Specification} {ref : VolumeRef} {part : Part}
    (hPart : part ∈ (MountRef.volume ref).parts spec) :
    ∃ volume, spec.volume? ref.name = some volume ∧ volume ∈ spec.volumes ∧
      (MountRef.volume ref).parts spec = volume.parts spec ref ∧
      part.uid = volume.metadata.uid := by
  obtain ⟨volume, hVolume, hKinds⟩ := mem_volumeRef_parts hPart
  refine ⟨volume, hVolume, List.mem_of_find?_eq_some hVolume, ?_, ?_⟩
  · rw [MountRef.parts, hVolume]
  · rcases hKinds with ⟨path, -, rfl⟩ | ⟨source, item, resolved, -, -, -, rfl⟩
    · rfl
    · rfl

/-- All parts of a reference have the identifier that the reference stands for. -/
theorem uid?_eq_some_of_mem {spec : Specification} {ref : MountRef} {part : Part}
    (hPart : part ∈ ref.parts spec) : ref.uid? spec = some part.uid := by
  obtain ⟨first, hFirst⟩ := Option.isSome_iff_exists.mp
    (List.isSome_head?.mpr (List.ne_nil_of_mem hPart))
  have hMem : first ∈ ref.parts spec := List.mem_of_head? hFirst
  rw [MountRef.uid?, hFirst, Option.map_some]
  cases ref with
  | volume ref =>
    obtain ⟨volume, hVolume, -, -, hUid⟩ := parts_of_volumeRef hPart
    obtain ⟨volume', hVolume', -, -, hUid'⟩ := parts_of_volumeRef hMem
    rw [hVolume] at hVolume'
    rw [hUid, hUid', Option.some.inj hVolume']
  | file ref =>
    obtain ⟨file, hFile, rfl⟩ := mem_fileRef_parts hPart
    obtain ⟨file', hFile', rfl⟩ := mem_fileRef_parts hMem
    rw [hFile] at hFile'
    rw [Option.some.inj hFile']

theorem mem_of_uid? {spec : Specification} {ref : MountRef} {uid : String}
    (hUid : ref.uid? spec = some uid) : ∃ part ∈ ref.parts spec, part.uid = uid := by
  obtain ⟨part, hHead, hPart⟩ := Option.map_eq_some_iff.mp hUid
  exact ⟨part, List.mem_of_head? hHead, hPart⟩

/-- The volumes for the parts of a volume are the same for all references to it. -/
theorem podVolumes_of_volume (spec : Specification) (volume : Volume) (ref ref' : VolumeRef) :
    (volume.parts spec ref).map Part.podVolume = (volume.parts spec ref').map Part.podVolume := by
  rw [Volume.parts, Volume.parts]
  cases volume.kind? with
  | none => rfl
  | some kind =>
    cases kind with
    | emptyDir source => rfl
    | hostPath source => rfl
    | secret source =>
      rw [List.map_map, List.map_map]
      rfl

/-- The identifiers of the volumes and files of a specification. -/
def Specification.mountUids (spec : Specification) : List String :=
  spec.volumes.map (·.metadata.uid) ++ spec.files.map (·.metadata.uid)

/-- Two references to one entity share the names of their volumes. -/
theorem shared_name {spec : Specification} (hUids : spec.mountUids.Nodup) {a b : MountRef}
    {p q : Part} (hp : p ∈ a.parts spec) (hq : q ∈ b.parts spec) (hUid : p.uid = q.uid) :
    ∃ r ∈ b.parts spec, r.podVolume.name = p.podVolume.name := by
  obtain ⟨hVolumes, hFiles, hApart⟩ := List.nodup_append.mp hUids
  cases a with
  | volume a =>
    obtain ⟨volume, -, hMem, hParts, hp'⟩ := parts_of_volumeRef hp
    cases b with
    | volume b =>
      obtain ⟨volume', -, hMem', hParts', hq'⟩ := parts_of_volumeRef hq
      have hSame : volume = volume' :=
        List.inj_on_of_nodup_map hVolumes hMem hMem' (by rw [← hp', ← hq', hUid])
      subst hSame
      -- the same volume gives the same list of volumes of the pod
      have hShared : p.podVolume ∈ (volume.parts spec b).map Part.podVolume := by
        rw [podVolumes_of_volume spec volume b a, ← hParts]
        exact List.mem_map_of_mem hp
      obtain ⟨r, hr, hName⟩ := List.mem_map.mp hShared
      exact ⟨r, hParts' ▸ hr, by rw [hName]⟩
    | file b =>
      obtain ⟨file, hFile, rfl⟩ := mem_fileRef_parts hq
      exact absurd (by rw [← hp', hUid]; rfl)
        (hApart _ (List.mem_map_of_mem hMem) _
          (List.mem_map_of_mem (List.mem_of_find?_eq_some hFile)))
  | file a =>
    obtain ⟨file, hFile, rfl⟩ := mem_fileRef_parts hp
    cases b with
    | volume b =>
      obtain ⟨volume, -, hMem, -, hq'⟩ := parts_of_volumeRef hq
      exact absurd (by rw [← hq', ← hUid]; rfl)
        (hApart _ (List.mem_map_of_mem hMem) _
          (List.mem_map_of_mem (List.mem_of_find?_eq_some hFile)))
    | file b =>
      obtain ⟨file', hFile', rfl⟩ := mem_fileRef_parts hq
      exact ⟨_, hq, hUid.symm⟩

/-! ## Names within one reference -/

/-- The volumes of one reference have different names if the items have different keys. -/
theorem nodup_names_iff_keys (spec : Specification) (ref : MountRef) :
    ((ref.parts spec).map fun part => part.podVolume.name).Nodup ↔
      ((ref.parts spec).map Part.key?).Nodup := by
  cases hUid : ref.uid? spec with
  | none =>
    have hNil : ref.parts spec = [] := by simpa [MountRef.uid?] using hUid
    simp [hNil]
  | some uid =>
    have hNames : (ref.parts spec).map (fun part => part.podVolume.name) =
        ((ref.parts spec).map Part.key?).map (volumeName uid) := by
      rw [List.map_map]
      apply List.map_congr_left
      intro part hPart
      rw [uid?_eq_some_of_mem hPart] at hUid
      rw [podVolume_name, Function.comp_apply, Option.some.inj hUid]
    rw [hNames, List.nodup_map_iff (volumeName_injective uid)]

/-! ## Names of a pod's volumes -/

/-- What it takes for the volumes of a step's pod to have different names. -/
structure Separate (spec : Specification) (step : Step) : Prop where
  /-- No volume or file that comes to anything is referred to twice. -/
  once : (step.mountRefs.filterMap (·.uid? spec)).Nodup
  /-- The items of a volume that resolve have different keys. -/
  keys : ∀ ref ∈ step.mountRefs, ((ref.parts spec).map Part.key?).Nodup
  /-- The name made for an item is no name of a volume for another entity. -/
  apart : ∀ p ∈ step.parts spec, ∀ q ∈ step.parts spec, ∀ key ∈ p.key?,
    p.uid ≠ q.uid → p.uid ++ "-" ++ key ≠ q.podVolume.name

/-- Volumes for different entities have different names if the names made for items keep apart. -/
theorem Separate.name_ne {spec : Specification} {step : Step} (hSeparate : Separate spec step)
    {p q : Part} (hp : p ∈ step.parts spec) (hq : q ∈ step.parts spec) (hUid : p.uid ≠ q.uid) :
    p.podVolume.name ≠ q.podVolume.name := by
  rw [podVolume_name p]
  cases hKey : p.key? with
  | some key => exact hSeparate.apart p hp q hq key hKey hUid
  | none =>
    cases hKey' : q.key? with
    | some key =>
      have hNe := hSeparate.apart q hq p hp key hKey' hUid.symm
      rw [podVolume_name p, hKey] at hNe
      rw [podVolume_name q, hKey']
      exact hNe.symm
    | none =>
      rw [podVolume_name q, hKey']
      exact hUid

/-- If the names are different, the three conditions hold. -/
theorem separate_of_nodup {spec : Specification} {step : Step} (hUids : spec.mountUids.Nodup)
    (hNodup : ((step.parts spec).map fun part => part.podVolume.name).Nodup) :
    Separate spec step := by
  have hBlocks := hNodup
  rw [Step.parts, List.map_flatMap, List.nodup_flatMap] at hBlocks
  obtain ⟨hEach, hDisjoint⟩ := hBlocks
  refine ⟨?once, fun ref hRef => (nodup_names_iff_keys spec ref).mp (hEach ref hRef), ?apart⟩
  case once =>
    rw [List.Nodup, List.pairwise_filterMap]
    refine hDisjoint.imp ?_
    rintro a b hNames uid hA uid' hB rfl
    -- two references to one entity would share a name
    obtain ⟨p, hp, hpUid⟩ := mem_of_uid? hA
    obtain ⟨q, hq, hqUid⟩ := mem_of_uid? hB
    obtain ⟨r, hr, hName⟩ := shared_name hUids hp hq (hpUid.trans hqUid.symm)
    exact List.disjoint_left.mp hNames (List.mem_map_of_mem hp)
      (List.mem_map.mpr ⟨r, hr, hName⟩)
  case apart =>
    intro p hp q hq key hKey hUid hName
    -- only one part has the name, and it has only one identifier
    have hSame : p = q := by
      apply List.inj_on_of_nodup_map hNodup hp hq
      rw [podVolume_name p, hKey]
      exact hName
    exact hUid (by rw [hSame])

/-- If the three conditions hold, the names are different. -/
theorem Separate.nodup {spec : Specification} {step : Step} (hSeparate : Separate spec step) :
    ((step.parts spec).map fun part => part.podVolume.name).Nodup := by
  rw [Step.parts, List.map_flatMap, List.nodup_flatMap]
  refine ⟨fun ref hRef => (nodup_names_iff_keys spec ref).mpr (hSeparate.keys ref hRef), ?_⟩
  have hOnce := hSeparate.once
  rw [List.Nodup, List.pairwise_filterMap] at hOnce
  refine hOnce.imp_of_mem ?_
  intro a b hA hB hNe
  rw [Function.onFun_apply, List.disjoint_left]
  intro name hInA hInB
  obtain ⟨p, hp, rfl⟩ := List.mem_map.mp hInA
  obtain ⟨q, hq, hName⟩ := List.mem_map.mp hInB
  -- the references are to different entities, and so their names keep apart
  have hUid : p.uid ≠ q.uid :=
    hNe _ (uid?_eq_some_of_mem hp) _ (uid?_eq_some_of_mem hq)
  exact hSeparate.name_ne (List.mem_flatMap.mpr ⟨a, hA, hp⟩) (List.mem_flatMap.mpr ⟨b, hB, hq⟩)
    hUid hName.symm

/-- **Names of volumes.** Where no two volumes or files of a specification have one identifier, the
volumes of a step's pod have different names exactly if the step refers to nothing twice, the items
of a volume have different keys, and no name made for an item is that of something else. -/
theorem volume_names_nodup_iff {spec : Specification} (hUids : spec.mountUids.Nodup)
    (step : Step) :
    ((step.compile spec).value.pod.volumes.map (·.name)).Nodup ↔ Separate spec step := by
  have hParts : (step.compile spec).value.pod.volumes.map (·.name) =
      (step.parts spec).map fun part => part.podVolume.name := by
    rw [compile_volumes, List.map_map]
    rfl
  rw [hParts]
  exact ⟨separate_of_nodup hUids, Separate.nodup⟩

/-- A specification with scratch space, certificates and a file. -/
def workshop : Specification :=
  { metadata := { uid := "spec-uid", name := "pipeline", namespaceName := "ci" }
    secrets :=
      [{ metadata := .new "uid-ca" "certs-tls-ca", data := "pem" },
        { metadata := .new "uid-key" "certs-tls-key", data := "pem" }]
    files := [{ metadata := .new "uid-settings" "settings", data := "debug = true" }]
    volumes :=
      [{ metadata := .new "vol-workspace" "workspace", emptyDir := some {} },
        { metadata := .new "vol-certs" "certs"
          secret := some
            { name := "tls"
              items := [{ key := "ca", path := "ca.pem" }, { key := "key", path := "key.pem" }] } }] }

/-- A step that uses everything in the workshop once. -/
def diligent : Step :=
  { metadata := .new "step-uid" "build"
    image := "alpine"
    files := [{ name := "settings", path := "/etc/app/settings.toml" }]
    volumes := [{ name := "workspace", path := "/src" }, { name := "certs", path := "/etc/tls" }] }

/-- The four volumes of a step that uses everything once have different names. -/
theorem diligent_names_nodup :
    workshop.mountUids.Nodup ∧
      ((diligent.compile workshop).value.pod.volumes.map (·.name)).Nodup :=
  ⟨by decide,
    (volume_names_nodup_iff (by decide) diligent).mpr ⟨by decide, by decide, by decide⟩⟩

/-- A step that wants the settings in two places. -/
def twofold : Step :=
  { metadata := .new "step-uid" "build"
    image := "alpine"
    files :=
      [{ name := "settings", path := "/etc/app/settings.toml" },
        { name := "settings", path := "/opt/app/settings.toml" }] }

/-- A file that is wanted in two places makes two volumes of one name. -/
theorem twofold_names_not_nodup :
    workshop.mountUids.Nodup ∧
      ¬ ((twofold.compile workshop).value.pod.volumes.map (·.name)).Nodup := by
  decide

end PodCompiler
