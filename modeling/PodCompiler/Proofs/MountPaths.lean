import PodCompiler.Proofs.Parts
import Mathlib.Data.List.Nodup
import Mathlib.Data.List.Lattice
import Mathlib.Data.List.Pairwise

/-!
# PodCompiler — paths of a container's mounts

A cluster refuses a container with two mounts at one path, since one would hide the other. A step
declares a path for every reference, and three rules make mount paths of them: a directory is
mounted at the declared path, an item of secrets at its own path below the declared one, and a file
in the directory of the declared path. The declared paths may all be different and the mount paths
still meet, most easily where two files belong in one directory.

`Unhidden` lists what it takes beyond different declared paths, for each pair of rules. Two
directories need nothing more: they are where they were declared.

Main results:

* `disjoint_of_unhidden` — the mounts of different references have different paths.
* `mount_paths_nodup_iff` — when all mounts of a container have different paths.
-/

namespace PodCompiler

/-! ## Where parts are mounted -/

/-- The path that a reference declares. -/
def MountRef.path : MountRef → String
  | .volume ref => ref.path
  | .file ref => ref.path

/-- The paths that a step declares. -/
def Step.declaredPaths (step : Step) : List String := step.mountRefs.map MountRef.path

/-- The path of the item that a part shows below the declared path, if it shows one. -/
def Part.itemPath? : Part → Option String
  | .item _ _ resolved => some resolved.item.path
  | _ => none

/-- The mount path of a part of a volume: the declared path, or an item's path below it. -/
def VolumeRef.pathOf (ref : VolumeRef) : Option String → String
  | none => ref.path
  | some itemPath => ref.path ++ "/" ++ itemPath

theorem pathOf_injective (ref : VolumeRef) : Function.Injective ref.pathOf := by
  intro p q hPath
  have hChars : (ref.pathOf p).toList = (ref.pathOf q).toList := by rw [hPath]
  cases p with
  | none =>
    cases q with
    | none => rfl
    | some itemPath' =>
      -- a path below the declared one is longer
      simp [VolumeRef.pathOf] at hChars
  | some itemPath =>
    cases q with
    | none => simp [VolumeRef.pathOf] at hChars
    | some itemPath' =>
      simp only [VolumeRef.pathOf, String.toList_append, List.append_cancel_left_eq] at hChars
      rw [String.toList_inj.mp hChars]

/-- A part of a volume is mounted at the declared path, or below it. -/
theorem mountPath_volume {spec : Specification} {ref : VolumeRef} {part : Part}
    (hPart : part ∈ (MountRef.volume ref).parts spec) :
    part.mount.mountPath = ref.pathOf part.itemPath? := by
  obtain ⟨volume, -, ⟨path, -, rfl⟩ | ⟨source, item, resolved, -, -, -, rfl⟩⟩ :=
    mem_volumeRef_parts hPart
  · rfl
  · rfl

/-- A file is mounted in its directory. -/
theorem mountPath_file {spec : Specification} {ref : FileRef} {part : Part}
    (hPart : part ∈ (MountRef.file ref).parts spec) : part.mount.mountPath = ref.directory := by
  obtain ⟨file, -, rfl⟩ := mem_fileRef_parts hPart
  rfl

theorem exists_file_part {spec : Specification} {ref : FileRef}
    (hFile : (spec.file? ref.name).isSome = true) :
    ∃ part, part ∈ (MountRef.file ref).parts spec := by
  obtain ⟨file, hFile⟩ := Option.isSome_iff_exists.mp hFile
  exact ⟨.file ref file, by simp [MountRef.parts, hFile]⟩

/-- The mount paths of a reference. -/
def MountRef.mountPaths (spec : Specification) (ref : MountRef) : List String :=
  (ref.parts spec).map fun part => part.mount.mountPath

/-! ## One reference -/

/-- The mounts of a reference to a volume have different paths if its items have. -/
theorem nodup_mountPaths_volume (spec : Specification) (ref : VolumeRef) :
    ((MountRef.volume ref).mountPaths spec).Nodup ↔
      (((MountRef.volume ref).parts spec).map Part.itemPath?).Nodup := by
  have hPaths : (MountRef.volume ref).mountPaths spec =
      (((MountRef.volume ref).parts spec).map Part.itemPath?).map ref.pathOf := by
    rw [List.map_map]
    exact List.map_congr_left fun part hPart => mountPath_volume hPart
  rw [hPaths, List.nodup_map_iff (pathOf_injective ref)]

/-- A reference to a file has one mount at most. -/
theorem nodup_mountPaths_file (spec : Specification) (ref : FileRef) :
    ((MountRef.file ref).mountPaths spec).Nodup := by
  rw [MountRef.mountPaths, MountRef.parts]
  cases spec.file? ref.name with
  | none => exact List.nodup_nil
  | some file => exact List.nodup_singleton _

/-! ## Different references -/

/-- What it takes, beside different declared paths, for no mount to hide another. -/
structure Unhidden (spec : Specification) (step : Step) : Prop where
  /-- The items of a volume that resolve have different paths. -/
  items : ∀ ref ∈ step.volumes, (((MountRef.volume ref).parts spec).map Part.itemPath?).Nodup
  /-- No item stands where something of another volume is mounted. -/
  apart : ∀ a ∈ step.volumes, ∀ b ∈ step.volumes, a ≠ b →
    ∀ p ∈ (MountRef.volume a).parts spec, ∀ q ∈ (MountRef.volume b).parts spec,
      ∀ itemPath ∈ p.itemPath?, a.path ++ "/" ++ itemPath ≠ b.pathOf q.itemPath?
  /-- No two files that resolve belong in one directory. -/
  directories : ∀ a ∈ step.files, ∀ b ∈ step.files, a ≠ b →
    (spec.file? a.name).isSome = true → (spec.file? b.name).isSome = true →
      a.directory ≠ b.directory
  /-- No file that resolves belongs in a directory where something of a volume is mounted. -/
  outside : ∀ file ∈ step.files, (spec.file? file.name).isSome = true → ∀ ref ∈ step.volumes,
    ∀ part ∈ (MountRef.volume ref).parts spec, file.directory ≠ ref.pathOf part.itemPath?

variable {spec : Specification} {step : Step}

theorem mem_mountRefs_volume {ref : VolumeRef} :
    .volume ref ∈ step.mountRefs ↔ ref ∈ step.volumes := by
  simp [Step.mountRefs]

theorem mem_mountRefs_file {ref : FileRef} : .file ref ∈ step.mountRefs ↔ ref ∈ step.files := by
  simp [Step.mountRefs]

theorem file_isSome_of_mem {ref : FileRef} {path : String}
    (hPath : path ∈ (MountRef.file ref).mountPaths spec) :
    (spec.file? ref.name).isSome = true ∧ path = ref.directory := by
  obtain ⟨part, hPart, rfl⟩ := List.mem_map.mp hPath
  obtain ⟨file, hFile, rfl⟩ := mem_fileRef_parts hPart
  exact ⟨by rw [hFile]; rfl, rfl⟩

/-- Parts of different volumes are mounted at different paths. -/
theorem Unhidden.pathOf_ne (hUnhidden : Unhidden spec step) (hDeclared : step.declaredPaths.Nodup)
    {a b : VolumeRef} (hA : a ∈ step.volumes) (hB : b ∈ step.volumes) (hNe : a ≠ b) {p q : Part}
    (hp : p ∈ (MountRef.volume a).parts spec) (hq : q ∈ (MountRef.volume b).parts spec) :
    a.pathOf p.itemPath? ≠ b.pathOf q.itemPath? := by
  cases hItem : p.itemPath? with
  | some itemPath => exact hUnhidden.apart a hA b hB hNe p hp q hq itemPath hItem
  | none =>
    cases hItem' : q.itemPath? with
    | some itemPath =>
      have hApart := hUnhidden.apart b hB a hA hNe.symm q hq p hp itemPath hItem'
      rw [hItem] at hApart
      exact hApart.symm
    | none =>
      -- two directories are where they were declared
      intro hPath
      have hRefs : MountRef.volume a = .volume b := List.inj_on_of_nodup_map hDeclared
        (mem_mountRefs_volume.mpr hA) (mem_mountRefs_volume.mpr hB) hPath
      exact hNe (MountRef.volume.inj hRefs)

/-- The mounts of different references have different paths. -/
theorem disjoint_of_unhidden (hDeclared : step.declaredPaths.Nodup) (hUnhidden : Unhidden spec step)
    {a b : MountRef} (hA : a ∈ step.mountRefs) (hB : b ∈ step.mountRefs) (hNe : a ≠ b) :
    List.Disjoint (a.mountPaths spec) (b.mountPaths spec) := by
  rw [List.disjoint_left]
  intro path hInA hInB
  cases a with
  | volume a =>
    rw [mem_mountRefs_volume] at hA
    obtain ⟨p, hp, rfl⟩ := List.mem_map.mp hInA
    rw [mountPath_volume hp] at hInB
    cases b with
    | volume b =>
      have hRefs : a ≠ b := fun hEq => hNe (congrArg MountRef.volume hEq)
      obtain ⟨q, hq, hPath⟩ := List.mem_map.mp hInB
      rw [mountPath_volume hq] at hPath
      exact hUnhidden.pathOf_ne hDeclared hA (mem_mountRefs_volume.mp hB) hRefs hp hq hPath.symm
    | file b =>
      obtain ⟨hFile, hPath⟩ := file_isSome_of_mem hInB
      exact hUnhidden.outside b (mem_mountRefs_file.mp hB) hFile a hA p hp hPath.symm
  | file a =>
    rw [mem_mountRefs_file] at hA
    obtain ⟨hFile, rfl⟩ := file_isSome_of_mem hInA
    cases b with
    | volume b =>
      obtain ⟨q, hq, hPath⟩ := List.mem_map.mp hInB
      rw [mountPath_volume hq] at hPath
      exact hUnhidden.outside a hA hFile b (mem_mountRefs_volume.mp hB) q hq hPath.symm
    | file b =>
      obtain ⟨hFile', hPath⟩ := file_isSome_of_mem hInB
      exact hUnhidden.directories a hA b (mem_mountRefs_file.mp hB)
        (fun hEq => hNe (congrArg MountRef.file hEq)) hFile hFile' hPath

/-! ## All mounts -/

theorem compile_mountPaths (spec : Specification) (step : Step) :
    (step.compile spec).value.pod.container.mounts.map (·.mountPath) =
      step.mountRefs.flatMap (·.mountPaths spec) := by
  rw [compile_mounts, List.map_map, Step.parts, List.map_flatMap]
  rfl

/-- If the mount paths are different, nothing is hidden. -/
theorem unhidden_of_nodup (hNodup : (step.mountRefs.flatMap (·.mountPaths spec)).Nodup) :
    Unhidden spec step := by
  rw [List.nodup_flatMap] at hNodup
  obtain ⟨hEach, hDisjoint⟩ := hNodup
  -- no part of a reference is mounted where a part of another one is
  have hApart : ∀ {a b : MountRef}, a ∈ step.mountRefs → b ∈ step.mountRefs → a ≠ b →
      ∀ p ∈ a.parts spec, ∀ q ∈ b.parts spec, p.mount.mountPath ≠ q.mount.mountPath := by
    intro a b hA hB hNe p hp q hq hPath
    have hSymm : Std.Symm (Function.onFun List.Disjoint (MountRef.mountPaths spec)) :=
      ⟨fun _ _ hEmpty => List.Disjoint.symm hEmpty⟩
    have hEmpty := hDisjoint.forall hA hB hNe
    exact List.disjoint_left.mp hEmpty (List.mem_map_of_mem hp)
      (List.mem_map.mpr ⟨q, hq, hPath.symm⟩)
  refine ⟨?items, ?apart, ?directories, ?outside⟩
  case items =>
    intro ref hRef
    exact (nodup_mountPaths_volume spec ref).mp (hEach _ (mem_mountRefs_volume.mpr hRef))
  case apart =>
    intro a hA b hB hNe p hp q hq itemPath hItem
    have hPaths := hApart (mem_mountRefs_volume.mpr hA) (mem_mountRefs_volume.mpr hB)
      (fun hEq => hNe (MountRef.volume.inj hEq)) p hp q hq
    rw [mountPath_volume hp, mountPath_volume hq, hItem] at hPaths
    exact hPaths
  case directories =>
    intro a hA b hB hNe hFile hFile'
    obtain ⟨p, hp⟩ := exists_file_part hFile
    obtain ⟨q, hq⟩ := exists_file_part hFile'
    have hPaths := hApart (mem_mountRefs_file.mpr hA) (mem_mountRefs_file.mpr hB)
      (fun hEq => hNe (MountRef.file.inj hEq)) p hp q hq
    rw [mountPath_file hp, mountPath_file hq] at hPaths
    exact hPaths
  case outside =>
    intro file hMem hFile ref hRef part hPart
    obtain ⟨p, hp⟩ := exists_file_part hFile
    have hPaths := hApart (mem_mountRefs_file.mpr hMem) (mem_mountRefs_volume.mpr hRef)
      (by simp) p hp part hPart
    rw [mountPath_file hp, mountPath_volume hPart] at hPaths
    exact hPaths

/-- **Mount paths.** Where the declared paths of a step are different, slashes at their ends aside,
the mounts of its container have different paths exactly if nothing is hidden: the items of a
volume have different paths, no two files belong in one directory, and no item and no directory of
a file stands where something else is mounted. -/
theorem mount_paths_nodup_iff
    (hDeclared : (step.declaredPaths.map fun path => SlashPath.trimEnd path.toList).Nodup) :
    ((step.compile spec).value.pod.container.mounts.map (·.mountPath)).Nodup ↔
      Unhidden spec step := by
  -- paths that differ without their last slashes differ with them, and so do the references
  have hPaths : step.declaredPaths.Nodup := hDeclared.of_map _
  have hRefs : step.mountRefs.Nodup := hPaths.of_map _
  rw [compile_mountPaths]
  refine ⟨unhidden_of_nodup, fun hUnhidden => List.nodup_flatMap.mpr ⟨?_, ?_⟩⟩
  · -- one reference by itself
    intro ref hRef
    cases ref with
    | volume ref =>
      exact (nodup_mountPaths_volume spec ref).mpr
        (hUnhidden.items ref (mem_mountRefs_volume.mp hRef))
    | file ref => exact nodup_mountPaths_file spec ref
  · exact hRefs.pairwise_of_forall_ne fun a hA b hB hNe =>
      disjoint_of_unhidden hPaths hUnhidden hA hB hNe

/-- A specification with scratch space, certificates and two files. -/
def studio : Specification :=
  { metadata := { uid := "spec-uid", name := "pipeline", namespaceName := "ci" }
    secrets :=
      [{ metadata := .new "uid-ca" "certs-tls-ca", data := "pem" },
        { metadata := .new "uid-key" "certs-tls-key", data := "pem" }]
    files :=
      [{ metadata := .new "uid-settings" "settings", data := "debug = true" },
        { metadata := .new "uid-rules" "rules", data := "deny = []" }]
    volumes :=
      [{ metadata := .new "vol-workspace" "workspace", emptyDir := some {} },
        { metadata := .new "vol-certs" "certs"
          secret := some
            { name := "tls"
              items :=
                [{ key := "ca", path := "ca.pem" }, { key := "key", path := "key.pem" }] } }] }

/-- A step that sees both files in different directories. -/
def tidy : Step :=
  { metadata := .new "step-uid" "build"
    image := "alpine"
    files :=
      [{ name := "settings", path := "/etc/app/settings.toml" },
        { name := "rules", path := "/etc/lint/rules.toml" }]
    volumes := [{ name := "workspace", path := "/src" }, { name := "certs", path := "/etc/tls" }] }

/-- The five mounts of a step that keeps its files apart have different paths. -/
theorem tidy_paths_nodup :
    (tidy.declaredPaths.map fun path => SlashPath.trimEnd path.toList).Nodup ∧
      ((tidy.compile studio).value.pod.container.mounts.map (·.mountPath)).Nodup :=
  ⟨by decide,
    (mount_paths_nodup_iff (by decide)).mpr ⟨by decide, by decide, by decide, by decide⟩⟩

/-- A step that sees both files in one directory. -/
def neighbourly : Step :=
  { metadata := .new "step-uid" "build"
    image := "alpine"
    files :=
      [{ name := "settings", path := "/etc/app/settings.toml" },
        { name := "rules", path := "/etc/app/rules.toml" }] }

/-- Two files that belong in one directory are mounted at one path. -/
theorem neighbourly_paths_not_nodup :
    (neighbourly.declaredPaths.map fun path => SlashPath.trimEnd path.toList).Nodup ∧
      ¬ ((neighbourly.compile studio).value.pod.container.mounts.map (·.mountPath)).Nodup := by
  decide

end PodCompiler
