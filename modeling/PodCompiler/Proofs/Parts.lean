import PodCompiler.Compile.Step
import Mathlib.Data.List.Basic

/-!
# PodCompiler — the parts of a step

A step names volumes and files, and four traversals follow these names: one for the pod's volumes,
one for the mounts, one for the secret objects, one for the config maps. They agree because each of
them reads something off the same list. A **part** is one thing that a reference comes to: a
directory of the machine, the secret behind one item of a volume, or a file. `Step.parts` lists
the parts in order of the references, with nothing for a reference that does not resolve; this is
the only place where references are resolved, everything else is a map over the list.

Notices play no role here: the statements are about the values of `Logged` computations.

Main results:

* `resolution` — how a reference to a volume comes to its parts.
* `value_volumesOf`, `value_mounts`, `value_secrets` — what the traversals find at a reference to a
  volume, read off its parts.
* `compile_volumes`, `compile_mounts`, `compile_env`, `compile_secrets`, `compile_configMaps` — what
  a compiled step consists of.
* `compile_value` — a compiled step as a whole.
-/

namespace PodCompiler

/-! ## What a reference comes to -/

/-- A reference of a step to something that its container sees as files. -/
inductive MountRef where
  | volume (ref : VolumeRef)
  | file (ref : FileRef)
  deriving DecidableEq

/-- One thing that a reference comes to, with the reference and the entity behind it. -/
inductive Part where
  /-- A directory of the machine. -/
  | directory (ref : VolumeRef) (volume : Volume) (path : String)
  /-- The secret behind one item of a volume. -/
  | item (ref : VolumeRef) (volume : Volume) (resolved : ResolvedItem)
  /-- A file. -/
  | file (ref : FileRef) (content : File)
  deriving DecidableEq

/-- The secret behind an item, if it is defined. -/
def Volume.resolve? (spec : Specification) (volume : Volume) (source : SecretSource)
    (item : SecretItem) : Option ResolvedItem :=
  (spec.secret? (volume.lookupKey source item)).map fun secret =>
    { item, lookupKey := volume.lookupKey source item, secret }

/-- The parts of a volume that a reference stands for. -/
def Volume.parts (spec : Specification) (ref : VolumeRef) (volume : Volume) : List Part :=
  match volume.kind? with
  | some (.emptyDir _) =>
    [.directory ref volume (scratchPath spec.metadata.namespaceName volume.metadata.uid)]
  | some (.hostPath source) => [.directory ref volume source.path]
  | some (.secret source) =>
    (source.items.filterMap (volume.resolve? spec source)).map (.item ref volume)
  | none => []

/-- The parts of a reference, none if it does not resolve. -/
def MountRef.parts (spec : Specification) : MountRef → List Part
  | .volume ref =>
    match spec.volume? ref.name with
    | some found => found.parts spec ref
    | none => []
  | .file ref => (spec.file? ref.name).toList.map (.file ref)

/-- The references of a step, volumes first. -/
def Step.mountRefs (step : Step) : List MountRef :=
  step.volumes.map .volume ++ step.files.map .file

/-- The parts of a step in order of its references. -/
def Step.parts (spec : Specification) (step : Step) : List Part :=
  step.mountRefs.flatMap (·.parts spec)

/-! ## What a part is read for -/

/-- The volume of a part. -/
def Part.podVolume : Part → PodVolume
  | .directory _ volume path => volume.directory path
  | .item _ volume resolved => volume.itemVolume resolved
  | .file ref content => ref.volume content

/-- The mount of a part. -/
def Part.mount : Part → Mount
  | .directory ref volume _ => { name := volume.metadata.uid, mountPath := ref.path }
  | .item ref volume resolved => volume.itemMount ref resolved
  | .file ref content => { name := content.metadata.uid, mountPath := ref.directory }

/-- The secret of a part, if it shows one. -/
def Part.secret? : Part → Option Secret
  | .item _ _ resolved => some resolved.secret
  | _ => none

/-- The file of a part, if it shows one. -/
def Part.file? : Part → Option File
  | .file _ content => some content
  | _ => none

/-- The secrets that a step refers to: those of its environment, then those of its parts. -/
def Step.usedSecrets (spec : Specification) (step : Step) : List Secret :=
  step.secrets.filterMap (fun ref => spec.secret? ref.name) ++
    (step.parts spec).filterMap Part.secret?

/-- The files that a step refers to. -/
def Step.usedFiles (spec : Specification) (step : Step) : List File :=
  (step.parts spec).filterMap Part.file?

/-! ## How a reference resolves -/

/-- The ways in which a reference to a volume comes to its parts. Every traversal of the references
to volumes makes this distinction, so every proof about one starts from it. -/
inductive Resolution (spec : Specification) (ref : VolumeRef) : List Part → Prop where
  /-- There is no such volume. -/
  | missing (hVolume : spec.volume? ref.name = none) : Resolution spec ref []
  /-- The volume says nothing that is understood about where it comes from. -/
  | sourceless (volume : Volume) (hVolume : spec.volume? ref.name = some volume)
      (hKind : volume.kind? = none) : Resolution spec ref []
  /-- The volume is scratch space. -/
  | scratch (volume : Volume) (source : EmptyDirSource)
      (hVolume : spec.volume? ref.name = some volume)
      (hKind : volume.kind? = some (.emptyDir source)) :
      Resolution spec ref
        [.directory ref volume (scratchPath spec.metadata.namespaceName volume.metadata.uid)]
  /-- The volume is a directory of the machine. -/
  | host (volume : Volume) (source : HostPathSource)
      (hVolume : spec.volume? ref.name = some volume)
      (hKind : volume.kind? = some (.hostPath source)) :
      Resolution spec ref [.directory ref volume source.path]
  /-- The volume shows secrets. -/
  | secrets (volume : Volume) (source : SecretSource)
      (hVolume : spec.volume? ref.name = some volume)
      (hKind : volume.kind? = some (.secret source)) :
      Resolution spec ref
        ((source.items.filterMap (volume.resolve? spec source)).map (.item ref volume))

/-- A reference to a volume resolves in one of these ways. -/
theorem resolution (spec : Specification) (ref : VolumeRef) :
    Resolution spec ref ((MountRef.volume ref).parts spec) := by
  rw [MountRef.parts]
  cases hVolume : spec.volume? ref.name with
  | none => exact .missing hVolume
  | some volume =>
    simp only [Volume.parts]
    cases hKind : volume.kind? with
    | none => exact .sourceless volume hVolume hKind
    | some kind =>
      cases kind with
      | emptyDir source => exact .scratch volume source hVolume hKind
      | hostPath source => exact .host volume source hVolume hKind
      | secret source => exact .secrets volume source hVolume hKind

/-- A part of a reference to a volume is a directory of the machine, or the secret of an item. -/
theorem mem_volumeRef_parts {spec : Specification} {ref : VolumeRef} {part : Part}
    (hPart : part ∈ (MountRef.volume ref).parts spec) :
    ∃ volume, spec.volume? ref.name = some volume ∧
      ((∃ path, volume.hostDirectory spec = some (volume.directory path) ∧
          part = .directory ref volume path) ∨
        ∃ source item resolved, volume.kind? = some (.secret source) ∧ item ∈ source.items ∧
          volume.resolve? spec source item = some resolved ∧ part = .item ref volume resolved) := by
  have hResolution := resolution spec ref
  generalize (MountRef.volume ref).parts spec = parts at hPart hResolution
  cases hResolution with
  | missing hVolume => cases hPart
  | sourceless volume hVolume hKind => cases hPart
  | scratch volume source hVolume hKind =>
    refine ⟨volume, hVolume, Or.inl ⟨_, ?_, List.mem_singleton.mp hPart⟩⟩
    rw [Volume.hostDirectory, hKind]
  | host volume source hVolume hKind =>
    refine ⟨volume, hVolume, Or.inl ⟨_, ?_, List.mem_singleton.mp hPart⟩⟩
    rw [Volume.hostDirectory, hKind]
  | secrets volume source hVolume hKind =>
    obtain ⟨resolved, hResolved, rfl⟩ := List.mem_map.mp hPart
    obtain ⟨item, hItem, hResolve⟩ := List.mem_filterMap.mp hResolved
    exact ⟨volume, hVolume, Or.inr ⟨source, item, resolved, hKind, hItem, hResolve, rfl⟩⟩

/-- A part of a reference to a file is that file. -/
theorem mem_fileRef_parts {spec : Specification} {ref : FileRef} {part : Part}
    (hPart : part ∈ (MountRef.file ref).parts spec) :
    ∃ file, spec.file? ref.name = some file ∧ part = .file ref file := by
  obtain ⟨file, hFile, rfl⟩ := List.mem_map.mp hPart
  exact ⟨file, by simpa using hFile, rfl⟩

/-! ## The traversals of one reference -/

/-- The secrets found behind the items of a volume. -/
theorem value_resolveItems (spec : Specification) (volume : Volume) (source : SecretSource) :
    (volume.resolveItems spec source).value =
      source.items.filterMap (volume.resolve? spec source) := by
  rw [Volume.resolveItems, Logged.value_gather, List.filterMap_eq_flatMap_toList]
  congr 1
  funext item
  rw [Volume.resolveItem, Volume.resolve?]
  cases spec.secret? (volume.lookupKey source item) with
  | none => rfl
  | some secret => rfl

/-- The pod's volumes for a reference to a volume. -/
theorem value_volumesOf (spec : Specification) (step : Step) (ref : VolumeRef) :
    (step.volumesOf spec ref).value = ((MountRef.volume ref).parts spec).map Part.podVolume := by
  have hResolution := resolution spec ref
  generalize (MountRef.volume ref).parts spec = parts at hResolution ⊢
  rw [Step.volumesOf]
  cases hResolution with
  | missing hVolume => simp [hVolume]
  | sourceless volume hVolume hKind => simp [hVolume, hKind]
  | scratch volume source hVolume hKind =>
    simp [hVolume, hKind, Volume.hostDirectory, Part.podVolume]
  | host volume source hVolume hKind =>
    simp [hVolume, hKind, Volume.hostDirectory, Part.podVolume]
  | secrets volume source hVolume hKind =>
    simp [hVolume, hKind, Volume.itemVolumes, value_resolveItems, Part.podVolume,
      Function.comp_def]

/-- The mounts of a reference to a volume. -/
theorem value_mounts (spec : Specification) (ref : VolumeRef) :
    (ref.mounts spec).value = ((MountRef.volume ref).parts spec).map Part.mount := by
  have hResolution := resolution spec ref
  generalize (MountRef.volume ref).parts spec = parts at hResolution ⊢
  rw [VolumeRef.mounts]
  cases hResolution with
  | missing hVolume => simp [hVolume]
  | sourceless volume hVolume hKind => simp [hVolume, hKind]
  | scratch volume source hVolume hKind => simp [hVolume, hKind, Part.mount]
  | host volume source hVolume hKind => simp [hVolume, hKind, Part.mount]
  | secrets volume source hVolume hKind =>
    simp [hVolume, hKind, value_resolveItems, Part.mount, Function.comp_def]

/-- The secrets behind a reference to a volume. -/
theorem value_secrets (spec : Specification) (ref : VolumeRef) :
    (ref.secrets spec).value = ((MountRef.volume ref).parts spec).filterMap Part.secret? := by
  have hResolution := resolution spec ref
  generalize (MountRef.volume ref).parts spec = parts at hResolution ⊢
  rw [VolumeRef.secrets]
  cases hResolution with
  | missing hVolume => simp [hVolume]
  | sourceless volume hVolume hKind => simp [hVolume, hKind]
  | scratch volume source hVolume hKind => simp [hVolume, hKind, Part.secret?]
  | host volume source hVolume hKind => simp [hVolume, hKind, Part.secret?]
  | secrets volume source hVolume hKind =>
    simp [hVolume, hKind, value_resolveItems, List.filterMap_map, Function.comp_def,
      Part.secret?]

/-- The volume of a reference to a file. -/
theorem value_fileVolume (spec : Specification) (step : Step) (ref : FileRef) :
    (step.fileVolume spec ref).value = ((MountRef.file ref).parts spec).map Part.podVolume := by
  rw [Step.fileVolume, MountRef.parts]
  cases spec.file? ref.name with
  | none => rfl
  | some file => rfl

/-! ## A compiled step -/

/-- A run over a list that maps what its members come to is a map over what they come to. -/
theorem value_gather_map {ρ β : Type} (spec : Specification) (refs : List ρ) (wrap : ρ → MountRef)
    (run : ρ → Logged (List β)) (read : Part → β)
    (hRun : ∀ ref, (run ref).value = ((wrap ref).parts spec).map read) :
    (Logged.gather run refs).value = ((refs.map wrap).flatMap (·.parts spec)).map read := by
  rw [Logged.value_gather, List.map_flatMap, List.flatMap_map]
  congr 1
  funext ref
  exact hRun ref

/-- The pod's volumes are read off the parts. -/
theorem compile_volumes (spec : Specification) (step : Step) :
    (step.compile spec).value.pod.volumes = (step.parts spec).map Part.podVolume := by
  show (step.podVolumes spec).value ++ (step.fileVolumes spec).value = _
  -- both traversals are maps over the parts of their own references, so the two join into one
  rw [Step.podVolumes, Step.fileVolumes,
    value_gather_map spec _ _ _ _ (value_volumesOf spec step),
    value_gather_map spec _ _ _ _ (value_fileVolume spec step),
    ← List.map_append, ← List.flatMap_append]
  rfl

/-- The mounts of a step's files are read off their parts. -/
theorem fileMounts_eq (spec : Specification) (step : Step) :
    step.fileMounts spec =
      ((step.files.map MountRef.file).flatMap (·.parts spec)).map Part.mount := by
  rw [Step.fileMounts, List.map_flatMap, List.flatMap_map, List.filterMap_eq_flatMap_toList]
  congr 1
  funext ref
  rw [MountRef.parts]
  cases spec.file? ref.name with
  | none => rfl
  | some file => rfl

/-- The mounts of the container are read off the parts. -/
theorem compile_mounts (spec : Specification) (step : Step) :
    (step.compile spec).value.pod.container.mounts = (step.parts spec).map Part.mount := by
  show (step.volumeMounts spec).value ++ step.fileMounts spec = _
  rw [Step.volumeMounts, value_gather_map spec _ _ _ _ (value_mounts spec), fileMounts_eq,
    ← List.map_append, ← List.flatMap_append]
  rfl

/-- The environment of the container: what is declared, the name of the machine, and a variable
for every reference to a secret that resolves. -/
theorem compile_env (spec : Specification) (step : Step) :
    (step.compile spec).value.pod.container.env =
      step.declaredEnv ++ nodeEnv ::
        step.secrets.filterMap fun ref => (spec.secret? ref.name).map ref.envVar := by
  show step.declaredEnv ++ nodeEnv :: (Logged.gather (step.secretEnv spec) step.secrets).value = _
  rw [Logged.value_gather, List.filterMap_eq_flatMap_toList]
  congr 3
  funext ref
  rw [Step.secretEnv]
  cases spec.secret? ref.name with
  | none => rfl
  | some secret => rfl

/-- A volume shows no files. -/
theorem volume_parts_file (spec : Specification) (ref : VolumeRef) :
    ((MountRef.volume ref).parts spec).filterMap Part.file? = [] := by
  rw [List.filterMap_eq_nil_iff]
  intro part hPart
  obtain ⟨volume, -, ⟨path, -, rfl⟩ | ⟨source, item, resolved, -, -, -, rfl⟩⟩ :=
    mem_volumeRef_parts hPart
  · rfl
  · rfl

/-- A file shows no secrets. -/
theorem file_parts_secret (spec : Specification) (ref : FileRef) :
    ((MountRef.file ref).parts spec).filterMap Part.secret? = [] := by
  rw [List.filterMap_eq_nil_iff]
  intro part hPart
  obtain ⟨file, -, rfl⟩ := mem_fileRef_parts hPart
  rfl

/-- The secrets of the parts are those behind the references to volumes. -/
theorem filterMap_secret_parts (spec : Specification) (step : Step) :
    (step.parts spec).filterMap Part.secret? =
      (Logged.gather (·.secrets spec) step.volumes).value := by
  rw [Logged.value_gather, Step.parts, Step.mountRefs, List.flatMap_append, List.filterMap_append,
    List.filterMap_flatMap, List.filterMap_flatMap, List.flatMap_map, List.flatMap_map]
  -- the references to files come to no secrets, which leaves those to volumes
  simp only [file_parts_secret, ← value_secrets]
  simp

/-- The files of the parts are those behind the references to files. -/
theorem filterMap_file_parts (spec : Specification) (step : Step) :
    (step.parts spec).filterMap Part.file? = step.referencedFiles spec := by
  rw [Step.referencedFiles, Step.parts, Step.mountRefs, List.flatMap_append, List.filterMap_append,
    List.filterMap_flatMap, List.filterMap_flatMap, List.flatMap_map, List.flatMap_map,
    List.filterMap_eq_flatMap_toList]
  -- the references to volumes come to no files, which leaves those to files
  simp only [volume_parts_file]
  simp [MountRef.parts, List.filterMap_map, Function.comp_def, Part.file?]

/-- The secret objects of a step are made of the secrets it uses, one for each identifier. -/
theorem compile_secrets (spec : Specification) (step : Step) :
    (step.compile spec).value.secrets =
      (distinctBy (·.metadata.uid) [] (step.usedSecrets spec)).map (·.object spec) := by
  rw [Step.usedSecrets, filterMap_secret_parts]
  rfl

/-- The config maps of a step are made of the files it uses, one for each identifier. -/
theorem compile_configMaps (spec : Specification) (step : Step) :
    (step.compile spec).value.configMaps =
      (distinctBy (·.metadata.uid) [] (step.usedFiles spec)).map (·.configMap spec) := by
  rw [Step.usedFiles, filterMap_file_parts]
  rfl

/-- A compiled step as a whole: what the step says itself, its parts, and the secrets of its
environment. -/
theorem compile_value (spec : Specification) (step : Step) :
    (step.compile spec).value =
      { pod :=
          { metadata :=
              { name := step.metadata.uid
                namespaceName := step.namespace? spec
                labels := step.metadata.labels? }
            automountToken := step.automount.value
            container :=
              step.container
                (step.declaredEnv ++ nodeEnv ::
                  step.secrets.filterMap fun ref => (spec.secret? ref.name).map ref.envVar)
                ((step.parts spec).map Part.mount)
            pullSecrets := spec.pullSecrets
            volumes := (step.parts spec).map Part.podVolume }
        service := step.service spec
        secrets := (distinctBy (·.metadata.uid) [] (step.usedSecrets spec)).map (·.object spec)
        configMaps :=
          (distinctBy (·.metadata.uid) [] (step.usedFiles spec)).map (·.configMap spec) } := by
  rw [← compile_env, ← compile_mounts, ← compile_volumes, ← compile_secrets, ← compile_configMaps]
  rfl

/-- A compiled specification is its compiled steps. -/
theorem compile_steps (spec : Specification) :
    spec.compile.value = spec.steps.map fun step => (step.compile spec).value := by
  rw [Specification.compile, Logged.value_gather, List.map_eq_flatMap]
  rfl

end PodCompiler
