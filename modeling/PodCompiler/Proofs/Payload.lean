import PodCompiler.Proofs.FirstOccurrence
import PodCompiler.Proofs.Notices

/-!
# PodCompiler — payload stays in its objects

The texts of secrets and files, and the registry credentials, are payload: the compiler carries
them from the specification into the objects made for them, and neither decides by them nor puts
them anywhere else. So two specifications that differ in payload alone have the same pods, services
and notices, and objects that differ in their values alone.

The two runs are compared through a third one. `redacted` blanks the payload of a specification,
and that of an object; compiling a redacted specification gives what redacting the compiled step
gives, and specifications that differ in payload alone are the same when redacted.

Main results:

* `redacted_parts` — a redacted specification gives a step its parts, redacted.
* `compile_redacted` — and so it gives the compiled step, redacted, with the same notices.
* `compile_alike` — what is the same for specifications that differ in payload alone.
-/

namespace PodCompiler

/-! ## Redaction -/

def Secret.redacted (s : Secret) : Secret := { s with data := "" }

def File.redacted (f : File) : File := { f with data := "" }

/-- The payload is blank; that there are registry credentials is no secret. -/
def Specification.redacted (spec : Specification) : Specification :=
  { spec with
    registries := { auths := if spec.registries.auths.isEmpty then [] else [default] }
    secrets := spec.secrets.map Secret.redacted
    files := spec.files.map File.redacted }

/-- Entries whose values are blank. -/
def redactEntries (entries : List (String × String)) : List (String × String) :=
  entries.map fun e => (e.1, "")

def SecretObject.redacted (o : SecretObject) : SecretObject :=
  { o with texts := redactEntries o.texts, octets := redactEntries o.octets }

def ConfigMap.redacted (c : ConfigMap) : ConfigMap := { c with data := redactEntries c.data }

def CompiledStep.redacted (c : CompiledStep) : CompiledStep :=
  { c with
    secrets := c.secrets.map SecretObject.redacted
    configMaps := c.configMaps.map ConfigMap.redacted }

def Part.redacted : Part → Part
  | .directory ref volume path => .directory ref volume path
  | .item ref volume resolved =>
    .item ref volume { resolved with secret := resolved.secret.redacted }
  | .file ref content => .file ref content.redacted

/-! ## Lookups and parts -/

variable (spec : Specification) (step : Step)

theorem secret?_redacted (name : String) :
    spec.redacted.secret? name = (spec.secret? name).map Secret.redacted :=
  List.find?_map

theorem file?_redacted (name : String) :
    spec.redacted.file? name = (spec.file? name).map File.redacted :=
  List.find?_map

theorem pullSecrets_redacted : spec.redacted.pullSecrets = spec.pullSecrets := by
  rw [Specification.pullSecrets, Specification.pullSecrets]
  cases hAuths : spec.registries.auths with
  | nil => simp [Specification.redacted, hAuths]
  | cons auth rest => simp [Specification.redacted, hAuths]

theorem volume_parts_redacted (ref : VolumeRef) (volume : Volume) :
    volume.parts spec.redacted ref = (volume.parts spec ref).map Part.redacted := by
  rw [Volume.parts, Volume.parts]
  cases volume.kind? with
  | none => rfl
  | some kind =>
    cases kind with
    | emptyDir source => rfl
    | hostPath source => rfl
    | secret source =>
      show (source.items.filterMap (volume.resolve? spec.redacted source)).map _ =
        ((source.items.filterMap (volume.resolve? spec source)).map _).map Part.redacted
      -- whether an item is resolved, and its path, depends on its secret being there at all
      rw [List.map_filterMap, List.map_filterMap, List.map_filterMap]
      congr 1
      funext item
      rw [Volume.resolve?, Volume.resolve?, secret?_redacted]
      cases spec.secret? (volume.lookupKey source item) with
      | none => rfl
      | some secret => rfl

theorem ref_parts_redacted (ref : MountRef) :
    ref.parts spec.redacted = (ref.parts spec).map Part.redacted := by
  cases ref with
  | volume ref =>
    have hVolume : spec.redacted.volume? ref.name = spec.volume? ref.name := rfl
    rw [MountRef.parts, MountRef.parts, hVolume]
    cases spec.volume? ref.name with
    | none => rfl
    | some volume => exact volume_parts_redacted spec ref volume
  | file ref =>
    rw [MountRef.parts, MountRef.parts, file?_redacted]
    cases spec.file? ref.name with
    | none => rfl
    | some file => rfl

theorem redacted_parts : step.parts spec.redacted = (step.parts spec).map Part.redacted := by
  rw [Step.parts, Step.parts, List.map_flatMap]
  congr 1
  funext ref
  exact ref_parts_redacted spec ref

/-- Volumes and mounts show nothing of the payload; secrets and files are redacted themselves. -/
theorem read_redacted (part : Part) :
    part.redacted.podVolume = part.podVolume ∧ part.redacted.mount = part.mount ∧
      part.redacted.secret? = part.secret?.map Secret.redacted ∧
      part.redacted.file? = part.file?.map File.redacted := by
  cases part with
  | directory ref volume path => exact ⟨rfl, rfl, rfl, rfl⟩
  | item ref volume resolved => exact ⟨rfl, rfl, rfl, rfl⟩
  | file ref content => exact ⟨rfl, rfl, rfl, rfl⟩

theorem usedSecrets_redacted :
    step.usedSecrets spec.redacted = (step.usedSecrets spec).map Secret.redacted := by
  rw [Step.usedSecrets, Step.usedSecrets, redacted_parts, List.map_append, List.map_filterMap,
    List.map_filterMap, List.filterMap_map]
  congr 1
  · congr 1
    funext ref
    exact secret?_redacted spec ref.name
  · congr 1
    funext part
    exact (read_redacted part).2.2.1

theorem usedFiles_redacted :
    step.usedFiles spec.redacted = (step.usedFiles spec).map File.redacted := by
  rw [Step.usedFiles, Step.usedFiles, redacted_parts, List.map_filterMap, List.filterMap_map]
  congr 1
  funext part
  exact (read_redacted part).2.2.2

/-! ## A compiled step -/

/-- Which objects are made is decided by identifiers, which redaction leaves alone. -/
theorem secretObjects_redacted :
    (distinctBy (·.metadata.uid) [] (step.usedSecrets spec.redacted)).map
        (·.object spec.redacted) =
      ((distinctBy (·.metadata.uid) [] (step.usedSecrets spec)).map (·.object spec)).map
        SecretObject.redacted := by
  rw [usedSecrets_redacted, distinctBy_map, List.map_map, List.map_map]
  rfl

theorem configMaps_redacted :
    (distinctBy (·.metadata.uid) [] (step.usedFiles spec.redacted)).map
        (·.configMap spec.redacted) =
      ((distinctBy (·.metadata.uid) [] (step.usedFiles spec)).map (·.configMap spec)).map
        ConfigMap.redacted := by
  rw [usedFiles_redacted, distinctBy_map, List.map_map, List.map_map]
  rfl

theorem compile_value_redacted :
    (step.compile spec.redacted).value = (step.compile spec).value.redacted := by
  have hVolumes : (step.parts spec.redacted).map Part.podVolume =
      (step.parts spec).map Part.podVolume := by
    rw [redacted_parts, List.map_map]
    exact List.map_congr_left fun part _ => (read_redacted part).1
  have hMounts : (step.parts spec.redacted).map Part.mount = (step.parts spec).map Part.mount := by
    rw [redacted_parts, List.map_map]
    exact List.map_congr_left fun part _ => (read_redacted part).2.1
  -- a variable holds the identifier of a secret, not its text
  have hEnv : (step.secrets.filterMap fun ref =>
        (spec.redacted.secret? ref.name).map ref.envVar) =
      step.secrets.filterMap fun ref => (spec.secret? ref.name).map ref.envVar := by
    congr 1
    funext ref
    rw [secret?_redacted, Option.map_map]
    rfl
  rw [compile_value, compile_value, hVolumes, hMounts, hEnv, secretObjects_redacted,
    configMaps_redacted, pullSecrets_redacted]
  rfl

theorem podNotices_redacted : step.podNotices spec.redacted = step.podNotices spec ∧
    step.itemNotices spec.redacted = step.itemNotices spec := by
  -- every notice says that something is missing, and names what was asked for
  have hItems : ∀ ref : VolumeRef, ref.itemNotices spec.redacted = ref.itemNotices spec := by
    intro ref
    have hVolume : spec.redacted.volume? ref.name = spec.volume? ref.name := rfl
    simp only [VolumeRef.itemNotices, hVolume, Volume.itemNotices, secret?_redacted,
      Option.isNone_map]
  have hFiles : step.fileNotices spec.redacted = step.fileNotices spec := by
    funext ref
    rw [Step.fileNotices, Step.fileNotices, file?_redacted]
    cases spec.file? ref.name with
    | none => rfl
    | some file => rfl
  have hSecrets : step.secretNotices spec.redacted = step.secretNotices spec := by
    funext ref
    rw [Step.secretNotices, Step.secretNotices, secret?_redacted]
    cases spec.secret? ref.name with
    | none => rfl
    | some secret => rfl
  have hAll : step.itemNotices spec.redacted = step.itemNotices spec := by
    rw [Step.itemNotices, Step.itemNotices]
    simp only [hItems]
  refine ⟨?_, hAll⟩
  rw [Step.podNotices, Step.podNotices, hFiles, hSecrets, hAll]
  simp only [hItems]
  rfl

/-- Compiling a redacted specification gives the compiled step, redacted, with the same notices. -/
theorem compile_redacted :
    step.compile spec.redacted =
      ⟨(step.compile spec).value.redacted, (step.compile spec).notices⟩ := by
  have hValue := compile_value_redacted spec step
  have hNotices : (step.compile spec.redacted).notices = (step.compile spec).notices := by
    obtain ⟨hPod, hItems⟩ := podNotices_redacted spec step
    -- the last notice gives numbers of objects, which are the same
    rw [compile_notices, compile_notices, hPod, hItems, hValue]
    simp [CompiledStep.redacted]
  exact Logged.ext hValue hNotices

theorem registrySecret_redacted :
    spec.redacted.registrySecret.map SecretObject.redacted =
      spec.registrySecret.map SecretObject.redacted := by
  rw [Specification.registrySecret, Specification.registrySecret]
  cases hAuths : spec.registries.auths with
  | nil => simp [Specification.redacted, hAuths]
  | cons auth rest =>
    simp [Specification.redacted, hAuths, SecretObject.redacted, redactEntries]

/-! ## Specifications that differ in payload alone -/

/-- Two specifications differ at most in the texts of their secrets and files, and in what their
registry credentials are. -/
structure SameButPayload (a b : Specification) : Prop where
  metadata : a.metadata = b.metadata
  steps : a.steps = b.steps
  volumes : a.volumes = b.volumes
  secrets : a.secrets.map (·.metadata) = b.secrets.map (·.metadata)
  files : a.files.map (·.metadata) = b.files.map (·.metadata)
  credentials : a.registries.auths.isEmpty = b.registries.auths.isEmpty

theorem SameButPayload.redacted_eq {a b : Specification} (hAlike : SameButPayload a b) :
    a.redacted = b.redacted := by
  -- what a redacted entity is follows from its metadata
  have hSecret : Secret.redacted = (fun m : Metadata => { metadata := m }) ∘ Secret.metadata := rfl
  have hFile : File.redacted = (fun m : Metadata => { metadata := m }) ∘ File.metadata := rfl
  have hSecrets : a.secrets.map Secret.redacted = b.secrets.map Secret.redacted := by
    rw [hSecret, ← List.map_map, ← List.map_map]
    exact congrArg _ hAlike.secrets
  have hFiles : a.files.map File.redacted = b.files.map File.redacted := by
    rw [hFile, ← List.map_map, ← List.map_map]
    exact congrArg _ hAlike.files
  rw [Specification.redacted, Specification.redacted, hSecrets, hFiles, hAlike.metadata,
    hAlike.steps, hAlike.volumes, hAlike.credentials]

/-- **Confinement.** Specifications that differ in payload alone give a step the same pod, the same
service and the same notices, and they have the same namespace. The secret objects and config maps
are the same one by one but for their values, and so are the registry credentials. -/
theorem compile_alike {a b : Specification} (hAlike : SameButPayload a b) (step : Step) :
    (step.compile a).value.pod = (step.compile b).value.pod ∧
      (step.compile a).value.service = (step.compile b).value.service ∧
      Namespace.ofSpecification a = Namespace.ofSpecification b ∧
      (step.compile a).notices = (step.compile b).notices ∧
      (step.compile a).value.secrets.map SecretObject.redacted =
        (step.compile b).value.secrets.map SecretObject.redacted ∧
      (step.compile a).value.configMaps.map ConfigMap.redacted =
        (step.compile b).value.configMaps.map ConfigMap.redacted ∧
      a.registrySecret.map SecretObject.redacted = b.registrySecret.map SecretObject.redacted := by
  -- both are compiled like the one redacted specification
  have hCompile : (⟨(step.compile a).value.redacted, (step.compile a).notices⟩ : Logged _) =
      ⟨(step.compile b).value.redacted, (step.compile b).notices⟩ := by
    rw [← compile_redacted, ← compile_redacted, hAlike.redacted_eq]
  obtain ⟨hValue, hNotices⟩ := Logged.mk.inj hCompile
  obtain ⟨hPod, hService, hSecrets, hConfigMaps⟩ := CompiledStep.mk.inj hValue
  refine ⟨hPod, hService, ?place, hNotices, hSecrets, hConfigMaps, ?registry⟩
  case place => rw [Namespace.ofSpecification, Namespace.ofSpecification, hAlike.metadata]
  case registry =>
    rw [← registrySecret_redacted a, ← registrySecret_redacted b, hAlike.redacted_eq]

/-- A token, a file and credentials for a registry, with their payload. -/
def holding (token settings password : String) : Specification :=
  { metadata := { uid := "spec-uid", name := "pipeline", namespaceName := "ci" }
    registries :=
      { auths := [{ address := "registry.local", username := "robot", password }] }
    secrets := [{ metadata := .new "uid-token" "token", data := token }]
    files := [{ metadata := .new "uid-settings" "settings", data := settings }] }

/-- A step that uses the token twice, the file, and a secret that is not there. -/
def consuming : Step :=
  { metadata := .new "step-uid" "build"
    image := "alpine"
    secrets :=
      [{ name := "token", env := "TOKEN" }, { name := "token", env := "PASSWORD" },
        { name := "missing", env := "MISSING" }]
    files := [{ name := "settings", path := "/etc/settings.toml" }] }

/-- The pod does not show the token, while the secret object does. -/
theorem consuming_alike :
    SameButPayload (holding "s3cr3t" "a = 1" "pw") (holding "---\nother" "" "") ∧
      (consuming.compile (holding "s3cr3t" "a = 1" "pw")).value.pod =
        (consuming.compile (holding "---\nother" "" "")).value.pod ∧
      (consuming.compile (holding "s3cr3t" "a = 1" "pw")).value.secrets ≠
        (consuming.compile (holding "---\nother" "" "")).value.secrets := by
  have hAlike : SameButPayload (holding "s3cr3t" "a = 1" "pw") (holding "---\nother" "" "") :=
    ⟨rfl, rfl, rfl, rfl, rfl, rfl⟩
  exact ⟨hAlike, (compile_alike hAlike consuming).1, by decide⟩

end PodCompiler
