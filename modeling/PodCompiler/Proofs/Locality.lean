import PodCompiler.Proofs.Notices

/-!
# PodCompiler — a step sees only what it names

The specification of a step may hold much that the step has nothing to do with. A compiled step
depends on the namespace, on whether there are registry credentials, and on what is found under the
names that the step looks up; nothing else of the specification reaches it. The names that a step
looks up are those of its references and, behind a volume of secrets, one for every item; these
last ones are known only once the volume is found.

`SameView` says that two specifications look alike from a step. Everything that leaves the first
match of each name alone leaves the view alone, whatever it does to the lists of entities.

Main results:

* `SameView.parts` — specifications that look alike give a step the same parts.
* `SameView.compile` — and so they give the same compiled step with the same notices.
* `compile_local` — the same, with the changes of a specification that a step cannot see.
-/

namespace PodCompiler

/-! ## What a step looks up -/

/-- The names under which the items of the volume behind a reference are looked up. -/
def VolumeRef.lookupKeys (spec : Specification) (ref : VolumeRef) : List String :=
  match spec.volume? ref.name with
  | none => []
  | some volume =>
    match volume.kind? with
    | some (.secret source) => source.items.map (volume.lookupKey source)
    | _ => []

/-- The names of secrets that a step looks up. -/
def Step.secretNames (spec : Specification) (step : Step) : List String :=
  step.secrets.map (·.name) ++ step.volumes.flatMap (·.lookupKeys spec)

/-- The second specification looks like the first one from a step. -/
structure SameView (step : Step) (spec other : Specification) : Prop where
  place : other.metadata.namespaceName = spec.metadata.namespaceName
  credentials : other.registries.auths.isEmpty = spec.registries.auths.isEmpty
  secrets : ∀ name ∈ step.secretNames spec, other.secret? name = spec.secret? name
  files : ∀ name ∈ step.files.map (·.name), other.file? name = spec.file? name
  volumes : ∀ name ∈ step.volumes.map (·.name), other.volume? name = spec.volume? name

section SameView

variable {step : Step} {spec other : Specification} (hView : SameView step spec other)
include hView

theorem SameView.secret {ref : SecretRef} (hRef : ref ∈ step.secrets) :
    other.secret? ref.name = spec.secret? ref.name :=
  hView.secrets _ (List.mem_append_left _ (List.mem_map_of_mem hRef))

theorem SameView.file {ref : FileRef} (hRef : ref ∈ step.files) :
    other.file? ref.name = spec.file? ref.name :=
  hView.files _ (List.mem_map_of_mem hRef)

theorem SameView.volume {ref : VolumeRef} (hRef : ref ∈ step.volumes) :
    other.volume? ref.name = spec.volume? ref.name :=
  hView.volumes _ (List.mem_map_of_mem hRef)

/-- The secret behind an item of a volume that the step mounts is the same. -/
theorem SameView.item {ref : VolumeRef} {volume : Volume} {source : SecretSource}
    {item : SecretItem} (hRef : ref ∈ step.volumes) (hVolume : spec.volume? ref.name = some volume)
    (hKind : volume.kind? = some (.secret source)) (hItem : item ∈ source.items) :
    other.secret? (volume.lookupKey source item) = spec.secret? (volume.lookupKey source item) := by
  have hKey : volume.lookupKey source item ∈ ref.lookupKeys spec := by
    rw [VolumeRef.lookupKeys, hVolume]
    simp only [hKind]
    exact List.mem_map_of_mem hItem
  exact hView.secrets _ (List.mem_append_right _ (List.mem_flatMap.mpr ⟨ref, hRef, hKey⟩))

theorem SameView.specNamespace : other.metadata.namespace? = spec.metadata.namespace? := by
  rw [Metadata.namespace?, Metadata.namespace?, hView.place]

theorem SameView.stepNamespace : step.namespace? other = step.namespace? spec := by
  rw [Step.namespace?, Step.namespace?, hView.specNamespace]

theorem SameView.pullSecrets : other.pullSecrets = spec.pullSecrets := by
  rw [Specification.pullSecrets, Specification.pullSecrets, hView.credentials]

/-! ## Parts and notices -/

theorem SameView.volume_parts {ref : VolumeRef} (hRef : ref ∈ step.volumes) :
    (MountRef.volume ref).parts other = (MountRef.volume ref).parts spec := by
  rw [MountRef.parts, MountRef.parts, hView.volume hRef]
  cases hVolume : spec.volume? ref.name with
  | none => rfl
  | some volume =>
    show volume.parts other ref = volume.parts spec ref
    rw [Volume.parts, Volume.parts, hView.place]
    cases hKind : volume.kind? with
    | none => rfl
    | some kind =>
      cases kind with
      | emptyDir source => rfl
      | hostPath source => rfl
      | secret source =>
        -- a second lookup, under a name that is made from the volume and the item
        have hItems : source.items.filterMap (volume.resolve? other source) =
            source.items.filterMap (volume.resolve? spec source) := by
          apply List.filterMap_congr
          intro item hItem
          rw [Volume.resolve?, Volume.resolve?, hView.item hRef hVolume hKind hItem]
        exact congrArg (List.map (Part.item ref volume)) hItems

theorem SameView.file_parts {ref : FileRef} (hRef : ref ∈ step.files) :
    (MountRef.file ref).parts other = (MountRef.file ref).parts spec := by
  rw [MountRef.parts, MountRef.parts, hView.file hRef]

theorem SameView.parts : step.parts other = step.parts spec := by
  rw [Step.parts, Step.parts]
  apply List.flatMap_congr
  intro ref hRef
  rcases List.mem_append.mp hRef with hVolume | hFile
  · obtain ⟨ref, hMem, rfl⟩ := List.mem_map.mp hVolume
    exact hView.volume_parts hMem
  · obtain ⟨ref, hMem, rfl⟩ := List.mem_map.mp hFile
    exact hView.file_parts hMem

theorem SameView.volume_itemNotices {ref : VolumeRef} (hRef : ref ∈ step.volumes) :
    ref.itemNotices other = ref.itemNotices spec := by
  rw [VolumeRef.itemNotices, VolumeRef.itemNotices, hView.volume hRef]
  cases hVolume : spec.volume? ref.name with
  | none => rfl
  | some volume =>
    simp only
    cases hKind : volume.kind? with
    | none => rfl
    | some kind =>
      cases kind with
      | emptyDir source => rfl
      | hostPath source => rfl
      | secret source =>
        have hItems : (source.items.filter fun item =>
              (other.secret? (volume.lookupKey source item)).isNone) =
            source.items.filter fun item =>
              (spec.secret? (volume.lookupKey source item)).isNone := by
          apply List.filter_congr
          intro item hItem
          rw [hView.item hRef hVolume hKind hItem]
        show volume.itemNotices other source = volume.itemNotices spec source
        rw [Volume.itemNotices, Volume.itemNotices, hItems]

theorem SameView.itemNotices : step.itemNotices other = step.itemNotices spec :=
  List.flatMap_congr fun _ hRef => hView.volume_itemNotices hRef

theorem SameView.podNotices : step.podNotices other = step.podNotices spec := by
  have hVolumes : (step.volumes.flatMap fun ref =>
        step.volumeNotices other ref ++ ref.itemNotices other) =
      step.volumes.flatMap fun ref => step.volumeNotices spec ref ++ ref.itemNotices spec := by
    apply List.flatMap_congr
    intro ref hRef
    rw [Step.volumeNotices, Step.volumeNotices, hView.volume hRef, hView.volume_itemNotices hRef]
  have hFiles : step.files.flatMap (step.fileNotices other) =
      step.files.flatMap (step.fileNotices spec) := by
    apply List.flatMap_congr
    intro ref hRef
    rw [Step.fileNotices, Step.fileNotices, hView.file hRef]
  have hSecrets : step.secrets.flatMap (step.secretNotices other) =
      step.secrets.flatMap (step.secretNotices spec) := by
    apply List.flatMap_congr
    intro ref hRef
    rw [Step.secretNotices, Step.secretNotices, hView.secret hRef]
  rw [Step.podNotices, Step.podNotices, hVolumes, hFiles, hView.itemNotices, hSecrets]

/-! ## The compiled step -/

theorem SameView.compile_value : (step.compile other).value = (step.compile spec).value := by
  -- variables, secrets and files are found by the names that the step refers to
  have hEnv : (step.secrets.filterMap fun ref => (other.secret? ref.name).map ref.envVar) =
      step.secrets.filterMap fun ref => (spec.secret? ref.name).map ref.envVar := by
    apply List.filterMap_congr
    intro ref hRef
    rw [hView.secret hRef]
  have hSecrets : step.usedSecrets other = step.usedSecrets spec := by
    rw [Step.usedSecrets, Step.usedSecrets, hView.parts]
    congr 1
    apply List.filterMap_congr
    intro ref hRef
    exact hView.secret hRef
  have hFiles : step.usedFiles other = step.usedFiles spec := by
    rw [Step.usedFiles, Step.usedFiles, hView.parts]
  -- of the specification itself only its namespace enters the objects
  have hObject : (fun s : Secret => s.object other) = fun s => s.object spec := by
    funext s
    rw [Secret.object, Secret.object, hView.specNamespace]
  have hConfigMap : (fun f : File => f.configMap other) = fun f => f.configMap spec := by
    funext f
    rw [File.configMap, File.configMap, hView.specNamespace]
  have hService : step.service other = step.service spec := by
    rw [Step.service, Step.service, hView.stepNamespace]
  rw [PodCompiler.compile_value, PodCompiler.compile_value, hEnv, hSecrets, hFiles, hObject,
    hConfigMap, hService, hView.parts, hView.stepNamespace, hView.pullSecrets]

/-- Specifications that look alike from a step give the same compiled step and the same notices. -/
theorem SameView.compile : step.compile other = step.compile spec := by
  have hNotices : (step.compile other).notices = (step.compile spec).notices := by
    rw [compile_notices, compile_notices, hView.podNotices, hView.itemNotices,
      hView.compile_value]
  exact Logged.ext hView.compile_value hNotices

end SameView

/-! ## Changes that a step cannot see -/

variable {step : Step} {spec : Specification}

/-- A specification with more entities behind those that it has. -/
def Specification.append (spec : Specification) (secrets : List Secret) (files : List File)
    (volumes : List Volume) : Specification :=
  { spec with
    secrets := spec.secrets ++ secrets
    files := spec.files ++ files
    volumes := spec.volumes ++ volumes }

/-- A specification without the steps, and without the entities that a step does not look up. -/
def Specification.onlyFor (spec : Specification) (step : Step) : Specification :=
  { spec with
    steps := []
    secrets := spec.secrets.filter fun s => s.metadata.name ∈ step.secretNames spec
    files := spec.files.filter fun f => f.metadata.name ∈ step.files.map (·.name)
    volumes := spec.volumes.filter fun v => v.metadata.name ∈ step.volumes.map (·.name) }

/-- What is appended is not found under a name that is taken, or that differs from its own. -/
theorem find_name_append {α : Type} {nameOf : α → String} {l more : List α} {name : String}
    (hMore : ∀ a ∈ more, nameOf a = name → (l.find? fun b => nameOf b = name).isSome) :
    (l ++ more).find? (fun a => nameOf a = name) = l.find? fun a => nameOf a = name := by
  rw [List.find?_append]
  cases hFound : l.find? fun a => nameOf a = name with
  | some a => rfl
  | none =>
    rw [Option.none_or, List.find?_eq_none]
    -- an appended entity of that name would have to be hidden by one that is there already
    intro a ha hName
    have hSome := hMore a ha (by simpa using hName)
    rw [hFound] at hSome
    cases hSome

/-- What is left out is not found under a name that is kept. -/
theorem find_name_filter {α : Type} {nameOf : α → String} {l : List α} {names : List String}
    {name : String} (hName : name ∈ names) :
    (l.filter fun a => nameOf a ∈ names).find? (fun a => nameOf a = name) =
      l.find? fun a => nameOf a = name := by
  rw [List.find?_filter]
  congr 1
  funext a
  by_cases hEq : nameOf a = name
  · simp [hEq, hName]
  · simp [hEq]

/-- Entities that are appended cannot be seen if what the step looks up under their names is there
already. -/
theorem sameView_append {secrets : List Secret} {files : List File} {volumes : List Volume}
    (hSecrets : ∀ s ∈ secrets, s.metadata.name ∈ step.secretNames spec →
      (spec.secret? s.metadata.name).isSome)
    (hFiles : ∀ f ∈ files, f.metadata.name ∈ step.files.map (·.name) →
      (spec.file? f.metadata.name).isSome)
    (hVolumes : ∀ v ∈ volumes, v.metadata.name ∈ step.volumes.map (·.name) →
      (spec.volume? v.metadata.name).isSome) :
    SameView step spec (spec.append secrets files volumes) := by
  refine ⟨rfl, rfl, ?secrets, ?files, ?volumes⟩
  case secrets =>
    intro name hName
    refine find_name_append fun s hs hEq => ?_
    subst hEq
    exact hSecrets s hs hName
  case files =>
    intro name hName
    refine find_name_append fun f hf hEq => ?_
    subst hEq
    exact hFiles f hf hName
  case volumes =>
    intro name hName
    refine find_name_append fun v hv hEq => ?_
    subst hEq
    exact hVolumes v hv hName

/-- Entities that the step does not look up, and other steps, cannot be seen. -/
theorem sameView_onlyFor : SameView step spec (spec.onlyFor step) :=
  ⟨rfl, rfl, fun _ hName => find_name_filter hName, fun _ hName => find_name_filter hName,
    fun _ hName => find_name_filter hName⟩

/-- **Locality.** A compiled step and its notices are the same for all specifications that look
alike from the step. So they do not depend on other steps, nor on entities that the step does not
look up; entities may be appended unless the step misses one of their names, and the lists may be
replaced by any others with the same first match for every name. -/
theorem compile_local (step : Step) (spec : Specification) :
    (∀ other, SameView step spec other → step.compile other = step.compile spec) ∧
      (∀ steps, step.compile { spec with steps } = step.compile spec) ∧
      step.compile (spec.onlyFor step) = step.compile spec ∧
      (∀ secrets files volumes,
        (∀ s ∈ secrets, s.metadata.name ∈ step.secretNames spec →
          (spec.secret? s.metadata.name).isSome) →
        (∀ f ∈ files, f.metadata.name ∈ step.files.map (·.name) →
          (spec.file? f.metadata.name).isSome) →
        (∀ v ∈ volumes, v.metadata.name ∈ step.volumes.map (·.name) →
          (spec.volume? v.metadata.name).isSome) →
        step.compile (spec.append secrets files volumes) = step.compile spec) ∧
      ∀ secrets files volumes,
        (∀ name, (secrets.find? fun s => s.metadata.name = name) = spec.secret? name) →
        (∀ name, (files.find? fun f => f.metadata.name = name) = spec.file? name) →
        (∀ name, (volumes.find? fun v => v.metadata.name = name) = spec.volume? name) →
        step.compile { spec with secrets, files, volumes } = step.compile spec := by
  refine ⟨fun other hView => hView.compile, ?steps, sameView_onlyFor.compile, ?append, ?replace⟩
  case steps =>
    intro steps
    have hView : SameView step spec { spec with steps } :=
      ⟨rfl, rfl, fun _ _ => rfl, fun _ _ => rfl, fun _ _ => rfl⟩
    exact hView.compile
  case append =>
    intro secrets files volumes hSecrets hFiles hVolumes
    exact (sameView_append hSecrets hFiles hVolumes).compile
  case replace =>
    intro secrets files volumes hSecrets hFiles hVolumes
    have hView : SameView step spec { spec with secrets, files, volumes } :=
      ⟨rfl, rfl, fun name _ => hSecrets name, fun name _ => hFiles name,
        fun name _ => hVolumes name⟩
    exact hView.compile

/-- A certificate behind a volume, and a file. -/
def certified : Specification :=
  { metadata := { uid := "spec-uid", name := "pipeline", namespaceName := "ci" }
    secrets := [{ metadata := .new "uid-cert" "certs-tls-cert", data := "pem" }]
    files := [{ metadata := .new "uid-settings" "settings", data := "debug = true" }]
    volumes :=
      [{ metadata := .new "vol-uid" "certs"
         secret := some
          { name := "tls"
            items := [{ key := "cert", path := "tls.crt" }, { key := "key", path := "tls.key" }] } }] }

/-- The same among other things: another pipeline with a step, a second certificate that the first
one hides, and a secret that nobody asks for, in front of everything else. -/
def certifiedElsewhere : Specification :=
  { metadata := { uid := "other-uid", name := "release", namespaceName := "ci" }
    steps := [{ metadata := .new "step-1" "publish", image := "alpine" }]
    secrets :=
      [{ metadata := .new "uid-token" "token", data := "s3cr3t" },
        { metadata := .new "uid-cert" "certs-tls-cert", data := "pem" },
        { metadata := .new "uid-old" "certs-tls-cert", data := "expired" }]
    files := certified.files
    volumes := certified.volumes }

/-- A step with the volume, the file, and references to a file and a secret that are not there. -/
def mounting : Step :=
  { metadata := .new "step-uid" "build"
    image := "alpine"
    secrets := [{ name := "password", env := "PASSWORD" }]
    files := [{ name := "settings", path := "/etc/app.toml" }, { name := "notes", path := "/notes" }]
    volumes := [{ name := "certs", path := "/etc/tls" }] }

/-- The step compiles alike in both, alike when another certificate is appended, and alike when all
secrets are there twice. -/
theorem mounting_compile_local :
    SameView mounting certified certifiedElsewhere ∧
      mounting.compile certifiedElsewhere = mounting.compile certified ∧
      mounting.compile
          (certified.append [{ metadata := .new "uid-new" "certs-tls-cert", data := "new" }] [] []) =
        mounting.compile certified ∧
      mounting.compile { certified with secrets := certified.secrets ++ certified.secrets } =
        mounting.compile certified := by
  have hView : SameView mounting certified certifiedElsewhere :=
    ⟨rfl, rfl, by decide, by decide, by decide⟩
  have hTwice : ∀ name, ((certified.secrets ++ certified.secrets).find? fun s =>
      s.metadata.name = name) = certified.secret? name := by
    intro name
    rw [List.find?_append, Option.or_self]
    rfl
  obtain ⟨hLocal, -, -, hAppend, hReplace⟩ := compile_local mounting certified
  exact ⟨hView, hLocal _ hView, hAppend _ _ _ (by decide) (by decide) (by decide),
    hReplace _ _ _ hTwice (fun _ => rfl) (fun _ => rfl)⟩

end PodCompiler
