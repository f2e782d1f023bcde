import PodCompiler.Proofs.Parts
import PodCompiler.Specification.Violation

/-!
# PodCompiler — what is noted about a step

A step is compiled whatever it refers to; what leads nowhere is left out and noted. The notices of
a compiled step are those about its references, between the two that mark the beginning and the
end. The items of a volume are resolved three times, for the volumes, for the mounts and for the
secret objects, so a missing secret behind an item is noted three times for each reference to the
volume; everything else is noted once.

`Notice.missing?` is the entity that a notice says is not there. What a step's notices say is
missing are exactly its references that lead nowhere.

Main results:

* `compile_notices` — the notices of a compiled step in order.
* `mem_debug_notices_iff` — those on debugging are the ones that the references give reason to.
* `filter_compile_notices` — the other ones.
* `missing_iff` — what is noted to be missing are the references that lead nowhere.
-/

namespace PodCompiler

/-! ## Notices about one reference -/

/-- The notices about the items of a volume whose secrets are not defined. -/
def Volume.itemNotices (spec : Specification) (volume : Volume) (source : SecretSource) :
    List Notice :=
  (source.items.filter fun item => (spec.secret? (volume.lookupKey source item)).isNone).map
    fun item => .unresolvedItem volume.metadata.name item.key (volume.lookupKey source item)

/-- The notices about the items of the volume that a reference stands for. -/
def VolumeRef.itemNotices (spec : Specification) (ref : VolumeRef) : List Notice :=
  match spec.volume? ref.name with
  | none => []
  | some volume =>
    match volume.kind? with
    | some (.secret source) => volume.itemNotices spec source
    | _ => []

/-- The notice about a reference to a volume that comes to nothing. -/
def Step.volumeNotices (spec : Specification) (step : Step) (ref : VolumeRef) : List Notice :=
  match spec.volume? ref.name with
  | none => [.unknownVolume step.metadata.name ref.name]
  | some volume =>
    match volume.kind? with
    | none => [.sourcelessVolume volume.metadata.name]
    | some _ => []

/-- The notice about a reference to a file that is not defined. -/
def Step.fileNotices (spec : Specification) (step : Step) (ref : FileRef) : List Notice :=
  match spec.file? ref.name with
  | none => [.unknownFile step.metadata.name ref.name]
  | some _ => []

/-- The notice about a reference to a secret that is not defined. -/
def Step.secretNotices (spec : Specification) (step : Step) (ref : SecretRef) : List Notice :=
  match spec.secret? ref.name with
  | none => [.unknownSecret step.metadata.name ref.name ref.env]
  | some _ => []

-- The traversals of one reference. Each looks the reference up for itself, so each is followed
-- through the ways in which a reference resolves.

theorem notices_resolveItems (spec : Specification) (volume : Volume) (source : SecretSource) :
    (volume.resolveItems spec source).notices = volume.itemNotices spec source := by
  rw [Volume.resolveItems, Logged.notices_gather, Volume.itemNotices]
  induction source.items with
  | nil => rfl
  | cons item rest ih =>
    rw [List.flatMap_cons, ih, Volume.resolveItem]
    cases hSecret : spec.secret? (volume.lookupKey source item) with
    | none => simp [hSecret]
    | some secret => simp [hSecret]

theorem notices_volumesOf (spec : Specification) (step : Step) (ref : VolumeRef) :
    (step.volumesOf spec ref).notices = step.volumeNotices spec ref ++ ref.itemNotices spec := by
  have hResolution := resolution spec ref
  generalize (MountRef.volume ref).parts spec = parts at hResolution
  rw [Step.volumesOf, Step.volumeNotices, VolumeRef.itemNotices]
  cases hResolution with
  | missing hVolume => simp [hVolume]
  | sourceless volume hVolume hKind => simp [hVolume, hKind]
  | scratch volume source hVolume hKind => simp [hVolume, hKind]
  | host volume source hVolume hKind => simp [hVolume, hKind]
  | secrets volume source hVolume hKind =>
    simp [hVolume, hKind, Volume.itemVolumes, notices_resolveItems]

theorem notices_mounts (spec : Specification) (ref : VolumeRef) :
    (ref.mounts spec).notices = ref.itemNotices spec := by
  have hResolution := resolution spec ref
  generalize (MountRef.volume ref).parts spec = parts at hResolution
  rw [VolumeRef.mounts, VolumeRef.itemNotices]
  cases hResolution with
  | missing hVolume => simp [hVolume]
  | sourceless volume hVolume hKind => simp [hVolume, hKind]
  | scratch volume source hVolume hKind => simp [hVolume, hKind]
  | host volume source hVolume hKind => simp [hVolume, hKind]
  | secrets volume source hVolume hKind => simp [hVolume, hKind, notices_resolveItems]

theorem notices_secrets (spec : Specification) (ref : VolumeRef) :
    (ref.secrets spec).notices = ref.itemNotices spec := by
  have hResolution := resolution spec ref
  generalize (MountRef.volume ref).parts spec = parts at hResolution
  rw [VolumeRef.secrets, VolumeRef.itemNotices]
  cases hResolution with
  | missing hVolume => simp [hVolume]
  | sourceless volume hVolume hKind => simp [hVolume, hKind]
  | scratch volume source hVolume hKind => simp [hVolume, hKind]
  | host volume source hVolume hKind => simp [hVolume, hKind]
  | secrets volume source hVolume hKind => simp [hVolume, hKind, notices_resolveItems]

theorem notices_fileVolume (spec : Specification) (step : Step) (ref : FileRef) :
    (step.fileVolume spec ref).notices = step.fileNotices spec ref := by
  rw [Step.fileVolume, Step.fileNotices]
  cases spec.file? ref.name with
  | none => rfl
  | some file => rfl

theorem notices_secretEnv (spec : Specification) (step : Step) (ref : SecretRef) :
    (step.secretEnv spec ref).notices = step.secretNotices spec ref := by
  rw [Step.secretEnv, Step.secretNotices]
  cases spec.secret? ref.name with
  | none => rfl
  | some secret => rfl

/-! ## Notices about a step -/

/-- The notices about items, for all of a step's references to volumes. -/
def Step.itemNotices (spec : Specification) (step : Step) : List Notice :=
  step.volumes.flatMap (·.itemNotices spec)

theorem notices_podVolumes (spec : Specification) (step : Step) :
    (step.podVolumes spec).notices =
      step.volumes.flatMap fun ref => step.volumeNotices spec ref ++ ref.itemNotices spec := by
  simp only [Step.podVolumes, Logged.notices_gather, notices_volumesOf]

theorem notices_volumeMounts (spec : Specification) (step : Step) :
    (step.volumeMounts spec).notices = step.itemNotices spec := by
  simp only [Step.volumeMounts, Logged.notices_gather, notices_mounts, Step.itemNotices]

theorem notices_secretObjects (spec : Specification) (step : Step) :
    (step.secretObjects spec).notices = step.itemNotices spec := by
  simp only [Step.secretObjects, Step.referencedSecrets, Logged.notices_bind,
    Logged.notices_pure, Logged.notices_gather, notices_secrets, Step.itemNotices,
    List.append_nil]

/-- What is noted about the references of a step while its pod is made. -/
def Step.podNotices (spec : Specification) (step : Step) : List Notice :=
  -- volumes, volumes of files, mounts, variables; the mounts of files are made in silence
  (step.volumes.flatMap fun ref => step.volumeNotices spec ref ++ ref.itemNotices spec) ++
    step.files.flatMap (step.fileNotices spec) ++
    step.itemNotices spec ++
    step.secrets.flatMap (step.secretNotices spec)

/-- The notices of a compiled step in order. -/
theorem compile_notices (spec : Specification) (step : Step) :
    (step.compile spec).notices =
      .compiling step.metadata.name ::
        (step.podNotices spec ++ step.automount.notices ++ step.itemNotices spec ++
          [.compiled step.metadata.name step.metadata.uid
            (step.compile spec).value.secrets.length
            (step.compile spec).value.configMaps.length]) := by
  have hPod : (step.pod spec).notices = step.podNotices spec ++ step.automount.notices := by
    simp only [Step.pod, Step.fileVolumes, Step.env, Logged.notices_bind, Logged.notices_pure,
      Logged.notices_gather, notices_podVolumes, notices_fileVolume, notices_volumeMounts,
      notices_secretEnv, Step.podNotices, List.append_nil, List.append_assoc]
  show Notice.compiling step.metadata.name :: ((step.pod spec).notices ++
    ((step.secretObjects spec).notices ++ [Notice.compiled step.metadata.name step.metadata.uid
      (step.compile spec).value.secrets.length (step.compile spec).value.configMaps.length])) = _
  rw [hPod, notices_secretObjects, List.append_assoc (step.podNotices spec ++ step.automount.notices)]

/-! ## What there is to note -/

/-- The reasons to note something about the references of a step. Whether something is noted, and at
which grade, is read off here and not off the traversals. -/
inductive Gap (spec : Specification) (step : Step) : Notice → Prop where
  /-- There is no such volume. -/
  | unknownVolume (ref : VolumeRef) (hRef : ref ∈ step.volumes)
      (hVolume : spec.volume? ref.name = none) :
      Gap spec step (.unknownVolume step.metadata.name ref.name)
  /-- The volume says nothing that is understood about where it comes from. -/
  | sourcelessVolume (ref : VolumeRef) (volume : Volume) (hRef : ref ∈ step.volumes)
      (hVolume : spec.volume? ref.name = some volume) (hKind : volume.kind? = none) :
      Gap spec step (.sourcelessVolume volume.metadata.name)
  /-- There is no secret behind an item of the volume. -/
  | unresolvedItem (ref : VolumeRef) (volume : Volume) (source : SecretSource) (item : SecretItem)
      (hRef : ref ∈ step.volumes) (hVolume : spec.volume? ref.name = some volume)
      (hKind : volume.kind? = some (.secret source)) (hItem : item ∈ source.items)
      (hSecret : spec.secret? (volume.lookupKey source item) = none) :
      Gap spec step
        (.unresolvedItem volume.metadata.name item.key (volume.lookupKey source item))
  /-- There is no such file. -/
  | unknownFile (ref : FileRef) (hRef : ref ∈ step.files) (hFile : spec.file? ref.name = none) :
      Gap spec step (.unknownFile step.metadata.name ref.name)
  /-- There is no such secret. -/
  | unknownSecret (ref : SecretRef) (hRef : ref ∈ step.secrets)
      (hSecret : spec.secret? ref.name = none) :
      Gap spec step (.unknownSecret step.metadata.name ref.name ref.env)

variable {spec : Specification} {step : Step} {n : Notice}

theorem gap_of_mem_volumeNotices {ref : VolumeRef} (hRef : ref ∈ step.volumes)
    (hNotice : n ∈ step.volumeNotices spec ref) : Gap spec step n := by
  rw [Step.volumeNotices] at hNotice
  split at hNotice
  case h_1 hVolume =>
    rw [List.mem_singleton.mp hNotice]
    exact .unknownVolume ref hRef hVolume
  case h_2 volume hVolume =>
    split at hNotice
    case h_1 hKind =>
      rw [List.mem_singleton.mp hNotice]
      exact .sourcelessVolume ref volume hRef hVolume hKind
    case h_2 kind hKind => cases hNotice

theorem gap_of_mem_itemNotices (hNotice : n ∈ step.itemNotices spec) : Gap spec step n := by
  obtain ⟨ref, hRef, hNotice⟩ := List.mem_flatMap.mp hNotice
  rw [VolumeRef.itemNotices] at hNotice
  split at hNotice
  case h_1 hVolume => cases hNotice
  case h_2 volume hVolume =>
    split at hNotice
    case h_1 source hKind =>
      obtain ⟨item, hItem, rfl⟩ := List.mem_map.mp hNotice
      obtain ⟨hItem, hNone⟩ := List.mem_filter.mp hItem
      exact .unresolvedItem ref volume source item hRef hVolume hKind hItem
        (Option.isNone_iff_eq_none.mp hNone)
    case h_2 hKind => cases hNotice

theorem gap_of_mem_fileNotices {ref : FileRef} (hRef : ref ∈ step.files)
    (hNotice : n ∈ step.fileNotices spec ref) : Gap spec step n := by
  rw [Step.fileNotices] at hNotice
  split at hNotice
  case h_1 hFile =>
    rw [List.mem_singleton.mp hNotice]
    exact .unknownFile ref hRef hFile
  case h_2 file hFile => cases hNotice

theorem gap_of_mem_secretNotices {ref : SecretRef} (hRef : ref ∈ step.secrets)
    (hNotice : n ∈ step.secretNotices spec ref) : Gap spec step n := by
  rw [Step.secretNotices] at hNotice
  split at hNotice
  case h_1 hSecret =>
    rw [List.mem_singleton.mp hNotice]
    exact .unknownSecret ref hRef hSecret
  case h_2 secret hSecret => cases hNotice

theorem Gap.mem_podNotices (hGap : Gap spec step n) : n ∈ step.podNotices spec := by
  rw [Step.podNotices, List.mem_append, List.mem_append, List.mem_append, List.mem_flatMap,
    List.mem_flatMap, List.mem_flatMap]
  cases hGap with
  | unknownVolume ref hRef hVolume =>
    exact .inl (.inl (.inl ⟨ref, hRef, by simp [Step.volumeNotices, hVolume]⟩))
  | sourcelessVolume ref volume hRef hVolume hKind =>
    exact .inl (.inl (.inl ⟨ref, hRef, by simp [Step.volumeNotices, hVolume, hKind]⟩))
  | unresolvedItem ref volume source item hRef hVolume hKind hItem hSecret =>
    -- it is noted with the volumes, and then again with the mounts
    refine .inl (.inl (.inl ⟨ref, hRef, List.mem_append_right _ ?_⟩))
    simp only [VolumeRef.itemNotices, hVolume, hKind, Volume.itemNotices]
    exact List.mem_map.mpr ⟨item, List.mem_filter.mpr ⟨hItem, by simp [hSecret]⟩, rfl⟩
  | unknownFile ref hRef hFile =>
    exact .inl (.inl (.inr ⟨ref, hRef, by simp [Step.fileNotices, hFile]⟩))
  | unknownSecret ref hRef hSecret =>
    exact .inr ⟨ref, hRef, by simp [Step.secretNotices, hSecret]⟩

/-- What is noted while the pod is made is what there is to note about the references. -/
theorem mem_podNotices_iff : n ∈ step.podNotices spec ↔ Gap spec step n := by
  refine ⟨fun hNotice => ?_, Gap.mem_podNotices⟩
  rw [Step.podNotices, List.mem_append, List.mem_append, List.mem_append, List.mem_flatMap,
    List.mem_flatMap, List.mem_flatMap] at hNotice
  rcases hNotice with ((⟨ref, hRef, hNotice⟩ | ⟨ref, hRef, hNotice⟩) | hNotice) |
    ⟨ref, hRef, hNotice⟩
  · rcases List.mem_append.mp hNotice with hVolume | hItem
    · exact gap_of_mem_volumeNotices hRef hVolume
    · exact gap_of_mem_itemNotices (List.mem_flatMap.mpr ⟨ref, hRef, hItem⟩)
  · exact gap_of_mem_fileNotices hRef hNotice
  · exact gap_of_mem_itemNotices hNotice
  · exact gap_of_mem_secretNotices hRef hNotice

theorem Gap.level (hGap : Gap spec step n) : n.level = .debug := by
  cases hGap with
  | unknownVolume ref hRef hVolume => rfl
  | sourcelessVolume ref volume hRef hVolume hKind => rfl
  | unresolvedItem ref volume source item hRef hVolume hKind hItem hSecret => rfl
  | unknownFile ref hRef hFile => rfl
  | unknownSecret ref hRef hSecret => rfl

/-- What is noted about the service account token is a warning. -/
theorem level_of_mem_automount (hNotice : n ∈ step.automount.notices) : n.level = .warn := by
  rw [Step.automount] at hNotice
  split at hNotice
  · cases hNotice
  · split at hNotice
    · cases hNotice
    · split at hNotice
      · cases hNotice
      · simp only [Logged.notices_bind, Logged.notices_note, Logged.notices_pure,
          List.append_nil, List.mem_singleton] at hNotice
        rw [hNotice]
        rfl

/-- The notices that are no matter of debugging: the beginning, a warning about the service
account token, and the end. -/
theorem filter_compile_notices (spec : Specification) (step : Step) :
    ((step.compile spec).notices.filter fun n => n.level ≠ .debug) =
      .compiling step.metadata.name :: (step.automount.notices ++
        [.compiled step.metadata.name step.metadata.uid
          (step.compile spec).value.secrets.length
          (step.compile spec).value.configMaps.length]) := by
  have hPod : ((step.podNotices spec).filter fun n => n.level ≠ .debug) = [] := by
    rw [List.filter_eq_nil_iff]
    intro n hNotice
    simp [(mem_podNotices_iff.mp hNotice).level]
  have hObjects : ((step.itemNotices spec).filter fun n => n.level ≠ .debug) = [] := by
    rw [List.filter_eq_nil_iff]
    intro n hNotice
    simp [(gap_of_mem_itemNotices hNotice).level]
  have hAutomount : (step.automount.notices.filter fun n => n.level ≠ .debug) =
      step.automount.notices := by
    rw [List.filter_eq_self]
    intro n hNotice
    simp [level_of_mem_automount hNotice]
  rw [compile_notices, List.filter_cons_of_pos (by rfl), List.filter_append, List.filter_append,
    List.filter_append, hPod, hObjects, hAutomount, List.append_nil]
  rfl

/-- The notices that are a matter of debugging are those that the references give reason to. -/
theorem mem_debug_notices_iff :
    (n ∈ (step.compile spec).notices ∧ n.level = .debug) ↔ Gap spec step n := by
  rw [compile_notices, List.mem_cons, List.mem_append, List.mem_append, List.mem_append,
    List.mem_singleton]
  constructor
  · rintro ⟨rfl | ((hPod | hAutomount) | hObjects) | rfl, hLevel⟩
    · cases hLevel
    · exact mem_podNotices_iff.mp hPod
    · rw [level_of_mem_automount hAutomount] at hLevel
      cases hLevel
    · exact gap_of_mem_itemNotices hObjects
    · cases hLevel
  · intro hGap
    exact ⟨.inr (.inl (.inl (.inl (mem_podNotices_iff.mpr hGap)))), hGap.level⟩

/-! ## What is missing -/

/-- The entity that a notice says is not there although a step refers to it. -/
def Notice.missing? : Notice → Option (EntityKind × String)
  | .unknownSecret _ secret _ => some (.secret, secret)
  | .unknownFile _ file => some (.file, file)
  | .unknownVolume _ volume => some (.volume, volume)
  | _ => none

theorem level_of_missing {r : EntityKind × String} (hMissing : n.missing? = some r) :
    n.level = .debug := by
  cases n with
  | unknownSecret step secret env => rfl
  | unknownFile step file => rfl
  | unknownVolume step volume => rfl
  | _ => cases hMissing

/-- The notices of a compiled step say that an entity is missing exactly if the step refers to it
and it is not defined. -/
theorem missing_iff {r : EntityKind × String} :
    (∃ n ∈ (step.compile spec).notices, n.missing? = some r) ↔
      r ∈ step.references ∧ spec.defines r.1 r.2 = false := by
  rw [Step.references, List.mem_append, List.mem_append, List.mem_map, List.mem_map, List.mem_map]
  constructor
  · rintro ⟨n, hNotice, hMissing⟩
    -- what is missing is noted on debugging, which leaves the gaps, and of these the unknown ones
    have hGap : Gap spec step n := mem_debug_notices_iff.mp ⟨hNotice, level_of_missing hMissing⟩
    cases hGap with
    | unknownVolume ref hRef hVolume =>
      obtain rfl := Option.some.inj hMissing
      exact ⟨.inr ⟨ref, hRef, rfl⟩, by simp [Specification.defines, hVolume]⟩
    | sourcelessVolume ref volume hRef hVolume hKind => cases hMissing
    | unresolvedItem ref volume source item hRef hVolume hKind hItem hSecret => cases hMissing
    | unknownFile ref hRef hFile =>
      obtain rfl := Option.some.inj hMissing
      exact ⟨.inl (.inr ⟨ref, hRef, rfl⟩), by simp [Specification.defines, hFile]⟩
    | unknownSecret ref hRef hSecret =>
      obtain rfl := Option.some.inj hMissing
      exact ⟨.inl (.inl ⟨ref, hRef, rfl⟩), by simp [Specification.defines, hSecret]⟩
  · -- each undefined reference is a gap of its own
    rintro ⟨(⟨ref, hRef, rfl⟩ | ⟨ref, hRef, rfl⟩) | ⟨ref, hRef, rfl⟩, hUndefined⟩
    · have hSecret : spec.secret? ref.name = none := by
        simpa [Specification.defines] using hUndefined
      exact ⟨_, (mem_debug_notices_iff.mpr (.unknownSecret ref hRef hSecret)).1, rfl⟩
    · have hFile : spec.file? ref.name = none := by
        simpa [Specification.defines] using hUndefined
      exact ⟨_, (mem_debug_notices_iff.mpr (.unknownFile ref hRef hFile)).1, rfl⟩
    · have hVolume : spec.volume? ref.name = none := by
        simpa [Specification.defines] using hUndefined
      exact ⟨_, (mem_debug_notices_iff.mpr (.unknownVolume ref hRef hVolume)).1, rfl⟩

end PodCompiler
