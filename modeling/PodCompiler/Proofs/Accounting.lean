import PodCompiler.Proofs.Validation

/-!
# PodCompiler — nothing is left out in silence

A reference of a step either comes to something in the pod or is noted, and never both. So numbers
of notices and numbers of what the pod holds balance against the numbers of references: for secrets
and variables, for files and config maps, for volumes and what they are replaced by. An item of a
volume of secrets is looked up three times, by traversals that know nothing of each other; its
notice is made by each of them, and so three times for each reference to the volume.

The notices are made by several traversals one after the other. They are told apart by their
`Subject`. Each traversal makes notices on few subjects, so that the notices on one subject are
those of one traversal. A balance is then shown for one reference, along the ways in which it
resolves, and added up over the list of references.

Main results:

* `volume_balance`, `volumes_balance` — one reference to a volume, and a list of them.
* `about_innerNotices` — the notices of a compiled step on each subject.
* `filter_secret_volumes` — what the items with a secret become.
* `mem_automount_notices_iff` — when there is a warning.
* `references_accounted` — the notices of a compiled step balance with its pod.
-/

namespace PodCompiler

/-! ## Subjects -/

/-- What a notice is about. -/
inductive Subject where
  /-- The beginning or the end. -/
  | progress
  | secret
  | file
  /-- A volume that is not defined. -/
  | volume
  /-- The source of a volume, where that is not understood. -/
  | source
  /-- An item of a volume of secrets. -/
  | item
  /-- The variable that decides about the service account token. -/
  | automount
  deriving DecidableEq

/-- The subject that a notice is on. -/
def Notice.subject : Notice → Subject
  | .compiling .. => .progress
  | .compiled .. => .progress
  | .unknownSecret .. => .secret
  | .unknownFile .. => .file
  | .unknownVolume .. => .volume
  | .sourcelessVolume .. => .source
  | .unresolvedItem .. => .item
  | .invalidAutomount .. => .automount

/-- The notices on one subject. -/
def about (subject : Subject) (notices : List Notice) : List Notice :=
  notices.filter fun n => n.subject = subject

theorem about_append (subject : Subject) (l m : List Notice) :
    about subject (l ++ m) = about subject l ++ about subject m :=
  List.filter_append l m

theorem about_flatMap {α : Type} (subject : Subject) (f : α → List Notice) (l : List α) :
    about subject (l.flatMap f) = l.flatMap fun a => about subject (f a) :=
  List.filter_flatMap

/-- Of notices on one subject, all or none are on any subject. -/
theorem about_eq {subject : Subject} {l : List Notice} (hSubject : ∀ n ∈ l, n.subject = subject)
    (other : Subject) : about other l = if subject = other then l else [] := by
  by_cases hSame : subject = other
  · rw [if_pos hSame, about, List.filter_eq_self]
    intro n hn
    simp [hSubject n hn, hSame]
  · rw [if_neg hSame, about, List.filter_eq_nil_iff]
    intro n hn
    simp [hSubject n hn, hSame]

/-- A run over a list makes notices on one subject if it does so at each member. -/
theorem about_flatMap_eq {α : Type} {subject : Subject} {f : α → List Notice}
    (hSubject : ∀ a, ∀ n ∈ f a, n.subject = subject) (l : List α) (other : Subject) :
    about other (l.flatMap f) = if subject = other then l.flatMap f else [] := by
  refine about_eq (fun n hNotice => ?_) other
  obtain ⟨a, -, hNotice⟩ := List.mem_flatMap.mp hNotice
  exact hSubject a n hNotice

/-! ## Items of mounted volumes -/

/-- An item of a volume of secrets that a step mounts. -/
structure MountedItem where
  volume : Volume
  source : SecretSource
  item : SecretItem

namespace MountedItem

variable (spec : Specification) (i : MountedItem)

/-- The name under which the secret of the item is looked up. -/
def lookupKey : String := i.volume.lookupKey i.source i.item

/-- Whether there is a secret behind the item. -/
def isDefined : Bool := (spec.secret? i.lookupKey).isSome

/-- The notice that there is none. -/
def notice : Notice := .unresolvedItem i.volume.metadata.name i.item.key i.lookupKey

/-- The pod's volume for the item. -/
def podVolume (secret : Secret) : PodVolume :=
  i.volume.itemVolume { item := i.item, lookupKey := i.lookupKey, secret }

end MountedItem

/-- The items that a reference mounts, none if it does not stand for a volume of secrets. -/
def VolumeRef.mountedItems (spec : Specification) (ref : VolumeRef) : List MountedItem :=
  match spec.volume? ref.name with
  | none => []
  | some volume =>
    match volume.kind? with
    | some (.secret source) => source.items.map fun item => { volume, source, item }
    | _ => []

/-- The items that a step mounts, once for each reference to their volume. -/
def Step.mountedItems (spec : Specification) (step : Step) : List MountedItem :=
  step.volumes.flatMap (·.mountedItems spec)

/-- The mounted items with a secret. -/
def Step.resolvedItems (spec : Specification) (step : Step) : List MountedItem :=
  (step.mountedItems spec).filter fun i => i.isDefined spec

/-- The mounted items without one. -/
def Step.unresolvedItems (spec : Specification) (step : Step) : List MountedItem :=
  (step.mountedItems spec).filter fun i => !i.isDefined spec

/-- Whether a reference stands for a volume of secrets. -/
def VolumeRef.mountsSecrets (spec : Specification) (ref : VolumeRef) : Bool :=
  match spec.volume? ref.name with
  | none => false
  | some volume =>
    match volume.kind? with
    | some (.secret _) => true
    | _ => false

/-- The directory of the machine behind a volume of a pod. -/
def PodVolume.hostPath? (v : PodVolume) : Option String :=
  match v.source with
  | .hostPath path => some path
  | _ => none

/-! ## One reference -/

section Reference

variable (spec : Specification) (step : Step) (ref : VolumeRef)

/-- The notices about the items behind a reference are those of the items without a secret. -/
theorem ref_itemNotices_eq : ref.itemNotices spec =
    ((ref.mountedItems spec).filter fun i => !i.isDefined spec).map MountedItem.notice := by
  have hResolution := resolution spec ref
  generalize (MountRef.volume ref).parts spec = parts at hResolution
  rw [VolumeRef.itemNotices, VolumeRef.mountedItems]
  cases hResolution with
  | missing hVolume => simp [hVolume]
  | sourceless volume hVolume hKind => simp [hVolume, hKind]
  | scratch volume source hVolume hKind => simp [hVolume, hKind]
  | host volume source hVolume hKind => simp [hVolume, hKind]
  | secrets volume source hVolume hKind =>
    simp only [hVolume, hKind, Volume.itemNotices, List.filter_map, List.map_map]
    -- what is noted about an item is read off its volume, its source and itself
    congr 2
    funext item
    simp [MountedItem.isDefined, MountedItem.lookupKey]

/-- The volumes of a reference that show secrets are those of its items with a secret. -/
theorem ref_secret_volumes :
    ((step.volumesOf spec ref).value.filter fun v => v.secretReference?.isSome) =
      (ref.mountedItems spec).filterMap fun i => (spec.secret? i.lookupKey).map i.podVolume := by
  have hResolution := resolution spec ref
  rw [value_volumesOf, VolumeRef.mountedItems]
  generalize (MountRef.volume ref).parts spec = parts at hResolution ⊢
  cases hResolution with
  | missing hVolume => simp [hVolume]
  | sourceless volume hVolume hKind => simp [hVolume, hKind]
  | scratch volume source hVolume hKind =>
    simp [hVolume, hKind, secretReference_podVolume, Part.secret?]
  | host volume source hVolume hKind =>
    simp [hVolume, hKind, secretReference_podVolume, Part.secret?]
  | secrets volume source hVolume hKind =>
    simp only [hVolume, hKind, List.map_map, List.filterMap_map]
    rw [List.filter_eq_self.mpr]
    · rw [List.map_filterMap]
      congr 1
      funext item
      rw [Function.comp_apply, Volume.resolve?, Option.map_map]
      rfl
    · intro v hv
      obtain ⟨resolved, -, rfl⟩ := List.mem_map.mp hv
      rfl

/-- A reference to a volume is noted, or stands for a directory of the machine or for secrets. -/
theorem volume_balance :
    (about .volume (step.volumeNotices spec ref)).length +
        (about .source (step.volumeNotices spec ref)).length +
        ((step.volumesOf spec ref).value.filter fun v => v.hostPath?.isSome).length +
        (if ref.mountsSecrets spec then 1 else 0) = 1 := by
  have hResolution := resolution spec ref
  rw [value_volumesOf, Step.volumeNotices, VolumeRef.mountsSecrets]
  generalize (MountRef.volume ref).parts spec = parts at hResolution ⊢
  cases hResolution with
  | missing hVolume => simp [hVolume, about, Notice.subject]
  | sourceless volume hVolume hKind => simp [hVolume, hKind, about, Notice.subject]
  | scratch volume source hVolume hKind =>
    simp [hVolume, hKind, about, Part.podVolume, Volume.directory, PodVolume.hostPath?]
  | host volume source hVolume hKind =>
    simp [hVolume, hKind, about, Part.podVolume, Volume.directory, PodVolume.hostPath?]
  | secrets volume source hVolume hKind =>
    -- the volumes of the items show secrets, so that the reference itself is counted
    have hItems : ((((source.items.filterMap (volume.resolve? spec source)).map
        (Part.item ref volume)).map Part.podVolume).filter fun v => v.hostPath?.isSome) = [] := by
      rw [List.filter_eq_nil_iff, List.map_map]
      intro v hv
      obtain ⟨resolved, -, rfl⟩ := List.mem_map.mp hv
      exact Bool.false_ne_true
    rw [hItems]
    simp [hVolume, hKind, about]

end Reference

/-! ## Lists of references -/

variable (spec : Specification) (step : Step)

/-- References to volumes are noted, or stand for directories of the machine or for secrets. -/
theorem volumes_balance (refs : List VolumeRef) :
    (about .volume (refs.flatMap (step.volumeNotices spec))).length +
        (about .source (refs.flatMap (step.volumeNotices spec))).length +
        (refs.flatMap fun ref =>
          (step.volumesOf spec ref).value.filter fun v => v.hostPath?.isSome).length +
        (refs.filter (·.mountsSecrets spec)).length = refs.length := by
  induction refs with
  | nil => rfl
  | cons ref rest ih =>
    have hOne := volume_balance spec step ref
    rw [List.flatMap_cons, List.flatMap_cons, about_append, about_append, List.length_append,
      List.length_append, List.length_append, List.filter_cons, List.length_cons]
    -- the reference at the head is counted with those for secrets, or else in one of the others
    split
    · rename_i hSecrets
      rw [if_pos hSecrets] at hOne
      rw [List.length_cons]
      omega
    · rename_i hSecrets
      rw [if_neg hSecrets] at hOne
      omega

/-- Where each member of a list is noted or found, and not both, this balances for the list. -/
theorem balance_of_each {α β : Type} {noted : α → List Notice} {found : α → Option β}
    (hEach : ∀ a, (noted a).length + (found a).toList.length = 1) (l : List α) :
    (l.flatMap noted).length + (l.filterMap found).length = l.length := by
  induction l with
  | nil => rfl
  | cons a rest ih =>
    have hOne := hEach a
    rw [List.filterMap_eq_flatMap_toList] at ih ⊢
    rw [List.flatMap_cons, List.flatMap_cons, List.length_append, List.length_append,
      List.length_cons]
    omega

/-- References to secrets are noted or become variables. -/
theorem secrets_balance :
    (step.secrets.flatMap (step.secretNotices spec)).length +
      (step.secrets.filterMap fun ref => (spec.secret? ref.name).map ref.envVar).length =
        step.secrets.length := by
  refine balance_of_each (fun ref => ?_) step.secrets
  rw [Step.secretNotices]
  cases spec.secret? ref.name with
  | none => rfl
  | some secret => rfl

/-- References to files are noted or become volumes. -/
theorem files_balance :
    (step.files.flatMap (step.fileNotices spec)).length +
      (step.files.filterMap fun ref => (spec.file? ref.name).map ref.volume).length =
        step.files.length := by
  refine balance_of_each (fun ref => ?_) step.files
  rw [Step.fileNotices]
  cases spec.file? ref.name with
  | none => rfl
  | some file => rfl

/-! ## The notices of a compiled step by their subjects -/

/-- The notices of a compiled step between the first and the last one. -/
def Step.innerNotices (spec : Specification) (step : Step) : List Notice :=
  step.podNotices spec ++ step.automount.notices ++ step.itemNotices spec

variable {spec step} {n : Notice}

theorem subject_of_mem_volumeNotices {ref : VolumeRef} (hNotice : n ∈ step.volumeNotices spec ref) :
    n.subject = .volume ∨ n.subject = .source := by
  rw [Step.volumeNotices] at hNotice
  split at hNotice
  · exact Or.inl (List.mem_singleton.mp hNotice ▸ rfl)
  · split at hNotice
    · exact Or.inr (List.mem_singleton.mp hNotice ▸ rfl)
    · cases hNotice

theorem subject_of_mem_itemNotices {ref : VolumeRef} (hNotice : n ∈ ref.itemNotices spec) :
    n.subject = .item := by
  rw [ref_itemNotices_eq] at hNotice
  obtain ⟨i, -, rfl⟩ := List.mem_map.mp hNotice
  rfl

theorem subject_of_mem_fileNotices {ref : FileRef} (hNotice : n ∈ step.fileNotices spec ref) :
    n.subject = .file := by
  rw [Step.fileNotices] at hNotice
  split at hNotice
  · exact List.mem_singleton.mp hNotice ▸ rfl
  · cases hNotice

theorem subject_of_mem_secretNotices {ref : SecretRef} (hNotice : n ∈ step.secretNotices spec ref) :
    n.subject = .secret := by
  rw [Step.secretNotices] at hNotice
  split at hNotice
  · exact List.mem_singleton.mp hNotice ▸ rfl
  · cases hNotice

/-- There is a warning exactly if the step leaves the decision about the token to the variable that
is reserved for it and the variable has none of the accepted spellings. -/
theorem mem_automount_notices_iff :
    n ∈ step.automount.notices ↔
      step.automountToken = none ∧ ∃ value, step.envs.get? automountVariable = some value ∧
        readTruth value = none ∧
          n = .invalidAutomount step.metadata.name automountVariable value := by
  rw [Step.automount]
  cases hToken : step.automountToken with
  | some token => simp
  | none =>
    cases hValue : step.envs.get? automountVariable with
    | none => simp
    | some value =>
      cases hTruth : readTruth value with
      | some truth => simp [hTruth]
      | none => simp [hTruth]

/-- There is at most one. -/
theorem length_automount_notices (step : Step) : step.automount.notices.length ≤ 1 := by
  rw [Step.automount]
  cases step.automountToken with
  | some token => exact Nat.zero_le 1
  | none =>
    cases step.envs.get? automountVariable with
    | none => exact Nat.zero_le 1
    | some value =>
      cases hTruth : readTruth value with
      | some truth => simp [hTruth]
      | none => simp [hTruth]

theorem subject_of_mem_automount (hNotice : n ∈ step.automount.notices) :
    n.subject = .automount := by
  obtain ⟨-, value, -, -, rfl⟩ := mem_automount_notices_iff.mp hNotice
  rfl

variable (spec step)

/-- On other subjects nothing is noted about a reference to a volume itself. -/
theorem about_volumeNotices_eq_nil {subject : Subject} (hVolume : subject ≠ .volume)
    (hSource : subject ≠ .source) (ref : VolumeRef) :
    about subject (step.volumeNotices spec ref) = [] := by
  rw [about, List.filter_eq_nil_iff]
  intro n hNotice
  rcases subject_of_mem_volumeNotices hNotice with hSubject | hSubject
  · simpa [hSubject] using hVolume.symm
  · simpa [hSubject] using hSource.symm

/-- While the volumes are made, references are noted that come to nothing, and items. -/
theorem about_volumesNotices (subject : Subject) :
    about subject (step.volumes.flatMap fun ref =>
        step.volumeNotices spec ref ++ ref.itemNotices spec) =
      if subject = .item then step.itemNotices spec
      else about subject (step.volumes.flatMap (step.volumeNotices spec)) := by
  rw [about_flatMap]
  simp only [about_append]
  -- of what is noted about one reference, all that is on its items is on the same subject
  have hItems (ref : VolumeRef) : about subject (ref.itemNotices spec) =
      if .item = subject then ref.itemNotices spec else [] :=
    about_eq (fun _ => subject_of_mem_itemNotices) subject
  by_cases hItem : subject = .item
  · subst hItem
    rw [if_pos rfl, Step.itemNotices]
    congr 1
    funext ref
    rw [hItems, if_pos rfl, about_volumeNotices_eq_nil spec step (by decide) (by decide),
      List.nil_append]
  · rw [if_neg hItem, about_flatMap]
    congr 1
    funext ref
    rw [hItems, if_neg (Ne.symm hItem), List.append_nil]

/-- The notices between the first and the last one, told apart by their subjects. Those about items
are made three times: with the volumes, with the mounts, and with the secret objects. -/
theorem about_innerNotices (subject : Subject) :
    about subject (step.innerNotices spec) =
      match subject with
      | .progress => []
      | .secret => step.secrets.flatMap (step.secretNotices spec)
      | .file => step.files.flatMap (step.fileNotices spec)
      | .volume => about .volume (step.volumes.flatMap (step.volumeNotices spec))
      | .source => about .source (step.volumes.flatMap (step.volumeNotices spec))
      | .item => step.itemNotices spec ++ step.itemNotices spec ++ step.itemNotices spec
      | .automount => step.automount.notices := by
  have hFiles := about_flatMap_eq (f := step.fileNotices spec)
    (fun _ _ => subject_of_mem_fileNotices) step.files subject
  have hSecrets := about_flatMap_eq (f := step.secretNotices spec)
    (fun _ _ => subject_of_mem_secretNotices) step.secrets subject
  have hItems : about subject (step.itemNotices spec) =
      if .item = subject then step.itemNotices spec else [] :=
    about_flatMap_eq (fun _ _ => subject_of_mem_itemNotices) step.volumes subject
  have hAutomount : about subject step.automount.notices =
      if .automount = subject then step.automount.notices else [] :=
    about_eq (fun _ => subject_of_mem_automount) subject
  rw [Step.innerNotices, Step.podNotices, about_append, about_append, about_append, about_append,
    about_append, about_volumesNotices, hFiles, hSecrets, hItems, hAutomount]
  -- each traversal is there as a whole or not at all
  cases subject with
  | progress => simp [about_flatMap, about_volumeNotices_eq_nil]
  | secret => simp [about_flatMap, about_volumeNotices_eq_nil]
  | file => simp [about_flatMap, about_volumeNotices_eq_nil]
  | volume => simp
  | source => simp
  | item => simp
  | automount => simp [about_flatMap, about_volumeNotices_eq_nil]

/-- What is noted about items, for all references of a step to volumes. -/
theorem itemNotices_eq :
    step.itemNotices spec = (step.unresolvedItems spec).map MountedItem.notice := by
  rw [Step.itemNotices, Step.unresolvedItems, Step.mountedItems, List.filter_flatMap,
    List.map_flatMap]
  congr 1
  funext ref
  exact ref_itemNotices_eq spec ref

/-- Between the first notice and the last one all is a matter of debugging, but for what is noted
about the service account token. -/
theorem level_innerNotices (hNotice : n ∈ step.innerNotices spec) :
    n.level = .debug ∨ n ∈ step.automount.notices := by
  rw [Step.innerNotices, List.mem_append, List.mem_append] at hNotice
  rcases hNotice with (hPod | hAutomount) | hItem
  · exact Or.inl (mem_podNotices_iff.mp hPod).level
  · exact Or.inr hAutomount
  · exact Or.inl (gap_of_mem_itemNotices hItem).level

/-- The warnings are what is noted about the service account token. -/
theorem warn_innerNotices :
    ((step.innerNotices spec).filter fun n => n.level = .warn) = step.automount.notices := by
  -- here the grade of a notice and its subject say the same
  have hWarn : ∀ n ∈ step.innerNotices spec, n.level = .warn ↔ n.subject = .automount := by
    intro n hNotice
    constructor
    · intro hLevel
      rcases level_innerNotices spec step hNotice with hDebug | hAutomount
      · rw [hDebug] at hLevel
        cases hLevel
      · exact subject_of_mem_automount hAutomount
    · intro hSubject
      cases n with
      | invalidAutomount name variableName value => rfl
      | _ => cases hSubject
  calc (step.innerNotices spec).filter (fun n => n.level = .warn)
      = about .automount (step.innerNotices spec) :=
        List.filter_congr fun n hNotice => decide_eq_decide.mpr (hWarn n hNotice)
    _ = step.automount.notices := about_innerNotices spec step .automount

/-! ## What a pod holds -/

/-- The volumes of a pod that meet a condition which no volume of a file meets. -/
theorem filter_podVolumes {p : PodVolume → Bool}
    (hFiles : ∀ (ref : FileRef) (file : File), p (ref.volume file) = false) :
    (step.compile spec).value.pod.volumes.filter p =
      step.volumes.flatMap fun ref => (step.volumesOf spec ref).value.filter p := by
  have hNone : (step.fileVolumes spec).value.filter p = [] := by
    rw [List.filter_eq_nil_iff, Step.fileVolumes, Logged.value_gather]
    intro v hv
    obtain ⟨ref, -, hv⟩ := List.mem_flatMap.mp hv
    rw [value_fileVolume] at hv
    obtain ⟨part, hPart, rfl⟩ := List.mem_map.mp hv
    obtain ⟨file, -, rfl⟩ := mem_fileRef_parts hPart
    exact Bool.eq_false_iff.mp (hFiles ref file)
  show ((step.podVolumes spec).value ++ (step.fileVolumes spec).value).filter p = _
  rw [List.filter_append, hNone, List.append_nil, Step.podVolumes, Logged.value_gather,
    List.filter_flatMap]

/-- The volumes of a pod that show secrets are those of the items with a secret. -/
theorem filter_secret_volumes :
    ((step.compile spec).value.pod.volumes.filter fun v => v.secretReference?.isSome) =
      (step.resolvedItems spec).filterMap fun i =>
        (spec.secret? i.lookupKey).map i.podVolume := by
  rw [filter_podVolumes spec step fun _ _ => rfl, Step.resolvedItems, List.filterMap_filter,
    Step.mountedItems, List.filterMap_flatMap]
  congr 1
  funext ref
  rw [ref_secret_volumes]
  congr 1
  funext i
  rw [MountedItem.isDefined]
  cases spec.secret? i.lookupKey with
  | none => rfl
  | some secret => rfl

/-! ## The account -/

/-- The accepted spellings of a truth value. -/
def truthSpellings : List String :=
  ["1", "t", "T", "TRUE", "true", "True", "0", "f", "F", "FALSE", "false", "False"]

theorem readTruth_eq_none_iff {value : String} :
    readTruth value = none ↔ value ∉ truthSpellings := by
  -- the two words are read one after the other
  have hSpellings : truthSpellings =
      ["1", "t", "T", "TRUE", "true", "True"] ++ ["0", "f", "F", "FALSE", "false", "False"] := rfl
  rw [hSpellings, List.mem_append, not_or, readTruth]
  split
  next hTrue => simp [hTrue]
  next hTrue =>
    split
    next hFalse => simp [hFalse]
    next hFalse => simp [hTrue, hFalse]

/-- Notices of a compiled step that leave no reference of the step out of account: what is not in
the step's pod is noted. -/
structure Accounted (spec : Specification) (step : Step) (pod : Pod) (notices : List Notice) :
    Prop where
  /-- A reference to a secret is noted or becomes a variable. -/
  secrets : (about .secret notices).length +
    (pod.container.env.filter fun v => v.secretReference?.isSome).length = step.secrets.length
  /-- A reference to a file is noted or becomes a volume. -/
  files : (about .file notices).length +
    (pod.volumes.filter fun v => v.configMapReference?.isSome).length = step.files.length
  /-- A reference to a volume is noted for one of two reasons, or becomes a volume, or stands for
  items. -/
  volumes : (about .volume notices).length + (about .source notices).length +
    (pod.volumes.filter fun v => v.hostPath?.isSome).length +
    (step.volumes.filter (·.mountsSecrets spec)).length = step.volumes.length
  /-- An item without a secret is noted three times for each reference to its volume. -/
  unresolved : about .item notices =
    (step.unresolvedItems spec).map MountedItem.notice ++
      (step.unresolvedItems spec).map MountedItem.notice ++
        (step.unresolvedItems spec).map MountedItem.notice
  /-- The first time is with the volumes. -/
  withVolumes : about .item (step.podVolumes spec).notices =
    (step.unresolvedItems spec).map MountedItem.notice
  /-- The second time is with the mounts, where nothing else is noted. -/
  withMounts : (step.volumeMounts spec).notices =
    (step.unresolvedItems spec).map MountedItem.notice
  /-- The third time is with the secret objects, where nothing else is noted. -/
  withObjects : (step.secretObjects spec).notices =
    (step.unresolvedItems spec).map MountedItem.notice
  /-- An item with a secret becomes a volume, and no other volumes show secrets. -/
  resolved : List.Forall₂
    (fun i v => ∃ secret, spec.secret? i.lookupKey = some secret ∧ v = i.podVolume secret)
    (step.resolvedItems spec) (pod.volumes.filter fun v => v.secretReference?.isSome)
  /-- There is at most one warning. -/
  warnings : (notices.filter fun n => n.level = .warn).length ≤ 1
  /-- It is about the value of the variable that decides about the token if the step does not. -/
  warned (n : Notice) : (n ∈ notices ∧ n.level = .warn) ↔
    step.automountToken = none ∧ ∃ value, step.envs.get? automountVariable = some value ∧
      value ∉ truthSpellings ∧
        n = .invalidAutomount step.metadata.name automountVariable value
  /-- Everything else is a matter of debugging. -/
  grades : ∀ n ∈ notices, n.level = .warn ∨ n.level = .debug

/-- **The account.** The notices of a compiled step between the first and the last one leave nothing
that the step refers to out of account, and the last one says how many secret objects and config
maps there are. -/
theorem references_accounted (spec : Specification) (step : Step) :
    ∃ between,
      (step.compile spec).notices =
        .compiling step.metadata.name :: (between ++
          [.compiled step.metadata.name step.metadata.uid
            (step.compile spec).value.secrets.length
            (step.compile spec).value.configMaps.length]) ∧
      Accounted spec step (step.compile spec).value.pod between := by
  refine ⟨step.innerNotices spec, compile_notices spec step, ?_⟩
  have hAbout := about_innerNotices spec step
  constructor
  case secrets =>
    rw [hAbout .secret, filter_secret_env]
    exact secrets_balance spec step
  case files =>
    rw [hAbout .file, filter_configMap_volumes]
    exact files_balance spec step
  case volumes =>
    rw [hAbout .volume, hAbout .source, filter_podVolumes spec step fun _ _ => rfl]
    exact volumes_balance spec step step.volumes
  case unresolved => rw [hAbout .item, itemNotices_eq]
  case withVolumes => rw [notices_podVolumes, about_volumesNotices, if_pos rfl, itemNotices_eq]
  case withMounts => rw [notices_volumeMounts, itemNotices_eq]
  case withObjects => rw [notices_secretObjects, itemNotices_eq]
  case resolved =>
    rw [filter_secret_volumes]
    refine (forall₂_filterMap fun i hi => ?_).imp fun i v hv => ?_
    · rw [Option.isSome_map]
      exact (List.mem_filter.mp hi).2
    · obtain ⟨secret, hSecret, rfl⟩ := Option.map_eq_some_iff.mp hv
      exact ⟨secret, hSecret, rfl⟩
  case warnings =>
    rw [warn_innerNotices]
    exact length_automount_notices step
  case warned =>
    intro n
    have hWarn : (n ∈ step.innerNotices spec ∧ n.level = .warn) ↔ n ∈ step.automount.notices := by
      rw [← warn_innerNotices spec step, List.mem_filter, decide_eq_true_iff]
    simp only [hWarn, mem_automount_notices_iff, readTruth_eq_none_iff]
  case grades =>
    intro n hNotice
    rcases level_innerNotices spec step hNotice with hDebug | hAutomount
    · exact Or.inr hDebug
    · exact Or.inl (level_of_mem_automount hAutomount)

/-- A volume of two secrets, of which one is defined. -/
def halfDefined : Specification :=
  { metadata := .new "spec-uid" "pipeline"
    secrets := [{ metadata := .new "uid-cert" "certs-tls-cert" }]
    volumes :=
      [{ metadata := .new "vol-certs" "certs"
         secret := some
          { name := "tls"
            items := [{ key := "cert", path := "tls.crt" }, { key := "key", path := "tls.key" }] } }] }

/-- A step that mounts the volume twice. -/
def mountingTwice : Step :=
  { metadata := .new "step-uid" "build"
    image := "alpine"
    volumes := [{ name := "certs", path := "/etc/tls" }, { name := "certs", path := "/srv/tls" }] }

-- The item with a secret becomes two volumes, and the other one is noted six times.
example :
    ((mountingTwice.compile halfDefined).value.pod.volumes.map (·.name) =
        ["vol-certs-cert", "vol-certs-cert"]) ∧
      about .item (mountingTwice.compile halfDefined).notices =
        List.replicate 6 (.unresolvedItem "certs" "key" "certs-tls-key") := by
  decide

end PodCompiler
