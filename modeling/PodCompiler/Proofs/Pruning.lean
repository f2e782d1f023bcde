import PodCompiler.Proofs.Notices

/-!
# PodCompiler — what is left out might as well not be there

References that lead nowhere are left out of a compiled step. Here they are taken out beforehand:
`Specification.prune` drops the items of volumes that have no secret behind them, and `Step.prune`
drops the references of a step that do not resolve, or whose volume says nothing about where it
comes from. The step that is left compiles to the same objects, and nothing is noted about its
references.

Pruning a volume changes neither its name nor its identifier, which is all that objects are made
of; so a part of the step remains, with a pruned volume in it.

Main results:

* `prune_parts` — a pruned step has the parts of the step.
* `not_gap_prune` — the references of a pruned step give no reason to note anything.
* `compile_prune` — a pruned step compiles to the same objects without a notice on debugging.
-/

namespace PodCompiler

/-! ## Pruning -/

/-- A source of secrets without the items that have no secret behind them. -/
def Volume.pruneSource (spec : Specification) (volume : Volume) (source : SecretSource) :
    SecretSource :=
  { source with
    items := source.items.filter fun item =>
      (spec.secret? (volume.metadata.name ++ "-" ++ source.name ++ "-" ++ item.key)).isSome }

/-- A volume without the items that have no secret behind them. -/
def Volume.prune (spec : Specification) (volume : Volume) : Volume :=
  { volume with secret := volume.secret.map (volume.pruneSource spec) }

/-- A specification whose volumes are without the items that have no secret behind them. -/
def Specification.prune (spec : Specification) : Specification :=
  { spec with volumes := spec.volumes.map (·.prune spec) }

/-- Whether a reference to a volume comes to a volume with a source. -/
def VolumeRef.resolves (spec : Specification) (ref : VolumeRef) : Bool :=
  ((spec.volume? ref.name).bind Volume.kind?).isSome

/-- A step without the references that do not resolve. -/
def Step.prune (spec : Specification) (step : Step) : Step :=
  { step with
    secrets := step.secrets.filter fun ref => (spec.secret? ref.name).isSome
    files := step.files.filter fun ref => (spec.file? ref.name).isSome
    volumes := step.volumes.filter (·.resolves spec) }

/-! ## Lookups after pruning -/

theorem volume?_prune (spec : Specification) (name : String) :
    spec.prune.volume? name = (spec.volume? name).map (·.prune spec) :=
  List.find?_map

/-- A pruned volume has the kind it had, with the items that remain. -/
theorem kind?_prune (spec : Specification) (volume : Volume) :
    (volume.prune spec).kind? =
      match volume.kind? with
      | some (.secret source) => some (.secret (volume.pruneSource spec source))
      | kind => kind := by
  obtain ⟨metadata, emptyDir, hostPath, secret⟩ := volume
  cases emptyDir with
  | some source => rfl
  | none =>
    cases hostPath with
    | some source => rfl
    | none =>
      cases secret with
      | some source => rfl
      | none => rfl

theorem filterMap_resolve_prune (spec : Specification) (volume : Volume) (source : SecretSource) :
    (volume.pruneSource spec source).items.filterMap
        ((volume.prune spec).resolve? spec.prune (volume.pruneSource spec source)) =
      source.items.filterMap (volume.resolve? spec source) := by
  -- neither the name of the volume nor the secrets have changed, so items resolve as before
  show (source.items.filter fun item =>
    (spec.secret? (volume.lookupKey source item)).isSome).filterMap
      (volume.resolve? spec source) = _
  rw [List.filterMap_filter]
  congr 1
  funext item
  rw [Volume.resolve?]
  cases spec.secret? (volume.lookupKey source item) with
  | none => rfl
  | some secret => rfl

/-! ## The parts of a pruned step -/

/-- A part whose volume is pruned. -/
def Part.prune (spec : Specification) : Part → Part
  | .directory ref volume path => .directory ref (volume.prune spec) path
  | .item ref volume resolved => .item ref (volume.prune spec) resolved
  | .file ref content => .file ref content

theorem volume_parts_prune (spec : Specification) (ref : VolumeRef) (volume : Volume) :
    (volume.prune spec).parts spec.prune ref = (volume.parts spec ref).map (Part.prune spec) := by
  rw [Volume.parts, Volume.parts, kind?_prune]
  cases volume.kind? with
  | none => rfl
  | some kind =>
    cases kind with
    | emptyDir source => rfl
    | hostPath source => rfl
    | secret source =>
      show ((volume.pruneSource spec source).items.filterMap _).map _ = _
      rw [filterMap_resolve_prune, List.map_map]
      rfl

/-- A reference comes to the same parts, with their volumes pruned. -/
theorem ref_parts_prune (spec : Specification) (ref : MountRef) :
    ref.parts spec.prune = (ref.parts spec).map (Part.prune spec) := by
  cases ref with
  | file ref =>
    rw [MountRef.parts, MountRef.parts, List.map_map]
    rfl
  | volume ref =>
    rw [MountRef.parts, MountRef.parts, volume?_prune]
    cases spec.volume? ref.name with
    | none => rfl
    | some volume => exact volume_parts_prune spec ref volume

/-- A run over the members of a list that come to something is a run over all of them. -/
theorem flatMap_filter_of_nil {α β : Type} {keep : α → Bool} {f : α → List β} {l : List α}
    (hNil : ∀ a ∈ l, keep a = false → f a = []) : (l.filter keep).flatMap f = l.flatMap f := by
  induction l with
  | nil => rfl
  | cons a rest ih =>
    have hRest := ih fun b hb => hNil b (List.mem_cons_of_mem a hb)
    cases hKeep : keep a with
    | true => rw [List.filter_cons_of_pos hKeep, List.flatMap_cons, List.flatMap_cons, hRest]
    | false =>
      rw [List.filter_cons_of_neg (by simp [hKeep]), List.flatMap_cons,
        hNil a List.mem_cons_self hKeep, List.nil_append, hRest]

theorem parts_eq_nil_of_not_resolves {spec : Specification} {ref : VolumeRef}
    (hRef : ref.resolves spec = false) : (MountRef.volume ref).parts spec = [] := by
  have hResolution := resolution spec ref
  generalize (MountRef.volume ref).parts spec = parts at hResolution ⊢
  cases hResolution with
  | missing hVolume => rfl
  | sourceless volume hVolume hKind => rfl
  | scratch volume source hVolume hKind => simp [VolumeRef.resolves, hVolume, hKind] at hRef
  | host volume source hVolume hKind => simp [VolumeRef.resolves, hVolume, hKind] at hRef
  | secrets volume source hVolume hKind => simp [VolumeRef.resolves, hVolume, hKind] at hRef

/-- The references that are taken out of a step come to nothing. -/
theorem flatMap_mountRefs_prune (spec : Specification) (step : Step) :
    (step.prune spec).mountRefs.flatMap (·.parts spec) = step.parts spec := by
  rw [Step.parts, Step.mountRefs, Step.mountRefs, List.flatMap_append, List.flatMap_append]
  congr 1
  · show ((step.volumes.filter (·.resolves spec)).map MountRef.volume).flatMap _ = _
    rw [List.flatMap_map, List.flatMap_map]
    exact flatMap_filter_of_nil fun ref _ hRef => parts_eq_nil_of_not_resolves hRef
  · show ((step.files.filter fun ref => (spec.file? ref.name).isSome).map
      MountRef.file).flatMap _ = _
    rw [List.flatMap_map, List.flatMap_map]
    refine flatMap_filter_of_nil fun ref _ hRef => ?_
    have hFile : spec.file? ref.name = none := by simpa using hRef
    rw [MountRef.parts, hFile]
    rfl

/-- A pruned step has the parts of the step, with their volumes pruned. -/
theorem prune_parts (spec : Specification) (step : Step) :
    (step.prune spec).parts spec.prune = (step.parts spec).map (Part.prune spec) := by
  -- the specification may be pruned first, reference by reference, and the step after that
  have hMap : (fun ref : MountRef => ref.parts spec.prune) =
      fun ref => (ref.parts spec).map (Part.prune spec) :=
    funext (ref_parts_prune spec)
  rw [Step.parts, hMap, ← List.map_flatMap, flatMap_mountRefs_prune]

/-- A part is read for the same things when its volume is pruned. -/
theorem read_prune (spec : Specification) (part : Part) :
    (part.prune spec).podVolume = part.podVolume ∧ (part.prune spec).mount = part.mount ∧
      (part.prune spec).secret? = part.secret? ∧ (part.prune spec).file? = part.file? := by
  cases part with
  | directory ref volume path => exact ⟨rfl, rfl, rfl, rfl⟩
  | item ref volume resolved => exact ⟨rfl, rfl, rfl, rfl⟩
  | file ref content => exact ⟨rfl, rfl, rfl, rfl⟩

/-! ## A pruned step -/

theorem filterMap_prune_secrets {β : Type} (spec : Specification) (step : Step)
    (read : SecretRef → Secret → β) :
    ((step.prune spec).secrets.filterMap fun ref =>
        (spec.prune.secret? ref.name).map (read ref)) =
      step.secrets.filterMap fun ref => (spec.secret? ref.name).map (read ref) := by
  show ((step.secrets.filter _).filterMap fun ref => (spec.secret? ref.name).map (read ref)) = _
  rw [List.filterMap_filter]
  congr 1
  funext ref
  cases spec.secret? ref.name with
  | none => rfl
  | some secret => rfl

theorem usedSecrets_prune (spec : Specification) (step : Step) :
    (step.prune spec).usedSecrets spec.prune = step.usedSecrets spec := by
  have hEnv := filterMap_prune_secrets spec step fun _ secret => secret
  simp only [Option.map_id_fun', id_eq] at hEnv
  rw [Step.usedSecrets, Step.usedSecrets, hEnv, prune_parts, List.filterMap_map]
  congr 2
  funext part
  exact (read_prune spec part).2.2.1

theorem usedFiles_prune (spec : Specification) (step : Step) :
    (step.prune spec).usedFiles spec.prune = step.usedFiles spec := by
  rw [Step.usedFiles, Step.usedFiles, prune_parts, List.filterMap_map]
  congr 1
  funext part
  exact (read_prune spec part).2.2.2

theorem compile_value_prune (spec : Specification) (step : Step) :
    ((step.prune spec).compile spec.prune).value = (step.compile spec).value := by
  have hVolumes : ((step.prune spec).parts spec.prune).map Part.podVolume =
      (step.parts spec).map Part.podVolume := by
    rw [prune_parts, List.map_map]
    exact List.map_congr_left fun part _ => (read_prune spec part).1
  have hMounts : ((step.prune spec).parts spec.prune).map Part.mount =
      (step.parts spec).map Part.mount := by
    rw [prune_parts, List.map_map]
    exact List.map_congr_left fun part _ => (read_prune spec part).2.1
  rw [compile_value, compile_value, hVolumes, hMounts, usedSecrets_prune, usedFiles_prune,
    filterMap_prune_secrets spec step SecretRef.envVar]
  -- what is left does not depend on anything that is pruned
  rfl

/-- The references of a pruned step give no reason to note anything. -/
theorem not_gap_prune {spec : Specification} {step : Step} {n : Notice} :
    ¬ Gap spec.prune (step.prune spec) n := by
  intro hGap
  cases hGap with
  | unknownVolume ref hRef hVolume =>
    have hResolves := (List.mem_filter.mp hRef).2
    rw [volume?_prune, Option.map_eq_none_iff] at hVolume
    simp [VolumeRef.resolves, hVolume] at hResolves
  | sourcelessVolume ref volume hRef hVolume hKind =>
    have hResolves := (List.mem_filter.mp hRef).2
    rw [volume?_prune] at hVolume
    obtain ⟨found, hFound, rfl⟩ := Option.map_eq_some_iff.mp hVolume
    -- a volume without a source had none before it was pruned
    have hNone : found.kind? = none := by
      rw [kind?_prune] at hKind
      split at hKind
      · cases hKind
      · exact hKind
    simp [VolumeRef.resolves, hFound, hNone] at hResolves
  | unresolvedItem ref volume source item hRef hVolume hKind hItem hSecret =>
    rw [volume?_prune] at hVolume
    obtain ⟨found, hFound, rfl⟩ := Option.map_eq_some_iff.mp hVolume
    rw [kind?_prune] at hKind
    split at hKind
    case h_1 original hOriginal =>
      -- an item that remains resolves, under the same name as before
      obtain rfl : found.pruneSource spec original = source := by simpa using hKind
      have hResolves := (List.mem_filter.mp hItem).2
      have hNone : spec.secret?
          (found.metadata.name ++ "-" ++ original.name ++ "-" ++ item.key) = none := hSecret
      simp [hNone] at hResolves
    case h_2 hNotSecret => exact hNotSecret source hKind
  | unknownFile ref hRef hFile =>
    have hResolves := (List.mem_filter.mp hRef).2
    have hNone : spec.file? ref.name = none := hFile
    simp [hNone] at hResolves
  | unknownSecret ref hRef hSecret =>
    have hResolves := (List.mem_filter.mp hRef).2
    have hNone : spec.secret? ref.name = none := hSecret
    simp [hNone] at hResolves

/-- **Pruning.** A step whose dangling references and items are taken out beforehand compiles to the
same objects; its notices are those of the step that are no matter of debugging, and so none of
them is. -/
theorem compile_prune (spec : Specification) (step : Step) :
    ((step.prune spec).compile spec.prune).value = (step.compile spec).value ∧
      ((step.prune spec).compile spec.prune).notices =
        ((step.compile spec).notices.filter fun n => n.level ≠ .debug) ∧
      ∀ n ∈ ((step.prune spec).compile spec.prune).notices, n.level ≠ .debug := by
  have hQuiet : ∀ n ∈ ((step.prune spec).compile spec.prune).notices, n.level ≠ .debug := by
    intro n hNotice hLevel
    exact not_gap_prune (mem_debug_notices_iff.mp ⟨hNotice, hLevel⟩)
  have hValue := compile_value_prune spec step
  refine ⟨hValue, ?_, hQuiet⟩
  calc ((step.prune spec).compile spec.prune).notices
      = ((step.prune spec).compile spec.prune).notices.filter (fun n => n.level ≠ .debug) := by
        rw [List.filter_eq_self.mpr]
        simpa using hQuiet
    _ = (step.compile spec).notices.filter (fun n => n.level ≠ .debug) := by
        -- both sides are put together from the names and from the numbers of objects
        rw [filter_compile_notices, filter_compile_notices, hValue]
        rfl

/-- A volume of two secrets. -/
def certificates : Volume :=
  { metadata := .new "vol-uid" "certs"
    secret := some
      { name := "tls"
        items := [{ key := "ca", path := "ca.pem" }, { key := "key", path := "key.pem" }] } }

/-- A pipeline that defines one of the two. -/
def authorityOnly : Specification :=
  { metadata := { uid := "spec-uid", name := "pipeline", namespaceName := "ci" }
    secrets := [{ metadata := .new "ca-uid" "certs-tls-ca", data := "root" }]
    volumes := [certificates] }

/-- A step that refers to the volume, and to another one that there is not. -/
def presenting : Step :=
  { metadata := .new "step-uid" "serve", image := "nginx"
    volumes := [{ name := "certs", path := "/etc/tls" }, { name := "cache", path := "/cache" }] }

/-- The item that resolves stays, and the pod shows it; the other one is taken out, and it is not
noted any more. -/
theorem certificates_pruned :
    (certificates.prune authorityOnly).secret =
        some { name := "tls", items := [{ key := "ca", path := "ca.pem" }] } ∧
      (presenting.prune authorityOnly).volumes = [{ name := "certs", path := "/etc/tls" }] ∧
      ((presenting.prune authorityOnly).compile authorityOnly.prune).value.pod.volumes.map
        (·.name) = ["vol-uid-ca"] ∧
      Notice.unresolvedItem "certs" "key" "certs-tls-key" ∈
        (presenting.compile authorityOnly).notices ∧
      Notice.unresolvedItem "certs" "key" "certs-tls-key" ∉
        ((presenting.prune authorityOnly).compile authorityOnly.prune).notices := by
  obtain ⟨hValue, -, hQuiet⟩ := compile_prune authorityOnly presenting
  refine ⟨by decide, by decide, ?_, by decide, fun hNoted => hQuiet _ hNoted rfl⟩
  rw [hValue]
  decide

end PodCompiler
