import PodCompiler.Proofs.Notices
import PodCompiler.Proofs.ReferenceClosure

/-!
# PodCompiler — fit specifications

A specification may be checked before it is compiled. The check looks up what the steps refer to,
and so does the compiler, each for itself; they agree on what is there. A specification is fit
exactly if its steps have different names and compiling it notes nothing missing. The steps of a
fit specification get all they refer to: the pod has a variable for each reference to a secret and
a volume for each reference to a file, in the order of the references.

The check goes through the steps with the names seen before; the statements about it are for any
such names, because that is what the induction needs.

Main results:

* `validate_eq_ok_iff` — what makes a specification fit.
* `nothing_missing_iff` — what makes it compile without a notice that something is missing.
* `validate_iff_nothing_missing` — the check and the compiler agree.
-/

namespace PodCompiler

/-! ## The check -/

theorem dangling_eq_none_iff {spec : Specification} {step : Step} :
    spec.dangling? step = none ↔ ∀ r ∈ step.references, spec.defines r.1 r.2 = true := by
  rw [Specification.dangling?, Option.map_eq_none_iff, List.find?_eq_none]
  simp

/-- There is no violation among steps exactly if their names are new and different from each other
and none of the steps has a dangling reference. -/
theorem firstViolation_eq_none_iff {spec : Specification} {seen : List String}
    {steps : List Step} :
    spec.firstViolation seen steps = none ↔
      (∀ step ∈ steps, step.metadata.name ∉ seen) ∧ (steps.map (·.metadata.name)).Nodup ∧
        ∀ step ∈ steps, spec.dangling? step = none := by
  induction steps generalizing seen with
  | nil => simp [Specification.firstViolation]
  | cons step rest ih =>
    rw [Specification.firstViolation]
    by_cases hSeen : step.metadata.name ∈ seen
    · simp [hSeen]
    · -- the name is new: it counts as seen for the steps that follow
      rw [if_neg hSeen]
      cases hDangling : spec.dangling? step with
      | some violation => simp [hDangling]
      | none =>
        simp only [ih, List.mem_cons, not_or, List.map_cons, List.nodup_cons, List.mem_map,
          forall_eq_or_imp, hSeen, hDangling, not_false_eq_true, true_and, not_exists, not_and]
        constructor
        · rintro ⟨hNew, hNodup, hRest⟩
          exact ⟨fun other hOther => (hNew other hOther).2,
            ⟨fun other hOther => (hNew other hOther).1, hNodup⟩, hRest⟩
        · rintro ⟨hNew, ⟨hHead, hNodup⟩, hRest⟩
          exact ⟨fun other hOther => ⟨hHead other hOther, hNew other hOther⟩, hNodup, hRest⟩

/-- A specification is fit exactly if its steps have different names and everything they refer to
is defined. -/
theorem validate_eq_ok_iff {spec : Specification} :
    spec.validate = .ok () ↔
      (spec.steps.map (·.metadata.name)).Nodup ∧
        ∀ step ∈ spec.steps, ∀ r ∈ step.references, spec.defines r.1 r.2 = true := by
  have hNone : spec.validate = .ok () ↔ spec.firstViolation [] spec.steps = none := by
    rw [Specification.validate]
    cases spec.firstViolation [] spec.steps with
    | none => simp
    | some violation => simp
  rw [hNone, firstViolation_eq_none_iff]
  simp [dangling_eq_none_iff]

/-! ## The notices -/

theorem compile_steps_notices (spec : Specification) :
    spec.compile.notices = spec.steps.flatMap fun step => (step.compile spec).notices := by
  rw [Specification.compile, Logged.notices_gather]
  congr 1
  funext step
  rw [Logged.notices_bind, Logged.notices_pure, List.append_nil]

/-- Nothing is noted to be missing exactly if everything the steps refer to is defined. -/
theorem nothing_missing_iff {spec : Specification} :
    (∀ n ∈ spec.compile.notices, n.level = .debug → n.missing? = none) ↔
      ∀ step ∈ spec.steps, ∀ r ∈ step.references, spec.defines r.1 r.2 = true := by
  rw [compile_steps_notices]
  constructor
  · intro hQuiet step hStep r hRef
    by_contra hUndefined
    -- a reference that leads nowhere is noted
    obtain ⟨n, hNotice, hMissing⟩ := missing_iff.mpr ⟨hRef, Bool.eq_false_iff.mpr hUndefined⟩
    have hNone := hQuiet n (List.mem_flatMap.mpr ⟨step, hStep, hNotice⟩)
      (level_of_missing hMissing)
    rw [hMissing] at hNone
    cases hNone
  · intro hDefined n hNotice _
    obtain ⟨step, hStep, hNotice⟩ := List.mem_flatMap.mp hNotice
    cases hMissing : n.missing? with
    | none => rfl
    | some r =>
      obtain ⟨hRef, hUndefined⟩ := missing_iff.mp ⟨n, hNotice, hMissing⟩
      rw [hDefined step hStep r hRef] at hUndefined
      cases hUndefined

/-! ## What the steps get -/

/-- The variables of a pod that refer to secret objects are those of the references to secrets that
are defined. -/
theorem filter_secret_env (spec : Specification) (step : Step) :
    ((step.compile spec).value.pod.container.env.filter fun v => v.secretReference?.isSome) =
      step.secrets.filterMap fun ref => (spec.secret? ref.name).map ref.envVar := by
  -- what is declared, and the name of the machine, refer to nothing
  have hDeclared : (step.declaredEnv.filter fun v => v.secretReference?.isSome) = [] := by
    rw [List.filter_eq_nil_iff]
    intro v hv
    obtain ⟨e, -, rfl⟩ := List.mem_map.mp hv
    simp [EnvVar.secretReference?]
  have hSecrets : ∀ v ∈ step.secrets.filterMap fun ref =>
      (spec.secret? ref.name).map ref.envVar, v.secretReference?.isSome = true := by
    intro v hv
    obtain ⟨ref, -, hVar⟩ := List.mem_filterMap.mp hv
    obtain ⟨secret, -, rfl⟩ := Option.map_eq_some_iff.mp hVar
    rfl
  rw [compile_env, List.filter_append, hDeclared, List.nil_append,
    List.filter_cons_of_neg (by decide), List.filter_eq_self.mpr hSecrets]

theorem filter_file_parts (spec : Specification) (step : Step) :
    ((step.parts spec).filter fun part => part.file?.isSome) =
      (step.files.map MountRef.file).flatMap (·.parts spec) := by
  have hVolumes : ((step.volumes.map MountRef.volume).flatMap (·.parts spec)).filter
      (fun part => part.file?.isSome) = [] := by
    rw [List.filter_eq_nil_iff]
    intro part hPart
    obtain ⟨_, hRef, hPart⟩ := List.mem_flatMap.mp hPart
    obtain ⟨ref, -, rfl⟩ := List.mem_map.mp hRef
    have hNone := List.filterMap_eq_nil_iff.mp (volume_parts_file spec ref) part hPart
    simp [hNone]
  have hFiles : ((step.files.map MountRef.file).flatMap (·.parts spec)).filter
      (fun part => part.file?.isSome) = (step.files.map MountRef.file).flatMap (·.parts spec) := by
    rw [List.filter_eq_self]
    intro part hPart
    obtain ⟨_, hRef, hPart⟩ := List.mem_flatMap.mp hPart
    obtain ⟨ref, -, rfl⟩ := List.mem_map.mp hRef
    obtain ⟨file, -, rfl⟩ := mem_fileRef_parts hPart
    rfl
  rw [Step.parts, Step.mountRefs, List.flatMap_append, List.filter_append, hVolumes, hFiles,
    List.nil_append]

/-- The volumes of a pod that show config maps are those of the references to files that are
defined. -/
theorem filter_configMap_volumes (spec : Specification) (step : Step) :
    ((step.compile spec).value.pod.volumes.filter fun v => v.configMapReference?.isSome) =
      step.files.filterMap fun ref => (spec.file? ref.name).map ref.volume := by
  have hShows : (fun v : PodVolume => v.configMapReference?.isSome) ∘ Part.podVolume =
      fun part => part.file?.isSome := by
    funext part
    rw [Function.comp_apply, configMapReference_podVolume, Option.isSome_map]
  rw [compile_volumes, List.filter_map, hShows, filter_file_parts, List.map_flatMap,
    List.flatMap_map, List.filterMap_eq_flatMap_toList]
  congr 1
  funext ref
  rw [MountRef.parts]
  cases spec.file? ref.name with
  | none => rfl
  | some file => rfl

/-- Where a partial function is defined on all of a list, its values come one for each member. -/
theorem forall₂_filterMap {α β : Type} {f : α → Option β} {l : List α}
    (hDefined : ∀ a ∈ l, (f a).isSome = true) :
    List.Forall₂ (fun a b => f a = some b) l (l.filterMap f) := by
  induction l with
  | nil => exact .nil
  | cons a rest ih =>
    obtain ⟨b, hb⟩ := Option.isSome_iff_exists.mp (hDefined a List.mem_cons_self)
    rw [List.filterMap_cons_some hb]
    exact .cons hb (ih fun c hc => hDefined c (List.mem_cons_of_mem a hc))

/-- The pod of a step has all that the step refers to: a variable for each secret and a volume for
each file, in the order in which the step declares them; and the step is found by its name. -/
structure Fulfilled (spec : Specification) (step : Step) (pod : Pod) : Prop where
  secrets : List.Forall₂
    (fun ref v => ∃ secret, spec.secret? ref.name = some secret ∧ v = ref.envVar secret)
    step.secrets (pod.container.env.filter fun v => v.secretReference?.isSome)
  files : List.Forall₂
    (fun ref v => ∃ file, spec.file? ref.name = some file ∧ v = ref.volume file)
    step.files (pod.volumes.filter fun v => v.configMapReference?.isSome)
  found : spec.step? step.metadata.name = some step

/-- If names are different, a search by name finds every member. -/
theorem find_name_eq_some {α : Type} {name : α → String} {l : List α}
    (hNodup : (l.map name).Nodup) {a : α} (ha : a ∈ l) :
    l.find? (fun b => name b = name a) = some a := by
  obtain ⟨b, hb⟩ := Option.isSome_iff_exists.mp
    (List.find?_isSome.mpr ⟨a, ha, by simp⟩ : (l.find? fun b => name b = name a).isSome)
  have hName : name b = name a := by simpa using List.find?_some hb
  rw [hb, List.inj_on_of_nodup_map hNodup (List.mem_of_find?_eq_some hb) ha hName]

/-- A step of a specification with different step names is fulfilled if all that it refers to is
defined. -/
theorem fulfilled_of_defined {spec : Specification} {step : Step}
    (hNodup : (spec.steps.map (·.metadata.name)).Nodup) (hStep : step ∈ spec.steps)
    (hDefined : ∀ r ∈ step.references, spec.defines r.1 r.2 = true) :
    Fulfilled spec step (step.compile spec).value.pod := by
  refine ⟨?secrets, ?files, find_name_eq_some hNodup hStep⟩
  case secrets =>
    rw [filter_secret_env]
    refine (forall₂_filterMap ?_).imp ?_
    · intro ref hRef
      rw [Option.isSome_map]
      refine hDefined (.secret, ref.name) ?_
      exact List.mem_append_left _ (List.mem_append_left _ (List.mem_map_of_mem hRef))
    · intro ref v hVar
      obtain ⟨secret, hSecret, rfl⟩ := Option.map_eq_some_iff.mp hVar
      exact ⟨secret, hSecret, rfl⟩
  case files =>
    rw [filter_configMap_volumes]
    refine (forall₂_filterMap ?_).imp ?_
    · intro ref hRef
      rw [Option.isSome_map]
      refine hDefined (.file, ref.name) ?_
      exact List.mem_append_left _ (List.mem_append_right _ (List.mem_map_of_mem hRef))
    · intro ref v hVolume
      obtain ⟨file, hFile, rfl⟩ := Option.map_eq_some_iff.mp hVolume
      exact ⟨file, hFile, rfl⟩

/-! ## Agreement -/

/-- **Agreement.** The check accepts a specification exactly if its steps have different names and
compiling it notes no reference to a secret, file or volume that is not there. The steps of a
specification that it accepts get all they refer to and are found by their names. -/
theorem validate_iff_nothing_missing (spec : Specification) :
    (spec.validate = .ok () ↔
      (spec.steps.map (·.metadata.name)).Nodup ∧
        ∀ n ∈ spec.compile.notices, n.level = .debug → n.missing? = none) ∧
      (spec.validate = .ok () →
        ∀ step ∈ spec.steps, Fulfilled spec step (step.compile spec).value.pod) := by
  refine ⟨?agree, ?fulfilled⟩
  case agree => rw [validate_eq_ok_iff, nothing_missing_iff]
  case fulfilled =>
    intro hFit step hStep
    obtain ⟨hNodup, hDefined⟩ := validate_eq_ok_iff.mp hFit
    exact fulfilled_of_defined hNodup hStep (hDefined step hStep)

/-- Two steps that share a token and a file; the first one uses the token twice. -/
def sharing : Specification :=
  { metadata := .new "spec-uid" "pipeline"
    secrets := [{ metadata := .new "uid-token" "token", data := "s3cr3t" }]
    files := [{ metadata := .new "uid-settings" "settings", data := "debug = true" }]
    steps :=
      [{ metadata := .new "step-1" "build"
         image := "alpine"
         secrets := [{ name := "token", env := "TOKEN" }, { name := "token", env := "PASSWORD" }]
         files := [{ name := "settings", path := "/etc/settings.toml" }] },
        { metadata := .new "step-2" "test"
          image := "alpine"
          secrets := [{ name := "token", env := "TOKEN" }]
          files := [{ name := "settings", path := "/srv/settings.toml" }] }] }

/-- The check accepts the two steps, and they get what they share. -/
theorem sharing_fulfilled :
    sharing.validate = .ok () ∧
      ∀ step ∈ sharing.steps, Fulfilled sharing step (step.compile sharing).value.pod :=
  ⟨by decide, (validate_iff_nothing_missing sharing).2 (by decide)⟩

end PodCompiler
