import PodCompiler.Proofs.ReferenceClosure

/-!
# PodCompiler — where the objects of a step stand

Two rules decide about namespaces. A step's pod and its service stand in the step's own namespace,
or in that of the specification if the step has none; everything a pod refers to stands in the
namespace of the specification. A pod reaches only what stands beside it, so the rules are at odds
for a step with a namespace of its own: its pod finds none of the objects compiled for it.

A service finds its pod by a label. It asks for the label of the step's name; the pod has the labels
that the step declares and no others. So it is up to the step to declare the label, and a step that
does not gets a service without a pod behind it.

Main results:

* `compile_placed` — what stands where.
* `placed_together_iff` — when everything of a step stands in one namespace.
* `service_selects_iff` — when the service of a step selects its pod.
-/

namespace PodCompiler

/-! ## Namespaces -/

/-- The pod and the service of a compiled step stand in one namespace; its secret objects, its
config maps and the registry credentials stand in another, or in the same. -/
structure Placed (own shared : Option String) (compiled : CompiledStep)
    (registry : Option SecretObject) : Prop where
  pod : compiled.pod.metadata.namespaceName = own
  service : ∀ service ∈ compiled.service, service.metadata.namespaceName = own
  secrets : ∀ object ∈ compiled.secrets, object.metadata.namespaceName = shared
  configMaps : ∀ object ∈ compiled.configMaps, object.metadata.namespaceName = shared
  registry : ∀ object ∈ registry, object.metadata.namespaceName = shared

/-- The service of a step, if it has one, carries the name of the step and stands where the pod
does. -/
theorem service_eq_some {spec : Specification} {step : Step} {service : Service}
    (hService : step.service spec = some service) :
    service.metadata.namespaceName = step.namespace? spec ∧
      service.selector = [(stepLabel, step.metadata.name)] := by
  rw [Step.service] at hService
  split at hService
  · cases hService
  · rw [← Option.some.inj hService]
    exact ⟨rfl, rfl⟩

/-- What stands where. -/
theorem compile_placed (spec : Specification) (step : Step) :
    Placed (step.namespace? spec) spec.metadata.namespace? (step.compile spec).value
      spec.registrySecret := by
  refine ⟨rfl, ?service, ?secrets, ?configMaps, ?registry⟩
  case service =>
    intro service hService
    exact (service_eq_some hService).1
  case secrets =>
    intro object hObject
    rw [compile_secrets] at hObject
    obtain ⟨secret, -, rfl⟩ := List.mem_map.mp hObject
    rfl
  case configMaps =>
    intro object hObject
    rw [compile_configMaps] at hObject
    obtain ⟨file, -, rfl⟩ := List.mem_map.mp hObject
    rfl
  case registry =>
    intro object hObject
    rw [Specification.registrySecret] at hObject
    split at hObject
    · cases hObject
    · rw [← Option.some.inj hObject]

/-- Two namespaces are one place unless they differ and something stands in each of them; in the
first there is always the pod. -/
theorem Placed.together_iff {own shared : Option String} {compiled : CompiledStep}
    {registry : Option SecretObject} (hPlaced : Placed own shared compiled registry) :
    (∃ place, Placed place place compiled registry) ↔
      own = shared ∨ compiled.secrets = [] ∧ compiled.configMaps = [] ∧ registry = none := by
  constructor
  · rintro ⟨place, hTogether⟩
    have hOwn : own = place := hPlaced.pod.symm.trans hTogether.pod
    by_cases hEq : own = shared
    · exact Or.inl hEq
    · right
      -- whatever stands in the second namespace makes it the first
      refine ⟨?_, ?_, ?_⟩
      · rw [List.eq_nil_iff_forall_not_mem]
        intro object hObject
        apply hEq
        rw [hOwn, ← hTogether.secrets object hObject, hPlaced.secrets object hObject]
      · rw [List.eq_nil_iff_forall_not_mem]
        intro object hObject
        apply hEq
        rw [hOwn, ← hTogether.configMaps object hObject, hPlaced.configMaps object hObject]
      · rw [Option.eq_none_iff_forall_not_mem]
        intro object hObject
        apply hEq
        rw [hOwn, ← hTogether.registry object hObject, hPlaced.registry object hObject]
  · rintro (rfl | ⟨hSecrets, hConfigMaps, hRegistry⟩)
    · exact ⟨own, hPlaced⟩
    · -- with nothing in the second namespace, all that is left stands in the first
      refine ⟨own, hPlaced.pod, hPlaced.service, ?_, ?_, ?_⟩
      · simp [hSecrets]
      · simp [hConfigMaps]
      · simp [hRegistry]

/-- The two namespaces of a step are one unless the step has another than its specification. -/
theorem namespace_eq_iff (spec : Specification) (step : Step) :
    step.namespace? spec = spec.metadata.namespace? ↔
      step.metadata.namespaceName = "" ∨
        step.metadata.namespaceName = spec.metadata.namespaceName := by
  unfold Step.namespace? Metadata.namespace?
  -- an empty namespace counts as none, on either side
  by_cases hStep : step.metadata.namespaceName = ""
  · simp [hStep]
  · by_cases hSpec : spec.metadata.namespaceName = ""
    · simp [hStep, hSpec]
    · simp [hStep, hSpec]

/-- A pod that pulls with no secret belongs to a specification without registry credentials. -/
theorem registrySecret_eq_none_iff (spec : Specification) (step : Step) :
    spec.registrySecret = none ↔ (step.compile spec).value.pod.pullSecrets = [] := by
  show spec.registrySecret = none ↔ spec.pullSecrets = []
  rw [Specification.registrySecret, Specification.pullSecrets]
  split
  · simp
  · simp

/-- **One namespace.** The pod and the service of a step stand in its own namespace, or in that of
the specification if it has none; everything else stands in that of the specification. So all
stand together exactly if the step has no namespace, or has that of the specification, or if its
pod refers to nothing. -/
theorem placed_together_iff (spec : Specification) (step : Step) :
    Placed (step.namespace? spec) spec.metadata.namespace? (step.compile spec).value
        spec.registrySecret ∧
      ((∃ place, Placed place place (step.compile spec).value spec.registrySecret) ↔
        step.metadata.namespaceName = "" ∨
        step.metadata.namespaceName = spec.metadata.namespaceName ∨
        (step.compile spec).value.pod.secretReferences = [] ∧
          (step.compile spec).value.pod.configMapReferences = [] ∧
          (step.compile spec).value.pod.pullSecrets = []) := by
  have hPlaced := compile_placed spec step
  refine ⟨hPlaced, ?_⟩
  have hSecrets := (compile_meets_secrets spec step).objects_eq_nil_iff
  have hConfigMaps := (compile_meets_configMaps spec step).objects_eq_nil_iff
  rw [List.map_eq_nil_iff] at hSecrets hConfigMaps
  rw [hPlaced.together_iff, namespace_eq_iff, hSecrets, hConfigMaps,
    registrySecret_eq_none_iff spec step, or_assoc]

/-- A specification with a namespace, a secret and a file. -/
def sharedPlace : Specification :=
  { metadata := { uid := "spec-uid", name := "pipeline", namespaceName := "ci" }
    secrets := [{ metadata := .new "uid-token" "token", data := "s3cr3t" }]
    files := [{ metadata := .new "uid-settings" "settings", data := "debug = true" }] }

/-- A step that uses both from another namespace. -/
def elsewhere : Step :=
  { metadata := { uid := "step-uid", name := "build", namespaceName := "sandbox" }
    image := "alpine"
    secrets := [{ name := "token", env := "TOKEN" }]
    files := [{ name := "settings", path := "/etc/settings.toml" }] }

/-- The pod of a step in another namespace is without the secret and the config map it needs. -/
theorem elsewhere_not_together :
    ¬ ∃ place, Placed place place (elsewhere.compile sharedPlace).value
      sharedPlace.registrySecret := by
  rintro ⟨place, hTogether⟩
  -- the pod decides on one place, its secret on another
  have hPod : some "sandbox" = place := hTogether.pod
  have hMem : some "ci" ∈
      (elsewhere.compile sharedPlace).value.secrets.map (·.metadata.namespaceName) := by decide
  obtain ⟨object, hObject, hNamespace⟩ := List.mem_map.mp hMem
  have hSecret : some "ci" = place := hNamespace.symm.trans (hTogether.secrets object hObject)
  rw [← hPod] at hSecret
  exact absurd hSecret (by decide)

/-! ## Services -/

/-- The labels of an object as a list. -/
def ObjectMeta.labelEntries (m : ObjectMeta) : List (String × String) :=
  match m.labels with
  | some labels => labels.entries
  | none => []

/-- A service selects a pod that has all the labels it asks for. -/
def Service.Selects (s : Service) (p : Pod) : Prop :=
  ∀ e ∈ s.selector, e ∈ p.metadata.labelEntries

instance (s : Service) (p : Pod) : Decidable (s.Selects p) :=
  inferInstanceAs (Decidable (∀ e ∈ s.selector, e ∈ p.metadata.labelEntries))

/-- The labels of a pod are those that its step declares. -/
theorem labelEntries_pod (spec : Specification) (step : Step) :
    (step.compile spec).value.pod.metadata.labelEntries = step.metadata.labels.entries := by
  show (match step.metadata.labels? with
    | some labels => labels.entries
    | none => []) = step.metadata.labels.entries
  rw [Metadata.labels?]
  -- no labels are written for an empty map, which comes to the same entries
  by_cases hEmpty : step.metadata.labels.isEmpty = true
  · rw [if_pos hEmpty]
    exact (List.isEmpty_iff.mp hEmpty).symm
  · rw [if_neg hEmpty]

/-- **Selection.** The service of a step stands beside the step's pod, and it selects the pod exactly
if the step declares the label of its own name. -/
theorem service_selects_iff {spec : Specification} {step : Step} {service : Service}
    (hService : (step.compile spec).value.service = some service) :
    service.metadata.namespaceName = (step.compile spec).value.pod.metadata.namespaceName ∧
      (service.Selects (step.compile spec).value.pod ↔
        step.metadata.labels.get? stepLabel = some step.metadata.name) := by
  obtain ⟨hNamespace, hSelector⟩ := service_eq_some hService
  refine ⟨hNamespace, ?_⟩
  rw [Service.Selects, hSelector, labelEntries_pod, SortedMap.get_eq_some_iff]
  exact List.forall_mem_singleton

/-- A step that serves a port, with labels. -/
def serving (labels : SortedMap String) : Step :=
  { metadata := { uid := "step-uid", name := "database", labels }
    image := "postgres:16"
    ports := [{ port := 8080 }] }

/-- The service of a step that declares the label selects the pod. -/
theorem labelled_serving_selected :
    ∃ service, ((serving (.insert .empty stepLabel "database")).compile sharedPlace).value.service =
        some service ∧
      service.Selects ((serving (.insert .empty stepLabel "database")).compile sharedPlace).value.pod :=
  ⟨_, rfl, (service_selects_iff rfl).2.mpr (by decide)⟩

/-- The service of a step without labels selects nothing of it. -/
theorem unlabelled_serving_not_selected :
    ∃ service, ((serving .empty).compile sharedPlace).value.service = some service ∧
      ¬ service.Selects ((serving .empty).compile sharedPlace).value.pod :=
  ⟨_, rfl, by decide⟩

end PodCompiler
