import PodCompiler.Proofs.ReferenceClosure
import PodCompiler.Proofs.WholeLines

/-!
# PodCompiler — the documents of a stream

What stands between the separators of a stream are its documents, whatever they hold, and they come
in an order in which a cluster can take them: a pod behind everything that it refers to.

`StreamOrder` says the second once for the whole stream. An object that a pod refers to may stand
before several pods, but it does stand before each of them.

Main results:

* `Stream.split_write` — splitting a stream undoes writing it.
* `stream_split_and_ordered` — the documents of a specification, what they are and their order.
-/

namespace PodCompiler

/-! ## Splitting -/

namespace Stream

/-- What stands between the separators of a text. -/
def between (text : List Char) : List (List Char) :=
  ((Yaml.lines text).splitOnP Yaml.isSeparator).map List.flatten

/-- The documents of a stream, without the empty line that ends it. -/
def split (text : String) : List String :=
  (between text.toList.dropLast).map String.ofList

theorem lines_separator (rest : List Char) :
    Yaml.lines (separator.toList ++ rest) = separator.toList :: Yaml.lines rest :=
  have hMark : Yaml.Inline "---".toList := by decide
  Yaml.lines_body (fun d hd => (hMark d hd).2) rfl (by decide) rest

theorem between_intercalate {texts : List (List Char)} (hNil : texts ≠ [])
    (hLines : ∀ text ∈ texts, Yaml.WholeLines text) :
    between (separator.toList.intercalate texts) = texts := by
  induction texts with
  | nil => exact absurd rfl hNil
  | cons text rest ih =>
    have hText := hLines text List.mem_cons_self
    cases rest with
    | nil =>
      -- the last document is all that is left
      obtain ⟨ls, hSplit, hFlatten, hNone⟩ := Yaml.lines_append hText []
      simp only [Yaml.lines, List.append_nil] at hSplit
      rw [List.intercalate_singleton, between, hSplit, List.splitOnP_eq_singleton hNone]
      simp [hFlatten]
    | cons next more =>
      have hRest := ih (by simp) fun t ht => hLines t (List.mem_cons_of_mem text ht)
      -- the first separator is the one that was written behind the document
      obtain ⟨ls, hSplit, hFlatten, hNone⟩ := Yaml.lines_append hText
        (separator.toList ++ separator.toList.intercalate (next :: more))
      rw [between] at hRest
      rw [List.intercalate_cons_cons, List.append_assoc, between, hSplit, lines_separator,
        List.splitOnP_append_cons_of_forall_mem hNone _ (by decide), List.map_cons, hFlatten, hRest]

/-- **Nothing breaks a stream.** What stands between the separators of a stream are its documents. -/
theorem split_write {objects : List Tree} (hNil : objects ≠ [])
    (hManifests : ∀ t ∈ objects, t.IsManifest) :
    split (write (objects.map Yaml.document)) = objects.map Yaml.document := by
  let chars : Tree → List Char := Yaml.documentChars Yaml.Styling.chosen.style
  have hChars : (write (objects.map Yaml.document)).toList.dropLast =
      separator.toList.intercalate (objects.map chars) := by
    have hDocument : String.toList ∘ Yaml.document = chars := by
      funext t
      exact String.toList_ofList
    rw [write, String.toList_append, String.toList_intercalate, List.map_map, hDocument]
    exact List.dropLast_concat
  have hLines : ∀ text ∈ objects.map chars, Yaml.WholeLines text := by
    intro text hText
    obtain ⟨t, ht, rfl⟩ := List.mem_map.mp hText
    exact Yaml.wholeLines_document (hManifests t ht)
  rw [split, hChars, between_intercalate (by simpa using hNil) hLines, List.map_map]
  rfl

end Stream

/-! ## Order -/

/-- The objects that stand before the pod of a step, given the steps before it. -/
def Specification.beforePod (spec : Specification) (earlier : List Step) (step : Step) :
    List Tree :=
  (Namespace.ofSpecification spec).tree ::
    ((spec.registrySecret.map SecretObject.tree).toList ++
      (earlier.flatMap fun other => (other.compile spec).value.trees) ++
      (step.compile spec).value.secrets.map SecretObject.tree ++
      (step.compile spec).value.configMaps.map ConfigMap.tree)

/-- The objects of a specification in the order in which a cluster can take them. -/
structure StreamOrder (spec : Specification) (objects : List Tree) : Prop where
  /-- The namespace, the registry credentials, and the objects of the steps in order. -/
  sequence : objects =
    (Namespace.ofSpecification spec).tree ::
      ((spec.registrySecret.map SecretObject.tree).toList ++
        spec.steps.flatMap fun step =>
          (step.compile spec).value.secrets.map SecretObject.tree ++
            (step.compile spec).value.configMaps.map ConfigMap.tree ++
            (step.compile spec).value.pod.tree ::
              (step.compile spec).value.service.toList.map Service.tree)
  /-- There are credentials exactly if there are registries. -/
  registry : spec.registrySecret.isSome ↔ spec.registries.auths ≠ []
  /-- There is a service exactly if there are ports. -/
  services : ∀ step ∈ spec.steps,
    (step.compile spec).value.service.isSome ↔ step.ports ≠ []
  /-- The pod of a step stands behind the objects before it. -/
  pods : ∀ earlier step later, spec.steps = earlier ++ step :: later →
    ∃ after, objects =
      spec.beforePod earlier step ++ (step.compile spec).value.pod.tree :: after
  /-- A secret object that a pod refers to stands before the pod. -/
  secrets : ∀ earlier step, ∀ r ∈ (step.compile spec).value.pod.secretReferences,
    ∃ object ∈ (step.compile spec).value.secrets, object.metadata.name = r.name ∧
      object.tree ∈ spec.beforePod earlier step
  /-- A config map that a pod refers to stands before the pod. -/
  configMaps : ∀ earlier step, ∀ r ∈ (step.compile spec).value.pod.configMapReferences,
    ∃ object ∈ (step.compile spec).value.configMaps, object.metadata.name = r.name ∧
      object.tree ∈ spec.beforePod earlier step
  /-- The secret object that an image is pulled with stands before the pod. -/
  pulls : ∀ earlier step, ∀ name ∈ (step.compile spec).value.pod.pullSecrets,
    ∃ object, spec.registrySecret = some object ∧ object.metadata.name = name ∧
      object.tree ∈ spec.beforePod earlier step

theorem Meets.exists_object {references : List Reference} {used declared : List Payload}
    {objects : List DataObject} (hMeets : Meets references used declared objects) {r : Reference}
    (hr : r ∈ references) : ∃ o ∈ objects, o.name = r.name := by
  have hOnce := hMeets.once r hr
  have hName : r.name ∈ objects.map (·.name) := by
    rw [← List.count_pos_iff, hOnce]
    decide
  exact List.mem_map.mp hName

theorem registrySecret_isSome (spec : Specification) :
    spec.registrySecret.isSome ↔ spec.registries.auths ≠ [] := by
  rw [Specification.registrySecret]
  split
  case isTrue hEmpty => simp [List.isEmpty_iff.mp hEmpty]
  case isFalse hSome => simpa using hSome

theorem service_isSome (spec : Specification) (step : Step) :
    (step.service spec).isSome ↔ step.ports ≠ [] := by
  rw [Step.service]
  split
  case isTrue hEmpty => simp [List.isEmpty_iff.mp hEmpty]
  case isFalse hSome => simpa using hSome

theorem objects_ordered (spec : Specification) : StreamOrder spec spec.objects := by
  refine
    { sequence := rfl
      registry := registrySecret_isSome spec
      services := fun step _ => service_isSome spec step
      pods := ?pods
      secrets := ?secrets
      configMaps := ?configMaps
      pulls := ?pulls }
  case pods =>
    intro earlier step later hSteps
    refine ⟨(step.compile spec).value.service.toList.map Service.tree ++
      later.flatMap fun other => (other.compile spec).value.trees, ?_⟩
    rw [Specification.objects, hSteps, Specification.beforePod, List.flatMap_append,
      List.flatMap_cons]
    simp [CompiledStep.trees]
  case secrets =>
    -- what a pod refers to is among the objects of its own step, which stand before it
    intro earlier step r hr
    obtain ⟨o, ho, hName⟩ := (compile_meets_secrets spec step).exists_object hr
    obtain ⟨object, hObject, rfl⟩ := List.mem_map.mp ho
    refine ⟨object, hObject, hName, ?_⟩
    have hTree := List.mem_map_of_mem (f := SecretObject.tree) hObject
    simp [Specification.beforePod, hTree]
  case configMaps =>
    intro earlier step r hr
    obtain ⟨o, ho, hName⟩ := (compile_meets_configMaps spec step).exists_object hr
    obtain ⟨object, hObject, rfl⟩ := List.mem_map.mp ho
    refine ⟨object, hObject, hName, ?_⟩
    have hTree := List.mem_map_of_mem (f := ConfigMap.tree) hObject
    simp [Specification.beforePod, hTree]
  case pulls =>
    intro earlier step name hname
    have hPull : name ∈ spec.pullSecrets := hname
    rw [Specification.pullSecrets] at hPull
    split at hPull
    case isTrue => cases hPull
    case isFalse hSome =>
      rw [List.mem_singleton.mp hPull, Specification.beforePod, Specification.registrySecret,
        if_neg hSome]
      exact ⟨_, rfl, rfl, by simp⟩

/-- **The stream of a specification.** Whatever texts a specification holds, what stands between
the separators of its stream are the documents of its objects, and those stand in order. -/
theorem stream_split_and_ordered (spec : Specification) :
    Stream.split (Stream.ofSpecification spec).text = spec.objects.map Yaml.document ∧
      StreamOrder spec spec.objects := by
  have hNil : spec.objects ≠ [] := List.cons_ne_nil _ _
  refine ⟨?_, objects_ordered spec⟩
  rw [Stream.ofSpecification, documents_eq]
  exact Stream.split_write hNil (isManifest_objects spec)

end PodCompiler
