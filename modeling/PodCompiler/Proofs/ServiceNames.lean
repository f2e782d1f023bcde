import PodCompiler.Proofs.Placement
import PodCompiler.Proofs.Validation

/-!
# PodCompiler — names of services

Services are named after steps, with hyphens for underscores. That is all that is done to a name, so
two names that differ only in these two characters become one. The check of a specification
compares the names of steps as they are; of two steps that it tells apart, both may get a service of
the same name, and if they run in one namespace a cluster keeps only one of the two services.

Main results:

* `dnsName_eq_iff` — which names become one.
* `collides_iff` — when the services of two steps collide.
* `fit_collides_iff` — when the services of two steps of a fit specification collide.
-/

namespace PodCompiler

/-! ## Names that become one -/

/-- Two characters that are one in the name of a service. -/
def Alike (c d : Char) : Prop := c = d ∨ c ∈ ['-', '_'] ∧ d ∈ ['-', '_']

instance (c d : Char) : Decidable (Alike c d) :=
  inferInstanceAs (Decidable (c = d ∨ c ∈ ['-', '_'] ∧ d ∈ ['-', '_']))

/-- Two different names that differ only in hyphens and underscores. -/
structure Confusable (n m : String) : Prop where
  ne : n ≠ m
  alike : List.Forall₂ Alike n.toList m.toList

/-- Characters become one exactly if they are alike. -/
theorem hyphenated_eq_iff {c d : Char} :
    (if c = '_' then '-' else c) = (if d = '_' then '-' else d) ↔ Alike c d := by
  unfold Alike
  by_cases hc : c = '_'
  · by_cases hd : d = '_'
    · simp [hc, hd]
    · simp [hc, hd, eq_comm]
  · by_cases hd : d = '_'
    · simp [hc, hd]
    · rw [if_neg hc, if_neg hd]
      constructor
      · intro hEq
        exact Or.inl hEq
      · rintro (hEq | ⟨hc', hd'⟩)
        · exact hEq
        · -- neither is an underscore, so both are hyphens
          have hHyphen : c = '-' := by simpa [hc] using hc'
          have hHyphen' : d = '-' := by simpa [hd] using hd'
          rw [hHyphen, hHyphen']

/-- Names become one exactly if they differ in hyphens and underscores at most. -/
theorem dnsName_eq_iff {n m : String} :
    dnsName n = dnsName m ↔ List.Forall₂ Alike n.toList m.toList := by
  rw [dnsName, dnsName, String.ofList_inj, ← List.forall₂_eq_eq_eq, List.forall₂_map_left_iff,
    List.forall₂_map_right_iff]
  simp only [hyphenated_eq_iff]

/-! ## Collisions -/

/-- The services of two compiled steps collide if a cluster takes them for one object: they have the
same namespace and the same name. -/
def CompiledStep.Collides (c d : CompiledStep) : Prop :=
  ∃ s ∈ c.service, ∃ t ∈ d.service,
    s.metadata.namespaceName = t.metadata.namespaceName ∧ s.metadata.name = t.metadata.name

instance (c d : CompiledStep) : Decidable (c.Collides d) :=
  inferInstanceAs (Decidable (∃ s ∈ c.service, ∃ t ∈ d.service,
    s.metadata.namespaceName = t.metadata.namespaceName ∧ s.metadata.name = t.metadata.name))

/-- A step has a service exactly if it has ports. -/
theorem mem_service_iff {spec : Specification} {step : Step} {service : Service} :
    service ∈ (step.compile spec).value.service ↔
      step.ports ≠ [] ∧
        service =
          { metadata := { name := dnsName step.metadata.name, namespaceName := step.namespace? spec }
            selector := [(stepLabel, step.metadata.name)]
            ports := step.ports.map Port.servicePort } := by
  show service ∈ step.service spec ↔ _
  rw [Step.service]
  by_cases hPorts : step.ports = []
  · simp [hPorts]
  · rw [if_neg (by simpa using hPorts), Option.mem_some_iff]
    constructor
    · intro hService
      exact ⟨hPorts, hService.symm⟩
    · rintro ⟨-, hService⟩
      exact hService.symm

/-- The services of two steps collide exactly if both have ports, both run in one namespace, and
their names become one. -/
theorem collides_iff {spec : Specification} {a b : Step} :
    (a.compile spec).value.Collides (b.compile spec).value ↔
      a.ports ≠ [] ∧ b.ports ≠ [] ∧ a.namespace? spec = b.namespace? spec ∧
        dnsName a.metadata.name = dnsName b.metadata.name := by
  constructor
  · rintro ⟨s, hs, t, ht, hNamespace, hName⟩
    obtain ⟨hPorts, rfl⟩ := mem_service_iff.mp hs
    obtain ⟨hPorts', rfl⟩ := mem_service_iff.mp ht
    exact ⟨hPorts, hPorts', hNamespace, hName⟩
  · rintro ⟨hPorts, hPorts', hNamespace, hName⟩
    exact ⟨_, mem_service_iff.mpr ⟨hPorts, rfl⟩, _, mem_service_iff.mpr ⟨hPorts', rfl⟩,
      hNamespace, hName⟩

/-- **Services of one name.** The compiled steps of a fit specification stand where the steps stand.
The services of two of them collide exactly if both steps have ports and run in one namespace, and
their names differ only in hyphens and underscores. -/
theorem fit_collides_iff {spec : Specification} (hFit : spec.validate = .ok ()) {i j : Nat}
    (hNe : i ≠ j) {a b : Step} (hA : spec.steps[i]? = some a) (hB : spec.steps[j]? = some b) :
    ∃ c d, spec.compile.value[i]? = some c ∧ spec.compile.value[j]? = some d ∧
      (c.Collides d ↔
        a.ports ≠ [] ∧ b.ports ≠ [] ∧ a.namespace? spec = b.namespace? spec ∧
          Confusable a.metadata.name b.metadata.name) := by
  have hName : a.metadata.name ≠ b.metadata.name := by
    intro hEq
    -- the check leaves no name at two places
    obtain ⟨hNodup, -⟩ := validate_eq_ok_iff.mp hFit
    have hLt : i < (spec.steps.map (·.metadata.name)).length := by
      rw [List.length_map]
      exact (List.getElem?_eq_some_iff.mp hA).1
    apply hNe
    apply (List.getElem?_inj hLt hNodup).mp
    rw [List.getElem?_map, List.getElem?_map, hA, hB, Option.map_some, Option.map_some, hEq]
  refine ⟨(a.compile spec).value, (b.compile spec).value, ?first, ?second, ?iff⟩
  case first => rw [compile_steps, List.getElem?_map, hA, Option.map_some]
  case second => rw [compile_steps, List.getElem?_map, hB, Option.map_some]
  case iff =>
    rw [collides_iff, dnsName_eq_iff]
    constructor
    · rintro ⟨hPorts, hPorts', hNamespace, hAlike⟩
      exact ⟨hPorts, hPorts', hNamespace, hName, hAlike⟩
    · rintro ⟨hPorts, hPorts', hNamespace, hConfusable⟩
      exact ⟨hPorts, hPorts', hNamespace, hConfusable.alike⟩

/-- Two steps that serve a port under names that differ in a hyphen and an underscore, the second
one in a namespace that may be its own. -/
def lookalikes (namespaceName : String) : Specification :=
  { metadata := { uid := "spec-uid", name := "pipeline", namespaceName := "ci" }
    steps :=
      [{ metadata := .new "step-1" "build_test"
         image := "alpine"
         ports := [{ port := 8080 }] },
        { metadata := { uid := "step-2", name := "build-test", namespaceName }
          image := "alpine"
          ports := [{ port := 9090 }] }] }

/-- In a namespace of its own the second service keeps clear of the first. -/
theorem lookalikes_apart :
    ∃ c d, (lookalikes "sandbox").compile.value[0]? = some c ∧
      (lookalikes "sandbox").compile.value[1]? = some d ∧ ¬ c.Collides d := by
  obtain ⟨c, d, hC, hD, hCollides⟩ :=
    @fit_collides_iff (lookalikes "sandbox") (by decide) 0 1 (by decide) _ _ rfl rfl
  refine ⟨c, d, hC, hD, ?_⟩
  rw [hCollides]
  rintro ⟨-, -, hNamespace, -⟩
  exact absurd hNamespace (by decide)

/-- In one namespace the two services collide, although the specification is fit. -/
theorem lookalikes_collide :
    (lookalikes "").validate = .ok () ∧
      ∃ c d, (lookalikes "").compile.value[0]? = some c ∧
        (lookalikes "").compile.value[1]? = some d ∧ c.Collides d :=
  ⟨by decide, _, _, rfl, rfl, by decide⟩

end PodCompiler
