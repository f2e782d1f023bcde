import PodCompiler.Proofs.Validation

/-!
# PodCompiler — the violation that is reported

A specification is checked step by step, and each step in a fixed order: that no step before it has
its name, then that its secrets, its files and its volumes are defined, each kind in the order of
declaration. `Specification.checks` lists all of this, whatever comes of it, and `Specification.Fails`
says which of the checks fail, without looking anything up: a name fails if it is a name of no
entity of its kind. The validation stops at the first violation; here it is shown to be the
violation of the first check in the list that fails.

The validation carries along the names it has seen, the list of checks the steps themselves. The
induction needs only that the two say the same of every name.

Main results:

* `firstViolation_eq` — the validation is a search through the list of checks.
* `validate_reports_first` — what is reported, and when.
-/

namespace PodCompiler

/-! ## The checks -/

/-- Something that is checked of a specification. -/
inductive Check where
  /-- That none of the steps before a step has its name. -/
  | newName (earlier : List Step) (step : Step)
  /-- That what a step refers to is defined. -/
  | defined (step : Step) (kind : EntityKind) (name : String)

/-- What is reported of a check that fails. -/
def Check.violation : Check → Violation
  | .newName _ step => .duplicateStep step.metadata.name
  | .defined step kind name => .danglingReference step.metadata.name kind name

/-- The names of the entities of a kind. -/
def Specification.names (spec : Specification) : EntityKind → List String
  | .secret => spec.secrets.map (·.metadata.name)
  | .file => spec.files.map (·.metadata.name)
  | .volume => spec.volumes.map (·.metadata.name)

/-- Whether a check fails. -/
def Specification.Fails (spec : Specification) : Check → Prop
  | .newName earlier step => step.metadata.name ∈ earlier.map (·.metadata.name)
  | .defined _ kind name => name ∉ spec.names kind

instance (spec : Specification) : DecidablePred spec.Fails
  | .newName earlier step =>
    inferInstanceAs (Decidable (step.metadata.name ∈ earlier.map (·.metadata.name)))
  | .defined _ kind name => inferInstanceAs (Decidable (name ∉ spec.names kind))

/-- The checks of what a step refers to. -/
def Step.referenceChecks (step : Step) : List Check :=
  step.secrets.map (fun ref => .defined step .secret ref.name) ++
    step.files.map (fun ref => .defined step .file ref.name) ++
      step.volumes.map fun ref => .defined step .volume ref.name

/-- The checks of steps that follow others. -/
def checksAfter (earlier : List Step) : List Step → List Check
  | [] => []
  | step :: rest =>
    .newName earlier step :: (step.referenceChecks ++ checksAfter (earlier ++ [step]) rest)

/-- All checks of a specification in their order. -/
def Specification.checks (spec : Specification) : List Check := checksAfter [] spec.steps

/-! ## Looking up -/

/-- A search by name succeeds exactly if there is an entity of the name. -/
theorem isSome_find_name {α : Type} (metadata : α → Metadata) (l : List α) (name : String) :
    (l.find? fun a => (metadata a).name = name).isSome = true ↔
      name ∈ l.map fun a => (metadata a).name := by
  simp [List.find?_isSome]

theorem defines_iff {spec : Specification} {kind : EntityKind} {name : String} :
    spec.defines kind name = true ↔ name ∈ spec.names kind := by
  cases kind with
  | secret => exact isSome_find_name Secret.metadata spec.secrets name
  | file => exact isSome_find_name File.metadata spec.files name
  | volume => exact isSome_find_name Volume.metadata spec.volumes name

/-! ## The search -/

theorem referenceChecks_eq (step : Step) :
    step.referenceChecks = step.references.map fun r => .defined step r.1 r.2 := by
  rw [Step.referenceChecks, Step.references, List.map_append, List.map_append, List.map_map,
    List.map_map, List.map_map]
  rfl

/-- The first reference of a step that leads nowhere is that of the first check that fails. -/
theorem dangling_eq_find (spec : Specification) (step : Step) :
    spec.dangling? step =
      (step.referenceChecks.find? fun check => spec.Fails check).map Check.violation := by
  have hFails : (fun r : EntityKind × String => !spec.defines r.1 r.2) =
      (fun check => decide (spec.Fails check)) ∘ fun r => Check.defined step r.1 r.2 := by
    funext r
    rw [Function.comp_apply, Bool.eq_iff_iff, Bool.not_eq_true', decide_eq_true_eq,
      ← Bool.not_eq_true, defines_iff]
    exact Iff.rfl
  rw [Specification.dangling?, hFails, referenceChecks_eq, List.find?_map, Option.map_map]
  rfl

/-- The validation of steps is a search through their checks, if the names that it has seen are
those of the steps before them. -/
theorem firstViolation_eq {spec : Specification} {seen : List String} {earlier steps : List Step}
    (hSeen : ∀ name, name ∈ seen ↔ name ∈ earlier.map (·.metadata.name)) :
    spec.firstViolation seen steps =
      ((checksAfter earlier steps).find? fun check => spec.Fails check).map Check.violation := by
  induction steps generalizing seen earlier with
  | nil => rfl
  | cons step rest ih =>
    rw [Specification.firstViolation, checksAfter]
    by_cases hName : step.metadata.name ∈ seen
    · have hFails : spec.Fails (.newName earlier step) := (hSeen _).mp hName
      rw [if_pos hName, List.find?_cons_of_pos (by simpa using hFails)]
      rfl
    · have hFails : ¬ spec.Fails (.newName earlier step) := fun h => hName ((hSeen _).mpr h)
      rw [if_neg hName, List.find?_cons_of_neg (by simpa using hFails), List.find?_append,
        dangling_eq_find]
      -- the references of this step come before anything of the steps behind it
      cases step.referenceChecks.find? fun check => spec.Fails check with
      | some check => rfl
      | none =>
        refine ih fun name => ?_
        rw [List.mem_cons, hSeen, List.map_append, List.mem_append, Or.comm, List.map_singleton,
          List.mem_singleton]

/-! ## The report -/

theorem firstViolation_eq_find (spec : Specification) :
    spec.firstViolation [] spec.steps =
      (spec.checks.find? fun check => spec.Fails check).map Check.violation :=
  firstViolation_eq (by simp)

theorem validate_ok_iff_find {spec : Specification} :
    spec.validate = .ok () ↔ (spec.checks.find? fun check => spec.Fails check) = none := by
  rw [Specification.validate, firstViolation_eq_find]
  cases spec.checks.find? fun check => spec.Fails check with
  | none => simp
  | some check => simp

theorem validate_error_iff_find {spec : Specification} {violation : Violation} :
    spec.validate = .error violation ↔
      ∃ check, (spec.checks.find? fun check => spec.Fails check) = some check ∧
        check.violation = violation := by
  rw [Specification.validate, firstViolation_eq_find]
  cases spec.checks.find? fun check => spec.Fails check with
  | none => simp
  | some check => simp

/-- **The first violation.** A violation is reported exactly if it is that of a check that fails
while all checks before it pass; and a specification is fit exactly if none of its checks fails. -/
theorem validate_reports_first (spec : Specification) :
    (∀ violation, spec.validate = .error violation ↔
      ∃ before check after, spec.checks = before ++ check :: after ∧
        (∀ passed ∈ before, ¬ spec.Fails passed) ∧ spec.Fails check ∧
          check.violation = violation) ∧
      (spec.validate = .ok () ↔ ∀ check ∈ spec.checks, ¬ spec.Fails check) := by
  refine ⟨fun violation => ?error, ?ok⟩
  case error =>
    -- what a search finds is where the list is cut into checks that pass, one that fails, and a rest
    simp only [validate_error_iff_find, List.find?_eq_some_iff_append, decide_eq_true_eq,
      Bool.not_eq_true', decide_eq_false_iff_not]
    constructor
    · rintro ⟨check, ⟨hFails, before, after, hChecks, hBefore⟩, hViolation⟩
      exact ⟨before, check, after, hChecks, hBefore, hFails, hViolation⟩
    · rintro ⟨before, check, after, hChecks, hBefore, hFails, hViolation⟩
      exact ⟨check, ⟨hFails, before, after, hChecks, hBefore⟩, hViolation⟩
  case ok =>
    rw [validate_ok_iff_find, List.find?_eq_none]
    simp only [decide_eq_true_eq]

-- the second step has the name of the first, which however refers to a volume that is missing
example : ({ metadata := .new "spec-uid" "pipeline"
             steps :=
               [{ metadata := .new "uid-a" "build", image := "alpine"
                  volumes := [{ name := "cache", path := "/cache" }] },
                { metadata := .new "uid-b" "build", image := "alpine"
                  secrets := [{ name := "token", env := "TOKEN" }] }] } : Specification).validate =
    .error (.danglingReference "build" .volume "cache") := by rfl

end PodCompiler
