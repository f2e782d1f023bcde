import PodCompiler.Specification

/-!
# PodCompiler — what makes a specification unfit

A specification is fit if its steps have different names and every secret, file and volume that a
step refers to is defined.

* `Specification.validate` reports the first violation: steps are visited in order, and of each
  step its name, then its secrets, files and volumes in the order of their declaration.
-/

namespace PodCompiler

/-- The kinds of entity that a step refers to by name. -/
inductive EntityKind where
  | secret
  | file
  | volume
  deriving DecidableEq, Repr

/-- A kind of entity in a message. -/
def EntityKind.word : EntityKind → String
  | .secret => "secret"
  | .file => "file"
  | .volume => "volume"

/-- A way in which a specification is unfit. -/
inductive Violation where
  | duplicateStep (step : String)
  | danglingReference (step : String) (kind : EntityKind) (name : String)
  deriving DecidableEq, Repr

/-- A violation in words. -/
def Violation.message : Violation → String
  | .duplicateStep step => "Step `" ++ step ++ "` is defined more than once"
  | .danglingReference step kind name =>
    "Step `" ++ step ++ "` references " ++ kind.word ++ " `" ++ name ++ "`, but it is not defined"

namespace Specification

variable (spec : Specification)

/-- Whether an entity of a kind is defined under a name. -/
def defines (kind : EntityKind) (name : String) : Bool :=
  match kind with
  | .secret => (spec.secret? name).isSome
  | .file => (spec.file? name).isSome
  | .volume => (spec.volume? name).isSome

end Specification

/-- The references of a step in the order in which they are checked. -/
def Step.references (step : Step) : List (EntityKind × String) :=
  step.secrets.map (fun r => (.secret, r.name)) ++ step.files.map (fun r => (.file, r.name)) ++
    step.volumes.map (fun r => (.volume, r.name))

namespace Specification

/-- The first reference of a step that leads nowhere. -/
def dangling? (spec : Specification) (step : Step) : Option Violation :=
  (step.references.find? fun r => !spec.defines r.1 r.2).map fun r =>
    .danglingReference step.metadata.name r.1 r.2

/-- The first violation among steps that follow others with the names `seen`. -/
def firstViolation (spec : Specification) (seen : List String) : List Step → Option Violation
  | [] => none
  | step :: rest =>
    if step.metadata.name ∈ seen then some (.duplicateStep step.metadata.name)
    else
      match spec.dangling? step with
      | some violation => some violation
      | none => firstViolation spec (step.metadata.name :: seen) rest

/-- The first violation of a specification, or nothing if it is fit. -/
def validate (spec : Specification) : Except Violation Unit :=
  match spec.firstViolation [] spec.steps with
  | some violation => .error violation
  | none => .ok ()

end Specification
end PodCompiler
