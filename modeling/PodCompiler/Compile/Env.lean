import PodCompiler.Compile.Naming
import PodCompiler.Notice

/-!
# PodCompiler — the environment of a step

* `Step.env` lists the variables of a step's container: the declared ones in order of their names,
  the name of the machine, and one for every reference to a secret that is defined.
-/

namespace PodCompiler

/-- The variables that a step declares, without the one that only controls the pod. -/
def Step.declaredEnv (step : Step) : List EnvVar :=
  (step.envs.entries.filter fun e => e.1 ≠ automountVariable).map fun e =>
    { name := e.1, value := .literal e.2 }

/-- The variable that holds the name of the machine. -/
def nodeEnv : EnvVar := { name := nodeVariable, value := .podField "spec.nodeName" }

/-- The variable of a reference to a secret. A secret object is named after the secret's
identifier, which is also its only key. -/
def SecretRef.envVar (ref : SecretRef) (secret : Secret) : EnvVar :=
  { name := ref.env, value := .secretKey secret.metadata.uid secret.metadata.uid }

/-- The variable of a reference to a secret, if the secret is defined. -/
def Step.secretEnv (spec : Specification) (step : Step) (ref : SecretRef) : Logged (List EnvVar) :=
  match spec.secret? ref.name with
  | some secret => pure [ref.envVar secret]
  | none => do
    Logged.note (.unknownSecret step.metadata.name ref.name ref.env)
    pure []

/-- The environment of a step's container. -/
def Step.env (spec : Specification) (step : Step) : Logged (List EnvVar) := do
  let secrets ← Logged.gather (step.secretEnv spec) step.secrets
  pure (step.declaredEnv ++ nodeEnv :: secrets)

end PodCompiler
