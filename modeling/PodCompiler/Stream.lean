import PodCompiler.Compile.Step
import PodCompiler.Specification.Notation
import PodCompiler.Logger

/-!
# PodCompiler — the stream of a specification

Everything that a specification compiles to as one text: the namespace, the registry credentials
if there are any, and the objects of every step, one document each.

* `Specification.documents` are the documents of the objects, `Stream.text` the text of them all.
* `Stream.ofYaml` goes from the text of a specification to the text of its stream.
-/

namespace PodCompiler

/-- The documents of all objects in the order in which a cluster should get them. -/
def Specification.documents (spec : Specification) : Logged (List String) := do
  let steps ← spec.compile
  let shared :=
    (Namespace.ofSpecification spec).tree :: (spec.registrySecret.map SecretObject.tree).toList
  pure (shared.map Yaml.document ++ steps.flatMap CompiledStep.manifests)

/-- A stream of documents, and what is worth a warning about them. -/
structure Stream where
  text : String
  warnings : List String
  deriving DecidableEq, Repr

namespace Stream

/-- The line between two documents. -/
def separator : String := "---\n"

/-- The text of several documents; an empty line ends it. -/
def write (documents : List String) : String := separator.intercalate documents ++ "\n"

/-- The least grave level of what is reported. -/
def logger : Logger := ⟨.warn⟩

/-- What is reported about a specification: how it is unfit, and what the compiler warned of. -/
def report (spec : Specification) : List String :=
  let violations :=
    match spec.validate with
    | .ok () => []
    | .error violation => [violation.message]
  violations ++
    (spec.documents.notices.filter fun n => logger.enables none n.level).map (·.message)

/-- The stream of a specification. -/
def ofSpecification (spec : Specification) : Stream :=
  { text := write spec.documents.value, warnings := report spec }

/-- The stream of a specification that comes as a text. -/
def ofYaml (source : String) : Except Failure Stream :=
  (Specification.ofYaml source).map ofSpecification

/-- A specification to try things with: one step that mounts a workspace and serves a port. -/
def sample : String := "
metadata:
  uid: pipeline-1
  name: hello-world
  namespace: drone-hello-world
steps:
  - metadata:
      uid: step-1
      name: build_and_test
      labels:
        io.drone.step.name: build_and_test
    image: rust:1.75
    command: [/bin/sh, -c]
    args: [cargo test]
    working_dir: /drone/src
    volumes:
      - name: workspace
        path: /drone/src
    ports:
      - port: 8080
volumes:
  - metadata: \x7b uid: volume-1, name: workspace \x7d
    empty_dir: \x7b\x7d
"

end Stream
end PodCompiler
