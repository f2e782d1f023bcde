import PodCompiler.Compile.Files
import PodCompiler.Compile.Volumes
import PodCompiler.Base64
import PodCompiler.Tree.Compact

/-!
# PodCompiler — the secrets of a step

* `Step.secretObjects` are the secret objects of a step, one for each identifier: first those its
  environment refers to, then those its volumes refer to.
* `Specification.registrySecret` holds the registry credentials, if there are any.
-/

namespace PodCompiler

/-- The secret object of a secret. Its name is also its only key, which is what pods rely on. -/
def Secret.object (spec : Specification) (secret : Secret) : SecretObject :=
  { metadata := { name := secret.metadata.uid, namespaceName := spec.metadata.namespace? }
    kind := "Opaque"
    texts := [(secret.metadata.uid, secret.data)] }

/-- The secrets behind one reference to a volume. -/
def VolumeRef.secrets (spec : Specification) (ref : VolumeRef) : Logged (List Secret) :=
  match spec.volume? ref.name with
  | none => pure []
  | some volume =>
    match volume.kind? with
    | some (.secret source) => do
      let resolved ← volume.resolveItems spec source
      pure (resolved.map (·.secret))
    | _ => pure []

/-- The secrets that a step refers to, in order of reference. -/
def Step.referencedSecrets (spec : Specification) (step : Step) : Logged (List Secret) := do
  let mounted ← Logged.gather (·.secrets spec) step.volumes
  pure (step.secrets.filterMap (fun ref => spec.secret? ref.name) ++ mounted)

/-- The secret objects of a step, in order of first reference. -/
def Step.secretObjects (spec : Specification) (step : Step) : Logged (List SecretObject) := do
  let referenced ← step.referencedSecrets spec
  pure ((distinctBy (·.metadata.uid) [] referenced).map (·.object spec))

/-! ## Registry credentials -/

/-- The text that a registry takes as proof of identity. -/
def RegistryAuth.token (auth : RegistryAuth) : String :=
  Base64.ofText (auth.username ++ ":" ++ auth.password)

/-- The tokens of all registries by address; of several for one address the last is kept. -/
def Registries.tokens (r : Registries) : SortedMap String :=
  .ofList (r.auths.map fun auth => (auth.address, auth.token))

/-- The credentials file. -/
def Registries.config (r : Registries) : Tree :=
  .object [("auths",
    .object (r.tokens.entries.map fun e => (e.1, .object [("auth", .text e.2)])))]

/-- The secret object of the registry credentials. -/
def Specification.registrySecret (spec : Specification) : Option SecretObject :=
  if spec.registries.auths.isEmpty then none
  else
    some
      { metadata := { name := registrySecretName, namespaceName := spec.metadata.namespace? }
        kind := "kubernetes.io/dockerconfigjson"
        octets := [(".dockerconfigjson", spec.registries.config.compact)] }

end PodCompiler
