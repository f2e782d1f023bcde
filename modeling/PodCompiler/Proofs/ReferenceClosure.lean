import PodCompiler.Proofs.FirstOccurrence
import PodCompiler.Proofs.Parts
import Mathlib.Data.List.Nodup

/-!
# PodCompiler — every reference of a pod is met

A pod refers to secret objects from its environment and from its volumes, and to config maps from
its volumes. The objects compiled beside it are exactly those: each name once, at the place of its
first occurrence, and nothing else. Every object has one entry, under its own name, which is also
the only entry that anything asks for.

An identifier may be shared by several entities. Then the first one used decides what the object
holds; without shared identifiers every object holds the text of the entity it is named after.

`Meets` says this once for both kinds of object. The registry credentials are no part of it: the
pod names them for pulling its image, and they are made once for the whole specification.

Main results:

* `meets_of_used` — objects made from the distinct members of a list meet the references to it.
* `compile_meets_references` — a compiled step meets its pod's references.
-/

namespace PodCompiler

/-! ## References of a pod -/

/-- A use of an object by a pod: its name and the entries that are asked for. -/
structure Reference where
  name : String
  keys : List String
  deriving DecidableEq

/-- The secret object that an environment variable refers to. -/
def EnvVar.secretReference? (v : EnvVar) : Option Reference :=
  match v.value with
  | .secretKey secret key => some { name := secret, keys := [key] }
  | _ => none

/-- The secret object that a volume refers to. -/
def PodVolume.secretReference? (v : PodVolume) : Option Reference :=
  match v.source with
  | .secret secret items => some { name := secret, keys := items.map (·.key) }
  | _ => none

/-- The config map that a volume refers to. -/
def PodVolume.configMapReference? (v : PodVolume) : Option Reference :=
  match v.source with
  | .configMap configMap items => some { name := configMap, keys := items.map (·.key) }
  | _ => none

/-- The references of a pod to secret objects: those of the environment, then those of the
volumes. -/
def Pod.secretReferences (pod : Pod) : List Reference :=
  pod.container.env.filterMap EnvVar.secretReference? ++
    pod.volumes.filterMap PodVolume.secretReference?

/-- The references of a pod to config maps. -/
def Pod.configMapReferences (pod : Pod) : List Reference :=
  pod.volumes.filterMap PodVolume.configMapReference?

/-! ## Entities and objects alike -/

/-- What secrets and files have in common: an identifier and a text. -/
structure Payload where
  uid : String
  data : String
  deriving DecidableEq

/-- What secret objects and config maps have in common: a name and entries. -/
structure DataObject where
  name : String
  entries : List (String × String)
  deriving DecidableEq

def Secret.payload (s : Secret) : Payload := { uid := s.metadata.uid, data := s.data }

def File.payload (f : File) : Payload := { uid := f.metadata.uid, data := f.data }

def SecretObject.dataObject (o : SecretObject) : DataObject :=
  { name := o.metadata.name, entries := o.texts ++ o.octets }

def ConfigMap.dataObject (c : ConfigMap) : DataObject :=
  { name := c.metadata.name, entries := c.data }

/-- The reference to a payload: its identifier is the object's name and the only entry asked for. -/
def Payload.reference (p : Payload) : Reference := { name := p.uid, keys := [p.uid] }

/-- The object of a payload. -/
def Payload.dataObject (p : Payload) : DataObject :=
  { name := p.uid, entries := [(p.uid, p.data)] }

/-- The objects meet the references, which stand for the payloads used, in order. The payloads
used are some of those declared. -/
structure Meets (references : List Reference) (used declared : List Payload)
    (objects : List DataObject) : Prop where
  /-- Each reference names the payload it stands for by its identifier. -/
  uids : references.map (·.name) = used.map (·.uid)
  /-- The objects' names are those referred to, at their first occurrences. -/
  names : objects.map (·.name) = (references.map (·.name)).eraseDups
  /-- What is referred to is there exactly once. -/
  once : ∀ r ∈ references, (objects.map (·.name)).count r.name = 1
  /-- What is there is referred to. -/
  needed : ∀ o ∈ objects, ∃ r ∈ references, r.name = o.name
  /-- A reference asks for the entry that has its object's name. -/
  keys : ∀ r ∈ references, r.keys = [r.name]
  /-- An object has one entry, under its name, with the text of the first payload used that has
  this identifier. -/
  entries : ∀ o ∈ objects, ∃ p, used.find? (fun q => q.uid = o.name) = some p ∧
    o.entries = [(o.name, p.data)]
  /-- Without shared identifiers this is the text of the payload that has the identifier. -/
  own : (declared.map (·.uid)).Nodup → ∀ o ∈ objects, ∀ p ∈ declared, p.uid = o.name →
    o.entries = [(o.name, p.data)]

/-- The objects of distinct payloads meet the references to the payloads. -/
theorem meets_of_used {used declared : List Payload} (hDeclared : ∀ p ∈ used, p ∈ declared) :
    Meets (used.map Payload.reference) used declared
      ((distinctBy (·.uid) [] used).map Payload.dataObject) := by
  have hNames : ((distinctBy (·.uid) [] used).map Payload.dataObject).map (·.name) =
      (used.map (·.uid)).eraseDups := by
    rw [List.map_map, ← map_distinctBy]
    rfl
  have hUids : (used.map Payload.reference).map (·.name) = used.map (·.uid) := by
    rw [List.map_map]
    rfl
  refine ⟨hUids, ?names, ?once, ?needed, ?keys, ?entries, ?own⟩
  case names =>
    rw [hNames, hUids]
  case once =>
    intro r hr
    -- at least once because it is referred to, at most once because the names are distinct
    rw [List.count_eq_one_of_mem]
    · rw [hNames, ← map_distinctBy]
      exact nodup_map_distinctBy
    · rw [hNames, List.mem_eraseDups, ← hUids]
      exact List.mem_map_of_mem hr
  case needed =>
    intro o ho
    have hName : o.name ∈ (used.map Payload.reference).map (·.name) := by
      rw [hUids, ← List.mem_eraseDups, ← hNames]
      exact List.mem_map_of_mem ho
    exact List.mem_map.mp hName
  case keys =>
    intro r hr
    obtain ⟨p, -, rfl⟩ := List.mem_map.mp hr
    rfl
  case entries =>
    intro o ho
    obtain ⟨p, hp, rfl⟩ := List.mem_map.mp ho
    exact ⟨p, (mem_distinctBy_iff.mp hp).2, rfl⟩
  case own =>
    intro hDistinct o ho p hp hUid
    obtain ⟨q, hq, rfl⟩ := List.mem_map.mp ho
    -- both payloads are declared under one identifier, hence they are the same
    have hqUsed : q ∈ used := List.mem_of_find?_eq_some (mem_distinctBy_iff.mp hq).2
    have hqp : q = p :=
      List.inj_on_of_nodup_map hDistinct (hDeclared q hqUsed) hp hUid.symm
    rw [← hqp]
    rfl

/-- Nothing is there exactly if nothing is referred to. -/
theorem Meets.objects_eq_nil_iff {references : List Reference} {used declared : List Payload}
    {objects : List DataObject} (hMeets : Meets references used declared objects) :
    objects = [] ↔ references = [] := by
  constructor
  · intro hNil
    rw [List.eq_nil_iff_forall_not_mem]
    intro r hr
    have hOnce := hMeets.once r hr
    rw [hNil] at hOnce
    cases hOnce
  · intro hNil
    rw [List.eq_nil_iff_forall_not_mem]
    intro o ho
    obtain ⟨r, hr, -⟩ := hMeets.needed o ho
    rw [hNil] at hr
    cases hr

/-! ## What a step uses is declared -/

/-- The secret of a part is one of the specification. -/
theorem secret_mem_of_part {spec : Specification} {ref : MountRef} {part : Part} {s : Secret}
    (hPart : part ∈ ref.parts spec) (hSecret : part.secret? = some s) : s ∈ spec.secrets := by
  cases ref with
  | volume ref =>
    obtain ⟨volume, -, ⟨path, -, rfl⟩ | ⟨source, item, resolved, -, -, hResolve, rfl⟩⟩ :=
      mem_volumeRef_parts hPart
    · cases hSecret
    · obtain ⟨found, hFound, rfl⟩ := Option.map_eq_some_iff.mp hResolve
      rw [← Option.some.inj hSecret]
      exact List.mem_of_find?_eq_some hFound
  | file ref =>
    obtain ⟨file, -, rfl⟩ := mem_fileRef_parts hPart
    cases hSecret

/-- The secrets that a step uses are secrets of the specification. -/
theorem mem_secrets_of_used {spec : Specification} {step : Step} {s : Secret}
    (hs : s ∈ step.usedSecrets spec) : s ∈ spec.secrets := by
  rcases List.mem_append.mp hs with hEnv | hParts
  · obtain ⟨ref, -, hFound⟩ := List.mem_filterMap.mp hEnv
    exact List.mem_of_find?_eq_some hFound
  · obtain ⟨part, hPart, hSecret⟩ := List.mem_filterMap.mp hParts
    obtain ⟨ref, -, hPart⟩ := List.mem_flatMap.mp hPart
    exact secret_mem_of_part hPart hSecret

/-- The files that a step uses are files of the specification. -/
theorem mem_files_of_used {spec : Specification} {step : Step} {f : File}
    (hf : f ∈ step.usedFiles spec) : f ∈ spec.files := by
  rw [Step.usedFiles, filterMap_file_parts] at hf
  obtain ⟨ref, -, hFound⟩ := List.mem_filterMap.mp hf
  exact List.mem_of_find?_eq_some hFound

/-! ## The references and objects of a compiled step -/

/-- A part is a volume whose reference to a secret object is to that of its secret. -/
theorem secretReference_podVolume (part : Part) :
    part.podVolume.secretReference? = part.secret?.map fun s => s.payload.reference := by
  cases part with
  | directory ref volume path => rfl
  | item ref volume resolved => rfl
  | file ref content => rfl

/-- A part is a volume whose reference to a config map is to that of its file. -/
theorem configMapReference_podVolume (part : Part) :
    part.podVolume.configMapReference? = part.file?.map fun f => f.payload.reference := by
  cases part with
  | directory ref volume path => rfl
  | item ref volume resolved => rfl
  | file ref content => rfl

/-- The pod refers to the secrets that its step uses, in order. -/
theorem compile_secretReferences (spec : Specification) (step : Step) :
    (step.compile spec).value.pod.secretReferences =
      ((step.usedSecrets spec).map Secret.payload).map Payload.reference := by
  -- only the last group of variables refers to anything
  have hDeclared : step.declaredEnv.filterMap EnvVar.secretReference? = [] := by
    rw [Step.declaredEnv, List.filterMap_map, List.filterMap_eq_nil_iff]
    intro e _
    rfl
  have hNode : nodeEnv.secretReference? = none := rfl
  rw [Pod.secretReferences, compile_env, compile_volumes, Step.usedSecrets, List.filterMap_append,
    hDeclared, List.nil_append, List.filterMap_cons_none hNode, List.filterMap_map,
    List.map_map, List.map_append, List.map_filterMap, List.map_filterMap, List.filterMap_filterMap]
  congr 1
  · congr 1
    funext ref
    cases spec.secret? ref.name with
    | none => rfl
    | some s => rfl
  · congr 1
    funext part
    exact secretReference_podVolume part

/-- The pod refers to the config maps of the files that its step uses, in order. -/
theorem compile_configMapReferences (spec : Specification) (step : Step) :
    (step.compile spec).value.pod.configMapReferences =
      ((step.usedFiles spec).map File.payload).map Payload.reference := by
  rw [Pod.configMapReferences, compile_volumes, Step.usedFiles, List.filterMap_map, List.map_map,
    List.map_filterMap]
  congr 1
  funext part
  exact configMapReference_podVolume part

/-- The secret objects are those of the distinct payloads among the secrets used. -/
theorem compile_secretDataObjects (spec : Specification) (step : Step) :
    (step.compile spec).value.secrets.map SecretObject.dataObject =
      (distinctBy (·.uid) [] ((step.usedSecrets spec).map Secret.payload)).map
        Payload.dataObject := by
  rw [compile_secrets, distinctBy_map, List.map_map, List.map_map]
  rfl

/-- The config maps are those of the distinct payloads among the files used. -/
theorem compile_configMapDataObjects (spec : Specification) (step : Step) :
    (step.compile spec).value.configMaps.map ConfigMap.dataObject =
      (distinctBy (·.uid) [] ((step.usedFiles spec).map File.payload)).map
        Payload.dataObject := by
  rw [compile_configMaps, distinctBy_map, List.map_map, List.map_map]
  rfl

/-- The secret objects meet the references to secret objects. -/
theorem compile_meets_secrets (spec : Specification) (step : Step) :
    Meets (step.compile spec).value.pod.secretReferences
      ((step.usedSecrets spec).map Secret.payload) (spec.secrets.map Secret.payload)
      ((step.compile spec).value.secrets.map SecretObject.dataObject) := by
  rw [compile_secretReferences, compile_secretDataObjects]
  apply meets_of_used
  intro p hp
  obtain ⟨s, hs, rfl⟩ := List.mem_map.mp hp
  exact List.mem_map_of_mem (mem_secrets_of_used hs)

/-- The config maps meet the references to config maps. -/
theorem compile_meets_configMaps (spec : Specification) (step : Step) :
    Meets (step.compile spec).value.pod.configMapReferences
      ((step.usedFiles spec).map File.payload) (spec.files.map File.payload)
      ((step.compile spec).value.configMaps.map ConfigMap.dataObject) := by
  rw [compile_configMapReferences, compile_configMapDataObjects]
  apply meets_of_used
  intro p hp
  obtain ⟨f, hf, rfl⟩ := List.mem_map.mp hp
  exact List.mem_map_of_mem (mem_files_of_used hf)

/-- **Reference closure.** The secret objects and config maps of a compiled step meet the
references of its pod. -/
theorem compile_meets_references (spec : Specification) (step : Step) :
    Meets (step.compile spec).value.pod.secretReferences
        ((step.usedSecrets spec).map Secret.payload) (spec.secrets.map Secret.payload)
        ((step.compile spec).value.secrets.map SecretObject.dataObject) ∧
      Meets (step.compile spec).value.pod.configMapReferences
        ((step.usedFiles spec).map File.payload) (spec.files.map File.payload)
        ((step.compile spec).value.configMaps.map ConfigMap.dataObject) :=
  ⟨compile_meets_secrets spec step, compile_meets_configMaps spec step⟩

/-- A specification of a token and of a certificate that a volume shows as a file. -/
def tokenAndCertificate : Specification :=
  { metadata := .new "spec-uid" "pipeline"
    secrets :=
      [{ metadata := .new "uid-token" "token", data := "s3cr3t" },
        { metadata := .new "uid-cert" "certs-tls-cert", data := "pem" }]
    volumes :=
      [{ metadata := .new "vol-uid" "certs"
         secret := some
          { name := "tls"
            items := [{ key := "cert", path := "tls.crt" }, { key := "key", path := "tls.key" }] } }] }

/-- A step that mounts the certificate twice and refers to the token, to the certificate and to a
secret that does not exist. -/
def repeating : Step :=
  { metadata := .new "step-uid" "build"
    image := "alpine"
    secrets :=
      [{ name := "certs-tls-cert", env := "CERT" }, { name := "missing", env := "MISSING" },
        { name := "token", env := "TOKEN" }]
    volumes := [{ name := "certs", path := "/etc/tls" }, { name := "certs", path := "/tls" }] }

/-- Repeated and dangling references: two objects, each with the text of its own secret. -/
theorem repeating_own_texts :
    (repeating.compile tokenAndCertificate).value.pod.secretReferences.map (·.name) =
        ["uid-cert", "uid-token", "uid-cert", "uid-cert"] ∧
      (repeating.compile tokenAndCertificate).value.secrets.map (·.metadata.name) =
        ["uid-cert", "uid-token"] ∧
      ∀ o ∈ (repeating.compile tokenAndCertificate).value.secrets.map SecretObject.dataObject,
        ∀ p ∈ tokenAndCertificate.secrets.map Secret.payload, p.uid = o.name →
          o.entries = [(o.name, p.data)] :=
  ⟨by decide, by decide, (compile_meets_references _ _).1.own (by decide)⟩

end PodCompiler
