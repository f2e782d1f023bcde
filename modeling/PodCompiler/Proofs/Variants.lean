import PodCompiler.Specification.Tree

/-!
# PodCompiler — the ways to write a specification

A specification has one tree, but there are many ways to write it: fields that would say no more
than their absence may be left out, fields may come in any order, and there may be fields that
nobody knows.

* `Shape` says which parts of a tree are records, with their fields and what the absence of a field
  stands for; `Specification.shape` and its companions are the shapes of the format.
* `Variant` — a tree is the same as another up to these liberties, taken anywhere in it.
-/

namespace PodCompiler

/-! ## Shapes -/

/-- A field of a shape: its name, the shape of its value, and the value that its absence stands for,
if it may be absent. -/
structure FieldShape (ξ : Type) where
  name : String
  shape : ξ
  fallback : Option Tree

/-- Where the records are in a tree. -/
inductive Shape where
  /-- A value without records: a text, a number, a truth value, a map of texts. -/
  | leaf
  | list (item : Shape)
  /-- A value of a shape, or null. -/
  | nullable (inner : Shape)
  | record (fields : List (FieldShape Shape))

namespace FieldShape

/-- A field that must be there. -/
def needed (name : String) (shape : Shape) : FieldShape Shape := { name, shape, fallback := none }

/-- A field with a default. -/
def withDefault (name : String) (shape : Shape) (fallback : Tree) : FieldShape Shape :=
  { name, shape, fallback := some fallback }

/-- A field for a value that may be missing. -/
def maybe (name : String) (inner : Shape) : FieldShape Shape :=
  { name, shape := .nullable inner, fallback := some .null }

end FieldShape

/-! ## Variants -/

/-- Fields in their order, each with a variant of its value or left out; only what its absence
stands for may be left out. -/
inductive Kept (R : Shape → Tree → Tree → Prop) :
    List (FieldShape Shape) → List (String × Tree) → List (String × Tree) → Prop where
  | nil : Kept R [] [] []
  | keep {field : FieldShape Shape} {fields : List (FieldShape Shape)} {t t' : Tree}
      {entries kept : List (String × Tree)} :
      R field.shape t t' → Kept R fields entries kept →
      Kept R (field :: fields) ((field.name, t) :: entries) ((field.name, t') :: kept)
  | drop {field : FieldShape Shape} {fields : List (FieldShape Shape)} {t : Tree}
      {entries kept : List (String × Tree)} :
      field.fallback = some t → Kept R fields entries kept →
      Kept R (field :: fields) ((field.name, t) :: entries) kept

/-- Another way to write a tree of a shape. -/
inductive Variant : Shape → Tree → Tree → Prop where
  | leaf (t : Tree) : Variant .leaf t t
  | list {item : Shape} {ts us : List Tree} :
      ts.length = us.length → (∀ e ∈ ts.zip us, Variant item e.1 e.2) →
      Variant (.list item) (.list ts) (.list us)
  | null {inner : Shape} : Variant (.nullable inner) .null .null
  | present {inner : Shape} {t u : Tree} :
      t ≠ .null → Variant inner t u → Variant (.nullable inner) t u
  /-- Some fields are left out, unknown ones are added, and all of them come in any order. -/
  | record {fields : List (FieldShape Shape)} {entries kept added result : List (String × Tree)} :
      Kept Variant fields entries kept →
      (∀ e ∈ added, ∀ field ∈ fields, field.name ≠ e.1) →
      (kept ++ added).Perm result →
      Variant (.record fields) (.object entries) (.object result)

/-! ## The format -/

open FieldShape

def Metadata.shape : Shape :=
  .record [needed "uid" .leaf, needed "name" .leaf, withDefault "namespace" .leaf (.text ""),
    withDefault "labels" .leaf (.object [])]

def RegistryAuth.shape : Shape :=
  .record [needed "address" .leaf, needed "username" .leaf, needed "password" .leaf]

def Registries.shape : Shape :=
  .record [withDefault "auths" (.list RegistryAuth.shape) (.list [])]

/-- The shape of a secret, and of a file. -/
def dataShape : Shape :=
  .record [needed "metadata" Metadata.shape, withDefault "data" .leaf (.text "")]

def HostPathSource.shape : Shape := .record [needed "path" .leaf]

def SecretItem.shape : Shape :=
  .record [needed "key" .leaf, needed "path" .leaf, maybe "mode" .leaf]

def SecretSource.shape : Shape :=
  .record [needed "name" .leaf, withDefault "items" (.list SecretItem.shape) (.list [])]

def Volume.shape : Shape :=
  .record [needed "metadata" Metadata.shape, maybe "empty_dir" (.record []),
    maybe "host_path" HostPathSource.shape, maybe "secret" SecretSource.shape]

def Port.shape : Shape := .record [needed "port" .leaf, withDefault "host" .leaf (.int 0)]

def ResourceAmounts.shape : Shape :=
  .record [withDefault "cpu" .leaf (.int 0), withDefault "memory" .leaf (.int 0)]

def Resources.shape : Shape :=
  .record [maybe "limits" ResourceAmounts.shape, maybe "requests" ResourceAmounts.shape]

def SecretRef.shape : Shape := .record [needed "name" .leaf, needed "env" .leaf]

def FileRef.shape : Shape :=
  .record [needed "name" .leaf, needed "path" .leaf, maybe "mode" .leaf]

def VolumeRef.shape : Shape := .record [needed "name" .leaf, needed "path" .leaf]

/-- The shape of a step. An unspecified pull policy has a name of its own. -/
def Step.shape : Shape :=
  .record [needed "metadata" Metadata.shape, needed "image" .leaf,
    withDefault "command" (.list .leaf) (.list []), withDefault "args" (.list .leaf) (.list []),
    maybe "working_dir" .leaf, withDefault "pull_policy" .leaf (.text "default"),
    withDefault "privileged" .leaf (.bool false), withDefault "envs" .leaf (.object []),
    withDefault "ports" (.list Port.shape) (.list []), maybe "resources" Resources.shape,
    withDefault "secrets" (.list SecretRef.shape) (.list []),
    withDefault "files" (.list FileRef.shape) (.list []),
    withDefault "volumes" (.list VolumeRef.shape) (.list []),
    maybe "automount_service_account_token" .leaf]

def Specification.shape : Shape :=
  .record [needed "metadata" Metadata.shape,
    withDefault "docker" Registries.shape (.object [("auths", .list [])]),
    withDefault "steps" (.list Step.shape) (.list []),
    withDefault "secrets" (.list dataShape) (.list []),
    withDefault "files" (.list dataShape) (.list []),
    withDefault "volumes" (.list Volume.shape) (.list [])]

end PodCompiler
