import PodCompiler.Cluster.Object
import PodCompiler.Tree
import PodCompiler.Base64

/-!
# PodCompiler — manifests of cluster objects

The value trees of cluster objects: the kind first, then the fields of each object in alphabetical
order. Fields without a value are left out.

* `Pod.tree`, `Service.tree`, `SecretObject.tree`, `ConfigMap.tree` and `Namespace.tree`.
-/

namespace PodCompiler

/-- A field that is always there. -/
def always (name : String) (t : Tree) : String × Option Tree := (name, some t)

/-- A field that is there if it has a value. -/
def sometimes (name : String) (value : Option α) (tree : α → Tree) : String × Option Tree :=
  (name, value.map tree)

/-- A field that is there if its list is not empty. -/
def unlessEmpty (name : String) (items : List α) (tree : α → Tree) : String × Option Tree :=
  (name, if items.isEmpty then none else some (.list (items.map tree)))

/-- A field that is there if its map is not empty. -/
def unlessNoEntry (name : String) (entries : List (String × String)) : String × Option Tree :=
  (name, if entries.isEmpty then none else some (.textFields entries))

/-- The tree of an object of the core interface. -/
def coreObject (kind : String) (entries : List (String × Option Tree)) : Tree :=
  .fields (always "apiVersion" (.text "v1") :: always "kind" (.text kind) :: entries)

/-- The tree of an object's metadata. -/
def ObjectMeta.tree (m : ObjectMeta) : Tree :=
  .fields
    [sometimes "labels" m.labels fun labels => .textFields labels.entries,
      always "name" (.text m.name),
      sometimes "namespace" m.namespaceName .text]

/-- The tree of an environment variable. -/
def EnvVar.tree (v : EnvVar) : Tree :=
  .object <| ("name", .text v.name) ::
    match v.value with
    | .literal value => [("value", .text value)]
    | .podField fieldPath =>
      [("valueFrom", .object [("fieldRef", .object [("fieldPath", .text fieldPath)])])]
    | .secretKey secret key =>
      [("valueFrom", .object [("secretKeyRef", .object
        [("key", .text key), ("name", .text secret), ("optional", .bool true)])])]

/-- The tree of a projected entry. -/
def Projection.tree (p : Projection) : Tree :=
  .fields
    [always "key" (.text p.key), sometimes "mode" p.mode .int32, always "path" (.text p.path)]

/-- The tree of a volume. -/
def PodVolume.tree (v : PodVolume) : Tree :=
  match v.source with
  | .hostPath path =>
    .object
      [("hostPath", .object [("path", .text path), ("type", .text "DirectoryOrCreate")]),
        ("name", .text v.name)]
  | .secret secret items =>
    .object
      [("name", .text v.name),
        ("secret", .object
          [("items", .list (items.map Projection.tree)), ("secretName", .text secret)])]
  | .configMap configMap items =>
    .object
      [("configMap", .object
          [("items", .list (items.map Projection.tree)), ("name", .text configMap),
            ("optional", .bool false)]),
        ("name", .text v.name)]

/-- The tree of a mount. -/
def Mount.tree (m : Mount) : Tree :=
  .fields
    [always "mountPath" (.text m.mountPath), always "name" (.text m.name),
      sometimes "subPath" m.subPath .text]

/-- The tree of a list of quantities. -/
def ResourceList.tree (r : ResourceList) : Tree :=
  .fields [sometimes "cpu" r.cpu .text, sometimes "memory" r.memory .text]

/-- The tree of resource requirements. -/
def ResourceRequirements.tree (r : ResourceRequirements) : Tree :=
  .fields
    [sometimes "limits" r.limits ResourceList.tree,
      sometimes "requests" r.requests ResourceList.tree]

/-- The tree of a container port. -/
def containerPortTree (port : Int32) : Tree := .object [("containerPort", .int32 port)]

/-- The tree of a container. -/
def Container.tree (c : Container) : Tree :=
  .fields
    [unlessEmpty "args" c.args .text,
      unlessEmpty "command" c.command .text,
      always "env" (.list (c.env.map EnvVar.tree)),
      always "image" (.text c.image),
      always "imagePullPolicy" (.text c.pullPolicy),
      always "name" (.text c.name),
      sometimes "ports" c.ports fun ports => .list (ports.map containerPortTree),
      always "resources" c.resources.tree,
      always "securityContext" (.object [("privileged", .bool c.privileged)]),
      unlessEmpty "volumeMounts" c.mounts Mount.tree,
      sometimes "workingDir" c.workingDir .text]

/-- The tree of a pod. -/
def Pod.tree (p : Pod) : Tree :=
  coreObject "Pod"
    [always "metadata" p.metadata.tree,
      always "spec" <| .fields
        [always "automountServiceAccountToken" (.bool p.automountToken),
          always "containers" (.list [p.container.tree]),
          unlessEmpty "imagePullSecrets" p.pullSecrets fun name => .object [("name", .text name)],
          always "restartPolicy" (.text "Never"),
          unlessEmpty "volumes" p.volumes PodVolume.tree]]

/-- The tree of a service port, named after its number. -/
def ServicePort.tree (p : ServicePort) : Tree :=
  .object
    [("name", .text (Numeral.ofInt p.port.toInt)), ("port", .int32 p.port),
      ("targetPort", .int32 p.target)]

/-- The tree of a service. -/
def Service.tree (s : Service) : Tree :=
  coreObject "Service"
    [always "metadata" s.metadata.tree,
      always "spec" <| .object
        [("ports", .list (s.ports.map ServicePort.tree)),
          ("selector", .textFields s.selector),
          ("type", .text "ClusterIP")]]

/-- The tree of a secret object; octets are written in base64. -/
def SecretObject.tree (s : SecretObject) : Tree :=
  coreObject "Secret"
    [unlessNoEntry "data" (s.octets.map fun e => (e.1, Base64.ofText e.2)),
      always "metadata" s.metadata.tree,
      unlessNoEntry "stringData" s.texts,
      always "type" (.text s.kind)]

/-- The tree of a config map. -/
def ConfigMap.tree (c : ConfigMap) : Tree :=
  coreObject "ConfigMap"
    [unlessNoEntry "data" c.data, always "metadata" c.metadata.tree]

/-- The tree of a namespace. -/
def Namespace.tree (n : Namespace) : Tree :=
  coreObject "Namespace" [always "metadata" n.metadata.tree]

end PodCompiler
