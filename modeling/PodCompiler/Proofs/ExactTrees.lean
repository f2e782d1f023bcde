import PodCompiler.Proofs.Parts
import PodCompiler.Proofs.Layout
import PodCompiler.Stream
import Mathlib.Tactic.NormNum

/-!
# PodCompiler — trees that a document preserves

A tree is exact if it is made of texts, truth values and whole numbers, none of which is too wide to
be read as one, and if no object in it has two fields of one name. The trees of compiled objects are
exact, whatever they were compiled from.

Main results:

* `Tree.exact_induction` — how to prove something of all exact trees.
* `isManifest_trees`, `isManifest_objects` — all objects of a step, and of a specification, are
  exact and have fields.
-/

namespace PodCompiler

/-- Whether a tree holds no numbers but whole ones that are read as such, and no name twice in one
object. -/
def Tree.isExact : Tree → Bool
  | .int value => Yaml.Plain.isWhole value
  | .float _ => false
  | .list items => exactItems items
  | .object fields => (fields.map (·.1)).Nodup && exactFields fields
  | _ => true
where
  /-- The same for items. -/
  exactItems : List Tree → Bool
    | [] => true
    | item :: rest => item.isExact && exactItems rest
  /-- The same for the values of fields. -/
  exactFields : List (String × Tree) → Bool
    | [] => true
    | (_, value) :: rest => value.isExact && exactFields rest

namespace Tree

theorem isExact_list {items : List Tree} : (Tree.list items).isExact = items.all isExact := by
  rw [isExact]
  induction items with
  | nil => rfl
  | cons item rest ih => rw [isExact.exactItems, ih, List.all_cons]

theorem isExact_object {fields : List (String × Tree)} :
    (Tree.object fields).isExact =
      (decide (fields.map (·.1)).Nodup && fields.all fun e => e.2.isExact) := by
  rw [isExact]
  congr 1
  induction fields with
  | nil => rfl
  | cons e rest ih => rw [isExact.exactFields, ih, List.all_cons]

/-- What holds of the trees that are written as scalars, of a list whenever it holds of the items,
and of an object whenever it holds of the values of its fields, holds of every exact tree. -/
@[elab_as_elim] theorem exact_induction (σ : Yaml.Styling)
    {motive : (t : Tree) → t.isExact = true → Prop}
    (scalar : ∀ {t : Tree} {style : Yaml.Style} {s : String} (hExact : t.isExact = true)
      (_ : σ.scalarOf t = some (style, s)), motive t hExact)
    (list : ∀ (items : List Tree) (hExact : (Tree.list items).isExact = true)
      (hItems : ∀ t ∈ items, t.isExact = true) (_ : ∀ t (ht : t ∈ items), motive t (hItems t ht)),
      motive (.list items) hExact)
    (object : ∀ (fields : List (String × Tree)) (hExact : (Tree.object fields).isExact = true)
      (_ : (fields.map (·.1)).Nodup) (hFields : ∀ e ∈ fields, e.2.isExact = true)
      (_ : ∀ e (he : e ∈ fields), motive e.2 (hFields e he)), motive (.object fields) hExact)
    (t : Tree) (hExact : t.isExact = true) : motive t hExact := by
  induction t using Tree.induction with
  | null => exact scalar hExact rfl
  | bool value => exact scalar hExact rfl
  | int value => exact scalar hExact rfl
  | text value => exact scalar hExact rfl
  | float value => cases hExact
  | list items ih =>
    have hItems := hExact
    rw [isExact_list, List.all_eq_true] at hItems
    exact list items hExact hItems fun t ht => ih t ht (hItems t ht)
  | object fields ih =>
    have hBoth := hExact
    rw [isExact_object, Bool.and_eq_true, List.all_eq_true, decide_eq_true_eq] at hBoth
    obtain ⟨hNames, hFields⟩ := hBoth
    exact object fields hExact hNames hFields fun e he => ih e he (hFields e he)

/-- Fields that are left out cannot make names meet. -/
theorem sublist_fields (entries : List (String × Option Tree)) :
    ((entries.filterMap fun e => e.2.map (e.1, ·)).map (·.1)).Sublist (entries.map (·.1)) := by
  induction entries with
  | nil => exact .slnil
  | cons e rest ih =>
    cases hValue : e.2 with
    | none => simpa [hValue] using ih.cons e.1
    | some t => simpa [hValue] using ih.cons_cons e.1

theorem isExact_fields {entries : List (String × Option Tree)}
    (hNames : (entries.map (·.1)).Nodup) :
    (Tree.fields entries).isExact = entries.all fun e => e.2.all isExact := by
  rw [fields, isExact_object, decide_eq_true ((sublist_fields entries).nodup hNames),
    Bool.true_and, List.all_filterMap]
  congr 1
  funext e
  cases e.2 with
  | none => rfl
  | some t => rfl

@[simp] theorem isExact_text (value : String) : (Tree.text value).isExact = true := rfl

@[simp] theorem isExact_bool (value : Bool) : (Tree.bool value).isExact = true := rfl

/-- Whole numbers of thirty-two bits are narrow enough. -/
@[simp] theorem isExact_int32 (n : Int32) : (Tree.int32 n).isExact = true := by
  -- the bounds of the type are far inside those of the reader
  have hLow := n.le_toInt
  have hHigh := n.toInt_lt
  simp only [int32, isExact, Yaml.Plain.isWhole, Bool.and_eq_true, decide_eq_true_eq]
  norm_num at *
  omega

theorem isExact_textFields {entries : List (String × String)}
    (hNames : (entries.map (·.1)).Nodup) : (textFields entries).isExact = true := by
  have hSame : (entries.map fun e => (e.1, Tree.text e.2)).map (·.1) = entries.map (·.1) := by
    rw [List.map_map]
    rfl
  rw [textFields, isExact_object, hSame, decide_eq_true hNames, Bool.true_and, List.all_map,
    List.all_eq_true]
  intro e _
  rfl

end Tree

theorem SortedMap.nodup {β : Type} (m : SortedMap β) : (m.entries.map (·.1)).Nodup := by
  rw [List.Nodup, List.pairwise_map]
  refine m.ascending.imp fun hLess hSame => ?_
  rw [hSame] at hLess
  exact String.lt_irrefl _ hLess

/-! ## Fields -/

@[simp] theorem fst_always (name : String) (t : Tree) : (always name t).1 = name := rfl

@[simp] theorem fst_sometimes {α : Type} (name : String) (value : Option α) (tree : α → Tree) :
    (sometimes name value tree).1 = name :=
  rfl

@[simp] theorem fst_unlessEmpty {α : Type} (name : String) (items : List α) (tree : α → Tree) :
    (unlessEmpty name items tree).1 = name :=
  rfl

@[simp] theorem fst_unlessNoEntry (name : String) (entries : List (String × String)) :
    (unlessNoEntry name entries).1 = name :=
  rfl

@[simp] theorem all_always {name : String} {t : Tree} :
    (always name t).2.all Tree.isExact = t.isExact :=
  rfl

theorem all_sometimes {α : Type} {name : String} {value : Option α} {tree : α → Tree}
    (hTree : ∀ a, (tree a).isExact = true) :
    (sometimes name value tree).2.all Tree.isExact = true := by
  cases value with
  | none => rfl
  | some a => exact hTree a

theorem exact_map {α : Type} {items : List α} {tree : α → Tree}
    (hTree : ∀ a, (tree a).isExact = true) : (Tree.list (items.map tree)).isExact = true := by
  rw [Tree.isExact_list, List.all_map, List.all_eq_true]
  exact fun a _ => hTree a

theorem all_unlessEmpty {α : Type} {name : String} {items : List α} {tree : α → Tree}
    (hTree : ∀ a, (tree a).isExact = true) :
    (unlessEmpty name items tree).2.all Tree.isExact = true := by
  rw [unlessEmpty]
  split
  · rfl
  · exact exact_map hTree

-- texts are the usual values, and not found by unification

@[simp] theorem all_sometimes_text {name : String} {value : Option String} :
    (sometimes name value .text).2.all Tree.isExact = true :=
  all_sometimes Tree.isExact_text

@[simp] theorem all_unlessEmpty_text {name : String} {items : List String} :
    (unlessEmpty name items .text).2.all Tree.isExact = true :=
  all_unlessEmpty Tree.isExact_text

theorem all_unlessNoEntry {name : String} {entries : List (String × String)}
    (hNames : (entries.map (·.1)).Nodup) :
    (unlessNoEntry name entries).2.all Tree.isExact = true := by
  rw [unlessNoEntry]
  split
  · rfl
  · exact Tree.isExact_textFields hNames

/-! ## Objects -/

@[simp] theorem exact_objectMeta (m : ObjectMeta) : m.tree.isExact = true := by
  have hLabels : ∀ labels : SortedMap String, (Tree.textFields labels.entries).isExact = true :=
    fun labels => Tree.isExact_textFields labels.nodup
  simp [ObjectMeta.tree, Tree.isExact_fields, all_sometimes, hLabels]

@[simp] theorem exact_envVar (v : EnvVar) : v.tree.isExact = true := by
  rw [EnvVar.tree]
  cases v.value with
  | literal value => simp [Tree.isExact_object]
  | podField fieldPath => simp [Tree.isExact_object]
  | secretKey secret key => simp [Tree.isExact_object]

@[simp] theorem exact_projection (p : Projection) : p.tree.isExact = true := by
  simp [Projection.tree, Tree.isExact_fields, all_sometimes]

@[simp] theorem exact_podVolume (v : PodVolume) : v.tree.isExact = true := by
  rw [PodVolume.tree]
  cases v.source with
  | hostPath path => simp [Tree.isExact_object]
  | secret secret items => simp [Tree.isExact_object, exact_map]
  | configMap configMap items => simp [Tree.isExact_object, exact_map]

@[simp] theorem exact_mount (m : Mount) : m.tree.isExact = true := by
  simp [Mount.tree, Tree.isExact_fields]

@[simp] theorem exact_resourceList (r : ResourceList) : r.tree.isExact = true := by
  simp [ResourceList.tree, Tree.isExact_fields]

@[simp] theorem exact_requirements (r : ResourceRequirements) : r.tree.isExact = true := by
  simp [ResourceRequirements.tree, Tree.isExact_fields, all_sometimes]

@[simp] theorem exact_containerPort (port : Int32) : (containerPortTree port).isExact = true := by
  simp [containerPortTree, Tree.isExact_object]

@[simp] theorem exact_container (c : Container) : c.tree.isExact = true := by
  simp [Container.tree, Tree.isExact_fields, Tree.isExact_object, all_sometimes, all_unlessEmpty,
    exact_map]

@[simp] theorem exact_servicePort (p : ServicePort) : p.tree.isExact = true := by
  simp [ServicePort.tree, Tree.isExact_object]

/-! ## Manifests -/

/-- A tree that its document preserves: an object with fields, and exact. -/
structure Tree.IsManifest (t : Tree) : Prop where
  exact : t.isExact = true
  hasFields : ∃ field rest, t = .object (field :: rest)

/-- Every object of the core interface has fields, whatever is behind its kind. -/
theorem isManifest_core {kind : String} {entries : List (String × Option Tree)}
    (hNames : ("apiVersion" :: "kind" :: entries.map (·.1)).Nodup)
    (hEntries : ∀ e ∈ entries, e.2.all Tree.isExact = true) :
    (coreObject kind entries).IsManifest := by
  refine ⟨?_, ⟨_, _, rfl⟩⟩
  rw [coreObject, Tree.isExact_fields (by simpa using hNames)]
  simpa using hEntries

theorem isManifest_pod (p : Pod) : p.tree.IsManifest := by
  refine isManifest_core (by simp) ?_
  simp [Tree.isExact_fields, Tree.isExact_object, Tree.isExact_list, all_unlessEmpty]

theorem isManifest_namespace (n : Namespace) : n.tree.IsManifest := by
  refine isManifest_core (by simp) ?_
  simp

theorem isManifest_service {s : Service} (hSelector : (s.selector.map (·.1)).Nodup) :
    s.tree.IsManifest := by
  refine isManifest_core (by simp) ?_
  simp [Tree.isExact_object, Tree.isExact_textFields hSelector, exact_map]

theorem isManifest_secretObject {s : SecretObject} (hTexts : (s.texts.map (·.1)).Nodup)
    (hOctets : (s.octets.map (·.1)).Nodup) : s.tree.IsManifest := by
  have hEncoded : ((s.octets.map fun e => (e.1, Base64.ofText e.2)).map (·.1)).Nodup := by
    rw [List.map_map]
    exact hOctets
  refine isManifest_core (by simp) ?_
  simp [all_unlessNoEntry hTexts, all_unlessNoEntry hEncoded]

theorem isManifest_configMap {c : ConfigMap} (hData : (c.data.map (·.1)).Nodup) :
    c.tree.IsManifest := by
  refine isManifest_core (by simp) ?_
  simp [all_unlessNoEntry hData]

theorem isManifest_trees (spec : Specification) (step : Step) :
    ∀ t ∈ (step.compile spec).value.trees, t.IsManifest := by
  intro t ht
  rw [CompiledStep.trees] at ht
  -- secrets and config maps, then the pod, then the service if there is one
  rcases List.mem_append.mp ht with ht | ht
  · rcases List.mem_append.mp ht with ht | ht
    · obtain ⟨object, hObject, rfl⟩ := List.mem_map.mp ht
      obtain ⟨secret, -, rfl⟩ := List.mem_map.mp hObject
      exact isManifest_secretObject (by simp [Secret.object]) List.nodup_nil
    · obtain ⟨object, hObject, rfl⟩ := List.mem_map.mp ht
      obtain ⟨file, -, rfl⟩ := List.mem_map.mp hObject
      exact isManifest_configMap (by simp [File.configMap])
  · rcases List.mem_cons.mp ht with rfl | ht
    · exact isManifest_pod _
    · obtain ⟨service, hService, rfl⟩ := List.mem_map.mp ht
      have hMade : step.service spec = some service := Option.mem_toList.mp hService
      rw [Step.service] at hMade
      split at hMade
      · cases hMade
      · obtain rfl := Option.some.inj hMade
        exact isManifest_service (by simp)

/-- The trees of all objects of a specification: what its steps have in common, and then the steps
in order. -/
def Specification.objects (spec : Specification) : List Tree :=
  (Namespace.ofSpecification spec).tree ::
    ((spec.registrySecret.map SecretObject.tree).toList ++
      spec.steps.flatMap fun step => (step.compile spec).value.trees)

/-- The documents of a specification are those of its objects. -/
theorem documents_eq (spec : Specification) :
    spec.documents.value = spec.objects.map Yaml.document := by
  have hSteps := compile_steps spec
  simp only [Specification.documents, Specification.objects, Logged.value_bind, Logged.value_pure,
    hSteps, List.flatMap_map, List.map_cons, List.map_append, List.map_flatMap, List.cons_append]
  rfl

theorem isManifest_objects (spec : Specification) : ∀ t ∈ spec.objects, t.IsManifest := by
  intro t ht
  rcases List.mem_cons.mp ht with rfl | ht
  · exact isManifest_namespace _
  · rcases List.mem_append.mp ht with ht | ht
    · obtain ⟨object, hObject, rfl⟩ : ∃ object, spec.registrySecret = some object ∧
          object.tree = t := by simpa using ht
      rw [Specification.registrySecret] at hObject
      split at hObject
      · cases hObject
      · obtain rfl := Option.some.inj hObject
        exact isManifest_secretObject List.nodup_nil (by simp)
    · obtain ⟨step, -, ht⟩ := List.mem_flatMap.mp ht
      exact isManifest_trees spec step t ht

end PodCompiler
