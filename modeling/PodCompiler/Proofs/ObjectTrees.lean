import PodCompiler.Proofs.ExactTrees

/-!
# PodCompiler — the trees of objects leave nothing out

Two objects with one tree are the same object. A field without a value is left out of a tree, and
nothing else is written in its place, so that the fields of a tree tell which values were there; and
the kind of an object is among its fields, so that a list of trees tells which objects of which kind
it was made of.

Each kind of value has its own lemma, built on those of its parts, as the trees themselves are.

Main results:

* `Tree.fields_inj` — an object tells which of its fields were present, and with which values.
* `Pod.tree_injective` and its companions — the tree of an object is the tree of no other one.
* `CompiledStep.trees_injective` — the objects of a step are told by their trees.
-/

namespace PodCompiler

open Function (Injective)

/-! ## Fields -/

/-- A list that starts with a field has an entry of that name. -/
theorem mem_of_fields_cons {entries : List (String × Option Tree)} {name : String} {t : Tree}
    {more : List (String × Tree)}
    (hFields : entries.filterMap (fun e => e.2.map (e.1, ·)) = (name, t) :: more) :
    name ∈ entries.map (·.1) := by
  refine (Tree.sublist_fields entries).subset ?_
  rw [hFields]
  exact List.mem_cons_self

/-- Under distinct names, an object tells which of its fields were present. -/
theorem Tree.fields_inj {entries others : List (String × Option Tree)}
    (hSame : Tree.fields entries = Tree.fields others)
    (hNames : entries.map (·.1) = others.map (·.1)) (hDistinct : (entries.map (·.1)).Nodup) :
    entries = others := by
  have hPresent := Tree.object.inj hSame
  clear hSame
  induction entries generalizing others with
  | nil => exact (List.map_eq_nil_iff.mp hNames.symm).symm
  | cons entry rest ih =>
    cases others with
    | nil => cases hNames
    | cons other more =>
      obtain ⟨name, value⟩ := entry
      obtain ⟨name', value'⟩ := other
      obtain ⟨rfl, hRest⟩ : name = name' ∧ rest.map (·.1) = more.map (·.1) := List.cons.inj hNames
      obtain ⟨hNew, hLater⟩ : name ∉ rest.map (·.1) ∧ (rest.map (·.1)).Nodup :=
        List.nodup_cons.mp hDistinct
      -- a name that is left out on one side only would come again later on that side
      cases value with
      | none =>
        cases value' with
        | none => rw [ih hRest hLater hPresent]
        | some t =>
          have hAgain : name ∈ rest.map (·.1) := mem_of_fields_cons hPresent
          exact absurd hAgain hNew
      | some t =>
        cases value' with
        | none =>
          have hAgain : name ∈ more.map (·.1) := mem_of_fields_cons hPresent.symm
          exact absurd (hRest ▸ hAgain) hNew
        | some t' =>
          obtain ⟨hField, hFields⟩ := List.cons.inj hPresent
          rw [ih hRest hLater hFields, (Prod.mk.inj hField).2]

theorem coreObject_inj {kind : String} {entries others : List (String × Option Tree)}
    (hSame : coreObject kind entries = coreObject kind others)
    (hNames : entries.map (·.1) = others.map (·.1))
    (hDistinct : ("apiVersion" :: "kind" :: entries.map (·.1)).Nodup) : entries = others := by
  have hAll := Tree.fields_inj hSame (by simpa using hNames) (by simpa using hDistinct)
  simpa using hAll

/-! ## Values of fields -/

section Values

variable {α : Type} {tree : α → Tree}

theorem text_injective : Injective Tree.text := fun _ _ => Tree.text.inj

theorem int32_injective : Injective Tree.int32 := fun _ _ hSame =>
  Int32.toInt_inj.mp (Tree.int.inj hSame)

theorem list_injective (hTree : Injective tree) :
    Injective fun items : List α => Tree.list (items.map tree) := fun _ _ hSame =>
  List.map_injective_iff.mpr hTree (Tree.list.inj hSame)

theorem textFields_injective : Injective Tree.textFields := by
  intro entries others hSame
  refine List.map_injective_iff.mpr ?_ (Tree.object.inj hSame)
  rintro ⟨key, value⟩ ⟨key', value'⟩ hEntry
  obtain ⟨rfl, hValue⟩ : key = key' ∧ Tree.text value = .text value' := Prod.mk.inj hEntry
  rw [Tree.text.inj hValue]

@[simp] theorem always_inj {name : String} {t t' : Tree} :
    always name t = always name t' ↔ t = t' := by
  simp [always]

theorem sometimes_inj (hTree : Injective tree) {name : String} {value value' : Option α} :
    sometimes name value tree = sometimes name value' tree ↔ value = value' := by
  simp [sometimes, (Option.map_injective hTree).eq_iff]

theorem unlessEmpty_inj (hTree : Injective tree) {name : String} {items items' : List α} :
    unlessEmpty name items tree = unlessEmpty name items' tree ↔ items = items' := by
  cases items with
  | nil => cases items' <;> simp [unlessEmpty]
  | cons item rest =>
    cases items' with
    | nil => simp [unlessEmpty]
    | cons item' rest' =>
      simp [unlessEmpty, hTree.eq_iff, (List.map_injective_iff.mpr hTree).eq_iff]

theorem unlessNoEntry_inj {name : String} {entries entries' : List (String × String)} :
    unlessNoEntry name entries = unlessNoEntry name entries' ↔ entries = entries' := by
  cases entries with
  | nil => cases entries' <;> simp [unlessNoEntry]
  | cons entry rest =>
    cases entries' with
    | nil => simp [unlessNoEntry]
    | cons entry' rest' => simp [unlessNoEntry, textFields_injective.eq_iff]

end Values

/-! ## Parts of objects -/

theorem ObjectMeta.tree_injective : Injective ObjectMeta.tree := by
  rintro ⟨name, namespaceName, labels⟩ ⟨name', namespaceName', labels'⟩ hSame
  have hLabels : Injective fun labels : SortedMap String => Tree.textFields labels.entries :=
    textFields_injective.comp fun _ _ => SortedMap.ext
  have hFields := Tree.fields_inj hSame rfl (by simp)
  simp only [List.cons.injEq, always_inj, sometimes_inj hLabels, sometimes_inj text_injective,
    text_injective.eq_iff, and_true] at hFields
  obtain ⟨rfl, rfl, rfl⟩ := hFields
  rfl

theorem EnvVar.tree_injective : Injective EnvVar.tree := by
  rintro ⟨name, value⟩ ⟨name', value'⟩ hSame
  -- the three kinds of values have fields of different names
  cases value with
  | literal text => cases value' <;> simp_all [EnvVar.tree]
  | podField fieldPath => cases value' <;> simp_all [EnvVar.tree]
  | secretKey secret key => cases value' <;> simp_all [EnvVar.tree]

theorem Projection.tree_injective : Injective Projection.tree := by
  rintro ⟨key, path, mode⟩ ⟨key', path', mode'⟩ hSame
  have hFields := Tree.fields_inj hSame rfl (by simp)
  simp only [List.cons.injEq, always_inj, sometimes_inj int32_injective, text_injective.eq_iff,
    and_true] at hFields
  obtain ⟨rfl, rfl, rfl⟩ := hFields
  rfl

theorem PodVolume.tree_injective : Injective PodVolume.tree := by
  have hItems : Injective (List.map Projection.tree) :=
    List.map_injective_iff.mpr Projection.tree_injective
  rintro ⟨name, source⟩ ⟨name', source'⟩ hSame
  -- each source has a field of its own, which no other source has
  cases source with
  | hostPath path => cases source' <;> simp_all [PodVolume.tree]
  | secret secret items => cases source' <;> simp_all [PodVolume.tree, hItems.eq_iff]
  | configMap configMap items => cases source' <;> simp_all [PodVolume.tree, hItems.eq_iff]

theorem Mount.tree_injective : Injective Mount.tree := by
  rintro ⟨name, mountPath, subPath⟩ ⟨name', mountPath', subPath'⟩ hSame
  have hFields := Tree.fields_inj hSame rfl (by simp)
  simp only [List.cons.injEq, always_inj, sometimes_inj text_injective, text_injective.eq_iff,
    and_true] at hFields
  obtain ⟨rfl, rfl, rfl⟩ := hFields
  rfl

theorem ResourceList.tree_injective : Injective ResourceList.tree := by
  rintro ⟨cpu, memory⟩ ⟨cpu', memory'⟩ hSame
  have hFields := Tree.fields_inj hSame rfl (by simp)
  simp only [List.cons.injEq, sometimes_inj text_injective, and_true] at hFields
  obtain ⟨rfl, rfl⟩ := hFields
  rfl

theorem ResourceRequirements.tree_injective : Injective ResourceRequirements.tree := by
  rintro ⟨limits, requests⟩ ⟨limits', requests'⟩ hSame
  have hFields := Tree.fields_inj hSame rfl (by simp)
  simp only [List.cons.injEq, sometimes_inj ResourceList.tree_injective, and_true] at hFields
  obtain ⟨rfl, rfl⟩ := hFields
  rfl

theorem containerPortTree_injective : Injective containerPortTree := by
  intro port port' hSame
  simpa [containerPortTree, int32_injective.eq_iff] using hSame

theorem Container.tree_injective : Injective Container.tree := by
  have hPorts := list_injective containerPortTree_injective
  rintro ⟨⟩ ⟨⟩ hSame
  have hFields := Tree.fields_inj hSame rfl (by simp)
  simp only [List.cons.injEq, always_inj, sometimes_inj hPorts, sometimes_inj text_injective,
    unlessEmpty_inj text_injective, unlessEmpty_inj Mount.tree_injective, text_injective.eq_iff,
    (list_injective EnvVar.tree_injective).eq_iff, ResourceRequirements.tree_injective.eq_iff,
    Tree.object.injEq, Prod.mk.injEq, Tree.bool.injEq, true_and, and_true] at hFields
  obtain ⟨rfl, rfl, rfl, rfl, rfl, rfl, rfl, rfl, rfl, rfl, rfl⟩ := hFields
  rfl

theorem ServicePort.tree_injective : Injective ServicePort.tree := by
  rintro ⟨port, target⟩ ⟨port', target'⟩ hSame
  simp only [ServicePort.tree, Tree.object.injEq, List.cons.injEq, Prod.mk.injEq,
    int32_injective.eq_iff, true_and, and_true] at hSame
  -- the name only repeats the port
  obtain ⟨-, rfl, rfl⟩ := hSame
  rfl

/-! ## Objects -/

theorem Pod.tree_injective : Injective Pod.tree := by
  rintro ⟨⟩ ⟨⟩ hSame
  have hNamed : Injective fun name => Tree.object [("name", .text name)] := fun _ _ hSame => by
    simpa using hSame
  have hFields := coreObject_inj hSame rfl (by simp)
  simp only [List.cons.injEq, always_inj, ObjectMeta.tree_injective.eq_iff, and_true] at hFields
  obtain ⟨rfl, hSpec⟩ := hFields
  -- all but the metadata stands one level deeper
  have hInner := Tree.fields_inj hSpec rfl (by simp)
  simp only [List.cons.injEq, always_inj, Tree.bool.injEq, Tree.list.injEq,
    Container.tree_injective.eq_iff, unlessEmpty_inj hNamed,
    unlessEmpty_inj PodVolume.tree_injective, true_and, and_true] at hInner
  obtain ⟨rfl, rfl, rfl, rfl⟩ := hInner
  rfl

theorem Service.tree_injective : Injective Service.tree := by
  rintro ⟨⟩ ⟨⟩ hSame
  have hFields := coreObject_inj hSame rfl (by simp)
  simp only [List.cons.injEq, always_inj, ObjectMeta.tree_injective.eq_iff, Tree.object.injEq,
    Prod.mk.injEq, (list_injective ServicePort.tree_injective).eq_iff, textFields_injective.eq_iff,
    true_and, and_true] at hFields
  obtain ⟨rfl, rfl, rfl⟩ := hFields
  rfl

/-- What was written in base64 is told by what it decodes to. -/
theorem SecretObject.tree_injective : Injective SecretObject.tree := by
  have hOctets : Injective fun e : String × String => (e.1, Base64.ofText e.2) := by
    rintro ⟨key, value⟩ ⟨key', value'⟩ hEntry
    obtain ⟨rfl, hEncoded⟩ : key = key' ∧ Base64.ofText value = Base64.ofText value' :=
      Prod.mk.inj hEntry
    have hDecoded := congrArg Base64.text? hEncoded
    rw [Base64.text_ofText, Base64.text_ofText] at hDecoded
    rw [Option.some.inj hDecoded]
  rintro ⟨⟩ ⟨⟩ hSame
  have hFields := coreObject_inj hSame rfl (by simp)
  simp only [List.cons.injEq, always_inj, unlessNoEntry_inj,
    (List.map_injective_iff.mpr hOctets).eq_iff, ObjectMeta.tree_injective.eq_iff,
    text_injective.eq_iff, and_true] at hFields
  obtain ⟨rfl, rfl, rfl, rfl⟩ := hFields
  rfl

theorem ConfigMap.tree_injective : Injective ConfigMap.tree := by
  rintro ⟨⟩ ⟨⟩ hSame
  have hFields := coreObject_inj hSame rfl (by simp)
  simp only [List.cons.injEq, always_inj, unlessNoEntry_inj, ObjectMeta.tree_injective.eq_iff,
    and_true] at hFields
  obtain ⟨rfl, rfl⟩ := hFields
  rfl

/-! ## Steps -/

/-- The kind of an object of the core interface. -/
def Tree.kind? : Tree → Option String
  | .object (_ :: (_, .text kind) :: _) => some kind
  | _ => none

/-- The trees of one kind. -/
def Tree.ofKind (kind : String) (trees : List Tree) : List Tree :=
  trees.filter fun t => t.kind? = some kind

theorem ofKind_append (kind : String) (trees more : List Tree) :
    Tree.ofKind kind (trees ++ more) = Tree.ofKind kind trees ++ Tree.ofKind kind more :=
  List.filter_append trees more

theorem ofKind_map {α : Type} {tree : α → Tree} (own kind : String)
    (hKind : ∀ a, (tree a).kind? = some own) (items : List α) :
    Tree.ofKind kind (items.map tree) = if own = kind then items.map tree else [] := by
  split
  next hOwn =>
    refine List.filter_eq_self.mpr fun t ht => ?_
    obtain ⟨a, -, rfl⟩ := List.mem_map.mp ht
    simp [hKind, hOwn]
  next hOther =>
    refine List.filter_eq_nil_iff.mpr fun t ht => ?_
    obtain ⟨a, -, rfl⟩ := List.mem_map.mp ht
    simp [hKind, hOther]

theorem ofKind_trees (c : CompiledStep) (kind : String) :
    Tree.ofKind kind c.trees =
      (if "Secret" = kind then c.secrets.map SecretObject.tree else []) ++
        (if "ConfigMap" = kind then c.configMaps.map ConfigMap.tree else []) ++
        ((if "Pod" = kind then [c.pod].map Pod.tree else []) ++
          if "Service" = kind then c.service.toList.map Service.tree else []) := by
  have hPod : c.pod.tree :: c.service.toList.map Service.tree =
      [c.pod].map Pod.tree ++ c.service.toList.map Service.tree := rfl
  rw [CompiledStep.trees, hPod, ofKind_append, ofKind_append, ofKind_append,
    ofKind_map "Secret" kind fun _ => rfl, ofKind_map "ConfigMap" kind fun _ => rfl,
    ofKind_map "Pod" kind fun _ => rfl, ofKind_map "Service" kind fun _ => rfl]

/-- The objects of a step are told by their trees. -/
theorem CompiledStep.trees_injective : Injective CompiledStep.trees := by
  rintro ⟨pod, service, secrets, configMaps⟩ ⟨pod', service', secrets', configMaps'⟩ hSame
  have hKinds kind := congrArg (Tree.ofKind kind) hSame
  simp only [ofKind_trees] at hKinds
  have hSecrets : secrets.map SecretObject.tree = secrets'.map SecretObject.tree := by
    simpa using hKinds "Secret"
  have hConfigMaps : configMaps.map ConfigMap.tree = configMaps'.map ConfigMap.tree := by
    simpa using hKinds "ConfigMap"
  have hPod : pod.tree = pod'.tree := by simpa using hKinds "Pod"
  have hService : service.map Service.tree = service'.map Service.tree := by
    have hList : service.toList.map Service.tree = service'.toList.map Service.tree := by
      simpa using hKinds "Service"
    simpa using congrArg List.head? hList
  rw [List.map_injective_iff.mpr SecretObject.tree_injective hSecrets,
    List.map_injective_iff.mpr ConfigMap.tree_injective hConfigMaps, Pod.tree_injective hPod,
    Option.map_injective Service.tree_injective hService]

end PodCompiler
