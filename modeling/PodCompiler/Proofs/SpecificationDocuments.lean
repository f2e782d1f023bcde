import PodCompiler.Proofs.ReadBack
import PodCompiler.Proofs.SpecificationReading

/-!
# PodCompiler — reading specifications off documents

A document shows a tree if its nodes do: each text as a scalar that means this text, in quotes or
without, numbers, truth values and null as plain scalars, lists and objects as sequences and
mappings, all without tags and references. Documents are faithful to the trees that they show, and
so a specification is read from every document that shows a variant of its tree.

* `Node.Shows` — what a node shows.

Main results:

* `faithful_dialect` — documents are a faithful notation.
* `ofYaml_variant` — a specification is read from every text whose document shows a variant.
-/

namespace PodCompiler.Yaml

/-! ## Scalars -/

namespace Plain

/-- What a plain scalar is taken for. -/
def tree (text : String) : Plain → Tree
  | .null => .null
  | .bool value => .bool value
  | .int value => .int value
  | .float value => .float value
  | .text => .text text

/-- **What a plain scalar is taken for**, and how it is spelt then. -/
theorem ofText_cases (s : String) :
    (ofText s = .null ∧ (s = "" ∨ isNull s = true)) ∨
    (∃ b, ofText s = .bool b ∧ truth s = some b) ∨
    (∃ n, ofText s = .int n ∧ integer s.toList = some n) ∨
    (∃ x, ofText s = .float x) ∨ ofText s = .text := by
  unfold ofText
  split
  next hNull => exact .inl ⟨rfl, by simpa using hNull⟩
  next =>
    split
    next b hTruth => exact .inr (.inl ⟨b, rfl, hTruth⟩)
    next =>
      split
      next n hInteger =>
        exact .inr (.inr (.inl ⟨n, rfl, (Option.filter_eq_some_iff.mp hInteger).1⟩))
      next =>
        -- numbers that are not whole, and numbers that are filled up with zeros
        split
        next => exact .inr (.inr (.inr (.inr rfl)))
        next =>
          split
          next x hNumber => exact .inr (.inr (.inr (.inl ⟨x, rfl⟩)))
          next => exact .inr (.inr (.inr (.inr rfl)))

end Plain

theorem valueFound_plainMeaning (text : String) :
    valueFound (plainMeaning text) = some ((Plain.ofText text).tree text) := by
  unfold plainMeaning
  cases Plain.ofText text with
  | int n =>
    show valueFound (foundInt n) = some (.int n)
    unfold foundInt
    split <;> rfl
  | _ => rfl

/-- A scalar without a tag is a text in quotes, and what the rules for plain scalars say else. -/
theorem scalarTree_none (style : Style) (text : String) :
    scalarTree none style text =
      some (if style = .plain then (Plain.ofText text).tree text else .text text) := by
  show valueFound (if style = .plain then plainMeaning text else .text text) = _
  split
  next => exact valueFound_plainMeaning text
  next => rfl

section Scalar

variable {style : Style} {text : String} {t : Tree}

/-- **What a scalar without a tag shows**: this text, or else it is plain and spelt as the value. -/
theorem scalarTree_cases (h : scalarTree none style text = some t) :
    t = .text text ∨
    (style = .plain ∧
      ((t = .null ∧ (text = "" ∨ Plain.isNull text = true)) ∨
        (∃ b, t = .bool b ∧ Plain.truth text = some b) ∨
        (∃ n, t = .int n ∧ Plain.integer text.toList = some n) ∨ ∃ x, t = .float x)) := by
  rw [scalarTree_none] at h
  obtain rfl := Option.some.inj h
  by_cases hStyle : style = .plain
  · -- what the rules for plain scalars make of the text
    rw [if_pos hStyle]
    obtain ⟨hPlain, hNull⟩ | ⟨b, hPlain, hTruth⟩ | ⟨n, hPlain, hInteger⟩ | ⟨x, hPlain⟩ | hPlain :=
      Plain.ofText_cases text <;> rw [hPlain]
    · exact .inr ⟨hStyle, .inl ⟨rfl, hNull⟩⟩
    · exact .inr ⟨hStyle, .inr (.inl ⟨b, rfl, hTruth⟩)⟩
    · exact .inr ⟨hStyle, .inr (.inr (.inl ⟨n, rfl, hInteger⟩))⟩
    · exact .inr ⟨hStyle, .inr (.inr (.inr ⟨x, rfl⟩))⟩
    · exact .inl rfl
  · exact .inl (if_neg hStyle)

theorem eq_of_scalarTree_text {s : String} (h : scalarTree none style text = some (.text s)) :
    text = s := by
  simpa using (scalarTree_cases h).imp_left Eq.symm

theorem truth_of_scalarTree {b : Bool} (h : scalarTree none style text = some (.bool b)) :
    style = .plain ∧ Plain.truth text = some b := by
  simpa using scalarTree_cases h

theorem integer_of_scalarTree {n : Int} (h : scalarTree none style text = some (.int n)) :
    style = .plain ∧ Plain.integer text.toList = some n := by
  simpa using scalarTree_cases h

/-- A scalar is null if it is plain and spelt so. -/
theorem null_iff_of_scalarTree (h : scalarTree none style text = some t) :
    t = .null ↔ style = .plain ∧ (text = "" ∨ Plain.isNull text = true) := by
  constructor
  · rintro rfl
    simpa using scalarTree_cases h
  · rintro ⟨rfl, hNull⟩
    rw [scalarTree_none, if_pos rfl, Plain.ofText, if_pos (by simpa using hNull)] at h
    exact (Option.some.inj h).symm

/-- A scalar is no list and no object. -/
theorem not_collection_of_scalarTree (h : scalarTree none style text = some t) :
    (∀ ts, t ≠ .list ts) ∧ ∀ fields, t ≠ .object fields := by
  obtain rfl | ⟨-, ⟨rfl, -⟩ | ⟨b, rfl, -⟩ | ⟨n, rfl, -⟩ | ⟨x, rfl⟩⟩ := scalarTree_cases h <;> simp

end Scalar

/-! ## Nodes -/

/-- A node shows a tree, by itself and without tags. -/
inductive Node.Shows : Tree → Node → Prop where
  | scalar {t : Tree} {style : Style} {text : String} :
      scalarTree none style text = some t → Shows t (.scalar none style text)
  | sequence {ts : List Tree} {items : List Node} :
      ts.length = items.length → (∀ e ∈ ts.zip items, Shows e.1 e.2) →
      Shows (.list ts) (.sequence none items)
  | mapping {fields : List (String × Tree)} {entries : List (Node × Node)} :
      fields.length = entries.length →
      (∀ e ∈ fields.zip entries, Shows (.text e.1.1) e.2.1) →
      (∀ e ∈ fields.zip entries, Shows e.1.2 e.2.2) →
      Shows (.object fields) (.mapping none entries)

namespace Node.Shows

theorem text {s : String} {v : Node} (h : Shows (.text s) v) :
    ∃ style, v = .scalar none style s := by
  cases h with
  | @scalar _ style text h => exact ⟨style, by rw [eq_of_scalarTree_text h]⟩

theorem list {ts : List Tree} {v : Node} (h : Shows (.list ts) v) :
    ∃ items, v = .sequence none items ∧ List.Forall₂ Shows ts items := by
  cases h with
  | scalar h => exact absurd rfl ((not_collection_of_scalarTree h).1 ts)
  | @sequence _ items hLength hItems =>
    exact ⟨items, rfl, List.forall₂_iff_zip.mpr ⟨hLength, fun hMem => hItems _ hMem⟩⟩

theorem object {fields : List (String × Tree)} {v : Node} (h : Shows (.object fields) v) :
    ∃ entries, v = .mapping none entries ∧ List.Forall₂ (ShowsField Shows) fields entries := by
  cases h with
  | scalar h => exact absurd rfl ((not_collection_of_scalarTree h).2 fields)
  | @mapping _ entries hLength hKeys hValues =>
    refine ⟨entries, rfl, List.forall₂_iff_zip.mpr ⟨hLength, fun {field entry} hMem => ?_⟩⟩
    exact ⟨hKeys (field, entry) hMem, hValues (field, entry) hMem⟩

/-- A node that shows something is not broken off. -/
theorem isWhole {t : Tree} {v : Node} (h : Shows t v) : v.isWhole = true := by
  induction t using Tree.induction generalizing v with
  | list items ih =>
    -- an induction on the items inside the one on trees
    obtain ⟨nodes, rfl, hItems⟩ := h.list
    rw [Node.isWhole]
    clear h
    induction hItems with
    | nil => rfl
    | @cons t node ts nodes hItem hRest ihRest =>
      rw [Node.isWhole.wholeItems, ih t List.mem_cons_self hItem]
      exact ihRest fun t ht => ih t (List.mem_cons_of_mem _ ht)
  | object fields ih =>
    obtain ⟨entries, rfl, hFields⟩ := h.object
    rw [Node.isWhole]
    clear h
    induction hFields with
    | nil => rfl
    | @cons field entry fields entries hField hRest ihRest =>
      -- keys are texts, and the values are whole by induction
      obtain ⟨style, hKey⟩ := hField.1.text
      have hWhole : entry.1.isWhole = true := by
        rw [hKey]
        rfl
      rw [Node.isWhole.wholeEntries, hWhole, ih field List.mem_cons_self hField.2]
      exact ihRest fun e he => ih e (List.mem_cons_of_mem _ he)
  | _ =>
    cases h
    rfl

end Node.Shows

/-! ## Documents as a notation -/

section Notation

variable (doc : Document) (path : Path) {v : Node}

theorem resolve_of_shows {t : Tree} (h : v.Shows t) : doc.resolve v = pure v := by
  cases h <;> rfl

theorem readName_of_shows {s : String} (h : v.Shows (.text s)) (expected : String) :
    doc.readName expected path v = pure s := by
  obtain ⟨style, rfl⟩ := h.text
  rfl

theorem readBool_of_shows {b : Bool} (h : v.Shows (.bool b)) : doc.readBool path v = pure b := by
  unfold Document.readBool
  rw [resolve_of_shows doc h, pure_bind]
  cases h with
  | @scalar _ style text h =>
    obtain ⟨rfl, hTruth⟩ := truth_of_scalarTree h
    have hMay : mayBe boolTag none .plain = true := rfl
    simp only [hMay, if_true, hTruth]

theorem holds_bits64 {width : IntWidth} {n : Int} (hWidth : width.holds n = true) :
    IntWidth.bits64.holds n = true := by
  cases width with
  | bits32 =>
    simp only [IntWidth.holds, Bool.and_eq_true, decide_eq_true_eq] at hWidth ⊢
    omega
  | bits64 => exact hWidth

theorem readInt_of_shows {n : Int} (h : v.Shows (.int n)) {width : IntWidth}
    (hWidth : width.holds n = true) : doc.readInt width path v = pure n := by
  unfold Document.readInt
  rw [resolve_of_shows doc h, pure_bind]
  cases h with
  | @scalar _ style text h =>
    obtain ⟨rfl, hInteger⟩ := integer_of_scalarTree h
    have hMay : mayBe intTag none .plain = true := rfl
    -- the widest integers are looked for, and then those of the width
    have hWide : (some n).filter IntWidth.bits64.holds = some n := by
      rw [Option.filter_some, if_pos (holds_bits64 hWidth)]
    simp only [hMay, if_true, hInteger, hWide, hWidth]

theorem readPresent_of_null (h : v.Shows .null) : doc.readPresent path v = pure none := by
  cases h with
  | @scalar _ style text h =>
    obtain ⟨rfl, hNull⟩ := (null_iff_of_scalarTree h).mp rfl
    have hSpelt : (text = "" || Plain.isNull text) = true := by simpa using hNull
    show (pure (if text = "" || Plain.isNull text then none else some (.scalar none .plain text)) :
        Reading (Option Node)) = _
    rw [if_pos hSpelt]

theorem readPresent_of_ne_null {t : Tree} (h : v.Shows t) (hNull : t ≠ .null) :
    doc.readPresent path v = pure (some v) := by
  cases h with
  | @scalar _ style text h =>
    cases style with
    | plain =>
      have hSpelt : ¬ (text = "" || Plain.isNull text) = true := fun hSpelt =>
        hNull ((null_iff_of_scalarTree h).mpr ⟨rfl, by simpa using hSpelt⟩)
      show (pure (if text = "" || Plain.isNull text then none
        else some (.scalar none .plain text)) : Reading (Option Node)) = _
      rw [if_neg hSpelt]
    | _ => rfl
  | sequence => rfl
  | mapping => rfl

end Notation

/-- **Documents** are taken for the trees that they show. -/
theorem faithful_dialect (doc : Document) : (dialect doc).Faithful fun t v => v.Shows t where
  text path h := readName_of_shows doc path h "a string"
  bool path h := readBool_of_shows doc path h
  int path h hWidth := readInt_of_shows doc path h hWidth
  items h := by
    obtain ⟨items, rfl, hItems⟩ := h.list
    exact ⟨items, hItems, fun _ => rfl⟩
  entries h := by
    obtain ⟨entries, rfl, hFields⟩ := h.object
    exact ⟨entries, hFields, fun _ => rfl, fun _ _ => rfl⟩
  variant path h := by
    obtain ⟨style, rfl⟩ := h.text
    rfl
  null path h := readPresent_of_null doc path h
  present path h hNull := readPresent_of_ne_null doc path h hNull
  name path h := readName_of_shows doc path h _
  skip h := if_pos h.isWhole

/-- A specification is read from every text whose document shows a variant of its tree, if nothing
follows. -/
theorem ofYaml_variant (s : Specification) {t : Tree}
    (hVariant : Variant Specification.shape s.tree t) {text : String}
    (hShows : (Document.ofText text).root.Shows t)
    (hComplete : (Document.ofText text).complete = true) :
    Specification.ofYaml text = .ok s := by
  unfold Specification.ofYaml Document.read
  rw [understood_specification (faithful_dialect _) s t _ .root hVariant hShows, hComplete]
  rfl

/-! ## Written documents -/

section Written

variable {σ : Styling}

theorem itemNodes_eq_map (items : List Tree) : σ.itemNodes items = items.map σ.valueNode := by
  induction items with
  | nil => rfl
  | cons item rest ih => rw [Styling.itemNodes, ih, List.map_cons]

theorem fieldNodes_eq_map (fields : List (String × Tree)) :
    σ.fieldNodes fields =
      fields.map fun e => (.scalar none (σ.style e.1) e.1, σ.valueNode e.2) := by
  induction fields with
  | nil => rfl
  | cons field rest ih => rw [Styling.fieldNodes, ih, List.map_cons]

/-- The node of a tree shows the tree. -/
theorem shows_valueNode (t : Tree) (hExact : t.isExact = true) : (σ.valueNode t).Shows t := by
  induction t, hExact using Tree.exact_induction σ with
  | scalar hExact hScalar =>
    rw [valueNode_scalar hScalar]
    exact .scalar (scalarTree_scalarOf hExact hScalar)
  | list items hExact hItems ih =>
    rw [Styling.valueNode, itemNodes_eq_map]
    refine .sequence (List.length_map _).symm fun e hMem => ?_
    rw [← List.map_prod_left_eq_zip, List.mem_map] at hMem
    obtain ⟨t, ht, rfl⟩ := hMem
    exact ih t ht
  | object fields hExact hNames hFields ih =>
    rw [Styling.valueNode, fieldNodes_eq_map]
    refine .mapping (List.length_map _).symm (fun e hMem => ?_) fun e hMem => ?_
    · rw [← List.map_prod_left_eq_zip, List.mem_map] at hMem
      obtain ⟨field, -, rfl⟩ := hMem
      exact .scalar (scalarTree_text field.1)
    · rw [← List.map_prod_left_eq_zip, List.mem_map] at hMem
      obtain ⟨field, hField, rfl⟩ := hMem
      exact ih field hField

end Written

end PodCompiler.Yaml

namespace PodCompiler

/-! ## The trees of specifications -/

theorem exact_orNull {α : Type} {o : Option α} {tree : α → Tree}
    (hTree : ∀ a, (tree a).isExact = true) : (Tree.orNull (o.map tree)).isExact = true := by
  cases o with
  | none => rfl
  | some a => exact hTree a

@[simp] theorem exact_int64 (n : Int64) : (Tree.int64 n).isExact = true := by
  have hLow := n.le_toInt
  have hHigh := n.toInt_lt
  simp only [Tree.int64, Tree.isExact, Yaml.Plain.isWhole, Bool.and_eq_true, decide_eq_true_eq]
  norm_num at *
  omega

@[simp] theorem exact_map_tree (m : SortedMap String) : m.tree.isExact = true :=
  Tree.isExact_textFields m.nodup

@[simp] theorem exact_texts (values : List String) : (Tree.texts values).isExact = true :=
  exact_map Tree.isExact_text

@[simp] theorem exact_metadata (m : Metadata) : m.tree.isExact = true := by
  simp [Metadata.tree, Tree.isExact_object]

@[simp] theorem exact_registryAuth (a : RegistryAuth) : a.tree.isExact = true := by
  simp [RegistryAuth.tree, Tree.isExact_object]

@[simp] theorem exact_registries (r : Registries) : r.tree.isExact = true := by
  simp [Registries.tree, Tree.isExact_object, exact_map]

@[simp] theorem exact_secret (s : Secret) : s.tree.isExact = true := by
  simp [Secret.tree, Tree.isExact_object]

@[simp] theorem exact_file (f : File) : f.tree.isExact = true := by
  simp [File.tree, Tree.isExact_object]

@[simp] theorem exact_hostPath (s : HostPathSource) : s.tree.isExact = true := by
  simp [HostPathSource.tree, Tree.isExact_object]

@[simp] theorem exact_secretItem (i : SecretItem) : i.tree.isExact = true := by
  simp [SecretItem.tree, Tree.isExact_object, exact_orNull]

@[simp] theorem exact_secretSource (s : SecretSource) : s.tree.isExact = true := by
  simp [SecretSource.tree, Tree.isExact_object, exact_map]

@[simp] theorem exact_volume (v : Volume) : v.tree.isExact = true := by
  have hEmptyDir : ∀ s : EmptyDirSource, s.tree.isExact = true := fun _ => rfl
  simp [Volume.tree, Tree.isExact_object, exact_orNull, hEmptyDir]

@[simp] theorem exact_port (p : Port) : p.tree.isExact = true := by
  simp [Port.tree, Tree.isExact_object]

@[simp] theorem exact_resourceAmounts (r : ResourceAmounts) : r.tree.isExact = true := by
  simp [ResourceAmounts.tree, Tree.isExact_object]

@[simp] theorem exact_resources (r : Resources) : r.tree.isExact = true := by
  simp [Resources.tree, Tree.isExact_object, exact_orNull]

@[simp] theorem exact_secretRef (r : SecretRef) : r.tree.isExact = true := by
  simp [SecretRef.tree, Tree.isExact_object]

@[simp] theorem exact_fileRef (r : FileRef) : r.tree.isExact = true := by
  simp [FileRef.tree, Tree.isExact_object, exact_orNull]

@[simp] theorem exact_volumeRef (r : VolumeRef) : r.tree.isExact = true := by
  simp [VolumeRef.tree, Tree.isExact_object]

@[simp] theorem exact_step (s : Step) : s.tree.isExact = true := by
  simp [Step.tree, Tree.isExact_object, exact_map, exact_orNull, exact_orNull Tree.isExact_text,
    exact_orNull Tree.isExact_bool]

theorem exact_specification (s : Specification) : s.tree.isExact = true := by
  simp [Specification.tree, Tree.isExact_object, exact_map]

/-- However a specification is written, its metadata is there. -/
theorem exists_field_of_variant {s : Specification} {t : Tree}
    (hVariant : Variant Specification.shape s.tree t) :
    ∃ field rest, t = .object (field :: rest) := by
  cases hVariant with
  | @record _ _ kept added result hKept hAdded hPerm =>
    -- the first field of the shape is the metadata, which nothing stands in for
    cases hKept with
    | keep hValue hRest =>
      cases result with
      | nil => exact absurd hPerm.length_eq (by simp)
      | cons field rest => exact ⟨field, rest, rfl⟩
    | drop hFallback hRest => cases hFallback

/-- **Reading undoes writing.** A specification may be written as its tree says, and this is a tree
that documents preserve. However it is written, it is read off the tree, off every document that
shows the tree, and off the document of the tree in any styles, be it with all texts in quotes. -/
theorem specification_read_back (s : Specification) :
    Variant Specification.shape s.tree s.tree ∧ s.tree.isExact = true ∧
    ∀ t, Variant Specification.shape s.tree t →
      Specification.ofTree t = .ok s ∧
      (∀ text : String, (Yaml.Document.ofText text).root.Shows t →
        (Yaml.Document.ofText text).complete = true → Specification.ofYaml text = .ok s) ∧
      (t.isExact = true → ∀ σ : Yaml.Styling, Specification.ofYaml (σ.document t) = .ok s) := by
  refine ⟨ownVariant_specification s, exact_specification s, fun t hVariant => ?_⟩
  refine ⟨ofTree_variant s hVariant, fun text hShows hComplete =>
    Yaml.ofYaml_variant s hVariant hShows hComplete, fun hExact σ => ?_⟩
  -- nothing follows the document, and its root is the node of the tree
  have hDocument := Yaml.document_ofText (σ := σ) ⟨hExact, exists_field_of_variant hVariant⟩
  refine Yaml.ofYaml_variant s hVariant ?_ ?_
  · rw [hDocument]
    exact Yaml.shows_valueNode t hExact
  · rw [hDocument]

/-- A step that leaves most things to their defaults. -/
def terseStep : Step :=
  { metadata := { uid := "step-uid", name := "build" }, image := "alpine"
    pullPolicy := .ifNotExists, ports := [{ port := 2147483647 }]
    resources := some { limits := some { memory := -9223372036854775808 } } }

/-- The step without defaults, from the last field to the first, and with a field that nobody
knows. -/
def terseStepTree : Tree :=
  .object
    [("retries", .int 3),
      ("resources", .object [("limits", .object [("memory", .int (-9223372036854775808))])]),
      ("ports", .list [.object [("port", .int 2147483647)]]),
      ("pull_policy", .text "if_not_exists"), ("image", .text "alpine"),
      ("metadata", .object [("name", .text "build"), ("uid", .text "step-uid")])]

/-- Metadata without defaults, the name first. -/
theorem variant_terseMetadata (uid name : String) : Variant Metadata.shape
    (Metadata.tree { uid, name }) (.object [("name", .text name), ("uid", .text uid)]) := by
  refine @Variant.record _ _ [("uid", .text uid), ("name", .text name)] [] _ ?_ (by simp)
    (List.reverse_perm _).symm
  exact .keep (.leaf _) <| .keep (.leaf _) <| .drop rfl <| .drop rfl .nil

theorem variant_terseStep : Variant Step.shape terseStep.tree terseStepTree := by
  have hPort : Variant Port.shape (Port.tree { port := 2147483647 })
      (.object [("port", .int 2147483647)]) :=
    @Variant.record _ _ [("port", _)] [] _ (.keep (.leaf _) <| .drop rfl .nil) (by simp)
      (List.reverse_perm _).symm
  have hPorts : Variant (.list Port.shape) (.list [Port.tree { port := 2147483647 }])
      (.list [.object [("port", .int 2147483647)]]) := by
    refine .list rfl fun e hMem => ?_
    obtain rfl := List.mem_singleton.mp hMem
    exact hPort
  have hAmounts : Variant ResourceAmounts.shape
      (ResourceAmounts.tree { memory := -9223372036854775808 })
      (.object [("memory", .int (-9223372036854775808))]) :=
    @Variant.record _ _ [("memory", _)] [] _ (.drop rfl <| .keep (.leaf _) .nil) (by simp)
      (List.reverse_perm _).symm
  have hResources : Variant Resources.shape
      (Resources.tree { limits := some { memory := -9223372036854775808 } })
      (.object [("limits", .object [("memory", .int (-9223372036854775808))])]) :=
    @Variant.record _ _ [("limits", _)] [] _
      (.keep (.present (fun hEq => by cases hEq) hAmounts) <| .drop rfl .nil) (by simp)
      (List.reverse_perm _).symm
  refine @Variant.record _ _
    [("metadata", _), ("image", _), ("pull_policy", _), ("ports", _), ("resources", _)]
    [("retries", .int 3)] _ ?_ (by decide) (List.reverse_perm _).symm
  exact .keep (variant_terseMetadata _ _) <| .keep (.leaf _) <| .drop rfl <| .drop rfl <|
    .drop rfl <| .keep (.leaf _) <| .drop rfl <| .drop rfl <| .keep hPorts <|
    .keep (.present (fun hEq => by cases hEq) hResources) <| .drop rfl <| .drop rfl <|
    .drop rfl <| .drop rfl .nil

/-- A terse specification is read off a terse tree, and off its document with all texts in
quotes. -/
theorem terse_read_back :
    Variant Specification.shape
        (Specification.tree { metadata := { uid := "u", name := "ci" }, steps := [terseStep] })
        (.object [("comment", .list [.text "by hand", .null]), ("steps", .list [terseStepTree]),
          ("metadata", .object [("name", .text "ci"), ("uid", .text "u")])]) ∧
      Specification.ofYaml (Yaml.Styling.quoted.document
        (.object [("comment", .list [.text "by hand", .null]), ("steps", .list [terseStepTree]),
          ("metadata", .object [("name", .text "ci"), ("uid", .text "u")])])) =
        .ok { metadata := { uid := "u", name := "ci" }, steps := [terseStep] } := by
  have hSteps : Variant (.list Step.shape) (.list [terseStep.tree]) (.list [terseStepTree]) := by
    refine .list rfl fun e hMem => ?_
    obtain rfl := List.mem_singleton.mp hMem
    exact variant_terseStep
  have hVariant : Variant Specification.shape
      (Specification.tree { metadata := { uid := "u", name := "ci" }, steps := [terseStep] })
      (.object [("comment", .list [.text "by hand", .null]), ("steps", .list [terseStepTree]),
        ("metadata", .object [("name", .text "ci"), ("uid", .text "u")])]) := by
    refine @Variant.record _ _ [("metadata", _), ("steps", _)]
      [("comment", .list [.text "by hand", .null])] _ ?_ (by decide) (List.reverse_perm _).symm
    exact .keep (variant_terseMetadata _ _) <| .drop rfl <| .keep hSteps <| .drop rfl <|
      .drop rfl <| .drop rfl .nil
  exact ⟨hVariant,
    ((specification_read_back _).2.2 _ hVariant).2.2 (by decide) .quoted⟩

end PodCompiler
