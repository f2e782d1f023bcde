import PodCompiler.Proofs.DocumentNodes
import PodCompiler.Proofs.ObjectTrees
import PodCompiler.Yaml.Dialect

/-!
# PodCompiler — manifests say what was compiled

A document that was written is read back as the tree that it was written for: the same names in the
same order, every text a text with the same characters, every number and truth value what it was.

What is read back is what a document means by itself, without anybody asking for a type. Scalars
mean what `meaning` says, the rules by which refusals name what was found. A name must mean a text,
and no name may come twice in an object.

Main results:

* `Plain.plain_ofInt` — a number is read as that number.
* `readBack_document` — reading back undoes writing.
* `manifests_read_back` — the manifests of a step are its objects, and tell them from all others.
-/

namespace PodCompiler

namespace Yaml

/-! ## Trees of nodes -/

/-- The value that was found in a scalar. -/
def valueFound : Found → Option Tree
  | .null => some .null
  | .bool value => some (.bool value)
  | .int value => some (.int value)
  | .wideInt value => some (.int value)
  | .float value => some (.float value)
  | .text value => some (.text value)
  | .sequence => none
  | .map => none

/-- The value that a scalar stands for by itself. A local tag makes it a value of another kind. -/
def scalarTree (tag : Option Tag) (style : Style) (text : String) : Option Tree :=
  match meaning "" tag style text with
  | .invalidType found _ => if tag.any isLocal then none else valueFound found
  | _ => none

/-- The text that a node stands for as a name. -/
def Node.name? : Node → Option String
  | .scalar tag style text =>
    match scalarTree tag style text with
    | some (.text name) => some name
    | _ => none
  | _ => none

/-- The tree that a node stands for by itself. Names must be texts, and not come twice. References
are not followed, since none are written. -/
def Node.tree? : Node → Option Tree
  | .void => some .null
  | .cut => none
  | .alias _ => none
  | .scalar tag style text => scalarTree tag style text
  | .sequence tag items => if tag.any isLocal then none else (itemTrees items).map .list
  | .mapping tag entries =>
    if tag.any isLocal then none
    else (entryTrees entries).bind fun fields =>
      if (fields.map (·.1)).Nodup then some (.object fields) else none
where
  /-- The trees of items. -/
  itemTrees : List Node → Option (List Tree)
    | [] => some []
    | item :: rest => do
      let t ← item.tree?
      let more ← itemTrees rest
      some (t :: more)
  /-- The fields of entries. -/
  entryTrees : List (Node × Node) → Option (List (String × Tree))
    | [] => some []
    | (key, value) :: rest => do
      let name ← key.name?
      let t ← value.tree?
      let more ← entryTrees rest
      some ((name, t) :: more)

/-- The tree that a text of one document stands for. -/
def readBack (text : String) : Option Tree :=
  if (Document.ofText text).complete then (Document.ofText text).root.tree? else none

/-! ## Numbers -/

namespace Plain

theorem unsigned_digits {cs : List Char} (hDigits : ∀ c ∈ cs, '0' ≤ c ∧ c ≤ '9') :
    unsigned cs = cs := by
  unfold unsigned
  split
  next rest => exact absurd (hDigits '+' List.mem_cons_self) (by decide)
  next rest => exact absurd (hDigits '-' List.mem_cons_self) (by decide)
  next => rfl

theorem magnitude_digits (n : Nat) : magnitude (Numeral.digits n) = some n := by
  have hRead := Numeral.readNat_digits n
  have hDigits : ∀ c ∈ Numeral.digits n, '0' ≤ c ∧ c ≤ '9' := fun c hc => Numeral.mem_digits hc
  have hZero := @Numeral.digits_zero n
  generalize Numeral.digits n = cs at hRead hDigits hZero
  have hPadded : isPadded cs = false := by
    rw [isPadded, unsigned_digits hDigits]
    split
    next c rest => cases hZero rfl
    next => rfl
  rw [magnitude.eq_def]
  split
  next rest => cases hZero rfl
  next rest => cases hZero rfl
  next rest => cases hZero rfl
  next => rw [hPadded, if_neg (by decide), hRead]

theorem integer_ofInt (n : Int) : integer (Numeral.ofInt n).toList = some n := by
  have hMagnitude := magnitude_digits n.natAbs
  rw [Numeral.ofInt, Numeral.ofNat]
  split
  next hNegative =>
    -- the sign is read, and the digits behind it
    have hAbs : -(n.natAbs : Int) = n := by omega
    rw [String.toList_ofList, integer, hMagnitude]
    exact congrArg some hAbs
  next hNot =>
    have hDigits : ∀ c ∈ Numeral.digits n.natAbs, '0' ≤ c ∧ c ≤ '9' := fun c hc => Numeral.mem_digits hc
    have hAbs : (n.natAbs : Int) = n := by omega
    rw [String.toList_ofList]
    generalize Numeral.digits n.natAbs = cs at hMagnitude hDigits
    rw [integer.eq_def]
    split
    next rest => exact absurd (hDigits '-' List.mem_cons_self) (by decide)
    next rest => exact absurd (hDigits '+' List.mem_cons_self) (by decide)
    next =>
      rw [hMagnitude]
      exact congrArg some hAbs

theorem integer_words {s : String} (hWord : s = "" ∨ isNull s = true ∨ (truth s).isSome = true) :
    integer s.toList = none := by
  have hWords : ∀ w ∈ ["", "~", "null", "Null", "NULL", "true", "True", "TRUE", "false", "False",
      "FALSE"], integer w.toList = none := by decide
  -- each word is one of those listed
  refine hWords s ?_
  rcases hWord with rfl | hNull | hTruth
  · simp
  · simp only [isNull, Bool.or_eq_true, decide_eq_true_eq] at hNull
    rcases hNull with ((rfl | rfl) | rfl) | rfl
    all_goals simp
  · rw [truth] at hTruth
    split at hTruth
    next hTrue =>
      simp only [Bool.or_eq_true, decide_eq_true_eq] at hTrue
      rcases hTrue with (rfl | rfl) | rfl
      all_goals simp
    next =>
      split at hTruth
      next hFalse =>
        simp only [Bool.or_eq_true, decide_eq_true_eq] at hFalse
        rcases hFalse with (rfl | rfl) | rfl
        all_goals simp
      next => cases hTruth

/-- A number that is not too wide is read as that number. -/
theorem plain_ofInt {n : Int} (hWhole : isWhole n = true) : ofText (Numeral.ofInt n) = .int n := by
  have hInteger := integer_ofInt n
  generalize Numeral.ofInt n = s at hInteger
  have hWord : ¬ (s = "" ∨ isNull s = true ∨ (truth s).isSome = true) := by
    intro hWord
    rw [integer_words hWord] at hInteger
    cases hInteger
  simp only [not_or] at hWord
  obtain ⟨hNil, hNull, hTruth⟩ := hWord
  have hNone : truth s = none := by simpa using hTruth
  rw [ofText, if_neg (by simp [hNil, hNull]), hNone, hInteger]
  simp only [Option.filter_some, hWhole, if_true]

end Plain

/-! ## Scalars -/

variable {σ : Styling}

/-- A text in the style that it gets means itself. -/
theorem scalarTree_text (s : String) : scalarTree none (σ.style s) s = some (.text s) := by
  have hPlain := (σ.fits s).2
  by_cases hStyle : σ.style s = .plain
  · have hMeaning := hPlain hStyle
    simp [scalarTree, meaning, hStyle, plainMeaning, hMeaning, valueFound]
  · simp [scalarTree, meaning, hStyle, valueFound]

-- without its quotes this text would be taken for nothing
example : chooseStyle "null" = .singleQuoted ∧ scalarTree none .plain "null" = some .null :=
  ⟨by decide, rfl⟩

theorem scalarTree_scalarOf {t : Tree} (hExact : t.isExact = true) {style : Style} {s : String}
    (hScalar : σ.scalarOf t = some (style, s)) : scalarTree none style s = some t := by
  cases t with
  | null =>
    obtain ⟨rfl, rfl⟩ := Prod.mk.inj (Option.some.inj hScalar)
    rfl
  | bool value =>
    obtain ⟨rfl, rfl⟩ := Prod.mk.inj (Option.some.inj hScalar)
    cases value with
    | true => rfl
    | false => rfl
  | int value =>
    obtain ⟨rfl, rfl⟩ := Prod.mk.inj (Option.some.inj hScalar)
    have hMeaning := Plain.plain_ofInt hExact
    -- wider numbers are found as such, with the same value
    by_cases hNarrow : -9223372036854775808 ≤ value ∧ value ≤ 18446744073709551615
    · simp [scalarTree, meaning, plainMeaning, hMeaning, foundInt, hNarrow, valueFound]
    · simp [scalarTree, meaning, plainMeaning, hMeaning, foundInt, hNarrow, valueFound]
  | text value =>
    obtain ⟨rfl, rfl⟩ := Prod.mk.inj (Option.some.inj hScalar)
    exact scalarTree_text value
  | float value => cases hScalar
  | list items => cases hScalar
  | object fields => cases hScalar

/-! ## Documents -/

theorem name_key (key : String) : (Node.scalar none (σ.style key) key).name? = some key := by
  rw [Node.name?, scalarTree_text]

theorem tree_scalar {t : Tree} (hExact : t.isExact = true) {style : Style} {s : String}
    (hScalar : σ.scalarOf t = some (style, s)) : (σ.valueNode t).tree? = some t := by
  rw [valueNode_scalar hScalar, Node.tree?]
  exact scalarTree_scalarOf hExact hScalar

theorem trees_items {items : List Tree} (hItems : ∀ t ∈ items, (σ.valueNode t).tree? = some t) :
    Node.tree?.itemTrees (σ.itemNodes items) = some items := by
  induction items with
  | nil => rfl
  | cons item rest ih =>
    have hItem := hItems item List.mem_cons_self
    have hRest := ih fun t ht => hItems t (List.mem_cons_of_mem item ht)
    rw [Styling.itemNodes, Node.tree?.itemTrees, hItem, hRest]
    rfl

theorem trees_fields {fields : List (String × Tree)}
    (hFields : ∀ e ∈ fields, (σ.valueNode e.2).tree? = some e.2) :
    Node.tree?.entryTrees (σ.fieldNodes fields) = some fields := by
  induction fields with
  | nil => rfl
  | cons field rest ih =>
    obtain ⟨key, value⟩ := field
    have hValue : (σ.valueNode value).tree? = some value := hFields (key, value) List.mem_cons_self
    have hRest := ih fun e he => hFields e (List.mem_cons_of_mem _ he)
    rw [Styling.fieldNodes, Node.tree?.entryTrees, name_key, hValue, hRest]
    rfl

theorem tree_valueNode (t : Tree) (hExact : t.isExact = true) : (σ.valueNode t).tree? = some t := by
  induction t, hExact using Tree.exact_induction σ with
  | scalar hExact hScalar => exact tree_scalar hExact hScalar
  | list items hExact hItems ih =>
    rw [Styling.valueNode, Node.tree?, trees_items ih]
    rfl
  | object fields hExact hNames hFields ih =>
    rw [Styling.valueNode, Node.tree?, trees_fields ih]
    simp [hNames]

/-- Reading back undoes writing. -/
theorem readBack_document {t : Tree} (hManifest : t.IsManifest) : readBack (document t) = some t := by
  rw [document_chosen, readBack, document_ofText hManifest, if_pos rfl]
  exact tree_valueNode t hManifest.exact

theorem readBack_documents {trees : List Tree} (hManifests : ∀ t ∈ trees, t.IsManifest) :
    (trees.map document).map readBack = trees.map some := by
  rw [List.map_map]
  refine List.map_congr_left fun t ht => ?_
  rw [Function.comp_apply, readBack_document (hManifests t ht)]

end Yaml

theorem readBack_manifests (spec : Specification) (step : Step) :
    (step.compile spec).value.manifests.map Yaml.readBack =
      (step.compile spec).value.trees.map some :=
  Yaml.readBack_documents (isManifest_trees spec step)

/-- **The manifests of a step say what was compiled.** Read back, they are the trees of the secrets,
of the config maps, of the pod, and of the service if there is one, whatever the specification
holds; and the manifests of two steps agree exactly if the same was compiled. -/
theorem manifests_read_back (spec : Specification) (step : Step) :
    (step.compile spec).value.manifests.map Yaml.readBack =
        ((step.compile spec).value.secrets.map SecretObject.tree ++
          (step.compile spec).value.configMaps.map ConfigMap.tree ++
          (step.compile spec).value.pod.tree ::
          (step.compile spec).value.service.toList.map Service.tree).map some ∧
      ∀ (spec' : Specification) (step' : Step),
        (step'.compile spec').value.manifests = (step.compile spec).value.manifests ↔
          (step'.compile spec').value = (step.compile spec).value := by
  refine ⟨readBack_manifests spec step, fun spec' step' => ⟨fun hSame => ?_, fun hSame => ?_⟩⟩
  · -- what is read from the manifests tells the trees, and the trees tell the objects
    have hRead : (step'.compile spec').value.trees.map some =
        (step.compile spec).value.trees.map some := by
      rw [← readBack_manifests, ← readBack_manifests, hSame]
    have hTrees := List.map_injective_iff.mpr (Option.some_injective Tree) hRead
    exact CompiledStep.trees_injective hTrees
  · rw [hSame]

end PodCompiler
