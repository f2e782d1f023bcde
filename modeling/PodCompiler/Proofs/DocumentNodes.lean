import PodCompiler.Proofs.DocumentTokens
import PodCompiler.Yaml.Node

/-!
# PodCompiler — the nodes of a document

From the tokens of a document back to a tree of nodes. `valueEvents` and `valueNode` are the events
and the node that a tree should become. Each step is one machine that leaves what follows a value
alone, so both inductions carry arbitrary tokens, or events, behind the value.

The machine that makes events decides by the token in front of it who makes the first event of a
node; `ReadsNode` therefore speaks of whatever state makes the step of a node.

Main results:

* `events_document` — the events of a document.
* `document_ofText` — its node, and that nothing follows.
-/

namespace PodCompiler.Yaml

open Machine

variable {σ : Styling}

/-! ## The events of a tree -/

mutual

/-- The events of a value. -/
def Styling.valueEvents (σ : Styling) : Tree → List Event
  | .list items => .sequenceStart {} :: (σ.itemEvents items ++ [.sequenceEnd])
  | .object fields => .mappingStart {} :: (σ.fieldEvents fields ++ [.mappingEnd])
  | t => (σ.scalarOf t).toList.map fun e => .scalar {} e.1 e.2

/-- The events of items. -/
def Styling.itemEvents (σ : Styling) : List Tree → List Event
  | [] => []
  | item :: rest => σ.valueEvents item ++ σ.itemEvents rest

/-- The events of fields. -/
def Styling.fieldEvents (σ : Styling) : List (String × Tree) → List Event
  | [] => []
  | (key, value) :: rest =>
    .scalar {} (σ.style key) key :: (σ.valueEvents value ++ σ.fieldEvents rest)

end

theorem valueEvents_scalar {t : Tree} {style : Style} {s : String}
    (hScalar : σ.scalarOf t = some (style, s)) : σ.valueEvents t = [.scalar {} style s] := by
  have hEvents : σ.valueEvents t = (σ.scalarOf t).toList.map fun e => .scalar {} e.1 e.2 := by
    cases t with
    | list items => cases hScalar
    | object fields => cases hScalar
    | null => rfl
    | bool value => rfl
    | int value => rfl
    | float value => rfl
    | text value => rfl
  rw [hEvents, hScalar]
  rfl

/-! ## Runs -/

/-- A machine makes certain events, and goes on as another one. -/
def Emits (es : List Event) (m m' : Machine) : Prop :=
  ∀ fuel, run (es.length + fuel) m = es ++ run fuel m'

variable {m m' m'' : Machine} {es es' : List Event}

theorem Emits.trans (hFirst : Emits es m m') (hSecond : Emits es' m' m'') :
    Emits (es ++ es') m m'' := by
  intro fuel
  rw [List.length_append, Nat.add_assoc, hFirst, hSecond, List.append_assoc]

theorem emits_step {e : Event} (hStep : m.step = some (e, m')) (hEnd : e ≠ .streamEnd) :
    Emits [e] m m' := by
  intro fuel
  rw [List.length_singleton, Nat.add_comm, run, hStep]
  cases e with
  | streamEnd => exact absurd rfl hEnd
  | _ => rfl

/-- Only the next step of a machine matters for events that it does make. -/
theorem Emits.congr (hEmits : Emits es m m') (hNil : es ≠ []) {m₀ : Machine}
    (hStep : m₀.step = m.step) : Emits es m₀ m' := by
  obtain ⟨e, rest, rfl⟩ := List.exists_cons_of_ne_nil hNil
  intro fuel
  rw [← hEmits fuel, List.length_cons, Nat.add_right_comm, run, run, hStep]

/-! ## Nodes -/

variable {rest : List Token} {expected : List Expect} {unindented : Bool}

theorem nodeStep_scalar {style : Style} {text : String}
    (hTokens : m.tokens = .scalar style text :: rest) :
    m.nodeStep true unindented expected =
      some (.scalar {} style text, { m with tokens := rest, expected }) := by
  obtain ⟨tokens, before, handles⟩ := m
  obtain rfl : tokens = .scalar style text :: rest := hTokens
  cases unindented with
  | true => rfl
  | false => rfl

/-- The tokens that open a collection, with its first event and what is expected then. -/
def openings : List (Token × Event × Expect) :=
  [(.flowSequence, .sequenceStart {}, .flowItem true),
    (.flowMapping, .mappingStart {}, .flowKey true),
    (.blockSequence, .sequenceStart {}, .blockItem true),
    (.blockMapping, .mappingStart {}, .blockKey true)]

theorem nodeStep_opening {t : Token} {e : Event} {expect : Expect}
    (hOpening : (t, e, expect) ∈ openings) (hTokens : m.tokens = t :: rest) :
    m.nodeStep true unindented expected = some (e, { m with expected := expect :: expected }) := by
  obtain ⟨tokens, before, handles⟩ := m
  obtain rfl : tokens = t :: rest := hTokens
  have hEntries : (t = .flowSequence ∧ e = .sequenceStart {} ∧ expect = .flowItem true) ∨
      (t = .flowMapping ∧ e = .mappingStart {} ∧ expect = .flowKey true) ∨
      (t = .blockSequence ∧ e = .sequenceStart {} ∧ expect = .blockItem true) ∨
      (t = .blockMapping ∧ e = .mappingStart {} ∧ expect = .blockKey true) := by
    simpa [openings] using hOpening
  rcases hEntries with ⟨rfl, rfl, rfl⟩ | ⟨rfl, rfl, rfl⟩ | ⟨rfl, rfl, rfl⟩ | ⟨rfl, rfl, rfl⟩
  all_goals
    cases unindented with
    | true => rfl
    | false => rfl

/-- Items at the column of their field open the sequence themselves. -/
theorem nodeStep_item (hTokens : m.tokens = .item :: rest) :
    m.nodeStep true true expected =
      some (.sequenceStart {}, { m with expected := .unindentedItem :: expected }) := by
  obtain ⟨tokens, before, handles⟩ := m
  obtain rfl : tokens = .item :: rest := hTokens
  rfl

/-- A node is read as the events of a tree by whatever makes the step of a node. Behind a sequence
at the column of its field there must be something that ends it. -/
def ReadsNode (σ : Styling) (t : Tree) : Prop :=
  ∀ {m₀ m : Machine} {unindented allowed : Bool} {expected : List Expect} {rest : List Token},
    m.tokens = σ.valueTokens unindented t ++ rest →
    (unindented = true → allowed = true ∧ ∃ next more, rest = next :: more ∧ next ≠ .item) →
    m₀.step = m.nodeStep true allowed expected →
    Emits (σ.valueEvents t) m₀ { m with tokens := rest, expected }

/-- The first token of a value: nothing that would stand for a missing one. -/
theorem exists_valueTokens {t : Tree} (hExact : t.isExact = true) (unindented : Bool) :
    ∃ first more, σ.valueTokens unindented t = first :: more ∧ first ≠ .key ∧ first ≠ .value ∧
      first ≠ .blockEnd ∧ (unindented = false → first ≠ .item) := by
  cases t with
  | null => exact ⟨_, [], rfl, by simp⟩
  | bool value => exact ⟨_, [], rfl, by simp⟩
  | int value => exact ⟨_, [], rfl, by simp⟩
  | text value => exact ⟨_, [], rfl, by simp⟩
  | float value => cases hExact
  | list items =>
    cases items with
    | nil => exact ⟨_, _, rfl, by simp⟩
    | cons item rest =>
      cases unindented with
      | true => exact ⟨.item, _, rfl, by simp⟩
      | false => exact ⟨.blockSequence, _, rfl, by simp⟩
  | object fields =>
    cases fields with
    | nil => exact ⟨_, _, rfl, by simp⟩
    | cons field rest => exact ⟨.blockMapping, _, rfl, by simp⟩

theorem readsNode_scalar {t : Tree} {style : Style} {s : String}
    (hScalar : σ.scalarOf t = some (style, s)) : ReadsNode σ t := by
  intro m₀ m unindented allowed expected rest hTokens _ hStep
  rw [valueTokens_scalar hScalar] at hTokens
  rw [nodeStep_scalar hTokens] at hStep
  rw [valueEvents_scalar hScalar]
  exact emits_step hStep (by simp)

theorem readsNode_empty : ReadsNode σ (.list []) ∧ ReadsNode σ (.object []) := by
  refine ⟨?_, ?_⟩
  · intro m₀ m unindented allowed expected rest hTokens _ hStep
    obtain ⟨tokens, before, handles⟩ := m
    obtain rfl : tokens = .flowSequence :: .flowSequenceEnd :: rest := hTokens
    have hOpening : (Token.flowSequence, Event.sequenceStart {}, Expect.flowItem true) ∈
        openings := by decide
    rw [nodeStep_opening hOpening rfl] at hStep
    exact (emits_step hStep (by simp)).trans (emits_step (e := .sequenceEnd) rfl (by simp))
  · intro m₀ m unindented allowed expected rest hTokens _ hStep
    obtain ⟨tokens, before, handles⟩ := m
    obtain rfl : tokens = .flowMapping :: .flowMappingEnd :: rest := hTokens
    have hOpening : (Token.flowMapping, Event.mappingStart {}, Expect.flowKey true) ∈ openings := by
      decide
    rw [nodeStep_opening hOpening rfl] at hStep
    exact (emits_step hStep (by simp)).trans (emits_step (e := .mappingEnd) rfl (by simp))

/-! ## Items -/

/-- Items, up to the end of their sequence. How an item starts and how the sequence ends depends on
whether it stands at the column of a field; what lies between does not. -/
theorem emits_items {items : List Tree} (hExact : ∀ t ∈ items, t.isExact = true)
    (hItems : ∀ t ∈ items, ReadsNode σ t) {expect : Expect} {expected : List Expect}
    {handles : Handles} {last rest : List Token}
    (hItem : ∀ first more, first ≠ .item → first ≠ .key → first ≠ .value → first ≠ .blockEnd →
      step { tokens := .item :: first :: more, expected := expect :: expected, handles } =
        nodeStep true false (expect :: expected)
          { tokens := first :: more, expected := expect :: expected, handles })
    (hLast : step { tokens := last, expected := expect :: expected, handles } =
      some (.sequenceEnd, { tokens := rest, expected, handles })) :
    Emits (σ.itemEvents items ++ [.sequenceEnd])
      { tokens := σ.itemTokens items ++ last, expected := expect :: expected, handles }
      { tokens := rest, expected, handles } := by
  induction items with
  | nil => exact emits_step hLast (by simp)
  | cons item more ih =>
    obtain ⟨first, others, hFirst, hKey, hValue, hEnd, hMark⟩ :=
      exists_valueTokens (hExact item List.mem_cons_self) false
    have hMore := ih (fun t ht => hExact t (List.mem_cons_of_mem item ht))
      fun t ht => hItems t (List.mem_cons_of_mem item ht)
    -- the mark of the item is passed, and the item makes the first event
    have hStep := hItem first (others ++ (σ.itemTokens more ++ last)) (hMark rfl) hKey hValue hEnd
    have hTokens : σ.itemTokens (item :: more) ++ last =
        .item :: first :: (others ++ (σ.itemTokens more ++ last)) := by
      rw [Styling.itemTokens, hFirst]
      simp
    have hOwn : first :: (others ++ (σ.itemTokens more ++ last)) =
        σ.valueTokens false item ++ (σ.itemTokens more ++ last) := by
      rw [hFirst]
      rfl
    have hNode := hItems item List.mem_cons_self hOwn (by simp) hStep
    rw [Styling.itemEvents, hTokens, List.append_assoc]
    exact hNode.trans hMore

/-- The mark of a collection and the first member are passed in one step. -/
theorem step_first (tokens : List Token) (expected : List Expect) (handles : Handles) :
    step { tokens := .blockSequence :: tokens, expected := .blockItem true :: expected, handles } =
        step { tokens, expected := .blockItem false :: expected, handles } ∧
      step { tokens := .blockMapping :: tokens, expected := .blockKey true :: expected, handles } =
        step { tokens, expected := .blockKey false :: expected, handles } :=
  ⟨rfl, rfl⟩

theorem emits_indentedItems {items : List Tree} (hExact : ∀ t ∈ items, t.isExact = true)
    (hItems : ∀ t ∈ items, ReadsNode σ t) (expected : List Expect) (handles : Handles)
    (rest : List Token) :
    Emits (σ.itemEvents items ++ [.sequenceEnd])
      { tokens := σ.itemTokens items ++ .blockEnd :: rest, expected := .blockItem false :: expected,
        handles }
      { tokens := rest, expected, handles } := by
  refine emits_items hExact hItems ?_ rfl
  intro first others hItem hKey hValue hEnd
  show (if _ then _ else _) = _
  rw [if_neg (by simp [hItem, hEnd])]
  rfl

/-- Items at the column of a field end where something else begins. -/
theorem emits_unindentedItems {items : List Tree} (hExact : ∀ t ∈ items, t.isExact = true)
    (hItems : ∀ t ∈ items, ReadsNode σ t) (expected : List Expect) (handles : Handles)
    {next : Token} (hNext : next ≠ .item) (others : List Token) :
    Emits (σ.itemEvents items ++ [.sequenceEnd])
      { tokens := σ.itemTokens items ++ next :: others, expected := .unindentedItem :: expected,
        handles }
      { tokens := next :: others, expected, handles } := by
  refine emits_items hExact hItems ?_ ?_
  · intro first others hItem hKey hValue hEnd
    show (if _ then _ else _) = _
    rw [if_neg (by simp [hItem, hKey, hValue, hEnd])]
    rfl
  · cases next with
    | item => exact absurd rfl hNext
    | _ => rfl

theorem readsNode_list {item : Tree} {more : List Tree}
    (hExact : ∀ t ∈ item :: more, t.isExact = true) (hItems : ∀ t ∈ item :: more, ReadsNode σ t) :
    ReadsNode σ (.list (item :: more)) := by
  intro m₀ m unindented allowed expected rest hTokens hRest hStep
  obtain ⟨tokens, before, handles⟩ := m
  rw [valueTokens_list] at hTokens
  show Emits ([.sequenceStart {}] ++ (σ.itemEvents (item :: more) ++ [.sequenceEnd])) _ _
  cases unindented with
  | true =>
    obtain ⟨rfl, next, others, rfl, hNext⟩ := hRest rfl
    obtain rfl : tokens = σ.itemTokens (item :: more) ++ next :: others := hTokens
    rw [nodeStep_item rfl] at hStep
    exact (emits_step hStep (by simp)).trans
      (emits_unindentedItems hExact hItems expected handles hNext others)
  | false =>
    obtain rfl : tokens = .blockSequence :: (σ.itemTokens (item :: more) ++ .blockEnd :: rest) := by
      simpa using hTokens
    have hOpening : (Token.blockSequence, Event.sequenceStart {}, Expect.blockItem true) ∈
        openings := by decide
    rw [nodeStep_opening hOpening rfl] at hStep
    exact (emits_step hStep (by simp)).trans
      ((emits_indentedItems hExact hItems expected handles rest).congr (by simp)
        (step_first _ expected handles).1)

/-! ## Fields -/

/-- A field: its name, and its value, behind which something comes that is no item. -/
theorem emits_field (key : String) {value : Tree} (hExact : value.isExact = true)
    (hValue : ReadsNode σ value) (expected : List Expect) (handles : Handles) {after : List Token}
    (hAfter : ∃ next others, after = next :: others ∧ next ≠ .item) :
    Emits (.scalar {} (σ.style key) key :: σ.valueEvents value)
      { tokens := σ.fieldTokens [(key, value)] ++ after, expected := .blockKey false :: expected,
        handles }
      { tokens := after, expected := .blockKey false :: expected, handles } := by
  have hTokens : σ.fieldTokens [(key, value)] ++ after =
      .key :: .scalar (σ.style key) key :: .value ::
        (σ.valueTokens (isSimpleKey key) value ++ after) := by
    simp [Styling.fieldTokens]
  have hName : Emits [.scalar {} (σ.style key) key]
      { tokens := σ.fieldTokens [(key, value)] ++ after, expected := .blockKey false :: expected,
        handles }
      { tokens := .value :: (σ.valueTokens (isSimpleKey key) value ++ after),
        expected := .blockValue :: expected, handles } := by
    rw [hTokens]
    exact emits_step rfl (by simp)
  have hStep : step
      { tokens := .value :: (σ.valueTokens (isSimpleKey key) value ++ after),
        expected := .blockValue :: expected, handles } =
      nodeStep true true (.blockKey false :: expected)
        { tokens := σ.valueTokens (isSimpleKey key) value ++ after,
          expected := .blockValue :: expected, handles } := by
    obtain ⟨first, others, hFirst, hKey, hMark, hEnd, -⟩ :=
      exists_valueTokens hExact (isSimpleKey key)
    rw [hFirst]
    show (if _ then _ else _) = _
    rw [if_neg (by simp [hKey, hMark, hEnd])]
    rfl
  exact hName.trans (hValue rfl (fun _ => ⟨rfl, hAfter⟩) hStep)

theorem emits_fields {fields : List (String × Tree)} (hExact : ∀ e ∈ fields, e.2.isExact = true)
    (hFields : ∀ e ∈ fields, ReadsNode σ e.2) (expected : List Expect) (handles : Handles)
    (rest : List Token) :
    Emits (σ.fieldEvents fields ++ [.mappingEnd])
      { tokens := σ.fieldTokens fields ++ .blockEnd :: rest
        expected := .blockKey false :: expected, handles }
      { tokens := rest, expected, handles } := by
  induction fields with
  | nil => exact emits_step (e := .mappingEnd) rfl (by simp)
  | cons field more ih =>
    obtain ⟨key, value⟩ := field
    -- whatever comes behind the field, it does not go on with an item
    have hAfter : ∃ next others, σ.fieldTokens more ++ .blockEnd :: rest = next :: others ∧
        next ≠ .item := by
      cases more with
      | nil => exact ⟨_, _, rfl, by simp⟩
      | cons field more => exact ⟨.key, _, rfl, by simp⟩
    have hField := emits_field key (hExact (key, value) List.mem_cons_self)
      (hFields (key, value) List.mem_cons_self) expected handles hAfter
    have hMore := ih (fun e he => hExact e (List.mem_cons_of_mem _ he))
      fun e he => hFields e (List.mem_cons_of_mem _ he)
    rw [fieldTokens_cons, List.append_assoc]
    simpa [Styling.fieldEvents] using hField.trans hMore

theorem readsNode_object {field : String × Tree} {more : List (String × Tree)}
    (hExact : ∀ e ∈ field :: more, e.2.isExact = true)
    (hFields : ∀ e ∈ field :: more, ReadsNode σ e.2) : ReadsNode σ (.object (field :: more)) := by
  intro m₀ m unindented allowed expected rest hTokens _ hStep
  obtain ⟨tokens, before, handles⟩ := m
  rw [valueTokens_object] at hTokens
  obtain rfl : tokens = .blockMapping :: (σ.fieldTokens (field :: more) ++ .blockEnd :: rest) := by
    simpa using hTokens
  have hOpening : (Token.blockMapping, Event.mappingStart {}, Expect.blockKey true) ∈ openings := by
    decide
  rw [nodeStep_opening hOpening rfl] at hStep
  show Emits ([.mappingStart {}] ++ (σ.fieldEvents (field :: more) ++ [.mappingEnd])) _ _
  exact (emits_step hStep (by simp)).trans
    ((emits_fields hExact hFields expected handles rest).congr (by simp)
      (step_first _ expected handles).2)

theorem readsNode_of_isExact (t : Tree) (hExact : t.isExact = true) : ReadsNode σ t := by
  induction t, hExact using Tree.exact_induction σ with
  | scalar hExact hScalar => exact readsNode_scalar hScalar
  | list items hExact hItems ih =>
    cases items with
    | nil => exact readsNode_empty.1
    | cons item rest => exact readsNode_list hItems ih
  | object fields hExact hNames hFields ih =>
    cases fields with
    | nil => exact readsNode_empty.2
    | cons field rest => exact readsNode_object hFields ih

/-! ## All events -/

theorem length_itemEvents {items : List Tree}
    (hItems : ∀ t ∈ items, (σ.valueEvents t).length ≤ 3 * (σ.valueTokens false t).length) :
    (σ.itemEvents items).length + 2 * items.length ≤ 3 * (σ.itemTokens items).length := by
  induction items with
  | nil => simp [Styling.itemEvents, Styling.itemTokens]
  | cons item rest ih =>
    have hItem := hItems item List.mem_cons_self
    have hRest := ih fun t ht => hItems t (List.mem_cons_of_mem item ht)
    simp only [Styling.itemEvents, Styling.itemTokens, List.length_append, List.length_cons]
    omega

theorem length_fieldEvents {fields : List (String × Tree)}
    (hFields : ∀ e ∈ fields, ∀ unindented,
      (σ.valueEvents e.2).length ≤ 3 * (σ.valueTokens unindented e.2).length) :
    (σ.fieldEvents fields).length + 2 * fields.length ≤ 3 * (σ.fieldTokens fields).length := by
  induction fields with
  | nil => simp [Styling.fieldEvents, Styling.fieldTokens]
  | cons field rest ih =>
    obtain ⟨key, value⟩ := field
    have hField := hFields (key, value) List.mem_cons_self (isSimpleKey key)
    have hRest := ih fun e he => hFields e (List.mem_cons_of_mem _ he)
    simp only [Styling.fieldEvents, Styling.fieldTokens, List.length_append,
      List.length_cons] at hField ⊢
    omega

/-- The events of a tree are few for the tokens that it has. -/
theorem length_valueEvents (t : Tree) (unindented : Bool) :
    (σ.valueEvents t).length ≤ 3 * (σ.valueTokens unindented t).length := by
  induction t using Tree.induction generalizing unindented with
  | null => simp [Styling.valueEvents, Styling.valueTokens, Styling.scalarOf]
  | bool value => simp [Styling.valueEvents, Styling.valueTokens, Styling.scalarOf]
  | int value => simp [Styling.valueEvents, Styling.valueTokens, Styling.scalarOf]
  | text value => simp [Styling.valueEvents, Styling.valueTokens, Styling.scalarOf]
  | float value => simp [Styling.valueEvents, Styling.valueTokens, Styling.scalarOf]
  | list items ih =>
    have hItems := length_itemEvents fun t ht => ih t ht false
    cases items with
    | nil => simp [Styling.valueEvents, Styling.valueTokens, Styling.itemEvents]
    | cons item rest =>
      rw [valueTokens_list, Styling.valueEvents]
      rw [List.length_cons] at hItems
      cases unindented with
      | true =>
        simp only [if_true, List.length_cons, List.length_append, List.length_nil]
        omega
      | false =>
        simp only [Bool.false_eq_true, if_false, List.length_cons, List.length_append,
          List.length_nil]
        omega
  | object fields ih =>
    have hFields := length_fieldEvents fun e he unindented => ih e he unindented
    cases fields with
    | nil => simp [Styling.valueEvents, Styling.valueTokens, Styling.fieldEvents]
    | cons field rest =>
      rw [valueTokens_object, Styling.valueEvents]
      rw [List.length_cons] at hFields
      simp only [List.length_cons, List.length_append, List.length_nil]
      omega

theorem emits_document {t : Tree} (hManifest : t.IsManifest) :
    Emits (.documentStart :: (σ.valueEvents t ++ [.documentEnd]))
      { tokens := σ.valueTokens false t ++ [.streamEnd], expected := [.document true]
        handles := standardHandles }
      { tokens := [.streamEnd], expected := [.document false], handles := standardHandles } := by
  have hNode : ReadsNode σ t := readsNode_of_isExact t hManifest.exact
  obtain ⟨-, field, rest, rfl⟩ := hManifest
  -- no directive and no marker stand before the mapping, so that the document is implicit
  have hStart : Emits [.documentStart]
      { tokens := σ.valueTokens false (.object (field :: rest)) ++ [.streamEnd]
        expected := [.document true], handles := standardHandles }
      { tokens := σ.valueTokens false (.object (field :: rest)) ++ [.streamEnd]
        expected := [.blockNode false, .documentEnd], handles := standardHandles } :=
    emits_step rfl (by simp)
  have hStep : step
      { tokens := σ.valueTokens false (.object (field :: rest)) ++ [.streamEnd]
        expected := [.blockNode false, .documentEnd], handles := standardHandles } =
      nodeStep true false [.documentEnd]
        { tokens := σ.valueTokens false (.object (field :: rest)) ++ [.streamEnd]
          expected := [.blockNode false, .documentEnd], handles := standardHandles } := rfl
  have hEnd : Emits [.documentEnd]
      { tokens := [.streamEnd], expected := [.documentEnd], handles := standardHandles }
      { tokens := [.streamEnd], expected := [.document false], handles := standardHandles } :=
    emits_step rfl (by simp)
  exact hStart.trans ((hNode rfl (by simp) hStep).trans hEnd)

/-- **The events of a document** are those of its tree. -/
theorem events_document {t : Tree} (hManifest : t.IsManifest) :
    Event.ofTokens (σ.valueTokens false t ++ [.streamEnd]) =
      .documentStart :: (σ.valueEvents t ++ [.documentEnd, .streamEnd]) := by
  have hLength : (σ.valueEvents t).length ≤ 3 * (σ.valueTokens false t).length :=
    length_valueEvents t false
  -- what is left of the fuel is enough for the end of the stream
  obtain ⟨fuel, hFuel⟩ : ∃ fuel, 4 * (σ.valueTokens false t ++ [Token.streamEnd]).length + 8 =
      (Event.documentStart :: (σ.valueEvents t ++ [.documentEnd])).length + (fuel + 1) := by
    refine ⟨4 * ((σ.valueTokens false t).length + 1) + 8 - ((σ.valueEvents t).length + 3), ?_⟩
    simp only [List.length_append, List.length_cons, List.length_nil]
    omega
  rw [Event.ofTokens, hFuel, emits_document hManifest (fuel + 1)]
  simp [run, step, documentStep]

/-! ## Nodes -/

mutual

/-- The node of a value. -/
def Styling.valueNode (σ : Styling) : Tree → Node
  | .list items => .sequence none (σ.itemNodes items)
  | .object fields => .mapping none (σ.fieldNodes fields)
  | t => ((σ.scalarOf t).map fun e => Node.scalar none e.1 e.2).getD .void

/-- The nodes of items. -/
def Styling.itemNodes (σ : Styling) : List Tree → List Node
  | [] => []
  | item :: rest => σ.valueNode item :: σ.itemNodes rest

/-- The nodes of fields. -/
def Styling.fieldNodes (σ : Styling) : List (String × Tree) → List (Node × Node)
  | [] => []
  | (key, value) :: rest => (.scalar none (σ.style key) key, σ.valueNode value) :: σ.fieldNodes rest

end

theorem valueNode_scalar {t : Tree} {style : Style} {s : String}
    (hScalar : σ.scalarOf t = some (style, s)) : σ.valueNode t = .scalar none style s := by
  have hNode : σ.valueNode t =
      ((σ.scalarOf t).map fun e => Node.scalar none e.1 e.2).getD .void := by
    cases t with
    | list items => cases hScalar
    | object fields => cases hScalar
    | null => rfl
    | bool value => rfl
    | int value => rfl
    | float value => rfl
    | text value => rfl
  rw [hNode, hScalar]
  rfl

/-- From the events of a tree its node is built, whatever surrounds it. -/
def Builds (σ : Styling) (t : Tree) : Prop :=
  ∀ (rest : List Event) (b : Builder), Builder.build (σ.valueEvents t ++ rest) b =
    ({ b with size := b.size + (σ.valueEvents t).length } : Builder).proceed (σ.valueNode t) rest
      (Builder.build rest)

theorem build_items {items : List Tree} (hItems : ∀ t ∈ items, Builds σ t) (rest : List Event)
    (b : Builder) (frames : List Frame) (done : List Node)
    (hFrames : b.frames = { place := none, collection := .sequence none done } :: frames) :
    Builder.build (σ.itemEvents items ++ rest) b =
      Builder.build rest
        { b with
          frames :=
            { place := none, collection := .sequence none (done ++ σ.itemNodes items) } :: frames
          size := b.size + (σ.itemEvents items).length } := by
  induction items generalizing b done with
  | nil =>
    obtain ⟨bFrames, names, anchored, places, size⟩ := b
    obtain rfl := hFrames
    simp [Styling.itemEvents, Styling.itemNodes]
  | cons item more ih =>
    obtain ⟨bFrames, names, anchored, places, size⟩ := b
    obtain rfl := hFrames
    rw [Styling.itemEvents, List.append_assoc, hItems item List.mem_cons_self]
    simp only [Builder.proceed, Builder.add, Builder.Open.add]
    rw [ih (fun t ht => hItems t (List.mem_cons_of_mem item ht)) _ _ rfl]
    simp [Styling.itemNodes, Nat.add_assoc]

/-- The node of a field's value is added behind that of its key. -/
theorem build_field (key : String) {value : Tree} (hValue : Builds σ value) (rest : List Event)
    (b : Builder) (frames : List Frame) (done : List (Node × Node))
    (hFrames : b.frames = { place := none, collection := .mapping none done none } :: frames) :
    Builder.build (.scalar {} (σ.style key) key :: (σ.valueEvents value ++ rest)) b =
      Builder.build rest
        { b with
          frames :=
            { place := none
              collection := .mapping none
                (done ++ [(.scalar none (σ.style key) key, σ.valueNode value)]) none } :: frames
          size := b.size + 1 + (σ.valueEvents value).length } := by
  obtain ⟨bFrames, names, anchored, places, size⟩ := b
  obtain rfl := hFrames
  have hKey : Builder.build (.scalar {} (σ.style key) key :: (σ.valueEvents value ++ rest))
      { frames := { place := none, collection := .mapping none done none } :: frames, names,
        anchored, places, size } =
      Builder.build (σ.valueEvents value ++ rest)
        { frames :=
            { place := none
              collection := .mapping none done (some (.scalar none (σ.style key) key)) } :: frames
          names, anchored, places, size := size + 1 } := rfl
  rw [hKey, hValue]
  rfl

theorem build_fields {fields : List (String × Tree)} (hFields : ∀ e ∈ fields, Builds σ e.2)
    (rest : List Event) (b : Builder) (frames : List Frame) (done : List (Node × Node))
    (hFrames : b.frames = { place := none, collection := .mapping none done none } :: frames) :
    Builder.build (σ.fieldEvents fields ++ rest) b =
      Builder.build rest
        { b with
          frames :=
            { place := none
              collection := .mapping none (done ++ σ.fieldNodes fields) none } :: frames
          size := b.size + (σ.fieldEvents fields).length } := by
  induction fields generalizing b done with
  | nil =>
    obtain ⟨bFrames, names, anchored, places, size⟩ := b
    obtain rfl := hFrames
    simp [Styling.fieldEvents, Styling.fieldNodes]
  | cons field more ih =>
    obtain ⟨key, value⟩ := field
    have hField := build_field key (hFields (key, value) List.mem_cons_self)
      (σ.fieldEvents more ++ rest) b frames done hFrames
    rw [Styling.fieldEvents, List.cons_append, List.append_assoc, hField,
      ih (fun e he => hFields e (List.mem_cons_of_mem _ he)) _ _ rfl]
    simp [Styling.fieldNodes, Nat.add_comm, Nat.add_left_comm, Nat.add_assoc]

theorem builds_scalar {t : Tree} {style : Style} {s : String}
    (hScalar : σ.scalarOf t = some (style, s)) : Builds σ t := by
  intro rest b
  rw [valueEvents_scalar hScalar, valueNode_scalar hScalar]
  rfl

theorem builds_list {items : List Tree} (hItems : ∀ t ∈ items, Builds σ t) :
    Builds σ (.list items) := by
  intro rest b
  have hStart : Builder.build (σ.valueEvents (.list items) ++ rest) b =
      Builder.build (σ.itemEvents items ++ .sequenceEnd :: rest)
        { b with
          frames := { place := none, collection := .sequence none [] } :: b.frames
          size := b.size + 1 } := by
    rw [Styling.valueEvents, List.cons_append, List.append_assoc]
    rfl
  rw [hStart, build_items hItems _ _ b.frames [] rfl, List.nil_append]
  -- the events of the sequence are its items and the two around them
  have hLength : b.size + (σ.valueEvents (.list items)).length =
      b.size + 1 + (σ.itemEvents items).length + 1 := by
    simp only [Styling.valueEvents, List.length_cons, List.length_append, List.length_nil]
    omega
  rw [hLength]
  rfl

theorem builds_object {fields : List (String × Tree)} (hFields : ∀ e ∈ fields, Builds σ e.2) :
    Builds σ (.object fields) := by
  intro rest b
  have hStart : Builder.build (σ.valueEvents (.object fields) ++ rest) b =
      Builder.build (σ.fieldEvents fields ++ .mappingEnd :: rest)
        { b with
          frames := { place := none, collection := .mapping none [] none } :: b.frames
          size := b.size + 1 } := by
    rw [Styling.valueEvents, List.cons_append, List.append_assoc]
    rfl
  rw [hStart, build_fields hFields _ _ b.frames [] rfl, List.nil_append]
  have hLength : b.size + (σ.valueEvents (.object fields)).length =
      b.size + 1 + (σ.fieldEvents fields).length + 1 := by
    simp only [Styling.valueEvents, List.length_cons, List.length_append, List.length_nil]
    omega
  rw [hLength]
  rfl

theorem builds_of_isExact (t : Tree) (hExact : t.isExact = true) : Builds σ t := by
  induction t, hExact using Tree.exact_induction σ with
  | scalar hExact hScalar => exact builds_scalar hScalar
  | list items hExact hItems ih => exact builds_list ih
  | object fields hExact hNames hFields ih => exact builds_object ih

/-- **The node of a document** is that of its tree; there are no references in it, and nothing
follows it. -/
theorem document_ofText {t : Tree} (hManifest : t.IsManifest) :
    Document.ofText (σ.document t) =
      { root := σ.valueNode t, anchored := [], places := [], size := (σ.valueEvents t).length
        complete := true } := by
  have hBuilds : Builds σ t := builds_of_isExact t hManifest.exact
  rw [Document.ofText, scan_document hManifest, events_document hManifest]
  show Builder.build _ _ = _
  rw [hBuilds [.documentEnd, .streamEnd] .start]
  simp [Builder.proceed, Builder.add, Builder.start, Builder.finish, Builder.isComplete]

end PodCompiler.Yaml
