import PodCompiler.Proofs.TokenSteps
import PodCompiler.Proofs.WholeLines

/-!
# PodCompiler — the tokens of a document

`valueTokens` are the tokens that a tree should be read as, and `scan_document` says that its
document is: the induction follows the writer, value by value, and what a value leaves behind is
always the start of a line that is not moved in further than the value's own level.

A list that is the value of a field stands at the column of the field. Nothing opens it, so its
items are the only tokens it has.

Main results:

* `scans_of_isExact` — every value is read as its tokens, behind an item's mark or a field's colon.
* `scan_document` — the tokens of a document.
-/

namespace PodCompiler.Yaml

open Scanner

variable {σ : Styling}

/-! ## The tokens of a tree -/

mutual

/-- The tokens of a value; `unindented` is whether a list stands at the column of its field. -/
def Styling.valueTokens (σ : Styling) (unindented : Bool) : Tree → List Token
  | .list [] => [.flowSequence, .flowSequenceEnd]
  | .list items =>
    if unindented then σ.itemTokens items else .blockSequence :: (σ.itemTokens items ++ [.blockEnd])
  | .object [] => [.flowMapping, .flowMappingEnd]
  | .object fields => .blockMapping :: (σ.fieldTokens fields ++ [.blockEnd])
  | t => (σ.scalarOf t).toList.map fun e => .scalar e.1 e.2

/-- The tokens of items. -/
def Styling.itemTokens (σ : Styling) : List Tree → List Token
  | [] => []
  | item :: rest => .item :: (σ.valueTokens false item ++ σ.itemTokens rest)

/-- The tokens of fields. A list below a key on lines of its own is moved in. -/
def Styling.fieldTokens (σ : Styling) : List (String × Tree) → List Token
  | [] => []
  | (key, value) :: rest =>
    .key :: .scalar (σ.style key) key :: .value ::
      (σ.valueTokens (isSimpleKey key) value ++ σ.fieldTokens rest)

end

theorem valueTokens_scalar {t : Tree} {style : Style} {s : String}
    (hScalar : σ.scalarOf t = some (style, s)) (unindented : Bool) :
    σ.valueTokens unindented t = [.scalar style s] := by
  have hTokens : σ.valueTokens unindented t =
      (σ.scalarOf t).toList.map fun e => .scalar e.1 e.2 := by
    cases t with
    | list items => cases hScalar
    | object fields => cases hScalar
    | null => rfl
    | bool value => rfl
    | int value => rfl
    | float value => rfl
    | text value => rfl
  rw [hTokens, hScalar]
  rfl

theorem valueTokens_list (unindented : Bool) (item : Tree) (rest : List Tree) :
    σ.valueTokens unindented (.list (item :: rest)) =
      if unindented then σ.itemTokens (item :: rest)
      else .blockSequence :: (σ.itemTokens (item :: rest) ++ [.blockEnd]) :=
  rfl

theorem valueTokens_object (unindented : Bool) (field : String × Tree)
    (rest : List (String × Tree)) :
    σ.valueTokens unindented (.object (field :: rest)) =
      .blockMapping :: (σ.fieldTokens (field :: rest) ++ [.blockEnd]) :=
  rfl

/-! ## Lines -/

variable {nest : Nest} {ts : List Token} {m : Mark} {n : Nat} {tail : List Char}

theorem reaches_spaces {k line : Nat} {rest : List Char}
    (hRest : Reaches ts (nest.scanner rest ((Mark.lineStart line).step k) true none)) :
    Reaches ts (nest.fresh (spaces k ++ rest) line) :=
  reaches_of_arrive (arrive_congr (passBlanks_spaces k rest (.lineStart line) true)) hRest

theorem exists_itemValue (indent : Nat) (t : Tree) :
    ∃ rest, itemValue σ.style indent t = ' ' :: rest := by
  cases t with
  | null => exact ⟨_, rfl⟩
  | bool value => exact ⟨_, rfl⟩
  | int value => exact ⟨_, rfl⟩
  | float value => exact ⟨_, rfl⟩
  | text value => exact ⟨_, rfl⟩
  | list items =>
    cases items with
    | nil => exact ⟨_, rfl⟩
    | cons item rest => exact ⟨_, rfl⟩
  | object fields =>
    cases fields with
    | nil => exact ⟨_, rfl⟩
    | cons field rest => exact ⟨_, rfl⟩

/-- A blank or a line break stands behind the colon of a field. -/
theorem atBlank_fieldValue (indent : Nat) (t : Tree) (rest : List Char) :
    atBlank (fieldValue σ.style indent t ++ rest) = true := by
  cases t with
  | null => rfl
  | bool value => rfl
  | int value => rfl
  | float value => rfl
  | text value => rfl
  | list items =>
    cases items with
    | nil => rfl
    | cons item rest => rfl
  | object fields =>
    cases fields with
    | nil => rfl
    | cons field rest => rfl

theorem itemLines_before (before : List Char) (indent : Nat) (item : Tree) (rest : List Tree) :
    itemLines σ.style before indent (item :: rest) = before ++ itemLines σ.style [] indent (item :: rest) :=
  rfl

theorem fieldLines_before (before : List Char) (indent : Nat) (field : String × Tree)
    (rest : List (String × Tree)) :
    fieldLines σ.style before indent (field :: rest) =
      before ++ fieldLines σ.style [] indent (field :: rest) := by
  rw [fieldLines_cons before, fieldLines_cons [] indent field rest, List.nil_append]

/-! ## Values -/

/-- A value is read as its tokens: behind the mark of an item, and behind the colon of a field. -/
structure Scans (σ : Styling) (t : Tree) : Prop where
  item {nest : Nest} {ts : List Token} {m : Mark} {n : Nat} {tail : List Char}
    (hColumn : nest.column = n) (hMark : m.column = n + 1) (hTail : Tail n tail)
    (hRest : ∀ line, Reaches ts ((nest.add (σ.valueTokens false t)).fresh tail line)) :
    Reaches ts (nest.scanner (itemValue σ.style n t ++ tail) m true none)
  field {nest : Nest} {ts : List Token} {m : Mark} {n : Nat} {tail : List Char}
    (hColumn : nest.column = n) (hMark : n < m.column) (hTail : Tail n tail)
    (hRest : ∀ line, Reaches ts ((nest.add (σ.valueTokens true t)).fresh tail line)) :
    Reaches ts (nest.scanner (fieldValue σ.style n t ++ tail) m false none)

theorem scans_scalar {t : Tree} {style : Style} {s : String}
    (hScalar : σ.scalarOf t = some (style, s)) : Scans σ t := by
  have hFits := fits_scalarOf hScalar
  have hName : String.ofList s.toList = s := String.ofList_toList
  refine ⟨?_, ?_⟩
  · intro _ _ m n tail hColumn hMark hTail hRest
    have hIn : n < (m.step 1).column := by simp only [Mark.step]; omega
    rw [valueTokens_scalar hScalar, ← hName] at hRest
    rw [(value_scalar hScalar n).1]
    exact reaches_blank (reaches_scalar hColumn hFits hIn true hTail hRest)
  · intro _ _ m n tail hColumn hMark hTail hRest
    have hIn : n < (m.step 1).column := Nat.lt_succ_of_lt hMark
    rw [valueTokens_scalar hScalar, ← hName] at hRest
    rw [(value_scalar hScalar n).2]
    exact reaches_blank (reaches_scalar hColumn hFits hIn false hTail hRest)

theorem scans_empty : Scans σ (.list []) ∧ Scans σ (.object []) := by
  have hBlank : ∀ {m : Mark} {n : Nat}, n < m.column → n < (m.step 1).column :=
    fun hMark => Nat.lt_succ_of_lt hMark
  have hList : ('[', ']', Token.flowSequence, Token.flowSequenceEnd) ∈ brackets := by decide
  have hObject : ('\x7b', '\x7d', Token.flowMapping, Token.flowMappingEnd) ∈ brackets := by decide
  refine ⟨⟨?_, ?_⟩, ⟨?_, ?_⟩⟩
  · intro _ _ m n tail hColumn hMark hTail hRest
    exact reaches_blank (reaches_empty hList hColumn (hBlank (by omega)) true hTail hRest)
  · intro _ _ m n tail hColumn hMark hTail hRest
    exact reaches_blank (reaches_empty hList hColumn (hBlank hMark) false hTail hRest)
  · intro _ _ m n tail hColumn hMark hTail hRest
    exact reaches_blank (reaches_empty hObject hColumn (hBlank (by omega)) true hTail hRest)
  · intro _ _ m n tail hColumn hMark hTail hRest
    exact reaches_blank (reaches_empty hObject hColumn (hBlank hMark) false hTail hRest)

/-- A value behind the mark of an item, or behind a colon on a line of its own. -/
theorem reaches_markValue {c : Char} {opening t : Token} (hMarks : (c, opening, t) ∈ marks)
    {value : Tree} (hValue : Scans σ value) (hColumn : nest.column ≤ n) (hMark : m.column = n)
    (hTail : Tail n tail)
    (hRest : ∀ line, Reaches ts (((nest.opened n opening).add
      (t :: σ.valueTokens false value)).fresh tail line)) :
    Reaches ts (nest.scanner (c :: (itemValue σ.style n value ++ tail)) m true none) := by
  have hInner : ((nest.opened n opening).add [t]).column = n := Nest.column_opened hColumn opening
  have hBehind : Reaches ts (((nest.opened n opening).add [t]).scanner
      (itemValue σ.style n value ++ tail) (m.step 1) true none) := by
    refine hValue.item hInner (congrArg (· + 1) hMark) hTail fun line => ?_
    rw [Nest.add_add]
    exact hRest line
  obtain ⟨rest, hBlank⟩ := exists_itemValue n value
  rw [hBlank] at hBehind ⊢
  refine reaches_mark hMarks (hMark ▸ hColumn) ?_
  rw [hMark]
  exact hBehind

/-! ## Items -/

theorem tail_items (hTail : Tail n tail) (items : List Tree) :
    Tail n (itemLines σ.style (spaces n) n items ++ tail) := by
  cases items with
  | nil => exact hTail
  | cons item rest =>
    rw [itemLines_before, List.append_assoc]
    exact tail_spaces (atToken_cons _ (by decide))

/-- Items from the start of a line on, the sequence being open. -/
theorem reaches_moreItems {items : List Tree} (hItems : ∀ t ∈ items, Scans σ t)
    (hColumn : nest.column = n) (hTail : Tail n tail)
    (hRest : ∀ line, Reaches ts ((nest.add (σ.itemTokens items)).fresh tail line)) (line : Nat) :
    Reaches ts (nest.fresh (itemLines σ.style (spaces n) n items ++ tail) line) := by
  induction items generalizing nest line with
  | nil => simpa [Styling.itemTokens, itemLines, Nest.add] using hRest line
  | cons item rest ih =>
    have hLines : itemLines σ.style (spaces n) n (item :: rest) ++ tail =
        spaces n ++ '-' :: (itemValue σ.style n item ++ (itemLines σ.style (spaces n) n rest ++ tail)) := by
      simp [itemLines]
    have hFirst : ('-', Token.blockSequence, Token.item) ∈ marks := by decide
    have hFurther := Nest.opened_eq hColumn .blockSequence
    have hInner : (nest.add (.item :: σ.valueTokens false item)).column = n := hColumn
    rw [hLines]
    refine reaches_spaces (reaches_markValue hFirst (hItems item List.mem_cons_self) hColumn.le
      (by simp [Mark.lineStart, Mark.step]) (tail_items hTail rest) fun line => ?_)
    rw [hFurther]
    refine ih (fun t ht => hItems t (List.mem_cons_of_mem item ht)) hInner (fun line => ?_) line
    rw [Nest.add_add]
    exact hRest line

theorem reaches_items {item : Tree} {rest : List Tree} (hItems : ∀ t ∈ item :: rest, Scans σ t)
    (hColumn : nest.column ≤ n) (hMark : m.column = n) (hTail : Tail n tail)
    (hRest : ∀ line, Reaches ts
      (((nest.opened n .blockSequence).add (σ.itemTokens (item :: rest))).fresh tail line)) :
    Reaches ts (nest.scanner (itemLines σ.style [] n (item :: rest) ++ tail) m true none) := by
  have hLines : itemLines σ.style [] n (item :: rest) ++ tail =
      '-' :: (itemValue σ.style n item ++ (itemLines σ.style (spaces n) n rest ++ tail)) := by
    simp [itemLines]
  have hFirst : ('-', Token.blockSequence, Token.item) ∈ marks := by decide
  rw [hLines]
  refine reaches_markValue hFirst (hItems item List.mem_cons_self) hColumn hMark
    (tail_items hTail rest) (reaches_moreItems (fun t ht => hItems t (List.mem_cons_of_mem item ht))
      (Nest.column_opened hColumn .blockSequence) hTail fun line => ?_)
  rw [Nest.add_add]
  exact hRest line

/-! ## Fields -/

/-- A key that takes lines of its own, behind a question mark; so does the value behind a colon. -/
theorem reaches_longKey {key : String} {value : Tree} (hValue : Scans σ value)
    (hColumn : nest.column ≤ n) (hMark : m.column = n) (hTail : Tail n tail)
    (hRest : ∀ line, Reaches ts (((nest.opened n .blockMapping).add
      (.key :: .scalar (σ.style key) key :: .value ::
        σ.valueTokens false value)).fresh tail line)) :
    Reaches ts (nest.scanner ('?' :: ' ' ::
      (endLine (inStyle (σ.style key) (n + 2) key.toList) ++
        (spaces n ++ ':' :: (itemValue σ.style n value ++ tail)))) m true none) := by
  have hFirst : ('?', Token.blockMapping, Token.key) ∈ marks := by decide
  have hSecond : (':', Token.blockMapping, Token.value) ∈ marks := by decide
  have hOpened : (nest.opened n .blockMapping).column = n := Nest.column_opened hColumn .blockMapping
  have hName : String.ofList key.toList = key := String.ofList_toList
  refine reaches_mark hFirst (hMark ▸ hColumn) (reaches_blank ?_)
  rw [hMark]
  have hKey : ((nest.opened n .blockMapping).add [.key]).column = n := hOpened
  have hIn : n < ((m.step 1).step 1).column := by
    simp only [Mark.step]
    omega
  have hColon : AtToken (':' :: (itemValue σ.style n value ++ tail)) := atToken_cons _ (by decide)
  refine reaches_scalar hKey (σ.fits key).1 hIn true (tail_spaces hColon) fun line =>
    reaches_spaces ?_
  rw [Nest.add_add, hName]
  have hInner : ((nest.opened n .blockMapping).add
      ([.key] ++ [.scalar (σ.style key) key])).column = n := hOpened
  refine reaches_markValue hSecond hValue hInner.le (by simp [Mark.lineStart, Mark.step]) hTail
    fun line => ?_
  rw [Nest.opened_eq hInner, Nest.add_add]
  exact hRest line

/-- A field from its key on. -/
theorem reaches_field {key : String} {value : Tree} (hValue : Scans σ value)
    (hColumn : nest.column ≤ n) (hMark : m.column = n) (hTail : Tail n tail)
    (hRest : ∀ line, Reaches ts (((nest.opened n .blockMapping).add
      (σ.fieldTokens [(key, value)])).fresh tail line)) :
    Reaches ts (nest.scanner (fieldLines σ.style [] n [(key, value)] ++ tail) m true none) := by
  by_cases hKey : isSimpleKey key = true
  · have hField : fieldLines σ.style [] n [(key, value)] ++ tail =
        inStyle (σ.style key) n key.toList ++ ':' :: (fieldValue σ.style n value ++ tail) := by
      simp [fieldLines, hKey]
    have hInner : ((nest.opened n .blockMapping).add
        [.key, .scalar (σ.style key) key, .value]).column = n :=
      Nest.column_opened hColumn .blockMapping
    rw [hField]
    refine reaches_key hKey (σ.fits key).1 n (atBlank_fieldValue n value tail) (hMark ▸ hColumn)
      fun m' hm' => ?_
    rw [hMark]
    refine hValue.field hInner (hMark ▸ hm') hTail fun line => ?_
    rw [Nest.add_add]
    simpa [Styling.fieldTokens, hKey] using hRest line
  · have hField : fieldLines σ.style [] n [(key, value)] ++ tail =
        '?' :: ' ' :: (endLine (inStyle (σ.style key) (n + 2) key.toList) ++
          (spaces n ++ ':' :: (itemValue σ.style n value ++ tail))) := by
      simp [fieldLines, hKey, scalarLine]
    rw [hField]
    refine reaches_longKey hValue hColumn hMark hTail fun line => ?_
    simpa [Styling.fieldTokens, hKey] using hRest line

theorem fieldTokens_cons (field : String × Tree) (rest : List (String × Tree)) :
    σ.fieldTokens (field :: rest) = σ.fieldTokens [field] ++ σ.fieldTokens rest := by
  simp [Styling.fieldTokens]

theorem atToken_field (key : String) (value : Tree) (indent : Nat) (suffix : List Char) :
    AtToken (fieldLines σ.style [] indent [(key, value)] ++ suffix) := by
  by_cases hKey : isSimpleKey key = true
  · have hStart := atToken_scalar (σ.fits key).1 indent
      (':' :: (fieldValue σ.style indent value ++ suffix))
    simpa [fieldLines, hKey] using hStart
  · have hField : fieldLines σ.style [] indent [(key, value)] ++ suffix =
        '?' :: ' ' :: (endLine (inStyle (σ.style key) (indent + 2) key.toList) ++
          (spaces indent ++ ':' :: (itemValue σ.style indent value ++ suffix))) := by
      simp [fieldLines, hKey, scalarLine]
    rw [hField]
    exact atToken_cons _ (by decide)

theorem tail_fields (hTail : Tail n tail) (fields : List (String × Tree)) :
    Tail n (fieldLines σ.style (spaces n) n fields ++ tail) := by
  cases fields with
  | nil => exact hTail
  | cons field rest =>
    rw [fieldLines_cons, List.append_assoc, List.append_assoc]
    exact tail_spaces (atToken_field field.1 field.2 n _)

/-- Fields from the start of a line on, the mapping being open. -/
theorem reaches_moreFields {fields : List (String × Tree)} (hFields : ∀ e ∈ fields, Scans σ e.2)
    (hColumn : nest.column = n) (hTail : Tail n tail)
    (hRest : ∀ line, Reaches ts ((nest.add (σ.fieldTokens fields)).fresh tail line)) (line : Nat) :
    Reaches ts (nest.fresh (fieldLines σ.style (spaces n) n fields ++ tail) line) := by
  induction fields generalizing nest line with
  | nil => simpa [Styling.fieldTokens, fieldLines, Nest.add] using hRest line
  | cons field rest ih =>
    -- the mapping is open, so that the key opens nothing
    have hFurther := Nest.opened_eq hColumn .blockMapping
    have hInner : (nest.add (σ.fieldTokens [field])).column = n := hColumn
    rw [fieldLines_cons, List.append_assoc, List.append_assoc]
    refine reaches_spaces (reaches_field (hFields field List.mem_cons_self) hColumn.le
      (by simp [Mark.lineStart, Mark.step]) (tail_fields hTail rest) fun line => ?_)
    rw [hFurther]
    refine ih (fun e he => hFields e (List.mem_cons_of_mem field he)) hInner (fun line => ?_) line
    rw [Nest.add_add, ← fieldTokens_cons]
    exact hRest line

theorem reaches_fields {field : String × Tree} {rest : List (String × Tree)}
    (hFields : ∀ e ∈ field :: rest, Scans σ e.2) (hColumn : nest.column ≤ n) (hMark : m.column = n)
    (hTail : Tail n tail)
    (hRest : ∀ line, Reaches ts
      (((nest.opened n .blockMapping).add (σ.fieldTokens (field :: rest))).fresh tail line)) :
    Reaches ts (nest.scanner (fieldLines σ.style [] n (field :: rest) ++ tail) m true none) := by
  have hInner : ((nest.opened n .blockMapping).add (σ.fieldTokens [field])).column = n :=
    Nest.column_opened hColumn .blockMapping
  rw [fieldLines_cons [], List.nil_append, List.append_assoc]
  refine reaches_field (hFields field List.mem_cons_self) hColumn hMark (tail_fields hTail rest)
    (reaches_moreFields (fun e he => hFields e (List.mem_cons_of_mem field he)) hInner hTail
      fun line => ?_)
  rw [Nest.add_add, ← fieldTokens_cons]
  exact hRest line

/-! ## All values -/

/-- A collection of its own is closed by the line behind it. -/
theorem reaches_closed (hColumn : nest.column = n) (hTail : Tail n tail) (opening : Token)
    (inner : List Token) {line : Nat}
    (hRest : Reaches ts ((nest.add (opening :: (inner ++ [.blockEnd]))).fresh tail line)) :
    Reaches ts (((nest.opened (n + 2) opening).add inner).fresh tail line) := by
  have hOpens : nest.column < (n + 2 : Nat) := by omega
  have hOpened : (nest.opened (n + 2) opening).add inner =
      { tokens := nest.tokens ++ opening :: inner, column := (n + 2 : Nat),
        outer := nest.column :: nest.outer } := by
    rw [Nest.opened, if_pos hOpens]
    simp [Nest.add]
  have hAll : nest.add (opening :: (inner ++ [.blockEnd])) =
      { nest with tokens := (nest.tokens ++ opening :: inner) ++ [.blockEnd] } := by
    simp [Nest.add]
  rw [hOpened]
  rw [hAll] at hRest
  exact reaches_close hTail (by omega) hRest

theorem scans_list {item : Tree} {rest : List Tree} (hItems : ∀ t ∈ item :: rest, Scans σ t) :
    Scans σ (.list (item :: rest)) := by
  refine ⟨?_, ?_⟩
  · intro nest ts m n tail hColumn hMark hTail hRest
    rw [valueTokens_list] at hRest
    rw [itemValue_list, itemLines_before]
    have hInner : nest.column ≤ (n + 2 : Nat) := by omega
    have hBehind : (m.step 1).column = n + 2 := congrArg (· + 1) hMark
    refine reaches_blank (reaches_items hItems hInner hBehind
      (hTail.mono (Nat.le_add_right n 2)) fun line => ?_)
    exact reaches_closed hColumn hTail _ _ (hRest line)
  · intro nest ts m n tail hColumn hMark hTail hRest
    rw [valueTokens_list] at hRest
    rw [fieldValue_list]
    exact reaches_endLine (tail_items hTail _) (late_none _)
      (reaches_moreItems hItems hColumn hTail hRest)

theorem scans_object {field : String × Tree} {rest : List (String × Tree)}
    (hFields : ∀ e ∈ field :: rest, Scans σ e.2) : Scans σ (.object (field :: rest)) := by
  refine ⟨?_, ?_⟩
  · intro nest ts m n tail hColumn hMark hTail hRest
    rw [valueTokens_object] at hRest
    rw [itemValue_object, fieldLines_before]
    have hInner : nest.column ≤ (n + 2 : Nat) := by omega
    have hBehind : (m.step 1).column = n + 2 := congrArg (· + 1) hMark
    refine reaches_blank (reaches_fields hFields hInner hBehind
      (hTail.mono (Nat.le_add_right n 2)) fun line => ?_)
    exact reaches_closed hColumn hTail _ _ (hRest line)
  · intro nest ts m n tail hColumn hMark hTail hRest
    rw [valueTokens_object] at hRest
    rw [fieldValue_object]
    -- the fields begin a line of their own, two columns further in
    have hInner : nest.column ≤ (n + 2 : Nat) := by omega
    refine reaches_endLine (tail_fields (hTail.mono (Nat.le_add_right n 2)) _) (late_none _)
      fun line => ?_
    have hBehind : ((Mark.lineStart line).step (n + 2)).column = n + 2 := by
      simp [Mark.lineStart, Mark.step]
    rw [fieldLines_before, List.append_assoc]
    refine reaches_spaces (reaches_fields hFields hInner hBehind
      (hTail.mono (Nat.le_add_right n 2)) fun line => ?_)
    exact reaches_closed hColumn hTail _ _ (hRest line)

theorem scans_of_isExact (t : Tree) (hExact : t.isExact = true) : Scans σ t := by
  induction t, hExact using Tree.exact_induction σ with
  | scalar hExact hScalar => exact scans_scalar hScalar
  | list items hExact hItems ih =>
    cases items with
    | nil => exact scans_empty.1
    | cons item rest => exact scans_list ih
  | object fields hExact hNames hFields ih =>
    cases fields with
    | nil => exact scans_empty.2
    | cons field rest => exact scans_object ih

/-! ## How many tokens there are -/

/-- The tokens of a value are few for the characters that it has. -/
def Brief (σ : Styling) (t : Tree) : Prop :=
  ∀ unindented n, (σ.valueTokens unindented t).length ≤ 5 * (itemValue σ.style n t).length ∧
    (σ.valueTokens unindented t).length ≤ 5 * (fieldValue σ.style n t).length

theorem length_itemTokens {items : List Tree} (hItems : ∀ t ∈ items, Brief σ t) (before : List Char)
    (n : Nat) :
    (σ.itemTokens items).length + 4 * items.length ≤ 5 * (itemLines σ.style before n items).length := by
  induction items generalizing before with
  | nil => simp [Styling.itemTokens]
  | cons item rest ih =>
    have hItem := (hItems item List.mem_cons_self false n).1
    have hRest := ih (fun t ht => hItems t (List.mem_cons_of_mem item ht)) (spaces n)
    simp only [Styling.itemTokens, itemLines, List.length_append, List.length_cons]
    omega

theorem length_field {key : String} {value : Tree} (hValue : Brief σ value) (n : Nat) :
    (σ.fieldTokens [(key, value)]).length + 2 ≤ 5 * (fieldLines σ.style [] n [(key, value)]).length := by
  obtain ⟨hItem, hField⟩ := hValue (isSimpleKey key) n
  have hTokens : (σ.fieldTokens [(key, value)]).length =
      (σ.valueTokens (isSimpleKey key) value).length + 3 := by simp [Styling.fieldTokens]
  by_cases hKey : isSimpleKey key = true
  · simp only [fieldLines, hKey, if_true, List.length_append, List.length_cons,
      List.length_nil]
    omega
  · simp [fieldLines, hKey]
    omega

theorem length_fieldTokens {fields : List (String × Tree)} (hFields : ∀ e ∈ fields, Brief σ e.2)
    (before : List Char) (n : Nat) :
    (σ.fieldTokens fields).length + 2 * fields.length ≤
      5 * (fieldLines σ.style before n fields).length := by
  induction fields generalizing before with
  | nil => simp [Styling.fieldTokens]
  | cons field rest ih =>
    have hField : (σ.fieldTokens [field]).length + 2 ≤ 5 * (fieldLines σ.style [] n [field]).length :=
      length_field (hFields field List.mem_cons_self) n
    have hRest := ih (fun e he => hFields e (List.mem_cons_of_mem field he)) (spaces n)
    rw [fieldTokens_cons, fieldLines_cons before]
    simp only [List.length_append, List.length_cons]
    omega

theorem brief_scalar {t : Tree} {style : Style} {s : String}
    (hScalar : σ.scalarOf t = some (style, s)) : Brief σ t := by
  intro unindented n
  obtain ⟨hItem, hField⟩ := value_scalar hScalar n
  rw [valueTokens_scalar hScalar, hItem, hField]
  simp only [List.length_cons, List.length_nil]
  omega

theorem brief_list {items : List Tree} (hItems : ∀ t ∈ items, Brief σ t) :
    Brief σ (.list items) := by
  intro unindented n
  cases items with
  | nil => simp [Styling.valueTokens, itemValue_empty, fieldValue_empty]
  | cons item rest =>
    have hItem := length_itemTokens hItems (spaces 1) (n + 2)
    have hField := length_itemTokens hItems (spaces n) n
    rw [List.length_cons] at hItem hField
    rw [valueTokens_list, itemValue_list, fieldValue_list]
    cases unindented with
    | true =>
      simp only [if_true, List.length_cons]
      omega
    | false =>
      simp only [Bool.false_eq_true, if_false, List.length_cons, List.length_append,
        List.length_nil]
      omega

theorem brief_object {fields : List (String × Tree)} (hFields : ∀ e ∈ fields, Brief σ e.2) :
    Brief σ (.object fields) := by
  intro unindented n
  cases fields with
  | nil => simp [Styling.valueTokens, itemValue_empty, fieldValue_empty]
  | cons field rest =>
    have hItem := length_fieldTokens hFields (spaces 1) (n + 2)
    have hField := length_fieldTokens hFields (spaces (n + 2)) (n + 2)
    rw [List.length_cons] at hItem hField
    rw [valueTokens_object, itemValue_object, fieldValue_object]
    simp only [List.length_cons, List.length_append, List.length_nil]
    omega

theorem brief_of_isExact (t : Tree) (hExact : t.isExact = true) : Brief σ t := by
  induction t, hExact using Tree.exact_induction σ with
  | scalar hExact hScalar => exact brief_scalar hScalar
  | list items hExact hItems ih => exact brief_list ih
  | object fields hExact hNames hFields ih => exact brief_object ih

/-! ## Documents -/

theorem streamEnd_notMem_items {items : List Tree}
    (hItems : ∀ t ∈ items, .streamEnd ∉ σ.valueTokens false t) :
    .streamEnd ∉ σ.itemTokens items := by
  induction items with
  | nil => simp [Styling.itemTokens]
  | cons item rest ih =>
    have hRest := ih fun t ht => hItems t (List.mem_cons_of_mem item ht)
    simp [Styling.itemTokens, hItems item List.mem_cons_self, hRest]

theorem streamEnd_notMem_fields {fields : List (String × Tree)}
    (hFields : ∀ e ∈ fields, ∀ unindented, .streamEnd ∉ σ.valueTokens unindented e.2) :
    .streamEnd ∉ σ.fieldTokens fields := by
  induction fields with
  | nil => simp [Styling.fieldTokens]
  | cons field rest ih =>
    obtain ⟨key, value⟩ := field
    have hRest := ih fun e he => hFields e (List.mem_cons_of_mem (key, value) he)
    simp [Styling.fieldTokens, hFields (key, value) List.mem_cons_self (isSimpleKey key), hRest]

theorem streamEnd_notMem (t : Tree) (hExact : t.isExact = true) :
    ∀ unindented, .streamEnd ∉ σ.valueTokens unindented t := by
  induction t, hExact using Tree.exact_induction σ with
  | scalar hExact hScalar =>
    intro unindented
    simp [valueTokens_scalar hScalar]
  | list items hExact hItems ih =>
    intro unindented
    have hNone := streamEnd_notMem_items fun t ht => ih t ht false
    cases items with
    | nil => simp [Styling.valueTokens]
    | cons item rest =>
      rw [valueTokens_list]
      cases unindented with
      | true => simpa using hNone
      | false => simpa using hNone
  | object fields hExact hNames hFields ih =>
    intro unindented
    have hNone := streamEnd_notMem_fields ih
    cases fields with
    | nil => simp [Styling.valueTokens]
    | cons field rest =>
      rw [valueTokens_object]
      simpa using hNone

/-- Characters that may be shown are characters that a document may hold. -/
theorem isAllowed_of_printable {c : Char} (hPrintable : isPrintable c = true) :
    isAllowed c = true := by
  simp only [isPrintable, isAllowed, Bool.or_eq_true, Bool.and_eq_true, decide_eq_true_eq]
    at hPrintable ⊢
  omega

theorem cutOffAt_eq_none {cs : List Char} (hPrintable : ∀ c ∈ cs, isPrintable c = true)
    (room held before : Nat) : cutOffAt cs room held before = none := by
  induction cs generalizing room held before with
  | nil => rfl
  | cons c rest ih =>
    have hAllowed := isAllowed_of_printable (hPrintable c List.mem_cons_self)
    have hRest := ih fun d hd => hPrintable d (List.mem_cons_of_mem c hd)
    rw [cutOffAt, if_neg (by simp [hAllowed]), hRest, hRest, ite_self]

/-- The line breaks that may be shown are kept as they are. -/
theorem unifyBreaks_eq {cs : List Char} (hPrintable : ∀ c ∈ cs, isPrintable c = true) :
    unifyBreaks cs = cs := by
  induction cs with
  | nil => rfl
  | cons c rest ih =>
    have hc := hPrintable c List.mem_cons_self
    have hReturn := ne_return_of_printable hc
    have hNextLine : c ≠ '\u0085' := by
      rintro rfl
      exact absurd hc (by decide)
    have hRest := ih fun d hd => hPrintable d (List.mem_cons_of_mem c hd)
    rw [unifyBreaks, hRest]
    · simp [hReturn, hNextLine]
    · intro _ hEq _
      exact absurd hEq hReturn

/-- At the end of the text the mapping at its start is closed. -/
theorem reaches_end (nest : Nest) (hColumn : nest.column = 0) (hOuter : nest.outer = [-1])
    (line : Nat) : Reaches (nest.tokens ++ [.blockEnd]) (nest.fresh [] line) := by
  obtain ⟨tokens, column, outer⟩ := nest
  obtain rfl : column = 0 := hColumn
  obtain rfl : outer = [-1] := hOuter
  exact .ended rfl rfl rfl rfl

/-- **The tokens of a document** are those of its tree, and behind them the end of the stream. -/
theorem scan_document {t : Tree} (hManifest : t.IsManifest) :
    Token.scan (σ.document t) = σ.valueTokens false t ++ [.streamEnd] := by
  have hWhole : WholeLines (documentChars σ.style t) := wholeLines_document hManifest
  have hEnd : .streamEnd ∉ σ.valueTokens false t := streamEnd_notMem t hManifest.exact false
  obtain ⟨hExact, field, rest, rfl⟩ := hManifest
  rw [Tree.isExact_object, Bool.and_eq_true, List.all_eq_true] at hExact
  have hPrintable : ∀ c ∈ fieldLines σ.style [] 0 (field :: rest), isPrintable c = true :=
    hWhole.printable
  have hFields : ∀ e ∈ field :: rest, Scans σ e.2 :=
    fun e he => scans_of_isExact e.2 (hExact.2 e he)
  have hBrief : ∀ e ∈ field :: rest, Brief σ e.2 := fun e he => brief_of_isExact e.2 (hExact.2 e he)
  have hText : (σ.document (.object (field :: rest))).toList = fieldLines σ.style [] 0 (field :: rest) :=
    String.toList_ofList
  have hReaches : Reaches (σ.valueTokens false (.object (field :: rest)))
      (Scanner.start (fieldLines σ.style [] 0 (field :: rest)) false) := by
    have hRoot : ({ tokens := [], column := -1, outer := [] } : Nest).column ≤ (0 : Nat) := by decide
    have hLines := reaches_fields hFields hRoot (rfl : Mark.start.column = 0) (tail_nil 0)
      (reaches_end _ rfl rfl)
    rw [List.append_nil] at hLines
    exact hLines
  rw [Token.scan, hText, cutOffAt_eq_none hPrintable]
  simp only [Option.getD_none, List.take_length, Option.isSome_none]
  rw [unifyBreaks_eq hPrintable]
  -- there is more fuel than characters ask for
  refine run_of_reaches hEnd rfl rfl rfl rfl hReaches ?_
  have hLength := length_fieldTokens hBrief [] 0
  rw [valueTokens_object]
  simp only [List.length_cons, List.length_append, List.length_nil] at hLength ⊢
  omega

end PodCompiler.Yaml
