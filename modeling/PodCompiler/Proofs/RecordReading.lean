import PodCompiler.Record
import PodCompiler.Specification.Reading
import PodCompiler.Proofs.Variants
import Mathlib.Data.List.Forall2
import Mathlib.Data.List.Nodup
import Mathlib.Data.List.Pairwise

/-!
# PodCompiler — reading records

A record that is read field by field gives back the values that were written, whichever way they
were written, and in every notation that is faithful. That no two fields have one name is all that
is needed of the record: each field that is there fills its own slot, in whatever order, unknown
fields fill none, and what is left empty at the end may be absent.

* `Dialect.Faithful` is what a notation must do with the values that show a tree.
* `Understood` — a reader gives back the value of every variant of its tree.
* `Fields.Means` — the fields of a record are understood one by one.

Main results:

* `fill_eq` — the slots after any number of fields in any order.
* `record_eq` — a record is read as the row of its values.
* `understood_list`, `understood_nullable`, `understood_textMap` — the other shapes.
-/

namespace PodCompiler

/-! ## Notations -/

/-- A value that shows a field of an object: a key and a value. -/
def ShowsField (Shows : Tree → ν → Prop) (field : String × Tree) (entry : ν × ν) : Prop :=
  Shows (.text field.1) entry.1 ∧ Shows field.2 entry.2

/-- A notation takes the values that show a tree for that tree. -/
structure Dialect.Faithful (d : Dialect ν) (Shows : Tree → ν → Prop) : Prop where
  text {s : String} {v : ν} (path : Path) (h : Shows (.text s) v) : d.text path v = pure s
  bool {b : Bool} {v : ν} (path : Path) (h : Shows (.bool b) v) : d.bool path v = pure b
  int {n : Int} {v : ν} {width : IntWidth} (path : Path) (h : Shows (.int n) v)
    (hWidth : width.holds n = true) : d.int width path v = pure n
  items {ts : List Tree} {v : ν} (h : Shows (.list ts) v) :
    ∃ vs, List.Forall₂ Shows ts vs ∧ ∀ path, d.items path v = pure vs
  entries {fields : List (String × Tree)} {v : ν} (h : Shows (.object fields) v) :
    ∃ es, List.Forall₂ (ShowsField Shows) fields es ∧ (∀ path, d.entries path v = pure es) ∧
      ∀ title path, d.members title path v = pure (.named es)
  variant {s : String} {v : ν} (path : Path) (h : Shows (.text s) v) : d.variant path v = pure s
  null {v : ν} (path : Path) (h : Shows .null v) : d.present path v = pure none
  present {t : Tree} {v : ν} (path : Path) (h : Shows t v) (hNull : t ≠ .null) :
    d.present path v = pure (some v)
  name {s expected : String} {v : ν} (path : Path) (h : Shows (.text s) v) :
    d.name expected path v = pure s
  skip {t : Tree} {v : ν} (h : Shows t v) : d.skip v = pure ()

/-- A reader gives back the value of every variant of its tree, wherever it stands. -/
def Understood (Shows : Tree → ν → Prop) (shape : Shape) (tree : α → Tree)
    (read : Path → ν → Reading α) : Prop :=
  ∀ (a : α) (t : Tree) (v : ν) (path : Path), Variant shape (tree a) t → Shows t v →
    read path v = pure a

/-! ## Fields -/

/-- What an absent field stands for, if it may be absent. -/
def Absence.value? : Absence α → Option α
  | .required => none
  | .named fallback => some fallback
  | .defaulted fallback => some fallback

namespace Fields

/-- The names of fields. -/
def names : Fields ν types → List String
  | .nil => []
  | .cons field rest => field.name :: rest.names

/-- The slots of a row, filled where the name of the field is among those given. -/
def slotsOf (done : List String) : Fields ν types → Row types → Slots types
  | .nil, () => ()
  | .cons field rest, (a, row) =>
    (if field.name ∈ done then some a else none, rest.slotsOf done row)

/-- Fields with a shape, their entries in a tree, and the row of the values: each field reads every
variant of its entry as the value, and what may be left out stands for the value. -/
inductive Means (Shows : Tree → ν → Prop) : {types : List Type} → Fields ν types →
    List (FieldShape Shape) → List (String × Tree) → Row types → Prop where
  | nil : Means Shows .nil [] [] ()
  | cons {α : Type} {types : List Type} {field : Field ν α} {rest : Fields ν types} {a : α}
      {row : Row types} {shape : Shape} {fallback : Option Tree} {t : Tree}
      {shapes : List (FieldShape Shape)} {entries : List (String × Tree)}
      (hRead : ∀ t' v path, Variant shape t t' → Shows t' v → field.read path v = pure a)
      (hAbsent : fallback = some t → field.absence.value? = some a)
      (hRest : Means Shows rest shapes entries row) :
      Means Shows (.cons field rest) (⟨field.name, shape, fallback⟩ :: shapes)
        ((field.name, t) :: entries) (a, row)

section Slots

variable {ν : Type} {types : List Type} {Shows : Tree → ν → Prop} {fields : Fields ν types}
  {shapes : List (FieldShape Shape)} {entries : List (String × Tree)} {row : Row types}

theorem Means.names_eq (h : fields.Means Shows shapes entries row) :
    shapes.map FieldShape.name = fields.names := by
  induction h with
  | nil => rfl
  | cons hRead hAbsent hRest ih => rw [List.map_cons, ih, names]

theorem vacant_eq (fields : Fields ν types) (row : Row types) :
    fields.vacant = fields.slotsOf [] row := by
  induction fields with
  | nil => rfl
  | cons field rest ih =>
    obtain ⟨a, row⟩ := row
    rw [vacant, ih row, slotsOf, if_neg List.not_mem_nil]

/-- Names that no field has make no difference. -/
theorem slotsOf_cons_of_notMem {name : String} (hName : name ∉ fields.names) (done : List String)
    (row : Row types) : fields.slotsOf (name :: done) row = fields.slotsOf done row := by
  induction fields with
  | nil => rfl
  | cons field rest ih =>
    rw [names, List.mem_cons, not_or] at hName
    have hSame : field.name ∈ name :: done ↔ field.name ∈ done := by
      rw [List.mem_cons]
      exact or_iff_right fun hEq => hName.1 hEq.symm
    rw [slotsOf, slotsOf, ih hName.2]
    simp only [hSame]

/-- A value goes into the slot of the first field of its name. -/
theorem assign_cons {α : Type} (field : Field ν α) (rest : Fields ν types) (record : Path)
    (name : String) (path : Path) (v : ν) (slot : Option α) (slots : Slots types) :
    (Fields.cons field rest).assign record name path v (slot, slots) =
      if name = field.name then
        some <|
          match slot with
          | some _ => Reading.refuse record (.duplicateField name)
          | none => (field.read path v).bind fun value => pure (some value, slots)
      else
        (rest.assign record name path v slots).map fun reading =>
          reading.bind fun slots => pure (slot, slots) :=
  rfl

theorem assign_unknown {name : String} (hName : name ∉ fields.names) (record path : Path) (v : ν)
    (slots : Slots types) : fields.assign record name path v slots = none := by
  induction fields with
  | nil => rfl
  | cons field rest ih =>
    rw [names, List.mem_cons, not_or] at hName
    obtain ⟨slot, slots⟩ := slots
    rw [assign_cons, if_neg hName.1, ih hName.2]
    rfl

end Slots

end Fields

theorem Kept.sublist {R : Shape → Tree → Tree → Prop} {shapes : List (FieldShape Shape)}
    {entries kept : List (String × Tree)} (h : Kept R shapes entries kept) :
    (kept.map (·.1)).Sublist (shapes.map FieldShape.name) := by
  induction h with
  | nil => exact .slnil
  | keep hValue hRest ih => exact ih.cons_cons _
  | drop hFallback hRest ih => exact ih.cons _

namespace Fields

variable {ν : Type} {types : List Type} {Shows : Tree → ν → Prop} {fields : Fields ν types}
  {shapes : List (FieldShape Shape)} {entries kept : List (String × Tree)} {row : Row types}

/-- A field that is there fills its own slot. -/
theorem assign_known (hMeans : fields.Means Shows shapes entries row)
    (hNodup : (shapes.map FieldShape.name).Nodup) (hKept : Kept Variant shapes entries kept)
    {name : String} {t : Tree} (hMem : (name, t) ∈ kept) {v : ν} (hShows : Shows t v)
    {done : List String} (hNew : name ∉ done) (record path : Path) :
    fields.assign record name path v (fields.slotsOf done row) =
      some (pure (fields.slotsOf (name :: done) row)) := by
  -- along the fields: the value goes into the first slot, or further on
  induction hMeans generalizing kept with
  | nil => cases hKept; cases hMem
  | @cons α types field rest a row shape fallback t₀ shapes entries hRead hAbsent hRest ih =>
    rw [List.map_cons, List.nodup_cons] at hNodup
    -- a field further on has another name
    have hFurther : ∀ {kept' : List (String × Tree)}, Kept Variant shapes entries kept' →
        (name, t) ∈ kept' →
        (Fields.cons field rest).assign record name path v
            ((Fields.cons field rest).slotsOf done (a, row)) =
          some (pure ((Fields.cons field rest).slotsOf (name :: done) (a, row))) := by
      intro kept' hKept' hMem'
      have hName : name ∈ shapes.map FieldShape.name :=
        hKept'.sublist.subset (List.mem_map_of_mem (f := fun e : String × Tree => e.1) hMem')
      have hOther : name ≠ field.name := fun hEq => hNodup.1 (hEq ▸ hName)
      have hSame : field.name ∈ name :: done ↔ field.name ∈ done := by
        rw [List.mem_cons]
        exact or_iff_right fun hEq => hOther hEq.symm
      rw [slotsOf, slotsOf, assign_cons, if_neg hOther, ih hNodup.2 hKept' hMem']
      simp only [hSame]
      rfl
    cases hKept with
    | drop hFallback hKept' => exact hFurther hKept' hMem
    | @keep _ _ _ t' _ kept' hValue hKept' =>
      rcases List.mem_cons.mp hMem with hHead | hMem'
      · -- it is this field, and no later slot has its name
        obtain ⟨rfl, rfl⟩ := Prod.mk.inj hHead
        have hOut : field.name ∉ rest.names := hRest.names_eq ▸ hNodup.1
        rw [slotsOf, slotsOf, assign_cons, if_pos rfl, if_neg hNew, if_pos List.mem_cons_self,
          slotsOf_cons_of_notMem hOut]
        show some ((field.read path v).bind _) = _
        rw [hRead _ v path hValue hShows]
        rfl
      · exact hFurther hKept' hMem'

/-- What is not there is absent by right. -/
theorem complete_eq (hMeans : fields.Means Shows shapes entries row)
    (hKept : Kept Variant shapes entries kept) {done : List String}
    (hDone : ∀ e ∈ kept, e.1 ∈ done) (record : Path) :
    fields.complete record (fields.slotsOf done row) = pure row := by
  induction hMeans generalizing kept with
  | nil => rfl
  | @cons α types field rest a row shape fallback t₀ shapes entries hRead hAbsent hRest ih =>
    cases hKept with
    | @keep _ _ _ t' _ kept' hValue hKept' =>
      have hThere : field.name ∈ done := hDone (field.name, t') List.mem_cons_self
      have hOthers := ih hKept' fun e he => hDone e (List.mem_cons_of_mem _ he)
      rw [slotsOf, if_pos hThere, complete, hOthers]
      rfl
    | drop hFallback hKept' =>
      -- the slot is full with the value, or empty, and then the absence stands for the value
      have hValue := hAbsent hFallback
      have hOthers := ih hKept' hDone
      by_cases hThere : field.name ∈ done
      · rw [slotsOf, if_pos hThere, complete, hOthers]
        rfl
      · rw [slotsOf, if_neg hThere, complete.eq_def]
        cases hAbsence : field.absence with
        | required =>
          rw [hAbsence] at hValue
          cases hValue
        | named b =>
          rw [hAbsence] at hValue
          obtain rfl : b = a := Option.some.inj hValue
          simp only [hAbsence, hOthers, pure_bind]
        | defaulted b =>
          rw [hAbsence] at hValue
          obtain rfl : b = a := Option.some.inj hValue
          simp only [hAbsence, hOthers, pure_bind]

end Fields

/-! ## Records -/

section Record

variable {ν : Type} {d : Dialect ν} {Shows : Tree → ν → Prop} {types : List Type}
  {fields : Fields ν types} {shapes : List (FieldShape Shape)}
  {entries kept added result : List (String × Tree)} {row : Row types}

/-- Two fields of one name are both unknown. -/
def Apart (names : List String) (e e' : String × Tree) : Prop := e.1 = e'.1 → e.1 ∉ names

/-- The fields that are kept, and those that are added, are apart in any order. -/
theorem apart_of_perm (hKept : Kept Variant shapes entries kept)
    (hNodup : (shapes.map FieldShape.name).Nodup)
    (hAdded : ∀ e ∈ added, e.1 ∉ shapes.map FieldShape.name)
    (hPerm : (kept ++ added).Perm result) :
    result.Pairwise (Apart (shapes.map FieldShape.name)) := by
  have hSymmetric : ∀ {e e' : String × Tree}, Apart (shapes.map FieldShape.name) e e' →
      Apart (shapes.map FieldShape.name) e' e :=
    fun hApart hEq => hEq ▸ hApart hEq.symm
  refine (hPerm.pairwise_iff hSymmetric).mp (List.pairwise_append.mpr ⟨?_, ?_, ?_⟩)
  · -- fields that are kept have different names
    have hNames : (kept.map (·.1)).Nodup := hKept.sublist.nodup hNodup
    rw [List.Nodup, List.pairwise_map] at hNames
    exact hNames.imp fun hNe hEq => absurd hEq hNe
  · exact List.pairwise_of_forall_mem_list fun e he _ _ _ => hAdded e he
  · exact fun e _ e' he' hEq => hEq ▸ hAdded e' he'

/-- **Filling.** After fields in any order the slots are filled whose names came by. -/
theorem fill_eq (hd : d.Faithful Shows) (hMeans : fields.Means Shows shapes entries row)
    (hNodup : (shapes.map FieldShape.name).Nodup) (hKept : Kept Variant shapes entries kept)
    {es : List (ν × ν)} (hShows : List.Forall₂ (ShowsField Shows) result es)
    (hResult : ∀ e ∈ result, e ∈ kept ∨ e.1 ∉ shapes.map FieldShape.name)
    (hApart : result.Pairwise (Apart (shapes.map FieldShape.name)))
    {done : List String} (hNew : ∀ e ∈ result, e.1 ∈ done → e.1 ∉ shapes.map FieldShape.name)
    (record : Path) :
    d.fill fields record es (fields.slotsOf done row) =
      pure (fields.slotsOf ((result.map (·.1)).reverse ++ done) row) := by
  -- along the fields that are read; `done` are the names that have come by
  induction hShows generalizing done with
  | nil => rfl
  | @cons e entry rest es hEntry hEntries ih =>
    obtain ⟨name, t⟩ := e
    obtain ⟨key, v⟩ := entry
    obtain ⟨hKey, hValue⟩ : Shows (.text name) key ∧ Shows t v := hEntry
    rw [List.pairwise_cons] at hApart
    have hLater : ∀ e ∈ rest, e.1 ∈ name :: done → e.1 ∉ shapes.map FieldShape.name := by
      intro e he hDone
      rcases List.mem_cons.mp hDone with hEq | hDone
      · -- a name comes again only if no field has it
        exact hEq ▸ hApart.1 e he hEq.symm
      · exact hNew e (List.mem_cons_of_mem _ he) hDone
    have hRest := ih (fun e he => hResult e (List.mem_cons_of_mem _ he)) hApart.2 hLater
    have hNames : ((((name, t) :: rest).map (·.1)).reverse ++ done) =
        (rest.map (·.1)).reverse ++ name :: done := by simp
    rw [hNames, ← hRest, Dialect.fill, hd.name record hKey, pure_bind]
    by_cases hKnown : name ∈ shapes.map FieldShape.name
    · -- a name that a field has comes by once
      have hMem : (name, t) ∈ kept :=
        (hResult (name, t) List.mem_cons_self).resolve_right fun hNot => hNot hKnown
      have hUnfilled : name ∉ done := fun hDone => hNew (name, t) List.mem_cons_self hDone hKnown
      rw [Fields.assign_known hMeans hNodup hKept hMem hValue hUnfilled]
      simp only [pure_bind]
    · have hUnknown : name ∉ fields.names := hMeans.names_eq ▸ hKnown
      rw [Fields.assign_unknown hUnknown, Fields.slotsOf_cons_of_notMem hUnknown]
      simp only [hd.skip hValue, pure_bind]

/-- **Records.** However a record is written, it is read as the row of its values. -/
theorem record_eq (hd : d.Faithful Shows) {t : Tree} {v : ν}
    (hVariant : Variant (.record shapes) (.object entries) t) (hShows : Shows t v)
    (hNodup : (shapes.map FieldShape.name).Nodup)
    (hMeans : fields.Means Shows shapes entries row) (title : String) (path : Path) :
    d.record title fields path v = pure row := by
  cases hVariant with
  | @record _ _ kept added result hKept hAdded hPerm =>
    obtain ⟨es, hEntries, -, hMembers⟩ := hd.entries hShows
    -- what is read is what was kept, among names that no field has
    have hForeign : ∀ e ∈ added, e.1 ∉ shapes.map FieldShape.name := by
      intro e he hMem
      obtain ⟨field, hField, hName⟩ := List.mem_map.mp hMem
      exact hAdded e he field hField hName
    have hResult : ∀ e ∈ result, e ∈ kept ∨ e.1 ∉ shapes.map FieldShape.name := fun e he =>
      (List.mem_append.mp (hPerm.mem_iff.mpr he)).imp_right (hForeign e)
    have hApart := apart_of_perm hKept hNodup hForeign hPerm
    have hNew : ∀ e ∈ result, e.1 ∈ ([] : List String) → e.1 ∉ shapes.map FieldShape.name :=
      fun e _ hNone => absurd hNone List.not_mem_nil
    have hFill := fill_eq hd hMeans hNodup hKept hEntries hResult hApart hNew path
    have hDone : ∀ e ∈ kept, e.1 ∈ (result.map (·.1)).reverse ++ [] := by
      intro e he
      have hMem : e ∈ result := hPerm.mem_iff.mp (List.mem_append_left _ he)
      simpa using ⟨e.2, hMem⟩
    unfold Dialect.record
    rw [hMembers, pure_bind]
    show (d.fill fields path es fields.vacant >>= fun slots => fields.complete path slots) = _
    rw [Fields.vacant_eq fields row, hFill, pure_bind]
    exact Fields.complete_eq hMeans hKept hDone path

end Record

/-! ## Single values -/

section Values

variable {ν : Type} {d : Dialect ν} {Shows : Tree → ν → Prop}

/-- A value without records is written in one way. -/
theorem understood_leaf {α : Type} {tree : α → Tree} {read : Path → ν → Reading α}
    (hRead : ∀ a v path, Shows (tree a) v → read path v = pure a) :
    Understood Shows .leaf tree read := by
  intro a t v path hVariant hShows
  cases hVariant
  exact hRead a v path hShows

theorem understood_text (hd : d.Faithful Shows) : Understood Shows .leaf .text d.text :=
  understood_leaf fun _ _ path hShows => hd.text path hShows

theorem understood_bool (hd : d.Faithful Shows) : Understood Shows .leaf .bool d.bool :=
  understood_leaf fun _ _ path hShows => hd.bool path hShows

theorem understood_int32 (hd : d.Faithful Shows) : Understood Shows .leaf .int32 d.int32 := by
  refine understood_leaf fun n v path hShows => ?_
  have hWidth : IntWidth.bits32.holds n.toInt = true := by
    have hLow := n.le_toInt
    have hHigh := n.toInt_lt
    simp only [IntWidth.holds, Bool.and_eq_true, decide_eq_true_eq]
    omega
  unfold Dialect.int32
  rw [hd.int path hShows hWidth, map_pure, Int32.ofInt_toInt]

theorem understood_int64 (hd : d.Faithful Shows) : Understood Shows .leaf .int64 d.int64 := by
  refine understood_leaf fun n v path hShows => ?_
  have hWidth : IntWidth.bits64.holds n.toInt = true := by
    have hLow := n.le_toInt
    have hHigh := n.toInt_lt
    simp only [IntWidth.holds, Bool.and_eq_true, decide_eq_true_eq]
    omega
  unfold Dialect.int64
  rw [hd.int path hShows hWidth, map_pure, Int64.ofInt_toInt]

/-- Every name of a pull policy is the name of that pull policy, and of no other. -/
theorem ofName_name (policy : PullPolicy) : PullPolicy.ofName policy.name = policy := by
  cases policy <;> rfl

theorem understood_pullPolicy (hd : d.Faithful Shows) :
    Understood Shows .leaf (fun policy => .text policy.name) (PullPolicy.read d) := by
  refine understood_leaf fun policy v path hShows => ?_
  unfold PullPolicy.read
  rw [hd.variant path hShows, pure_bind, ofName_name]

/-! ## Maps -/

/-- Entries in ascending order go to the end of a map one after the other. -/
theorem mapEntries_eq (hd : d.Faithful Shows) {path : Path} {rest : List (String × String)}
    {es : List (ν × ν)}
    (hShows : List.Forall₂ (ShowsField Shows) (rest.map fun e => (e.1, .text e.2)) es)
    {m whole : SortedMap String} (hWhole : whole.entries = m.entries ++ rest) :
    d.mapEntries path es m = pure whole := by
  induction rest generalizing es m with
  | nil =>
    cases hShows
    obtain rfl : m = whole := SortedMap.ext (by simpa using hWhole.symm)
    rfl
  | cons e rest ih =>
    cases hShows with
    | @cons _ entry _ es hEntry hEntries =>
      obtain ⟨key, v⟩ := entry
      obtain ⟨hKey, hValue⟩ : Shows (.text e.1) key ∧ Shows (.text e.2) v := hEntry
      -- the keys before are below this one, since the whole map ascends
      have hLast : ∀ e' ∈ m.entries, e'.1 < e.1 := by
        have hAscending := whole.ascending
        rw [Ascending, hWhole, List.pairwise_append] at hAscending
        exact fun e' he' => hAscending.2.2 e' he' e List.mem_cons_self
      have hInsert : (m.insert e.1 e.2).entries = m.entries ++ [e] :=
        m.entries_insert_of_last e.1 e.2 hLast
      rw [Dialect.mapEntries, hd.name path hKey, pure_bind, hd.text _ hValue, pure_bind]
      exact ih hEntries (by rw [hWhole, hInsert, List.append_assoc]; rfl)

theorem understood_textMap (hd : d.Faithful Shows) :
    Understood Shows .leaf SortedMap.tree d.textMap := by
  refine understood_leaf fun m v path hShows => ?_
  obtain ⟨es, hEntries, hRead, -⟩ := hd.entries hShows
  unfold Dialect.textMap
  rw [hRead, pure_bind]
  exact mapEntries_eq hd hEntries rfl

/-! ## Lists and values that may be missing -/

/-- Items that are read one by one are read together. -/
theorem items_eq {α : Type} {read : Path → ν → Reading α} {as : List α} {vs : List ν}
    (hItems : List.Forall₂ (fun a v => ∀ path, read path v = pure a) as vs) (path : Path)
    (index : Nat) : Reading.items read path index vs = pure as := by
  induction hItems generalizing index with
  | nil => rfl
  | cons hItem hRest ih => rw [Reading.items, hItem, pure_bind, ih, pure_bind]

theorem understood_list {α : Type} {shape : Shape} {tree : α → Tree}
    {read : Path → ν → Reading α} (hd : d.Faithful Shows)
    (hItem : Understood Shows shape tree read) :
    Understood Shows (.list shape) (fun as => .list (as.map tree)) (d.list read) := by
  intro as t v path hVariant hShows
  cases hVariant with
  | @list _ _ us hLength hVariants =>
    obtain ⟨vs, hValues, hRead⟩ := hd.items hShows
    have hItems : List.Forall₂ (fun a v => ∀ path, read path v = pure a) as vs := by
      -- the item, the variant of its tree and the value that shows it stand at one index
      rw [List.length_map] at hLength
      rw [List.forall₂_iff_get]
      refine ⟨hLength.trans hValues.length_eq, fun i hAs hVs => ?_⟩
      have hUs : i < us.length := hLength ▸ hAs
      have hShown : Shows (us.get ⟨i, hUs⟩) (vs.get ⟨i, hVs⟩) := hValues.get hUs hVs
      have hPair : (tree (as.get ⟨i, hAs⟩), us.get ⟨i, hUs⟩) ∈ (as.map tree).zip us := by
        rw [List.mem_iff_get]
        refine ⟨⟨i, by simp [hLength, hUs]⟩, ?_⟩
        simp
      exact fun path => hItem _ _ _ path (hVariants _ hPair) hShown
    unfold Dialect.list
    rw [hRead, pure_bind]
    exact items_eq hItems path 0

/-- No variant of a tree is null. -/
def NeverNull (shape : Shape) (tree : α → Tree) : Prop :=
  ∀ a t, Variant shape (tree a) t → t ≠ .null

theorem understood_nullable {α : Type} {shape : Shape} {tree : α → Tree}
    {read : Path → ν → Reading α} (hd : d.Faithful Shows)
    (hInner : Understood Shows shape tree read) (hNull : ∀ a, tree a ≠ .null)
    (hVariants : NeverNull shape tree) :
    Understood Shows (.nullable shape) (fun o => .orNull (o.map tree)) (d.optional read) := by
  intro o t v path hVariant hShows
  cases o with
  | none =>
    have hTree : t = .null := by
      cases hVariant with
      | null => rfl
      | present hNot _ => exact absurd rfl hNot
    unfold Dialect.optional
    rw [hd.null path (hTree ▸ hShows), pure_bind]
  | some a =>
    have hOwn : Variant shape (tree a) t := by
      -- the tree is an index of the relation, so that it must be a variable for the case split
      have hTree : Variant (.nullable shape) (tree a) t := hVariant
      generalize hEq : tree a = t₀ at hTree
      cases hTree with
      | null => exact absurd hEq (hNull a)
      | present _ hOwn => exact hOwn
    unfold Dialect.optional
    rw [hd.present path hShows (hVariants a t hOwn), pure_bind]
    show some <$> read path v = _
    rw [hInner a t v path hOwn hShows, map_pure]

end Values

end PodCompiler
