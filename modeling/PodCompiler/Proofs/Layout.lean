import PodCompiler.Proofs.Styles

/-!
# PodCompiler — the layout of documents

The layout of a document does not depend on the styles of its texts. `Styling` is any choice of
styles that show the texts faithfully, and `Styling.document` the document in these styles. What is
proved of documents is proved of all of them: of those in the writer's own styles, and of those in
which all texts are in quotes.

* `Styling.chosen` — the styles of the writer; `Styling.quoted` — double quotes for everything.
* `Styling.scalarOf` — what is written as a scalar, and how.

Main result:

* `value_scalar` — scalars are written alike wherever they stand.
-/

namespace PodCompiler.Yaml

/-! ## Choices of styles -/

/-- A style for every text, in which the text is read as this text. -/
structure Styling where
  style : String → Style
  fits (s : String) : Fits s.toList (style s) ∧ (style s = .plain → Plain.ofText s = .text)

namespace Styling

/-- The styles that the writer chooses. -/
def chosen : Styling := { style := chooseStyle, fits := fits_chooseStyle }

/-- All texts, names among them, in double quotes. -/
def quoted : Styling :=
  { style := fun _ => .doubleQuoted, fits := fun _ => ⟨.double, fun hPlain => by cases hPlain⟩ }

/-- The text of a document that holds a tree, in these styles. -/
def document (σ : Styling) (t : Tree) : String := String.ofList (documentChars σ.style t)

end Styling

/-- The writer's documents are those in its own styles. -/
theorem document_chosen (t : Tree) : document t = Styling.chosen.document t := rfl

/-! ## Scalars of a tree -/

/-- The style and the text of a tree that is written as a scalar. -/
def Styling.scalarOf (σ : Styling) : Tree → Option (Style × String)
  | .null => some (.plain, "null")
  | .bool value => some (.plain, if value then "true" else "false")
  | .int value => some (.plain, Numeral.ofInt value)
  | .text value => some (σ.style value, value)
  | _ => none

theorem plainText_words : PlainText "null".toList ∧ PlainText "true".toList ∧
    PlainText "false".toList :=
  ⟨plainText_of_traits (by decide) (by decide), plainText_of_traits (by decide) (by decide),
    plainText_of_traits (by decide) (by decide)⟩

variable {σ : Styling}

theorem fits_scalarOf {t : Tree} {style : Style} {s : String}
    (hScalar : σ.scalarOf t = some (style, s)) : Fits s.toList style := by
  obtain ⟨hNull, hTrue, hFalse⟩ := plainText_words
  cases t with
  | null =>
    obtain ⟨rfl, rfl⟩ := Prod.mk.inj (Option.some.inj hScalar)
    exact .plain hNull
  | bool value =>
    obtain ⟨rfl, rfl⟩ := Prod.mk.inj (Option.some.inj hScalar)
    cases value with
    | true => exact .plain hTrue
    | false => exact .plain hFalse
  | int value =>
    obtain ⟨rfl, rfl⟩ := Prod.mk.inj (Option.some.inj hScalar)
    exact .plain (plainText_ofInt value)
  | text value =>
    obtain ⟨rfl, rfl⟩ := Prod.mk.inj (Option.some.inj hScalar)
    exact (σ.fits value).1
  | float value => cases hScalar
  | list items => cases hScalar
  | object fields => cases hScalar

/-- Scalars are written alike behind the mark of an item and behind the colon of a field. -/
theorem value_scalar {t : Tree} {style : Style} {s : String}
    (hScalar : σ.scalarOf t = some (style, s)) (indent : Nat) :
    itemValue σ.style indent t = ' ' :: endLine (inStyle style (indent + 2) s.toList) ∧
      fieldValue σ.style indent t = ' ' :: endLine (inStyle style (indent + 2) s.toList) := by
  cases t with
  | null =>
    obtain ⟨rfl, rfl⟩ := Prod.mk.inj (Option.some.inj hScalar)
    exact ⟨rfl, rfl⟩
  | bool value =>
    obtain ⟨rfl, rfl⟩ := Prod.mk.inj (Option.some.inj hScalar)
    cases value with
    | true => exact ⟨rfl, rfl⟩
    | false => exact ⟨rfl, rfl⟩
  | int value =>
    obtain ⟨rfl, rfl⟩ := Prod.mk.inj (Option.some.inj hScalar)
    rw [inStyle, endLine_of_inline (plainText_ofInt value).inline]
    exact ⟨rfl, rfl⟩
  | text value =>
    obtain ⟨rfl, rfl⟩ := Prod.mk.inj (Option.some.inj hScalar)
    exact ⟨rfl, rfl⟩
  | float value => cases hScalar
  | list items => cases hScalar
  | object fields => cases hScalar

end PodCompiler.Yaml
