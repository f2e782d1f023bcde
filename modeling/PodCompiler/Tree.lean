import PodCompiler.Binary64

/-!
# PodCompiler — value trees

The values that a specification is read from and that objects are written as: null, truth values,
whole and other numbers, texts, lists, and objects with named fields. The order of an object's
fields is the order in which they are read or written; it has no other meaning.

* `Tree` is the type; `Tree.fields` builds an object out of fields that may be absent.
* `Tree.induction` proves something of all trees from the members of lists and objects.
-/

namespace PodCompiler

/-- A value tree. -/
inductive Tree where
  | null
  | bool (value : Bool)
  | int (value : Int)
  | float (value : Binary64)
  | text (value : String)
  | list (items : List Tree)
  | object (fields : List (String × Tree))
  deriving Inhabited

namespace Tree

/-- What holds of a list whenever it holds of the items, of an object whenever it holds of the
values of the fields, and of all other trees, holds of every tree. -/
@[elab_as_elim] theorem induction {motive : Tree → Prop} (null : motive .null)
    (bool : ∀ value, motive (.bool value)) (int : ∀ value, motive (.int value))
    (float : ∀ value, motive (.float value)) (text : ∀ value, motive (.text value))
    (list : ∀ items, (∀ t ∈ items, motive t) → motive (.list items))
    (object : ∀ fields, (∀ e ∈ fields, motive e.2) → motive (.object fields)) (t : Tree) :
    motive t :=
  match t with
  | .null => null
  | .bool value => bool value
  | .int value => int value
  | .float value => float value
  | .text value => text value
  | .list items => list items fun t _ => induction null bool int float text list object t
  | .object fields => object fields fun e _ => induction null bool int float text list object e.2
termination_by sizeOf t
decreasing_by
  · have hMember := List.sizeOf_lt_of_mem ‹t ∈ items›
    simp only [Tree.list.sizeOf_spec]
    omega
  · have hMember := List.sizeOf_lt_of_mem ‹e ∈ fields›
    have hValue : sizeOf e = 1 + sizeOf e.1 + sizeOf e.2 := by cases e; rfl
    simp only [Tree.object.sizeOf_spec]
    omega

/-- An object of those fields that are present. -/
def fields (entries : List (String × Option Tree)) : Tree :=
  .object (entries.filterMap fun e => e.2.map (e.1, ·))

/-- A value that may be missing, null if it is. -/
def orNull : Option Tree → Tree
  | none => .null
  | some t => t

/-- A whole number of thirty-two bits. -/
def int32 (n : Int32) : Tree := .int n.toInt

/-- A whole number of sixty-four bits. -/
def int64 (n : Int64) : Tree := .int n.toInt

/-- A list of texts. -/
def texts (values : List String) : Tree := .list (values.map .text)

/-- An object whose values are texts. -/
def textFields (entries : List (String × String)) : Tree :=
  .object (entries.map fun e => (e.1, .text e.2))

end Tree
end PodCompiler
