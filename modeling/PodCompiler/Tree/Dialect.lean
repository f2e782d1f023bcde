import PodCompiler.Tree
import PodCompiler.Record

/-!
# PodCompiler — value trees as a notation

How the values of a tree are looked at when records are read: a record is an object, or a list of
its fields in order; a name out of a set is a text, or an object whose only field is null.

* `Tree.dialect` is the view, `Tree.wording` the words of its refusals.
-/

namespace PodCompiler.Tree

/-- The words of refusals. -/
def wording : Wording := { null := "null", float := .compact }

/-- What a tree is, for a refusal. -/
def found : Tree → Found
  | .null => .null
  | .bool value => .bool value
  | .int value => .int value
  | .float value => .float value
  | .text value => .text value
  | .list _ => .sequence
  | .object _ => .map

/-- Refuses a tree of the wrong kind. -/
def mistaken (expected : String) (path : Path) (t : Tree) : Reading α :=
  .refuse path (.invalidType t.found expected)

/-- Reads a text. -/
def readText (path : Path) : Tree → Reading String
  | .text value => pure value
  | t => t.mistaken "a string" path

/-- Reads a truth value. -/
def readBool (path : Path) : Tree → Reading Bool
  | .bool value => pure value
  | t => t.mistaken "a boolean" path

/-- Reads a whole number of a width. -/
def readInt (width : IntWidth) (path : Path) : Tree → Reading Int
  | .int value =>
    if width.holds value then pure value
    else .refuse path (.invalidValue (.int value) width.word)
  | t => t.mistaken width.word path

/-- The items of a list. -/
def readItems (path : Path) : Tree → Reading (List Tree)
  | .list items => pure items
  | t => t.mistaken "a sequence" path

/-- The fields of an object, each name as a text. -/
def keyed (fields : List (String × Tree)) : List (Tree × Tree) :=
  fields.map fun f => (.text f.1, f.2)

/-- The entries of a map. -/
def readEntries (path : Path) : Tree → Reading (List (Tree × Tree))
  | .object fields => pure (keyed fields)
  | t => t.mistaken "a map" path

/-- The members of a record. -/
def readMembers (title : String) (path : Path) : Tree → Reading (Members Tree)
  | .object fields => pure (.named (keyed fields))
  | .list items => pure (.positional items)
  | t => t.mistaken title path

/-- A name out of a set. -/
def readVariant (path : Path) : Tree → Reading String
  | .text name => pure name
  | .object [(name, .null)] => pure name
  | .object [(_, t)] => t.mistaken "unit" path
  | .object _ => .refuse path (.invalidValue .map "map with a single key")
  | t => t.mistaken "string or map" path

/-- A value that is not null. -/
def readPresent (_path : Path) : Tree → Reading (Option Tree)
  | .null => pure none
  | t => pure (some t)

/-- The name that a key spells. -/
def readName (expected : String) (path : Path) : Tree → Reading String
  | .text name => pure name
  | t => t.mistaken expected path

/-- The place of a key's value. -/
def stepTo (path : Path) : Tree → Path
  | .text name => .field path name
  | _ => .unnamed path

/-- Value trees as a notation. -/
def dialect : Dialect Tree where
  text := readText
  bool := readBool
  int := readInt
  items := readItems
  entries := readEntries
  members := readMembers
  variant := readVariant
  present := readPresent
  name := readName
  step := stepTo
  skip := fun _ => pure ()

end PodCompiler.Tree
