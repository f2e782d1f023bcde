import PodCompiler.Yaml.Node
import PodCompiler.Yaml.Plain
import PodCompiler.Record

/-!
# PodCompiler — documents as a notation

How the nodes of a document are looked at when records are read.

* `Yaml.dialect` is the view. References are followed; a text is any scalar as it is written, while
  truth values and numbers are plain scalars, or blocks with the tag of the type. An empty plain
  scalar stands for a list, a map or a record without members.
* `Yaml.meaning` is what a scalar would mean by itself, for refusals in the words of
  `Yaml.wording`.
-/

namespace PodCompiler.Yaml

/-- The words of refusals. -/
def wording : Wording := { null := "unit value", float := .plain }

/-! ## Tags -/

/-- The tag of truth values. -/
def boolTag : Tag := octets "tag:yaml.org,2002:bool"

/-- The tag of whole numbers. -/
def intTag : Tag := octets "tag:yaml.org,2002:int"

/-- The tag of other numbers. -/
def floatTag : Tag := octets "tag:yaml.org,2002:float"

/-- The tag of null. -/
def nullTag : Tag := octets "tag:yaml.org,2002:null"

/-- Whether a tag is local to the document: it starts with an exclamation mark. -/
def isLocal (tag : Tag) : Bool := tag.head? = some 33

/-- The name in a local tag; an exclamation mark by itself is its own name. -/
def localName (tag : Option Tag) : Option String :=
  match tag with
  | some (33 :: []) => some "!"
  | some (33 :: name) => String.fromUTF8? (ByteArray.mk name.toArray)
  | _ => none

/-! ## Scalars by themselves -/

/-- A whole number as it is found: more than sixty-four bits are remarkable. -/
def foundInt (n : Int) : Found :=
  if -9223372036854775808 ≤ n ∧ n ≤ 18446744073709551615 then .int n else .wideInt n

/-- What a plain scalar means without regard to tags. -/
def plainMeaning (text : String) : Found :=
  match Plain.ofText text with
  | .null => .null
  | .bool value => .bool value
  | .int value => foundInt value
  | .float value => .float value
  | .text => .text text

/-- What a scalar means by itself. A tag of a core type must fit the text. -/
def meaning (expected : String) (tag : Option Tag) (style : Style) (text : String) : Cause :=
  let fitting (found : Option Found) (word : String) : Cause :=
    match found with
    | some found => .invalidType found expected
    | none => .invalidValue (.text text) word
  match tag with
  | none =>
    .invalidType (if style = .plain then plainMeaning text else .text text) expected
  | some tag =>
    if tag = boolTag then fitting ((Plain.truth text).map .bool) "a boolean"
    else if tag = intTag then
      fitting (((Plain.integer text.toList).filter Plain.isWhole).map foundInt) "an integer"
    else if tag = floatTag then fitting ((Plain.number text).map .float) "a float"
    else if tag = nullTag then fitting (if Plain.isNull text then some .null else none) "null"
    else if isLocal tag && style = .plain then .invalidType (plainMeaning text) expected
    else .invalidType (.text text) expected

/-- Whether a scalar may be a value of the type that a tag names: it is plain, or a literal block
with that tag. -/
def mayBe (coreTag : Tag) (tag : Option Tag) (style : Style) : Bool :=
  style = .plain || (style = .literal && tag = some coreTag)

/-! ## Views -/

/-- Whether the text is not broken off inside a node. -/
def Node.isWhole : Node → Bool
  | .cut => false
  | .sequence _ items => wholeItems items
  | .mapping _ entries => wholeEntries entries
  | _ => true
where
  /-- The same for items. -/
  wholeItems : List Node → Bool
    | [] => true
    | item :: rest => item.isWhole && wholeItems rest
  /-- The same for entries. -/
  wholeEntries : List (Node × Node) → Bool
    | [] => true
    | (key, value) :: rest => key.isWhole && value.isWhole && wholeEntries rest

namespace Document

variable (doc : Document)

/-- A node itself, or the one that a reference stands for. -/
def resolve : Node → Reading Node
  | .alias anchor => do
    Reading.follow
    match doc.follow anchor with
    | some target => pure target
    | none => Reading.malformed
  | node => pure node

/-- Refuses a node of the wrong kind; where the text is broken off that is the fault. -/
def mistaken (expected : String) (path : Path) : Node → Reading α
  | .scalar tag style text => .refuse path (meaning expected tag style text)
  | .sequence .. => .refuse path (.invalidType .sequence expected)
  | .mapping .. => .refuse path (.invalidType .map expected)
  | _ => Reading.malformed

/-- Reads a text, which a refusal calls by the given words. -/
def readName (expected : String) (path : Path) (v : Node) : Reading String := do
  match ← doc.resolve v with
  | .scalar _ _ text => pure text
  | node => mistaken expected path node

/-- Reads a truth value. -/
def readBool (path : Path) (v : Node) : Reading Bool := do
  match ← doc.resolve v with
  | .scalar tag style text =>
    match if mayBe boolTag tag style then Plain.truth text else none with
    | some value => pure value
    | none => mistaken "a boolean" path (.scalar tag style text)
  | node => mistaken "a boolean" path node

/-- Reads a whole number of a width. -/
def readInt (width : IntWidth) (path : Path) (v : Node) : Reading Int := do
  match ← doc.resolve v with
  | .scalar tag style text =>
    let value? := if mayBe intTag tag style then Plain.integer text.toList else none
    match value?.filter IntWidth.bits64.holds with
    | some n =>
      if width.holds n then pure n else .refuse path (.invalidValue (.int n) width.word)
    | none => mistaken width.word path (.scalar tag style text)
  | node => mistaken width.word path node

/-- Whether a node stands for a collection without members. -/
def isVacant : Node → Bool
  | .void => true
  | .scalar _ style text => style = .plain && text = ""
  | _ => false

/-- The items of a list. -/
def readItems (path : Path) (v : Node) : Reading (List Node) := do
  match ← doc.resolve v with
  | .sequence _ items => pure items
  | node => if isVacant node then pure [] else mistaken "a sequence" path node

/-- The entries of a map or a record. -/
def readEntries (expected : String) (path : Path) (v : Node) : Reading (List (Node × Node)) := do
  match ← doc.resolve v with
  | .mapping _ entries => pure entries
  | node => if isVacant node then pure [] else mistaken expected path node

/-- The members of a record. -/
def readMembers (title : String) (path : Path) (v : Node) : Reading (Members Node) :=
  .named <$> doc.readEntries title path v

/-- A value that is not null. A wrong tag of null is refused at the record's place. -/
def readPresent (path : Path) (v : Node) : Reading (Option Node) := do
  match ← doc.resolve v with
  | .scalar tag .plain text =>
    let present := some (.scalar tag .plain text)
    match tag with
    | none => pure (if text = "" || Plain.isNull text then none else present)
    | some tag =>
      if tag ≠ nullTag then pure present
      else if Plain.isNull text then pure none
      else .refuse path.parent (.invalidValue (.text text) "null")
  | .void => pure none
  | .cut => Reading.malformed
  | node => pure (some node)

/-- A name out of a set: the text of a scalar, or a local tag on nothing. -/
def readVariant (path : Path) (v : Node) : Reading String := do
  match ← doc.resolve v with
  | .scalar tag style text =>
    match localName tag with
    | none => pure text
    | some name =>
      if style = .plain && (text = "" || Plain.isNull text) then pure name
      else .refuse path (.invalidValue (.text text) "null")
  | .sequence tag _ =>
    match localName tag with
    | none => .refuse path (.invalidType .sequence "a YAML tag starting with '!'")
    | some _ => .refuse path (.invalidType .sequence "unit")
  | .mapping tag _ =>
    match localName tag with
    | none => .refuse path (.invalidType .map "a YAML tag starting with '!'")
    | some _ => .refuse path (.invalidType .map "unit")
  | _ => Reading.malformed

end Document

/-- The place of a key's value. A key that is no scalar itself leaves it without a name. -/
def stepTo (path : Path) : Node → Path
  | .scalar _ _ text => .field path text
  | _ => .unnamed path

/-- Passes over a node. -/
def pass (v : Node) : Reading Unit := if v.isWhole then pure () else Reading.malformed

/-- The nodes of a document as a notation. -/
def dialect (doc : Document) : Dialect Node where
  text := doc.readName "a string"
  bool := doc.readBool
  int := doc.readInt
  items := doc.readItems
  entries := doc.readEntries "a map"
  members := doc.readMembers
  variant := doc.readVariant
  present := doc.readPresent
  name := doc.readName
  step := stepTo
  skip := pass

end PodCompiler.Yaml
