import PodCompiler.Yaml.Scalar
import PodCompiler.Yaml.Style

/-!
# PodCompiler — tokens of YAML

A document as a sequence of tokens: scalars, the marks of flow collections, and the marks of block
collections, which follow from how far a line is moved in.

* `Token` is a token, `Token.readTag`, `Token.readDirective` and `Token.readName` read the parts
  that are neither scalars nor single characters.
-/

namespace PodCompiler.Yaml

/-- A tag as the octets of its text. -/
abbrev Tag := List UInt8

/-- The octets of a text. -/
def octets (s : String) : Tag := s.toUTF8.toList

/-- What a tag's text says: a zero octet ends it. -/
def Tag.spoken (text : Tag) : Tag := text.takeWhile (· ≠ 0)

/-- A token of a document. -/
inductive Token where
  | version (major minor : Nat)
  | tagHandle (handle : String) (replacement : Tag)
  | documentStart
  | documentEnd
  | streamEnd
  | blockSequence
  | blockMapping
  | blockEnd
  | flowSequence
  | flowSequenceEnd
  | flowMapping
  | flowMappingEnd
  | item
  | separator
  | key
  | value
  | alias (name : String)
  | anchor (name : String)
  | tag (handle : String) (suffix : Tag)
  | scalar (style : Style) (text : String)
  deriving DecidableEq, Repr

namespace Token

/-! ## Names -/

/-- Reads the name of an anchor or of a reference to one. -/
def readName (cs : List Char) : Option (String × List Char) :=
  let name := cs.takeWhile isWord
  let rest := cs.dropWhile isWord
  let ends := atBlank rest || rest.head?.any fun c => c ∈ ['?', ':', ',', ']', '\x7d', '%', '@', '\x60']
  if name = [] || !ends then none else some (String.ofList name, rest)

/-! ## Tags -/

/-- A character that a tag shows as it is; inside angle brackets there are three more. -/
def isTagChar (verbatim : Bool) (c : Char) : Bool :=
  isWord c || c ∈ [';', '/', '?', ':', '@', '&', '=', '+', '$', '.', '!', '~', '*', '\'', '(', ')'] ||
    (verbatim && c ∈ [',', '[', ']'])

/-- The number of octets that a first octet announces after itself. -/
def followers (n : Nat) : Option Nat :=
  if n < 0x80 then some 0
  else if 0xc0 ≤ n ∧ n < 0xe0 then some 1
  else if 0xe0 ≤ n ∧ n < 0xf0 then some 2
  else if 0xf0 ≤ n ∧ n < 0xf8 then some 3
  else none

/-- Reads the text of a tag. Octets may be written as two hexadecimal digits behind a percent sign;
`owed` of them must follow the last one. -/
def readTagText (verbatim : Bool) : List Char → Nat → Tag → Option (Tag × List Char)
  | '%' :: a :: b :: rest, owed, done =>
    match Numeral.readNat 16 [a, b] with
    | none => none
    | some n =>
      match owed with
      | 0 => (followers n).bind fun owed => readTagText verbatim rest owed (UInt8.ofNat n :: done)
      | owed + 1 =>
        if 0x80 ≤ n ∧ n < 0xc0 then readTagText verbatim rest owed (UInt8.ofNat n :: done) else none
  | c :: rest, owed, done =>
    if c = '%' ∨ owed ≠ 0 then none
    else if isTagChar verbatim c then readTagText verbatim rest 0 (UInt8.ofNat c.toNat :: done)
    else some (done.reverse, c :: rest)
  | [], owed, done => if owed = 0 then some (done.reverse, []) else none

/-- The handle at the start of a tag: an exclamation mark, perhaps a name, perhaps another
exclamation mark. -/
def readHandle (cs : List Char) : Option (List Char × List Char) :=
  match cs with
  | '!' :: rest =>
    let name := rest.takeWhile isWord
    match rest.dropWhile isWord with
    | '!' :: rest => some ('!' :: (name ++ ['!']), rest)
    | rest => some ('!' :: name, rest)
  | _ => none

/-- Reads a tag from its exclamation mark on: between angle brackets, behind a handle of its own,
or behind the plain mark. The plain mark alone is a tag without a handle. -/
def readTag (cs : List Char) : Option (Token × List Char) :=
  match cs with
  | '!' :: '<' :: rest => do
    let (suffix, rest) ← readTagText true rest 0 []
    match rest with
    | '>' :: rest => if suffix = [] then none else some (.tag "" suffix.spoken, rest)
    | _ => none
  | _ => do
    let (handle, rest) ← readHandle cs
    if handle ≠ ['!'] ∧ handle.getLast? = some '!' then
      let (suffix, rest) ← readTagText false rest 0 []
      if suffix = [] then none else some (.tag (String.ofList handle) suffix.spoken, rest)
    else
      let (suffix, rest) ← readTagText false rest 0 (octets (String.ofList (handle.drop 1))).reverse
      if suffix.spoken = [] then some (.tag "" (octets "!"), rest)
      else some (.tag "!" suffix.spoken, rest)

/-! ## Directives -/

/-- Reads one part of a version: up to nine digits. -/
def readVersionPart (cs : List Char) : Option (Nat × List Char) :=
  let ds := cs.takeWhile Char.isDigit
  if 9 < ds.length then none
  else (Numeral.readNat 10 ds).map fun n => (n, cs.dropWhile Char.isDigit)

/-- Reads a version. -/
def readVersion (cs : List Char) : Option (Token × List Char) := do
  let (major, rest) ← readVersionPart cs
  match rest with
  | '.' :: rest =>
    let (minor, rest) ← readVersionPart rest
    some (.version major minor, rest)
  | _ => none

/-- Reads a tag handle and what it stands for. -/
def readTagHandle (cs : List Char) : Option (Token × List Char) := do
  let (handle, rest) ← readHandle cs
  let closed := handle = ['!'] ∨ handle.getLast? = some '!'
  match rest with
  | c :: _ =>
    if isBlank c ∧ closed then
      let (replacement, rest) ← readTagText true (rest.dropWhile isBlank) 0 []
      if replacement = [] ∨ !atBlank rest then none
      else some (.tagHandle (String.ofList handle) replacement.spoken, rest)
    else none
  | [] => none

/-- Reads a directive from behind its percent sign to the end of its line. -/
def readDirective (cs : List Char) : Option (Token × List Char) := do
  let name := cs.takeWhile isWord
  let rest := cs.dropWhile isWord
  let (token, rest) ←
    if !atBlank rest then none
    else if name = "YAML".toList then readVersion (rest.dropWhile isBlank)
    else if name = "TAG".toList then readTagHandle (rest.dropWhile isBlank)
    else none
  let rest ← restOfLine rest
  some (token, rest)

end Token
end PodCompiler.Yaml
