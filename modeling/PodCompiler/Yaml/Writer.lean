import PodCompiler.Tree
import PodCompiler.Yaml.Style

/-!
# PodCompiler — trees as YAML

The YAML text of a tree in block style: two spaces for every level, sequences at the level of the
field that holds them, one line break at the end.

* `Yaml.documentChars` writes a tree, with a style for each of its texts.
* `Yaml.document` is the text of a whole tree in the styles of `Yaml.chooseStyle`.
-/

namespace PodCompiler.Yaml

/-- A number of spaces. -/
def spaces (n : Nat) : List Char := List.replicate n ' '

/-! ## Scalars -/

/-- The number of hexadecimal digits of an escape, with its letter. -/
def escapeWidth (n : Nat) : Char × Nat :=
  if n ≤ 0xff then ('x', 2) else if n ≤ 0xffff then ('u', 4) else ('U', 8)

/-- The letter of an escape that has one. -/
def escapeLetter (c : Char) : Option Char :=
  if c = '\x00' then some '0'
  else if c = '\x07' then some 'a'
  else if c = '\x08' then some 'b'
  else if c = '\t' then some 't'
  else if c = '\n' then some 'n'
  else if c = '\x0b' then some 'v'
  else if c = '\x0c' then some 'f'
  else if c = '\r' then some 'r'
  else if c = '\x1b' then some 'e'
  else if c = '\x22' then some '\x22'
  else if c = '\\' then some '\\'
  else if c = '\u0085' then some 'N'
  else if c = '\u2028' then some 'L'
  else if c = '\u2029' then some 'P'
  else none

/-- One character inside double quotes. -/
def doubleQuotedChar (c : Char) : List Char :=
  if isPrintable c && !isBreak c && c ≠ '\x22' && c ≠ '\\' then [c]
  else
    match escapeLetter c with
    | some letter => ['\\', letter]
    | none =>
      let width := escapeWidth c.toNat
      '\\' :: width.1 :: Numeral.hexDigits c.toNat width.2

/-- A text in double quotes. -/
def doubleQuoted (cs : List Char) : List Char :=
  '\x22' :: (cs.flatMap doubleQuotedChar ++ ['\x22'])

/-- What stands between single quotes: quotes are doubled, and what follows a line break is moved
in. -/
def singleQuotedBody (indent : Nat) : Bool → List Char → List Char
  | afterBreak, [] => if afterBreak then spaces indent else []
  | afterBreak, c :: rest =>
    if isBreak c then
      (if !afterBreak && c = '\n' then ['\n', c] else [c]) ++ singleQuotedBody indent true rest
    else
      (if afterBreak then spaces indent else []) ++ (if c = '\'' then ['\'', c] else [c]) ++
        singleQuotedBody indent false rest

/-- A text in single quotes. -/
def singleQuoted (indent : Nat) (cs : List Char) : List Char :=
  '\'' :: (singleQuotedBody indent false cs ++ ['\''])

/-- How a block says what becomes of the line breaks at its end: `-` if there is none, `+` if
there are several or nothing else, no sign for a single one. -/
def chompingSign (cs : List Char) : List Char :=
  match cs.reverse with
  | [] => ['-']
  | [c] => if isBreak c then ['+'] else ['-']
  | c :: d :: _ => if isBreak c then (if isBreak d then ['+'] else []) else ['-']

/-- How a block says how far it is moved in, where its first line does not show it. -/
def indentationSign (cs : List Char) : List Char :=
  if isEdge cs.head? then ['2'] else []

/-- The lines of a block; each one that is not empty is moved in. -/
def literalBody (indent : Nat) : Bool → List Char → List Char
  | _, [] => []
  | afterBreak, c :: rest =>
    if isBreak c then c :: literalBody indent true rest
    else (if afterBreak then spaces indent else []) ++ c :: literalBody indent false rest

/-- A literal block. -/
def literal (indent : Nat) (cs : List Char) : List Char :=
  '|' :: (indentationSign cs ++ chompingSign cs ++ '\n' :: literalBody indent true cs)

/-- Ends a line that has not ended yet. -/
def endLine (cs : List Char) : List Char := if isEnded cs.getLast? then cs else cs ++ ['\n']
where
  /-- Whether the last character ends a line. -/
  isEnded (c : Option Char) : Bool := c.any isBreak

/-- A text as a scalar in a style, its further lines moved in. -/
def inStyle (style : Style) (indent : Nat) (cs : List Char) : List Char :=
  match style with
  | .plain => cs
  | .singleQuoted => singleQuoted indent cs
  | .literal => literal indent cs
  | _ => doubleQuoted cs

/-- The text of a number in YAML. -/
def floatText : Binary64 → String
  | .nan => ".nan"
  | .infinite negative => if negative then "-.inf" else ".inf"
  | x => x.text .compact

/-! ## Nodes -/

section Nodes

-- which style each text gets makes no difference to the layout
variable (style : String → Style)

/-- A text as a scalar up to the end of its last line. -/
def scalarLine (indent : Nat) (s : String) : List Char :=
  endLine (inStyle (style s) indent s.toList)

mutual

/-- What follows the colon of a field at a level. -/
def fieldValue (indent : Nat) : Tree → List Char
  | .null => " null\n".toList
  | .bool value => ' ' :: ((if value then "true" else "false").toList ++ ['\n'])
  | .int value => ' ' :: ((Numeral.ofInt value).toList ++ ['\n'])
  | .float value => ' ' :: ((floatText value).toList ++ ['\n'])
  | .text value => ' ' :: scalarLine style (indent + 2) value
  | .list [] => " []\n".toList
  | .list items => '\n' :: itemLines (spaces indent) indent items
  | .object [] => " \x7b\x7d\n".toList
  | .object fields => '\n' :: fieldLines (spaces (indent + 2)) (indent + 2) fields

/-- What follows the mark of an item, or the colon of a field whose key stands on lines of its
own. -/
def itemValue (indent : Nat) : Tree → List Char
  | .null => " null\n".toList
  | .bool value => ' ' :: ((if value then "true" else "false").toList ++ ['\n'])
  | .int value => ' ' :: ((Numeral.ofInt value).toList ++ ['\n'])
  | .float value => ' ' :: ((floatText value).toList ++ ['\n'])
  | .text value => ' ' :: scalarLine style (indent + 2) value
  | .list [] => " []\n".toList
  | .list items => itemLines [' '] (indent + 2) items
  | .object [] => " \x7b\x7d\n".toList
  | .object fields => fieldLines [' '] (indent + 2) fields

/-- The items of a sequence at a level; the first stands behind the given blanks. -/
def itemLines (before : List Char) (indent : Nat) : List Tree → List Char
  | [] => []
  | item :: rest =>
    before ++ '-' :: (itemValue indent item ++ itemLines (spaces indent) indent rest)

/-- The fields of a mapping at a level; the first stands behind the given blanks. A key that is
too long or has several lines is marked by a question mark. -/
def fieldLines (before : List Char) (indent : Nat) : List (String × Tree) → List Char
  | [] => []
  | (key, value) :: rest =>
    let field :=
      if isSimpleKey key then
        inStyle (style key) indent key.toList ++ ':' :: fieldValue indent value
      else
        '?' :: ' ' :: (scalarLine style (indent + 2) key ++ spaces indent ++
          ':' :: itemValue indent value)
    before ++ field ++ fieldLines (spaces indent) indent rest

end

/-- The characters of a document that holds a tree. -/
def documentChars : Tree → List Char
  | .object [] => "\x7b\x7d\n".toList
  | .object fields => fieldLines style [] 0 fields
  | .list [] => "[]\n".toList
  | .list items => itemLines style [] 0 items
  | .text value => scalarLine style 2 value
  | t => (itemValue style 0 t).drop 1

end Nodes

/-- The text of a document that holds a tree, each text in the style that it gets. -/
def document (t : Tree) : String := String.ofList (documentChars chooseStyle t)

end PodCompiler.Yaml
