import PodCompiler.Tree

/-!
# PodCompiler — compact text of a value tree

A tree as JSON without any blanks.

* `Tree.compact` is the text; fields come in the order the tree has them.
* `Tree.quoteChar` says how one character of a text is written.
-/

namespace PodCompiler.Tree

/-- One character inside a JSON text: quotes, backslashes and controls are escaped, all else is
written as it is. -/
def quoteChar (c : Char) : List Char :=
  if c = '\x22' then ['\\', '\x22']
  else if c = '\\' then ['\\', '\\']
  else if c = '\x08' then ['\\', 'b']
  else if c = '\x0c' then ['\\', 'f']
  else if c = '\n' then ['\\', 'n']
  else if c = '\r' then ['\\', 'r']
  else if c = '\t' then ['\\', 't']
  else if c < ' ' then
    ['\\', 'u', '0', '0', Nat.digitChar (c.toNat / 16), Nat.digitChar (c.toNat % 16)]
  else [c]

/-- A JSON text between its quotes. -/
def quote (s : String) : List Char := '\x22' :: (s.toList.flatMap quoteChar ++ ['\x22'])

mutual

/-- The characters of a tree's compact text. -/
def compactChars : Tree → List Char
  | .null => "null".toList
  | .bool value => (if value then "true" else "false").toList
  | .int value => (Numeral.ofInt value).toList
  | .float value => (value.text .compact).toList
  | .text value => quote value
  | .list items => '[' :: (compactItems items ++ [']'])
  | .object fields => '\x7b' :: (compactFields fields ++ ['\x7d'])

/-- Items with commas between them. -/
def compactItems : List Tree → List Char
  | [] => []
  | [item] => compactChars item
  | item :: rest => compactChars item ++ ',' :: compactItems rest

/-- Fields with commas between them. -/
def compactFields : List (String × Tree) → List Char
  | [] => []
  | [(name, value)] => quote name ++ ':' :: compactChars value
  | (name, value) :: rest => quote name ++ ':' :: (compactChars value ++ ',' :: compactFields rest)

end

/-- The compact text of a tree. -/
def compact (t : Tree) : String := String.ofList t.compactChars

end PodCompiler.Tree
