import PodCompiler.Yaml.Character
import PodCompiler.Numeral

/-!
# PodCompiler — reading scalars

How the text of a scalar is read off a document, style by style. The document's line breaks are
taken to be line feeds and the two Unicode separators; every reader returns what follows the
scalar and the place it has come to.

* `Yaml.Gap` is white space between words: blanks are kept, a single line feed becomes a space,
  and of several line breaks the first is dropped.
* `Yaml.readQuoted` reads scalars in quotes, `Yaml.readPlain` those without, `Yaml.readBlock`
  literal and folded blocks.
-/

namespace PodCompiler.Yaml

/-- A place in a document: the number of lines before it, and of characters and octets before it in
its line. -/
structure Mark where
  line : Nat
  column : Nat
  offset : Nat
  deriving DecidableEq, Repr, Inhabited

namespace Mark

/-- The start of a document. -/
def start : Mark := { line := 0, column := 0, offset := 0 }

/-- The place some characters of one octet further on in the same line. -/
def step (m : Mark) (n : Nat) : Mark :=
  { m with column := m.column + n, offset := m.offset + n }

/-- The place behind a character in the same line. -/
def advance (m : Mark) (c : Char) : Mark :=
  { m with column := m.column + 1, offset := m.offset + c.utf8Size }

/-- The start of the next line. -/
def newline (m : Mark) : Mark := { line := m.line + 1, column := 0, offset := 0 }

end Mark

/-- A text that was read, what follows it, and the place where that begins. -/
structure ReadScalar where
  text : List Char
  rest : List Char
  mark : Mark
  /-- Whether the line has changed since the last character of the text. -/
  newLine : Bool := false
  deriving DecidableEq, Repr

/-! ## White space between words -/

/-- White space between words. -/
inductive Gap where
  | none
  /-- Blanks within a line. -/
  | blanks (chars : List Char)
  /-- Line breaks with whatever blanks about them; the first may have been escaped. -/
  | breaks (first : Option Char) (later : List Char)
  deriving DecidableEq, Repr

namespace Gap

/-- Goes on with a blank. -/
def addBlank (c : Char) : Gap → Gap
  | .none => .blanks [c]
  | .blanks chars => .blanks (chars ++ [c])
  | .breaks first later => .breaks first later

/-- Goes on with a line break. -/
def addBreak (c : Char) : Gap → Gap
  | .breaks first later => .breaks first (later ++ [c])
  | _ => .breaks (some c) []

/-- Whether there is a line break. -/
def isBroken : Gap → Bool
  | .breaks .. => true
  | _ => false

/-- Whether there is any white space. -/
def isSome : Gap → Bool
  | .none => false
  | _ => true

/-- What white space contributes to the text. -/
def text : Gap → List Char
  | .none => []
  | .blanks chars => chars
  | .breaks .none later => later
  | .breaks (some c) later => if c ≠ '\n' then c :: later else if later = [] then [' '] else later

end Gap

/-! ## Scalars in quotes -/

/-- The character that an escape of one letter stands for. -/
def escaped (c : Char) : Option Char :=
  if c = '0' then some '\x00'
  else if c = 'a' then some '\x07'
  else if c = 'b' then some '\x08'
  else if c = 't' ∨ c = '\t' then some '\t'
  else if c = 'n' then some '\n'
  else if c = 'v' then some '\x0b'
  else if c = 'f' then some '\x0c'
  else if c = 'r' then some '\r'
  else if c = 'e' then some '\x1b'
  else if c = ' ' ∨ c = '\x22' ∨ c = '/' ∨ c = '\\' then some c
  else if c = 'N' then some '\u0085'
  else if c = '_' then some '\u00a0'
  else if c = 'L' then some '\u2028'
  else if c = 'P' then some '\u2029'
  else none

/-- The character of a code that is written in hexadecimal digits. -/
def codePoint (digits : List Char) : Option Char :=
  (Numeral.readNat 16 digits).bind fun n => if n.isValidChar then some (Char.ofNat n) else none

/-- Reads a scalar in single or double quotes from behind its opening quote. `done` holds the
characters read so far, the last one first. -/
def readQuoted (single : Bool) : List Char → Mark → Gap → List Char → Option ReadScalar
  | [], _, _, _ => none
  | c :: r, m, gap, done =>
    if isBlank c then readQuoted single r (m.step 1) (gap.addBlank c) done
    else if isBreak c then readQuoted single r m.newline (gap.addBreak c) done
    else if m.column = 0 && atDocumentMarker (c :: r) then none
    else
      let done := gap.text.reverse ++ done
      match single with
      | true =>
        if c = '\'' then
          -- a quote is doubled to stand for itself
          match r with
          | '\'' :: r => readQuoted single r (m.step 2) .none ('\'' :: done)
          | _ => some { text := done.reverse, rest := r, mark := m.step 1 }
        else readQuoted single r (m.advance c) .none (c :: done)
      | false =>
        if c = '\x22' then some { text := done.reverse, rest := r, mark := m.step 1 }
        else if c = '\\' then
          match r with
          | [] => none
          | e :: r =>
            -- an escaped line break takes part in no folding
            if isBreak e then readQuoted single r m.newline (.breaks none []) done
            else if e = 'x' then
              match r with
              | a :: b :: r =>
                (codePoint [a, b]).bind fun x => readQuoted single r (m.step 4) .none (x :: done)
              | _ => none
            else if e = 'u' then
              match r with
              | a :: b :: c :: d :: r =>
                (codePoint [a, b, c, d]).bind fun x =>
                  readQuoted single r (m.step 6) .none (x :: done)
              | _ => none
            else if e = 'U' then
              match r with
              | a :: b :: c :: d :: e :: f :: g :: h :: r =>
                (codePoint [a, b, c, d, e, f, g, h]).bind fun x =>
                  readQuoted single r (m.step 10) .none (x :: done)
              | _ => none
            else
              (escaped e).bind fun x => readQuoted single r (m.step 2) .none (x :: done)
        else readQuoted single r (m.advance c) .none (c :: done)

/-! ## Plain scalars -/

/-- A character that ends a plain scalar inside brackets. -/
def isFlowMark (c : Char) : Bool := c = ',' || c = '[' || c = ']' || c = '\x7b' || c = '\x7d'

/-- Reads a plain scalar. Its lines stand at the column `indent` or further in, unless it is
inside brackets. -/
def readPlain (inFlow : Bool) (indent : Int) :
    List Char → Mark → Gap → List Char → Option ReadScalar
  | [], m, gap, done => some { text := done.reverse, rest := [], mark := m, newLine := gap.isBroken }
  | c :: r, m, gap, done =>
    if isBlank c then
      -- a tab does not count as indentation
      if gap.isBroken && m.column < indent && c = '\t' then none
      else readPlain inFlow indent r (m.step 1) (gap.addBlank c) done
    else if isBreak c then readPlain inFlow indent r m.newline (gap.addBreak c) done
    else if gap.isSome && ((!inFlow && m.column < indent) ||
        (m.column = 0 && atDocumentMarker (c :: r)) || c = '#') then
      some { text := done.reverse, rest := c :: r, mark := m, newLine := gap.isBroken }
    else if inFlow && c = ':' && r.head?.any (fun d => isFlowMark d || d = '?') then none
    else if (c = ':' && atBlank r) || (inFlow && isFlowMark c) then
      some { text := done.reverse, rest := c :: r, mark := m, newLine := gap.isBroken }
    else readPlain inFlow indent r (m.advance c) .none (c :: (gap.text.reverse ++ done))

/-! ## Blocks -/

/-- What becomes of the line breaks at the end of a block. -/
inductive Chomping where
  | strip
  | clip
  | keep
  deriving DecidableEq, Repr

/-- The first line of a block: what becomes of its line breaks, and how far it is moved in if that
is said. -/
structure BlockHeader where
  chomping : Chomping
  increment : Option Nat
  deriving DecidableEq, Repr

/-- The sign for what becomes of the line breaks. -/
def chompingOf (c : Char) : Option Chomping :=
  if c = '-' then some .strip else if c = '+' then some .keep else none

/-- The digit for how far a block is moved in; zero is refused. -/
def incrementOf (c : Char) : Option (Option Nat) :=
  if '0' ≤ c ∧ c ≤ '9' then
    some (if c = '0' then none else some (c.toNat - '0'.toNat))
  else none

/-- Reads the signs behind a block's mark, in either order. -/
def readBlockHeader : List Char → Option (BlockHeader × List Char)
  | c :: r =>
    match chompingOf c with
    | some chomping =>
      match r with
      | d :: r' =>
        match incrementOf d with
        | some none => none
        | some (some n) => some ({ chomping, increment := some n }, r')
        | none => some ({ chomping, increment := none }, r)
      | [] => some ({ chomping, increment := none }, [])
    | none =>
      match incrementOf c with
      | some none => none
      | some (some n) =>
        match r with
        | d :: r' =>
          match chompingOf d with
          | some chomping => some ({ chomping, increment := some n }, r')
          | none => some ({ chomping := .clip, increment := some n }, r)
        | [] => some ({ chomping := .clip, increment := some n }, [])
      | none => some ({ chomping := .clip, increment := none }, c :: r)
  | [] => some ({ chomping := .clip, increment := none }, [])

/-- Passes over blanks and a comment; what is left of the line must be empty. -/
def restOfLine (cs : List Char) : Option (List Char) :=
  let cs := cs.dropWhile isBlank
  let cs := if cs.head? = some '#' then cs.dropWhile (fun c => !isBreak c) else cs
  match cs with
  | [] => some []
  | c :: r => if isBreak c then some r else none

/-- The empty lines before a block's first line. -/
structure BlockLead where
  rest : List Char
  mark : Mark
  /-- The furthest column that was reached. -/
  widest : Nat
  breaks : List Char

/-- Reads the empty lines before a block's first line. Spaces up to the column `indent` are passed
over, all of them if it is not known yet; a tab among them is refused. -/
def readBlockLead (indent : Option Nat) :
    List Char → Mark → Nat → List Char → Option BlockLead
  | [], m, widest, breaks => some ⟨[], m, max widest m.column, breaks⟩
  | c :: r, m, widest, breaks =>
    let before := indent.all (m.column < ·)
    if c = ' ' && before then readBlockLead indent r (m.step 1) widest breaks
    else if c = '\t' && before then none
    else if isBreak c then
      readBlockLead indent r m.newline (max widest m.column) (breaks ++ [c])
    else some ⟨c :: r, m, max widest m.column, breaks⟩

/-- The part of a block read so far. -/
structure Block where
  /-- The characters read so far, the last one first. -/
  done : List Char
  /-- The line break of the last line. -/
  leading : Option Char
  /-- The empty lines since. -/
  trailing : List Char
  /-- Whether the last line starts with a blank. -/
  indented : Bool

/-- Starts a new line: the line breaks before it are added, or folded into a space between lines
that do not start with a blank. -/
def Block.startLine (folded blank : Bool) (b : Block) : Block :=
  let folds := folded && b.leading = some '\n' && !b.indented && !blank
  let lead :=
    if folds then (if b.trailing = [] then [' '] else []) else b.leading.toList
  { done := b.trailing.reverse ++ (lead.reverse ++ b.done)
    leading := none
    trailing := []
    indented := blank }

/-- Adds a character to the current line. -/
def Block.push (c : Char) (b : Block) : Block := { b with done := c :: b.done }

/-- Reads the lines of a block that stand at a column. -/
def readBlockLines (folded : Bool) (indent : Nat) :
    List Char → Mark → Bool → Block → Option (Block × List Char × Mark)
  | [], m, _, b => some (b, [], m)
  | c :: r, m, true, b =>
    if isBreak c then readBlockLines folded indent r m.newline false { b with leading := some c }
    else readBlockLines folded indent r (m.advance c) true (b.push c)
  | c :: r, m, false, b =>
    if c = ' ' && m.column < indent then readBlockLines folded indent r (m.step 1) false b
    else if c = '\t' && m.column < indent then none
    else if isBreak c then
      readBlockLines folded indent r m.newline false { b with trailing := b.trailing ++ [c] }
    else if m.column = indent then
      readBlockLines folded indent r (m.advance c) true ((b.startLine folded (isBlank c)).push c)
    else some (b, c :: r, m)

/-- The text of a block. -/
def Block.text (chomping : Chomping) (b : Block) : List Char :=
  match chomping with
  | .strip => b.done.reverse
  | .clip => b.done.reverse ++ b.leading.toList
  | .keep => b.done.reverse ++ b.leading.toList ++ b.trailing

/-- Reads a block from behind its mark, within a collection at the column `outer`. -/
def readBlock (folded : Bool) (outer : Int) (cs : List Char) (m : Mark) : Option ReadScalar := do
  let (header, cs) ← readBlockHeader cs
  let rest ← restOfLine cs
  -- a block without any line stays where its header ends
  let start := m.newline
  let given := header.increment.map fun n => (if 0 ≤ outer then outer.toNat + n else n)
  let lead ← readBlockLead given rest start 0 []
  -- without a number the first line decides, or the widest of the empty ones if there is no line
  let indent := given.getD (max lead.widest (max (outer + 1).toNat 1))
  let (block, rest, mark) ← readBlockLines folded indent lead.rest lead.mark false
    { done := [], leading := none, trailing := lead.breaks, indented := false }
  some { text := block.text header.chomping, rest, mark }

end PodCompiler.Yaml
