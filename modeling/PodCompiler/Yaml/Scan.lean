import PodCompiler.Yaml.Token

/-!
# PodCompiler — from text to tokens

Tokens are read off a text from left to right. A token may turn out to be a key only when the colon
behind it is met; until then it waits in a queue, where the marks of the key and of a new mapping
are put before it. Only tokens that have left the queue have been read for certain: an error
behind them cannot take them back.

A text comes in portions. A character that no document may hold makes its portion unreadable, and
with it every token for which that portion has to be looked at.

* `Scanner` is the state between two tokens, `Scanner.next` reads on.
* `Token.scan` is the list of all tokens of a text, up to the first error if there is one: only a
  text without errors has the token for its end.
-/

namespace PodCompiler.Yaml

/-- A token that may turn out to be a key. -/
structure PendingKey where
  /-- The number of tokens before it. -/
  number : Nat
  /-- Whether nothing but a key may stand there. -/
  required : Bool
  mark : Mark
  deriving DecidableEq, Repr

/-- The state between two tokens. -/
structure Scanner where
  rest : List Char
  /-- Whether more follows that cannot be read. -/
  cutOff : Bool
  mark : Mark
  /-- The tokens that wait. -/
  queue : List Token
  /-- The number of tokens that have left the queue. -/
  released : Nat
  /-- The column of the innermost block collection, -1 outside of all. -/
  indent : Int
  /-- The columns of the collections around it. -/
  indents : List Int
  /-- Whether a key may start here. -/
  keyAllowed : Bool
  /-- The token that may turn out to be a key in the innermost flow collection. -/
  pending : Option PendingKey
  /-- The same for the flow collections around it, and for what is around all of them. -/
  outer : List (Option PendingKey)
  deriving DecidableEq, Repr

namespace Scanner

/-- Whether the scanner is inside a flow collection. -/
def inFlow (s : Scanner) : Bool := !s.outer.isEmpty

/-- Adds a token at the end of the queue. -/
def push (t : Token) (s : Scanner) : Scanner := { s with queue := s.queue ++ [t] }

/-- Goes on behind some characters of the same line, each of one octet. -/
def skip (n : Nat) (s : Scanner) : Scanner :=
  { s with rest := s.rest.drop n, mark := s.mark.step n }

/-- Goes on with what follows in the same line, behind characters of one octet. -/
def moveTo (rest : List Char) (s : Scanner) : Scanner :=
  { s with rest, mark := s.mark.step (s.rest.length - rest.length) }

/-! ## Keys -/

/-- Whether a token can no longer become a key: its line is over, or more than 1024 octets lie
behind its start. -/
def isStale (s : Scanner) (k : PendingKey) : Bool :=
  k.mark.line < s.mark.line || k.mark.offset + 1024 < s.mark.offset

/-- Drops a token that can no longer become a key, unless it has to. -/
def dropIfStale (s : Scanner) : Option PendingKey → Option (Option PendingKey)
  | none => some none
  | some k => if s.isStale k then (if k.required then none else some none) else some (some k)

/-- Drops all tokens that can no longer become keys. -/
def dropStale (s : Scanner) : Option Scanner := do
  let pending ← s.dropIfStale s.pending
  let outer ← s.outer.mapM s.dropIfStale
  some { s with pending, outer }

/-- Gives up the token that may turn out to be a key, unless it has to. -/
def dropPending (s : Scanner) : Option Scanner :=
  match s.pending with
  | some k => if k.required then none else some { s with pending := none }
  | none => some s

/-- Notes that the next token may turn out to be a key. -/
def savePending (s : Scanner) : Option Scanner :=
  if s.keyAllowed then do
    let s ← s.dropPending
    let key : PendingKey :=
      { number := s.released + s.queue.length
        required := !s.inFlow && s.indent = s.mark.column
        mark := s.mark }
    some { s with pending := some key }
  else some s

/-! ## Block collections -/

/-- Opens a block collection at a column further in than the innermost one; its mark goes to a
place in the queue. -/
def openBlock (column : Nat) (place : Nat) (t : Token) (s : Scanner) : Scanner :=
  if !s.inFlow && s.indent < column then
    { s with
      queue := s.queue.take place ++ t :: s.queue.drop place
      indents := s.indent :: s.indents
      indent := column }
  else s

/-- Closes the block collections further in than a column. -/
def closeAbove (column : Int) : List Int → Int → List Token → List Token × Int × List Int
  | [], indent, queue => (queue, indent, [])
  | outer :: indents, indent, queue =>
    if column < indent then closeAbove column indents outer (queue ++ [.blockEnd])
    else (queue, indent, outer :: indents)

/-- Closes the block collections further in than a column. -/
def closeBlocks (column : Int) (s : Scanner) : Scanner :=
  if s.inFlow then s
  else
    let (queue, indent, indents) := closeAbove column s.indents s.indent s.queue
    { s with queue, indent, indents }

/-! ## White space -/

/-- Passes over blanks, comments and line breaks, and over a byte order mark at the start of a line.
In block collections a tab is no blank where a key may start, and a key may start in a new line. -/
def passBlanks (inFlow : Bool) :
    List Char → Mark → Bool → Bool → List Char × Mark × Bool
  | [], m, keyAllowed, _ => ([], m, keyAllowed)
  | c :: r, m, keyAllowed, inComment =>
    if isBreak c then passBlanks inFlow r m.newline (keyAllowed || !inFlow) false
    else if inComment then passBlanks inFlow r (m.advance c) keyAllowed true
    else if m.column = 0 && c = byteOrderMark then passBlanks inFlow r (m.advance c) keyAllowed false
    else if c = ' ' || (c = '\t' && (inFlow || !keyAllowed)) then
      passBlanks inFlow r (m.step 1) keyAllowed false
    else if c = '#' then passBlanks inFlow r (m.step 1) keyAllowed true
    else (c :: r, m, keyAllowed)

/-- Goes on to the next token. -/
def toToken (s : Scanner) : Scanner :=
  let (rest, mark, keyAllowed) := passBlanks s.inFlow s.rest s.mark s.keyAllowed false
  { s with rest, mark, keyAllowed }

/-! ## Tokens -/

/-- Ends the text: its last line is over, and everything open is closed. -/
def endStream (s : Scanner) : Option Scanner := do
  let s ← (s.closeBlocks (-1)).dropPending
  some ({ s with mark := s.mark.newline, keyAllowed := false }.push .streamEnd)

/-- Reads a directive. -/
def directive (s : Scanner) : Option Scanner := do
  let s ← (s.closeBlocks (-1)).dropPending
  let (token, rest) ← Token.readDirective (s.rest.drop 1)
  some { s.push token with rest, mark := s.mark.newline, keyAllowed := false }

/-- Reads a marker between documents. -/
def documentMarker (t : Token) (s : Scanner) : Option Scanner := do
  let s ← (s.closeBlocks (-1)).dropPending
  some (({ s with keyAllowed := false }.push t).skip 3)

/-- Opens a flow collection. -/
def openFlow (t : Token) (s : Scanner) : Option Scanner := do
  let s ← s.savePending
  let s := { s with outer := s.pending :: s.outer, pending := none, keyAllowed := true }
  some ((s.push t).skip 1)

/-- Closes a flow collection. -/
def closeFlow (t : Token) (s : Scanner) : Option Scanner := do
  let s ← s.dropPending
  let s :=
    match s.outer with
    | [] => s
    | pending :: outer => { s with pending, outer }
  some (({ s with keyAllowed := false }.push t).skip 1)

/-- Reads a comma between the members of a flow collection. -/
def separator (s : Scanner) : Option Scanner := do
  let s ← s.dropPending
  some (({ s with keyAllowed := true }.push .separator).skip 1)

/-- Reads the mark of an item, which may open a sequence. -/
def item (s : Scanner) : Option Scanner := do
  let s ←
    if s.inFlow then some s
    else if s.keyAllowed then some (s.openBlock s.mark.column s.queue.length .blockSequence)
    else none
  let s ← s.dropPending
  some (({ s with keyAllowed := true }.push .item).skip 1)

/-- Reads the mark of a key, which may open a mapping. -/
def explicitKey (s : Scanner) : Option Scanner := do
  let s ←
    if s.inFlow then some s
    else if s.keyAllowed then some (s.openBlock s.mark.column s.queue.length .blockMapping)
    else none
  let s ← s.dropPending
  some (({ s with keyAllowed := !s.inFlow }.push .key).skip 1)

/-- Makes a token of the queue a key, which may open a mapping. -/
def markKey (k : PendingKey) (s : Scanner) : Scanner :=
  let place := k.number - s.released
  let s := { s with queue := s.queue.take place ++ Token.key :: s.queue.drop place }
  -- the mark of a mapping that opens here takes the same place, and so comes before the key's
  { s.openBlock k.mark.column place .blockMapping with pending := none, keyAllowed := false }

/-- Reads the mark of a value. The key before it is marked, if it has not been yet. -/
def value (s : Scanner) : Option Scanner := do
  let s ←
    match s.pending with
    | some k => some (s.markKey k)
    | none =>
      if s.inFlow then some { s with keyAllowed := false }
      else if s.keyAllowed then some (s.openBlock s.mark.column s.queue.length .blockMapping)
      else none
  some ((s.push .value).skip 1)

/-- Reads an anchor, or a reference to one. -/
def anchor (make : String → Token) (s : Scanner) : Option Scanner := do
  let s ← s.savePending
  let (name, rest) ← Token.readName (s.rest.drop 1)
  some (({ s with keyAllowed := false }.push (make name)).moveTo rest)

/-- Reads a tag. -/
def tag (s : Scanner) : Option Scanner := do
  let s ← s.savePending
  let (token, rest) ← Token.readTag s.rest
  if atBlank rest || (s.inFlow && rest.head? = some ',') then
    some (({ s with keyAllowed := false }.push token).moveTo rest)
  else none

/-- Goes on behind a scalar. -/
def accept (style : Style) (r : ReadScalar) (s : Scanner) : Scanner :=
  { s.push (.scalar style (String.ofList r.text)) with rest := r.rest, mark := r.mark }

/-- Reads a block. -/
def block (folded : Bool) (s : Scanner) : Option Scanner := do
  let s ← s.dropPending
  let r ← readBlock folded s.indent (s.rest.drop 1) (s.mark.step 1)
  some ({ s with keyAllowed := true }.accept (if folded then .folded else .literal) r)

/-- Reads a scalar in quotes. -/
def quoted (single : Bool) (s : Scanner) : Option Scanner := do
  let s ← s.savePending
  let r ← readQuoted single (s.rest.drop 1) (s.mark.step 1) .none []
  some ({ s with keyAllowed := false }.accept (if single then .singleQuoted else .doubleQuoted) r)

/-- Reads a plain scalar. -/
def plain (s : Scanner) : Option Scanner := do
  let s ← s.savePending
  let r ← readPlain s.inFlow (s.indent + 1) s.rest s.mark .none []
  some ({ s with keyAllowed := r.newLine }.accept .plain r)

/-- Whether a plain scalar may start here. -/
def startsPlain (inFlow : Bool) (c : Char) (rest : List Char) : Bool :=
  !(isBlank c || isBreak c || isIndicator c || c ∈ ['-', '?', ':']) ||
    (c = '-' && !rest.head?.any isBlank) ||
    (!inFlow && (c = '?' || c = ':') && !atBlank rest)

/-- Reads the token that starts here. -/
def token (s : Scanner) : Option Scanner :=
  match s.rest with
  | [] => s.endStream
  | c :: rest =>
    -- the first column comes first: a hyphen there may belong to a marker between documents
    if s.mark.column = 0 && c = '%' then s.directive
    else if s.mark.column = 0 && atDocumentMarker (c :: rest) then
      s.documentMarker (if c = '-' then .documentStart else .documentEnd)
    else if c = '[' then s.openFlow .flowSequence
    else if c = '\x7b' then s.openFlow .flowMapping
    else if c = ']' then s.closeFlow .flowSequenceEnd
    else if c = '\x7d' then s.closeFlow .flowMappingEnd
    else if c = ',' then s.separator
    else if c = '-' && atBlank rest then s.item
    else if c = '?' && (s.inFlow || atBlank rest) then s.explicitKey
    else if c = ':' && (s.inFlow || atBlank rest) then s.value
    else if c = '*' then s.anchor .alias
    else if c = '&' then s.anchor .anchor
    else if c = '!' then s.tag
    else if c = '|' && !s.inFlow then s.block false
    else if c = '>' && !s.inFlow then s.block true
    else if c = '\'' then s.quoted true
    else if c = '\x22' then s.quoted false
    else if startsPlain s.inFlow c rest then s.plain
    else none

/-- Refuses to go on if fewer characters than looked at are left of a text that is cut off. -/
def look (count : Nat) (s : Scanner) : Option Scanner :=
  if s.cutOff && (s.rest.drop (count - 1)).isEmpty then none else some s

/-- Goes on to the next token and reads it. Where a token starts four characters are looked at,
and one behind its end. -/
def next (s : Scanner) : Option Scanner := do
  let s ← s.toToken.dropStale
  let s ← s.look 4
  let s ← (s.closeBlocks s.mark.column).token
  s.look 1

/-- Whether the first token of the queue may still turn out to be a key. -/
def headMayBeKey (s : Scanner) : Bool :=
  (s.pending :: s.outer).any fun k => k.any fun k => k.number = s.released

/-- Reads on until the first token of the queue is certain and lets it go; one unit of fuel is
spent on every token that is read or let go. -/
def run : Nat → Scanner → List Token
  | 0, _ => []
  | fuel + 1, s =>
    match s.queue with
    | [] =>
      match s.next with
      | none => []
      | some s => run fuel s
    | t :: queue =>
      -- the first token is certain once nothing that starts at it may become a key
      match s.dropStale with
      | none => []
      | some s =>
        if s.headMayBeKey then
          match s.next with
          | none => []
          | some s => run fuel s
        else if t = .streamEnd then [t]
        else t :: run fuel { s with queue, released := s.released + 1 }

/-- The state before the first token. -/
def start (text : List Char) (cutOff : Bool) : Scanner :=
  { rest := text, cutOff, mark := .start, queue := [], released := 0, indent := -1, indents := []
    keyAllowed := true, pending := none, outer := [] }

end Scanner

/-- A text with line feeds for every line break that is not a Unicode separator. -/
def unifyBreaks : List Char → List Char
  | [] => []
  | '\r' :: '\n' :: rest => '\n' :: unifyBreaks rest
  | c :: rest => (if c = '\r' || c = '\u0085' then '\n' else c) :: unifyBreaks rest

/-- The number of octets that make a portion of a text. -/
def portionSize : Nat := 16384

/-- The number of characters before the first portion with a character that no document may hold,
if there is one. The current portion has `room` for so many octets more and holds `held`
characters; `before` are those of the portions before it. -/
def cutOffAt : List Char → Nat → Nat → Nat → Option Nat
  | [], _, _, _ => none
  | c :: rest, room, held, before =>
    let fits := c.utf8Size ≤ room
    let before := if fits then before else before + held
    if !isAllowed c then some before
    else if fits then cutOffAt rest (room - c.utf8Size) (held + 1) before
    else cutOffAt rest (portionSize - c.utf8Size) 1 before

/-- The tokens of a text. The text is read by portions, and a character that no document may hold
spoils all of its portion. -/
def Token.scan (text : String) : List Token :=
  let cs := text.toList
  let cut := cutOffAt cs portionSize 0 0
  let lines := unifyBreaks (cs.take (cut.getD cs.length))
  -- every character makes at most four tokens: two that close and two that open
  (Scanner.start lines cut.isSome).run (16 * (lines.length + 4))

end PodCompiler.Yaml
