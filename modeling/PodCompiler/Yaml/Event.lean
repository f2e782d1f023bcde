import PodCompiler.Yaml.Scan

/-!
# PodCompiler — from tokens to events

The structure of a document as a sequence of events: scalars, references, and the starts and ends
of collections. What is expected next is a stack of states; every step looks at the next token,
makes one event, and says what is expected afterwards.

* `Event` is an event, `Expect` a state, `Machine.step` one step.
* `Event.ofTokens` is the list of all events, up to the first error if there is one: only tokens
  without errors have the event for the end of the stream.
-/

namespace PodCompiler.Yaml

/-- What may be said about a node before it starts. -/
structure Properties where
  anchor : Option String := none
  tag : Option Tag := none
  deriving DecidableEq, Repr, Inhabited

/-- An event of a stream of documents. -/
inductive Event where
  | documentStart
  | documentEnd
  | streamEnd
  | alias (name : String)
  | scalar (properties : Properties) (style : Style) (text : String)
  | sequenceStart (properties : Properties)
  | sequenceEnd
  | mappingStart (properties : Properties)
  | mappingEnd
  deriving DecidableEq, Repr

/-- What is expected next. -/
inductive Expect where
  /-- A document; the first of a stream needs no marker. -/
  | document (first : Bool)
  /-- What follows the marker of a document. -/
  | content
  | documentEnd
  /-- A node in block style, also a sequence at the column of its field if that is allowed. -/
  | blockNode (unindented : Bool)
  | flowNode
  | blockItem (first : Bool)
  | unindentedItem
  | blockKey (first : Bool)
  | blockValue
  | flowItem (first : Bool)
  /-- The key, the value and the end of a mapping with one entry within a flow sequence. -/
  | singleKey
  | singleValue
  | singleEnd
  | flowKey (first : Bool)
  | flowValue (absent : Bool)
  deriving DecidableEq, Repr

/-- What tag handles stand for. -/
abbrev Handles := List (String × Tag)

/-- The handles that need not be declared. -/
def standardHandles : Handles := [("!", octets "!"), ("!!", octets "tag:yaml.org,2002:")]

/-- The state between two events. -/
structure Machine where
  tokens : List Token
  /-- What is expected next, and after that. -/
  expected : List Expect
  handles : Handles
  deriving DecidableEq, Repr

namespace Machine

/-- A step's outcome: an event and the state after it. -/
abbrev Step := Option (Event × Machine)

/-- Goes on behind the next token. -/
def drop (m : Machine) : Machine := { m with tokens := m.tokens.drop 1 }

/-- Makes an event and expects something next. -/
def emit (e : Event) (expected : List Expect) (m : Machine) : Step :=
  some (e, { m with expected })

/-- Makes the empty scalar that stands for a node that is left out. -/
def emitEmpty (expected : List Expect) (m : Machine) : Step :=
  m.emit (.scalar {} .plain "") expected

/-! ## Documents -/

/-- Reads the directives before a document: at most one version, which must be known, and no
handle twice. -/
def readDirectives : List Token → Bool → Handles → Option (List Token × Handles)
  | .version major minor :: rest, seen, handles =>
    if seen || major ≠ 1 || (minor ≠ 1 && minor ≠ 2) then none
    else readDirectives rest true handles
  | .tagHandle handle replacement :: rest, seen, handles =>
    if handles.any (·.1 = handle) then none
    else readDirectives rest seen (handles ++ [(handle, replacement)])
  | tokens, _, handles => some (tokens, handles)

/-- The declared handles, and the standard ones that were not declared. -/
def completeHandles (declared : Handles) : Handles :=
  declared ++ standardHandles.filter fun h => !declared.any (·.1 = h.1)

/-- Reads the start of a document, or the end of the stream. -/
def documentStep (first : Bool) (m : Machine) : Step :=
  let tokens := if first then m.tokens else m.tokens.dropWhile (· = .documentEnd)
  let explicit := !first ||
    match tokens with
    | .version .. :: _ => true
    | .tagHandle .. :: _ => true
    | .documentStart :: _ => true
    | _ => false
  match tokens with
  | [] => none
  | .streamEnd :: rest => some (.streamEnd, { m with tokens := rest, expected := [] })
  | tokens =>
    if explicit then do
      let (tokens, declared) ← readDirectives tokens false []
      match tokens with
      | .documentStart :: rest =>
        some (.documentStart,
          { tokens := rest, expected := [.content, .documentEnd]
            handles := completeHandles declared })
      | _ => none
    else
      some (.documentStart,
        { tokens, expected := [.blockNode false, .documentEnd], handles := standardHandles })

/-! ## Nodes -/

/-- What a tag stands for: its handle is replaced. -/
def resolveTag (handles : Handles) (handle : String) (suffix : Tag) : Option Tag :=
  if handle = "" then some suffix
  else (handles.find? (·.1 = handle)).map fun h => h.2 ++ suffix

/-- Reads what is said about a node: an anchor and a tag in either order. -/
def readProperties (handles : Handles) : List Token → Option (Properties × List Token)
  | .anchor name :: .tag handle suffix :: rest =>
    (resolveTag handles handle suffix).map fun tag => ({ anchor := name, tag }, rest)
  | .anchor name :: rest => some ({ anchor := name }, rest)
  | .tag handle suffix :: .anchor name :: rest =>
    (resolveTag handles handle suffix).map fun tag => ({ anchor := name, tag }, rest)
  | .tag handle suffix :: rest =>
    (resolveTag handles handle suffix).map fun tag => ({ tag }, rest)
  | rest => some ({}, rest)

/-- Reads a node; afterwards the rest of the stack is expected. -/
def nodeStep (block unindented : Bool) (expected : List Expect) (m : Machine) : Step :=
  match m.tokens with
  | [] => none
  | .alias name :: _ => m.drop.emit (.alias name) expected
  | tokens => do
    let (properties, tokens) ← readProperties m.handles tokens
    let m := { m with tokens }
    match tokens with
    | [] => none
    | t :: _ =>
      if unindented && t = .item then
        m.emit (.sequenceStart properties) (.unindentedItem :: expected)
      else
        match t, block with
        | .scalar style text, _ =>
          m.drop.emit (.scalar properties style text) expected
        | .flowSequence, _ => m.emit (.sequenceStart properties) (.flowItem true :: expected)
        | .flowMapping, _ => m.emit (.mappingStart properties) (.flowKey true :: expected)
        | .blockSequence, true => m.emit (.sequenceStart properties) (.blockItem true :: expected)
        | .blockMapping, true => m.emit (.mappingStart properties) (.blockKey true :: expected)
        | _, _ =>
          if properties = {} then none else m.emit (.scalar properties .plain "") expected

/-! ## Block collections -/

/-- Reads an item of a block sequence, or its end. -/
def blockItemStep (first : Bool) (expected : List Expect) (m : Machine) : Step :=
  let m := if first then m.drop else m
  match m.tokens with
  | .item :: t :: _ =>
    if t = .item ∨ t = .blockEnd then m.drop.emitEmpty (.blockItem false :: expected)
    else m.drop.nodeStep true false (.blockItem false :: expected)
  | .blockEnd :: _ => m.drop.emit .sequenceEnd expected
  | _ => none

/-- Reads an item of a sequence at the column of its field, or notices that it has ended. -/
def unindentedItemStep (expected : List Expect) (m : Machine) : Step :=
  match m.tokens with
  | [] => none
  | [.item] => none
  | .item :: t :: _ =>
    if t = .item ∨ t = .key ∨ t = .value ∨ t = .blockEnd then
      m.drop.emitEmpty (.unindentedItem :: expected)
    else m.drop.nodeStep true false (.unindentedItem :: expected)
  | _ => m.emit .sequenceEnd expected

/-- Reads a key of a block mapping, or its end. -/
def blockKeyStep (first : Bool) (expected : List Expect) (m : Machine) : Step :=
  let m := if first then m.drop else m
  match m.tokens with
  | .key :: t :: _ =>
    if t = .key ∨ t = .value ∨ t = .blockEnd then m.drop.emitEmpty (.blockValue :: expected)
    else m.drop.nodeStep true true (.blockValue :: expected)
  | .blockEnd :: _ => m.drop.emit .mappingEnd expected
  | _ => none

/-- Reads a value of a block mapping. -/
def blockValueStep (expected : List Expect) (m : Machine) : Step :=
  match m.tokens with
  | [] => none
  | [.value] => none
  | .value :: t :: _ =>
    if t = .key ∨ t = .value ∨ t = .blockEnd then m.drop.emitEmpty (.blockKey false :: expected)
    else m.drop.nodeStep true true (.blockKey false :: expected)
  | _ => m.emitEmpty (.blockKey false :: expected)

/-! ## Flow collections -/

/-- Goes on behind the comma that must stand before every member but the first. -/
def passSeparator (first : Bool) (close : Token) (m : Machine) : Option Machine :=
  if first then some m
  else
    match m.tokens with
    | .separator :: _ => some m.drop
    | t :: _ => if t = close then some m else none
    | [] => none

/-- Reads an item of a flow sequence, or its end. A key within a sequence starts a mapping with
one entry. -/
def flowItemStep (first : Bool) (expected : List Expect) (m : Machine) : Step := do
  let m ← (if first then m.drop else m).passSeparator first .flowSequenceEnd
  match m.tokens with
  | [] => none
  | .flowSequenceEnd :: _ => m.drop.emit .sequenceEnd expected
  | .key :: _ => m.drop.emit (.mappingStart {}) (.singleKey :: .flowItem false :: expected)
  | _ => m.nodeStep false false (.flowItem false :: expected)

/-- Reads the key of a mapping with one entry. A key that is left out takes the token behind it
along. -/
def singleKeyStep (expected : List Expect) (m : Machine) : Step :=
  match m.tokens with
  | [] => none
  | t :: _ =>
    if t = .value ∨ t = .separator ∨ t = .flowSequenceEnd then
      m.drop.emitEmpty (.singleValue :: expected)
    else m.nodeStep false false (.singleValue :: expected)

/-- Reads the value of a mapping with one entry. -/
def singleValueStep (expected : List Expect) (m : Machine) : Step :=
  match m.tokens with
  | [] => none
  | [.value] => none
  | .value :: t :: _ =>
    if t = .separator ∨ t = .flowSequenceEnd then m.drop.emitEmpty (.singleEnd :: expected)
    else m.drop.nodeStep false false (.singleEnd :: expected)
  | _ => m.emitEmpty (.singleEnd :: expected)

/-- Reads a key of a flow mapping, or its end. -/
def flowKeyStep (first : Bool) (expected : List Expect) (m : Machine) : Step := do
  let m ← (if first then m.drop else m).passSeparator first .flowMappingEnd
  match m.tokens with
  | [] => none
  | [.key] => none
  | .flowMappingEnd :: _ => m.drop.emit .mappingEnd expected
  | .key :: t :: _ =>
    if t = .value ∨ t = .separator ∨ t = .flowMappingEnd then
      m.drop.emitEmpty (.flowValue false :: expected)
    else m.drop.nodeStep false false (.flowValue false :: expected)
  | _ => m.nodeStep false false (.flowValue true :: expected)

/-- Reads a value of a flow mapping. -/
def flowValueStep (absent : Bool) (expected : List Expect) (m : Machine) : Step :=
  match m.tokens, absent with
  | [], _ => none
  | _, true => m.emitEmpty (.flowKey false :: expected)
  | [.value], false => none
  | .value :: t :: _, false =>
    if t = .separator ∨ t = .flowMappingEnd then m.drop.emitEmpty (.flowKey false :: expected)
    else m.drop.nodeStep false false (.flowKey false :: expected)
  | _, false => m.emitEmpty (.flowKey false :: expected)

/-! ## All events -/

/-- Makes the next event; nothing if the tokens do not fit, or are not there. -/
def step (m : Machine) : Step :=
  match m.expected with
  | [] => none
  | .document first :: _ => m.documentStep first
  | .content :: expected =>
    match m.tokens with
    | [] => none
    | .version .. :: _ => m.emitEmpty expected
    | .tagHandle .. :: _ => m.emitEmpty expected
    | .documentStart :: _ => m.emitEmpty expected
    | .documentEnd :: _ => m.emitEmpty expected
    | .streamEnd :: _ => m.emitEmpty expected
    | _ => m.nodeStep true false expected
  | .documentEnd :: _ =>
    match m.tokens with
    | [] => none
    | .documentEnd :: _ => m.drop.emit .documentEnd [.document false]
    | _ => m.emit .documentEnd [.document false]
  | .blockNode unindented :: expected => m.nodeStep true unindented expected
  | .flowNode :: expected => m.nodeStep false false expected
  | .blockItem first :: expected => m.blockItemStep first expected
  | .unindentedItem :: expected => m.unindentedItemStep expected
  | .blockKey first :: expected => m.blockKeyStep first expected
  | .blockValue :: expected => m.blockValueStep expected
  | .flowItem first :: expected => m.flowItemStep first expected
  | .singleKey :: expected => m.singleKeyStep expected
  | .singleValue :: expected => m.singleValueStep expected
  | .singleEnd :: expected => if m.tokens = [] then none else m.emit .mappingEnd expected
  | .flowKey first :: expected => m.flowKeyStep first expected
  | .flowValue absent :: expected => m.flowValueStep absent expected

/-- Makes all events; one unit of fuel is spent on each. -/
def run : Nat → Machine → List Event
  | 0, _ => []
  | fuel + 1, m =>
    match m.step with
    | none => []
    | some (.streamEnd, _) => [.streamEnd]
    | some (e, m) => e :: run fuel m

end Machine

/-- The events of a list of tokens. -/
def Event.ofTokens (tokens : List Token) : List Event :=
  -- between two tokens at most three events are made without a token
  Machine.run (4 * tokens.length + 8)
    { tokens, expected := [.document true], handles := standardHandles }

end PodCompiler.Yaml
