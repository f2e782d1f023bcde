import PodCompiler.Yaml.Event

/-!
# PodCompiler — from events to nodes

The nodes of a document as a tree. Where the text ends in an error the tree ends in a leaf that
says so, behind everything that was read before it: whoever looks at the tree in order finds every
fault of an earlier value first.

* `Node` is a node, `Document` a root with the nodes that references stand for.
* `Document.ofEvents` builds the document of a list of events, `Document.ofText` that of a text.
-/

namespace PodCompiler.Yaml

/-- A node of a document. -/
inductive Node where
  /-- A document without any node. -/
  | void
  /-- Here the text ends in an error. -/
  | cut
  | scalar (tag : Option Tag) (style : Style) (text : String)
  /-- A reference by the number of its anchor. -/
  | alias (anchor : Nat)
  | sequence (tag : Option Tag) (items : List Node)
  | mapping (tag : Option Tag) (entries : List (Node × Node))
  deriving Inhabited

/-- A document. -/
structure Document where
  root : Node
  /-- The nodes with anchors by the places where they start, counted in events. -/
  anchored : List (Nat × Node)
  /-- The places that the numbers of anchors stand for. -/
  places : List (Nat × Nat)
  /-- The number of events. -/
  size : Nat
  /-- Whether nothing but the end of the stream follows. -/
  complete : Bool

/-- The node that a reference stands for. -/
def Document.follow (d : Document) (anchor : Nat) : Option Node :=
  (d.places.lookup anchor).bind fun place => d.anchored.lookup place

/-! ## Building -/

/-- A collection that has not ended yet. -/
inductive Open where
  | sequence (tag : Option Tag) (items : List Node)
  /-- The key of an entry waits for its value. -/
  | mapping (tag : Option Tag) (entries : List (Node × Node)) (key : Option Node)

/-- An open collection and the place where it starts, if it has an anchor. -/
structure Frame where
  place : Option Nat
  collection : Open

/-- The state between two events. -/
structure Builder where
  /-- The open collections, the innermost one first. -/
  frames : List Frame
  /-- The names of anchors with their numbers, the latest first. -/
  names : List (String × Nat)
  anchored : List (Nat × Node)
  places : List (Nat × Nat)
  /-- The number of events so far. -/
  size : Nat

namespace Builder

/-- The number of different names. -/
def nameCount (b : Builder) : Nat := (b.names.map (·.1)).eraseDups.length

/-- Gives the next event's node an anchor. The number of a name is the count of names before it, so
that a name given again may share its number with a later one; the latest place counts. -/
def register (anchor : Option String) (b : Builder) : Builder :=
  match anchor with
  | none => b
  | some name =>
    { b with
      names := (name, b.nameCount) :: b.names
      places := (b.nameCount, b.size) :: b.places }

/-- The place of the next event, if its node has an anchor. -/
def placeOf (anchor : Option String) (b : Builder) : Option Nat := anchor.map fun _ => b.size

/-- Keeps a node that has an anchor. -/
def keep (place : Option Nat) (node : Node) (b : Builder) : Builder :=
  match place with
  | none => b
  | some place => { b with anchored := (place, node) :: b.anchored }

/-- Adds a node to an open collection. -/
def Open.add (node : Node) : Open → Open
  | .sequence tag items => .sequence tag (items ++ [node])
  | .mapping tag entries none => .mapping tag entries (some node)
  | .mapping tag entries (some key) => .mapping tag (entries ++ [(key, node)]) none

/-- The node of a collection that has ended. -/
def Open.close : Open → Node
  | .sequence tag items => .sequence tag items
  | .mapping tag entries _ => .mapping tag entries

/-- Adds a node to the innermost open collection; without one it is the root. -/
def add (node : Node) (b : Builder) : Node ⊕ Builder :=
  match b.frames with
  | [] => .inl node
  | f :: frames =>
    .inr { b with frames := { f with collection := Open.add node f.collection } :: frames }

/-- Ends the innermost collection. -/
def close (b : Builder) : Node × Builder :=
  match b.frames with
  | [] => (.cut, b)
  | f :: frames =>
    let node := Open.close f.collection
    (node, ({ b with frames } : Builder).keep f.place node)

/-- A collection that ends in an error. A key that still waits for its value gets the error for
one. -/
def Open.breakOff (inner : Node) : Open → Node
  | .sequence tag items => .sequence tag (items ++ [inner])
  | .mapping tag entries none => .mapping tag (entries ++ [(inner, .cut)])
  | .mapping tag entries (some key) => .mapping tag (entries ++ [(key, inner)])

/-- Ends all open collections in an error: `inner` is what was broken off inside. -/
def breakOff : List Frame → Node → List (Nat × Node) → Node × List (Nat × Node)
  | [], inner, anchored => (inner, anchored)
  | f :: frames, inner, anchored =>
    let node := Open.breakOff inner f.collection
    breakOff frames node
      (match f.place with
        | none => anchored
        | some place => (place, node) :: anchored)

/-- Whether what follows the root of a document is its end and that of the stream. -/
def isComplete (rest : List Event) : Bool := rest == [.documentEnd, .streamEnd]

/-- The document whose root is known. -/
def finish (b : Builder) (root : Node) (complete : Bool) : Document :=
  { root, anchored := b.anchored, places := b.places, size := b.size, complete }

/-- The document whose events end in an error. -/
def fault (b : Builder) : Document :=
  let (root, anchored) := breakOff b.frames .cut b.anchored
  finish { b with anchored } root false

/-- Goes on behind the events of one more node. -/
def proceed (node : Node) (rest : List Event) (b : Builder) (more : Builder → Document) :
    Document :=
  match b.add node with
  | .inl root => b.finish root (isComplete rest)
  | .inr b => more b

/-- Builds the document of a list of events from behind its start. -/
def build : List Event → Builder → Document
  | [], b => b.fault
  | e :: rest, b =>
    match e with
    | .alias name =>
      match b.names.lookup name with
      | none => b.fault
      | some anchor =>
        ({ b with size := b.size + 1 } : Builder).proceed (.alias anchor) rest (build rest)
    | .scalar properties style text =>
      let node := Node.scalar properties.tag style text
      let place := b.placeOf properties.anchor
      let b := (b.register properties.anchor).keep place node
      ({ b with size := b.size + 1 } : Builder).proceed node rest (build rest)
    | .sequenceStart properties =>
      -- the place is that of this event, so it is taken before the event is counted
      let frame : Frame :=
        { place := b.placeOf properties.anchor, collection := .sequence properties.tag [] }
      let b := b.register properties.anchor
      build rest { b with frames := frame :: b.frames, size := b.size + 1 }
    | .mappingStart properties =>
      let frame : Frame :=
        { place := b.placeOf properties.anchor, collection := .mapping properties.tag [] none }
      let b := b.register properties.anchor
      build rest { b with frames := frame :: b.frames, size := b.size + 1 }
    | .sequenceEnd =>
      let (node, b) := b.close
      ({ b with size := b.size + 1 } : Builder).proceed node rest (build rest)
    | .mappingEnd =>
      let (node, b) := b.close
      ({ b with size := b.size + 1 } : Builder).proceed node rest (build rest)
    | _ => b.fault

/-- Nothing is open and nothing is known. -/
def start : Builder := { frames := [], names := [], anchored := [], places := [], size := 0 }

end Builder

/-- The first document of a list of events. -/
def Document.ofEvents (events : List Event) : Document :=
  match events with
  | .documentStart :: rest => Builder.build rest .start
  | [.streamEnd] =>
    { root := .void, anchored := [], places := [], size := 1, complete := true }
  | _ => Builder.start.fault

/-- The first document of a text. -/
def Document.ofText (text : String) : Document :=
  .ofEvents (Event.ofTokens (Token.scan text))

end PodCompiler.Yaml
