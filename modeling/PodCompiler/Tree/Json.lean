import PodCompiler.Tree

/-!
# PodCompiler — JSON texts

The value tree that a JSON text stands for. The text is cut into tokens, character by character; the
tokens are read one by one with the lists and objects that are still open.

* `Json.cut` cuts a text into tokens, `Json.Mode.step` says what each character does.
* `Json.scalar?` is the value of a token that is neither a text nor a mark.
* `Json.read` is the tree of a text, `Json.ofOctets` that of a text's UTF-8 octets. Fields keep the
  order in which they are written.
-/

namespace PodCompiler.Json

/-! ## Tokens -/

/-- A token: a bracket, comma or colon, a text without its quotes, or a word. -/
inductive Token where
  | mark (c : Char)
  | text (value : String)
  | word (cs : List Char)
  deriving DecidableEq

/-- The characters that are tokens by themselves. -/
def isMark (c : Char) : Bool := c ∈ ['[', ']', '\x7b', '\x7d', ',', ':']

/-- White space. -/
def isBlank (c : Char) : Bool := c ∈ [' ', '\t', '\n', '\r']

/-- What the character behind a backslash stands for. -/
def unescaped (c : Char) : Option Char :=
  if c = '\x22' ∨ c = '\\' ∨ c = '/' then some c
  else if c = 'b' then some '\x08'
  else if c = 'f' then some '\x0c'
  else if c = 'n' then some '\n'
  else if c = 'r' then some '\r'
  else if c = 't' then some '\t'
  else none

/-- Where in a text of tokens a character stands. The characters of an unfinished token are held
with the last one first. -/
inductive Mode where
  | between
  | word (done : List Char)
  | text (done : List Char)
  /-- Behind a backslash. -/
  | escape (done : List Char)
  /-- Among the four digits of a code unit, perhaps behind the first half of a pair of units. -/
  | unit (done : List Char) (high : Option Nat) (digits : List Char)
  /-- Behind the first half of a pair, before the backslash of the second. -/
  | pair (done : List Char) (high : Nat)
  /-- Behind this backslash. -/
  | pairEscape (done : List Char) (high : Nat)

/-- A text with one more code unit. Halves of a pair stand for a character only together. -/
def Mode.ofUnit (done : List Char) (high : Option Nat) (n : Nat) : Option Mode :=
  match high with
  | none =>
    if 0xd800 ≤ n ∧ n < 0xdc00 then some (.pair done n)
    else if 0xdc00 ≤ n ∧ n < 0xe000 then none
    else some (.text (Char.ofNat n :: done))
  | some high =>
    if 0xdc00 ≤ n ∧ n < 0xe000 then
      some (.text (Char.ofNat (0x10000 + (high - 0xd800) * 0x400 + (n - 0xdc00)) :: done))
    else none

/-- What a character begins outside of texts and words: the tokens that it completes, and the place
behind it. -/
def begin (c : Char) : List Token × Mode :=
  if isBlank c then ([], .between)
  else if isMark c then ([.mark c], .between)
  else if c = '\x22' then ([], .text [])
  else ([], .word [c])

/-- One character: the tokens that it completes, and the place behind it. -/
def Mode.step : Mode → Char → Option (List Token × Mode)
  | .between, c => some (begin c)
  | .word done, c =>
    if isBlank c || isMark c then some (.word done.reverse :: (begin c).1, (begin c).2)
    else if c = '\x22' then none
    else some ([], .word (c :: done))
  | .text done, c =>
    if c = '\x22' then some ([.text (String.ofList done.reverse)], .between)
    else if c = '\\' then some ([], .escape done)
    else if c < ' ' then none
    else some ([], .text (c :: done))
  | .escape done, c =>
    if c = 'u' then some ([], .unit done none [])
    else (unescaped c).map fun x => ([], .text (x :: done))
  | .unit done high digits, c =>
    if digits.length < 3 then some ([], .unit done high (c :: digits))
    else
      ((Numeral.readNat 16 (c :: digits).reverse).bind (Mode.ofUnit done high)).map fun m => ([], m)
  | .pair done high, c => if c = '\\' then some ([], .pairEscape done high) else none
  | .pairEscape done high, c => if c = 'u' then some ([], .unit done (some high) []) else none

/-- The token that the end of a text completes. No text may be left open. -/
def Mode.finish : Mode → Option (List Token)
  | .between => some []
  | .word done => some [.word done.reverse]
  | _ => none

/-- The tokens of a text from some place on. -/
def cut (m : Mode) : List Char → Option (List Token)
  | [] => m.finish
  | c :: rest => (m.step c).bind fun s => (cut s.2 rest).map (s.1 ++ ·)

/-! ## Words -/

/-- The digits behind a point, and the rest behind them. -/
def fraction? : List Char → Option (List Char × List Char)
  | '.' :: rest =>
    if rest.takeWhile Char.isDigit = [] then none
    else some (rest.takeWhile Char.isDigit, rest.dropWhile Char.isDigit)
  | rest => some ([], rest)

/-- The power of ten at the end of a number. -/
def exponent? : List Char → Option Int
  | [] => some 0
  | c :: rest =>
    if c = 'e' ∨ c = 'E' then
      match rest with
      | '-' :: ds => (Numeral.readNat 10 ds).map fun n : Nat => -(n : Int)
      | '+' :: ds => (Numeral.readNat 10 ds).map fun n : Nat => (n : Int)
      | ds => (Numeral.readNat 10 ds).map fun n : Nat => (n : Int)
    else none

/-- A number without its sign. No zero stands in front of other digits, and a number without point
and exponent is whole. -/
def unsigned? (negative : Bool) (cs : List Char) : Option Tree :=
  let whole := cs.takeWhile Char.isDigit
  let rest := cs.dropWhile Char.isDigit
  if whole.head? = some '0' ∧ 1 < whole.length then none
  else if rest = [] then
    (Numeral.readNat 10 whole).map fun n : Nat => .int (if negative then -(n : Int) else n)
  else if whole = [] then none
  else do
    let (fraction, rest) ← fraction? rest
    let exponent ← exponent? rest
    let m ← Numeral.readNat 10 (whole ++ fraction)
    let x := Binary64.ofDecimal negative m (exponent - fraction.length)
    if x.isFinite then some (.float x) else none

/-- A number. -/
def number? : List Char → Option Tree
  | '-' :: cs => unsigned? true cs
  | cs => unsigned? false cs

/-- The value of a word. -/
def scalar? (cs : List Char) : Option Tree :=
  if cs = "null".toList then some .null
  else if cs = "true".toList then some (.bool true)
  else if cs = "false".toList then some (.bool false)
  else number? cs

/-! ## Trees -/

/-- A list or an object that is still open, with what has been read of it, the last first. -/
inductive Open where
  | list (done : List Tree)
  | object (done : List (String × Tree)) (name : String)

/-- What may come next. -/
inductive Expected where
  | value
  /-- The first item of a list, or its end. -/
  | item
  /-- The first field of an object, or its end. -/
  | field
  /-- The name of a field. -/
  | name (done : List (String × Tree))
  /-- The colon behind a name. -/
  | colon (done : List (String × Tree)) (name : String)
  /-- What follows a value. -/
  | next (value : Tree)

/-- What has been read: the open lists and objects, the innermost first, and what may come next. -/
structure Reader where
  around : List Open
  expected : Expected

/-- The reader at the start of a text. -/
def Reader.start : Reader := ⟨[], .value⟩

/-- A token where a value begins. -/
def Reader.readValue (around : List Open) : Token → Option Reader
  | .mark c =>
    if c = '[' then some ⟨.list [] :: around, .item⟩
    else if c = '\x7b' then some ⟨around, .field⟩
    else none
  | .text value => some ⟨around, .next (.text value)⟩
  | .word cs => (scalar? cs).map fun t => ⟨around, .next t⟩

/-- A token where a name stands. -/
def Reader.readName (around : List Open) (done : List (String × Tree)) : Token → Option Reader
  | .text name => some ⟨around, .colon done name⟩
  | _ => none

/-- A token behind a value. -/
def Reader.readNext (around : List Open) (value : Tree) (token : Token) : Option Reader :=
  match around with
  | [] => none
  | .list done :: outer =>
    if token = .mark ',' then some ⟨.list (value :: done) :: outer, .value⟩
    else if token = .mark ']' then some ⟨outer, .next (.list (value :: done).reverse)⟩
    else none
  | .object done name :: outer =>
    if token = .mark ',' then some ⟨outer, .name ((name, value) :: done)⟩
    else if token = .mark '\x7d' then some ⟨outer, .next (.object ((name, value) :: done).reverse)⟩
    else none

/-- One token. -/
def Reader.step (r : Reader) (token : Token) : Option Reader :=
  match r.expected with
  | .value => readValue r.around token
  | .item =>
    if token = .mark ']' then some ⟨r.around.drop 1, .next (.list [])⟩
    else readValue r.around token
  | .field =>
    if token = .mark '\x7d' then some ⟨r.around, .next (.object [])⟩
    else readName r.around [] token
  | .name done => readName r.around done token
  | .colon done name =>
    if token = .mark ':' then some ⟨.object done name :: r.around, .value⟩ else none
  | .next value => readNext r.around value token

/-- The tree that has been read, if nothing is open any more. -/
def Reader.finish (r : Reader) : Option Tree :=
  match r.around, r.expected with
  | [], .next t => some t
  | _, _ => none

/-- The tree of a text. -/
def read (cs : List Char) : Option Tree := do
  let tokens ← cut .between cs
  let r ← tokens.foldlM Reader.step Reader.start
  r.finish

/-- The tree of a text in UTF-8. -/
def ofOctets (octets : ByteArray) : Option Tree :=
  (String.fromUTF8? octets).bind fun s => read s.toList

end PodCompiler.Json
