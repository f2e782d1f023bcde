import PodCompiler.Yaml.Character
import PodCompiler.Yaml.Plain

/-!
# PodCompiler — styles of scalars

In which of its four styles a text is written as a YAML scalar. A text is plain if it reads back
as that text; else it stands in single quotes, as a literal block if it has several lines, or in
double quotes if nothing else shows it faithfully.

* `Yaml.Traits` are the traits of a text that rule styles out; `Yaml.traits` finds them.
* `Yaml.preferredStyle` is what a text asks for, `Yaml.chooseStyle` what it gets.
* `Yaml.isSimpleKey` are the texts that may stand before a colon on one line.
-/

namespace PodCompiler.Yaml

/-- The styles of a scalar. -/
inductive Style where
  | plain
  | singleQuoted
  | doubleQuoted
  | literal
  | folded
  deriving DecidableEq, Repr, Inhabited

/-! ## Traits -/

/-- The traits of a text that rule styles out. -/
structure Traits where
  /-- There is a line break. -/
  multiline : Bool
  /-- A blank or a break stands at one end. -/
  ragged : Bool
  /-- The last character is a space. -/
  trailingSpace : Bool
  /-- A space follows a break. -/
  breakThenSpace : Bool
  /-- A break follows a space. -/
  spaceThenBreak : Bool
  /-- A character has to be escaped. -/
  special : Bool
  /-- Something in it means something else outside quotes. -/
  indicators : Bool
  deriving DecidableEq, Repr

/-- Whether two neighbours satisfy a condition. -/
def anyPair (p : Char → Char → Bool) : List Char → Bool
  | a :: b :: rest => p a b || anyPair p (b :: rest)
  | _ => false

/-- A character that starts something other than a plain scalar. -/
def isIndicator (c : Char) : Bool :=
  c ∈ ['#', ',', '[', ']', '\x7b', '\x7d', '&', '*', '!', '|', '>', '\'', '\x22', '%', '@', '\x60']

/-- Whether the first character of a text would be taken for an indicator. -/
def startsWithIndicator : List Char → Bool
  | [] => false
  | c :: rest =>
    isIndicator c || ((c = '?' || c = ':' || c = '-') && atBlank rest)

/-- Whether a colon is followed by a blank, a break or the end. -/
def hasValueMark : List Char → Bool
  | [] => false
  | c :: rest => (c = ':' && atBlank rest) || hasValueMark rest

/-- Whether a number sign follows a blank or a break. -/
def hasCommentMark (cs : List Char) : Bool :=
  anyPair (fun a b => (isBlank a || isBreak a || a = '\x00') && b = '#') cs

/-- Whether a text starts like a marker between documents. -/
def startsWithMarker : List Char → Bool
  | '-' :: '-' :: '-' :: _ => true
  | '.' :: '.' :: '.' :: _ => true
  | _ => false

/-- Whether the character at an end of a text is a space or a break. -/
def isEdge (c : Option Char) : Bool := c.any fun c => c = ' ' || isBreak c

/-- The traits of a text. -/
def traits (cs : List Char) : Traits :=
  { multiline := cs.any isBreak
    ragged := isEdge cs.head? || isEdge cs.getLast?
    trailingSpace := cs.getLast? = some ' '
    breakThenSpace := anyPair (fun a b => isBreak a && b = ' ') cs
    spaceThenBreak := anyPair (fun a b => a = ' ' && isBreak b) cs
    special := cs.any fun c => !isPrintable c
    indicators :=
      startsWithMarker cs || startsWithIndicator cs || hasValueMark cs || hasCommentMark cs }

namespace Traits

variable (t : Traits)

/-- Whether a text may be plain. -/
def allowsPlain : Bool :=
  !(t.ragged || t.breakThenSpace || t.spaceThenBreak || t.special || t.multiline || t.indicators)

/-- Whether a text may stand in single quotes. -/
def allowsSingle : Bool := !(t.breakThenSpace || t.spaceThenBreak || t.special)

/-- Whether a text may be a literal block. -/
def allowsBlock : Bool := !(t.trailingSpace || t.spaceThenBreak || t.special)

end Traits

/-! ## The choice -/

/-- The style that a text asks for: a block if it has several lines, quotes if it would be read
as something else. -/
def preferredStyle (s : String) : Style :=
  if '\n' ∈ s.toList then .literal
  else
    match Plain.ofText s with
    | .text => if Plain.isPadded s.toList then .singleQuoted else .plain
    | _ => .singleQuoted

/-- Whether a text may stand before a colon on one line: it has no line break and at most 128
octets. -/
def isSimpleKey (s : String) : Bool := !s.toList.any isBreak && s.utf8ByteSize ≤ 128

/-- The style that a text gets. -/
def chooseStyle (s : String) : Style :=
  let t := traits s.toList
  match preferredStyle s with
  | .plain =>
    if t.allowsPlain then .plain else if t.allowsSingle then .singleQuoted else .doubleQuoted
  | .singleQuoted => if t.allowsSingle then .singleQuoted else .doubleQuoted
  | .literal => if t.allowsBlock then .literal else .doubleQuoted
  | _ => .doubleQuoted

end PodCompiler.Yaml
