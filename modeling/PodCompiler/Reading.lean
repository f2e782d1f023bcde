import PodCompiler.Text.Quoted
import PodCompiler.Binary64

/-!
# PodCompiler — reading values

What can go wrong while a value is read, and the computation that reads one.

* `Cause` is why a value is refused, `Cause.message` the wording, `Path` where the value stands.
* `Failure` is a refusal, or the discovery that the text itself is malformed.
* `Reading` is a computation that fails with the first such failure in reading order. It carries
  the number of references to earlier parts of the document that may still be followed, which
  bounds the work that a small document can ask for.
-/

namespace PodCompiler

/-! ## Where a value stands -/

/-- The place of a value in a document. -/
inductive Path where
  | root
  | item (parent : Path) (index : Nat)
  | field (parent : Path) (name : String)
  /-- The value of a field whose name is not written out at that place. -/
  | unnamed (parent : Path)
  deriving DecidableEq, Repr

namespace Path

/-- The place of the list or object that holds the value. -/
def parent : Path → Path
  | .root => .root
  | .item p _ => p
  | .field p _ => p
  | .unnamed p => p

/-- A place in words, the root being a single point. -/
def text : Path → String
  | .root => "."
  | .item p index => p.text ++ "[" ++ Numeral.ofNat index ++ "]"
  | .field .root name => name
  | .field p name => p.text ++ "." ++ name
  | .unnamed .root => "?"
  | .unnamed p => p.text ++ ".?"

end Path

/-! ## Why a value is refused -/

/-- What was found in place of the expected value. -/
inductive Found where
  | null
  | bool (value : Bool)
  | int (value : Int)
  /-- An integer that does not fit sixty-four bits. -/
  | wideInt (value : Int)
  | float (value : Binary64)
  | text (value : String)
  | sequence
  | map
  deriving DecidableEq, Repr

/-- Why a value is refused. -/
inductive Cause where
  | invalidType (found : Found) (expected : String)
  | invalidValue (found : Found) (expected : String)
  | invalidLength (length : Nat) (expected : String)
  | missingField (name : String)
  | duplicateField (name : String)
  deriving DecidableEq, Repr

/-- The words in which two notations differ: what null is called, and when a number is written
with an exponent. -/
structure Wording where
  null : String
  float : Binary64.FloatLayout

/-- What was found, in words. -/
def Found.describe (wording : Wording) : Found → String
  | .null => wording.null
  | .bool value => "boolean `" ++ (if value then "true" else "false") ++ "`"
  | .int value => "integer `" ++ Numeral.ofInt value ++ "`"
  | .wideInt value =>
    "integer `" ++ Numeral.ofInt value ++ (if value < 0 then "` as i128" else "` as u128")
  | .float value => "floating point `" ++ value.text wording.float ++ "`"
  | .text value => "string " ++ Text.quoted value
  | .sequence => "sequence"
  | .map => "map"

/-- Why a value is refused, in words. -/
def Cause.message (wording : Wording) : Cause → String
  | .invalidType found expected =>
    "invalid type: " ++ found.describe wording ++ ", expected " ++ expected
  | .invalidValue found expected =>
    "invalid value: " ++ found.describe wording ++ ", expected " ++ expected
  | .invalidLength length expected =>
    "invalid length " ++ Numeral.ofNat length ++ ", expected " ++ expected
  | .missingField name => "missing field `" ++ name ++ "`"
  | .duplicateField name => "duplicate field `" ++ name ++ "`"

/-! ## Reading -/

/-- Why reading stopped. -/
inductive Failure where
  /-- The text does not follow the rules of its notation. -/
  | malformed
  /-- The value at a place is not what is expected there. -/
  | refused (path : Path) (cause : Cause)
  deriving DecidableEq, Repr

/-- A refusal with its place in front, unless it concerns the whole document. -/
def Failure.located (wording : Wording) : Failure → Option String
  | .malformed => none
  | .refused .root cause => some (cause.message wording)
  | .refused path cause => some (path.text ++ ": " ++ cause.message wording)

/-- A refusal without its place. -/
def Failure.bare (wording : Wording) : Failure → Option String
  | .malformed => none
  | .refused _ cause => some (cause.message wording)

/-- A computation that reads a value; the state is the number of references that may still be
followed. -/
abbrev Reading := StateT Nat (Except Failure)

namespace Reading

/-- Refuses the value at a place. -/
def refuse (path : Path) (cause : Cause) : Reading α := throw (.refused path cause)

/-- Gives up on a malformed text. -/
def malformed : Reading α := throw .malformed

/-- Follows one more reference, if that is still allowed. -/
def follow : Reading Unit := do
  match ← get with
  | 0 => malformed
  | n + 1 => set n

/-- The outcome of reading with a number of references that may be followed. -/
def outcome (references : Nat) (r : Reading α) : Except Failure α :=
  (StateT.run r references).map (·.1)

/-- Reads the items of a list, each at its place. -/
def items (read : Path → ν → Reading α) (path : Path) : Nat → List ν → Reading (List α)
  | _, [] => pure []
  | index, v :: rest => do
    let first ← read (.item path index) v
    let others ← items read path (index + 1) rest
    pure (first :: others)

end Reading
end PodCompiler
