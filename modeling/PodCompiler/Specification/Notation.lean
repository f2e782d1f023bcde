import PodCompiler.Specification.Reading
import PodCompiler.Specification.Violation
import PodCompiler.Tree.Dialect
import PodCompiler.Yaml.Dialect

/-!
# PodCompiler — notations of specifications

A specification comes as a value tree or as the text of a YAML document.

* `Specification.ofTree` and `Specification.ofYaml` read it.
* `Fault` is what can be wrong with a specification as a whole, `Fault.message` the wording.
-/

namespace PodCompiler

/-- Reads a specification off a value tree. -/
def Specification.ofTree (t : Tree) : Except Failure Specification :=
  (Specification.read Tree.dialect .root t).outcome 0

/-- Reads a document with a reader of its root. A value that was read is good only if nothing but
the end of the text follows it. -/
def Yaml.Document.read (reader : Dialect Node → Path → Node → Reading α) (doc : Document) :
    Except Failure α := do
  -- every event may be repeated a hundred times by references to it
  let value ← (reader (dialect doc) .root doc.root).outcome (100 * doc.size)
  if doc.complete then pure value else throw .malformed

/-- Reads a specification off the text of a document. -/
def Specification.ofYaml (text : String) : Except Failure Specification :=
  (Yaml.Document.ofText text).read Specification.read

/-! ## Faults -/

/-- What can be wrong with a specification as a whole. -/
inductive Fault where
  /-- It cannot be read. -/
  | unreadable (reason : String)
  /-- An object that was compiled from it cannot be written. -/
  | unwritable (reason : String)
  /-- It is read but not fit. -/
  | unfit (violation : Violation)
  deriving DecidableEq, Repr

/-- A fault in words. -/
def Fault.message : Fault → String
  | .unreadable reason => "Failed to parse specification: " ++ reason
  | .unwritable reason => "Failed to serialize resource: " ++ reason
  | .unfit violation => violation.message

/-- The fault of a document whose value is refused; a malformed text has no words here. -/
def Failure.fault? (f : Failure) : Option Fault := (f.located Yaml.wording).map .unreadable

end PodCompiler
