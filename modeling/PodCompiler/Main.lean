import Std.Time.Format
import PodCompiler.Stream

/-!
# PodCompiler — the command line

Prints the stream of a specification that is read from a file, or of the sample if no file is
named. Warnings go to the error stream; a specification that cannot be read ends the program with
status 1.
-/

namespace PodCompiler

/-- Prints a warning with the current time. -/
def printWarning (message : String) : IO Unit := do
  let now ← Std.Time.PlainDateTime.now
  let printer : Printer := { coloured := false, time := now.format "uuuu-MM-dd HH:mm:ss" }
  let entry : Entry := { level := .warn, message, target := "compile" }
  IO.eprint (entry.print printer).stderr

/-- Prints the stream of a specification. -/
def printStream (source : String) : IO UInt32 :=
  match Stream.ofYaml source with
  | .ok stream => do
    stream.warnings.forM printWarning
    IO.print stream.text
    pure 0
  | .error failure => do
    IO.eprintln ((failure.fault?.map Fault.message).getD "the document is malformed")
    pure 1

end PodCompiler

/-- Compiles the specification in the named file, or the sample. -/
def main (arguments : List String) : IO UInt32 := do
  match arguments with
  | [] => PodCompiler.printStream PodCompiler.Stream.sample
  | file :: _ => PodCompiler.printStream (← IO.FS.readFile file)
