import PodCompiler.Notice

/-!
# PodCompiler — the logger

Which records are printed, where, and how.

A process has at most one logger: the first that is installed stays, whatever is installed later,
in whichever thread. A thread may override the logger's level for the records that it makes itself;
a new thread starts without an override.

* `Logger.enables` says whether a record of a level is printed, `Entry.line` how.
* `Action` is what a thread does, `Action.run` and `Action.runAll` what comes of it.
-/

namespace PodCompiler

/-! ## Colours -/

/-- The colours of printed lines. -/
inductive Colour where
  | red
  | green
  | yellow
  | blue
  | magenta
  | cyan
  | dimmed
  deriving DecidableEq, Repr

namespace Colour

/-- The control sequence that starts a colour. -/
def start : Colour → String
  | .red => "\x1b[31m"
  | .green => "\x1b[32m"
  | .yellow => "\x1b[33m"
  | .blue => "\x1b[34m"
  | .magenta => "\x1b[35m"
  | .cyan => "\x1b[36m"
  | .dimmed => "\x1b[2m"

/-- The control sequence that ends every colour. -/
def stop : String := "\x1b[0m"

/-- A text in which a colour starts again wherever the text itself ends it. -/
def resume (colour : Colour) : List Char → List Char
  | [] => []
  | '\x1b' :: '[' :: '0' :: 'm' :: rest =>
    stop.toList ++ (colour.start.toList ++ resume colour rest)
  | c :: rest => c :: resume colour rest

/-- A text in a colour. -/
def paint (colour : Colour) (text : String) : String :=
  colour.start ++ String.ofList (colour.resume text.toList) ++ stop

end Colour

/-- The colour of a level. -/
def Level.colour : Level → Colour
  | .error => .red
  | .warn => .yellow
  | .info => .green
  | .debug => .blue
  | .trace => .dimmed

/-! ## Records -/

/-- A record that is handed to a logger. -/
structure Entry where
  level : Level
  message : String
  /-- What the record is about. -/
  target : String := ""
  file : Option String := none
  line : Option Nat := none
  deriving DecidableEq, Repr

/-- How lines are printed: with or without colours, and at what time. -/
structure Printer where
  coloured : Bool
  time : String
  deriving DecidableEq, Repr

/-- A text in a colour, if lines have colours. -/
def Printer.paint (p : Printer) (colour : Colour) (text : String) : String :=
  if p.coloured then colour.paint text else text

namespace Entry

/-- Where a record was made, if that is known, and what it is about otherwise. -/
def origin (e : Entry) : String :=
  match e.file, e.line with
  | some file, some line => file ++ ":" ++ Numeral.ofNat line
  | _, _ => e.target

/-- A record as a line of text. -/
def text (p : Printer) (e : Entry) : String :=
  p.paint .cyan (e.origin ++ " ") ++ p.paint .magenta p.time ++ " " ++
    p.paint e.level.colour e.level.word ++ " " ++ e.message ++ "\n"

end Entry

/-- What was written to the two streams of a process. -/
structure Printed where
  stdout : String := ""
  stderr : String := ""
  deriving DecidableEq, Repr

/-- Prints a record: warnings and errors go to the error stream. -/
def Entry.print (p : Printer) (e : Entry) : Printed :=
  if e.level.rank ≤ Level.warn.rank then { stderr := e.text p } else { stdout := e.text p }

/-! ## Loggers -/

/-- A logger with the least grave level that it prints. -/
structure Logger where
  level : Level
  deriving DecidableEq, Repr

namespace Logger

/-- The logger that is installed if no level is asked for. -/
def standard : Logger := ⟨.debug⟩

/-- Whether a logger prints records of a level in a thread that overrides its own level. -/
def enables (logger : Logger) (override : Option Level) (level : Level) : Bool :=
  level.rank ≤ (override.getD logger.level).rank

/-- What a logger prints of a record. -/
def log (logger : Logger) (override : Option Level) (p : Printer) (e : Entry) : Printed :=
  if logger.enables override e.level then e.print p else {}

end Logger

/-! ## Processes and threads -/

/-- What the threads of a process share: the logger, and the level up to which records reach it,
none before there is one. -/
structure Process where
  logger : Option Logger := none
  ceiling : Option Level := none
  deriving DecidableEq, Repr

/-- Installs a logger, unless there is one. -/
def Process.install (logger : Logger) (p : Process) : Process :=
  match p.logger with
  | some _ => p
  | none => { logger := some logger, ceiling := some .trace }

/-- Something that a thread does. -/
inductive Action where
  | install (logger : Logger)
  /-- Overrides the logger's level in this thread. -/
  | override (level : Level)
  /-- Asks whether the installed logger prints records of a level. -/
  | query (level : Level)
  /-- Asks the same of a logger that is not installed. -/
  | queryOf (logger : Logger) (level : Level)
  | log (entry : Entry)
  /-- Starts a thread and waits until it has ended. -/
  | thread (actions : List Action)

/-- What is seen of an action. -/
inductive Reply where
  /-- The level up to which records reach the logger from now on. -/
  | ceiling (level : Option Level)
  | overridden
  | enabled (answer : Bool)
  | printed (output : Printed)
  deriving DecidableEq, Repr

/-- The state of a process and of one of its threads, with the replies to what was done. -/
structure Session where
  process : Process := {}
  /-- The level that overrides the logger's in this thread. -/
  override : Option Level := none
  replies : List Reply := []
  deriving DecidableEq, Repr

/-- Adds a reply. -/
def Session.reply (r : Reply) (s : Session) : Session := { s with replies := s.replies ++ [r] }

mutual

/-- Does something in a thread. -/
def Action.run (p : Printer) : Action → Session → Session
  | .install logger, s =>
    let process := s.process.install logger
    { s with process }.reply (.ceiling process.ceiling)
  | .override level, s => { s with override := some level }.reply .overridden
  | .query level, s =>
    s.reply (.enabled (s.process.logger.any fun l => l.enables s.override level))
  | .queryOf logger level, s => s.reply (.enabled (logger.enables s.override level))
  | .log entry, s =>
    s.reply (.printed ((s.process.logger.map fun l => l.log s.override p entry).getD {}))
  | .thread actions, s =>
    { Action.runAll p actions { s with override := none } with override := s.override }

/-- Does several things one after the other. -/
def Action.runAll (p : Printer) : List Action → Session → Session
  | [], s => s
  | action :: rest, s => Action.runAll p rest (action.run p s)

end

end PodCompiler
