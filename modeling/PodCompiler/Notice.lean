import PodCompiler.Numeral

/-!
# PodCompiler — notices

What is worth recording while a step is compiled, and values that come with such records.

* `Notice` is one record by its cause; `Notice.message` words it, `Notice.level` grades it.
* `Logged` is a value with the notices that were made on the way to it, in order.
* `Logged.value_bind`, `Logged.notices_bind` and the lemmas on `Logged.gather` split a computation
  into its value and its notices.
-/

namespace PodCompiler

/-- The grades of a record, from the gravest on. -/
inductive Level where
  | error
  | warn
  | info
  | debug
  | trace
  deriving DecidableEq, Repr, Inhabited

namespace Level

/-- The rank of a level; graver levels come first. -/
def rank : Level → Nat
  | .error => 1
  | .warn => 2
  | .info => 3
  | .debug => 4
  | .trace => 5

/-- The name of a level. -/
def word : Level → String
  | .error => "ERROR"
  | .warn => "WARN"
  | .info => "INFO"
  | .debug => "DEBUG"
  | .trace => "TRACE"

end Level

/-- A record made while a step is compiled. -/
inductive Notice where
  | compiling (step : String)
  | compiled (step pod : String) (secrets configMaps : Nat)
  | unknownSecret (step secret env : String)
  | unknownFile (step file : String)
  | unknownVolume (step volume : String)
  | sourcelessVolume (volume : String)
  | unresolvedItem (volume item lookupKey : String)
  | invalidAutomount (step envName value : String)
  deriving DecidableEq, Repr

namespace Notice

/-- The grade of a notice. -/
def level : Notice → Level
  | .compiling .. => .trace
  | .compiled .. => .trace
  | .unknownSecret .. => .debug
  | .unknownFile .. => .debug
  | .unknownVolume .. => .debug
  | .sourcelessVolume .. => .debug
  | .unresolvedItem .. => .debug
  | .invalidAutomount .. => .warn

/-- A notice in words. -/
def message : Notice → String
  | .compiling step => "Compiling step `" ++ step ++ "`"
  | .compiled step pod secrets configMaps =>
    "Compiled step `" ++ step ++ "` into pod `" ++ pod ++ "` with " ++ Numeral.ofNat secrets ++
      " secrets and " ++ Numeral.ofNat configMaps ++ " config maps"
  | .unknownSecret step secret env =>
    "Step `" ++ step ++ "` references unknown secret `" ++ secret ++ "`, skipping env " ++ env
  | .unknownFile step file =>
    "Step `" ++ step ++ "` references unknown file `" ++ file ++ "`, skipping"
  | .unknownVolume step volume =>
    "Step `" ++ step ++ "` references unknown volume `" ++ volume ++ "`, skipping"
  | .sourcelessVolume volume => "Volume `" ++ volume ++ "` has no recognized source, skipping"
  | .unresolvedItem volume item lookupKey =>
    "Secret volume `" ++ volume ++ "` item `" ++ item ++ "` has no secret `" ++ lookupKey ++
      "`, skipping"
  | .invalidAutomount step envName value =>
    "Step `" ++ step ++ "` has an invalid " ++ envName ++ " value `" ++ value ++
      "`, defaulting to false"

end Notice

/-! ## Values with notices -/

/-- A value with the notices made on the way to it. -/
@[ext] structure Logged (α : Type) where
  value : α
  notices : List Notice
  deriving DecidableEq

namespace Logged

/-- A value that nothing was noticed about. -/
def quiet (value : α) : Logged α := ⟨value, []⟩

/-- Continues with the value; later notices follow earlier ones. -/
def andThen (x : Logged α) (f : α → Logged β) : Logged β :=
  ⟨(f x.value).value, x.notices ++ (f x.value).notices⟩

instance : Monad Logged where
  pure := quiet
  bind := andThen

/-- Makes a notice. -/
def note (notice : Notice) : Logged Unit := ⟨(), [notice]⟩

/-- Runs over a list and appends what each of its members yields. -/
def gather (f : α → Logged (List β)) : List α → Logged (List β)
  | [] => ⟨[], []⟩
  | a :: rest => ⟨(f a).value ++ (gather f rest).value, (f a).notices ++ (gather f rest).notices⟩

@[simp] theorem value_pure (a : α) : (pure a : Logged α).value = a := rfl

@[simp] theorem notices_pure (a : α) : (pure a : Logged α).notices = [] := rfl

@[simp] theorem value_bind (x : Logged α) (f : α → Logged β) :
    (x >>= f).value = (f x.value).value := rfl

@[simp] theorem notices_bind (x : Logged α) (f : α → Logged β) :
    (x >>= f).notices = x.notices ++ (f x.value).notices := rfl

@[simp] theorem notices_note (notice : Notice) : (note notice).notices = [notice] := rfl

/-- What a run over a list yields is what its members yield, one after the other. -/
theorem value_gather (f : α → Logged (List β)) (l : List α) :
    (gather f l).value = l.flatMap fun a => (f a).value := by
  induction l with
  | nil => rfl
  | cons a rest ih => simp [gather, ih]

/-- What a run over a list notices is what is noticed about its members, one after the other. -/
theorem notices_gather (f : α → Logged (List β)) (l : List α) :
    (gather f l).notices = l.flatMap fun a => (f a).notices := by
  induction l with
  | nil => rfl
  | cons a rest ih => simp [gather, ih]

end Logged
end PodCompiler
