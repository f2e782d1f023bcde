import PodCompiler.Logger
import Mathlib.Data.List.Nodup
import Mathlib.Logic.Function.Iterate

/-!
# PodCompiler — the history of a process

What the logger of a process does is settled by what has been done before, by whom and in which
order. Two rules meet in it: the logger is shared and stays the first that any thread installs, and
the level that overrides it belongs to one thread and is the last that this very thread sets.

`Action.runAll` carries out a whole script at once and takes back a thread's level when the thread
has ended. Here the same script is carried out in small steps, so that there is a state at any
point of a run, with all threads that have not ended and with the history of deeds. What `runAll`
makes of the script is what stands at the end of these steps.

* `Deed` — something that a thread has done; `installed` and `levelOf` are what a history says of
  the logger and of a thread's level, `Deed.due` what follows for the replies.
* `Passes` — whether a record is printed; `Entry.shown` — as which line, and on which stream.
* `Execution` — the state of a run; a thread that starts another one waits for it.
* `Execution.Faithful` — the state is what the history says.

Main results:

* `faithful_step` and `faithful_after` — one step keeps to the history, and so does a run.
* `outcome_step` and `remaining_step` — the steps carry out the script, and they come to an end.
* `log_follows_history` — all of it for every script and every point of its run.
-/

namespace PodCompiler

/-! ## Histories -/

/-- Something that was done: by which thread, and what was seen of it. -/
structure Deed where
  /-- The number of the thread; threads are numbered in the order in which they start. -/
  thread : Nat
  action : Action
  replies : List Reply

namespace Deed

/-- The logger that a deed asks for. -/
def logger? (deed : Deed) : Option Logger :=
  match deed.action with
  | .install logger => some logger
  | _ => none

/-- The level that a deed sets for a thread, which must be the one whose deed it is. -/
def level? (thread : Nat) (deed : Deed) : Option Level :=
  match deed.action with
  | .override level => if deed.thread = thread then some level else none
  | _ => none

end Deed

/-- The logger of a process with a history: the first that was asked for. -/
def installed (history : List Deed) : Option Logger := history.findSome? Deed.logger?

/-- The level of a thread of a process with a history: the last that it set. -/
def levelOf (thread : Nat) (history : List Deed) : Option Level :=
  (history.filterMap (Deed.level? thread)).getLast?

/-- The levels of the records that a limit lets pass. -/
def Level.upTo : Level → List Level
  | .error => [.error]
  | .warn => [.error, .warn]
  | .info => [.error, .warn, .info]
  | .debug => [.error, .warn, .info, .debug]
  | .trace => [.error, .warn, .info, .debug, .trace]

theorem rank_le_iff {level limit : Level} : level.rank ≤ limit.rank ↔ level ∈ limit.upTo := by
  cases level <;> cases limit <;> decide

/-- A record of a level is printed in a thread: there is a logger, and the level is at most as high
as the thread's own, or as the logger's if the thread has none. -/
def Passes (history : List Deed) (thread : Nat) (level : Level) : Prop :=
  ∃ logger ∈ installed history, level ∈ ((levelOf thread history).getD logger.level).upTo

instance (history : List Deed) (thread : Nat) (level : Level) :
    Decidable (Passes history thread level) := by
  unfold Passes
  infer_instance

/-- What stands in front of the message on the line of a record: where the record was made, or else
what it is about, the time, and the word for its level. -/
def Entry.head (p : Printer) (entry : Entry) : String :=
  p.paint .cyan (entry.origin ++ " ") ++ p.paint .magenta p.time ++ " " ++
    p.paint entry.level.colour entry.level.word ++ " "

/-- A printed record: one line with its message at the end, for errors and warnings on the error
stream, for other records on the other one. -/
def Entry.shown (p : Printer) (entry : Entry) : Printed :=
  if entry.level = .error ∨ entry.level = .warn then
    { stdout := "", stderr := entry.head p ++ entry.message ++ "\n" }
  else { stdout := entry.head p ++ entry.message ++ "\n", stderr := "" }

/-- What has to be seen of a deed after a history. -/
def Deed.due (p : Printer) (history : List Deed) (deed : Deed) : List Reply :=
  match deed.action with
  | .install _ => [.ceiling (some .trace)]
  | .override _ => [.overridden]
  | .query level => [.enabled (decide (Passes history deed.thread level))]
  | .queryOf logger level =>
    [.enabled (decide (level ∈ ((levelOf deed.thread history).getD logger.level).upTo))]
  | .log entry =>
    [.printed (if Passes history deed.thread entry.level then entry.shown p else {})]
  | .thread _ => []

section History

variable (history : List Deed) (deed : Deed) (thread : Nat)

theorem installed_snoc : installed (history ++ [deed]) = (installed history).or deed.logger? := by
  simp [installed, List.findSome?_append, Option.or]

theorem levelOf_snoc :
    levelOf thread (history ++ [deed]) = (deed.level? thread).or (levelOf thread history) := by
  unfold levelOf
  cases hLevel : deed.level? thread <;> simp [hLevel]

/-- A thread that has done nothing has no level of its own. -/
theorem levelOf_eq_none (hNew : ∀ d ∈ history, d.thread ≠ thread) :
    levelOf thread history = none := by
  have hNone : history.filterMap (Deed.level? thread) = [] := by
    rw [List.filterMap_eq_nil_iff]
    intro d hd
    unfold Deed.level?
    split
    · exact if_neg (hNew d hd)
    · rfl
  simp [levelOf, hNone]

/-- A deed of another thread leaves a thread's level alone. -/
theorem levelOf_snoc_of_ne (hOther : deed.thread ≠ thread) :
    levelOf thread (history ++ [deed]) = levelOf thread history := by
  have hNone : deed.level? thread = none := by
    unfold Deed.level?
    split
    · exact if_neg hOther
    · rfl
  rw [levelOf_snoc, hNone, Option.none_or]

end History

/-- Once there is a logger, it stays. -/
theorem installed_of_prefix {before history : List Deed} (hPrefix : before <+: history)
    {logger : Logger} (hLogger : installed before = some logger) :
    installed history = some logger := by
  obtain ⟨after, rfl⟩ := hPrefix
  unfold installed at hLogger ⊢
  rw [List.findSome?_append, hLogger, Option.some_or]

/-! ## A single action -/

/-- An action that starts a thread. -/
def Action.Starts : Action → Prop
  | .thread _ => True
  | _ => False

/-- What a thread has before it agrees with a history. -/
structure Session.Agrees (history : List Deed) (thread : Nat) (s : Session) : Prop where
  logger : s.process.logger = installed history
  ceiling : s.process.ceiling = (installed history).map fun _ => .trace
  override : s.override = levelOf thread history

section Single

variable {p : Printer} {history : List Deed} {thread : Nat} {s : Session} {action : Action}

/-- A deed that neither installs a logger nor sets a level changes nothing but what was seen. -/
theorem agrees_reply (h : s.Agrees history thread) {deed : Deed} (hLogger : deed.logger? = none)
    (hLevel : deed.level? thread = none) (reply : Reply) :
    (s.reply reply).Agrees (history ++ [deed]) thread where
  logger := by rw [installed_snoc, hLogger, Option.or_none]; exact h.logger
  ceiling := by rw [installed_snoc, hLogger, Option.or_none]; exact h.ceiling
  override := by rw [levelOf_snoc, hLevel, Option.none_or]; exact h.override

/-- The answer to a query is whether a record of that level would be printed. -/
theorem any_enables (h : s.Agrees history thread) (level : Level) :
    (s.process.logger.any fun l => l.enables s.override level) =
      decide (Passes history thread level) := by
  rw [Bool.eq_iff_iff, decide_eq_true_eq, h.logger, h.override]
  unfold Passes Logger.enables
  simp only [Option.any_eq_true, decide_eq_true_eq, Option.mem_def, rank_le_iff]

/-- The two streams are told apart by the rank of a level. -/
theorem print_eq_shown (p : Printer) (entry : Entry) : entry.print p = entry.shown p := by
  unfold Entry.print Entry.shown
  have hGrave :
      entry.level.rank ≤ Level.warn.rank ↔ entry.level = .error ∨ entry.level = .warn := by
    simp [rank_le_iff, Level.upTo]
  simp only [hGrave]
  rfl

/-- A printed record leaves something on its stream. -/
theorem shown_ne (p : Printer) (entry : Entry) : entry.shown p ≠ {} := by
  unfold Entry.shown
  split
  · simp
  · simp

/-- A record is printed if it passes. -/
theorem log_eq_shown (h : s.Agrees history thread) (p : Printer) (entry : Entry) :
    ((s.process.logger.map fun l => l.log s.override p entry).getD {}) =
      if Passes history thread entry.level then entry.shown p else {} := by
  have hPasses := any_enables h entry.level
  cases hLogger : s.process.logger with
  | none =>
    have hNot : ¬ Passes history thread entry.level := by simpa [hLogger] using hPasses
    rw [if_neg hNot]
    rfl
  | some logger =>
    have hEnables : logger.enables s.override entry.level =
        decide (Passes history thread entry.level) := by simpa [hLogger] using hPasses
    simp only [Option.map_some, Option.getD_some, Logger.log, hEnables, decide_eq_true_eq,
      print_eq_shown]

/-- The first install makes the logger, and any later one leaves it. -/
theorem agrees_install (h : s.Agrees history thread) (logger : Logger) (rs : List Reply) :
    ({ s with process := s.process.install logger } : Session).Agrees
      (history ++ [⟨thread, .install logger, rs⟩]) thread := by
  have hLogger := h.logger
  have hCeiling := h.ceiling
  have hOverride := h.override
  unfold Process.install
  cases hBefore : installed history with
  | none =>
    -- this is the first logger that is asked for
    rw [hBefore] at hLogger
    refine ⟨?_, ?_, ?_⟩ <;>
      simp [hLogger, hOverride, installed_snoc, levelOf_snoc, hBefore, Deed.logger?, Deed.level?]
  | some first =>
    -- the process is left alone, and so is what the history says
    rw [hBefore] at hLogger hCeiling
    refine ⟨?_, ?_, ?_⟩ <;>
      simp [hLogger, hCeiling, hOverride, installed_snoc, levelOf_snoc, hBefore, Deed.level?]

/-- What is seen of an action comes behind what was seen before, and nothing else depends on it. -/
theorem run_eq_append (hSingle : ¬ action.Starts) (p : Printer) (s : Session) :
    action.run p s =
      { action.run p { s with replies := [] } with
        replies := s.replies ++ (action.run p { s with replies := [] }).replies } := by
  cases action with
  | thread actions => exact absurd trivial hSingle
  | _ => rfl

/-- **One deed.** A single action leaves what the longer history says, and what is seen of it is
what the history before it demands. -/
theorem agrees_run (h : s.Agrees history thread) (hSingle : ¬ action.Starts) (p : Printer)
    (rs : List Reply) :
    (action.run p s).Agrees (history ++ [⟨thread, action, rs⟩]) thread ∧
      (action.run p s).replies = s.replies ++ Deed.due p history ⟨thread, action, rs⟩ := by
  cases action with
  | install logger =>
    have hAgrees := agrees_install h logger rs
    have hLogger : (installed (history ++ [⟨thread, .install logger, rs⟩])).isSome := by
      rw [installed_snoc]
      cases installed history <;> rfl
    refine ⟨⟨hAgrees.logger, hAgrees.ceiling, hAgrees.override⟩, ?_⟩
    -- there is a logger now, whichever it is, and so records of all levels reach it
    show s.replies ++ [Reply.ceiling (s.process.install logger).ceiling] = _
    rw [hAgrees.ceiling]
    obtain ⟨first, hFirst⟩ := Option.isSome_iff_exists.mp hLogger
    rw [hFirst]
    rfl
  | override level =>
    refine ⟨⟨?_, ?_, ?_⟩, rfl⟩
    · rw [installed_snoc]
      exact h.logger.trans (Option.or_none).symm
    · rw [installed_snoc]
      exact h.ceiling.trans (congrArg _ (Option.or_none).symm)
    · simp [Action.run, Session.reply, levelOf_snoc, Deed.level?]
  | query level =>
    refine ⟨agrees_reply h rfl rfl _, ?_⟩
    unfold Action.run Session.reply
    rw [any_enables h level]
    rfl
  | queryOf logger level =>
    refine ⟨agrees_reply h rfl rfl _, ?_⟩
    unfold Action.run Session.reply Logger.enables
    simp only [h.override, rank_le_iff]
    rfl
  | log entry =>
    refine ⟨agrees_reply h rfl rfl _, ?_⟩
    unfold Action.run Session.reply
    rw [log_eq_shown h p entry]
    rfl
  | thread actions => exact absurd trivial hSingle

end Single

/-! ## Runs in small steps -/

/-- A thread that has not ended: its number, its level and what it has still to do. -/
structure Running where
  number : Nat
  override : Option Level
  pending : List Action

/-- The state of a run. The first thread of `waiting` waits for the current thread, each other one
for the thread before it. -/
structure Execution where
  process : Process
  current : Running
  waiting : List Running
  /-- How many threads have been started. -/
  started : Nat
  history : List Deed

namespace Execution

/-- A fresh process with a script. -/
def fresh (script : List Action) : Execution :=
  { process := {}, current := ⟨0, none, script⟩, waiting := [], started := 1, history := [] }

/-- The threads that have not ended. -/
def threads (e : Execution) : List Running := e.current :: e.waiting

/-- Everything is done. -/
def Ended (e : Execution) : Prop := e.current.pending = [] ∧ e.waiting = []

/-- What the current thread has before it, with all that was seen. -/
def session (e : Execution) : Session :=
  { process := e.process, override := e.current.override,
    replies := e.history.flatMap Deed.replies }

/-- The current thread ends, and the one that waits for it goes on. -/
def leave (e : Execution) (next : Running) (waiting : List Running) : Execution :=
  { e with current := next, waiting }

/-- The current thread starts another one and waits for it. -/
def enter (e : Execution) (actions pending : List Action) : Execution :=
  { e with
    current := ⟨e.started, none, actions⟩
    waiting := { e.current with pending } :: e.waiting
    started := e.started + 1
    history := e.history ++ [⟨e.current.number, .thread actions, []⟩] }

/-- The current thread does something by itself. -/
def perform (p : Printer) (e : Execution) (action : Action) (pending : List Action) : Execution :=
  let s := action.run p { e.session with replies := [] }
  { e with
    process := s.process
    current := { e.current with override := s.override, pending }
    history := e.history ++ [⟨e.current.number, action, s.replies⟩] }

/-- A step of a run. -/
def step (p : Printer) (e : Execution) : Execution :=
  match e.current.pending, e.waiting with
  | [], [] => e
  | [], next :: waiting => e.leave next waiting
  | .thread actions :: pending, _ => e.enter actions pending
  | action :: pending, _ => e.perform p action pending

/-- A script at a point of its run. -/
def after (p : Printer) (script : List Action) (n : Nat) : Execution := (step p)^[n] (fresh script)

/-- **What a step does.** -/
theorem step_cases (p : Printer) (e : Execution) :
    (e.Ended ∧ e.step p = e) ∨
    (∃ next waiting, e.current.pending = [] ∧ e.waiting = next :: waiting ∧
      e.step p = e.leave next waiting) ∨
    (∃ actions pending, e.current.pending = .thread actions :: pending ∧
      e.step p = e.enter actions pending) ∨
    (∃ action pending, e.current.pending = action :: pending ∧ ¬ action.Starts ∧
      e.step p = e.perform p action pending) := by
  unfold step
  split
  · exact .inl ⟨⟨‹_›, ‹_›⟩, rfl⟩
  · exact .inr (.inl ⟨_, _, ‹_›, ‹_›, rfl⟩)
  · exact .inr (.inr (.inl ⟨_, _, ‹_›, rfl⟩))
  · -- the last equation is for all actions but those that start threads
    rename_i action pending hOther hPending
    refine .inr (.inr (.inr ⟨action, pending, hPending, ?_, rfl⟩))
    intro hStarts
    cases action with
    | thread actions => exact hOther actions rfl
    | _ => exact hStarts

/-! ## A run keeps to its history -/

/-- Threads are told apart by their numbers. -/
structure Numbered (e : Execution) : Prop where
  nodup : (e.threads.map Running.number).Nodup
  started : ∀ t ∈ e.threads, t.number < e.started
  deeds : ∀ d ∈ e.history, d.thread < e.started

/-- The state is what the history says, and so is what was seen of each deed. -/
structure Faithful (p : Printer) (e : Execution) : Prop where
  /-- The logger is the first that any thread has asked for. -/
  logger : e.process.logger = installed e.history
  /-- No record reaches a logger before there is one, and all do from then on. -/
  ceiling : e.process.ceiling = (installed e.history).map fun _ => .trace
  /-- The level of a thread is the last that it has set itself. -/
  override : ∀ t ∈ e.threads, t.override = levelOf t.number e.history
  replies : ∀ before deed later, e.history = before ++ deed :: later →
    deed.replies = deed.due p before

section Steps

variable {p : Printer} {e : Execution}

theorem numbered_fresh (script : List Action) : (fresh script).Numbered where
  nodup := List.nodup_singleton 0
  started := by simp [fresh, threads]
  deeds := by simp [fresh]

theorem faithful_fresh (p : Printer) (script : List Action) : (fresh script).Faithful p where
  logger := rfl
  ceiling := rfl
  override := by simp [fresh, threads, levelOf]
  replies := by simp [fresh]

/-- A history with one more deed is right if the deed is. -/
theorem replies_snoc {history : List Deed} {last : Deed}
    (hReplies : ∀ before deed later, history = before ++ deed :: later →
      deed.replies = deed.due p before)
    (hLast : last.replies = last.due p history) :
    ∀ before deed later, history ++ [last] = before ++ deed :: later →
      deed.replies = deed.due p before := by
  intro before deed later hSplit
  -- the deed in question is the new one, or it stands in the history before
  obtain rfl | ⟨later', last', rfl⟩ := later.eq_nil_or_concat
  · obtain ⟨rfl, hDeed⟩ := List.append_inj' hSplit rfl
    obtain rfl : last = deed := by simpa using hDeed
    exact hLast
  · have hSnoc : history ++ [last] = (before ++ deed :: later') ++ [last'] := by simpa using hSplit
    obtain ⟨hHistory, -⟩ := List.append_inj' hSnoc rfl
    exact hReplies before deed later' hHistory

/-- What a thread has before it agrees with a faithful history. -/
theorem Faithful.agrees (h : e.Faithful p) :
    e.session.Agrees e.history e.current.number where
  logger := h.logger
  ceiling := h.ceiling
  override := h.override e.current (List.mem_cons_self)

/-- With a logger installed, the process is settled. -/
theorem Faithful.process_eq (h : e.Faithful p) {logger : Logger}
    (hInstalled : installed e.history = some logger) :
    e.process = { logger := some logger, ceiling := some .trace } := by
  have hLogger := h.logger
  have hCeiling := h.ceiling
  rw [hInstalled] at hLogger hCeiling
  cases hProcess : e.process with
  | mk held ceiling =>
    rw [hProcess] at hLogger hCeiling
    exact congrArg₂ Process.mk hLogger hCeiling

theorem numbered_leave (h : e.Numbered) {next : Running} {waiting : List Running}
    (hWaiting : e.waiting = next :: waiting) : (e.leave next waiting).Numbered := by
  have hThreads : e.threads = e.current :: (e.leave next waiting).threads := by
    unfold threads leave
    rw [hWaiting]
  have hNodup := h.nodup
  rw [hThreads, List.map_cons, List.nodup_cons] at hNodup
  refine ⟨hNodup.2, fun t ht => h.started t ?_, h.deeds⟩
  rw [hThreads]
  exact List.mem_cons_of_mem _ ht

/-- A new thread gets a number that none has had. -/
theorem numbered_enter (h : e.Numbered) (actions pending : List Action) :
    (e.enter actions pending).Numbered := by
  have hNumbers : (e.enter actions pending).threads.map Running.number =
      e.started :: e.threads.map Running.number := rfl
  have hOld : ∀ number ∈ e.threads.map Running.number, number < e.started := by
    intro number hMem
    obtain ⟨t, ht, rfl⟩ := List.mem_map.mp hMem
    exact h.started t ht
  refine ⟨?_, ?_, ?_⟩
  · rw [hNumbers, List.nodup_cons]
    exact ⟨fun hMem => Nat.lt_irrefl _ (hOld _ hMem), h.nodup⟩
  · intro t ht
    have hMem : t.number ∈ e.started :: e.threads.map Running.number :=
      hNumbers ▸ List.mem_map_of_mem ht
    show t.number < e.started + 1
    obtain hNew | hMem := List.mem_cons.mp hMem
    · omega
    · have := hOld _ hMem
      omega
  · intro d hd
    show d.thread < e.started + 1
    obtain hBefore | hLast := List.mem_append.mp hd
    · have := h.deeds d hBefore
      omega
    · -- the start is a deed of the thread that was current
      obtain rfl := List.mem_singleton.mp hLast
      have := h.started e.current List.mem_cons_self
      show e.current.number < e.started + 1
      omega

theorem numbered_perform (h : e.Numbered) (p : Printer) (action : Action) (pending : List Action) :
    (e.perform p action pending).Numbered := by
  -- the threads are the same, whatever their levels are now
  have hNumbers : (e.perform p action pending).threads.map Running.number =
      e.threads.map Running.number := rfl
  refine ⟨hNumbers ▸ h.nodup, ?_, ?_⟩
  · intro t ht
    obtain ⟨t', ht', hNumber⟩ :=
      List.mem_map.mp (hNumbers ▸ List.mem_map_of_mem (f := Running.number) ht)
    rw [← hNumber]
    exact h.started t' ht'
  · intro d hd
    obtain hBefore | hLast := List.mem_append.mp hd
    · exact h.deeds d hBefore
    · obtain rfl := List.mem_singleton.mp hLast
      exact h.started e.current List.mem_cons_self

/-- The numbers of threads stay apart. -/
theorem numbered_step (h : e.Numbered) : (e.step p).Numbered := by
  obtain ⟨-, hStep⟩ | ⟨next, waiting, -, hWaiting, hStep⟩ | ⟨actions, pending, -, hStep⟩ |
    ⟨action, pending, -, -, hStep⟩ := e.step_cases p <;> rw [hStep]
  · exact h
  · exact numbered_leave h hWaiting
  · exact numbered_enter h actions pending
  · exact numbered_perform h p action pending

theorem faithful_leave (h : e.Faithful p) {next : Running} {waiting : List Running}
    (hWaiting : e.waiting = next :: waiting) : (e.leave next waiting).Faithful p := by
  refine ⟨h.logger, h.ceiling, fun t ht => h.override t ?_, h.replies⟩
  unfold threads
  rw [hWaiting]
  exact List.mem_cons_of_mem _ ht

/-- A start sets no level, and the new thread has done nothing yet. -/
theorem faithful_enter (hNumbered : e.Numbered) (h : e.Faithful p) (actions pending : List Action) :
    (e.enter actions pending).Faithful p := by
  have hLevels : ∀ thread, levelOf thread (e.enter actions pending).history =
      levelOf thread e.history := by
    intro thread
    show levelOf thread (e.history ++ [_]) = _
    rw [levelOf_snoc]
    exact Option.none_or
  have hInstalled : installed (e.enter actions pending).history = installed e.history := by
    show installed (e.history ++ [_]) = _
    rw [installed_snoc]
    exact Option.or_none
  refine ⟨?_, ?_, ?_, replies_snoc h.replies rfl⟩
  · rw [hInstalled]
    exact h.logger
  · rw [hInstalled]
    exact h.ceiling
  · intro t ht
    rw [hLevels]
    obtain rfl | ht := List.mem_cons.mp ht
    · -- no deed so far bears the new number
      have hNew : levelOf e.started e.history = none :=
        levelOf_eq_none _ _ fun d hd => Nat.ne_of_lt (hNumbered.deeds d hd)
      exact hNew.symm
    · obtain rfl | ht := List.mem_cons.mp ht
      · exact h.override e.current List.mem_cons_self
      · exact h.override t (List.mem_cons_of_mem _ ht)

theorem faithful_perform (hNumbered : e.Numbered) (h : e.Faithful p) {action : Action}
    (hSingle : ¬ action.Starts) (pending : List Action) :
    (e.perform p action pending).Faithful p := by
  -- a deed records its own replies only, so the thread acts as if nothing had been seen before
  have hStart : ({ e.session with replies := [] } : Session).Agrees e.history
      e.current.number := ⟨h.agrees.logger, h.agrees.ceiling, h.agrees.override⟩
  obtain ⟨hAgrees, hReplies⟩ := agrees_run hStart hSingle p
    (action.run p { e.session with replies := [] }).replies
  refine ⟨hAgrees.logger, hAgrees.ceiling, ?_, replies_snoc h.replies hReplies⟩
  intro t ht
  obtain rfl | ht := List.mem_cons.mp ht
  · exact hAgrees.override
  · -- threads that wait have other numbers, so that the deed is none of theirs
    have hOther : e.current.number ≠ t.number := by
      have hNodup := hNumbered.nodup
      unfold threads at hNodup
      rw [List.map_cons, List.nodup_cons] at hNodup
      exact fun hEq => hNodup.1 (hEq ▸ List.mem_map_of_mem ht)
    show t.override = levelOf t.number (e.history ++ [_])
    rw [levelOf_snoc_of_ne _ _ _ hOther]
    exact h.override t (List.mem_cons_of_mem _ ht)

/-- **One step.** -/
theorem faithful_step (hNumbered : e.Numbered) (h : e.Faithful p) : (e.step p).Faithful p := by
  obtain ⟨-, hStep⟩ | ⟨next, waiting, -, hWaiting, hStep⟩ | ⟨actions, pending, -, hStep⟩ |
    ⟨action, pending, -, hSingle, hStep⟩ := e.step_cases p <;> rw [hStep]
  · exact h
  · exact faithful_leave h hWaiting
  · exact faithful_enter hNumbered h actions pending
  · exact faithful_perform hNumbered h hSingle pending

/-- A step forgets nothing of what was done. -/
theorem history_prefix_step (p : Printer) (e : Execution) : e.history <+: (e.step p).history := by
  have hGrown : ∃ deeds, (e.step p).history = e.history ++ deeds := by
    obtain ⟨-, hStep⟩ | ⟨next, waiting, -, -, hStep⟩ | ⟨actions, pending, -, hStep⟩ |
      ⟨action, pending, -, -, hStep⟩ := e.step_cases p
    · exact ⟨[], by rw [hStep, List.append_nil]⟩
    · exact ⟨[], by rw [hStep, List.append_nil]; rfl⟩
    · exact ⟨_, congrArg Execution.history hStep⟩
    · exact ⟨_, congrArg Execution.history hStep⟩
  obtain ⟨deeds, hDeeds⟩ := hGrown
  exact hDeeds ▸ List.prefix_append _ _

end Steps

theorem after_succ (p : Printer) (script : List Action) (n : Nat) :
    after p script (n + 1) = (after p script n).step p :=
  Function.iterate_succ_apply' _ _ _

/-- **A run.** -/
theorem faithful_after (p : Printer) (script : List Action) (n : Nat) :
    (after p script n).Numbered ∧ (after p script n).Faithful p := by
  induction n with
  | zero => exact ⟨numbered_fresh script, faithful_fresh p script⟩
  | succ n ih =>
    rw [after_succ]
    exact ⟨numbered_step ih.1, faithful_step ih.1 ih.2⟩

theorem history_prefix_after (p : Printer) (script : List Action) (n k : Nat) :
    (after p script n).history <+: (after p script (n + k)).history := by
  induction k with
  | zero => exact List.prefix_refl _
  | succ k ih =>
    rw [← Nat.add_assoc, after_succ]
    exact ih.trans (history_prefix_step p _)

/-! ## The run of a whole script -/

/-- What comes of the threads that wait, when the thread that they wait for has ended. -/
def resume (p : Printer) : List Running → Session → Session
  | [], s => s
  | t :: rest, s => resume p rest (Action.runAll p t.pending { s with override := t.override })

/-- What comes of a run when everything is done. -/
def outcome (p : Printer) (e : Execution) : Session :=
  resume p e.waiting (Action.runAll p e.current.pending e.session)

end Execution

mutual

/-- The number of steps of an action; a thread is started and left. -/
def Action.steps : Action → Nat
  | .thread actions => Action.stepsAll actions + 2
  | _ => 1

/-- The number of steps of several actions. -/
def Action.stepsAll : List Action → Nat
  | [] => 0
  | action :: rest => action.steps + Action.stepsAll rest

end

namespace Execution

/-- The number of steps of the threads that wait, with one step each to go back to them. -/
def waitingSteps : List Running → Nat
  | [] => 0
  | t :: rest => Action.stepsAll t.pending + 1 + waitingSteps rest

/-- The number of steps until everything is done. -/
def remaining (e : Execution) : Nat := Action.stepsAll e.current.pending + waitingSteps e.waiting

theorem steps_of_not_starts {action : Action} (hSingle : ¬ action.Starts) : action.steps = 1 := by
  cases action with
  | thread actions => exact absurd trivial hSingle
  | _ => rfl

theorem ended_of_remaining {e : Execution} (hRemaining : e.remaining = 0) : e.Ended := by
  unfold remaining at hRemaining
  refine ⟨?_, ?_⟩
  · cases hPending : e.current.pending with
    | nil => rfl
    | cons action rest =>
      -- no action is done in no step
      have : 0 < action.steps := by
        cases action <;> simp [Action.steps]
      rw [hPending, Action.stepsAll] at hRemaining
      omega
  · cases hWaiting : e.waiting with
    | nil => rfl
    | cons t rest =>
      rw [hWaiting, waitingSteps] at hRemaining
      omega

/-- Each step is one step less to go. -/
theorem remaining_step (p : Printer) (e : Execution) : (e.step p).remaining = e.remaining - 1 := by
  obtain ⟨⟨hPending, hWaiting⟩, hStep⟩ | ⟨next, waiting, hPending, hWaiting, hStep⟩ |
    ⟨actions, pending, hPending, hStep⟩ | ⟨action, pending, hPending, hSingle, hStep⟩ :=
      e.step_cases p <;> rw [hStep]
  · unfold remaining
    rw [hPending, hWaiting]
    rfl
  · simp only [remaining, leave, hPending, hWaiting, Action.stepsAll, waitingSteps]
    omega
  · simp only [remaining, enter, hPending, Action.stepsAll, Action.steps, waitingSteps]
    omega
  · simp only [remaining, perform, hPending, Action.stepsAll, steps_of_not_starts hSingle]
    omega

/-- A step does not change what will come of the run. -/
theorem outcome_step (p : Printer) (e : Execution) : (e.step p).outcome p = e.outcome p := by
  obtain ⟨-, hStep⟩ | ⟨next, waiting, hPending, hWaiting, hStep⟩ |
    ⟨actions, pending, hPending, hStep⟩ | ⟨action, pending, hPending, hSingle, hStep⟩ :=
      e.step_cases p <;> rw [hStep]
  · -- the thread that waits goes on with what the current one leaves
    unfold outcome
    rw [hPending, hWaiting]
    rfl
  · unfold outcome
    rw [hPending, Action.runAll, Action.run]
    -- the new thread begins without a level, and the old level comes back when it has ended
    have hSession : (e.enter actions pending).session = { e.session with override := none } := by
      unfold session enter
      simp
    show resume p e.waiting (Action.runAll p pending
      { Action.runAll p actions (e.enter actions pending).session with
        override := e.current.override }) = _
    rw [hSession]
    rfl
  · unfold outcome
    rw [hPending, Action.runAll]
    have hSession : (e.perform p action pending).session = action.run p e.session := by
      rw [run_eq_append hSingle]
      unfold session perform
      simp [session]
    show resume p e.waiting (Action.runAll p pending (e.perform p action pending).session) = _
    rw [hSession]

theorem outcome_after (p : Printer) (script : List Action) (n : Nat) :
    (after p script n).outcome p = Action.runAll p script {} := by
  induction n with
  | zero => rfl
  | succ n ih => rw [after_succ, outcome_step, ih]

theorem remaining_after (p : Printer) (script : List Action) (n : Nat) :
    (after p script n).remaining = Action.stepsAll script - n := by
  induction n with
  | zero => rfl
  | succ n ih =>
    rw [after_succ, remaining_step, ih]
    omega

/-- When all steps are done, what is left is what comes of the script as a whole. -/
theorem session_after (p : Printer) (script : List Action) :
    (after p script (Action.stepsAll script)).Ended ∧
      (after p script (Action.stepsAll script)).session = Action.runAll p script {} := by
  have hEnded : (after p script (Action.stepsAll script)).Ended :=
    ended_of_remaining (by rw [remaining_after, Nat.sub_self])
  refine ⟨hEnded, ?_⟩
  rw [← outcome_after p script (Action.stepsAll script)]
  unfold outcome
  rw [hEnded.1, hEnded.2]
  rfl

end Execution

/-- **The logger follows the history.** At every point of the run of every script:

* the state is what the history says: the logger is the first that any thread has asked for, records
  reach it from then on and none before, and a thread's level is the last that it has set itself;
* threads are told apart by their numbers, and one that has done nothing has no level of its own;
* a record is printed exactly if it passes, as one line on the stream of its level, and if it does
  not pass nothing is written;
* the history only grows, and the logger, once there is one, stays.

The run comes to an end, and there it is what the script as a whole comes to. -/
theorem log_follows_history (p : Printer) (script : List Action) :
    (∀ n, (Execution.after p script n).Faithful p ∧ (Execution.after p script n).Numbered) ∧
    (∀ n, ∀ t ∈ (Execution.after p script n).threads,
      (∀ d ∈ (Execution.after p script n).history, d.thread ≠ t.number) → t.override = none) ∧
    (∀ n before deed later entry,
      (Execution.after p script n).history = before ++ deed :: later → deed.action = .log entry →
      deed.replies =
        [.printed (if Passes before deed.thread entry.level then entry.shown p else {})] ∧
      entry.shown p ≠ ({} : Printed)) ∧
    (∀ n k, (Execution.after p script n).history <+: (Execution.after p script (n + k)).history ∧
      ∀ logger, (Execution.after p script n).process.logger = some logger →
        (Execution.after p script (n + k)).process =
          { logger := some logger, ceiling := some .trace }) ∧
    (Execution.after p script (Action.stepsAll script)).Ended ∧
    (Execution.after p script (Action.stepsAll script)).session = Action.runAll p script {} := by
  refine ⟨fun n => (Execution.faithful_after p script n).symm, ?_, ?_, ?_,
    Execution.session_after p script⟩
  · intro n t ht hNew
    rw [(Execution.faithful_after p script n).2.override t ht]
    exact levelOf_eq_none _ _ hNew
  · intro n before deed later entry hSplit hLog
    refine ⟨?_, shown_ne p entry⟩
    rw [(Execution.faithful_after p script n).2.replies before deed later hSplit]
    unfold Deed.due
    rw [hLog]
  · intro n k
    have hPrefix := Execution.history_prefix_after p script n k
    -- the history has a first logger already, and more deeds do not change that
    refine ⟨hPrefix, fun logger hLogger => ?_⟩
    have hLater := (Execution.faithful_after p script (n + k)).2
    have hInstalled : installed (Execution.after p script (n + k)).history = some logger := by
      refine installed_of_prefix hPrefix ?_
      rw [← (Execution.faithful_after p script n).2.logger]
      exact hLogger
    exact hLater.process_eq hInstalled

/-- A thread within a thread installs a logger, and another one is asked for later. The same record
is made in a thread that sets a level for itself, and in the one that waits for it. -/
def nestedInstall : List Action :=
  [.thread
      [.thread
          [.install ⟨.warn⟩, .log { level := .warn, message := "disk full", target := "disk" }],
        .override .info, .log { level := .info, message := "ready", target := "main" }],
    .log { level := .info, message := "ready", target := "main" }, .install ⟨.trace⟩]

/-- The logger that a thread within a thread installs stays for the whole process. It prints the
warning on the error stream, and the other record on the other stream in the one thread only. -/
theorem nested_install_stays :
    (Execution.after ⟨false, "noon"⟩ nestedInstall 10).process =
        { logger := some ⟨.warn⟩, ceiling := some .trace } ∧
      (∃ deed, (Execution.after ⟨false, "noon"⟩ nestedInstall 4).history =
          (Execution.after ⟨false, "noon"⟩ nestedInstall 3).history ++ [deed] ∧ deed.thread = 2 ∧
        deed.replies = [.printed { stdout := "", stderr := "disk noon WARN disk full\n" }]) ∧
      (∃ deed, (Execution.after ⟨false, "noon"⟩ nestedInstall 7).history =
          (Execution.after ⟨false, "noon"⟩ nestedInstall 6).history ++ [deed] ∧ deed.thread = 1 ∧
        deed.replies = [.printed { stdout := "main noon INFO ready\n", stderr := "" }]) ∧
      ∃ deed, (Execution.after ⟨false, "noon"⟩ nestedInstall 9).history =
          (Execution.after ⟨false, "noon"⟩ nestedInstall 8).history ++ [deed] ∧ deed.thread = 0 ∧
        deed.replies = [.printed { stdout := "", stderr := "" }] := by
  obtain ⟨-, -, hPrinted, hStays, -⟩ := log_follows_history ⟨false, "noon"⟩ nestedInstall
  refine ⟨(hStays 3 7).2 ⟨.warn⟩ rfl, ⟨_, rfl, rfl, ?_⟩, ⟨_, rfl, rfl, ?_⟩, ⟨_, rfl, rfl, ?_⟩⟩
  · exact (hPrinted 4 _ _ [] _ rfl rfl).1.trans (by decide)
  · exact (hPrinted 7 _ _ [] _ rfl rfl).1.trans (by decide)
  · exact (hPrinted 9 _ _ [] _ rfl rfl).1.trans (by decide)

/-- A logger that a thread installs stays when the thread has ended, and the thread's level goes. -/
example : (Action.runAll ⟨false, ""⟩
    [.thread [.install ⟨.warn⟩, .override .trace, .query .debug], .install ⟨.trace⟩,
      .query .debug] {}).replies =
    [.ceiling (some .trace), .overridden, .enabled true, .ceiling (some .trace),
      .enabled false] := by
  decide

end PodCompiler
