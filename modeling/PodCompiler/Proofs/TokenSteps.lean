import PodCompiler.Proofs.BlockReading
import PodCompiler.Proofs.Scanning

/-!
# PodCompiler — the tokens that the writer provokes

What one token of a written document does to the scanner. Only two things about the scanner change
for long: the block collections that are open, and the tokens in the queue; both make a `Nest`. All
tokens are kept in the queue here, which `run_of_reaches` allows.

Between two tokens the scanner passes over white space, drops what is too late to be a key, and
closes the block collections that a line has left; `arrive` does this. Two states that arrive at the
same place go on alike.

Main results:

* `reaches_scalar` — a scalar as a value, in whatever style, up to the next line.
* `reaches_key` — a key on one line, up to behind its colon.
* `reaches_mark` — the marks of items, and of keys and values on lines of their own.
* `reaches_empty` — a collection without members.
-/

namespace PodCompiler.Yaml

open Scanner

/-! ## Open collections -/

/-- The tokens so far, and the columns of the block collections that are open. -/
structure Nest where
  tokens : List Token
  column : Int
  outer : List Int

namespace Nest

/-- Adds tokens. -/
def add (ts : List Token) (nest : Nest) : Nest := { nest with tokens := nest.tokens ++ ts }

/-- Opens a collection at a column, unless it is open already. -/
def opened (column : Nat) (t : Token) (nest : Nest) : Nest :=
  if nest.column < column then
    { tokens := nest.tokens ++ [t], column, outer := nest.column :: nest.outer }
  else nest

/-- Closes the collections further in than a column. -/
def closed (column : Int) (nest : Nest) : Nest :=
  { tokens := (closeAbove column nest.outer nest.column nest.tokens).1
    column := (closeAbove column nest.outer nest.column nest.tokens).2.1
    outer := (closeAbove column nest.outer nest.column nest.tokens).2.2 }

/-- The scanner at a place, outside of all flow collections. -/
def scanner (nest : Nest) (rest : List Char) (mark : Mark) (keyAllowed : Bool)
    (pending : Option PendingKey) : Scanner :=
  { rest, cutOff := false, mark, queue := nest.tokens, released := 0, indent := nest.column
    indents := nest.outer, keyAllowed, pending, outer := [] }

/-- The scanner at the start of a line. -/
def fresh (nest : Nest) (rest : List Char) (line : Nat) : Scanner :=
  nest.scanner rest (.lineStart line) true none

theorem add_add (a b : List Token) (nest : Nest) : (nest.add a).add b = nest.add (a ++ b) := by
  simp [add]

theorem column_opened {column : Nat} {nest : Nest} (hColumn : nest.column ≤ column) (t : Token) :
    (nest.opened column t).column = column := by
  rw [opened]
  split
  · rfl
  · omega

theorem opened_eq {column : Nat} {nest : Nest} (hColumn : nest.column = column) (t : Token) :
    nest.opened column t = nest := by
  rw [opened, if_neg (by omega)]

theorem closed_eq {column : Int} {nest : Nest} (hColumn : nest.column ≤ column) :
    nest.closed column = nest := by
  obtain ⟨tokens, inner, outer⟩ := nest
  have hNot : ¬ column < inner := by simpa using hColumn
  cases outer with
  | nil => rfl
  | cons o outer => simp [closed, closeAbove, hNot]

/-- A collection that a line has left closes before those around it. -/
theorem closed_inner {column inner : Int} (hColumn : column < inner) (ts : List Token)
    (nest : Nest) :
    ({ tokens := ts, column := inner, outer := nest.column :: nest.outer } : Nest).closed column =
      ({ nest with tokens := ts ++ [.blockEnd] } : Nest).closed column := by
  simp [closed, closeAbove, hColumn]

end Nest

variable {nest : Nest} {ts : List Token} {m : Mark}

/-! ## Arriving at a token -/

/-- Goes on to the next token without reading it. -/
def Scanner.arrive (s : Scanner) : Option Scanner :=
  s.toToken.dropStale.bind fun s => (s.look 4).bind fun s => some (s.closeBlocks s.mark.column)

theorem next_eq_arrive (s : Scanner) : s.next = s.arrive.bind fun s => s.token.bind (look 1) := by
  have hUnfold : s.next = s.toToken.dropStale.bind fun s =>
      (s.look 4).bind fun s => (s.closeBlocks s.mark.column).token.bind (look 1) := rfl
  rw [hUnfold, arrive, Option.bind_assoc]
  congr 1
  funext s
  rw [Option.bind_assoc]
  rfl

theorem reaches_of_arrive {s s' : Scanner} (hArrive : s.arrive = s'.arrive)
    (hReaches : Reaches ts s') : Reaches ts s :=
  hReaches.congr (by rw [next_eq_arrive, next_eq_arrive, hArrive])

/-- A text without anything that can end it. -/
theorem look_eq {s : Scanner} (hCut : s.cutOff = false) (count : Nat) : s.look count = some s := by
  rw [look, hCut]
  rfl

/-- A token that may become a key is dropped on the way to the next one if its line is over. -/
theorem arrive_eq {rest rest' : List Char} {m' : Mark} {allowed allowed' : Bool}
    {pending pending' : Option PendingKey}
    (hPass : passBlanks false rest m allowed false = (rest', m', allowed'))
    (hPending : (nest.scanner rest' m' allowed' pending).dropIfStale pending = some pending') :
    (nest.scanner rest m allowed pending).arrive =
      some ((nest.closed m'.column).scanner rest' m' allowed' pending') := by
  have hToken : (nest.scanner rest m allowed pending).toToken =
      nest.scanner rest' m' allowed' pending := by
    have hFlow : (nest.scanner rest m allowed pending).inFlow = false := rfl
    rw [toToken, hFlow]
    simp only [Nest.scanner, hPass]
  have hOuter : (nest.scanner rest' m' allowed' pending).outer = [] := rfl
  have hKeep : (nest.scanner rest' m' allowed' pending).pending = pending := rfl
  have hDrop : (nest.scanner rest' m' allowed' pending).dropStale =
      some (nest.scanner rest' m' allowed' pending') := by
    rw [dropStale, hOuter, hKeep, hPending]
    rfl
  rw [arrive, hToken, hDrop, Option.bind_some, look_eq rfl, Option.bind_some]
  rfl

theorem passBlanks_token {inFlow : Bool} {rest : List Char} (hRest : AtToken rest) (m : Mark)
    (allowed : Bool) : passBlanks inFlow rest m allowed false = (rest, m, allowed) := by
  cases rest with
  | nil => rfl
  | cons c rest =>
    obtain ⟨hBlank, hBreak, hSign, hMark⟩ := hRest c rfl
    have hSpace : c ≠ ' ' ∧ c ≠ '\t' := by
      constructor <;> rintro rfl <;> cases hBlank
    rw [passBlanks]
    simp [hBreak, hMark, hSpace, hSign]

theorem passBlanks_spaces (n : Nat) (rest : List Char) (m : Mark) (allowed : Bool) :
    passBlanks false (spaces n ++ rest) m allowed false =
      passBlanks false rest (m.step n) allowed false := by
  induction n generalizing m with
  | zero => rfl
  | succ n ih =>
    have hNoMark : ' ' ≠ byteOrderMark := by decide
    rw [spaces_succ, List.cons_append, passBlanks, if_neg (by decide), if_neg (by simp),
      if_neg (by simp [hNoMark]), if_pos (by simp), ih, Mark.step_step, Nat.add_comm 1 n]

theorem passBlanks_feed (rest : List Char) (m : Mark) (allowed : Bool) :
    passBlanks false ('\n' :: rest) m allowed false = passBlanks false rest m.newline true false := by
  rw [passBlanks, if_pos (by decide)]
  simp

/-- At a token nothing has to be done, unless collections have to be closed. -/
theorem arrive_token {rest : List Char} (hRest : AtToken rest) (allowed : Bool) :
    (nest.scanner rest m allowed none).arrive =
      some ((nest.closed m.column).scanner rest m allowed none) :=
  arrive_eq (passBlanks_token hRest m allowed) rfl

theorem arrive_congr {rest rest' : List Char} {m' : Mark} {allowed allowed' : Bool}
    (hPass : passBlanks false rest m allowed false = passBlanks false rest' m' allowed' false) :
    (nest.scanner rest m allowed none).arrive = (nest.scanner rest' m' allowed' none).arrive := by
  have hRight : ∃ r, passBlanks false rest' m' allowed' false = r := ⟨_, rfl⟩
  obtain ⟨⟨r, mark, reached⟩, hEq⟩ := hRight
  rw [arrive_eq hEq rfl, arrive_eq (hPass.trans hEq) rfl]

theorem reaches_blank {rest : List Char} {allowed : Bool}
    (hRest : Reaches ts (nest.scanner rest (m.step 1) allowed none)) :
    Reaches ts (nest.scanner (' ' :: rest) m allowed none) :=
  reaches_of_arrive (arrive_congr (passBlanks_spaces 1 rest m allowed)) hRest

/-! ## Behind a value -/

/-- What follows a value at a level: a line that is not moved in further, if anything. -/
def Tail (n : Nat) (tail : List Char) : Prop :=
  ∃ k rest, k ≤ n ∧ AtToken rest ∧ tail = spaces k ++ rest

theorem tail_nil (n : Nat) : Tail n [] := by
  refine ⟨0, [], Nat.zero_le n, ?_, rfl⟩
  intro c hc
  cases hc

theorem Tail.mono {n k : Nat} {tail : List Char} (hTail : Tail n tail) (hk : n ≤ k) :
    Tail k tail := by
  obtain ⟨column, rest, hColumn, hRest, hEq⟩ := hTail
  exact ⟨column, rest, Nat.le_trans hColumn hk, hRest, hEq⟩

theorem tail_spaces {n : Nat} {rest : List Char} (hRest : AtToken rest) :
    Tail n (spaces n ++ rest) :=
  ⟨n, rest, Nat.le_refl n, hRest, rfl⟩

/-- A line begins in the same way wherever the scanner has come to in it. -/
theorem arrive_fresh {k : Nat} {rest : List Char} (hRest : AtToken rest) (line : Nat) :
    (nest.fresh (spaces k ++ rest) line).arrive =
      some ((nest.closed k).scanner rest ((Mark.lineStart line).step k) true none) := by
  have hPass := passBlanks_spaces k rest (.lineStart line) true
  have hColumn : ((Mark.lineStart line).step k).column = k := by simp [Mark.lineStart, Mark.step]
  rw [passBlanks_token hRest] at hPass
  rw [Nest.fresh, arrive_eq hPass rfl, hColumn]

/-- A token that may become a key, but only before a line. -/
def Late (pending : Option PendingKey) (line : Nat) : Prop :=
  ∀ k, pending = some k → k.required = false ∧ k.mark.line < line

theorem dropIfStale_late {pending : Option PendingKey} {line : Nat} (hLate : Late pending line)
    {s : Scanner} (hLine : s.mark.line = line) : s.dropIfStale pending = some none := by
  cases pending with
  | none => rfl
  | some k =>
    obtain ⟨hRequired, hBefore⟩ := hLate k rfl
    have hStale : s.isStale k = true := by
      rw [isStale, hLine, decide_eq_true hBefore, Bool.true_or]
    rw [dropIfStale, if_pos hStale, if_neg (by simp [hRequired])]

/-- A value that has ended in its line. -/
theorem reaches_endLine {n : Nat} {tail : List Char} (hTail : Tail n tail)
    {pending : Option PendingKey} (hLate : Late pending (m.line + 1)) {allowed : Bool}
    (hRest : ∀ line, Reaches ts (nest.fresh tail line)) :
    Reaches ts (nest.scanner ('\n' :: tail) m allowed pending) := by
  obtain ⟨k, rest, -, hToken, rfl⟩ := hTail
  refine reaches_of_arrive ?_ (hRest (m.line + 1))
  have hPass := passBlanks_feed (spaces k ++ rest) m allowed
  rw [passBlanks_spaces, passBlanks_token hToken] at hPass
  have hColumn : (m.newline.step k).column = k := by simp [Mark.newline, Mark.step]
  rw [arrive_fresh hToken, arrive_eq hPass (dropIfStale_late hLate rfl), hColumn]
  rfl

/-- A value that was read up to the next line. -/
theorem reaches_nextLine {k line : Nat} {rest : List Char} (hToken : AtToken rest)
    {pending : Option PendingKey} (hLate : Late pending line)
    (hRest : ∀ line, Reaches ts (nest.fresh (spaces k ++ rest) line)) :
    Reaches ts (nest.scanner rest ((Mark.lineStart line).step k) true pending) := by
  refine reaches_of_arrive ?_ (hRest line)
  have hColumn : ((Mark.lineStart line).step k).column = k := by simp [Mark.lineStart, Mark.step]
  rw [arrive_fresh hToken,
    arrive_eq (passBlanks_token hToken _ _) (dropIfStale_late hLate rfl), hColumn]

/-- Collections that the next line leaves. -/
theorem reaches_close {n inner : Nat} {tail : List Char} (hTail : Tail n tail) (hInner : n < inner)
    {tokens : List Token} {line : Nat}
    (hRest : Reaches ts (({ nest with tokens := tokens ++ [.blockEnd] } : Nest).fresh tail line)) :
    Reaches ts
      (({ tokens, column := inner, outer := nest.column :: nest.outer } : Nest).fresh tail line) := by
  obtain ⟨k, rest, hk, hToken, rfl⟩ := hTail
  refine reaches_of_arrive ?_ hRest
  rw [arrive_fresh hToken, arrive_fresh hToken, Nest.closed_inner (by omega)]

/-! ## Reading a token -/

theorem reaches_token {rest : List Char} (hRest : AtToken rest) (hColumn : nest.column ≤ m.column)
    {allowed : Bool} {s : Scanner} (hToken : (nest.scanner rest m allowed none).token = some s)
    (hCut : s.cutOff = false) (hSettled : s.Settled) (hReaches : Reaches ts s) :
    Reaches ts (nest.scanner rest m allowed none) := by
  refine .next ?_ hSettled hReaches
  rw [next_eq_arrive, arrive_token hRest, Nest.closed_eq hColumn, Option.bind_some, hToken,
    Option.bind_some, look_eq hCut]

/-- What is noted about a token that may become a key. -/
def Nest.key (nest : Nest) (m : Mark) : PendingKey :=
  { number := nest.tokens.length, required := nest.column = m.column, mark := m }

theorem savePending_eq (rest : List Char) (allowed : Bool) :
    (nest.scanner rest m allowed none).savePending =
      some (nest.scanner rest m allowed (if allowed then some (nest.key m) else none)) := by
  cases allowed with
  | false => rfl
  | true =>
    have hKey : nest.key m =
        { number := 0 + nest.tokens.length
          required := !false && nest.column = m.column
          mark := m } := by
      simp [Nest.key]
    rw [hKey]
    rfl

theorem late_key {m : Mark} (hColumn : nest.column < m.column) (allowed : Bool) {line : Nat}
    (hLine : m.line < line) : Late (if allowed then some (nest.key m) else none) line := by
  intro k hk
  cases allowed with
  | false => cases hk
  | true =>
    obtain rfl := Option.some.inj hk
    have hNot : nest.column ≠ m.column := by omega
    exact ⟨by simp [Nest.key, hNot], hLine⟩

theorem late_none (line : Nat) : Late none line := by
  intro k hk
  cases hk

theorem settled_none (rest : List Char) (m : Mark) (allowed : Bool) :
    (nest.scanner rest m allowed none).Settled := by
  intro k hk
  simp [Nest.scanner] at hk

theorem settled_key {nest' : Nest} {rest : List Char} {m m' : Mark} {allowed allowed' : Bool}
    (hLine : m.line ≤ m'.line) :
    (nest'.scanner rest m' allowed' (if allowed then some (nest.key m) else none)).Settled := by
  intro k hk
  cases allowed with
  | false => simp [Nest.scanner] at hk
  | true =>
    have hkey : k = nest.key m := by simpa [Nest.scanner] using hk
    rw [hkey]
    exact hLine

/-! ## Scalars -/

theorem startsWithMarker_three (a b c : Char) (rest : List Char) :
    startsWithMarker (a :: b :: c :: rest) =
      decide ((a = '-' ∧ b = '-' ∧ c = '-') ∨ (a = '.' ∧ b = '.' ∧ c = '.')) := by
  unfold startsWithMarker
  split
  next hEq => simp_all
  next hEq => simp_all
  next hDash hDot =>
    have hNot : ¬ ((a = '-' ∧ b = '-' ∧ c = '-') ∨ (a = '.' ∧ b = '.' ∧ c = '.')) := by
      rintro (⟨rfl, rfl, rfl⟩ | ⟨rfl, rfl, rfl⟩)
      · exact hDash rest rfl
      · exact hDot rest rfl
    rw [decide_eq_false hNot]

theorem startsWithMarker_of_document {cs : List Char} (hMarker : atDocumentMarker cs = true) :
    startsWithMarker cs = true := by
  unfold atDocumentMarker at hMarker
  split at hMarker
  · rfl
  · rfl
  · cases hMarker

/-- A colon or a line feed does not complete a marker between documents. -/
theorem startsWithMarker_append {c : Char} {rest suffix : List Char}
    (hMarker : startsWithMarker (c :: rest) = false)
    (hSuffix : suffix.head? = some ':' ∨ suffix.head? = some '\n') :
    startsWithMarker (c :: (rest ++ suffix)) = false := by
  -- a marker has three characters: the text has them all, or the one behind it is among them
  obtain ⟨d, more, rfl, hd⟩ : ∃ d more, suffix = d :: more ∧ (d = ':' ∨ d = '\n') := by
    cases suffix with
    | nil => simp at hSuffix
    | cons d more => exact ⟨d, more, rfl, by simpa using hSuffix⟩
  have hOther : d ≠ '-' ∧ d ≠ '.' := by
    rcases hd with rfl | rfl
    · decide
    · decide
  cases rest with
  | nil =>
    cases more with
    | nil => simp [startsWithMarker]
    | cons e more =>
      rw [List.nil_append, startsWithMarker_three, decide_eq_false]
      simp [hOther]
  | cons a rest =>
    cases rest with
    | nil =>
      rw [List.cons_append, List.nil_append, startsWithMarker_three, decide_eq_false]
      simp [hOther]
    | cons b rest =>
      rw [startsWithMarker_three] at hMarker
      rw [List.cons_append, List.cons_append, startsWithMarker_three]
      exact hMarker

theorem blank_break_of_plainText {c : Char} {rest : List Char} (hText : PlainText (c :: rest)) :
    isBlank c = false ∧ isBreak c = false := by
  obtain ⟨hPrintable, hBreak⟩ := hText.inline c List.mem_cons_self
  have hSpace : c ≠ ' ' := by simpa using hText.head
  exact ⟨by rw [isBlank_eq_of_printable hPrintable, decide_eq_false hSpace], hBreak⟩

/-- A sign at the start of a plain text is no mark: in the text no blank follows it, and so none
does in the document. -/
theorem not_mark_of_plainText {c : Char} {rest : List Char} (hText : PlainText (c :: rest))
    (suffix : List Char) {d : Char} (hd : d ∈ ['-', '?', ':']) :
    ¬ (c = d ∧ atBlank (rest ++ suffix) = true) := by
  rintro ⟨rfl, hAt⟩
  have hStart := hText.indicator
  rw [startsWithIndicator, Bool.or_eq_false_iff] at hStart
  have hHere : atBlank rest = false := by
    simp only [List.mem_cons, List.not_mem_nil, or_false] at hd
    rcases hd with rfl | rfl | rfl
    · simpa using hStart.2
    · simpa using hStart.2
    · simpa using hStart.2
  cases rest with
  | nil => cases hHere
  | cons e rest => cases hHere.symm.trans hAt

theorem startsPlain_of_plainText {c : Char} {rest : List Char} (hText : PlainText (c :: rest))
    (suffix : List Char) : startsPlain false c (rest ++ suffix) = true := by
  obtain ⟨hBlank, hBreak⟩ := blank_break_of_plainText hText
  have hStart := hText.indicator
  rw [startsWithIndicator, Bool.or_eq_false_iff] at hStart
  have hFurther : ∀ d ∈ ['-', '?', ':'], c = d → atBlank (rest ++ suffix) = false := by
    intro d hd hc
    simpa [hc] using not_mark_of_plainText hText suffix hd
  by_cases hDash : c = '-'
  · have hNext := hFurther '-' (by simp) hDash
    cases hRest : rest ++ suffix with
    | nil => simp [startsPlain, hDash]
    | cons d more =>
      rw [hRest, atBlank, Bool.or_eq_false_iff] at hNext
      simp [startsPlain, hDash, hNext.1]
  · by_cases hQuestion : c = '?'
    · simp [startsPlain, hQuestion, hFurther '?' (by simp) hQuestion]
    · by_cases hColon : c = ':'
      · simp [startsPlain, hColon, hFurther ':' (by simp) hColon]
      · simp [startsPlain, hBlank, hBreak, hStart.1, hDash, hQuestion, hColon]

/-- A plain text is taken for nothing else. -/
theorem token_plain {c : Char} {rest : List Char} (hText : PlainText (c :: rest))
    {suffix : List Char} (hSuffix : suffix.head? = some ':' ∨ suffix.head? = some '\n')
    {allowed : Bool} {pending : Option PendingKey} :
    (nest.scanner (c :: (rest ++ suffix)) m allowed pending).token =
      (nest.scanner (c :: (rest ++ suffix)) m allowed pending).plain := by
  have hMarker : atDocumentMarker (c :: (rest ++ suffix)) = false := by
    rw [Bool.eq_false_iff]
    intro hAt
    have hStarts := startsWithMarker_of_document hAt
    rw [startsWithMarker_append hText.marker hSuffix] at hStarts
    cases hStarts
  have hNot : ∀ d ∈ ['#', ',', '[', ']', '\x7b', '\x7d', '&', '*', '!', '|', '>', '\'', '\x22', '%',
      '@', '\x60'], c ≠ d := by
    have hStart := hText.indicator
    rw [startsWithIndicator, Bool.or_eq_false_iff] at hStart
    rintro d hd rfl
    rw [isIndicator, decide_eq_true hd] at hStart
    cases hStart.1
  -- no sign is a mark here, and what is left is the start of a plain scalar
  have hItem := not_mark_of_plainText hText suffix (d := '-') (by simp)
  have hKey := not_mark_of_plainText hText suffix (d := '?') (by simp)
  have hValue := not_mark_of_plainText hText suffix (d := ':') (by simp)
  have hFlow : (nest.scanner (c :: (rest ++ suffix)) m allowed pending).inFlow = false := rfl
  have hPlain := startsPlain_of_plainText hText suffix
  rw [token_eq]
  show tokenAt c (rest ++ suffix) _ = _
  simp only [List.mem_cons, List.not_mem_nil, or_false, forall_eq_or_imp, forall_eq] at hNot
  simp [tokenAt, hNot, hMarker, hFlow, hItem, hKey, hValue, hPlain]

theorem plain_eq {rest : List Char} {allowed : Bool} {r : ReadScalar}
    (hRead : readPlain false (nest.column + 1) rest m .none [] = some r) :
    (nest.scanner rest m allowed none).plain =
      some ((nest.add [.scalar .plain (String.ofList r.text)]).scanner r.rest r.mark r.newLine
        (if allowed then some (nest.key m) else none)) := by
  rw [plain, savePending_eq]
  show (readPlain false (nest.column + 1) rest m .none []).bind _ = _
  rw [hRead]
  rfl

theorem quoted_eq {c : Char} {rest : List Char} {allowed single : Bool} {r : ReadScalar}
    (hRead : readQuoted single rest (m.step 1) .none [] = some r) :
    (nest.scanner (c :: rest) m allowed none).quoted single =
      some ((nest.add [.scalar (if single then .singleQuoted else .doubleQuoted)
        (String.ofList r.text)]).scanner r.rest r.mark false
        (if allowed then some (nest.key m) else none)) := by
  rw [quoted, savePending_eq]
  show (readQuoted single rest (m.step 1) .none []).bind _ = _
  rw [hRead]
  rfl

theorem block_eq {c : Char} {rest : List Char} {allowed : Bool} {r : ReadScalar}
    (hRead : readBlock false nest.column rest (m.step 1) = some r) :
    (nest.scanner (c :: rest) m allowed none).block false =
      some ((nest.add [.scalar .literal (String.ofList r.text)]).scanner r.rest r.mark true none) := by
  show (readBlock false nest.column rest (m.step 1)).bind _ = _
  rw [hRead]
  rfl

/-- Quotes and the mark of a block are taken for nothing else. -/
theorem token_mark (rest : List Char) (allowed : Bool) (pending : Option PendingKey) :
    (nest.scanner ('\'' :: rest) m allowed pending).token =
        (nest.scanner ('\'' :: rest) m allowed pending).quoted true ∧
      (nest.scanner ('\x22' :: rest) m allowed pending).token =
        (nest.scanner ('\x22' :: rest) m allowed pending).quoted false ∧
      (nest.scanner ('|' :: rest) m allowed pending).token =
        (nest.scanner ('|' :: rest) m allowed pending).block false := by
  have hFlow : ∀ cs, (nest.scanner cs m allowed pending).inFlow = false := fun _ => rfl
  refine ⟨?_, ?_, ?_⟩
  · rw [token_eq]
    show tokenAt '\'' rest _ = _
    simp [tokenAt, atDocumentMarker]
  · rw [token_eq]
    show tokenAt '\x22' rest _ = _
    simp [tokenAt, atDocumentMarker]
  · rw [token_eq]
    show tokenAt '|' rest _ = _
    simp [tokenAt, atDocumentMarker, hFlow]

/-- A scalar in double quotes is a token, and the place behind it is known. -/
theorem token_doubleQuoted (cs suffix : List Char) (allowed : Bool) :
    (nest.scanner (doubleQuoted cs ++ suffix) m allowed none).token =
      some ((nest.add [.scalar .doubleQuoted (String.ofList cs)]).scanner suffix
        (((m.step 1).past (cs.flatMap doubleQuotedChar)).step 1) false
        (if allowed then some (nest.key m) else none)) := by
  have hRead : readQuoted false (cs.flatMap doubleQuotedChar ++ '\x22' :: suffix)
      (m.step 1) .none [] = _ := readQuoted_double suffix rfl (by simp [Mark.step])
  have hBody : doubleQuoted cs ++ suffix =
      '\x22' :: (cs.flatMap doubleQuotedChar ++ '\x22' :: suffix) := by
    simp [doubleQuoted]
  rw [hBody]
  exact (token_mark _ _ _).2.1.trans (quoted_eq hRead)

/-- A scalar in single quotes is a token. The place behind it is known if it is one line. -/
theorem token_singleQuoted (nest : Nest) (m : Mark) {cs : List Char} (hText : SingleText cs)
    {indent : Nat}
    (hIndent : ∀ c ∈ cs, isBreak c = true → 0 < indent) {suffix : List Char}
    (hSuffix : suffix.head? ≠ some '\'') (allowed : Bool) :
    ∃ mark, (nest.scanner (singleQuoted indent cs ++ suffix) m allowed none).token =
        some ((nest.add [.scalar .singleQuoted (String.ofList cs)]).scanner suffix mark false
          (if allowed then some (nest.key m) else none)) ∧
      m.line ≤ mark.line ∧
      ((∀ c ∈ cs, isBreak c = false) →
        mark = ((m.step 1).past (singleQuotedBody indent false cs)).step 1) := by
  have hStart : Between indent cs false (m.step 1) .none := between_words (Nat.succ_pos m.column)
  obtain ⟨mark, hRead, hLine, hMark⟩ := readQuoted_singleBody hText hIndent hSuffix hStart []
  have hBody : singleQuoted indent cs ++ suffix =
      '\'' :: (singleQuotedBody indent false cs ++ '\'' :: suffix) := by
    simp [singleQuoted]
  rw [hBody]
  exact ⟨mark, (token_mark _ _ _).1.trans (quoted_eq hRead), hLine, hMark rfl⟩

theorem atToken_cons {c : Char} (rest : List Char)
    (hc : isBlank c = false ∧ isBreak c = false ∧ c ≠ '#' ∧ c ≠ byteOrderMark) :
    AtToken (c :: rest) := by
  intro d hd
  obtain rfl : c = d := Option.some.inj hd
  exact hc

theorem atToken_scalar {cs : List Char} {style : Style} (hFits : Fits cs style) (indent : Nat)
    (suffix : List Char) : AtToken (inStyle style indent cs ++ suffix) := by
  cases hFits with
  | single hText => exact atToken_cons _ (by decide)
  | double => exact atToken_cons _ (by decide)
  | literal hText => exact atToken_cons _ (by decide)
  | plain hText =>
    obtain ⟨c, rest, rfl⟩ := List.exists_cons_of_ne_nil hText.ne_nil
    obtain ⟨hBlank, hBreak⟩ := blank_break_of_plainText hText
    have hSign : c ≠ '#' := by
      rintro rfl
      exact absurd hText.indicator (by simp [startsWithIndicator, isIndicator])
    exact atToken_cons _
      ⟨hBlank, hBreak, hSign, ne_mark_of_printable (hText.printable c List.mem_cons_self)⟩

/-- A scalar as a value, in any style, up to the next line. -/
theorem reaches_scalar {n : Nat} (hColumn : nest.column = n) {cs : List Char} {style : Style}
    (hFits : Fits cs style) (hIn : n < m.column) (allowed : Bool) {tail : List Char}
    (hTail : Tail n tail)
    (hRest : ∀ line, Reaches ts
      ((nest.add [.scalar style (String.ofList cs)]).fresh tail line)) :
    Reaches ts (nest.scanner (endLine (inStyle style (n + 2) cs) ++ tail) m allowed none) := by
  have hInner : nest.column < m.column := by omega
  have hLate : ∀ {line : Nat}, m.line < line →
      Late (if allowed then some (nest.key m) else none) line := late_key hInner allowed
  cases hFits with
  | plain hText =>
    obtain ⟨k, rest, hk, hToken, rfl⟩ := hTail
    have hStart := atToken_scalar (.plain hText) (n + 2) ('\n' :: (spaces k ++ rest))
    obtain ⟨c, more, rfl⟩ := List.exists_cons_of_ne_nil hText.ne_nil
    have hRead := readPlain_value hText (by omega : nest.column + 1 ≤ (m.column : Int) + 1)
      (by omega : (k : Int) < nest.column + 1) hToken
    rw [inStyle, endLine_of_inline hText.inline, List.append_assoc]
    refine reaches_token hStart hInner.le ((token_plain hText (.inr rfl)).trans (plain_eq hRead))
      rfl (settled_key (Nat.le_succ m.line)) ?_
    exact reaches_nextLine hToken (hLate (Nat.lt_succ_self m.line)) hRest
  | double =>
    have hBody : endLine (inStyle .doubleQuoted (n + 2) cs) ++ tail =
        doubleQuoted cs ++ '\n' :: tail := by
      show endLine (doubleQuoted cs) ++ tail = _
      rw [endLine_of_inline (inline_doubleQuoted cs), List.append_assoc]
      rfl
    rw [hBody]
    refine reaches_token (atToken_cons _ (by decide)) hInner.le (token_doubleQuoted _ _ _) rfl
      (settled_key (by simp [Mark.step])) ?_
    exact reaches_endLine hTail (hLate (by simp [Mark.step])) hRest
  | single hText =>
    obtain ⟨mark, hToken, hLine, -⟩ := token_singleQuoted nest m hText
      (fun _ _ _ => Nat.succ_pos (n + 1) : ∀ c ∈ cs, isBreak c = true → 0 < n + 2)
      (by simp : ('\n' :: tail).head? ≠ some '\'') allowed
    have hBody : endLine (inStyle .singleQuoted (n + 2) cs) ++ tail =
        singleQuoted (n + 2) cs ++ '\n' :: tail := by
      rw [inStyle, endLine_singleQuoted]
      simp [singleQuoted]
    rw [hBody]
    refine reaches_token (atToken_cons _ (by decide)) hInner.le hToken rfl (settled_key hLine) ?_
    exact reaches_endLine hTail (hLate (Nat.lt_succ_of_le hLine)) hRest
  | literal hText =>
    obtain ⟨k, rest, hk, hToken, rfl⟩ := hTail
    -- the block takes the line breaks behind it along, up to the next token
    obtain ⟨line, hRead⟩ := readBlock_literal hText hk hToken (m.step 1)
    rw [← hColumn] at hRead
    have hBody : endLine (inStyle .literal (n + 2) cs) ++ (spaces k ++ rest) =
        '|' :: (indentationSign cs ++ (chompingSign cs ++ '\n' ::
          (literalBody (n + 2) true cs ++ (lineEnd (cs.getLastD '\n') ++ (spaces k ++ rest))))) := by
      rw [inStyle, endLine_literal]
      simp
    rw [hBody]
    refine reaches_token (atToken_cons _ (by decide)) hInner.le
      ((token_mark _ _ _).2.2.trans (block_eq hRead)) rfl (settled_none _ _ _) ?_
    exact reaches_nextLine hToken (late_none line) hRest

/-! ## Keys -/

/-- A key on one line is read up to its colon, and may still become a key there. -/
theorem token_simpleKey {key : String} (hKey : isSimpleKey key = true) {style : Style}
    (hFits : Fits key.toList style) (indent : Nat) {rest : List Char}
    (hRest : atBlank rest = true) (hColumn : nest.column ≤ m.column) :
    ∃ m', (nest.scanner (inStyle style indent key.toList ++ ':' :: rest) m true none).token =
        some ((nest.add [.scalar style key]).scanner (':' :: rest) m' false
          (some (nest.key m))) ∧
      m'.line = m.line ∧ m.column < m'.column ∧ m'.offset ≤ m.offset + 1024 := by
  have hLine := oneLine_of_isSimpleKey hKey
  -- quoted, a key has four times its octets at most, and a key may have 1024 of them
  have hOctets : String.utf8Len key.toList ≤ 128 := by
    rw [isSimpleKey, Bool.and_eq_true, decide_eq_true_eq] at hKey
    rw [String.utf8Len_toList]
    exact hKey.2
  have hStyle := hFits.ne_literal hLine
  have hName : String.ofList key.toList = key := String.ofList_toList
  generalize hText : key.toList = cs at hLine hOctets hFits hName
  cases hFits with
  | literal hBlock => exact absurd rfl hStyle
  | plain hPlain =>
    have hRead := readPlain_key hPlain (by omega : nest.column + 1 ≤ (m.column : Int) + 1) hRest
    obtain ⟨c, more, rfl⟩ := List.exists_cons_of_ne_nil hPlain.ne_nil
    refine ⟨m.past (c :: more), ?_, by simp, by simp, by rw [Mark.offset_past]; omega⟩
    rw [← hName]
    exact (token_plain hPlain (.inl rfl)).trans (plain_eq hRead)
  | double =>
    have hLength := octets_doubleQuoted cs
    refine ⟨((m.step 1).past (cs.flatMap doubleQuotedChar)).step 1, ?_, by simp [Mark.step], ?_, ?_⟩
    · rw [← hName]
      exact token_doubleQuoted cs (':' :: rest) true
    · simp [Mark.step]
      omega
    · simp [Mark.step]
      omega
  | single hSingle =>
    obtain ⟨mark, hToken, -, hMark⟩ := token_singleQuoted nest m hSingle
      (fun c hc hBreak => absurd hBreak (by simp [hLine c hc]) : ∀ c ∈ cs, _ → 0 < indent)
      (by simp : (':' :: rest).head? ≠ some '\'') true
    obtain rfl := hMark hLine
    have hLength := octets_singleQuoted indent hLine
    refine ⟨((m.step 1).past (singleQuotedBody indent false cs)).step 1, ?_, by simp [Mark.step],
      ?_, ?_⟩
    · rw [← hName]
      exact hToken
    · simp [Mark.step]
      omega
    · simp [Mark.step]
      omega

theorem token_colon {rest : List Char} (hRest : atBlank rest = true) (allowed : Bool)
    (pending : Option PendingKey) :
    (nest.scanner (':' :: rest) m allowed pending).token =
      (nest.scanner (':' :: rest) m allowed pending).value := by
  rw [token_eq]
  show tokenAt ':' rest _ = _
  simp [tokenAt, atDocumentMarker, hRest]

/-- At a colon the token before it becomes a key. -/
theorem value_key {t : Token} {rest : List Char} {m' : Mark} :
    ((nest.add [t]).scanner (':' :: rest) m' false (some (nest.key m))).value =
      some (((nest.opened m.column .blockMapping).add [.key, t, .value]).scanner rest (m'.step 1)
        false none) := by
  have hPlace : (nest.key m).number - 0 = nest.tokens.length := rfl
  have hMark : (nest.key m).mark = m := rfl
  by_cases hOpens : nest.column < m.column
  · simp [value, markKey, openBlock, Nest.scanner, Nest.add, Nest.opened, hOpens, inFlow, push, skip,
      hPlace, hMark]
  · simp [value, markKey, openBlock, Nest.scanner, Nest.add, Nest.opened, hOpens, inFlow, push, skip,
      hPlace, hMark]

/-- A key on one line, up to behind its colon. -/
theorem reaches_key {key : String} (hKey : isSimpleKey key = true) {style : Style}
    (hFits : Fits key.toList style) (indent : Nat) {rest : List Char}
    (hBlank : atBlank rest = true) (hColumn : nest.column ≤ m.column)
    (hRest : ∀ m', m.column < m'.column →
      Reaches ts (((nest.opened m.column .blockMapping).add
        [.key, .scalar style key, .value]).scanner rest m' false none)) :
    Reaches ts (nest.scanner (inStyle style indent key.toList ++ ':' :: rest) m true none) := by
  obtain ⟨m', hToken, hLine, hAfter, hOffset⟩ := token_simpleKey hKey hFits indent hBlank hColumn
  have hStart := atToken_scalar hFits indent (':' :: rest)
  have hColon : AtToken (':' :: rest) := atToken_cons rest (by decide)
  have hKept : ((nest.add [.scalar style key]).scanner (':' :: rest) m' false
      (some (nest.key m))).dropIfStale (some (nest.key m)) = some (some (nest.key m)) := by
    -- the colon is in the same line, and near enough
    have hFresh : ((nest.add [.scalar style key]).scanner (':' :: rest) m' false
        (some (nest.key m))).isStale (nest.key m) = false := by
      show (decide (m.line < m'.line) || decide (m.offset + 1024 < m'.offset)) = false
      rw [Bool.or_eq_false_iff, decide_eq_false_iff_not, decide_eq_false_iff_not]
      omega
    rw [dropIfStale, hFresh]
    rfl
  refine reaches_token hStart hColumn hToken rfl ?_ ?_
  · intro k hk
    obtain rfl : k = nest.key m := by simpa [Nest.scanner] using hk
    exact Nat.le_of_eq hLine.symm
  refine .next ?_ (settled_none _ _ _) (hRest (m'.step 1) (Nat.lt_succ_of_lt hAfter))
  have hInner : (nest.add [.scalar style key]).column ≤ m'.column := by
    show nest.column ≤ m'.column
    omega
  rw [next_eq_arrive, arrive_eq (passBlanks_token hColon m' false) hKept, Nest.closed_eq hInner,
    Option.bind_some, token_colon hBlank, value_key, Option.bind_some, look_eq rfl]

/-! ## Marks of items and of keys on lines of their own -/

/-- The marks that may open a collection, with its token and their own. -/
def marks : List (Char × Token × Token) :=
  [('-', .blockSequence, .item), ('?', .blockMapping, .key), (':', .blockMapping, .value)]

theorem openHere_eq (rest : List Char) (t : Token) :
    (nest.scanner rest m true none).openHere t =
      some ((nest.opened m.column t).scanner rest m true none) := by
  have hHere : (nest.scanner rest m true none).openHere t =
      some ((nest.scanner rest m true none).openBlock m.column nest.tokens.length t) := rfl
  rw [hHere]
  by_cases hOpens : nest.column < m.column
  · simp [openBlock, Nest.scanner, Nest.opened, inFlow, hOpens]
  · simp [openBlock, Nest.scanner, Nest.opened, inFlow, hOpens]

theorem token_marks {c : Char} {opening t : Token} (hMark : (c, opening, t) ∈ marks)
    (rest : List Char) :
    (nest.scanner (c :: ' ' :: rest) m true none).token =
      some (((nest.opened m.column opening).add [t]).scanner (' ' :: rest) (m.step 1) true none) := by
  have hEntries : (c = '-' ∧ opening = .blockSequence ∧ t = .item) ∨
      (c = '?' ∧ opening = .blockMapping ∧ t = .key) ∨
      (c = ':' ∧ opening = .blockMapping ∧ t = .value) := by
    simpa [marks] using hMark
  have hBlank : atBlank (' ' :: rest) = true := rfl
  have hOpen : (nest.scanner (c :: ' ' :: rest) m true none).openHere opening = _ :=
    openHere_eq (c :: ' ' :: rest) opening
  rcases hEntries with ⟨rfl, rfl, rfl⟩ | ⟨rfl, rfl, rfl⟩ | ⟨rfl, rfl, rfl⟩
  · have hItem : (nest.scanner ('-' :: ' ' :: rest) m true none).token =
        (nest.scanner ('-' :: ' ' :: rest) m true none).item := by
      rw [token_eq]
      show tokenAt '-' (' ' :: rest) _ = _
      simp [tokenAt, atDocumentMarker, hBlank]
    rw [hItem, item_eq]
    simp only [hOpen]
    rfl
  · have hKey : (nest.scanner ('?' :: ' ' :: rest) m true none).token =
        (nest.scanner ('?' :: ' ' :: rest) m true none).explicitKey := by
      rw [token_eq]
      show tokenAt '?' (' ' :: rest) _ = _
      simp [tokenAt, atDocumentMarker, hBlank]
    rw [hKey, explicitKey_eq]
    simp only [hOpen]
    rfl
  · have hBefore : (nest.scanner (':' :: ' ' :: rest) m true none).keyBefore =
        (nest.scanner (':' :: ' ' :: rest) m true none).openHere .blockMapping := rfl
    rw [token_colon hBlank, value_eq]
    simp only [hBefore, hOpen]
    rfl

/-- An item's mark, or that of a key or a value on a line of its own. -/
theorem reaches_mark {c : Char} {opening t : Token} (hMark : (c, opening, t) ∈ marks)
    {rest : List Char} (hColumn : nest.column ≤ m.column)
    (hRest : Reaches ts (((nest.opened m.column opening).add [t]).scanner (' ' :: rest) (m.step 1)
      true none)) :
    Reaches ts (nest.scanner (c :: ' ' :: rest) m true none) := by
  have hStart : ∀ e ∈ marks, isBlank e.1 = false ∧ isBreak e.1 = false ∧ e.1 ≠ '#' ∧
      e.1 ≠ byteOrderMark := by decide
  exact reaches_token (atToken_cons _ (hStart _ hMark)) hColumn (token_marks hMark rest) rfl
    (settled_none _ _ _) hRest

/-! ## Collections without members -/

/-- The marks of collections without members, with their tokens. -/
def brackets : List (Char × Char × Token × Token) :=
  [('[', ']', .flowSequence, .flowSequenceEnd), ('\x7b', '\x7d', .flowMapping, .flowMappingEnd)]

/-- Within brackets; the token that may become a key waits outside. -/
def Nest.within (nest : Nest) (rest : List Char) (m : Mark) (pending : Option PendingKey) :
    Scanner :=
  { nest.scanner rest m true none with outer := [pending] }

theorem token_brackets {a b : Char} {opening closing : Token}
    (hBracket : (a, b, opening, closing) ∈ brackets) (rest : List Char) (allowed : Bool)
    (pending : Option PendingKey) :
    (nest.scanner (a :: b :: rest) m allowed none).token =
        some ((nest.add [opening]).within (b :: rest) (m.step 1)
          (if allowed then some (nest.key m) else none)) ∧
      (nest.within (b :: rest) m pending).token =
        some ((nest.add [closing]).scanner rest (m.step 1) false pending) := by
  have hEntries : (a = '[' ∧ b = ']' ∧ opening = .flowSequence ∧ closing = .flowSequenceEnd) ∨
      (a = '\x7b' ∧ b = '\x7d' ∧ opening = .flowMapping ∧ closing = .flowMappingEnd) := by
    simpa [brackets] using hBracket
  have hOpen : ∀ t, (nest.scanner (a :: b :: rest) m allowed none).openFlow t =
      some ((nest.add [t]).within (b :: rest) (m.step 1)
        (if allowed then some (nest.key m) else none)) := by
    intro t
    rw [openFlow, savePending_eq]
    rfl
  have hClose : ∀ t, (nest.within (b :: rest) m pending).closeFlow t =
      some ((nest.add [t]).scanner rest (m.step 1) false pending) := fun _ => rfl
  rcases hEntries with ⟨rfl, rfl, rfl, rfl⟩ | ⟨rfl, rfl, rfl, rfl⟩
  · refine ⟨?_, ?_⟩
    · rw [token_eq, ← hOpen]
      show tokenAt '[' (']' :: rest) _ = _
      simp [tokenAt, atDocumentMarker]
    · rw [token_eq, ← hClose]
      show tokenAt ']' rest _ = _
      simp [tokenAt, atDocumentMarker]
  · refine ⟨?_, ?_⟩
    · rw [token_eq, ← hOpen]
      show tokenAt '\x7b' ('\x7d' :: rest) _ = _
      simp [tokenAt, atDocumentMarker]
    · rw [token_eq, ← hClose]
      show tokenAt '\x7d' rest _ = _
      simp [tokenAt, atDocumentMarker]

/-- Within brackets no block collection is closed. -/
theorem arrive_within {rest : List Char} (hRest : AtToken rest) {pending : Option PendingKey}
    (hPending : (nest.within rest m pending).dropIfStale pending = some pending) :
    (nest.within rest m pending).arrive = some (nest.within rest m pending) := by
  have hToken : (nest.within rest m pending).toToken = nest.within rest m pending := by
    have hFlow : (nest.within rest m pending).inFlow = true := rfl
    rw [toToken, hFlow]
    simp only [Nest.within, Nest.scanner, passBlanks_token hRest]
  have hDrop : (nest.within rest m pending).dropStale = some (nest.within rest m pending) := by
    have hOuter : (nest.within rest m pending).outer.mapM
        (nest.within rest m pending).dropIfStale = some [pending] := by
      show [pending].mapM _ = _
      rw [List.mapM_cons, hPending]
      rfl
    rw [dropStale, hOuter]
    rfl
  rw [arrive, hToken, hDrop, Option.bind_some, look_eq rfl, Option.bind_some]
  rfl

/-- A collection without members, up to the next line. -/
theorem reaches_empty {a b : Char} {opening closing : Token}
    (hBracket : (a, b, opening, closing) ∈ brackets) {n : Nat} (hColumn : nest.column = n)
    (hIn : n < m.column) (allowed : Bool) {tail : List Char} (hTail : Tail n tail)
    (hRest : ∀ line, Reaches ts ((nest.add [opening, closing]).fresh tail line)) :
    Reaches ts (nest.scanner (a :: b :: '\n' :: tail) m allowed none) := by
  have hStart : ∀ e ∈ brackets, (isBlank e.1 = false ∧ isBreak e.1 = false ∧ e.1 ≠ '#' ∧
      e.1 ≠ byteOrderMark) ∧ (isBlank e.2.1 = false ∧ isBreak e.2.1 = false ∧ e.2.1 ≠ '#' ∧
      e.2.1 ≠ byteOrderMark) := by decide
  obtain ⟨hFirst, hSecond⟩ := hStart _ hBracket
  have hOpen : (nest.scanner (a :: b :: '\n' :: tail) m allowed none).token = _ :=
    (token_brackets hBracket ('\n' :: tail) allowed none).1
  have hClose : ((nest.add [opening]).within (b :: '\n' :: tail) (m.step 1)
      (if allowed then some (nest.key m) else none)).token = _ :=
    (token_brackets hBracket ('\n' :: tail) allowed _).2
  -- what waits outside the brackets is one character away
  have hKept : ((nest.add [opening]).within (b :: '\n' :: tail) (m.step 1)
      (if allowed then some (nest.key m) else none)).dropIfStale
      (if allowed then some (nest.key m) else none) =
        some (if allowed then some (nest.key m) else none) := by
    cases allowed with
    | false => rfl
    | true =>
      show (if (decide (m.line < m.line) || decide (m.offset + 1024 < m.offset + 1)) then _ else _) = _
      rw [if_neg (by simp)]
      rfl
  have hInner : nest.column < m.column := by omega
  refine reaches_token (atToken_cons _ hFirst) hInner.le hOpen rfl ?_ ?_
  · intro k hk
    cases allowed with
    | false => simp [Nest.within, Nest.scanner] at hk
    | true =>
      obtain rfl : k = nest.key m := by simpa [Nest.within, Nest.scanner] using hk
      exact Nat.le_refl _
  · have hNext : ((nest.add [opening]).within (b :: '\n' :: tail) (m.step 1)
        (if allowed then some (nest.key m) else none)).next =
          some ((nest.add [opening, closing]).scanner ('\n' :: tail) ((m.step 1).step 1) false
            (if allowed then some (nest.key m) else none)) := by
      rw [next_eq_arrive, arrive_within (atToken_cons _ hSecond) hKept, Option.bind_some, hClose,
        Option.bind_some, look_eq rfl, Nest.add_add]
      rfl
    have hLate : Late (if allowed then some (nest.key m) else none) (((m.step 1).step 1).line + 1) :=
      late_key hInner allowed (Nat.lt_succ_self m.line)
    exact .next hNext (settled_key (Nat.le_refl m.line)) (reaches_endLine hTail hLate hRest)

end PodCompiler.Yaml
