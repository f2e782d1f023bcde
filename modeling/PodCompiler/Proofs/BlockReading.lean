import PodCompiler.Proofs.PlainReading

/-!
# PodCompiler — reading back scalars of several lines

Scalars in single quotes and literal blocks may go on in further lines, which are moved in. The
reader takes the white space away again; what it keeps is the text.

In single quotes a line break is kept because it is no line feed, and blanks about it, which would
be lost, are ruled out by the style. In a block everything is kept that is not moved in, and the
signs in its first line say what becomes of the breaks at its end. What a block holds at any time
is the text so far, in three parts: finished lines, the break of the last one, and the empty lines
since.

Main results:

* `readQuoted_singleBody` — scalars in single quotes.
* `readBlock_literal` — literal blocks.
-/

namespace PodCompiler.Yaml

/-! ## Single quotes -/

/-- Blanks behind a line break are passed over. -/
theorem readQuoted_spaces (single : Bool) (n : Nat) (rest : List Char) (m : Mark)
    (first : Option Char) (later done : List Char) :
    readQuoted single (spaces n ++ rest) m (.breaks first later) done =
      readQuoted single rest (m.step n) (.breaks first later) done := by
  induction n generalizing m with
  | zero => rfl
  | succ n ih =>
    have hSpaces : spaces (n + 1) ++ rest = ' ' :: (spaces n ++ rest) := rfl
    rw [hSpaces, readQuoted, if_pos (by decide), Gap.addBlank, ih, Mark.step_step, Nat.add_comm 1 n]

/-- A character within single quotes, doubled if it is a quote itself. -/
def singleQuotedChar (c : Char) : List Char := if c = '\'' then ['\'', c] else [c]

theorem singleQuotedBody_cons (indent : Nat) {c : Char} (hBreak : isBreak c = false)
    (afterBreak : Bool) (rest : List Char) :
    singleQuotedBody indent afterBreak (c :: rest) =
      (if afterBreak then spaces indent else []) ++
        (singleQuotedChar c ++ singleQuotedBody indent false rest) := by
  rw [singleQuotedBody, if_neg (by simp [hBreak]), singleQuotedChar, List.append_assoc]

theorem readQuoted_singleQuotedChar {c : Char} (hBlank : isBlank c = false)
    (hBreak : isBreak c = false) (rest : List Char) {m : Mark} {gap : Gap} {done : List Char}
    (hColumn : 0 < m.column) :
    readQuoted true (singleQuotedChar c ++ rest) m gap done =
      readQuoted true rest (m.past (singleQuotedChar c)) .none
        (c :: (gap.text.reverse ++ done)) := by
  have hStart : m.column ≠ 0 := by omega
  by_cases hQuote : c = '\''
  · subst hQuote
    rw [singleQuotedChar, if_pos rfl, List.cons_append, List.cons_append, List.nil_append, readQuoted,
      if_neg (by decide), if_neg (by decide), if_neg (by simp [hStart])]
    rfl
  · rw [singleQuotedChar, if_neg hQuote, List.cons_append, List.nil_append, readQuoted,
      if_neg (by simp [hBlank]), if_neg (by simp [hBreak]), if_neg (by simp [hStart])]
    simp [hQuote, Mark.past_cons]

theorem readQuoted_singleEnd {rest : List Char} (hRest : rest.head? ≠ some '\'') {m : Mark}
    {gap : Gap} {done : List Char} (hColumn : 0 < m.column) :
    readQuoted true ('\'' :: rest) m gap done =
      some { text := done.reverse ++ gap.text, rest, mark := m.step 1 } := by
  have hStart : m.column ≠ 0 := by omega
  rw [readQuoted, if_neg (by decide), if_neg (by decide), if_neg (by simp [hStart])]
  cases rest with
  | nil => simp
  | cons d rest =>
    have hd : d ≠ '\'' := by simpa using hRest
    simp [hd]

/-- Where reading stands in a text in single quotes: within a line, where a break must not follow
blanks, or behind a break, where the text must not go on with a blank. Either would be lost. -/
inductive Between (indent : Nat) (cs : List Char) : Bool → Mark → Gap → Prop where
  | words (m : Mark) (gap : Gap) (hColumn : 0 < m.column) (hGap : gap.isBroken = false)
      (hNext : gap.isSome = true → ∀ c, cs.head? = some c → isBreak c = false) :
      Between indent cs false m gap
  | lines (m : Mark) (first : Char) (later : List Char) (hFirst : first ≠ '\n')
      (hIndent : 0 < indent) (hNext : cs.head? ≠ some ' ') :
      Between indent cs true m (.breaks (some first) later)

theorem between_words {indent : Nat} {cs : List Char} {m : Mark} (hColumn : 0 < m.column) :
    Between indent cs false m .none :=
  .words m .none hColumn rfl (by intro hNone; cases hNone)

theorem Between.break {indent : Nat} {c : Char} {cs : List Char} (hText : SingleText (c :: cs))
    (hBreak : isBreak c = true) (hIndent : 0 < indent) {afterBreak : Bool} {m : Mark} {gap : Gap}
    (hBetween : Between indent (c :: cs) afterBreak m gap) :
    Between indent cs true m.newline (gap.addBreak c) ∧
      (gap.addBreak c).text = gap.text ++ [c] := by
  have hFeed : c ≠ '\n' := fun hEq => hText.noFeed (hEq ▸ List.mem_cons_self)
  have hNext : cs.head? ≠ some ' ' := by
    cases cs with
    | nil => simp
    | cons d cs => simpa [hBreak] using anyPair_head hText.breakThenSpace
  -- the first break since the last word opens the gap, and later ones are added to it
  cases hBetween with
  | words _ _ hColumn hGap hBreakNext =>
    cases gap with
    | none => exact ⟨.lines _ c [] hFeed hIndent hNext, by simp [Gap.addBreak, Gap.text, hFeed]⟩
    | blanks chars => exact absurd hBreak (by simp [hBreakNext rfl c rfl])
    | breaks first later => cases hGap
  | lines _ first later hFirst _ _ =>
    exact ⟨.lines _ first (later ++ [c]) hFirst hIndent hNext, by
      simp [Gap.addBreak, Gap.text, hFirst]⟩

theorem SingleText.tail {c : Char} {cs : List Char} (hText : SingleText (c :: cs)) :
    SingleText cs :=
  { printable := fun d hd => hText.printable d (List.mem_cons_of_mem c hd)
    noFeed := fun hd => hText.noFeed (List.mem_cons_of_mem c hd)
    breakThenSpace := anyPair_tail hText.breakThenSpace
    spaceThenBreak := anyPair_tail hText.spaceThenBreak }

/-- Further in the same line, behind a blank: a break behind it would take the blank along. -/
theorem Between.blank {indent : Nat} {cs : List Char} (hText : SingleText (' ' :: cs))
    {afterBreak : Bool} {m : Mark} {gap : Gap}
    (hBetween : Between indent (' ' :: cs) afterBreak m gap) :
    afterBreak = false ∧ gap.isBroken = false ∧
      Between indent cs false (m.step 1) (gap.addBlank ' ') := by
  cases hBetween with
  | lines _ first later hFirst hIndent hNext => exact absurd rfl hNext
  | words _ _ hColumn hGap hNext =>
    have hBreakNext : ∀ d, cs.head? = some d → isBreak d = false := by
      intro d hd
      cases cs with
      | nil => cases hd
      | cons e cs =>
        obtain rfl := Option.some.inj hd
        simpa using anyPair_head hText.spaceThenBreak
    exact ⟨rfl, hGap, .words _ _ (Nat.succ_pos _) (Gap.addBlank_of_not_broken hGap ' ').1
      fun _ => hBreakNext⟩

/-- What is left of a text in single quotes is read up to the closing quote. Where it is one line
the place behind it is known. -/
def ReadsOn (indent : Nat) (rest cs : List Char) (afterBreak : Bool) (m : Mark) (gap : Gap) :
    Prop :=
  ∀ done, ∃ mark,
    readQuoted true (singleQuotedBody indent afterBreak cs ++ '\'' :: rest) m gap done =
        some { text := done.reverse ++ (gap.text ++ cs), rest, mark } ∧
      m.line ≤ mark.line ∧
      (afterBreak = false → (∀ c ∈ cs, isBreak c = false) →
        mark = (m.past (singleQuotedBody indent false cs)).step 1)

section ReadsOn

variable {indent : Nat} {rest cs : List Char} {afterBreak : Bool} {m : Mark} {gap : Gap} {c : Char}

theorem readsOn_nil (hRest : rest.head? ≠ some '\'')
    (hBetween : Between indent [] afterBreak m gap) :
    ReadsOn indent rest [] afterBreak m gap := by
  intro done
  cases hBetween with
  | words _ _ hColumn hGap hNext =>
    refine ⟨m.step 1, ?_, Nat.le_refl _, fun _ _ => rfl⟩
    rw [List.append_nil]
    exact readQuoted_singleEnd hRest hColumn
  | lines _ first later hFirst hIndent hNext =>
    refine ⟨(m.step indent).step 1, ?_, Nat.le_refl _, fun hFalse => by cases hFalse⟩
    have hColumn : 0 < (m.step indent).column := Nat.add_pos_right _ hIndent
    rw [singleQuotedBody, if_pos rfl, readQuoted_spaces, List.append_nil]
    exact readQuoted_singleEnd hRest hColumn

theorem readsOn_break (hPrintable : isPrintable c = true) (hBreak : isBreak c = true)
    (hFeed : c ≠ '\n') (hContent : (gap.addBreak c).text = gap.text ++ [c])
    (hNext : ReadsOn indent rest cs true m.newline (gap.addBreak c)) :
    ReadsOn indent rest (c :: cs) afterBreak m gap := by
  intro done
  obtain ⟨mark, hRead, hFurther, -⟩ := hNext done
  -- the break is looked at as a blank first
  have hBlank : isBlank c = false := by
    rcases exists_of_break hPrintable hBreak with rfl | rfl | rfl
    · decide
    · decide
    · decide
  have hBody : singleQuotedBody indent afterBreak (c :: cs) =
      c :: singleQuotedBody indent true cs := by
    simp [singleQuotedBody, hBreak, hFeed]
  refine ⟨mark, ?_, Nat.le_of_succ_le hFurther, fun _ hLine => ?_⟩
  · rw [hBody, List.cons_append, readQuoted, if_neg (by simp [hBlank]), if_pos hBreak, hRead,
      hContent]
    simp
  · exact absurd hBreak (by simp [hLine c List.mem_cons_self])

theorem readsOn_blank (hGap : gap.isBroken = false)
    (hNext : ReadsOn indent rest cs false (m.step 1) (gap.addBlank ' ')) :
    ReadsOn indent rest (' ' :: cs) false m gap := by
  intro done
  obtain ⟨mark, hRead, hFurther, hMark⟩ := hNext done
  have hBody : singleQuotedBody indent false (' ' :: cs) =
      ' ' :: singleQuotedBody indent false cs := rfl
  refine ⟨mark, ?_, hFurther, fun _ hLine => ?_⟩
  · rw [hBody, List.cons_append, readQuoted, if_pos (by decide), hRead,
      (Gap.addBlank_of_not_broken hGap ' ').2]
    simp
  · rw [hBody, Mark.past_cons]
    exact hMark rfl fun d hd => hLine d (List.mem_cons_of_mem ' ' hd)

/-- A character of a word ends the gap before it. -/
theorem readsOn_word (hBlank : isBlank c = false) (hBreak : isBreak c = false)
    (hBetween : Between indent (c :: cs) afterBreak m gap)
    (hNext : ∀ m' : Mark, 0 < m'.column → ReadsOn indent rest cs false m' .none) :
    ReadsOn indent rest (c :: cs) afterBreak m gap := by
  intro done
  cases hBetween with
  | words _ _ hColumn hGap _ =>
    have hPast : 0 < (m.past (singleQuotedChar c)).column := by
      rw [Mark.column_past]
      omega
    obtain ⟨mark, hRead, hFurther, hMark⟩ := hNext _ hPast (c :: (gap.text.reverse ++ done))
    refine ⟨mark, ?_, ?_, fun _ hLine => ?_⟩
    · rw [singleQuotedBody_cons indent hBreak, if_neg (by simp), List.nil_append,
        List.append_assoc, readQuoted_singleQuotedChar hBlank hBreak _ hColumn, hRead]
      simp [Gap.text]
    · rwa [Mark.line_past] at hFurther
    · rw [singleQuotedBody_cons indent hBreak, if_neg (by simp), List.nil_append,
        Mark.past_append]
      exact hMark rfl fun d hd => hLine d (List.mem_cons_of_mem c hd)
  | lines _ first later hFirst hIndent _ =>
    have hColumn : 0 < (m.step indent).column := Nat.add_pos_right _ hIndent
    have hPast : 0 < ((m.step indent).past (singleQuotedChar c)).column := by
      rw [Mark.column_past]
      omega
    obtain ⟨mark, hRead, hFurther, -⟩ := hNext _ hPast
      (c :: ((Gap.breaks (some first) later).text.reverse ++ done))
    rw [Mark.line_past] at hFurther
    refine ⟨mark, ?_, hFurther, fun hFalse => by cases hFalse⟩
    rw [singleQuotedBody_cons indent hBreak, if_pos rfl, List.append_assoc, readQuoted_spaces,
      List.append_assoc, readQuoted_singleQuotedChar hBlank hBreak _ hColumn, hRead]
    simp [Gap.text]

end ReadsOn

/-- A text in single quotes is read up to its closing quote. -/
theorem readQuoted_singleBody {indent : Nat} {cs : List Char} (hText : SingleText cs)
    (hIndent : ∀ c ∈ cs, isBreak c = true → 0 < indent) {rest : List Char}
    (hRest : rest.head? ≠ some '\'') {afterBreak : Bool} {m : Mark} {gap : Gap}
    (hBetween : Between indent cs afterBreak m gap) : ReadsOn indent rest cs afterBreak m gap := by
  induction cs generalizing afterBreak m gap with
  | nil => exact readsOn_nil hRest hBetween
  | cons c cs ih =>
    have hc := hText.printable c List.mem_cons_self
    have hNext := @ih hText.tail fun d hd => hIndent d (List.mem_cons_of_mem c hd)
    by_cases hBreak : isBreak c = true
    · have hFeed : c ≠ '\n' := fun hEq => hText.noFeed (hEq ▸ List.mem_cons_self)
      obtain ⟨hLater, hContent⟩ :=
        hBetween.break hText hBreak (hIndent c List.mem_cons_self hBreak)
      exact readsOn_break hc hBreak hFeed hContent (hNext hLater)
    · by_cases hSpace : c = ' '
      · subst hSpace
        obtain ⟨rfl, hGap, hLater⟩ := hBetween.blank hText
        exact readsOn_blank hGap (hNext hLater)
      · have hBlank : isBlank c = false := by
          rw [isBlank_eq_of_printable hc, decide_eq_false hSpace]
        exact readsOn_word hBlank (by simpa using hBreak) hBetween
          fun m' hColumn => hNext (between_words hColumn)

/-- A text of one line is at most twice as long in single quotes. -/
theorem octets_singleQuoted (indent : Nat) {cs : List Char} (hLine : ∀ c ∈ cs, isBreak c = false) :
    String.utf8Len (singleQuotedBody indent false cs) ≤ 2 * String.utf8Len cs := by
  induction cs with
  | nil => exact Nat.le_refl 0
  | cons c rest ih =>
    have hRest := ih fun d hd => hLine d (List.mem_cons_of_mem c hd)
    have hChar : String.utf8Len (singleQuotedChar c) ≤ 2 * c.utf8Size := by
      rw [singleQuotedChar]
      split
      next hQuote =>
        rw [hQuote]
        decide
      next =>
        simp only [String.utf8Len]
        omega
    rw [singleQuotedBody_cons indent (hLine c List.mem_cons_self), if_neg (by simp),
      List.nil_append, String.utf8Len_append, String.utf8Len_cons]
    omega

/-! ## The signs of a block -/

/-- What becomes of the line breaks at the end of a text, according to its sign. -/
def chompingFor (cs : List Char) : Chomping :=
  if chompingSign cs = ['-'] then .strip else if chompingSign cs = ['+'] then .keep else .clip

/-- A text ends within a line, or with its breaks kept, or with a single break. -/
theorem chompingSign_cases {cs : List Char} (hNil : cs ≠ []) :
    (isBreak (cs.getLastD '\n') = false ∧ chompingSign cs = ['-']) ∨
      (isBreak (cs.getLastD '\n') = true ∧ chompingSign cs = ['+']) ∨
      (isBreak (cs.getLastD '\n') = true ∧ chompingSign cs = [] ∧
        ∃ before c d, cs = before ++ [c, d] ∧ isBreak c = false) := by
  rcases List.eq_nil_or_concat' cs with rfl | ⟨before, d, rfl⟩
  · exact absurd rfl hNil
  rw [List.getLastD_concat]
  -- the sign depends on the last two characters
  by_cases hLast : isBreak d = true
  · rcases List.eq_nil_or_concat' before with rfl | ⟨before, c, rfl⟩
    · exact .inr (.inl ⟨hLast, by simp [chompingSign, hLast]⟩)
    · by_cases hBefore : isBreak c = true
      · exact .inr (.inl ⟨hLast, by simp [chompingSign, hLast, hBefore]⟩)
      · refine .inr (.inr ⟨hLast, by simp [chompingSign, hLast, hBefore], before, c, d, ?_, ?_⟩)
        · simp
        · simpa using hBefore
  · refine .inl ⟨by simpa using hLast, ?_⟩
    rcases List.eq_nil_or_concat' before with rfl | ⟨before, c, rfl⟩
    · simp [chompingSign, hLast]
    · simp [chompingSign, hLast]

theorem readBlockHeader_signs {cs : List Char} (hNil : cs ≠ []) (rest : List Char) :
    readBlockHeader (indentationSign cs ++ (chompingSign cs ++ '\n' :: rest)) =
      some
        ({ chomping := chompingFor cs, increment := if isEdge cs.head? then some 2 else none },
          '\n' :: rest) := by
  rw [indentationSign, chompingFor]
  rcases chompingSign_cases hNil with ⟨-, hSign⟩ | ⟨-, hSign⟩ | ⟨-, hSign, -⟩
  · rw [hSign]
    split
    · rfl
    · rfl
  · rw [hSign]
    split
    · rfl
    · rfl
  · rw [hSign]
    split
    · rfl
    · rfl

/-! ## The lines of a block -/

/-- The start of a line. -/
def Mark.lineStart (line : Nat) : Mark := { line, column := 0, offset := 0 }

/-- What a block holds of a text: within a line nothing waits; at the start of one the breaks since
the last finished line wait to be told apart from those at the end. -/
inductive Block.Holds (cs : List Char) : Bool → Block → Prop where
  | within (b : Block) (hDone : b.done = cs.reverse) (hLeading : b.leading = none)
      (hTrailing : b.trailing = []) : Holds cs true b
  | start (b : Block) (hText : b.done.reverse ++ (b.leading.toList ++ b.trailing) = cs)
      (hBreaks : ∀ c ∈ b.leading.toList ++ b.trailing, isBreak c = true)
      (hFirst : b.leading = none → b.done = []) : Holds cs false b

theorem Block.Holds.push {cs : List Char} {b : Block} (hHolds : b.Holds cs true) (c : Char) :
    (b.push c).Holds (cs ++ [c]) true := by
  cases hHolds with
  | within _ hDone hLeading hTrailing =>
    exact .within _ (by simp [Block.push, hDone]) hLeading hTrailing

theorem Block.Holds.endLine {cs : List Char} {b : Block} (hHolds : b.Holds cs true) {c : Char}
    (hBreak : isBreak c = true) :
    ({ b with leading := some c } : Block).Holds (cs ++ [c]) false := by
  cases hHolds with
  | within _ hDone hLeading hTrailing =>
    exact .start _ (by simp [hDone, hTrailing]) (by simpa [hTrailing] using hBreak)
      (by intro hNone; cases hNone)

theorem Block.Holds.emptyLine {cs : List Char} {b : Block} (hHolds : b.Holds cs false) {c : Char}
    (hBreak : isBreak c = true) :
    ({ b with trailing := b.trailing ++ [c] } : Block).Holds (cs ++ [c]) false := by
  cases hHolds with
  | start _ hText hBreaks hFirst =>
    refine .start _ ?_ ?_ hFirst
    · rw [← hText]
      simp
    · intro d hd
      have hOr : d ∈ b.leading.toList ++ b.trailing ∨ d = c := by simpa [or_assoc] using hd
      rcases hOr with hd | rfl
      · exact hBreaks d hd
      · exact hBreak

theorem Block.Holds.startLine {cs : List Char} {b : Block} (hHolds : b.Holds cs false) (blank : Bool)
    (c : Char) : ((b.startLine false blank).push c).Holds (cs ++ [c]) true := by
  cases hHolds with
  | start _ hText hBreaks hFirst =>
    refine .within _ ?_ rfl rfl
    rw [← hText]
    simp [Block.startLine, Block.push]

theorem spaces_succ (n : Nat) : spaces (n + 1) = ' ' :: spaces n := rfl

/-- Spaces up to the column of a block are passed over. -/
theorem readBlockLines_spaces (indent n : Nat) (rest : List Char) {m : Mark} {b : Block}
    (hn : m.column + n ≤ indent) :
    readBlockLines false indent (spaces n ++ rest) m false b =
      readBlockLines false indent rest (m.step n) false b := by
  induction n generalizing m with
  | zero => rfl
  | succ n ih =>
    have hColumn : m.column < indent := by omega
    have hNext : (m.step 1).column + n ≤ indent := by
      simp only [Mark.step]
      omega
    rw [spaces_succ, List.cons_append, readBlockLines, if_pos (by simp [hColumn]), ih hNext,
      Mark.step_step, Nat.add_comm 1 n]

/-- A block ends where a line begins that is not moved in as far. -/
theorem readBlockLines_end {indent n : Nat} (hn : n < indent) {rest : List Char}
    (hRest : AtToken rest) (line : Nat) (b : Block) :
    readBlockLines false indent (spaces n ++ rest) (.lineStart line) false b =
      some (b, rest, (Mark.lineStart line).step n) := by
  rw [readBlockLines_spaces indent n rest (by simp [Mark.lineStart]; omega)]
  cases rest with
  | nil => rfl
  | cons c rest =>
    obtain ⟨hBlank, hBreak, -, -⟩ := hRest c rfl
    have hSpace : c ≠ ' ' ∧ c ≠ '\t' := by
      constructor <;> rintro rfl <;> cases hBlank
    have hColumn : ((Mark.lineStart line).step n).column ≠ indent := by
      simp only [Mark.lineStart, Mark.step]
      omega
    rw [readBlockLines, if_neg (by simp [hSpace]), if_neg (by simp [hSpace]),
      if_neg (by simp [hBreak]), if_neg hColumn]

section Characters

variable {indent line : Nat} {c : Char} {cs more : List Char} {m : Mark} {b : Block}

/-- A break at the start of a line makes an empty line. -/
theorem readBlockLines_emptyLine (hBreak : isBreak c = true) :
    readBlockLines false indent (literalBody indent true (c :: cs) ++ more) (.lineStart line) false b =
      readBlockLines false indent (literalBody indent true cs ++ more) (.lineStart (line + 1)) false
        { b with trailing := b.trailing ++ [c] } := by
  have hSpace : c ≠ ' ' ∧ c ≠ '\t' := by
    constructor <;> rintro rfl <;> cases hBreak
  rw [literalBody, if_pos hBreak, List.cons_append, readBlockLines, if_neg (by simp [hSpace]),
    if_neg (by simp [hSpace]), if_pos hBreak]
  rfl

/-- A break behind something ends the line. -/
theorem readBlockLines_endLine (hBreak : isBreak c = true) :
    readBlockLines false indent (literalBody indent false (c :: cs) ++ more) m true b =
      readBlockLines false indent (literalBody indent true cs ++ more) (.lineStart (m.line + 1)) false
        { b with leading := some c } := by
  rw [literalBody, if_pos hBreak, List.cons_append, readBlockLines, if_pos hBreak]
  rfl

/-- The first character of a line is moved in. -/
theorem readBlockLines_startLine (hPrintable : isPrintable c = true) (hBreak : isBreak c = false) :
    readBlockLines false indent (literalBody indent true (c :: cs) ++ more) (.lineStart line) false b =
      readBlockLines false indent (literalBody indent false cs ++ more)
        (((Mark.lineStart line).step indent).advance c) true
        ((b.startLine false (isBlank c)).push c) := by
  have hTab := ne_tab_of_printable hPrintable
  have hColumn : ((Mark.lineStart line).step indent).column = indent := by
    simp [Mark.lineStart, Mark.step]
  rw [literalBody, if_neg (by simp [hBreak]), if_pos rfl, List.append_assoc,
    readBlockLines_spaces indent indent _ (by simp [Mark.lineStart]), List.cons_append,
    readBlockLines, if_neg (by simp [hColumn]), if_neg (by simp [hTab]), if_neg (by simp [hBreak]),
    if_pos hColumn]

theorem readBlockLines_further (hBreak : isBreak c = false) :
    readBlockLines false indent (literalBody indent false (c :: cs) ++ more) m true b =
      readBlockLines false indent (literalBody indent false cs ++ more) (m.advance c) true
        (b.push c) := by
  rw [literalBody, if_neg (by simp [hBreak]), if_neg (by simp), List.nil_append, List.cons_append,
    readBlockLines, if_neg (by simp [hBreak])]

end Characters

/-- The lines of a block hold its text; behind a last line that has not ended stands a line feed
that is none of the text. -/
theorem readBlockLines_literalBody {indent n : Nat} (hn : n < indent) {rest : List Char}
    (hRest : AtToken rest) {cs before : List Char}
    (hPrintable : ∀ c ∈ cs, isPrintable c = true) (last : Char) {m : Mark} {b : Block}
    (hStart : isBreak last = true → ∃ line, m = .lineStart line)
    (hHolds : b.Holds before (!isBreak last)) :
    ∃ b' line, readBlockLines false indent
        (literalBody indent (isBreak last) cs ++ (lineEnd (cs.getLastD last) ++ (spaces n ++ rest)))
        m (!isBreak last) b = some (b', rest, (Mark.lineStart line).step n) ∧
      (isBreak (cs.getLastD last) = true → b'.Holds (before ++ cs) false) ∧
      (isBreak (cs.getLastD last) = false → b'.done = (before ++ cs).reverse) := by
  induction cs generalizing before last m b with
  | nil =>
    rw [List.getLastD_nil, literalBody, List.nil_append, List.append_nil]
    cases hLast : isBreak last with
    | true =>
      obtain ⟨line, rfl⟩ := hStart hLast
      rw [hLast] at hHolds
      refine ⟨b, line, ?_, fun _ => hHolds, fun hFalse => by cases hFalse⟩
      rw [lineEnd, if_pos hLast]
      exact readBlockLines_end hn hRest line b
    | false =>
      rw [hLast] at hHolds
      cases hHolds with
      | within _ hDone hLeading hTrailing =>
        refine ⟨{ b with leading := some '\n' }, m.line + 1, ?_, by simp, fun _ => hDone⟩
        rw [lineEnd, if_neg (by simp [hLast]), List.cons_append, List.nil_append]
        exact readBlockLines_end hn hRest (m.line + 1) _
  | cons c cs ih =>
    have hc := hPrintable c List.mem_cons_self
    have hTail := fun d hd => hPrintable d (List.mem_cons_of_mem c hd)
    have hText : before ++ c :: cs = before ++ [c] ++ cs := by simp
    rw [List.getLastD_cons, hText]
    have hNext := @ih (before ++ [c]) hTail c
    -- what the character adds to the block depends on whether it is a break, and on whether it
    -- stands at the start of a line
    cases hBreak : isBreak c with
    | true =>
      rw [hBreak] at hNext
      cases hLast : isBreak last with
      | true =>
        obtain ⟨line, rfl⟩ := hStart hLast
        rw [hLast] at hHolds
        rw [Bool.not_true, readBlockLines_emptyLine hBreak]
        exact hNext (fun _ => ⟨line + 1, rfl⟩) (hHolds.emptyLine hBreak)
      | false =>
        rw [hLast] at hHolds
        rw [Bool.not_false, readBlockLines_endLine hBreak]
        exact hNext (fun _ => ⟨m.line + 1, rfl⟩) (hHolds.endLine hBreak)
    | false =>
      rw [hBreak] at hNext
      cases hLast : isBreak last with
      | true =>
        obtain ⟨line, rfl⟩ := hStart hLast
        rw [hLast] at hHolds
        rw [Bool.not_true, readBlockLines_startLine hc hBreak]
        exact hNext (fun hFalse => by cases hFalse) (hHolds.startLine (isBlank c) c)
      | false =>
        rw [hLast] at hHolds
        rw [Bool.not_false, readBlockLines_further hBreak]
        exact hNext (fun hFalse => by cases hFalse) (hHolds.push c)

/-- The empty lines before the first line of a block are empty lines of the block. -/
theorem readBlockLines_lead {indent : Nat} {cs : List Char} {m : Mark} {breaks : List Char}
    {out : Block × List Char × Mark} (widest : Nat)
    (hLines : readBlockLines false indent cs m false
      { done := [], leading := none, trailing := breaks, indented := false } = some out) :
    ∃ lead, readBlockLead (some indent) cs m widest breaks = some lead ∧
      readBlockLines false indent lead.rest lead.mark false
        { done := [], leading := none, trailing := lead.breaks, indented := false } =
          some out := by
  induction cs generalizing m breaks widest with
  | nil => exact ⟨_, rfl, hLines⟩
  | cons c rest ih =>
    rw [readBlockLines] at hLines
    rw [readBlockLead]
    simp only [Option.all_some]
    by_cases hSpace : (decide (c = ' ') && decide (m.column < indent)) = true
    · rw [if_pos hSpace] at hLines ⊢
      exact ih widest hLines
    · -- a tab before the column of the block is refused, and nothing has been
      rw [if_neg hSpace] at hLines ⊢
      by_cases hTab : (decide (c = '\t') && decide (m.column < indent)) = true
      · rw [if_pos hTab] at hLines
        cases hLines
      · rw [if_neg hTab] at hLines ⊢
        by_cases hBreak : isBreak c = true
        · rw [if_pos hBreak] at hLines ⊢
          exact ih (max widest m.column) hLines
        · rw [if_neg hBreak] at ⊢
          refine ⟨_, rfl, ?_⟩
          rw [readBlockLines, if_neg hSpace, if_neg hTab]
          exact hLines

/-- Where nothing is said about it, the first line decides how far a block is moved in. -/
theorem readBlockLead_first {c : Char} (hEdge : isEdge (some c) = false) (hTab : c ≠ '\t')
    (n : Nat) (rest : List Char) (m : Mark) :
    readBlockLead none (spaces n ++ c :: rest) m 0 [] =
      some ⟨c :: rest, m.step n, m.column + n, []⟩ := by
  have hNone : (c = ' ' || isBreak c) = false := hEdge
  rw [Bool.or_eq_false_iff, decide_eq_false_iff_not] at hNone
  induction n generalizing m with
  | zero =>
    rw [spaces, List.replicate_zero, List.nil_append, readBlockLead, if_neg (by simp [hNone.1]),
      if_neg (by simp [hTab]), if_neg (by simp [hNone.2])]
    simp
  | succ n ih =>
    rw [spaces_succ, List.cons_append, readBlockLead, if_pos (by simp), ih, Mark.step_step,
      Nat.add_comm 1 n]
    have hWidest : m.column + 1 + n = m.column + (n + 1) := by omega
    simp [Mark.step, hWidest]

/-! ## Blocks -/

/-- Behind a single break at the end no empty line waits: it would be a second break there, or the
only line of all. -/
theorem Block.Holds.trailing_eq_nil {before : List Char} {c d : Char} (hc : isBreak c = false)
    {b : Block} (hHolds : b.Holds (before ++ [c, d]) false) : b.trailing = [] := by
  cases hHolds with
  | start _ hText hBreaks hFirst =>
    rcases List.eq_nil_or_concat' b.trailing with hNone | ⟨trailing, e, hTrailing⟩
    · exact hNone
    · have hEqual : b.done.reverse ++ (b.leading.toList ++ trailing) ++ [e] =
          before ++ [c] ++ [d] := by
        rw [hTrailing] at hText
        simpa using hText
      have hInit := (List.append_inj' hEqual rfl).1
      rcases List.eq_nil_or_concat' (b.leading.toList ++ trailing) with hNone | ⟨l, f, hf⟩
      · have hLeading : b.leading = none := by
          simpa using (List.append_eq_nil_iff.mp hNone).1
        rw [hNone, hFirst hLeading] at hInit
        simp at hInit
      · have hSame : f = c := by
          rw [hf, ← List.append_assoc] at hInit
          simpa using (List.append_inj' hInit rfl).2
        have hMember : f ∈ b.leading.toList ++ b.trailing := by
          rw [hTrailing, ← List.append_assoc, hf]
          simp
        have hBreak := hBreaks f hMember
        rw [hSame, hc] at hBreak
        cases hBreak

/-- What a block holds is its text, as its sign says. -/
theorem text_of_holds {cs : List Char} (hNil : cs ≠ []) {b : Block}
    (hBreak : isBreak (cs.getLastD '\n') = true → b.Holds cs false)
    (hLine : isBreak (cs.getLastD '\n') = false → b.done = cs.reverse) :
    b.text (chompingFor cs) = cs := by
  rw [chompingFor]
  rcases chompingSign_cases hNil with ⟨hLast, hSign⟩ | ⟨hLast, hSign⟩ | ⟨hLast, hSign, hEnd⟩
  · simp [hSign, Block.text, hLine hLast]
  · cases hBreak hLast with
    | start _ hText hBreaks hFirst =>
      simpa [hSign, Block.text] using hText
  · obtain ⟨before, c, d, rfl, hc⟩ := hEnd
    have hHolds := hBreak hLast
    have hTrailing := hHolds.trailing_eq_nil hc
    cases hHolds with
    | start _ hText hBreaks hFirst =>
      rw [hTrailing, List.append_nil] at hText
      simpa [hSign, Block.text] using hText

/-- Where the block says how far it is moved in, since its text begins with a blank or a break. -/
theorem readBlock_of_edge {cs more rest : List Char} (hNil : cs ≠ []) {outer : Nat} {m mark : Mark}
    {b : Block} (hEdge : isEdge cs.head? = true)
    (hLines : readBlockLines false (outer + 2) more (.lineStart (m.line + 1)) false
      { done := [], leading := none, trailing := [], indented := false } = some (b, rest, mark)) :
    readBlock false outer (indentationSign cs ++ (chompingSign cs ++ '\n' :: more)) m =
      some { text := b.text (chompingFor cs), rest, mark } := by
  have hStart : m.newline = Mark.lineStart (m.line + 1) := rfl
  have hRestOfLine : restOfLine ('\n' :: more) = some more := rfl
  obtain ⟨lead, hLead, hOut⟩ := readBlockLines_lead 0 hLines
  rw [readBlock, readBlockHeader_signs hNil]
  simp only [Option.bind_eq_bind, Option.bind_some, hRestOfLine, hStart, hEdge, if_true,
    Option.map_some, Int.natCast_nonneg, Int.toNat_natCast, hLead, Option.getD_some, hOut]

/-- Where the first line says it. -/
theorem readBlock_of_first {c : Char} {cs more rest : List Char} {outer : Nat} {m mark : Mark}
    {b : Block} (hEdge : isEdge (some c) = false) (hTab : c ≠ '\t')
    (hLines : readBlockLines false (outer + 2) (spaces (outer + 2) ++ c :: more)
      (.lineStart (m.line + 1)) false
      { done := [], leading := none, trailing := [], indented := false } = some (b, rest, mark)) :
    readBlock false outer (indentationSign (c :: cs) ++ (chompingSign (c :: cs) ++ '\n' ::
        (spaces (outer + 2) ++ c :: more))) m =
      some { text := b.text (chompingFor (c :: cs)), rest, mark } := by
  have hStart : m.newline = Mark.lineStart (m.line + 1) := rfl
  have hRestOfLine : ∀ after, restOfLine ('\n' :: after) = some after := fun _ => rfl
  have hIndent : max (0 + (outer + 2)) (max ((outer : Int) + 1).toNat 1) = outer + 2 := by omega
  have hHead : isEdge (c :: cs).head? = false := hEdge
  rw [readBlockLines_spaces _ _ _ (by simp [Mark.lineStart])] at hLines
  rw [readBlock, readBlockHeader_signs (List.cons_ne_nil c cs)]
  simp only [Option.bind_eq_bind, Option.bind_some, hRestOfLine, hStart, hHead, Bool.false_eq_true,
    if_false, Option.map_none, readBlockLead_first hEdge hTab, Option.getD_none, Mark.lineStart]
    at hLines ⊢
  rw [hIndent, hLines]
  rfl

/-- A literal block is read up to the end of its last line. -/
theorem readBlock_literal {cs : List Char} (hText : BlockText cs) {outer n : Nat} (hn : n ≤ outer)
    {rest : List Char} (hRest : AtToken rest) (m : Mark) :
    ∃ line, readBlock false outer
        (indentationSign cs ++ (chompingSign cs ++ '\n' ::
          (literalBody (outer + 2) true cs ++ (lineEnd (cs.getLastD '\n') ++ (spaces n ++ rest)))))
        m = some { text := cs, rest, mark := (Mark.lineStart line).step n } := by
  have hNil : cs ≠ [] := List.ne_nil_of_mem hText.feed
  -- the block starts with nothing, at the line behind its signs
  have hEmpty : ({ done := [], leading := none, trailing := [], indented := false } : Block).Holds
      [] false := .start _ rfl (by simp) (fun _ => rfl)
  obtain ⟨b, line, hLines, hBreak, hLine⟩ := readBlockLines_literalBody
    (by omega : n < outer + 2) hRest hText.printable '\n' (fun _ => ⟨m.line + 1, rfl⟩) hEmpty
  rw [List.nil_append] at hBreak hLine
  have hFeed : isBreak '\n' = true := rfl
  rw [hFeed, Bool.not_true] at hLines
  refine ⟨line, ?_⟩
  cases hEdge : isEdge cs.head? with
  | true => rw [readBlock_of_edge hNil hEdge hLines, text_of_holds hNil hBreak hLine]
  | false =>
    obtain ⟨c, more, rfl⟩ := List.exists_cons_of_ne_nil hNil
    have hHead : isEdge (some c) = false := hEdge
    have hWithin : isBreak c = false := by
      simp only [isEdge, Option.any_some, Bool.or_eq_false_iff] at hHead
      exact hHead.2
    have hTab : c ≠ '\t' := ne_tab_of_printable (hText.printable c List.mem_cons_self)
    have hBody : ∀ suffix, literalBody (outer + 2) true (c :: more) ++ suffix =
        spaces (outer + 2) ++ c :: (literalBody (outer + 2) false more ++ suffix) := by
      intro suffix
      rw [literalBody, if_neg (by simp [hWithin]), if_pos rfl]
      simp
    rw [hBody] at hLines ⊢
    rw [readBlock_of_first hHead hTab hLines, text_of_holds hNil hBreak hLine]

end PodCompiler.Yaml
