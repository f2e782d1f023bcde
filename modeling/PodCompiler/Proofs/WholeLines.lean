import PodCompiler.Proofs.ExactTrees

/-!
# PodCompiler — a document is made of lines

The documents of a stream are held apart by lines of three hyphens, so no such line may stand inside
a document, whatever texts the document holds. `WholeLines` says of a text that it consists of lines
each of which ends, and none of which is a separator. Every document that is written is such a text.

A line is safe as soon as it holds something other than hyphens. That is what carries the induction
over the writer: whatever stands before a value on its line (blanks, a key and its colon, the mark
of an item and the blank behind it) makes the line safe, and the further lines of a value are empty
or moved in.

Main results:

* `lines_append` — the lines of whole lines are lines by themselves.
* `wholeLines_scalar` — a scalar is made of whole lines, in whatever style.
* `wholeLines_document` — so is a document.
-/

namespace PodCompiler.Yaml

/-! ## Lines -/

/-- Puts a character in front of the first line. -/
def putFirst (c : Char) : List (List Char) → List (List Char)
  | [] => [[c]]
  | l :: rest => (c :: l) :: rest

/-- The lines of a text, each with the break that ends it. A carriage return and the line feed
behind it are one break. -/
def lines : List Char → List (List Char)
  | [] => []
  | '\r' :: '\n' :: rest => ['\r', '\n'] :: lines rest
  | c :: rest => if isBreak c then [c] :: lines rest else putFirst c (lines rest)

/-- Whether a line is three hyphens and nothing else. -/
def isSeparator (line : List Char) : Bool := line.takeWhile (fun c => !isBreak c) = "---".toList

/-- A text of lines that end, none of which is a separator. All characters may be shown, which
rules out carriage returns: those might lose a line feed behind them. -/
inductive WholeLines : List Char → Prop where
  | nil : WholeLines []
  | cons (body : List Char) (c : Char) (rest : List Char) (hBody : Inline body)
      (hSafe : body ≠ "---".toList) (hBreak : isBreak c = true) (hPrintable : isPrintable c = true)
      (hRest : WholeLines rest) : WholeLines (body ++ c :: rest)

/-- The breaks that may be shown end a line without a carriage return. -/
theorem ne_return_of_printable {c : Char} (hPrintable : isPrintable c = true) : c ≠ '\r' := by
  rintro rfl
  exact absurd hPrintable (by decide)

theorem lines_cons_of_break {c : Char} (hBreak : isBreak c = true) (hReturn : c ≠ '\r')
    (rest : List Char) : lines (c :: rest) = [c] :: lines rest := by
  rw [lines, if_pos hBreak]
  intro _ hEq _
  exact absurd hEq hReturn

theorem lines_body {body : List Char} (hBody : ∀ d ∈ body, isBreak d = false) {c : Char}
    (hBreak : isBreak c = true) (hReturn : c ≠ '\r') (rest : List Char) :
    lines (body ++ c :: rest) = (body ++ [c]) :: lines rest := by
  -- nothing in the line is a break, so that all of it is put in front of its break
  induction body with
  | nil => exact lines_cons_of_break hBreak hReturn rest
  | cons d body ih =>
    have hd : isBreak d = false := hBody d List.mem_cons_self
    have hd' : d ≠ '\r' := by
      rintro rfl
      exact absurd hd (by decide)
    have hLines := ih fun e he => hBody e (List.mem_cons_of_mem d he)
    rw [List.cons_append, lines, hLines]
    · simp [hd, putFirst]
    · intro _ hEq _
      exact absurd hEq hd'

theorem takeWhile_line {body : List Char} (hBody : ∀ d ∈ body, isBreak d = false) {c : Char}
    (hBreak : isBreak c = true) : (body ++ [c]).takeWhile (fun d => !isBreak d) = body := by
  rw [List.takeWhile_append_of_pos (by simpa using hBody),
    List.takeWhile_cons_of_neg (by simpa using hBreak), List.append_nil]

/-- Whole lines are lines by themselves, whatever follows them. -/
theorem lines_append {text : List Char} (hText : WholeLines text) (more : List Char) :
    ∃ ls, lines (text ++ more) = ls ++ lines more ∧ ls.flatten = text ∧
      ∀ l ∈ ls, isSeparator l = false := by
  induction hText with
  | nil => exact ⟨[], rfl, rfl, by simp⟩
  | cons body c rest hBody hSafe hBreak hPrintable hRest ih =>
    obtain ⟨ls, hLines, hFlatten, hNone⟩ := ih
    have hOneLine : ∀ d ∈ body, isBreak d = false := fun d hd => (hBody d hd).2
    have hReturn := ne_return_of_printable hPrintable
    -- the first line is split off, and the others are lines already
    refine ⟨(body ++ [c]) :: ls, ?_, ?_, ?_⟩
    · rw [List.append_assoc, List.cons_append, lines_body hOneLine hBreak hReturn, hLines]
      rfl
    · rw [List.flatten_cons, hFlatten, List.append_assoc]
      rfl
    · intro l hl
      rcases List.mem_cons.mp hl with rfl | hl
      · rw [isSeparator, takeWhile_line hOneLine hBreak]
        exact decide_eq_false hSafe
      · exact hNone l hl

/-! ## Putting lines together -/

theorem WholeLines.append {a b : List Char} (ha : WholeLines a) (hb : WholeLines b) :
    WholeLines (a ++ b) := by
  induction ha with
  | nil => exact hb
  | cons body c rest hBody hSafe hBreak hPrintable _ ih =>
    rw [List.append_assoc]
    exact .cons body c _ hBody hSafe hBreak hPrintable ih

theorem WholeLines.printable {text : List Char} (hText : WholeLines text) :
    ∀ c ∈ text, isPrintable c = true := by
  induction hText with
  | nil => simp
  | cons body c rest hBody hSafe hBreak hPrintable _ ih =>
    intro d hd
    rcases List.mem_append.mp hd with hd | hd
    · exact (hBody d hd).1
    · rcases List.mem_cons.mp hd with rfl | hd
      · exact hPrintable
      · exact ih d hd

/-- The start of a line that nothing can make a separator: it holds something other than hyphens. -/
structure SafeStart (cs : List Char) : Prop where
  inline : Inline cs
  safe : ∃ c ∈ cs, c ≠ '-'

theorem SafeStart.append {a b : List Char} (ha : SafeStart a) (hb : Inline b) :
    SafeStart (a ++ b) := by
  obtain ⟨c, hc, hSafe⟩ := ha.safe
  exact ⟨ha.inline.append hb, c, List.mem_append_left _ hc, hSafe⟩

/-- A character other than a hyphen makes the start of a line safe. -/
theorem safeStart_snoc {cs : List Char} (hLine : Inline cs) {c : Char} (hShown : Inline [c])
    (hHyphen : c ≠ '-') : SafeStart (cs ++ [c]) :=
  ⟨hLine.append hShown, c, by simp, hHyphen⟩

theorem SafeStart.ne_separator {cs : List Char} (hStart : SafeStart cs) :
    cs ≠ "---".toList := by
  obtain ⟨c, hc, hSafe⟩ := hStart.safe
  rintro rfl
  have hHyphen : c = '-' := by simpa using hc
  exact hSafe hHyphen

theorem SafeStart.feed {cs : List Char} (hStart : SafeStart cs) {rest : List Char}
    (hRest : WholeLines rest) : WholeLines (cs ++ '\n' :: rest) :=
  .cons cs '\n' rest hStart.inline hStart.ne_separator (by decide) (by decide) hRest

theorem safeStart_spaces (n : Nat) : SafeStart (spaces (n + 1)) :=
  ⟨inline_spaces (n + 1), ' ', by simp [spaces], by decide⟩

/-! ## Scalars -/

theorem wholeLines_singleQuotedBody (indent : Nat) {cs : List Char}
    (hPrintable : ∀ c ∈ cs, isPrintable c = true) (hFeed : '\n' ∉ cs) :
    (∀ start, SafeStart start →
      WholeLines (start ++ (singleQuotedBody (indent + 1) false cs ++ ['\'', '\n']))) ∧
      WholeLines (singleQuotedBody (indent + 1) true cs ++ ['\'', '\n']) := by
  induction cs with
  | nil =>
    refine ⟨?_, ?_⟩
    · intro start hStart
      have hQuote := hStart.append (b := ['\'']) (by decide)
      simpa [singleQuotedBody] using hQuote.feed .nil
    · have hQuote := (safeStart_spaces indent).append (b := ['\'']) (by decide)
      simpa [singleQuotedBody] using hQuote.feed .nil
  | cons c rest ih =>
    have hc := hPrintable c List.mem_cons_self
    obtain ⟨ihIn, ihStart⟩ := ih (fun d hd => hPrintable d (List.mem_cons_of_mem c hd))
      (fun hd => hFeed (List.mem_cons_of_mem c hd))
    have hNotFeed : c ≠ '\n' := fun hEq => hFeed (hEq ▸ List.mem_cons_self)
    by_cases hBreak : isBreak c = true
    · -- the break ends the line, and the text goes on at the start of the next one
      refine ⟨?_, ?_⟩
      · intro start hStart
        have hLine := WholeLines.cons start c _ hStart.inline hStart.ne_separator hBreak hc ihStart
        simpa [singleQuotedBody, hBreak, hNotFeed] using hLine
      · have hLine := WholeLines.cons [] c _ inline_nil (by decide) hBreak hc ihStart
        simpa [singleQuotedBody, hBreak, hNotFeed] using hLine
    · have hOne : Inline [c] := inline_singleton hc (by simpa using hBreak)
      have hShown : Inline (if c = '\'' then ['\'', c] else [c]) := by
        split
        · exact Inline.append (a := ['\'']) (by decide) hOne
        · exact hOne
      refine ⟨?_, ?_⟩
      · intro start hStart
        simpa [singleQuotedBody, hBreak] using ihIn _ (hStart.append hShown)
      · simpa [singleQuotedBody, hBreak] using ihIn _ ((safeStart_spaces indent).append hShown)

theorem wholeLines_literalBody (indent : Nat) {cs : List Char}
    (hPrintable : ∀ c ∈ cs, isPrintable c = true) (last : Char) :
    (isBreak last = false → ∀ start, SafeStart start →
      WholeLines (start ++ (literalBody (indent + 1) false cs ++ lineEnd (cs.getLastD last)))) ∧
      (isBreak last = true →
        WholeLines (literalBody (indent + 1) true cs ++ lineEnd (cs.getLastD last))) := by
  induction cs generalizing last with
  | nil =>
    refine ⟨?_, ?_⟩
    · intro hLast start hStart
      simpa [literalBody, lineEnd, hLast] using hStart.feed .nil
    · intro hLast
      simpa [literalBody, lineEnd, hLast] using WholeLines.nil
  | cons c rest ih =>
    have hc := hPrintable c List.mem_cons_self
    obtain ⟨ihIn, ihStart⟩ := ih (fun d hd => hPrintable d (List.mem_cons_of_mem c hd)) c
    rw [List.getLastD_cons]
    by_cases hBreak : isBreak c = true
    · -- an empty line is no separator, and the line before it was safe
      refine ⟨?_, ?_⟩
      · intro _ start hStart
        have hLine := WholeLines.cons start c _ hStart.inline hStart.ne_separator hBreak hc
          (ihStart hBreak)
        simpa [literalBody, hBreak] using hLine
      · intro _
        have hLine := WholeLines.cons [] c _ inline_nil (by decide) hBreak hc
          (ihStart hBreak)
        simpa [literalBody, hBreak] using hLine
    · -- at the start of a line the character is moved in, and the blanks make the line safe
      have hNone : isBreak c = false := by simpa using hBreak
      refine ⟨?_, ?_⟩
      · intro _ start hStart
        have hNext := hStart.append (b := [c]) (inline_singleton hc hNone)
        simpa [literalBody, hBreak] using ihIn hNone _ hNext
      · intro _
        have hNext := (safeStart_spaces indent).append (b := [c]) (inline_singleton hc hNone)
        simpa [literalBody, hBreak] using ihIn hNone _ hNext

/-- A line that ends with a scalar of one line. -/
theorem SafeStart.inlineScalar {start cs : List Char} (hStart : SafeStart start)
    (hLine : Inline cs) : WholeLines (start ++ endLine cs) := by
  rw [endLine_of_inline hLine, ← List.append_assoc]
  exact (hStart.append hLine).feed .nil

/-- A scalar behind the start of a line is made of whole lines. -/
theorem wholeLines_scalar (indent : Nat) {cs : List Char} {style : Style} (hFits : Fits cs style)
    {start : List Char} (hStart : SafeStart start) :
    WholeLines (start ++ endLine (inStyle style (indent + 1) cs)) := by
  cases hFits with
  | plain hText => exact hStart.inlineScalar hText.inline
  | double => exact hStart.inlineScalar (inline_doubleQuoted cs)
  | single hText =>
    have hQuote := hStart.append (b := ['\'']) (by decide)
    have hBody := (wholeLines_singleQuotedBody indent hText.printable hText.noFeed).1 _ hQuote
    rw [inStyle, endLine_singleQuoted]
    simpa using hBody
  | literal hText =>
    have hHeader := hStart.append (inline_header cs)
    have hBody := (wholeLines_literalBody indent hText.printable '\n').2 rfl
    rw [inStyle, endLine_literal]
    simpa using hHeader.feed hBody

/-! ## Documents -/

variable {σ : Styling}

/-- A value that is a scalar, behind the start of a line. -/
theorem wholeLines_scalarOf {t : Tree} {style : Style} {s : String}
    (hScalar : σ.scalarOf t = some (style, s)) (indent : Nat) {start : List Char}
    (hStart : Inline start) :
    WholeLines (start ++ itemValue σ.style indent t) ∧ WholeLines (start ++ fieldValue σ.style indent t) := by
  obtain ⟨hItem, hField⟩ := value_scalar hScalar indent
  have hBlank := safeStart_snoc hStart (c := ' ') (by decide) (by decide)
  have hLines := wholeLines_scalar (indent + 1) (fits_scalarOf hScalar) hBlank
  rw [hItem, hField]
  exact ⟨by simpa using hLines, by simpa using hLines⟩

theorem itemValue_empty (indent : Nat) : itemValue σ.style indent (.list []) = [' ', '[', ']', '\n'] ∧
    itemValue σ.style indent (.object []) = [' ', '\x7b', '\x7d', '\n'] :=
  ⟨rfl, rfl⟩

theorem fieldValue_empty (indent : Nat) : fieldValue σ.style indent (.list []) = [' ', '[', ']', '\n'] ∧
    fieldValue σ.style indent (.object []) = [' ', '\x7b', '\x7d', '\n'] :=
  ⟨rfl, rfl⟩

theorem itemValue_list (indent : Nat) (item : Tree) (rest : List Tree) :
    itemValue σ.style indent (.list (item :: rest)) =
      itemLines σ.style (spaces 1) (indent + 2) (item :: rest) :=
  rfl

theorem itemValue_object (indent : Nat) (field : String × Tree) (rest : List (String × Tree)) :
    itemValue σ.style indent (.object (field :: rest)) =
      fieldLines σ.style (spaces 1) (indent + 2) (field :: rest) :=
  rfl

theorem fieldValue_list (indent : Nat) (item : Tree) (rest : List Tree) :
    fieldValue σ.style indent (.list (item :: rest)) =
      '\n' :: itemLines σ.style (spaces indent) indent (item :: rest) :=
  rfl

theorem fieldValue_object (indent : Nat) (field : String × Tree) (rest : List (String × Tree)) :
    fieldValue σ.style indent (.object (field :: rest)) =
      '\n' :: fieldLines σ.style (spaces (indent + 2)) (indent + 2) (field :: rest) :=
  rfl

/-- The value of an item, and that of a field, behind the start of its line. What stands behind the
mark of an item begins with a blank, which makes any line safe; the value of a field may begin a
line of its own, and the line of its colon has to be safe already. -/
structure ValueLines (σ : Styling) (t : Tree) : Prop where
  item (indent : Nat) {start : List Char} (hStart : Inline start) :
    WholeLines (start ++ itemValue σ.style indent t)
  field (indent : Nat) {start : List Char} (hStart : SafeStart start) :
    WholeLines (start ++ fieldValue σ.style indent t)

theorem valueLines_scalar {t : Tree} {style : Style} {s : String}
    (hScalar : σ.scalarOf t = some (style, s)) : ValueLines σ t :=
  ⟨fun indent _ hStart => (wholeLines_scalarOf hScalar indent hStart).1,
    fun indent _ hStart => (wholeLines_scalarOf hScalar indent hStart.inline).2⟩

theorem wholeLines_items {item : Tree} {rest : List Tree}
    (hItems : ∀ t ∈ item :: rest, ValueLines σ t) (indent before : Nat) {start : List Char}
    (hStart : Inline start) :
    WholeLines (start ++ itemLines σ.style (spaces before) indent (item :: rest)) := by
  induction rest generalizing item before start with
  | nil =>
    have hMark := (hStart.append (inline_spaces before)).append (b := ['-']) (by decide)
    have hItem := (hItems item List.mem_cons_self).item indent hMark
    simpa [itemLines] using hItem
  | cons next more ih =>
    have hMark := (hStart.append (inline_spaces before)).append (b := ['-']) (by decide)
    have hItem := (hItems item List.mem_cons_self).item indent hMark
    have hRest := ih (fun t ht => hItems t (List.mem_cons_of_mem item ht)) indent inline_nil
    rw [itemLines]
    simpa using hItem.append hRest

theorem wholeLines_field (key : String) {value : Tree} (hValue : ValueLines σ value) (indent : Nat)
    {start : List Char} (hStart : Inline start) :
    WholeLines (start ++ fieldLines σ.style [] indent [(key, value)]) := by
  rw [fieldLines]
  by_cases hKey : isSimpleKey key = true
  · have hKeyLine := inline_key hKey (σ.fits key).1 indent
    have hColon := safeStart_snoc (hStart.append hKeyLine) (c := ':') (by decide) (by decide)
    have hField := hValue.field indent hColon
    simpa [hKey, fieldLines] using hField
  · -- the key takes lines of its own, behind a question mark, and the value those behind a colon
    have hSign := safeStart_snoc hStart (c := '?') (by decide) (by decide)
    have hMark := hSign.append (b := [' ']) (by decide)
    have hLines := wholeLines_scalar (indent + 1) (σ.fits key).1 hMark
    have hColon := hValue.item indent ((inline_spaces indent).append (b := [':']) (by decide))
    simpa [hKey, scalarLine, fieldLines] using hLines.append hColon

theorem fieldLines_cons (before : List Char) (indent : Nat) (field : String × Tree)
    (rest : List (String × Tree)) :
    fieldLines σ.style before indent (field :: rest) =
      before ++ (fieldLines σ.style [] indent [field] ++ fieldLines σ.style (spaces indent) indent rest) := by
  obtain ⟨key, value⟩ := field
  simp [fieldLines]

theorem wholeLines_fields {field : String × Tree} {rest : List (String × Tree)}
    (hFields : ∀ e ∈ field :: rest, ValueLines σ e.2) (indent before : Nat) {start : List Char}
    (hStart : Inline start) :
    WholeLines (start ++ fieldLines σ.style (spaces before) indent (field :: rest)) := by
  induction rest generalizing field before start with
  | nil =>
    have hBefore := hStart.append (inline_spaces before)
    have hField := wholeLines_field field.1 (hFields field List.mem_cons_self) indent hBefore
    rw [fieldLines_cons]
    simpa [fieldLines] using hField
  | cons next more ih =>
    have hBefore := hStart.append (inline_spaces before)
    have hField := wholeLines_field field.1 (hFields field List.mem_cons_self) indent hBefore
    have hRest := ih (fun e he => hFields e (List.mem_cons_of_mem field he)) indent inline_nil
    rw [fieldLines_cons]
    simpa using hField.append hRest

theorem valueLines_empty : ValueLines σ (.list []) ∧ ValueLines σ (.object []) := by
  have hBlank : ∀ {start : List Char}, Inline start → SafeStart (start ++ [' ']) :=
    fun hStart => safeStart_snoc hStart (by decide) (by decide)
  refine ⟨⟨fun indent start hStart => ?_, fun indent start hStart => ?_⟩,
    ⟨fun indent start hStart => ?_, fun indent start hStart => ?_⟩⟩
  · have hLine := (hBlank hStart).append (b := ['[', ']']) (by decide)
    simpa [itemValue_empty] using hLine.feed .nil
  · have hLine := hStart.append (b := [' ', '[', ']']) (by decide)
    simpa [fieldValue_empty] using hLine.feed .nil
  · have hLine := (hBlank hStart).append (b := ['\x7b', '\x7d']) (by decide)
    simpa [itemValue_empty] using hLine.feed .nil
  · have hLine := hStart.append (b := [' ', '\x7b', '\x7d']) (by decide)
    simpa [fieldValue_empty] using hLine.feed .nil

theorem valueLines_list {item : Tree} {rest : List Tree}
    (hItems : ∀ t ∈ item :: rest, ValueLines σ t) : ValueLines σ (.list (item :: rest)) := by
  refine ⟨fun indent start hStart => ?_, fun indent start hStart => ?_⟩
  · rw [itemValue_list]
    exact wholeLines_items hItems (indent + 2) 1 hStart
  · rw [fieldValue_list]
    exact hStart.feed (wholeLines_items hItems indent indent inline_nil)

theorem valueLines_object {field : String × Tree} {rest : List (String × Tree)}
    (hFields : ∀ e ∈ field :: rest, ValueLines σ e.2) : ValueLines σ (.object (field :: rest)) := by
  refine ⟨fun indent start hStart => ?_, fun indent start hStart => ?_⟩
  · rw [itemValue_object]
    exact wholeLines_fields hFields (indent + 2) 1 hStart
  · rw [fieldValue_object]
    exact hStart.feed (wholeLines_fields hFields (indent + 2) (indent + 2) inline_nil)

theorem valueLines_of_isExact (t : Tree) (hExact : t.isExact = true) : ValueLines σ t := by
  induction t, hExact using Tree.exact_induction σ with
  | scalar hExact hScalar => exact valueLines_scalar hScalar
  | list items hExact hItems ih =>
    cases items with
    | nil => exact valueLines_empty.1
    | cons item rest => exact valueLines_list ih
  | object fields hExact hNames hFields ih =>
    cases fields with
    | nil => exact valueLines_empty.2
    | cons field rest => exact valueLines_object ih

theorem wholeLines_document {t : Tree} (hManifest : t.IsManifest) :
    WholeLines (documentChars σ.style t) := by
  obtain ⟨hExact, field, rest, rfl⟩ := hManifest
  rw [Tree.isExact_object, Bool.and_eq_true, List.all_eq_true] at hExact
  have hFields : ∀ e ∈ field :: rest, ValueLines σ e.2 :=
    fun e he => valueLines_of_isExact e.2 (hExact.2 e he)
  exact wholeLines_fields hFields 0 0 inline_nil

end PodCompiler.Yaml
