import PodCompiler.Yaml.Writer
import PodCompiler.Proofs.Numerals
import Mathlib.Data.List.Basic

/-!
# PodCompiler — what a style promises

A text gets a style that shows it faithfully. What a reader needs to know of a text in a given style
is collected here, so that neither the traits nor the choice between the styles have to be looked
at again.

Main results:

* `fits_chooseStyle` — what is known of a text from the style that it gets.
* `plainText_ofInt` — numbers stand without quotes.
* `exists_of_break` — the line breaks among the characters that may be shown.
* `endLine_literal` — a block up to the end of its last line.
-/

namespace PodCompiler.Yaml

/-! ## Characters -/

/-- The line breaks that may be shown are those that a reader takes as they are. -/
theorem exists_of_break {c : Char} (hPrintable : isPrintable c = true) (hBreak : isBreak c = true) :
    c = '\n' ∨ c = '\u2028' ∨ c = '\u2029' := by
  simp only [isBreak, Bool.or_eq_true, decide_eq_true_eq] at hBreak
  rcases hBreak with (((rfl | rfl) | rfl) | rfl) | rfl
  · exact .inl rfl
  · exact absurd hPrintable (by decide)
  · exact absurd hPrintable (by decide)
  · exact .inr (.inl rfl)
  · exact .inr (.inr rfl)

theorem ne_tab_of_printable {c : Char} (hPrintable : isPrintable c = true) : c ≠ '\t' := by
  rintro rfl
  exact absurd hPrintable (by decide)

theorem ne_mark_of_printable {c : Char} (hPrintable : isPrintable c = true) :
    c ≠ byteOrderMark := by
  rintro rfl
  exact absurd hPrintable (by decide)

/-- The only blank that may be shown is a space. -/
theorem isBlank_eq_of_printable {c : Char} (hPrintable : isPrintable c = true) :
    isBlank c = decide (c = ' ') := by
  simp [isBlank, ne_tab_of_printable hPrintable]

/-- A text that may be shown within a line. -/
def Inline (cs : List Char) : Prop := ∀ c ∈ cs, isPrintable c = true ∧ isBreak c = false

instance (cs : List Char) : Decidable (Inline cs) := List.decidableBAll _ _

theorem inline_nil : Inline [] := by simp [Inline]

theorem inline_singleton {c : Char} (hPrintable : isPrintable c = true) (hBreak : isBreak c = false) :
    Inline [c] := by
  intro d hd
  rw [List.mem_singleton.mp hd]
  exact ⟨hPrintable, hBreak⟩

theorem Inline.append {a b : List Char} (ha : Inline a) (hb : Inline b) : Inline (a ++ b) := by
  intro c hc
  rcases List.mem_append.mp hc with hc | hc
  · exact ha c hc
  · exact hb c hc

theorem inline_spaces (n : Nat) : Inline (spaces n) := by
  intro c hc
  rw [List.eq_of_mem_replicate hc]
  decide

/-! ## Neighbours -/

theorem anyPair_head {p : Char → Char → Bool} {a b : Char} {cs : List Char}
    (hNone : anyPair p (a :: b :: cs) = false) : p a b = false := by
  rw [anyPair, Bool.or_eq_false_iff] at hNone
  exact hNone.1

theorem anyPair_tail {p : Char → Char → Bool} {c : Char} {cs : List Char}
    (hNone : anyPair p (c :: cs) = false) : anyPair p cs = false := by
  cases cs with
  | nil => rfl
  | cons d cs =>
    rw [anyPair, Bool.or_eq_false_iff] at hNone
    exact hNone.2

theorem anyPair_eq_false {p : Char → Char → Bool} {cs : List Char}
    (hNone : ∀ b ∈ cs, ∀ a, p a b = false) : anyPair p cs = false := by
  induction cs with
  | nil => rfl
  | cons a rest ih =>
    have hRest := ih fun b hb => hNone b (List.mem_cons_of_mem a hb)
    cases rest with
    | nil => rfl
    | cons b rest =>
      rw [anyPair, hRest, hNone b (by simp) a]
      rfl

/-! ## What is known of a text -/

/-- A text that stands without quotes on one line. -/
structure PlainText (cs : List Char) : Prop where
  ne_nil : cs ≠ []
  printable : ∀ c ∈ cs, isPrintable c = true
  oneLine : ∀ c ∈ cs, isBreak c = false
  head : cs.head? ≠ some ' '
  last : cs.getLast? ≠ some ' '
  marker : startsWithMarker cs = false
  indicator : startsWithIndicator cs = false
  value : hasValueMark cs = false
  comment : hasCommentMark cs = false

/-- A text that stands in single quotes. -/
structure SingleText (cs : List Char) : Prop where
  printable : ∀ c ∈ cs, isPrintable c = true
  noFeed : '\n' ∉ cs
  breakThenSpace : anyPair (fun a b => isBreak a && b = ' ') cs = false
  spaceThenBreak : anyPair (fun a b => a = ' ' && isBreak b) cs = false

/-- A text that stands in a block. -/
structure BlockText (cs : List Char) : Prop where
  feed : '\n' ∈ cs
  printable : ∀ c ∈ cs, isPrintable c = true

/-- What is known of a text in a style. Nothing needs to be known of a text in double quotes. -/
inductive Fits (cs : List Char) : Style → Prop where
  | plain (hText : PlainText cs) : Fits cs .plain
  | single (hText : SingleText cs) : Fits cs .singleQuoted
  | double : Fits cs .doubleQuoted
  | literal (hText : BlockText cs) : Fits cs .literal

theorem PlainText.inline {cs : List Char} (hText : PlainText cs) : Inline cs :=
  fun c hc => ⟨hText.printable c hc, hText.oneLine c hc⟩

theorem printable_of_not_special {cs : List Char} (hSpecial : (traits cs).special = false) :
    ∀ c ∈ cs, isPrintable c = true := by
  intro c hc
  have hNone := List.any_eq_false.mp hSpecial c hc
  simpa using hNone

theorem ne_space_of_not_edge {c : Option Char} (hEdge : isEdge c = false) : c ≠ some ' ' := by
  rintro rfl
  exact absurd hEdge (by decide)

/-- A text without the traits that rule out the plain style can stand without quotes. -/
theorem plainText_of_traits {cs : List Char} (hNil : cs ≠ [])
    (hPlain : (traits cs).allowsPlain = true) : PlainText cs := by
  simp only [Traits.allowsPlain, Bool.not_eq_true', Bool.or_eq_false_iff] at hPlain
  obtain ⟨⟨⟨⟨⟨hRagged, -⟩, -⟩, hSpecial⟩, hMultiline⟩, hIndicators⟩ := hPlain
  simp only [traits, Bool.or_eq_false_iff] at hRagged hIndicators
  obtain ⟨hHead, hLast⟩ := hRagged
  obtain ⟨⟨⟨hMarker, hIndicator⟩, hValue⟩, hComment⟩ := hIndicators
  exact
    { ne_nil := hNil
      printable := printable_of_not_special hSpecial
      oneLine := fun c hc => by simpa using List.any_eq_false.mp hMultiline c hc
      head := ne_space_of_not_edge hHead
      last := ne_space_of_not_edge hLast
      marker := hMarker
      indicator := hIndicator
      value := hValue
      comment := hComment }

theorem singleText_of_traits {cs : List Char} (hFeed : '\n' ∉ cs)
    (hSingle : (traits cs).allowsSingle = true) : SingleText cs := by
  simp only [Traits.allowsSingle, Bool.not_eq_true', Bool.or_eq_false_iff] at hSingle
  obtain ⟨⟨hBreakThenSpace, hSpaceThenBreak⟩, hSpecial⟩ := hSingle
  exact
    { printable := printable_of_not_special hSpecial
      noFeed := hFeed
      breakThenSpace := hBreakThenSpace
      spaceThenBreak := hSpaceThenBreak }

theorem blockText_of_traits {cs : List Char} (hFeed : '\n' ∈ cs)
    (hBlock : (traits cs).allowsBlock = true) : BlockText cs := by
  simp only [Traits.allowsBlock, Bool.not_eq_true', Bool.or_eq_false_iff] at hBlock
  exact ⟨hFeed, printable_of_not_special hBlock.2⟩

/-- What a text asks for, and why. -/
theorem preferredStyle_cases (s : String) :
    (preferredStyle s = .literal ∧ '\n' ∈ s.toList) ∨
      (preferredStyle s = .plain ∧ '\n' ∉ s.toList ∧ Plain.ofText s = .text) ∨
      (preferredStyle s = .singleQuoted ∧ '\n' ∉ s.toList) := by
  rw [preferredStyle]
  by_cases hFeed : '\n' ∈ s.toList
  · simp [hFeed]
  · cases hMeaning : Plain.ofText s with
    | text =>
      by_cases hPadded : Plain.isPadded s.toList = true
      · simp [hFeed, hPadded]
      · simp [hFeed, hPadded]
    | null => simp [hFeed]
    | bool value => simp [hFeed]
    | int value => simp [hFeed]
    | float value => simp [hFeed]

/-- The empty text is no plain scalar: it would be read as nothing. -/
theorem ne_nil_of_text {s : String} (hMeaning : Plain.ofText s = .text) : s.toList ≠ [] := by
  intro hNil
  rw [String.toList_eq_nil_iff.mp hNil] at hMeaning
  exact absurd hMeaning (by decide)

/-- A text fits the style that it gets, and without quotes it is read as a text. -/
theorem fits_chooseStyle (s : String) :
    Fits s.toList (chooseStyle s) ∧ (chooseStyle s = .plain → Plain.ofText s = .text) := by
  rw [chooseStyle]
  obtain ⟨hStyle, hFeed⟩ | ⟨hStyle, hFeed, hMeaning⟩ | ⟨hStyle, hFeed⟩ := preferredStyle_cases s
  -- a text that its preferred style does not allow falls back on the next one that does
  · rw [hStyle]
    by_cases hBlock : (traits s.toList).allowsBlock = true
    · simp only [hBlock, if_true]
      exact ⟨.literal (blockText_of_traits hFeed hBlock), by simp⟩
    · simp only [hBlock]
      exact ⟨.double, by simp⟩
  · rw [hStyle]
    by_cases hPlain : (traits s.toList).allowsPlain = true
    · simp only [hPlain, if_true]
      exact ⟨.plain (plainText_of_traits (ne_nil_of_text hMeaning) hPlain), fun _ => hMeaning⟩
    · by_cases hSingle : (traits s.toList).allowsSingle = true
      · simp only [hPlain, hSingle, if_true]
        exact ⟨.single (singleText_of_traits hFeed hSingle), by simp⟩
      · simp only [hPlain, hSingle]
        exact ⟨.double, by simp⟩
  · rw [hStyle]
    by_cases hSingle : (traits s.toList).allowsSingle = true
    · simp only [hSingle, if_true]
      exact ⟨.single (singleText_of_traits hFeed hSingle), by simp⟩
    · simp only [hSingle]
      exact ⟨.double, by simp⟩

theorem oneLine_of_isSimpleKey {key : String} (hKey : isSimpleKey key = true) :
    ∀ c ∈ key.toList, isBreak c = false := by
  rw [isSimpleKey, Bool.and_eq_true, Bool.not_eq_true', List.any_eq_false] at hKey
  intro c hc
  simpa using hKey.1 c hc

/-- A text of one line is no block. -/
theorem Fits.ne_literal {cs : List Char} {style : Style} (hFits : Fits cs style)
    (hLine : ∀ c ∈ cs, isBreak c = false) : style ≠ .literal := by
  rintro rfl
  cases hFits with
  | literal hText => exact absurd (hLine _ hText.feed) (by decide)

/-! ## Numbers -/

/-- A digit, as far as the rules of plain scalars are concerned. -/
theorem digit_traits {c : Char} (hc : '0' ≤ c ∧ c ≤ '9') :
    isPrintable c = true ∧ isBreak c = false ∧ isBlank c = false ∧ isIndicator c = false ∧
      c ≠ ' ' ∧ c ≠ '-' ∧ c ≠ '.' ∧ c ≠ '?' ∧ c ≠ ':' ∧ c ≠ '#' := by
  -- the ten digits one by one
  have hAll : ∀ n < 10, isPrintable (Char.ofNat (48 + n)) = true ∧
      isBreak (Char.ofNat (48 + n)) = false ∧ isBlank (Char.ofNat (48 + n)) = false ∧
      isIndicator (Char.ofNat (48 + n)) = false ∧ Char.ofNat (48 + n) ≠ ' ' ∧
      Char.ofNat (48 + n) ≠ '-' ∧ Char.ofNat (48 + n) ≠ '.' ∧ Char.ofNat (48 + n) ≠ '?' ∧
      Char.ofNat (48 + n) ≠ ':' ∧ Char.ofNat (48 + n) ≠ '#' := by decide
  have hLow : 48 ≤ c.toNat := hc.1
  have hHigh : c.toNat ≤ 57 := hc.2
  have hEq : c = Char.ofNat (48 + (c.toNat - 48)) := by
    rw [Nat.add_sub_cancel' hLow, Char.ofNat_toNat]
  rw [hEq]
  exact hAll _ (by omega)

theorem hasValueMark_eq_false {cs : List Char} (hColon : ':' ∉ cs) : hasValueMark cs = false := by
  induction cs with
  | nil => rfl
  | cons c rest ih =>
    have hc : c ≠ ':' := fun hEq => hColon (hEq ▸ List.mem_cons_self)
    rw [hasValueMark, ih fun h => hColon (List.mem_cons_of_mem c h)]
    simp [hc]

theorem inline_number {sign digits : List Char} (hSign : sign = [] ∨ sign = ['-'])
    (hDigits : ∀ c ∈ digits, '0' ≤ c ∧ c ≤ '9') : Inline (sign ++ digits) := by
  refine Inline.append ?_ fun c hc => ?_
  · rcases hSign with rfl | rfl <;> decide
  · obtain ⟨hPrintable, hBreak, -⟩ := digit_traits (hDigits c hc)
    exact ⟨hPrintable, hBreak⟩

theorem not_mem_number {sign digits : List Char} (hSign : sign = [] ∨ sign = ['-'])
    (hDigits : ∀ c ∈ digits, '0' ≤ c ∧ c ≤ '9') {x : Char} (hx : x ∈ [' ', ':', '#']) :
    x ∉ sign ++ digits := by
  intro hMem
  rcases List.mem_append.mp hMem with hMem | hMem
  · rcases hSign with rfl | rfl
    · cases hMem
    · rw [List.mem_singleton.mp hMem] at hx
      exact absurd hx (by decide)
  · have hTraits := digit_traits (hDigits x hMem)
    simp only [List.mem_cons, List.not_mem_nil, or_false] at hx
    rcases hx with rfl | rfl | rfl <;> simp at hTraits

theorem plainText_ofInt (n : Int) : PlainText (Numeral.ofInt n).toList := by
  obtain ⟨sign, d, ds, hText, hSign, hDigits, -⟩ := Numeral.isNumeral_ofInt n
  obtain ⟨-, hBreak, hBlank, hIndicator, -, hMinus, hPoint, hMark, hColon, -⟩ :=
    digit_traits (hDigits d List.mem_cons_self)
  have hInline := inline_number hSign hDigits
  have hSpaces := not_mem_number hSign hDigits (x := ' ') (by simp)
  rw [hText]
  refine
    { ne_nil := by simp
      printable := fun c hc => (hInline c hc).1
      oneLine := fun c hc => (hInline c hc).2
      head := fun hHead => hSpaces (List.mem_of_mem_head? hHead)
      last := fun hLast => hSpaces (List.mem_of_getLast? hLast)
      marker := ?marker
      indicator := ?indicator
      value := hasValueMark_eq_false (not_mem_number hSign hDigits (by simp))
      comment := ?comment }
  case marker =>
    -- two hyphens never begin a number: a digit follows the sign
    rcases hSign with rfl | rfl
    · simp [startsWithMarker, hMinus, hPoint]
    · simp [startsWithMarker, hMinus]
  case indicator =>
    rcases hSign with rfl | rfl
    · simp [startsWithIndicator, hIndicator, hMinus, hMark, hColon]
    · simp [startsWithIndicator, atBlank, hBlank, hBreak]
      decide
  case comment =>
    refine anyPair_eq_false fun b hb a => ?_
    have hb : b ≠ '#' := fun hEq => not_mem_number hSign hDigits (by simp) (hEq ▸ hb)
    simp [hb]

/-! ## Double quotes -/

theorem hexDigit_mem {n : Nat} (hn : n < 16) : Numeral.hexDigit n ∈ "0123456789ABCDEF".toList := by
  have hAll : ∀ n < 16, Numeral.hexDigit n ∈ "0123456789ABCDEF".toList := by decide
  exact hAll n hn

theorem mem_hexDigits {n width : Nat} {d : Char} (hd : d ∈ Numeral.hexDigits n width) :
    d ∈ "0123456789ABCDEF".toList := by
  induction width with
  | zero => cases hd
  | succ width ih =>
    rcases List.mem_cons.mp hd with rfl | hd
    · exact hexDigit_mem (Nat.mod_lt _ (by decide))
    · exact ih hd

/-- How a character is shown inside double quotes: as it is, by a letter, or by its code. -/
inductive Shown (c : Char) : List Char → Prop where
  | itself (hPrintable : isPrintable c = true) (hBreak : isBreak c = false) (hQuote : c ≠ '\x22')
      (hSlash : c ≠ '\\') : Shown c [c]
  | letter (d : Char) (hLetter : escapeLetter c = some d) : Shown c ['\\', d]
  | code (mark : Char) (width : Nat) (hWidth : escapeWidth c.toNat = (mark, width)) :
      Shown c ('\\' :: mark :: Numeral.hexDigits c.toNat width)

theorem shown (c : Char) : Shown c (doubleQuotedChar c) := by
  rw [doubleQuotedChar]
  split
  case isTrue hSelf =>
    simp only [Bool.and_eq_true, Bool.not_eq_true', decide_eq_true_eq] at hSelf
    obtain ⟨⟨⟨hPrintable, hBreak⟩, hQuote⟩, hSlash⟩ := hSelf
    exact .itself hPrintable hBreak hQuote hSlash
  case isFalse hOther =>
    cases hLetter : escapeLetter c with
    | some d => exact .letter d hLetter
    | none => exact .code _ _ rfl

/-- The characters that have a letter, with their letters. -/
def letters : List (Char × Char) :=
  [('\x00', '0'), ('\x07', 'a'), ('\x08', 'b'), ('\t', 't'), ('\n', 'n'), ('\x0b', 'v'),
    ('\x0c', 'f'), ('\r', 'r'), ('\x1b', 'e'), ('\x22', '\x22'), ('\\', '\\'), ('\u0085', 'N'),
    ('\u2028', 'L'), ('\u2029', 'P')]

theorem mem_letters {c d : Char} (hLetter : escapeLetter c = some d) : (c, d) ∈ letters := by
  -- characters outside the table have no letter
  have hTable : ∀ e ∈ letters, escapeLetter e.1 = some e.2 := by decide
  by_cases hc : c ∈ letters.map Prod.fst
  · obtain ⟨e, he, rfl⟩ := List.mem_map.mp hc
    rw [hTable e he] at hLetter
    obtain rfl := Option.some.inj hLetter
    exact he
  · simp only [letters, List.map_cons, List.map_nil, List.mem_cons, List.not_mem_nil, or_false,
      not_or] at hc
    simp [escapeLetter, hc] at hLetter

theorem escapeWidth_mem {n : Nat} {mark : Char} {width : Nat}
    (hWidth : escapeWidth n = (mark, width)) : mark ∈ "xuU".toList := by
  unfold escapeWidth at hWidth
  split_ifs at hWidth
  all_goals
    obtain ⟨rfl, -⟩ := Prod.mk.inj hWidth
    decide

/-- Double quotes show nothing that breaks a line. -/
theorem inline_doubleQuotedChar (c : Char) : Inline (doubleQuotedChar c) := by
  intro d hd
  have hShown := shown c
  generalize doubleQuotedChar c = cs at hd hShown
  cases hShown with
  | itself hPrintable hBreak hQuote hSlash =>
    rw [List.mem_singleton.mp hd]
    exact ⟨hPrintable, hBreak⟩
  | letter letter hLetter =>
    rcases List.mem_cons.mp hd with rfl | hd
    · decide
    · rw [List.mem_singleton.mp hd]
      have hLetters : ∀ e ∈ letters, isPrintable e.2 = true ∧ isBreak e.2 = false := by decide
      exact hLetters _ (mem_letters hLetter)
  | code mark width hWidth =>
    rcases List.mem_cons.mp hd with rfl | hd
    · decide
    · rcases List.mem_cons.mp hd with rfl | hd
      · have hMarks : Inline "xuU".toList := by decide
        exact hMarks _ (escapeWidth_mem hWidth)
      · have hDigits : Inline "0123456789ABCDEF".toList := by decide
        exact hDigits _ (mem_hexDigits hd)

theorem inline_doubleQuoted (cs : List Char) : Inline (doubleQuoted cs) := by
  have hBody : Inline (cs.flatMap doubleQuotedChar) := by
    intro d hd
    obtain ⟨c, -, hd⟩ := List.mem_flatMap.mp hd
    exact inline_doubleQuotedChar c d hd
  exact Inline.append (a := ['\x22']) (by decide) (hBody.append (by decide))

/-! ## Single quotes -/

theorem inline_singleQuotedBody (indent : Nat) {cs : List Char} (hLine : Inline cs) :
    Inline (singleQuotedBody indent false cs) := by
  induction cs with
  | nil => exact inline_nil
  | cons c rest ih =>
    obtain ⟨hPrintable, hBreak⟩ := hLine c List.mem_cons_self
    have hRest := ih fun d hd => hLine d (List.mem_cons_of_mem c hd)
    have hOne := inline_singleton hPrintable hBreak
    rw [singleQuotedBody]
    simp only [hBreak, Bool.false_eq_true, if_false, List.nil_append]
    refine Inline.append ?_ hRest
    split
    · exact Inline.append (a := ['\'']) (by decide) hOne
    · exact hOne

theorem inline_key {key : String} (hKey : isSimpleKey key = true) {style : Style}
    (hFits : Fits key.toList style) (indent : Nat) :
    Inline (inStyle style indent key.toList) := by
  have hLine := oneLine_of_isSimpleKey hKey
  have hStyle := hFits.ne_literal hLine
  cases hFits with
  | plain hText => exact hText.inline
  | double => exact inline_doubleQuoted key.toList
  | literal hText => exact absurd rfl hStyle
  | single hText =>
    have hBody := inline_singleQuotedBody indent
      (fun c hc => ⟨hText.printable c hc, hLine c hc⟩ : Inline key.toList)
    exact Inline.append (a := ['\'']) (by decide) (hBody.append (by decide))

/-! ## Blocks -/

theorem inline_header (cs : List Char) :
    Inline ('|' :: (indentationSign cs ++ chompingSign cs)) := by
  have hIndentation : Inline (indentationSign cs) := by
    rw [indentationSign]
    split
    · decide
    · decide
  have hChomping : Inline (chompingSign cs) := by
    rw [chompingSign]
    split
    · decide
    · split
      · decide
      · decide
    · split
      · split
        · decide
        · decide
      · decide
  exact Inline.append (a := ['|']) (by decide) (hIndentation.append hChomping)

/-! ## The end of a scalar -/

/-- What has to be added behind a last character to end its line. -/
def lineEnd (last : Char) : List Char := if isBreak last then [] else ['\n']

theorem getLastD_append_cons {α : Type} (l : List α) (a : α) (rest : List α) (d : α) :
    (l ++ a :: rest).getLastD d = rest.getLastD a := by
  induction l generalizing d with
  | nil => rw [List.nil_append, List.getLastD_cons]
  | cons b l ih => rw [List.cons_append, List.getLastD_cons, ih]

theorem endLine_eq (cs : List Char) : endLine cs = cs ++ lineEnd (cs.getLastD ' ') := by
  rw [endLine, lineEnd, List.getLastD_eq_getLast?]
  cases cs.getLast? with
  | none => rfl
  | some c =>
    by_cases hBreak : isBreak c = true
    · simp [endLine.isEnded, hBreak]
    · simp [endLine.isEnded, hBreak]

/-- The lines of a block end like its text. -/
theorem getLastD_literalBody (indent : Nat) (afterBreak : Bool) (cs : List Char) (d : Char) :
    (literalBody indent afterBreak cs).getLastD d = cs.getLastD d := by
  induction cs generalizing afterBreak d with
  | nil => rfl
  | cons c rest ih =>
    rw [literalBody, List.getLastD_cons]
    split
    · rw [List.getLastD_cons, ih]
    · rw [getLastD_append_cons, ih]

/-- A block up to the end of its last line. -/
theorem endLine_literal (indent : Nat) (cs : List Char) :
    endLine (literal indent cs) =
      '|' :: (indentationSign cs ++ chompingSign cs ++
        '\n' :: (literalBody indent true cs ++ lineEnd (cs.getLastD '\n'))) := by
  have hLast : (literal indent cs).getLastD ' ' = cs.getLastD '\n' := by
    rw [literal, List.getLastD_cons, getLastD_append_cons, getLastD_literalBody]
  rw [endLine_eq, hLast, literal]
  simp

theorem endLine_singleQuoted (indent : Nat) (cs : List Char) :
    endLine (singleQuoted indent cs) =
      '\'' :: (singleQuotedBody indent false cs ++ ['\'', '\n']) := by
  have hQuote : lineEnd '\'' = ['\n'] := rfl
  rw [endLine_eq, singleQuoted, List.getLastD_cons, getLastD_append_cons, List.getLastD_nil, hQuote]
  simp

theorem endLine_of_inline {cs : List Char} (hLine : Inline cs) : endLine cs = cs ++ ['\n'] := by
  rw [endLine]
  cases hLast : cs.getLast? with
  | none => rfl
  | some c =>
    have hBreak := (hLine c (List.mem_of_getLast? hLast)).2
    simp [endLine.isEnded, hBreak]

end PodCompiler.Yaml
