import PodCompiler.Proofs.Styles
import PodCompiler.Yaml.Scalar
import Mathlib.Data.Bool.AllAny
import Mathlib.Data.String.Basic

/-!
# PodCompiler — reading back scalars of one line

Every style is undone by its reader: what is read from a text in that style is the text itself, and
reading stops right behind it. Here this is shown of plain scalars and of those in double quotes,
which never have more than one line.

White space within a text is kept as a gap until the next word is met. What has been read so far is
therefore the text that was finished together with what the gap will contribute, and that is what
the inductions carry along.

Main results:

* `readPlain_key`, `readPlain_value` — plain scalars before a colon, and at the end of a line.
* `readQuoted_double` — scalars in double quotes.
-/

namespace PodCompiler.Yaml

/-! ## Places -/

namespace Mark

/-- The place behind some characters of the same line. -/
def past (m : Mark) (cs : List Char) : Mark := cs.foldl advance m

@[simp] theorem past_nil (m : Mark) : m.past [] = m := rfl

theorem past_cons (m : Mark) (c : Char) (cs : List Char) :
    m.past (c :: cs) = (m.advance c).past cs := rfl

theorem past_append (m : Mark) (a b : List Char) : m.past (a ++ b) = (m.past a).past b :=
  List.foldl_append

@[simp] theorem line_past (m : Mark) (cs : List Char) : (m.past cs).line = m.line := by
  induction cs generalizing m with
  | nil => rfl
  | cons c rest ih =>
    rw [past_cons, ih]
    rfl

@[simp] theorem column_past (m : Mark) (cs : List Char) :
    (m.past cs).column = m.column + cs.length := by
  induction cs generalizing m with
  | nil => rfl
  | cons c rest ih =>
    rw [past_cons, ih, advance, List.length_cons]
    simp only
    omega

@[simp] theorem offset_past (m : Mark) (cs : List Char) :
    (m.past cs).offset = m.offset + String.utf8Len cs := by
  induction cs generalizing m with
  | nil => rfl
  | cons c rest ih =>
    rw [past_cons, ih, advance, String.utf8Len_cons]
    simp only
    omega

@[simp] theorem step_zero (m : Mark) : m.step 0 = m := rfl

theorem step_step (m : Mark) (a b : Nat) : (m.step a).step b = m.step (a + b) := by
  simp [step, Nat.add_assoc]

/-- Characters of one octet are counted alike in columns and in octets. -/
theorem past_eq_step (m : Mark) {cs : List Char} (hOctet : ∀ c ∈ cs, c.utf8Size = 1) :
    m.past cs = m.step cs.length := by
  induction cs generalizing m with
  | nil => rfl
  | cons c rest ih =>
    have hRest := ih (m.advance c) fun d hd => hOctet d (List.mem_cons_of_mem c hd)
    rw [past_cons, hRest, advance, hOctet c List.mem_cons_self, List.length_cons,
      Nat.add_comm rest.length 1, ← step_step]
    rfl

end Mark

/-! ## White space -/

theorem Gap.addBlank_of_not_broken {gap : Gap} (hGap : gap.isBroken = false) (c : Char) :
    (gap.addBlank c).isBroken = false ∧ (gap.addBlank c).text = gap.text ++ [c] := by
  cases gap with
  | none => exact ⟨rfl, rfl⟩
  | blanks chars => exact ⟨rfl, rfl⟩
  | breaks first later => cases hGap

theorem readPlain_spaces (indent : Int) (n : Nat) (rest : List Char) (m : Mark)
    (first : Option Char) (later done : List Char) :
    readPlain false indent (spaces n ++ rest) m (.breaks first later) done =
      readPlain false indent rest (m.step n) (.breaks first later) done := by
  induction n generalizing m with
  | zero => rfl
  | succ n ih =>
    have hSpaces : spaces (n + 1) ++ rest = ' ' :: (spaces n ++ rest) := rfl
    rw [hSpaces, readPlain, if_pos (by decide), if_neg (by simp), Gap.addBlank, ih, Mark.step_step,
      Nat.add_comm 1 n]

/-! ## Plain scalars -/

/-- A colon within a plain text is no mark of a value, whatever follows the text. -/
theorem atBlank_append_of_value {c : Char} {rest : List Char}
    (hValue : hasValueMark (c :: rest) = false) (suffix : List Char) :
    (decide (c = ':') && atBlank (rest ++ suffix)) = false := by
  rw [hasValueMark, Bool.or_eq_false_iff] at hValue
  by_cases hColon : c = ':'
  · have hBlank : atBlank rest = false := by simpa [hColon] using hValue.1
    cases rest with
    | nil => cases hBlank
    | cons d rest =>
      rw [hColon, List.cons_append]
      exact hBlank
  · simp [hColon]

/-- What holds of a plain text from any place in it on. -/
structure PlainPart (cs : List Char) : Prop where
  inline : Inline cs
  value : hasValueMark cs = false
  comment : hasCommentMark cs = false

theorem PlainPart.tail {c : Char} {cs : List Char} (hPart : PlainPart (c :: cs)) : PlainPart cs := by
  have hValue := hPart.value
  rw [hasValueMark, Bool.or_eq_false_iff] at hValue
  exact
    { inline := fun d hd => hPart.inline d (List.mem_cons_of_mem c hd)
      value := hValue.2
      comment := anyPair_tail hPart.comment }

theorem PlainText.part {cs : List Char} (hText : PlainText cs) : PlainPart cs :=
  ⟨hText.inline, hText.value, hText.comment⟩

/-- Behind a blank a number sign would be a comment. -/
theorem PlainPart.head_ne_sign {cs : List Char} (hPart : PlainPart (' ' :: cs)) :
    cs.head? ≠ some '#' := by
  intro hSign
  cases cs with
  | nil => cases hSign
  | cons d cs =>
    obtain rfl := Option.some.inj hSign
    exact absurd (anyPair_head hPart.comment) (by decide)

theorem readPlain_blank {indent : Int} {rest : List Char} {m : Mark} {gap : Gap}
    {done : List Char} :
    readPlain false indent (' ' :: rest) m gap done =
      readPlain false indent rest (m.step 1) (gap.addBlank ' ') done := by
  rw [readPlain, if_pos (by decide), if_neg (by simp)]

/-- A character of a word ends the gap before it, unless the scalar ends behind the gap. -/
theorem readPlain_word {c : Char} {rest : List Char} (hPart : PlainPart (c :: rest)) (hc : c ≠ ' ')
    (suffix : List Char) {indent : Int} {m : Mark} {gap : Gap}
    (hGoesOn : gap.isSome = true → c ≠ '#' ∧ indent ≤ m.column ∧ 0 < m.column) {done : List Char} :
    readPlain false indent (c :: (rest ++ suffix)) m gap done =
      readPlain false indent (rest ++ suffix) (m.advance c) .none
        (c :: (gap.text.reverse ++ done)) := by
  obtain ⟨hPrintable, hBreak⟩ := hPart.inline c List.mem_cons_self
  have hBlank : isBlank c = false := by
    rw [isBlank_eq_of_printable hPrintable, decide_eq_false hc]
  have hStop : (gap.isSome && ((!false && decide ((m.column : Int) < indent)) ||
      (decide (m.column = 0) && atDocumentMarker (c :: (rest ++ suffix))) ||
      decide (c = '#'))) = false := by
    cases hSome : gap.isSome with
    | false => rfl
    | true =>
      obtain ⟨hSign, hIndent, hColumn⟩ := hGoesOn hSome
      have hFurther : ¬ (m.column : Int) < indent := by omega
      have hStart : m.column ≠ 0 := by omega
      simp [hSign, hFurther, hStart]
  have hMark := atBlank_append_of_value hPart.value suffix
  rw [readPlain, if_neg (by simp [hBlank]), if_neg (by simp [hBreak]),
    if_neg (by simp only [hStop]; decide), if_neg (by simp), if_neg (by simpa using hMark)]

/-- The words of a plain text are read with the blanks between them. What is left in the gap are
the blanks at the end. -/
theorem readPlain_append {indent : Int} {cs : List Char} (hPart : PlainPart cs)
    (suffix : List Char) {m : Mark} {gap : Gap} (done : List Char)
    (hGap : gap.isBroken = false) (hIndent : indent ≤ m.column) (hColumn : 0 < m.column)
    (hHead : gap.isSome = true → cs.head? ≠ some '#') :
    ∃ gap' done', readPlain false indent (cs ++ suffix) m gap done =
        readPlain false indent suffix (m.past cs) gap' done' ∧
      done'.reverse ++ gap'.text = done.reverse ++ (gap.text ++ cs) ∧
      (gap' = .none ∨ cs.getLast? = some ' ' ∨ cs = [] ∧ gap' = gap) := by
  induction cs generalizing m gap done with
  | nil => exact ⟨gap, done, rfl, by simp, .inr (.inr ⟨rfl, rfl⟩)⟩
  | cons c rest ih =>
    have hAdvance : indent ≤ (m.column + 1 : Nat) ∧ 0 < m.column + 1 := by omega
    by_cases hSpace : c = ' '
    · subst hSpace
      obtain ⟨hGapNext, hText⟩ := Gap.addBlank_of_not_broken hGap ' '
      obtain ⟨gap', done', hRead, hContent, hLast⟩ := ih hPart.tail (m := m.step 1) done hGapNext
        hAdvance.1 hAdvance.2 (fun _ => hPart.head_ne_sign)
      refine ⟨gap', done', readPlain_blank.trans hRead, by simp [hContent, hText], ?_⟩
      rcases hLast with hNone | hLast | ⟨rfl, -⟩
      · exact .inl hNone
      · exact .inr (.inl (by simp [List.getLast?_cons, hLast]))
      · exact .inr (.inl rfl)
    · have hWord : readPlain false indent (c :: (rest ++ suffix)) m gap done = _ :=
        readPlain_word hPart hSpace suffix fun hSome =>
          ⟨by simpa using hHead hSome, hIndent, hColumn⟩
      obtain ⟨gap', done', hRead, hContent, hLast⟩ := ih hPart.tail (m := m.advance c)
        (c :: (gap.text.reverse ++ done)) (rfl : Gap.none.isBroken = false) hAdvance.1 hAdvance.2
        (by intro hNone; cases hNone)
      refine ⟨gap', done', hWord.trans hRead, ?_, ?_⟩
      · rw [hContent]
        simp [Gap.text]
      rcases hLast with hNone | hLast | ⟨rfl, hNone⟩
      · exact .inl hNone
      · exact .inr (.inl (by simp [List.getLast?_cons, hLast]))
      · exact .inl hNone

theorem readPlain_plainText {cs : List Char} (hText : PlainText cs) {indent : Int} {m : Mark}
    (hIndent : indent ≤ m.column + 1) (suffix : List Char) :
    readPlain false indent (cs ++ suffix) m .none [] =
      readPlain false indent suffix (m.past cs) .none cs.reverse := by
  obtain ⟨c, rest, rfl⟩ := List.exists_cons_of_ne_nil hText.ne_nil
  have hSpace : c ≠ ' ' := by simpa using hText.head
  -- nothing stands before the first character, so it cannot end the scalar
  have hFirst : readPlain false indent (c :: (rest ++ suffix)) m .none [] = _ :=
    readPlain_word hText.part hSpace suffix (by intro hNone; cases hNone)
  obtain ⟨gap, done, hRead, hContent, hLast⟩ := readPlain_append hText.part.tail suffix
    (m := m.advance c) [c] (rfl : Gap.none.isBroken = false)
    (by simp only [Mark.advance]; omega : indent ≤ _) (Nat.succ_pos m.column)
    (by intro hNone; cases hNone)
  -- nor does a blank stand at the end, which would be lost in the gap
  have hGap : gap = .none := by
    rcases hLast with hNone | hLast | ⟨-, hNone⟩
    · exact hNone
    · exact absurd (by simp [List.getLast?_cons, hLast]) hText.last
    · exact hNone
  subst hGap
  have hDone : done = (c :: rest).reverse := by
    have hReverse : done.reverse = c :: rest := by simpa [Gap.text] using hContent
    rw [← hReverse, List.reverse_reverse]
  rw [List.cons_append, hFirst, Mark.past_cons, ← hDone]
  exact hRead

/-- A plain key ends at its colon. -/
theorem readPlain_key {cs : List Char} (hText : PlainText cs) {indent : Int} {m : Mark}
    (hIndent : indent ≤ m.column + 1) {rest : List Char} (hRest : atBlank rest = true) :
    readPlain false indent (cs ++ ':' :: rest) m .none [] =
      some { text := cs, rest := ':' :: rest, mark := m.past cs } := by
  rw [readPlain_plainText hText hIndent, readPlain, if_neg (by decide), if_neg (by decide),
    if_neg (by simp [Gap.isSome]), if_neg (by simp), if_pos (by simp [hRest]), List.reverse_reverse]
  rfl

/-- What may follow a value: nothing, or a character that starts a token. -/
def AtToken (rest : List Char) : Prop :=
  ∀ c, rest.head? = some c → isBlank c = false ∧ isBreak c = false ∧ c ≠ '#' ∧ c ≠ byteOrderMark

/-- A plain value ends where a line begins that is not moved in as far. -/
theorem readPlain_value {cs : List Char} (hText : PlainText cs) {indent : Int} {m : Mark}
    (hIndent : indent ≤ m.column + 1) {n : Nat} (hn : (n : Int) < indent) {rest : List Char}
    (hRest : AtToken rest) :
    readPlain false indent (cs ++ '\n' :: (spaces n ++ rest)) m .none [] =
      some { text := cs, rest, mark := (m.newline).step n, newLine := true } := by
  rw [readPlain_plainText hText hIndent, readPlain, if_neg (by decide), if_pos (by decide),
    Gap.addBreak, readPlain_spaces]
  · -- the break is in the gap, and what stands behind the blanks is not moved in far enough
    cases rest with
    | nil => simp [readPlain, Gap.isBroken, Mark.newline]
    | cons c rest =>
      obtain ⟨hBlank, hBreak, -, -⟩ := hRest c rfl
      have hColumn : (((m.newline).step n).column : Int) < indent := by
        simpa [Mark.newline, Mark.step] using hn
      rw [readPlain, if_neg (by simp [hBlank]), if_neg (by simp [hBreak]),
        if_pos (by simp [Gap.isSome, Mark.newline, Mark.step, hn])]
      simp [Gap.isBroken, Mark.newline]
  · intro first later hBreaks
    cases hBreaks

/-! ## Codes -/

theorem digitValue_hexDigit {n : Nat} (hn : n < 16) :
    Numeral.digitValue 16 (Numeral.hexDigit n) = some n := by
  have hAll : ∀ n < 16, Numeral.digitValue 16 (Numeral.hexDigit n) = some n := by decide
  exact hAll n hn

theorem readMore_hexDigits (n width acc : Nat) :
    Numeral.readMore 16 acc (Numeral.hexDigits n width) =
      some (acc * 16 ^ width + n % 16 ^ width) := by
  induction width generalizing acc with
  | zero => simp [Numeral.hexDigits, Numeral.readMore, Nat.mod_one]
  | succ width ih =>
    -- the first digit counts the most, and the others are those of the rest
    have hDigit : n / 16 ^ width % 16 < 16 := Nat.mod_lt _ (by decide)
    have hValue := digitValue_hexDigit hDigit
    have hPow : Nat.pow 16 width = 16 ^ width := rfl
    rw [Numeral.hexDigits, Numeral.readMore, hPow, hValue, Option.bind_some, ih, Nat.mod_pow_succ,
      Nat.pow_succ, Nat.add_mul, Nat.mul_assoc, Nat.mul_comm 16, Nat.add_assoc,
      Nat.mul_comm (16 ^ width) (n / 16 ^ width % 16), Nat.add_comm (n % 16 ^ width)]

/-- The code of a character in enough digits stands for the character. -/
theorem codePoint_hexDigits (c : Char) (width : Nat) (hWidth : c.toNat < 16 ^ (width + 1)) :
    codePoint (Numeral.hexDigits c.toNat (width + 1)) = some c := by
  have hRead : Numeral.readNat 16 (Numeral.hexDigits c.toNat (width + 1)) = some c.toNat := by
    have hMore := readMore_hexDigits c.toNat (width + 1) 0
    rw [Nat.zero_mul, Nat.zero_add, Nat.mod_eq_of_lt hWidth] at hMore
    exact hMore
  have hValid : c.toNat.isValidChar := c.valid
  rw [codePoint, hRead, Option.bind_some, if_pos hValid, Char.ofNat_toNat]

theorem two_le_utf8Size {c : Char} (hc : 0x7f < c.toNat) : 2 ≤ c.utf8Size := by
  have hOne : ¬ c.val.toNat ≤ 0x7f := Nat.not_le.mpr hc
  rw [Char.utf8Size, if_neg (by simpa [UInt32.le_iff_toNat_le] using hOne)]
  split_ifs
  all_goals decide

theorem three_le_utf8Size {c : Char} (hc : 0x7ff < c.toNat) : 3 ≤ c.utf8Size := by
  have hOne : ¬ c.val.toNat ≤ 0x7f := Nat.not_le.mpr (Nat.lt_trans (by decide) hc)
  have hTwo : ¬ c.val.toNat ≤ 0x7ff := Nat.not_le.mpr hc
  rw [Char.utf8Size, if_neg (by simpa [UInt32.le_iff_toNat_le] using hOne),
    if_neg (by simpa [UInt32.le_iff_toNat_le] using hTwo)]
  split_ifs
  all_goals decide

/-- The three widths of codes, with their marks. Longer codes are for characters of more octets. -/
theorem escapeWidth_cases (c : Char) :
    (escapeWidth c.toNat = ('x', 2) ∧ c.toNat < 16 ^ 2) ∨
      (escapeWidth c.toNat = ('u', 4) ∧ c.toNat < 16 ^ 4 ∧ 2 ≤ c.utf8Size) ∨
      (escapeWidth c.toNat = ('U', 8) ∧ c.toNat < 16 ^ 8 ∧ 3 ≤ c.utf8Size) := by
  have hValid : c.toNat < 0x110000 := by
    rcases c.valid with h | h
    · exact Nat.lt_trans h (by decide)
    · exact h.2
  unfold escapeWidth
  split_ifs with hTwo hFour
  · exact .inl ⟨rfl, by omega⟩
  · exact .inr (.inl ⟨rfl, by omega, two_le_utf8Size (by omega)⟩)
  · exact .inr (.inr ⟨rfl, by omega, three_le_utf8Size (by omega)⟩)

/-! ## Double quotes -/

theorem octet_of_hexDigits (n width : Nat) : ∀ d ∈ Numeral.hexDigits n width, d.utf8Size = 1 := by
  have hAll : ∀ d ∈ "0123456789ABCDEF".toList, d.utf8Size = 1 :=
    List.all_iff_forall_prop.mp (by decide)
  exact fun d hd => hAll d (mem_hexDigits hd)

theorem octet_of_escapeWidth {n : Nat} {mark : Char} {width : Nat}
    (hWidth : escapeWidth n = (mark, width)) : mark.utf8Size = 1 := by
  have hMarks : ∀ d ∈ "xuU".toList, d.utf8Size = 1 :=
    List.all_iff_forall_prop.mp (by decide)
  exact hMarks _ (escapeWidth_mem hWidth)

theorem length_hexDigits (n width : Nat) : (Numeral.hexDigits n width).length = width := by
  induction width with
  | zero => rfl
  | succ width ih => rw [Numeral.hexDigits, List.length_cons, ih]

theorem utf8Len_hexDigits (n width : Nat) :
    String.utf8Len (Numeral.hexDigits n width) = width := by
  induction width with
  | zero => rfl
  | succ width ih =>
    have hDigit : (Numeral.hexDigit (n / Nat.pow 16 width % 16)).utf8Size = 1 :=
      octet_of_hexDigits n (width + 1) _ List.mem_cons_self
    rw [Numeral.hexDigits, String.utf8Len_cons, ih, hDigit]

theorem readQuoted_letter {c d : Char} (hLetter : escapeLetter c = some d) (rest : List Char)
    {m : Mark} {gap : Gap} {done : List Char} (hColumn : 0 < m.column) :
    readQuoted false ('\\' :: d :: rest) m gap done =
      readQuoted false rest (m.step 2) .none (c :: (gap.text.reverse ++ done)) := by
  have hLetters : ∀ e ∈ letters, isBreak e.2 = false ∧ e.2 ∉ ['x', 'u', 'U'] ∧
      escaped e.2 = some e.1 := by decide
  obtain ⟨hBreak, hMark, hEscaped⟩ := hLetters _ (mem_letters hLetter)
  simp only [List.mem_cons, List.not_mem_nil, or_false, not_or] at hMark
  have hStart : m.column ≠ 0 := by omega
  rw [readQuoted, if_neg (by decide), if_neg (by decide), if_neg (by simp [hStart])]
  simp [hBreak, hMark, hEscaped]

theorem readQuoted_code {c mark : Char} {width : Nat} (hWidth : escapeWidth c.toNat = (mark, width))
    (rest : List Char) {m : Mark} {gap : Gap} {done : List Char} (hColumn : 0 < m.column) :
    readQuoted false ('\\' :: mark :: (Numeral.hexDigits c.toNat width ++ rest)) m gap done =
      readQuoted false rest (m.step (width + 2)) .none (c :: (gap.text.reverse ++ done)) := by
  have hStart : m.column ≠ 0 := by omega
  rw [readQuoted, if_neg (by decide), if_neg (by decide), if_neg (by simp [hStart])]
  -- every width has its mark, and as many digits are read as the mark asks for
  rcases escapeWidth_cases c with ⟨hEq, hCode⟩ | ⟨hEq, hCode, -⟩ | ⟨hEq, hCode, -⟩
  · obtain ⟨rfl, rfl⟩ := Prod.mk.inj (hWidth.symm.trans hEq)
    have hPoint := codePoint_hexDigits c 1 hCode
    obtain ⟨a, b, hDigits⟩ : ∃ a b, Numeral.hexDigits c.toNat 2 = [a, b] := ⟨_, _, rfl⟩
    rw [hDigits] at hPoint ⊢
    simp [hPoint, isBreak]
  · obtain ⟨rfl, rfl⟩ := Prod.mk.inj (hWidth.symm.trans hEq)
    have hPoint := codePoint_hexDigits c 3 hCode
    obtain ⟨a, b, d, e, hDigits⟩ : ∃ a b d e, Numeral.hexDigits c.toNat 4 = [a, b, d, e] :=
      ⟨_, _, _, _, rfl⟩
    rw [hDigits] at hPoint ⊢
    simp [hPoint, isBreak]
  · obtain ⟨rfl, rfl⟩ := Prod.mk.inj (hWidth.symm.trans hEq)
    have hPoint := codePoint_hexDigits c 7 hCode
    obtain ⟨a, b, d, e, f, g, h, i, hDigits⟩ : ∃ a b d e f g h i,
        Numeral.hexDigits c.toNat 8 = [a, b, d, e, f, g, h, i] :=
      ⟨_, _, _, _, _, _, _, _, rfl⟩
    rw [hDigits] at hPoint ⊢
    simp [hPoint, isBreak]

/-- Escapes are made of characters of one octet. -/
theorem past_letter {c d : Char} (hLetter : escapeLetter c = some d) (m : Mark) :
    m.past ['\\', d] = m.step 2 := by
  have hLetters : ∀ e ∈ letters, e.2.utf8Size = 1 := by decide
  have hOctet : d.utf8Size = 1 := hLetters _ (mem_letters hLetter)
  exact Mark.past_eq_step m (by simpa using ⟨by decide, hOctet⟩)

theorem past_code {c mark : Char} {width : Nat} (hWidth : escapeWidth c.toNat = (mark, width))
    (m : Mark) : m.past ('\\' :: mark :: Numeral.hexDigits c.toNat width) = m.step (width + 2) := by
  have hOctets : ∀ d ∈ '\\' :: mark :: Numeral.hexDigits c.toNat width, d.utf8Size = 1 := by
    intro d hd
    rcases List.mem_cons.mp hd with rfl | hd
    · decide
    · rcases List.mem_cons.mp hd with rfl | hd
      · exact octet_of_escapeWidth hWidth
      · exact octet_of_hexDigits c.toNat width d hd
  rw [Mark.past_eq_step m hOctets, List.length_cons, List.length_cons, length_hexDigits]

/-- What has been read inside double quotes, and what the gap will contribute. -/
theorem readQuoted_shown {c : Char} {cs : List Char} (hShown : Shown c cs) (rest : List Char)
    {m : Mark} {gap : Gap} (done : List Char) (hGap : gap.isBroken = false)
    (hColumn : 0 < m.column) :
    ∃ gap' done', readQuoted false (cs ++ rest) m gap done =
        readQuoted false rest (m.past cs) gap' done' ∧
      gap'.isBroken = false ∧
      done'.reverse ++ gap'.text = done.reverse ++ (gap.text ++ [c]) := by
  cases hShown with
  | itself hPrintable hBreak hQuote hSlash =>
    by_cases hSpace : c = ' '
    · subst hSpace
      obtain ⟨hGapNext, hText⟩ := Gap.addBlank_of_not_broken hGap ' '
      refine ⟨gap.addBlank ' ', done, ?_, hGapNext, by rw [hText]⟩
      rw [List.cons_append, readQuoted, if_pos (by decide)]
      rfl
    · have hBlank : isBlank c = false := by
        rw [isBlank_eq_of_printable hPrintable, decide_eq_false hSpace]
      have hStart : m.column ≠ 0 := by omega
      refine ⟨.none, c :: (gap.text.reverse ++ done), ?_, rfl, by simp [Gap.text]⟩
      rw [List.cons_append, readQuoted, if_neg (by simp [hBlank]), if_neg (by simp [hBreak]),
        if_neg (by simp [hStart])]
      simp [hQuote, hSlash, Mark.past_cons]
  | letter d hLetter =>
    refine ⟨.none, c :: (gap.text.reverse ++ done), ?_, rfl, by simp [Gap.text]⟩
    rw [past_letter hLetter]
    exact readQuoted_letter hLetter rest hColumn
  | code mark width hWidth =>
    refine ⟨.none, c :: (gap.text.reverse ++ done), ?_, rfl, by simp [Gap.text]⟩
    rw [past_code hWidth]
    exact readQuoted_code hWidth rest hColumn

/-- A text in double quotes is read up to its closing quote. -/
theorem readQuoted_double {cs : List Char} (rest : List Char) {m : Mark} {gap : Gap}
    {done : List Char} (hGap : gap.isBroken = false) (hColumn : 0 < m.column) :
    readQuoted false (cs.flatMap doubleQuotedChar ++ '\x22' :: rest) m gap done =
      some
        { text := done.reverse ++ (gap.text ++ cs)
          rest
          mark := (m.past (cs.flatMap doubleQuotedChar)).step 1 } := by
  induction cs generalizing m gap done with
  | nil =>
    have hStart : m.column ≠ 0 := by omega
    rw [List.flatMap_nil, List.nil_append, readQuoted, if_neg (by decide), if_neg (by decide),
      if_neg (by simp [hStart])]
    simp
  | cons c more ih =>
    obtain ⟨gap', done', hRead, hGap', hContent⟩ := readQuoted_shown (shown c)
      (more.flatMap doubleQuotedChar ++ '\x22' :: rest) done hGap hColumn
    have hColumn' : 0 < (m.past (doubleQuotedChar c)).column := by
      rw [Mark.column_past]
      omega
    rw [List.flatMap_cons, List.append_assoc, hRead, ih hGap' hColumn', ← List.append_assoc,
      hContent, Mark.past_append]
    simp

/-- No character takes more than four times its octets inside double quotes. -/
theorem octets_doubleQuotedChar (c : Char) :
    String.utf8Len (doubleQuotedChar c) ≤ 4 * c.utf8Size := by
  have hPos := c.utf8Size_pos
  have hShown := shown c
  generalize doubleQuotedChar c = cs at hShown
  cases hShown with
  | itself hPrintable hBreak hQuote hSlash =>
    rw [String.utf8Len_cons]
    simp only [String.utf8Len]
    omega
  | letter d hLetter =>
    have hLetters : ∀ e ∈ letters, e.2.utf8Size = 1 := by decide
    have hOctet : d.utf8Size = 1 := hLetters _ (mem_letters hLetter)
    have hSlash : '\\'.utf8Size = 1 := by decide
    simp only [hOctet, hSlash, String.utf8Len]
    omega
  | code mark width hWidth =>
    have hSlash : '\\'.utf8Size = 1 := by decide
    have hMark : mark.utf8Size = 1 := octet_of_escapeWidth hWidth
    simp only [String.utf8Len_cons, hSlash, hMark, utf8Len_hexDigits]
    -- only characters of more octets get the longer codes
    rcases escapeWidth_cases c with ⟨hEq, -⟩ | ⟨hEq, -, hSize⟩ | ⟨hEq, -, hSize⟩
    · obtain ⟨-, rfl⟩ := Prod.mk.inj (hWidth.symm.trans hEq)
      omega
    · obtain ⟨-, rfl⟩ := Prod.mk.inj (hWidth.symm.trans hEq)
      omega
    · obtain ⟨-, rfl⟩ := Prod.mk.inj (hWidth.symm.trans hEq)
      omega

theorem octets_doubleQuoted (cs : List Char) :
    String.utf8Len (cs.flatMap doubleQuotedChar) ≤ 4 * String.utf8Len cs := by
  induction cs with
  | nil => decide
  | cons c rest ih =>
    have hChar := octets_doubleQuotedChar c
    rw [List.flatMap_cons, String.utf8Len_append, String.utf8Len_cons]
    omega

end PodCompiler.Yaml
