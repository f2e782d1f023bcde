import PodCompiler.Tree.Compact
import PodCompiler.Tree.Json
import PodCompiler.Proofs.Numerals
import PodCompiler.Proofs.ExactTrees
import Mathlib.Data.List.TakeWhile

/-!
# PodCompiler — compact texts are read back

The compact text of a tree is a JSON text, and reading it gives the tree back, as long as the tree
holds no numbers but whole ones.

The text is cut into the tokens that the tree would be written with (`Tree.tokens`), whatever follows
it; only behind a word there must be something that ends it. And whatever is open around a tree, its
tokens make a reader go on with the tree as the value that has been read. Both are inductions over
the tree, with one over the items or the fields within.

Main results:

* `cut_quoted` — a text is undone character by character.
* `cut_compact` — the tokens of a compact text.
* `readAs_of_exact` — what the tokens of a tree do.
* `read_compact` — reading undoes writing.
-/

namespace PodCompiler

namespace Json

/-! ## Cutting -/

theorem cut_cons (m : Mode) (c : Char) (rest : List Char) :
    cut m (c :: rest) = (m.step c).bind fun s => (cut s.2 rest).map (s.1 ++ ·) :=
  rfl

/-- A character that completes no token only moves on. -/
theorem cut_of_step {m m' : Mode} {c : Char} (hStep : m.step c = some ([], m')) (rest : List Char) :
    cut m (c :: rest) = cut m' rest := by
  rw [cut_cons, hStep, Option.bind_some]
  exact Option.map_id' ..

theorem begin_mark {c : Char} (hMark : isMark c = true) (hBlank : isBlank c = false) :
    begin c = ([.mark c], .between) := by
  rw [begin, hBlank, if_neg (by decide), if_pos hMark]

theorem cut_mark {c : Char} (hMark : isMark c = true) (hBlank : isBlank c = false)
    (rest : List Char) : cut .between (c :: rest) = (cut .between rest).map (.mark c :: ·) := by
  rw [cut_cons, Mode.step, begin_mark hMark hBlank, Option.bind_some]
  rfl

/-- A text with a character that is no control and needs no escape. -/
theorem step_text_plain {c : Char} (hQuote : c ≠ '\x22') (hSlash : c ≠ '\\') (hControl : ¬ c < ' ')
    (done : List Char) : (Mode.text done).step c = some ([], .text (c :: done)) := by
  rw [Mode.step, if_neg hQuote, if_neg hSlash, if_neg hControl]

/-- An escape of one character. -/
theorem cut_escape {c x : Char} (hUnit : c ≠ 'u') (hEscape : unescaped c = some x)
    (done rest : List Char) :
    cut (.text done) ('\\' :: c :: rest) = cut (.text (x :: done)) rest := by
  have hSlash : (Mode.text done).step '\\' = some ([], .escape done) := rfl
  have hStep : (Mode.escape done).step c = some ([], .text (x :: done)) := by
    rw [Mode.step, if_neg hUnit, hEscape, Option.map_some]
  rw [cut_of_step hSlash, cut_of_step hStep]

/-- The digits of a control are read as its code. -/
theorem readNat_control : ∀ n < 32, Numeral.readNat 16
    ['0', '0', Nat.digitChar (n / 16), Nat.digitChar (n % 16)] = some n := by
  decide

/-- An escape by digits. -/
theorem cut_control {c : Char} (hControl : c < ' ') (done rest : List Char) :
    cut (.text done) ('\\' :: 'u' :: '0' :: '0' :: Nat.digitChar (c.toNat / 16) ::
      Nat.digitChar (c.toNat % 16) :: rest) = cut (.text (c :: done)) rest := by
  have hSmall : c.toNat < 32 := hControl
  have hUnit : Mode.ofUnit done none c.toNat = some (.text (c :: done)) := by
    rw [Mode.ofUnit, if_neg (by omega), if_neg (by omega), Char.ofNat_toNat]
  have hLast : (Mode.unit done none [Nat.digitChar (c.toNat / 16), '0', '0']).step
      (Nat.digitChar (c.toNat % 16)) = some ([], .text (c :: done)) := by
    have hFull : ¬ [Nat.digitChar (c.toNat / 16), '0', '0'].length < 3 := Nat.lt_irrefl 3
    rw [Mode.step, if_neg hFull]
    show ((Numeral.readNat 16 ['0', '0', Nat.digitChar (c.toNat / 16),
      Nat.digitChar (c.toNat % 16)]).bind _).map _ = _
    rw [readNat_control _ hSmall, Option.bind_some, hUnit, Option.map_some]
  have hSlash : (Mode.text done).step '\\' = some ([], .escape done) := rfl
  have hEscape : (Mode.escape done).step 'u' = some ([], .unit done none []) := rfl
  -- the digits are collected until there are four of them
  have hFirst (d : Char) : (Mode.unit done none []).step d = some ([], .unit done none [d]) := rfl
  have hSecond (d e : Char) :
      (Mode.unit done none [d]).step e = some ([], .unit done none [e, d]) := rfl
  have hThird (d e f : Char) :
      (Mode.unit done none [e, d]).step f = some ([], .unit done none [f, e, d]) := rfl
  rw [cut_of_step hSlash, cut_of_step hEscape, cut_of_step (hFirst _), cut_of_step (hSecond _ _),
    cut_of_step (hThird _ _ _), cut_of_step hLast]

/-- However a character is written, it is read as itself. -/
theorem cut_quoteChar (c : Char) (done rest : List Char) :
    cut (.text done) (Tree.quoteChar c ++ rest) = cut (.text (c :: done)) rest := by
  unfold Tree.quoteChar
  -- seven escapes of one character, the other controls, and what is written as it is
  split
  next hQuote =>
    subst hQuote
    exact cut_escape (by decide) rfl done rest
  split
  next hSlash =>
    subst hSlash
    exact cut_escape (by decide) rfl done rest
  split
  next hBack =>
    subst hBack
    exact cut_escape (by decide) rfl done rest
  split
  next hFeed =>
    subst hFeed
    exact cut_escape (by decide) rfl done rest
  split
  next hLine =>
    subst hLine
    exact cut_escape (by decide) rfl done rest
  split
  next hReturn =>
    subst hReturn
    exact cut_escape (by decide) rfl done rest
  split
  next hTab =>
    subst hTab
    exact cut_escape (by decide) rfl done rest
  split
  next hControl => exact cut_control hControl done rest
  next hQuote hSlash _ _ _ _ _ hControl =>
    exact cut_of_step (step_text_plain hQuote hSlash hControl done) rest

/-- A text is undone character by character. -/
theorem cut_body (cs done rest : List Char) :
    cut (.text done) (cs.flatMap Tree.quoteChar ++ rest) = cut (.text (cs.reverse ++ done)) rest := by
  induction cs generalizing done with
  | nil => rfl
  | cons c cs ih =>
    rw [List.flatMap_cons, List.append_assoc, cut_quoteChar, ih, List.reverse_cons,
      List.append_assoc, List.singleton_append]

theorem cut_quoted (s : String) (rest : List Char) :
    cut .between (Tree.quote s ++ rest) = (cut .between rest).map (.text s :: ·) := by
  have hOpen : Mode.between.step '\x22' = some ([], .text []) := rfl
  have hClose (done : List Char) : (Mode.text done).step '\x22' =
      some ([.text (String.ofList done.reverse)], .between) := rfl
  rw [Tree.quote, List.cons_append, List.append_assoc, cut_of_step hOpen, cut_body,
    List.append_nil, List.singleton_append, cut_cons, hClose, List.reverse_reverse,
    String.ofList_toList, Option.bind_some]
  rfl

/-! ## Words -/

/-- A character that a word goes on with. -/
def IsWordChar (c : Char) : Prop := isBlank c = false ∧ isMark c = false ∧ c ≠ '\x22'

instance : DecidablePred IsWordChar := fun c =>
  inferInstanceAs (Decidable (isBlank c = false ∧ isMark c = false ∧ c ≠ '\x22'))

/-- What may stand behind a word: nothing, or a mark. -/
def EndsWord : List Char → Prop
  | [] => True
  | c :: _ => isMark c = true ∧ isBlank c = false

theorem cut_wordEnd {rest : List Char} (hEnd : EndsWord rest) (done : List Char) :
    cut (.word done) rest = (cut .between rest).map (.word done.reverse :: ·) := by
  cases rest with
  | nil => rfl
  | cons c more =>
    -- the mark completes the word and is a token itself
    obtain ⟨hMark, hBlank⟩ := hEnd
    rw [cut_mark hMark hBlank, cut_cons, Mode.step, hBlank, hMark, Bool.false_or, if_pos rfl,
      begin_mark hMark hBlank, Option.bind_some, Option.map_map]
    rfl

theorem cut_wordRest {cs : List Char} (hWord : ∀ c ∈ cs, IsWordChar c) {rest : List Char}
    (hEnd : EndsWord rest) (done : List Char) :
    cut (.word done) (cs ++ rest) =
      (cut .between rest).map (.word (done.reverse ++ cs) :: ·) := by
  induction cs generalizing done with
  | nil => rw [List.nil_append, List.append_nil, cut_wordEnd hEnd]
  | cons c cs ih =>
    obtain ⟨hBlank, hMark, hQuote⟩ := hWord c List.mem_cons_self
    have hStep : (Mode.word done).step c = some ([], .word (c :: done)) := by
      rw [Mode.step, hBlank, hMark, if_neg (by decide), if_neg hQuote]
    rw [List.cons_append, cut_of_step hStep, ih fun d hd => hWord d (List.mem_cons_of_mem c hd),
      List.reverse_cons, List.append_assoc, List.singleton_append]

theorem cut_word {cs : List Char} (hNil : cs ≠ []) (hWord : ∀ c ∈ cs, IsWordChar c)
    {rest : List Char} (hEnd : EndsWord rest) :
    cut .between (cs ++ rest) = (cut .between rest).map (.word cs :: ·) := by
  cases cs with
  | nil => exact absurd rfl hNil
  | cons c cs =>
    obtain ⟨hBlank, hMark, hQuote⟩ := hWord c List.mem_cons_self
    have hBegin : Mode.between.step c = some ([], .word [c]) := by
      rw [Mode.step, begin, hBlank, hMark, if_neg (by decide), if_neg (by decide), if_neg hQuote]
    rw [List.cons_append, cut_of_step hBegin,
      cut_wordRest (fun d hd => hWord d (List.mem_cons_of_mem c hd)) hEnd]
    rfl

/-- The characters of whole numbers. -/
theorem eq_of_mem_ofInt {n : Int} {c : Char} (hc : c ∈ (Numeral.ofInt n).toList) :
    c = '-' ∨ ∃ k < 10, c = Char.ofNat (48 + k) := by
  rw [Numeral.toList_ofInt, Numeral.sign] at hc
  rcases List.mem_append.mp hc with hc | hc
  · split at hc
    · exact Or.inl (List.mem_singleton.mp hc)
    · cases hc
  · obtain ⟨hFirst, hLast⟩ := Numeral.mem_digits hc
    have hLow : 48 ≤ c.toNat := hFirst
    have hHigh : c.toNat ≤ 57 := hLast
    refine Or.inr ⟨c.toNat - 48, by omega, ?_⟩
    rw [Nat.add_sub_cancel' hLow, Char.ofNat_toNat]

theorem isWordChar_ofInt (n : Int) : ∀ c ∈ (Numeral.ofInt n).toList, IsWordChar c := by
  have hDigits : ∀ k < 10, IsWordChar (Char.ofNat (48 + k)) := by decide
  intro c hc
  rcases eq_of_mem_ofInt hc with rfl | ⟨k, hk, rfl⟩
  · decide
  · exact hDigits k hk

/-- The three words. -/
theorem isWordChar_words : (∀ c ∈ "null".toList, IsWordChar c) ∧
    (∀ c ∈ "true".toList, IsWordChar c) ∧ ∀ c ∈ "false".toList, IsWordChar c := by
  simp [IsWordChar, isBlank, isMark]

/-- Digits are read as the number that they are of. -/
theorem unsigned_digits (negative : Bool) (n : Nat) :
    unsigned? negative (Numeral.digits n) = some (.int (if negative then -(n : Int) else n)) := by
  have hDigits : ∀ c ∈ Numeral.digits n, c.isDigit = true := fun _ => Numeral.isDigit_of_mem_digits
  have hAll : (Numeral.digits n).takeWhile Char.isDigit = Numeral.digits n :=
    List.takeWhile_eq_self_iff.mpr hDigits
  have hNone : (Numeral.digits n).dropWhile Char.isDigit = [] :=
    List.dropWhile_eq_nil_iff.mpr hDigits
  -- a number that begins with a zero has no other digits
  have hZero : ¬ ((Numeral.digits n).head? = some '0' ∧ 1 < (Numeral.digits n).length) := by
    rintro ⟨hHead, hLong⟩
    obtain ⟨rest, hRest⟩ := List.head?_eq_some_iff.mp hHead
    rw [hRest, Numeral.digits_zero hRest] at hLong
    exact Nat.lt_irrefl 1 hLong
  rw [unsigned?]
  simp only [hAll, hNone]
  rw [if_neg hZero, if_pos trivial, Numeral.readNat_digits, Option.map_some]

theorem number_ofInt (n : Int) : number? (Numeral.ofInt n).toList = some (.int n) := by
  rw [Numeral.toList_ofInt, Numeral.sign]
  split
  next hNegative =>
    rw [List.singleton_append, number?, unsigned_digits, if_pos rfl]
    congr 2
    omega
  next hNegative =>
    obtain ⟨d, ds, hDigits, hSign⟩ := Numeral.digits_eq_cons n.natAbs
    rw [List.nil_append, number?.eq_2 _ fun cs hCons => ?_, unsigned_digits]
    · simp only [Bool.false_eq_true, if_false]
      congr 2
      omega
    · rw [hDigits] at hCons
      exact hSign (List.cons.inj hCons).1

/-- No number is one of the three words. -/
theorem scalar_ofInt (n : Int) : scalar? (Numeral.ofInt n).toList = some (.int n) := by
  have hDigits : ∀ k < 10, Char.ofNat (48 + k) ≠ 'l' ∧ Char.ofNat (48 + k) ≠ 'e' := by decide
  have hLetters : ∀ c ∈ (Numeral.ofInt n).toList, c ≠ 'l' ∧ c ≠ 'e' := fun c hc => by
    rcases eq_of_mem_ofInt hc with rfl | ⟨k, hk, rfl⟩
    · decide
    · exact hDigits k hk
  rw [scalar?, if_neg, if_neg, if_neg, number_ofInt]
  · intro hFalse
    exact (hLetters 'e' (hFalse ▸ by decide)).2 rfl
  · intro hTrue
    exact (hLetters 'e' (hTrue ▸ by decide)).2 rfl
  · intro hNull
    exact (hLetters 'l' (hNull ▸ by decide)).1 rfl

end Json

/-! ## The tokens of a tree -/

open Json (Token)

namespace Tree

mutual

/-- The tokens of a tree's compact text. -/
def tokens : Tree → List Token
  | .null => [.word "null".toList]
  | .bool value => [.word (if value then "true" else "false").toList]
  | .int value => [.word (Numeral.ofInt value).toList]
  | .float value => [.word (value.text .compact).toList]
  | .text value => [.text value]
  | .list items => .mark '[' :: (itemTokens items ++ [.mark ']'])
  | .object fields => .mark '\x7b' :: (fieldTokens fields ++ [.mark '\x7d'])

/-- Those of items with commas between them. -/
def itemTokens : List Tree → List Token
  | [] => []
  | [item] => tokens item
  | item :: rest => tokens item ++ .mark ',' :: itemTokens rest

/-- Those of fields with commas between them. -/
def fieldTokens : List (String × Tree) → List Token
  | [] => []
  | [(name, value)] => .text name :: .mark ':' :: tokens value
  | (name, value) :: rest =>
    .text name :: .mark ':' :: (tokens value ++ .mark ',' :: fieldTokens rest)

end

end Tree

namespace Json

/-- Whatever ends a text, the text is cut into these tokens. -/
def CutInto (cs : List Char) (tokens : List Token) : Prop :=
  ∀ rest, EndsWord rest → cut .between (cs ++ rest) = (cut .between rest).map (tokens ++ ·)

namespace CutInto

variable {cs more : List Char} {tokens others : List Token}

theorem nil : CutInto [] [] := fun _ _ => (Option.map_id' ..).symm

theorem quoted (s : String) : CutInto (Tree.quote s) [.text s] := fun rest _ => cut_quoted s rest

theorem word (hNil : cs ≠ []) (hWord : ∀ c ∈ cs, IsWordChar c) : CutInto cs [.word cs] :=
  fun _ hEnd => cut_word hNil hWord hEnd

variable {c : Char} (hMark : isMark c = true) (hBlank : isBlank c = false)

include hMark hBlank

theorem mark (hMore : CutInto more others) : CutInto (c :: more) (.mark c :: others) := by
  intro rest hEnd
  rw [List.cons_append, cut_mark hMark hBlank, hMore rest hEnd, Option.map_map]
  rfl

/-- A mark ends the text before it, so the two sides are cut apart from each other. -/
theorem around (hText : CutInto cs tokens) (hMore : CutInto more others) :
    CutInto (cs ++ c :: more) (tokens ++ .mark c :: others) := by
  intro rest hEnd
  have hAfter := hMore.mark hMark hBlank rest hEnd
  have hEnds : EndsWord (c :: more ++ rest) := ⟨hMark, hBlank⟩
  rw [List.append_assoc, hText _ hEnds, hAfter, Option.map_map]
  congr 1
  funext behind
  exact (List.append_assoc ..).symm

end CutInto

theorem cut_items {items : List Tree} (hItems : ∀ t ∈ items, CutInto t.compactChars t.tokens) :
    CutInto (Tree.compactItems items) (Tree.itemTokens items) := by
  induction items with
  | nil => exact .nil
  | cons item more ih =>
    have hItem := hItems item List.mem_cons_self
    cases more with
    | nil => exact hItem
    | cons next more =>
      exact hItem.around rfl rfl (ih fun t ht => hItems t (List.mem_cons_of_mem item ht))

theorem cut_fields {fields : List (String × Tree)}
    (hFields : ∀ e ∈ fields, CutInto e.2.compactChars e.2.tokens) :
    CutInto (Tree.compactFields fields) (Tree.fieldTokens fields) := by
  induction fields with
  | nil => exact .nil
  | cons e more ih =>
    obtain ⟨name, value⟩ := e
    have hValue := hFields (name, value) List.mem_cons_self
    -- the colon ends the name, and the comma, if there is one, the value
    cases more with
    | nil => exact (CutInto.quoted name).around rfl rfl hValue
    | cons next more =>
      have hMore := ih fun e he => hFields e (List.mem_cons_of_mem (name, value) he)
      exact (CutInto.quoted name).around rfl rfl (hValue.around rfl rfl hMore)

/-- The tokens of a compact text. -/
theorem cut_compact {t : Tree} (hExact : t.isExact = true) : CutInto t.compactChars t.tokens := by
  obtain ⟨hNull, hTrue, hFalse⟩ := isWordChar_words
  induction t using Tree.induction with
  | null => exact .word (by decide) hNull
  | bool value =>
    cases value with
    | false => exact .word (by decide) hFalse
    | true => exact .word (by decide) hTrue
  | int value =>
    have hNil : (Numeral.ofInt value).toList ≠ [] := by
      rw [Numeral.toList_ofInt]
      exact List.append_ne_nil_of_right_ne_nil _ (Numeral.digits_ne_nil _)
    exact .word hNil (isWordChar_ofInt value)
  | float value => cases hExact
  | text value => exact .quoted value
  | list items ih =>
    rw [Tree.isExact_list, List.all_eq_true] at hExact
    have hItems := cut_items fun t ht => ih t ht (hExact t ht)
    exact .mark rfl rfl (hItems.around rfl rfl .nil)
  | object fields ih =>
    rw [Tree.isExact_object, Bool.and_eq_true, List.all_eq_true] at hExact
    have hFields := cut_fields fun e he => ih e he (hExact.2 e he)
    exact .mark rfl rfl (hFields.around rfl rfl .nil)

/-! ## Reading tokens -/

theorem foldlM_step {r r' : Reader} {token : Token} (hStep : r.step token = some r')
    (more : List Token) : (token :: more).foldlM Reader.step r = more.foldlM Reader.step r' := by
  rw [List.foldlM_cons, hStep]
  rfl

/-- Whatever is open around a tree, its tokens are read as the tree. -/
def ReadAs (t : Tree) : Prop :=
  ∀ around more, (t.tokens ++ more).foldlM Reader.step ⟨around, .value⟩ =
    more.foldlM Reader.step ⟨around, .next t⟩

/-- What one token is read as. -/
theorem readAs_of_step {t : Tree} {token : Token} (hTokens : t.tokens = [token])
    (hStep : ∀ around, Reader.step ⟨around, .value⟩ token = some ⟨around, .next t⟩) : ReadAs t := by
  intro around more
  rw [hTokens]
  exact foldlM_step (hStep around) more

/-- A first item is read as any other, because nothing begins with a closing bracket. -/
theorem foldlM_item (t : Tree) (around : List Open) (more : List Token) :
    (t.tokens ++ more).foldlM Reader.step ⟨around, .item⟩ =
      (t.tokens ++ more).foldlM Reader.step ⟨around, .value⟩ := by
  obtain ⟨token, rest, hTokens, hOpen⟩ :
      ∃ token rest, t.tokens = token :: rest ∧ token ≠ .mark ']' := by
    cases t <;> exact ⟨_, _, rfl, by simp⟩
  have hStep : Reader.step ⟨around, .item⟩ token = Reader.step ⟨around, .value⟩ token :=
    if_neg hOpen
  rw [hTokens, List.cons_append, List.foldlM_cons, List.foldlM_cons, hStep]

/-- The items of a list from one of them on. -/
theorem foldlM_itemTokens {item : Tree} {items : List Tree}
    (hItems : ∀ t ∈ item :: items, ReadAs t) (around : List Open) (done : List Tree)
    (more : List Token) :
    (Tree.itemTokens (item :: items) ++ .mark ']' :: more).foldlM Reader.step
        ⟨.list done :: around, .value⟩ =
      more.foldlM Reader.step ⟨around, .next (.list (done.reverse ++ item :: items))⟩ := by
  induction items generalizing item done with
  | nil =>
    have hClose : Reader.step ⟨.list done :: around, .next item⟩ (.mark ']') =
        some ⟨around, .next (.list (item :: done).reverse)⟩ := rfl
    rw [Tree.itemTokens, hItems item List.mem_cons_self, foldlM_step hClose, List.reverse_cons]
  | cons next items ih =>
    -- the comma puts the item to those that are done
    have hComma : Reader.step ⟨.list done :: around, .next item⟩ (.mark ',') =
        some ⟨.list (item :: done) :: around, .value⟩ := rfl
    have hTokens : Tree.itemTokens (item :: next :: items) =
        item.tokens ++ .mark ',' :: Tree.itemTokens (next :: items) := rfl
    rw [hTokens, List.append_assoc, hItems item List.mem_cons_self, List.cons_append,
      foldlM_step hComma, ih fun t ht => hItems t (List.mem_cons_of_mem item ht),
      List.reverse_cons, List.append_assoc, List.singleton_append]

/-- A field up to the end of its value. -/
theorem foldlM_field {value : Tree} (hValue : ReadAs value) (name : String) (around : List Open)
    (done : List (String × Tree)) (more : List Token) :
    (Token.text name :: .mark ':' :: (value.tokens ++ more)).foldlM Reader.step
        ⟨around, .name done⟩ =
      more.foldlM Reader.step ⟨.object done name :: around, .next value⟩ := by
  have hName : Reader.step ⟨around, .name done⟩ (.text name) = some ⟨around, .colon done name⟩ := rfl
  have hColon : Reader.step ⟨around, .colon done name⟩ (.mark ':') =
      some ⟨.object done name :: around, .value⟩ := rfl
  rw [foldlM_step hName, foldlM_step hColon, hValue]

/-- The fields of an object from one of them on. -/
theorem foldlM_fieldTokens {e : String × Tree} {fields : List (String × Tree)}
    (hFields : ∀ d ∈ e :: fields, ReadAs d.2) (around : List Open) (done : List (String × Tree))
    (more : List Token) :
    (Tree.fieldTokens (e :: fields) ++ .mark '\x7d' :: more).foldlM Reader.step
        ⟨around, .name done⟩ =
      more.foldlM Reader.step ⟨around, .next (.object (done.reverse ++ e :: fields))⟩ := by
  induction fields generalizing e done with
  | nil =>
    have hClose : Reader.step ⟨.object done e.1 :: around, .next e.2⟩ (.mark '\x7d') =
        some ⟨around, .next (.object (e :: done).reverse)⟩ := rfl
    have hTokens : Tree.fieldTokens [e] = .text e.1 :: .mark ':' :: e.2.tokens := rfl
    rw [hTokens, List.cons_append, List.cons_append, foldlM_field (hFields e List.mem_cons_self),
      foldlM_step hClose, List.reverse_cons]
  | cons next fields ih =>
    -- the comma puts the field to those that are done
    have hComma : Reader.step ⟨.object done e.1 :: around, .next e.2⟩ (.mark ',') =
        some ⟨around, .name (e :: done)⟩ := rfl
    have hTokens : Tree.fieldTokens (e :: next :: fields) = .text e.1 :: .mark ':' ::
        (e.2.tokens ++ .mark ',' :: Tree.fieldTokens (next :: fields)) := rfl
    rw [hTokens, List.cons_append, List.cons_append, List.append_assoc,
      foldlM_field (hFields e List.mem_cons_self), List.cons_append, foldlM_step hComma,
      ih fun d hd => hFields d (List.mem_cons_of_mem e hd), List.reverse_cons, List.append_assoc,
      List.singleton_append]

/-- What the tokens of a tree do. -/
theorem readAs_of_exact {t : Tree} (hExact : t.isExact = true) : ReadAs t := by
  induction t using Tree.induction with
  | null => exact readAs_of_step rfl fun around => rfl
  | bool value =>
    cases value with
    | false => exact readAs_of_step rfl fun around => rfl
    | true => exact readAs_of_step rfl fun around => rfl
  | int value =>
    refine readAs_of_step rfl fun around => ?_
    show (scalar? (Numeral.ofInt value).toList).map _ = _
    rw [scalar_ofInt]
    rfl
  | float value => cases hExact
  | text value => exact readAs_of_step rfl fun around => rfl
  | list items ih =>
    rw [Tree.isExact_list, List.all_eq_true] at hExact
    intro around more
    have hOpen : Reader.step ⟨around, .value⟩ (.mark '[') = some ⟨.list [] :: around, .item⟩ := rfl
    rw [Tree.tokens, List.cons_append, foldlM_step hOpen, List.append_assoc, List.singleton_append]
    -- the token behind the bracket tells an empty list from one with items
    cases items with
    | nil => exact foldlM_step rfl more
    | cons item items =>
      have hItems := foldlM_itemTokens (fun t ht => ih t ht (hExact t ht)) around [] more
      obtain ⟨rest, hFirst⟩ : ∃ rest, Tree.itemTokens (item :: items) ++ .mark ']' :: more =
          item.tokens ++ rest := by
        cases items with
        | nil => exact ⟨_, rfl⟩
        | cons next items => exact ⟨_, List.append_assoc ..⟩
      rw [hFirst] at hItems
      rw [hFirst, foldlM_item, hItems]
      rfl
  | object fields ih =>
    rw [Tree.isExact_object, Bool.and_eq_true, List.all_eq_true] at hExact
    intro around more
    have hOpen : Reader.step ⟨around, .value⟩ (.mark '\x7b') = some ⟨around, .field⟩ := rfl
    rw [Tree.tokens, List.cons_append, foldlM_step hOpen, List.append_assoc, List.singleton_append]
    cases fields with
    | nil => exact foldlM_step rfl more
    | cons e fields =>
      have hFields := foldlM_fieldTokens (fun e he => ih e he (hExact.2 e he)) around [] more
      -- a first name is read as any other
      cases fields with
      | nil => exact hFields
      | cons next fields => exact hFields

/-- Reading undoes writing. -/
theorem read_compact {t : Tree} (hExact : t.isExact = true) : read t.compactChars = some t := by
  have hCut := cut_compact hExact [] trivial
  have hTokens := readAs_of_exact hExact [] []
  have hEnd : cut .between [] = some [] := rfl
  rw [List.append_nil, hEnd, Option.map_some, List.append_nil] at hCut
  rw [List.append_nil] at hTokens
  rw [read, hCut, Option.bind_eq_bind, Option.bind_some, Reader.start, hTokens]
  rfl

theorem ofOctets_compact {t : Tree} (hExact : t.isExact = true) :
    ofOctets t.compact.toUTF8 = some t := by
  have hText : String.fromUTF8? t.compact.toUTF8 = some t.compact :=
    dif_pos t.compact.isValidUTF8
  rw [ofOctets, hText, Option.bind_some, Tree.compact, String.toList_ofList]
  exact read_compact hExact

-- texts that the writer never makes are read as well: blanks, and characters by their code units
example : read "[ \x22\\u0041\\ud83d\\ude00\x22, \x7b\x22a\x22 : -12 \x7d ]".toList =
    some (.list [.text "A😀", .object [("a", .int (-12))]]) := by rfl

-- and what is no JSON is refused: a comma too many, half a pair of units, a bracket that stays open
example : read "[1,]".toList = none ∧ read "\x22\\ud83d\x22".toList = none ∧
    read "[\x7b\x7d".toList = none := ⟨rfl, rfl, rfl⟩

end Json

end PodCompiler
