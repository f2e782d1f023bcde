import PodCompiler.Proofs.Quantities

/-!
# PodCompiler — quantities in machine words

`Quantity.decimal` counts with unbounded integers. A machine has words of sixty-four bits for an
amount and of thirty-two for an exponent, and its loop over tens need not end. Here the decimal
writer is carried out in such words: an operation on amounts that leaves its bits is a fault, and so
is a loop that is not through after the turns it was given. What becomes of an exponent that leaves
its bits is up to the build of the program, which stops there or goes on with what is left of it.

Tens are put back after tens were taken out, as many as the exponent is past a multiple of three.
From an exponent that is such a multiple, these are never more than were taken out. So the amount
does not get further from zero than it was at first; from any other exponent it can.

Main results:

* `stripWords_eq` — the loop takes as many turns as there are tens, and one more to see the end.
* `alignWords_eq` — putting tens back, as long as the exact product fits.
* `scaleWords_of_room` — words hold what unbounded integers do, if the exponent has room.
* `words_suffice_iff` — words are enough exactly from multiples of three.
* `milli_in_words`, `binary_in_words` — so they are for both callers of the decimal writer.
-/

namespace PodCompiler.Quantity

/-! ## Words -/

/-- Why a run in words has no result. -/
inductive Fault where
  /-- An operation on amounts has no result of sixty-four bits. -/
  | amount
  /-- An operation on exponents has no result of thirty-two bits. -/
  | exponent
  /-- The loop was not through when its turns were used up. -/
  | unfinished
  deriving DecidableEq, Repr

/-- What a build of the program does with an exponent that leaves its thirty-two bits. -/
inductive Excess where
  | stop
  /-- It goes on with the lowest thirty-two bits. -/
  | wrap
  deriving DecidableEq, Repr

/-- Division has no result by zero, nor has that of the least word by minus one. -/
def divided (a b result : Int64) : Except Fault Int64 :=
  if b = 0 ∨ a = Int64.minValue ∧ b = -1 then .error .amount else .ok result

/-- The quotient, rounded toward zero. -/
def quotient (a b : Int64) : Except Fault Int64 := divided a b (a / b)

/-- The remainder, with the sign of the dividend. -/
def remainder (a b : Int64) : Except Fault Int64 := divided a b (a % b)

/-- The product, if the exact one is a word. -/
def product (a b : Int64) : Except Fault Int64 :=
  if (a * b).toInt = a.toInt * b.toInt then .ok (a * b) else .error .amount

/-- The exponent moved by some places. -/
def shift (excess : Excess) (exponent places : Int32) : Except Fault Int32 :=
  if excess = .wrap ∨ (exponent + places).toInt = exponent.toInt + places.toInt then
    .ok (exponent + places)
  else .error .exponent

/-! ## The writer -/

/-- The loop over tens, with a limit on its turns. -/
def stripWords (excess : Excess) : Nat → Int64 → Int32 → Except Fault (Int64 × Int32)
  | 0, _, _ => .error .unfinished
  | turns + 1, amount, exponent => do
    if (← remainder amount 10) = 0 then
      let tenth ← quotient amount 10
      stripWords excess turns tenth (← shift excess exponent 1)
    else .ok (amount, exponent)

/-- Puts some tens back and lowers the exponent by their number. -/
def putBack (excess : Excess) (amount tens : Int64) (exponent places : Int32) :
    Except Fault (Int64 × Int32) := do
  let restored ← product amount tens
  .ok (restored, ← shift excess exponent (-places))

/-- Puts one or two tens back so that the exponent is a multiple of three. -/
def alignWords (excess : Excess) (amount : Int64) (exponent : Int32) :
    Except Fault (Int64 × Int32) :=
  if exponent.toInt % 3 = 1 then putBack excess amount 10 exponent 1
  else if exponent.toInt % 3 = 2 then putBack excess amount 100 exponent 2
  else .ok (amount, exponent)

/-- The amount and the exponent that are written in the end. -/
def scaleWords (excess : Excess) (turns : Nat) (mantissa : Int64) (exponent : Int32) :
    Except Fault (Int64 × Int32) := do
  let stripped ← stripWords excess turns mantissa exponent
  alignWords excess stripped.1 stripped.2

/-- A numeral with the suffix of its exponent, or with the exponent itself. -/
def spelled (amount exponent : Int) : String :=
  match decimalSuffix exponent with
  | some suffix => Numeral.ofInt amount ++ suffix
  | none => Numeral.ofInt amount ++ "e" ++ Numeral.ofInt exponent

/-- The quantity `mantissa · 10 ^ exponent`, in words. -/
def decimalWords (excess : Excess) (turns : Nat) (mantissa : Int64) (exponent : Int32) :
    Except Fault String :=
  if mantissa = 0 then .ok "0"
  else do
    let scaled ← scaleWords excess turns mantissa exponent
    .ok (spelled scaled.1.toInt scaled.2.toInt)

/-! ## Amounts between zero and another -/

/-- A number of the same sign which is no further from zero. -/
def Within (n amount : Int) : Prop := n.sign = amount.sign ∧ n.natAbs ≤ amount.natAbs

theorem within_of_mul {n amount : Int} {factor : Nat} (hFactor : 0 < factor)
    (hExact : n * factor = amount) : Within n amount := by
  constructor
  · rw [← hExact, Int.sign_mul, Int.sign_eq_one_of_pos (Int.natCast_pos.mpr hFactor), mul_one]
  · rw [← hExact, Int.natAbs_mul, Int.natAbs_natCast]
    exact Nat.le_mul_of_pos_right _ hFactor

/-- What is no further from zero than a word is a word. -/
theorem Within.exists_word {n : Int} {word : Int64} (hWithin : Within n word.toInt) :
    ∃ w : Int64, w.toInt = n := by
  obtain ⟨hSign, hNear⟩ := hWithin
  have hLow := word.le_toInt
  have hHigh := word.toInt_lt
  refine ⟨Int64.ofInt n, Int64.toInt_ofInt_of_le (by omega) ?_⟩
  -- the least word is further from zero than any that is positive, so the sign is needed
  by_contra hLarge
  rw [Int.sign_eq_one_of_pos (by omega), eq_comm, Int.sign_eq_one_iff_pos] at hSign
  omega

/-- Tens that are put back stay within what they were taken out of. -/
theorem Reduced.within {amount mantissa : Int} {power rest : Nat}
    (hReduced : Reduced 10 amount mantissa power) (hRest : rest ≤ power) :
    Within (mantissa * 10 ^ rest) amount := by
  refine within_of_mul (Nat.pow_pos (n := power - rest) (by decide : 0 < 10)) ?_
  push_cast
  rw [mul_assoc, ← pow_add, Nat.add_sub_cancel' hRest, hReduced.exact]

/-- A number of sixty-four bits has at most eighteen tens, unless it is zero. -/
theorem Reduced.power_le_eighteen {amount : Int64} {mantissa : Int} {power : Nat}
    (hReduced : Reduced 10 amount.toInt mantissa power) : power ≤ 18 :=
  hReduced.power_le_of_word (by decide) (by norm_num)

/-! ## Operations -/

@[simp] theorem remainder_ten (amount : Int64) : remainder amount 10 = .ok (amount % 10) := by
  simp [remainder, divided]

@[simp] theorem quotient_ten (amount : Int64) : quotient amount 10 = .ok (amount / 10) := by
  simp [quotient, divided]

theorem mod_ten_eq_zero_iff (amount : Int64) : amount % 10 = 0 ↔ (10 : Int) ∣ amount.toInt := by
  rw [← Int64.toInt_inj, Int64.toInt_mod, Int.dvd_iff_tmod_eq_zero]
  rfl

theorem toInt_div_ten (amount : Int64) : (amount / 10).toInt = amount.toInt.tdiv 10 :=
  Int64.toInt_div_of_ne_right amount 10 (by decide)

/-- A product that is a word is computed. -/
theorem product_eq {a b word : Int64} (hExact : word.toInt = a.toInt * b.toInt) :
    product a b = .ok word := by
  have hWord : a * b = word := by
    rw [← Int64.ofInt_toInt word, hExact, Int64.ofInt_mul, Int64.ofInt_toInt, Int64.ofInt_toInt]
  rw [product, hWord, if_pos hExact]

variable {excess : Excess}

/-- An exponent that fits is computed, in every build. -/
theorem shift_eq {exponent places word : Int32}
    (hExact : word.toInt = exponent.toInt + places.toInt) :
    shift excess exponent places = .ok word := by
  have hWord : exponent + places = word := by
    rw [← Int32.ofInt_toInt word, hExact, Int32.ofInt_add, Int32.ofInt_toInt, Int32.ofInt_toInt]
  rw [shift, hWord, if_pos (.inr hExact)]

/-- A number of thirty-two bits is an exponent. -/
theorem exists_exponent {n : Int} (hLow : -2 ^ 31 ≤ n) (hHigh : n < 2 ^ 31) :
    ∃ exponent : Int32, exponent.toInt = n :=
  ⟨Int32.ofInt n, Int32.toInt_ofInt_of_le hLow hHigh⟩

/-- An exponent that does not fit makes the one kind of build stop. -/
theorem shift_total (excess : Excess) (exponent places : Int32) :
    (∃ word, shift excess exponent places = .ok word) ∨
      excess = .stop ∧ shift excess exponent places = .error .exponent := by
  unfold shift
  split
  next => exact .inl ⟨_, rfl⟩
  next hOver =>
    cases excess with
    | stop => exact .inr ⟨rfl, rfl⟩
    | wrap => exact absurd (.inl rfl) hOver

/-- The exponent raised by one for each of some tens. -/
def climb (excess : Excess) : Nat → Int32 → Except Fault Int32
  | 0, exponent => .ok exponent
  | power + 1, exponent => do climb excess power (← shift excess exponent 1)

theorem climb_succ {exponent next : Int32} (hShift : shift excess exponent 1 = .ok next)
    (power : Nat) : climb excess (power + 1) exponent = climb excess power next := by
  rw [climb, hShift]
  rfl

theorem climb_eq {power : Nat} {exponent word : Int32}
    (hExact : word.toInt = exponent.toInt + power) : climb excess power exponent = .ok word := by
  induction power generalizing exponent with
  | zero =>
    obtain rfl : exponent = word := Int32.toInt_inj.mp (by simpa using hExact.symm)
    rfl
  | succ power ih =>
    -- the exponent on the way there fits as well
    have hLow := exponent.le_toInt
    have hHigh := word.toInt_lt
    push_cast at hExact
    obtain ⟨next, hNext⟩ : ∃ next : Int32, next.toInt = exponent.toInt + 1 :=
      exists_exponent (by omega) (by omega)
    rw [climb_succ (shift_eq hNext)]
    exact ih (by omega)

theorem climb_total (excess : Excess) (power : Nat) (exponent : Int32) :
    (∃ word, climb excess power exponent = .ok word) ∨
      excess = .stop ∧ climb excess power exponent = .error .exponent := by
  induction power generalizing exponent with
  | zero => exact .inl ⟨exponent, rfl⟩
  | succ power ih =>
    obtain ⟨next, hShift⟩ | ⟨hStop, hShift⟩ := shift_total excess exponent 1
    · rw [climb_succ hShift]
      exact ih next
    · exact .inr ⟨hStop, by rw [climb, hShift]; rfl⟩

/-! ## The loop -/

/-- The loop takes out all tens of an amount, a turn for each, and only an exponent that leaves its
bits keeps it from this. -/
theorem stripWords_eq {amount mantissa : Int64} {power : Nat}
    (hReduced : Reduced 10 amount.toInt mantissa.toInt power) (turns : Nat) (exponent : Int32) :
    stripWords excess (turns + power + 1) amount exponent =
      (climb excess power exponent).map (mantissa, ·) := by
  induction power generalizing amount exponent with
  | zero =>
    have hExact := hReduced.exact
    rw [pow_zero, mul_one] at hExact
    obtain rfl := Int64.toInt_inj.mp hExact
    have hEnd : mantissa % 10 ≠ 0 := fun hZero =>
      hReduced.whole ((mod_ten_eq_zero_iff mantissa).mp hZero)
    rw [stripWords, remainder_ten]
    exact if_neg hEnd
  | succ power ih =>
    have hDvd : (10 : Int) ∣ amount.toInt := by simpa using hReduced.pow_dvd (p := 1) (by omega)
    have hTenth : Reduced 10 (amount / 10).toInt mantissa.toInt power := by
      refine reduced_of_not_dvd (by decide) ?_ hReduced.whole
      rw [toInt_div_ten, ← hReduced.exact, pow_succ, ← mul_assoc, Int.mul_tdiv_cancel _ (by decide)]
    rw [← Nat.add_assoc, stripWords, remainder_ten, quotient_ten]
    show ite _ _ _ = _
    rw [if_pos ((mod_ten_eq_zero_iff amount).mpr hDvd)]
    show (shift excess exponent 1).bind _ = ((shift excess exponent 1).bind _).map _
    cases shift excess exponent 1 with
    | error fault => rfl
    | ok next => exact ih hTenth next

/-! ## Putting tens back -/

theorem putBack_eq {amount tens word : Int64} (hWord : word.toInt = amount.toInt * tens.toInt)
    (exponent places : Int32) :
    putBack excess amount tens exponent places =
      (shift excess exponent (-places)).map (word, ·) := by
  rw [putBack, product_eq hWord]
  show (shift excess exponent (-places)).bind _ = _
  cases shift excess exponent (-places) with
  | error fault => rfl
  | ok lowered => rfl

/-- The tens by which the exponent is past a multiple of three are put back, if their product with
the amount is a word. -/
theorem alignWords_eq {amount word : Int64} {exponent places : Int32} {rest : Nat}
    (hRest : exponent.toInt % 3 = rest) (hPlaces : places.toInt = -rest)
    (hWord : word.toInt = amount.toInt * 10 ^ rest) :
    alignWords excess amount exponent = (shift excess exponent places).map (word, ·) := by
  obtain rfl | rfl | rfl : rest = 0 ∨ rest = 1 ∨ rest = 2 := by omega
  · obtain rfl : word = amount := Int64.toInt_inj.mp (by simpa using hWord)
    have hShift : shift excess exponent places = .ok exponent := shift_eq (by simp [hPlaces])
    rw [alignWords, if_neg (by omega), if_neg (by omega), hShift]
    rfl
  · obtain rfl : places = -1 := Int32.toInt_inj.mp hPlaces
    rw [alignWords, if_pos (by omega)]
    exact putBack_eq hWord exponent 1
  · obtain rfl : places = -2 := Int32.toInt_inj.mp hPlaces
    rw [alignWords, if_neg (by omega), if_pos (by omega)]
    exact putBack_eq hWord exponent 2

/-- From an exponent that is past a multiple of three, the largest word overflows. -/
theorem scaleWords_maxValue {exponent : Int32} (hPast : ¬ 3 ∣ exponent.toInt) (turns : Nat) :
    scaleWords excess (turns + 1) Int64.maxValue exponent = .error .amount := by
  have hEnd : Reduced 10 Int64.maxValue.toInt Int64.maxValue.toInt 0 :=
    reduced_of_not_dvd (by decide) (by decide) (by decide)
  rw [scaleWords, stripWords_eq hEnd]
  show alignWords excess Int64.maxValue exponent = _
  by_cases hOne : exponent.toInt % 3 = 1
  · rw [alignWords, if_pos hOne]
    rfl
  · rw [alignWords, if_neg hOne, if_pos (by omega)]
    rfl

/-! ## Whole runs -/

/-- An exponent that can be raised for as many tens as a word may have. -/
def HasRoom (exponent : Int32) : Prop := exponent.toInt + 18 ≤ Int32.maxValue.toInt

instance (exponent : Int32) : Decidable (HasRoom exponent) := inferInstanceAs (Decidable (_ ≤ _))

variable {mantissa stripped : Int64} {exponent last : Int32} {power : Nat}

/-- What the loop takes out of a word is a word. -/
theorem exists_stripped (hNe : mantissa ≠ 0) (exponent : Int) :
    ∃ (stripped : Int64) (power : Nat),
      stripTens mantissa.toInt exponent = (stripped.toInt, exponent + (power : Nat)) ∧
        Reduced 10 mantissa.toInt stripped.toInt power := by
  have hNe' : mantissa.toInt ≠ 0 := fun hZero => hNe (Int64.toInt_inj.mp hZero)
  obtain ⟨least, power, hStrip, hReduced⟩ := stripTens_eq hNe' exponent
  have hWithin := hReduced.within (Nat.zero_le power)
  rw [pow_zero, mul_one] at hWithin
  obtain ⟨stripped, rfl⟩ := hWithin.exists_word
  exact ⟨stripped, power, hStrip, hReduced⟩

/-- Nineteen turns are enough for every word. -/
theorem scaleWords_eq (hReduced : Reduced 10 mantissa.toInt stripped.toInt power) (turns : Nat)
    (exponent : Int32) :
    scaleWords excess (turns + 19) mantissa exponent =
      (climb excess power exponent).bind (alignWords excess stripped) := by
  have hPower := hReduced.power_le_eighteen
  have hTurns : turns + 19 = turns + (18 - power) + power + 1 := by omega
  rw [scaleWords, hTurns, stripWords_eq hReduced]
  cases climb excess power exponent with
  | error fault => rfl
  | ok top => rfl

/-- With room for the exponent, words hold what unbounded integers do. -/
theorem scaleWords_of_room (hNe : mantissa ≠ 0) (hThree : 3 ∣ exponent.toInt)
    (hRoom : HasRoom exponent) (turns : Nat) :
    ∃ amount last, scaleWords excess (turns + 19) mantissa exponent = .ok (amount, last) ∧
      Within amount.toInt mantissa.toInt ∧
      alignThousands (stripTens mantissa.toInt exponent.toInt).1
        (stripTens mantissa.toInt exponent.toInt).2 = (amount.toInt, last.toInt) := by
  obtain ⟨stripped, power, hStrip, hReduced⟩ := exists_stripped hNe exponent.toInt
  have hPower := hReduced.power_le_eighteen
  have hLow := exponent.le_toInt
  rw [HasRoom, Int32.toInt_maxValue] at hRoom
  -- the exponent at the end of the loop, the places back from there, and the exponent written
  obtain ⟨top, hTop⟩ : ∃ top : Int32, top.toInt = exponent.toInt + power :=
    exists_exponent (by omega) (by omega)
  obtain ⟨places, hPlaces⟩ : ∃ places : Int32, places.toInt = -(power % 3 : Nat) :=
    exists_exponent (by omega) (by omega)
  obtain ⟨last, hLast⟩ : ∃ last : Int32, last.toInt = exponent.toInt + 3 * (power / 3 : Nat) :=
    exists_exponent (by omega) (by omega)
  have hWithin := hReduced.within (Nat.mod_le power 3)
  obtain ⟨amount, hAmount⟩ := hWithin.exists_word
  refine ⟨amount, last, ?run, hAmount ▸ hWithin, ?ideal⟩
  case run =>
    have hShift : shift excess top places = .ok last := shift_eq (by omega)
    rw [scaleWords_eq hReduced, climb_eq hTop]
    show alignWords excess stripped top = _
    rw [alignWords_eq (by omega) hPlaces hAmount, hShift]
    rfl
  case ideal =>
    rw [hStrip, alignThousands_eq (Int.emod_eq_zero_of_dvd hThree), hAmount, hLast]

/-- From a multiple of three, the loop takes out as many tens as are put back, also where the
exponent does not fit any more. -/
theorem rest_le_power (hThree : 3 ∣ exponent.toInt)
    (hClimb : climb excess power exponent = .ok last) : (last.toInt % 3).toNat ≤ power := by
  have hLow := exponent.le_toInt
  have hHigh := exponent.toInt_lt
  by_cases hFits : exponent.toInt + power < 2 ^ 31
  · obtain ⟨top, hTop⟩ : ∃ top : Int32, top.toInt = exponent.toInt + power :=
      exists_exponent (by omega) hFits
    obtain rfl : top = last := Except.ok.inj ((climb_eq hTop).symm.trans hClimb)
    omega
  · -- the largest exponent is past a multiple of three, so two tens at least were taken out
    omega

/-- From a multiple of three, no amount overflows, and the loop comes to its end. -/
theorem scaleWords_total (hNe : mantissa ≠ 0) (hThree : 3 ∣ exponent.toInt) (turns : Nat) :
    (∃ amount last, scaleWords excess (turns + 19) mantissa exponent = .ok (amount, last) ∧
      Within amount.toInt mantissa.toInt) ∨
    (excess = .stop ∧ ¬ HasRoom exponent ∧
      scaleWords excess (turns + 19) mantissa exponent = .error .exponent) := by
  by_cases hRoom : HasRoom exponent
  · obtain ⟨amount, last, hRun, hWithin, -⟩ := scaleWords_of_room hNe hThree hRoom turns
    exact .inl ⟨amount, last, hRun, hWithin⟩
  obtain ⟨stripped, power, -, hReduced⟩ := exists_stripped hNe exponent.toInt
  rw [scaleWords_eq hReduced]
  obtain ⟨top, hClimb⟩ | ⟨hStop, hClimb⟩ := climb_total excess power exponent
  · have hWithin := hReduced.within (rest_le_power hThree hClimb)
    obtain ⟨amount, hAmount⟩ := hWithin.exists_word
    obtain ⟨places, hPlaces⟩ : ∃ places : Int32, places.toInt = -((top.toInt % 3).toNat : Int) :=
      exists_exponent (by omega) (by omega)
    rw [hClimb]
    show (∃ amount last, alignWords excess stripped top = .ok (amount, last) ∧ _) ∨
      _ ∧ _ ∧ alignWords excess stripped top = _
    rw [alignWords_eq (by omega) hPlaces hAmount]
    obtain ⟨last, hShift⟩ | ⟨hStop, hShift⟩ := shift_total excess top places
    · exact .inl ⟨amount, last, by rw [hShift]; rfl, hAmount ▸ hWithin⟩
    · exact .inr ⟨hStop, hRoom, by rw [hShift]; rfl⟩
  · exact .inr ⟨hStop, hRoom, by rw [hClimb]; rfl⟩

/-- With room for the exponent, the text is that of unbounded integers. -/
theorem decimalWords_eq (hThree : 3 ∣ exponent.toInt) (hRoom : mantissa = 0 ∨ HasRoom exponent)
    (turns : Nat) :
    decimalWords excess (turns + 19) mantissa exponent =
      .ok (decimal mantissa.toInt exponent.toInt) := by
  by_cases hZero : mantissa = 0
  · rw [decimalWords, if_pos hZero, hZero]
    rfl
  · have hZero' : mantissa.toInt ≠ 0 := fun h => hZero (Int64.toInt_inj.mp h)
    obtain ⟨amount, last, hRun, -, hIdeal⟩ :=
      scaleWords_of_room hZero hThree (hRoom.resolve_left hZero) turns
    have hDecimal : decimal mantissa.toInt exponent.toInt = spelled amount.toInt last.toInt := by
      rw [decimal, if_neg hZero']
      simp only [hIdeal]
      rfl
    rw [decimalWords, if_neg hZero, hRun, hDecimal]
    rfl

/-- What the decimal writer comes to in words, if they are enough for it. -/
structure Contained (excess : Excess) (turns : Nat) (mantissa : Int64) (exponent : Int32) :
    Prop where
  /-- The loop comes to its end and no operation on amounts overflows: there is an amount to be
  written, with the sign of the mantissa and no further from zero. Only an exponent without room can
  keep it from being found, in a build that stops there. -/
  scaled : mantissa ≠ 0 →
    (∃ amount last, scaleWords excess turns mantissa exponent = .ok (amount, last) ∧
      Within amount.toInt mantissa.toInt) ∨
    (excess = .stop ∧ ¬ HasRoom exponent ∧
      scaleWords excess turns mantissa exponent = .error .exponent)
  /-- What is written is what unbounded integers give. -/
  text : mantissa = 0 ∨ HasRoom exponent →
    decimalWords excess turns mantissa exponent = .ok (decimal mantissa.toInt exponent.toInt)

/-- **Words suffice.** From an exponent that is a multiple of three, in every build, words are
enough to write all mantissas of sixty-four bits, and nineteen turns are enough for the loop; from
any other exponent, the amount of some mantissa overflows. -/
theorem words_suffice_iff (excess : Excess) (turns : Nat) (exponent : Int32) :
    (∀ mantissa, Contained excess (turns + 19) mantissa exponent) ↔ 3 ∣ exponent.toInt := by
  constructor
  · intro hContained
    by_contra hPast
    -- no ten was taken out of the largest word that could be put back
    have hOverflow : scaleWords excess (turns + 19) Int64.maxValue exponent = .error .amount :=
      scaleWords_maxValue hPast (turns + 18)
    have hScaled := (hContained Int64.maxValue).scaled (by decide)
    rw [hOverflow] at hScaled
    rcases hScaled with ⟨amount, last, hRun, -⟩ | ⟨-, -, hRun⟩
    · cases hRun
    · cases hRun
  · intro hThree mantissa
    exact ⟨fun hNe => scaleWords_total hNe hThree turns,
      fun hRoom => decimalWords_eq hThree hRoom turns⟩

/-- Of a number next to the least word, both tens are put back. -/
example : scaleWords .stop 19 (-9223372036854775800) 0 = .ok (-9223372036854775800, 0) := rfl

/-- Next to the largest exponent, the amount stays in bounds though the exponent does not. -/
example : scaleWords .stop 19 100 2147483646 = .error .exponent ∧
    scaleWords .wrap 19 100 2147483646 = .ok (10, 2147483647) := ⟨rfl, rfl⟩

/-! ## The two callers -/

/-- Thousandths are written in words as they are in unbounded integers. -/
theorem milli_in_words (amount : Int64) (turns : Nat) :
    decimalWords excess (turns + 19) amount (-3) = .ok (milli amount) :=
  decimalWords_eq (by decide) (.inr (by decide)) turns

/-- So are numbers of bytes below 1024, on either side of zero. -/
theorem binary_in_words {bytes : Int64} (hSmall : -1024 < bytes.toInt ∧ bytes.toInt < 1024)
    (turns : Nat) : decimalWords excess (turns + 19) bytes 0 = .ok (binary bytes) := by
  rw [binary, if_pos hSmall]
  exact decimalWords_eq (by decide) (.inr (by decide)) turns

end PodCompiler.Quantity
