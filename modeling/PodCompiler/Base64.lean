/-!
# PodCompiler — base64

Octets as text of the standard alphabet, four characters for every three octets, the last group
padded with `=`.

* `Base64.encode` writes a list of octets; `Base64.ofText` writes a text's UTF-8 octets.
* `Base64.decode` reads octets, `Base64.text?` a text. What the encoder never writes is refused.
* `Base64.decode_encode` and `Base64.text_ofText` say that reading undoes writing.
-/

namespace PodCompiler.Base64

/-- The character that stands for six bits. -/
def symbol (n : Nat) : Char :=
  if n < 26 then Char.ofNat ('A'.toNat + n)
  else if n < 52 then Char.ofNat ('a'.toNat + (n - 26))
  else if n < 62 then Char.ofNat ('0'.toNat + (n - 52))
  else if n = 62 then '+'
  else '/'

/-- Three octets make four symbols; one or two octets that are left make two or three symbols and
the padding. -/
def encode : List UInt8 → List Char
  | [] => []
  | [a] =>
    let n := a.toNat * 16
    [symbol (n / 64), symbol (n % 64), '=', '=']
  | [a, b] =>
    let n := (a.toNat * 256 + b.toNat) * 4
    [symbol (n / 4096), symbol (n / 64 % 64), symbol (n % 64), '=']
  | a :: b :: c :: rest =>
    let n := (a.toNat * 256 + b.toNat) * 256 + c.toNat
    symbol (n / 262144) :: symbol (n / 4096 % 64) :: symbol (n / 64 % 64) :: symbol (n % 64) ::
      encode rest

/-- A text's UTF-8 octets. -/
def ofText (s : String) : String := String.ofList (encode s.toUTF8.toList)

/-! ## Reading -/

/-- The six bits that a character stands for. -/
def bits? (c : Char) : Option Nat :=
  if 'A' ≤ c ∧ c ≤ 'Z' then some (c.toNat - 'A'.toNat)
  else if 'a' ≤ c ∧ c ≤ 'z' then some (c.toNat - 'a'.toNat + 26)
  else if '0' ≤ c ∧ c ≤ '9' then some (c.toNat - '0'.toNat + 52)
  else if c = '+' then some 62
  else if c = '/' then some 63
  else none

/-- The one or two octets of a padded group, whose bits that are left over are zero. -/
def decodePadded (a b c : Char) : Option (List UInt8) := do
  let a ← bits? a
  let b ← bits? b
  if c = '=' then
    let n := a * 64 + b
    if n % 16 = 0 then some [UInt8.ofNat (n / 16)] else none
  else
    let c ← bits? c
    let n := (a * 64 + b) * 64 + c
    if n % 4 = 0 then some [UInt8.ofNat (n / 1024), UInt8.ofNat (n / 4 % 256)] else none

/-- The three octets of a whole group. -/
def decodeGroup (a b c d : Char) : Option (List UInt8) := do
  let a ← bits? a
  let b ← bits? b
  let c ← bits? c
  let d ← bits? d
  let n := ((a * 64 + b) * 64 + c) * 64 + d
  some [UInt8.ofNat (n / 65536), UInt8.ofNat (n / 256 % 256), UInt8.ofNat (n % 256)]

/-- The octets that a text of the alphabet stands for. Only the last group may be padded. -/
def decode : List Char → Option (List UInt8)
  | [] => some []
  | a :: b :: c :: d :: rest =>
    if d = '=' ∧ rest = [] then decodePadded a b c
    else (decodeGroup a b c d).bind fun group => (decode rest).map (group ++ ·)
  | _ => none

/-- The text whose UTF-8 octets a text of the alphabet stands for. -/
def text? (s : String) : Option String :=
  (decode s.toList).bind fun octets => String.fromUTF8? ⟨octets.toArray⟩

/-! ## Reading undoes writing -/

theorem bits_symbol {n : Nat} (hSmall : n < 64) : bits? (symbol n) = some n := by
  have hAll : ∀ n < 64, bits? (symbol n) = some n := by decide
  exact hAll n hSmall

theorem symbol_ne_padding {n : Nat} (hSmall : n < 64) : symbol n ≠ '=' := by
  have hAll : ∀ n < 64, symbol n ≠ '=' := by decide
  exact hAll n hSmall

/-- An octet is told by its value. -/
theorem ofNat_of_eq {a : UInt8} {n : Nat} (hValue : n = a.toNat) : UInt8.ofNat n = a := by
  rw [hValue, UInt8.ofNat_toNat]

theorem decodePadded_one (a : UInt8) :
    decodePadded (symbol (a.toNat * 16 / 64)) (symbol (a.toNat * 16 % 64)) '=' = some [a] := by
  have ha : a.toNat < 256 := a.toNat_lt
  rw [decodePadded, bits_symbol (by omega), bits_symbol (by omega)]
  simp only [Option.bind_eq_bind, Option.bind_some, if_true]
  rw [if_pos (by omega), ofNat_of_eq (a := a) (by omega)]

theorem decodePadded_two (a b : UInt8) :
    decodePadded (symbol ((a.toNat * 256 + b.toNat) * 4 / 4096))
      (symbol ((a.toNat * 256 + b.toNat) * 4 / 64 % 64))
      (symbol ((a.toNat * 256 + b.toNat) * 4 % 64)) = some [a, b] := by
  have ha : a.toNat < 256 := a.toNat_lt
  have hb : b.toNat < 256 := b.toNat_lt
  rw [decodePadded, bits_symbol (by omega), bits_symbol (by omega), bits_symbol (by omega)]
  simp only [Option.bind_eq_bind, Option.bind_some]
  rw [if_neg (symbol_ne_padding (by omega)), if_pos (by omega), ofNat_of_eq (a := a) (by omega),
    ofNat_of_eq (a := b) (by omega)]

theorem decodeGroup_three {a b c : UInt8} {n : Nat}
    (hn : n = (a.toNat * 256 + b.toNat) * 256 + c.toNat) :
    decodeGroup (symbol (n / 262144)) (symbol (n / 4096 % 64)) (symbol (n / 64 % 64))
      (symbol (n % 64)) = some [a, b, c] := by
  have ha : a.toNat < 256 := a.toNat_lt
  have hb : b.toNat < 256 := b.toNat_lt
  have hc : c.toNat < 256 := c.toNat_lt
  -- the bits of the four symbols are those of the three octets
  have hBits : ((n / 262144 * 64 + n / 4096 % 64) * 64 + n / 64 % 64) * 64 + n % 64 = n := by omega
  rw [decodeGroup, bits_symbol (by omega), bits_symbol (by omega), bits_symbol (by omega),
    bits_symbol (by omega)]
  simp only [Option.bind_eq_bind, Option.bind_some, hBits]
  rw [ofNat_of_eq (a := a) (by omega), ofNat_of_eq (a := b) (by omega),
    ofNat_of_eq (a := c) (by omega)]

theorem decode_encode (octets : List UInt8) : decode (encode octets) = some octets := by
  -- group by group, as they are written
  induction octets using encode.induct with
  | case1 => rfl
  | case2 a => rw [encode, decode, if_pos ⟨rfl, rfl⟩, decodePadded_one]
  | case3 a b => rw [encode, decode, if_pos ⟨rfl, rfl⟩, decodePadded_two]
  | case4 a b c rest ih =>
    have hPadding : symbol (((a.toNat * 256 + b.toNat) * 256 + c.toNat) % 64) ≠ '=' :=
      symbol_ne_padding (Nat.mod_lt _ (by decide))
    -- the fourth character is a symbol, so the group is not taken for a padded one
    rw [encode, decode, if_neg fun hPadded => hPadding hPadded.1, decodeGroup_three rfl, ih]
    rfl

-- groups are padded at the end only, and bits that are left over are zero
example : decode "QQ==".toList = some [65] ∧ decode "QR==".toList = none ∧
    decode "QQ==QQ==".toList = none := by decide

/-! ## Texts -/

/-- The loop that lists octets puts them behind those it has listed. -/
theorem toList_loop (octets : ByteArray) (i : Nat) (listed : List UInt8) :
    ByteArray.toList.loop octets i listed = listed.reverse ++ octets.data.toList.drop i := by
  fun_induction ByteArray.toList.loop octets i listed with
  | case1 i listed hMore ih =>
    have hLength : i < octets.data.toList.length := hMore
    have hOctet : octets.get! i = octets.data.toList[i] := by
      show octets.data[i]! = _
      rw [getElem!_pos octets.data i hMore, Array.getElem_toList]
    rw [ih, List.drop_eq_getElem_cons hLength, hOctet, List.reverse_cons, List.append_assoc,
      List.singleton_append]
  | case2 i listed hDone =>
    have hLength : octets.data.toList.length ≤ i := Nat.not_lt.mp hDone
    rw [List.drop_eq_nil_of_le hLength, List.append_nil]

theorem mk_toList (octets : ByteArray) : ByteArray.mk octets.toList.toArray = octets := by
  have hList : octets.toList = octets.data.toList := toList_loop octets 0 []
  rw [hList, Array.toArray_toList]

theorem text_ofText (s : String) : text? (ofText s) = some s := by
  rw [text?, ofText, String.toList_ofList, decode_encode, Option.bind_some, mk_toList]
  exact dif_pos s.isValidUTF8

end PodCompiler.Base64
