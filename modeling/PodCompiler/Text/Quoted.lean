import PodCompiler.Numeral
import PodCompiler.Text.Printable

/-!
# PodCompiler — text between double quotes

How a text is shown inside a message: between double quotes, with escapes for quotes, backslashes,
controls and everything that would not be seen by itself.

* `Text.quoted` is the shown form of a whole text.
-/

namespace PodCompiler.Text

/-- The lower-case hexadecimal digits of a number without leading zeros. -/
def hexLower (n : Nat) : List Char := Nat.toDigits 16 n

/-- One character inside double quotes. ASCII needs no table: its shapeless characters are the
controls. -/
def quotedChar (c : Char) : List Char :=
  if c = '\x00' then ['\\', '0']
  else if c = '\t' then ['\\', 't']
  else if c = '\r' then ['\\', 'r']
  else if c = '\n' then ['\\', 'n']
  else if c = '\x22' then ['\\', '\x22']
  else if c = '\\' then ['\\', '\\']
  else if ' ' ≤ c ∧ c ≤ '~' then [c]
  else if extendsGrapheme c || !isPrintable c then
    '\\' :: 'u' :: '\x7b' :: (hexLower c.toNat ++ ['\x7d'])
  else [c]

/-- A text between double quotes. -/
def quoted (s : String) : String :=
  String.ofList ('\x22' :: (s.toList.flatMap quotedChar ++ ['\x22']))

end PodCompiler.Text
