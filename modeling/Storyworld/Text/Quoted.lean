import Storyworld.Text.Code
import Storyworld.Text.Printable

/-!
This module contains the quoted form of a text, as it stands inside a written list or mapping, and the
form in which a text is shown.
-/

namespace Storyworld.Text

/-- Hexadecimal digits, at least `size` of them. -/
def hex (size n : Nat) : List Char :=
  let digits := Nat.toDigits 16 n
  List.replicate (size - digits.length) '0' ++ digits

def hexValue? (c : Char) : Option Nat :=
  if c.isDigit then some (c.toNat - 48)
  else if 'a' ≤ c ∧ c ≤ 'f' then some (c.toNat - 87)
  else if 'A' ≤ c ∧ c ≤ 'F' then some (c.toNat - 55)
  else none

/-- The quoted form of the character with a number, between marks. -/
def quotedChar (mark : Char) (n : Nat) : List Char :=
  if n = mark.toNat ∨ n = '\\'.toNat then ['\\', Char.ofNat n]
  else if n = '\n'.toNat then ['\\', 'n']
  else if n = '\r'.toNat then ['\\', 'r']
  else if n = '\t'.toNat then ['\\', 't']
  else if isPrintable n then [Char.ofNat n]
  else if n < 0x100 then '\\' :: 'x' :: hex 2 n
  else if n < 0x10000 then '\\' :: 'u' :: hex 4 n
  else '\\' :: 'U' :: hex 8 n

/-- The quoted form: between single marks, or between double ones where that saves escapes. -/
def quoted (s : String) : String :=
  let cs := s.toList
  let mark := if cs.contains '\'' && !cs.contains '"' then '"' else '\''
  String.ofList (mark :: (codes s).flatMap (quotedChar mark) ++ [mark])

/-- The text as it is shown: all characters as themselves, and halves of pairs by their numbers. -/
def shown (s : String) : String :=
  String.ofList ((codes s).flatMap fun n =>
    if isHalf n then '\\' :: 'u' :: hex 4 n else [Char.ofNat n])

end Storyworld.Text
