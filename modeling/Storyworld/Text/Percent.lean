import Storyworld.Text.Bytes
import Storyworld.Text.Token

/-!
This module contains the options that stand at the end of an address: pairs of a name and a value,
in which a percent sign starts the number of a byte.
-/

namespace Storyworld.Text

/-- The byte that a percent sign and two digits write, none where another sign stands in front. -/
def numbered? (sign a b : UInt8) : Option UInt8 := do
  if Char.ofUInt8 sign = '%' then
    return (16 * (← hexValue? (Char.ofUInt8 a)) + (← hexValue? (Char.ofUInt8 b))).toUInt8
  else none

def percentBytes : List UInt8 → List UInt8
  | byte :: a :: b :: bytes =>
    match numbered? byte a b with
    | some n => n :: percentBytes bytes
    | none => byte :: percentBytes (a :: b :: bytes)
  | bytes => bytes

def isAscii (c : Char) : Bool := Nat.blt c.toNat 128

/-- The text of a run of characters: those of ASCII can number bytes, the others stand for themselves. -/
def runText (run : List Char) : List Char :=
  if run.all isAscii then (mended (percentBytes (bytesOf run))).toList else run

def optionText (cs : List Char) : String :=
  let cs := cs.map fun c => if c = '+' then ' ' else c
  String.ofList ((cs.splitBy fun a b => isAscii a == isAscii b).flatMap runText)

def options (cs : List Char) : List (String × String) :=
  (piecesOn '&' cs).filterMap fun piece =>
    let (name, value) := cutAt '=' piece
    if value.isEmpty then none else some (optionText name, optionText value)

end Storyworld.Text
