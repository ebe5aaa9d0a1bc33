import Storyworld.Value
import Storyworld.Decimal.Numeral

/-!
This module contains the reading of values as numbers: numbers as they are, texts by the number
that they write.
-/

namespace Storyworld

def Numeral.toReal? {ρ : Type} [Scalar ρ] : Numeral → Option ρ
  | .decimal negative digits exponent => some (Scalar.ofDecimal negative digits exponent)
  | .infinite negative => Scalar.infinity? negative
  | .undefined => Scalar.undefined?

namespace Value

variable {ρ : Type} [Scalar ρ]

def toReal : Value ρ → Except Fault ρ
  | .num n => n.toReal
  | .text s =>
    match Numeral.read s >>= Numeral.toReal? with
    | some x => .ok x
    | none => .error .unreadable
  | _ => .error .wrongKind

/-- None in place of the two faults that say that a value is no number; numbers that are too large
still stop. -/
def unlessUnreadable {α : Type} : Except Fault α → Except Fault (Option α)
  | .ok a => .ok (some a)
  | .error .wrongKind => .ok none
  | .error .unreadable => .ok none
  | .error e => .error e

def real? (v : Value ρ) : Except Fault (Option ρ) := unlessUnreadable v.toReal

def finite? (v : Value ρ) : Except Fault (Option ρ) := do
  return (← v.real?).filter Scalar.isFinite

def finiteText? (s : String) : Option ρ :=
  (Numeral.read s >>= Numeral.toReal?).filter Scalar.isFinite

def toWhole (v : Value ρ) : Except Fault Int := do
  Number.truncate (.real (← v.toReal))

/-- A whole number that is not negative; the default where the value is no number. -/
def count (v : Value ρ) (default : Nat) : Except Fault Nat := do
  return ((← unlessUnreadable v.toWhole).map Int.toNat).getD default

/-- The whole number of a value; a scalar loses its fraction, a text has to write a whole number. -/
def toInt : Value ρ → Except Fault Int
  | .num n => n.truncate
  | .text s => ((Numeral.readWhole s).map Except.ok).getD (.error .unreadable)
  | _ => .error .wrongKind

end Value

end Storyworld
