import Storyworld.Decimal
import Storyworld.Scalar

/-!
This module contains the digits that scaling finds. A number is brought between one and ten by
factors that are powers of ten, half a unit of the last digit is added, and the digits are cut off
one by one. Every step is rounded to sixty-four binary digits, so a number that lies halfway between
two decimals may go to either of them.
-/

namespace Storyworld.Decimal.Scaled

/-- The exact value `m · 2 ^ q`. -/
def dyadic (m : Nat) (q : Int) : Rat :=
  match q with
  | .ofNat q => ((m * Nat.pow 2 q : Nat) : Rat)
  | .negSucc q => mkRat m (Nat.pow 2 (q + 1))

def rounded (q : Rat) : Rat :=
  let power := (q.num.natAbs.log2 : Int) - (q.den.log2 : Int) - 63
  let power := if q / dyadic 1 power < dyadic 1 63 then power - 1 else power
  dyadic (Rat.nearest (q / dyadic 1 power)).natAbs power

/-- The double next to `10 ^ 100`. -/
def hundredPlaces : Rat := dyadic 5147557589468029 280

/-- The double next to `10 ^ -8`. -/
def eighthPlace : Rat := dyadic 6044629098073146 (-79)

def tenth : Rat := dyadic 7205759403792794 (-56)

def half : Rat := dyadic 6338253001141148 (-100)

/-- A number with the power of ten that was taken out of it. -/
structure State where
  rest : Rat
  power : Int

/-- The factor that a large number is divided by, built up from one; `fuel` bounds the steps. -/
def factor (q step : Rat) (places : Int) : Nat → State → State
  | 0, s => s
  | fuel + 1, s =>
    if rounded (step * s.rest) ≤ q then
      factor q step places fuel ⟨rounded (s.rest * step), s.power + places⟩
    else s

/-- A small number, brought up to a bound; `fuel` bounds the steps. -/
def raise (bound step : Rat) (places : Int) : Nat → State → State
  | 0, s => s
  | fuel + 1, s =>
    if s.rest < bound then
      raise bound step places fuel ⟨rounded (s.rest * step), s.power - places⟩
    else s

def between (q : Rat) : State :=
  let scale := factor q 10 1 10 (factor q 10000000000 10 10 (factor q hundredPlaces 100 4 ⟨1, 0⟩))
  raise 1 10 1 10 (raise eighthPlace 100000000 8 50 ⟨rounded (q / scale.rest), scale.power⟩)

def digits : Nat → Rat → Nat → Nat
  | 0, _, found => found
  | count + 1, q, found =>
    let digit : Nat := (Rat.truncate q).natAbs
    digits count (rounded ((q - digit) * 10)) (10 * found + digit)

end Scaled

def scaled (q : Rat) : Decimal :=
  let s := Scaled.between q
  let lifted := Scaled.rounded (s.rest + Scaled.half)
  let s : Scaled.State :=
    if lifted < 10 then ⟨lifted, s.power⟩
    else ⟨Scaled.rounded (lifted * Scaled.tenth), s.power + 1⟩
  trim ⟨Scaled.digits 15 s.rest 0, s.power - 14⟩

end Storyworld.Decimal
