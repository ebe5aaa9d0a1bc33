/-!
This module contains the class of real numbers that quantities are computed with. Everything that
calculates is written once over it: doubles run the program, rationals compute exactly.
-/

namespace Storyworld

/-- The exact value of a scalar. -/
inductive Extent where
  | finite (value : Rat)
  | infinite (negative : Bool)
  | undefined
deriving DecidableEq

namespace Extent

/-- Strictly less; nothing is less than or above what is undefined. -/
def lt : Extent → Extent → Bool
  | .finite p, .finite q => decide (p < q)
  | .finite _, .infinite n => !n
  | .infinite n, .finite _ => n
  | .infinite m, .infinite n => m && !n
  | _, _ => false

/-- Numerically equal; what is undefined equals nothing. -/
def same : Extent → Extent → Bool
  | .finite p, .finite q => decide (p = q)
  | .infinite m, .infinite n => m == n
  | _, _ => false

def le (a b : Extent) : Bool := a.lt b || a.same b

def isFinite : Extent → Bool
  | .finite _ => true
  | _ => false

end Extent

/--
A type of real numbers. `extent` is the exact value; the operations are the type's own, with its
own rounding. `mod` has the sign of its second argument, which is not zero.
-/
class Scalar (ρ : Type) where
  extent : ρ → Extent
  /-- The sign, which a zero may carry too. -/
  isNegative : ρ → Bool
  /-- The scalar next to a whole number, none where the type has no room for it. -/
  ofInt? : Int → Option ρ
  /-- `ofDecimal negative digits exponent` is the scalar next to `± digits · 10 ^ exponent`. -/
  ofDecimal : Bool → Nat → Int → ρ
  infinity? : Bool → Option ρ
  undefined? : Option ρ
  add : ρ → ρ → ρ
  sub : ρ → ρ → ρ
  mul : ρ → ρ → ρ
  div : ρ → ρ → ρ
  mod : ρ → ρ → ρ
  /-- The text of the scalar. -/
  spell : ρ → String

namespace Scalar

variable {ρ : Type} [Scalar ρ]

def lt (x y : ρ) : Bool := (extent x).lt (extent y)

def le (x y : ρ) : Bool := (extent x).le (extent y)

def same (x y : ρ) : Bool := (extent x).same (extent y)

def isFinite (x : ρ) : Bool := (extent x).isFinite

def zero : ρ := ofDecimal false 0 0

def gap (x y : ρ) : ρ :=
  let d := sub x y
  if lt d zero then sub zero d else d

end Scalar

def Rat.truncate (q : Rat) : Int := Int.tdiv q.num q.den

/-- The nearest whole number; a half goes to the even neighbour. -/
def Rat.nearest (q : Rat) : Int :=
  let low := q.floor
  let rest := q - low
  if rest < 1 / 2 then low
  else if 1 / 2 < rest then low + 1
  else if low % 2 = 0 then low else low + 1

end Storyworld
