import Storyworld.Scalar

/-!
This module contains the rationals as scalars: every operation is exact, and no scalar is infinite
or undefined.
-/

namespace Storyworld

/-- `± digits · 10 ^ exponent`. -/
def Rat.ofDecimal (negative : Bool) (digits : Nat) (exponent : Int) : Rat :=
  let size : Rat :=
    match exponent with
    | .ofNat e => ((digits * Nat.pow 10 e : Nat) : Rat)
    | .negSucc e => mkRat digits (Nat.pow 10 (e + 1))
  if negative then -size else size

instance : Scalar Rat where
  extent q := .finite q
  isNegative q := decide (q < 0)
  ofInt? i := some i
  ofDecimal := Rat.ofDecimal
  infinity? _ := none
  undefined? := none
  add := (· + ·)
  sub := (· - ·)
  mul := (· * ·)
  div := (· / ·)
  mod x y := x - y * (x / y).floor
  spell q := if q.den = 1 then s!"{q.num}" else s!"{q.num}/{q.den}"

@[simp] theorem Rat.extent_eq (q : Rat) : Scalar.extent q = .finite q := rfl

@[simp] theorem Rat.scalar_lt (p q : Rat) : Scalar.lt p q = decide (p < q) := rfl

end Storyworld
