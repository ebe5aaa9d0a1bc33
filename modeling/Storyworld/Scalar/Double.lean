import Storyworld.Scalar
import Storyworld.Decimal.Layout

/-!
This module contains the double precision numbers as scalars. A double is decoded from its bits
into `m · 2 ^ q`; its text has the fewest digits that are read back as the same double.
-/

namespace Storyworld.Double

def negative (x : Float) : Bool := x.toBits.toNat / Nat.pow 2 63 = 1

def fields (x : Float) : Nat × Nat :=
  let bits := x.toBits.toNat
  (bits / Nat.pow 2 52 % 2048, bits % Nat.pow 2 52)

def parts (x : Float) : Nat × Int :=
  let (e, f) := fields x
  if e = 0 then (f, -1074) else (f + Nat.pow 2 52, (e : Int) - 1075)

/-- `m · 2 ^ q` as a fraction. -/
def fraction (m : Nat) : Int → Nat × Nat
  | .ofNat q => (m * Nat.pow 2 q, 1)
  | .negSucc q => (m, Nat.pow 2 (q + 1))

def extent (x : Float) : Extent :=
  let (e, f) := fields x
  if e = 2047 then (if f = 0 then .infinite (negative x) else .undefined)
  else
    let (m, q) := parts x
    let (num, den) := fraction m q
    .finite (mkRat (if negative x then -(num : Int) else num) den)

/-- The numbers that are read back as `m · 2 ^ q`; a mantissa at the lower end of its range has
closer neighbours below than above. -/
def cell (m : Nat) (q : Int) : Decimal.Cell :=
  let (unit, den) := fraction 1 (q - 2)
  let below := if m = Nat.pow 2 52 ∧ -1074 < q then 1 else 2
  ⟨(4 * m - below) * unit, 4 * m * unit, (4 * m + 2) * unit, den, m % 2 = 0⟩

def spell (x : Float) : String :=
  match extent x with
  | .undefined => "nan"
  | .infinite n => if n then "-inf" else "inf"
  | .finite _ =>
    let (m, q) := parts x
    let d := if m = 0 then ⟨0, 0⟩ else (cell m q).shortest
    Layout.full.write (negative x) d

def places (n : Nat) : Nat := n.log2 * 30103 / 100000

/-- Reads a decimal; sizes far beyond the range are infinite or zero. -/
def ofDecimal (isNegative : Bool) (digits : Nat) (exponent : Int) : Float :=
  let reach := exponent + places digits
  let size : Float :=
    if digits = 0 ∨ reach < -330 then 0.0
    else if 320 < reach then 1.0 / 0.0
    else
      match exponent with
      | .ofNat e => Float.ofScientific digits false e
      | .negSucc e => Float.ofScientific digits true (e + 1)
  if isNegative then -size else size

def ofInt? (i : Int) : Option Float :=
  let x := ofDecimal (i < 0) i.natAbs 0
  if x.isInf then none else some x

/-- A size `n · 2 ^ q` that a double holds exactly. -/
def scale (n : Nat) (q : Int) : Float := (Float.ofNat n).scaleB q

/-- The remainder of the sizes of two finite doubles, the second not zero; it is exact. -/
def remainder (x y : Float) : Float :=
  let (m, p) := parts x
  let (n, q) := parts y
  let low := min p q
  scale (m * Nat.pow 2 (p - low).toNat % (n * Nat.pow 2 (q - low).toNat)) low

def mod (x y : Float) : Float :=
  if x.isNaN || y.isNaN || x.isInf || y == 0.0 then 0.0 / 0.0
  else
    let r := if y.isInf then x.abs else remainder x y
    let r := if negative x then -r else r
    if r == 0.0 then (if negative y then -0.0 else 0.0)
    else if negative r != negative y then r + y
    else r

instance : Scalar Float where
  extent := extent
  isNegative := negative
  ofInt? := ofInt?
  ofDecimal := ofDecimal
  infinity? n := some (if n then -1.0 / 0.0 else 1.0 / 0.0)
  undefined? := some (0.0 / 0.0)
  add := (· + ·)
  sub := (· - ·)
  mul := (· * ·)
  div := (· / ·)
  mod := mod
  spell := spell

end Storyworld.Double
