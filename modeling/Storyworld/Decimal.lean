/-!
This module contains decimal numbers: a whole number of units of a power of ten, the fewest digits
that tell a number from its neighbours, and rounding to a count of digits.
-/

namespace Storyworld

/-- `digits · 10 ^ exponent`. -/
structure Decimal where
  digits : Nat
  exponent : Int
deriving DecidableEq, Repr

namespace Decimal

def width (n : Nat) : Nat := (Nat.toDigits 10 n).length

/-- The power of ten just above `num / den`: the least `k` with `num / den < 10 ^ k`. -/
def magnitude (num den : Nat) : Int :=
  if den ≤ num then width (num / den)
  else 1 - (width ((den + num - 1) / num - 1) : Int)

/-- `num / den` counted in units of `10 ^ p`, as a fraction. -/
def inUnits (num den : Nat) : Int → Nat × Nat
  | .ofNat p => (num, den * Nat.pow 10 p)
  | .negSucc p => (num * Nat.pow 10 (p + 1), den)

/-- The whole number next to `num / den`; a half goes to the even neighbour. -/
def nearest (num den : Nat) : Nat :=
  let low := num / den
  let rest := 2 * (num % den)
  if rest < den then low
  else if den < rest then low + 1
  else if low % 2 = 0 then low else low + 1

def trim (d : Decimal) : Decimal :=
  go (width d.digits) d
where
  go : Nat → Decimal → Decimal
    | 0, d => d
    | n + 1, d =>
      if d.digits ≠ 0 ∧ d.digits % 10 = 0 then go n ⟨d.digits / 10, d.exponent + 1⟩ else d

/-- `num / den` rounded to `count` digits, written without zeros at the end. -/
def rounded (count num den : Nat) : Decimal :=
  if num = 0 then ⟨0, 0⟩
  else
    let p := magnitude num den - count
    let (n, d) := inUnits num den p
    trim ⟨nearest n d, p⟩

/-- The open or closed interval of the numbers that are read back as one and the same. -/
structure Cell where
  low : Nat
  value : Nat
  high : Nat
  den : Nat
  closed : Bool

/-- Whether `c` units of `10 ^ p` lie in the cell. -/
def Cell.holds (cell : Cell) (p : Int) (c : Nat) : Bool :=
  let (low, d) := inUnits cell.low cell.den p
  let (high, _) := inUnits cell.high cell.den p
  if cell.closed then decide (low ≤ c * d) && decide (c * d ≤ high)
  else decide (low < c * d) && decide (c * d < high)

/-- The point of the grid `10 ^ p` in the cell that is next to its value; of two equally near ones
the even one. -/
def Cell.pointOn (cell : Cell) (p : Int) : Option Nat :=
  let (n, d) := inUnits cell.value cell.den p
  let low := n / d
  let near := nearest n d
  let far := if near = low then low + 1 else low
  if cell.holds p near then some near
  else if cell.holds p far then some far
  else none

/-- The decimal with the fewest digits in the cell, and of those the one next to its value. -/
def Cell.shortest (cell : Cell) : Decimal :=
  go 17 (magnitude cell.value cell.den - 1)
where
  go : Nat → Int → Decimal
    | 0, p => let (n, d) := inUnits cell.value cell.den p; trim ⟨nearest n d, p⟩
    | fuel + 1, p =>
      match cell.pointOn p with
      | some c => trim ⟨c, p⟩
      | none => go fuel (p - 1)

end Decimal

end Storyworld
