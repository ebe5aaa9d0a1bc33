import Storyworld.Decimal

/-!
This module contains the written forms of decimals: where positional notation ends and what is
written around the digits.
-/

namespace Storyworld

/-- A way to write decimals. -/
structure Layout where
  /-- The least power of ten of a leading digit that is still written in positional notation. -/
  lowest : Int
  /-- The power of ten of a leading digit from which on an exponent is written. -/
  highest : Int
  /-- Whether a whole number keeps a point and a zero. -/
  keepsPoint : Bool
  /-- Whether a single digit in front of an exponent keeps them too. -/
  pointsPowers : Bool := false

namespace Layout

/-- A power of ten: sign and at least two digits. -/
def exponentText (e : Int) : String :=
  let digits := toString e.natAbs
  let padded := if digits.length < 2 then "0" ++ digits else digits
  (if e < 0 then "e-" else "e+") ++ padded

/-- Digits in positional notation, the point behind the first `k` of them. -/
def positional (keepsPoint : Bool) (digits : List Char) (k : Int) : List Char :=
  match k with
  | .negSucc n => '0' :: '.' :: (List.replicate (n + 1) '0' ++ digits)
  | .ofNat n =>
    let whole := digits.take n ++ List.replicate (n - digits.length) '0'
    let whole := if whole.isEmpty then ['0'] else whole
    match digits.drop n with
    | [] => if keepsPoint then whole ++ ['.', '0'] else whole
    | rest => whole ++ '.' :: rest

/-- The text of a decimal that has no zeros at its end. -/
def write (layout : Layout) (negative : Bool) (d : Decimal) : String :=
  let digits := Nat.toDigits 10 d.digits
  let lead := d.exponent + digits.length - 1
  let body :=
    if d.digits = 0 then String.ofList (positional layout.keepsPoint ['0'] 1)
    else if lead < layout.lowest ∨ layout.highest ≤ lead then
      let mantissa :=
        match digits with
        | [c] => if layout.pointsPowers then [c, '.', '0'] else [c]
        | c :: rest => c :: '.' :: rest
        | [] => []
      String.ofList mantissa ++ exponentText lead
    else String.ofList (positional layout.keepsPoint digits (lead + 1))
  if negative then "-" ++ body else body

end Layout

/-- Numbers of the content keep a point, and positional notation reaches from `0.0001` up to
`10 ^ 16`. -/
def Layout.full : Layout where
  lowest := -4
  highest := 16
  keepsPoint := true

/-- Numbers of a status line have no needless point, and positional notation ends at a million. -/
def Layout.brief : Layout where
  lowest := -4
  highest := 6
  keepsPoint := false

/-- Numbers in a slot always have a point, and positional notation ends at `10 ^ 15`. -/
def Layout.kept : Layout where
  lowest := -4
  highest := 15
  keepsPoint := true
  pointsPowers := true

end Storyworld
