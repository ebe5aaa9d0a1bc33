import Storyworld.Text.Blank

/-!
This module contains the decimal digits of all scripts and the characters that only look like
digits.
-/

namespace Storyworld.Text

/-- The zeros of all scripts; the nine digits after each of them follow in order. -/
def zeros : List Nat :=
  [48, 1632, 1776, 1984, 2406, 2534, 2662, 2790, 2918, 3046, 3174, 3302, 3430, 3558, 3664, 3792,
   3872, 4160, 4240, 6112, 6160, 6470, 6608, 6784, 6800, 6992, 7088, 7232, 7248, 42528, 43216,
   43264, 43472, 43504, 43600, 44016, 65296, 66720, 68912, 69734, 69872, 69942, 70096, 70384,
   70736, 70864, 71248, 71360, 71472, 71904, 72016, 72784, 73040, 73120, 92768, 92864, 93008,
   120782, 120792, 120802, 120812, 120822, 123200, 123632, 125264, 130032]

/-- Characters with a digit value that are no decimal digits: raised, lowered, circled and so on. -/
def fancyDigitRanges : List (Nat × Nat) :=
  [(178, 179), (185, 185), (4969, 4977), (6618, 6618), (8304, 8304), (8308, 8313), (8320, 8329),
   (9312, 9320), (9332, 9340), (9352, 9360), (9450, 9450), (9461, 9469), (9471, 9471),
   (10102, 10110), (10112, 10120), (10122, 10130), (68160, 68163), (69216, 69224),
   (69714, 69722), (127232, 127242)]

def digitValue? (c : Char) : Option Nat :=
  (zeros.find? fun z => Nat.ble z c.toNat && Nat.blt c.toNat (z + 10)).map (c.toNat - ·)

def isDigit (c : Char) : Bool := (digitValue? c).isSome || inRanges fancyDigitRanges c.toNat

/-- The number that digits write which are read in blocks: the blocks so far, and the digits of the next
one with the power of ten that they make room for. -/
structure Blocks where
  whole : Nat := 0
  part : Nat := 0
  room : Nat := 1

namespace Blocks

def full : Nat := Nat.pow 10 15

def value (b : Blocks) : Nat := b.whole * b.room + b.part

def push (b : Blocks) (d : Nat) : Blocks :=
  if b.room < full then { b with part := 10 * b.part + d, room := 10 * b.room } else ⟨b.value, d, 10⟩

theorem value_push (b : Blocks) (d : Nat) : (b.push d).value = 10 * b.value + d := by
  simp only [push]
  split
  . simp only [value, Nat.mul_left_comm b.whole, Nat.mul_add]
    omega
  . simp only [value]
    omega

end Blocks

def digitsValue (ds : List Nat) : Nat := (ds.foldl Blocks.push {}).value

theorem digitsValue_eq_foldl (ds : List Nat) : digitsValue ds = ds.foldl (fun n d => 10 * n + d) 0 := by
  have go (b : Blocks) (ds : List Nat) :
      (ds.foldl Blocks.push b).value = ds.foldl (fun n d => 10 * n + d) b.value := by
    induction ds generalizing b with
    | nil => rfl
    | cons d ds ih => simp [ih, Blocks.value_push]
  exact go {} ds

end Storyworld.Text
