/-!
This module contains the halves of pairs: numbers that together stand for one character, and that a
text can also hold alone. Some halves stand for bytes that belong to no character.
-/

namespace Storyworld.Text

def isHigh (n : Nat) : Bool := Nat.ble 0xD800 n && Nat.blt n 0xDC00

def isLow (n : Nat) : Bool := Nat.ble 0xDC00 n && Nat.blt n 0xE000

def isHalf (n : Nat) : Bool := isHigh n || isLow n

def joined (high low : Nat) : Nat := 0x10000 + (high - 0xD800) * 0x400 + (low - 0xDC00)

def strayByte? (n : Nat) : Option UInt8 :=
  if Nat.ble 0xDC80 n && Nat.ble n 0xDCFF then some (n - 0xDC00).toUInt8 else none

def stray (byte : UInt8) : Nat := 0xDC00 + byte.toNat

theorem lt_of_isHalf {n : Nat} (h : isHalf n) : n < 0xE000 := by
  simp only [isHalf, isHigh, isLow, Bool.or_eq_true, Bool.and_eq_true, Nat.blt_eq, Nat.ble_eq] at h
  omega

theorem le_of_isHalf {n : Nat} (h : isHalf n) : 0xD800 ≤ n := by
  simp only [isHalf, isHigh, isLow, Bool.or_eq_true, Bool.and_eq_true, Nat.blt_eq, Nat.ble_eq] at h
  omega

end Storyworld.Text
