import Storyworld.Text.Quoted

/-!
This module contains the texts of bytes that need not be a text. Bytes are taken apart into
characters and broken pieces; a broken piece is as long as the start of a character that it is.
-/

namespace Storyworld.Text

/-- The bytes that may follow each other inside a character, from the least to the greatest. -/
abbrev Span := UInt8 × UInt8

def continuing : Span := (0x80, 0xBF)

/-- The bytes that have to follow a first byte, none for one that no character starts with. -/
def following? (byte : UInt8) : Option (List Span) :=
  let n := byte.toNat
  if n < 0x80 then some []
  else if n < 0xC2 then none
  else if n < 0xE0 then some [continuing]
  else if n = 0xE0 then some [(0xA0, 0xBF), continuing]
  else if n = 0xED then some [(0x80, 0x9F), continuing]
  else if n < 0xF0 then some [continuing, continuing]
  else if n = 0xF0 then some [(0x90, 0xBF), continuing, continuing]
  else if n < 0xF4 then some [continuing, continuing, continuing]
  else if n = 0xF4 then some [(0x80, 0x8F), continuing, continuing]
  else none

/-- A character, or bytes that are none. -/
inductive Piece where
  | char (c : Char)
  | broken (bytes : List UInt8)
deriving DecidableEq, Repr

def Piece.ofBytes (bytes : List UInt8) : Piece :=
  match ByteArray.utf8DecodeChar? ⟨bytes.toArray⟩ 0 with
  | some c => .char c
  | none => .broken bytes

/-- How far bytes have been taken apart: the pieces so far, and a character that has been started with
the spans of the bytes that it still needs. -/
structure Apart where
  pieces : Array Piece := #[]
  started : List UInt8 := []
  due : List Span := []

namespace Apart

def push (a : Apart) (piece : Piece) : Apart := { pieces := a.pieces.push piece }

def stop (a : Apart) : Apart := if a.started.isEmpty then a else a.push (.broken a.started)

def start (a : Apart) (byte : UInt8) : Apart :=
  match following? byte with
  | none => a.push (.broken [byte])
  | some [] => a.push (Piece.ofBytes [byte])
  | some due => { a with started := [byte], due }

/-- Takes one more byte. -/
def step (a : Apart) (byte : UInt8) : Apart :=
  match a.due with
  | [] => a.start byte
  | (low, high) :: due =>
    if low ≤ byte ∧ byte ≤ high then
      let started := a.started ++ [byte]
      if due.isEmpty then a.push (Piece.ofBytes started) else { a with started, due }
    else a.stop.start byte

end Apart

def pieces (bytes : List UInt8) : List Piece := (bytes.foldl Apart.step {}).stop.pieces.toList

/-- The text of bytes, with the numbers of the characters that stand for a broken piece. -/
def ofPieces (stand : List UInt8 → List Nat) (bytes : List UInt8) : String :=
  ofCodes ((pieces bytes).flatMap fun
    | .char c => [c.toNat]
    | .broken bytes => stand bytes)

/-- The text of bytes; a byte that belongs to no character is written as a number. -/
def ofBytes (bytes : ByteArray) : String :=
  ofPieces (fun bytes => bytes.flatMap fun byte => ('\\' :: 'x' :: hex 2 byte.toNat).map Char.toNat)
    bytes.toList

def mended (bytes : List UInt8) : String := ofPieces (fun _ => [0xFFFD]) bytes

/-- The name that bytes write; a byte that belongs to no character stands as half of a pair. -/
def nameOfBytes (bytes : List UInt8) : String := ofPieces (·.map stray) bytes

/-- The bytes of the character with a number; a half has one where it stands for it, else none. -/
def codeBytes (n : Nat) : List UInt8 :=
  match strayByte? n with
  | some byte => [byte]
  | none => if isHalf n then [] else String.utf8EncodeChar (Char.ofNat n)

def bytesOf (cs : List Char) : List UInt8 := (codesOf cs).flatMap codeBytes

/-- How many bytes a text has. -/
def byteSize (s : String) : Nat := (bytesOf s.toList).length

def toBytes (s : String) : ByteArray := ⟨(bytesOf s.toList).toArray⟩

end Storyworld.Text
