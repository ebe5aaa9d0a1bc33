import Storyworld.Decimal.Numeral
import Storyworld.Value
import Storyworld.Text.Quoted

/-!
This module contains the writer of JSON texts, on one line or with one item a line. Places have no
JSON form.
-/

namespace Storyworld.Json

variable {ρ : Type} [Scalar ρ]

def escape (c : Char) : List Char :=
  match c with
  | '"' => ['\\', '"']
  | '\\' => ['\\', '\\']
  | '\n' => ['\\', 'n']
  | '\r' => ['\\', 'r']
  | '\t' => ['\\', 't']
  | c =>
    if c.toNat = 8 then ['\\', 'b']
    else if c.toNat = 12 then ['\\', 'f']
    else if c.toNat < 32 then '\\' :: 'u' :: Text.hex 4 c.toNat
    else [c]

def writeText (s : String) : String :=
  String.ofList ('"' :: s.toList.flatMap escape ++ ['"'])

def writeReal (x : ρ) : String :=
  match Scalar.extent x with
  | .finite _ => Scalar.spell x
  | .infinite negative => if negative then "-Infinity" else "Infinity"
  | .undefined => "NaN"

/-- The text of a number; whole numbers with more digits than are read have none. -/
def writeNumber : Number ρ → Except Fault String
  | .flag b => .ok (if b then "true" else "false")
  | .int i =>
    let width := (toString i.natAbs).length
    if Nat.blt Numeral.digitLimit width then .error (.tooManyDigits width) else .ok (toString i)
  | .real x => .ok (writeReal x)

/-- How items are set apart: the step of the indentation, none for a single line. -/
abbrev Indent := Option Nat

def lineBreak : Indent → Nat → String
  | none, _ => ""
  | some step, depth => "\n" ++ String.ofList (List.replicate (step * depth) ' ')

def bracket (indent : Indent) (depth : Nat) (opening closing : String) (items : List String) :
    String :=
  if items.isEmpty then opening ++ closing
  else
    let comma := if indent.isNone then ", " else ","
    opening ++ lineBreak indent (depth + 1)
      ++ String.intercalate (comma ++ lineBreak indent (depth + 1)) items
      ++ lineBreak indent depth ++ closing

mutual

/-- The text of a value at a depth. -/
def writeAt (indent : Indent) (depth : Nat) : Value ρ → Except Fault String
  | .null => .ok "null"
  | .num n => writeNumber n
  | .text s => .ok (writeText s)
  | .list xs => do return bracket indent depth "[" "]" (← writeItems indent (depth + 1) xs)
  | .object ms => do
    return bracket indent depth "\x7b" "\x7d" (← writeMembers indent (depth + 1) ms)
  | .target .. => .error .wrongKind
  | .pointer .. => .error .wrongKind

def writeItems (indent : Indent) (depth : Nat) : List (Value ρ) → Except Fault (List String)
  | [] => .ok []
  | x :: xs => do return (← writeAt indent depth x) :: (← writeItems indent depth xs)

def writeMembers (indent : Indent) (depth : Nat) :
    List (String × Value ρ) → Except Fault (List String)
  | [] => .ok []
  | (k, v) :: ms => do
    return (writeText k ++ ": " ++ (← writeAt indent depth v))
      :: (← writeMembers indent depth ms)

end

def writtenDepth : Nat := 986

/-- The text of a value; stops at one that is nested too deep. -/
def write (indent : Indent) (v : Value ρ) : Except Fault String :=
  if v.isWithin writtenDepth then writeAt indent 0 v
  else .error (.tooDeep " while encoding a JSON object")

end Storyworld.Json
