import Storyworld.Text.Digit

/-!
This module contains the reading of numbers from text as people type them: blanks around, a sign,
digits of any script with underscores between them, a point, an exponent, or a word for what is not
finite.
-/

namespace Storyworld

/-- A number as read from a text. -/
inductive Numeral where
  /-- `± digits · 10 ^ exponent` -/
  | decimal (negative : Bool) (digits : Nat) (exponent : Int)
  | infinite (negative : Bool)
  | undefined
deriving DecidableEq, Repr

namespace Numeral

/-- Blanks around a number: those of a typewriter, and all beyond ASCII. -/
def isMargin (c : Char) : Bool :=
  c = ' ' || (Nat.ble 9 c.toNat && Nat.ble c.toNat 13) || (Nat.ble 128 c.toNat && Text.isBlank c)

def plainDigit (c : Char) : Char :=
  match Text.digitValue? c with
  | some d => Char.ofNat (48 + d)
  | none => c

/-- Removes underscores; each has to stand between two digits. -/
def joinGroups (cs : List Char) : Option (List Char) :=
  go false cs
where
  go (afterDigit : Bool) : List Char → Option (List Char)
    | [] => some []
    | '_' :: d :: cs => if afterDigit && d.isDigit then (go true cs).map (d :: ·) else none
    | c :: cs => if c = '_' then none else (go c.isDigit cs).map (c :: ·)

def sign : List Char → Bool × List Char
  | '-' :: cs => (true, cs)
  | '+' :: cs => (false, cs)
  | cs => (false, cs)

def digits (cs : List Char) : List Nat × List Char :=
  ((cs.takeWhile Char.isDigit).map (·.toNat - 48), cs.dropWhile Char.isDigit)

/-- The exponent behind the mantissa, zero where the text ends. -/
def exponent : List Char → Option Int
  | [] => some 0
  | c :: cs =>
    if c = 'e' ∨ c = 'E' then
      let (negative, cs) := sign cs
      match digits cs with
      | ([], _) => none
      | (ds, []) => some (if negative then -(Text.digitsValue ds : Int) else Text.digitsValue ds)
      | _ => none
    else none

/-- A number without sign in positional notation with an optional exponent. -/
def unsigned (negative : Bool) (cs : List Char) : Option Numeral :=
  let (whole, cs) := digits cs
  let (places, cs) :=
    match cs with
    | '.' :: cs => digits cs
    | cs => ([], cs)
  if whole.isEmpty && places.isEmpty then none
  else
    (exponent cs).map fun e =>
      .decimal negative (Text.digitsValue (whole ++ places)) (e - places.length)

def wordValue (negative : Bool) (word : String) : Option Numeral :=
  if word = "inf" ∨ word = "infinity" then some (.infinite negative)
  else if word = "nan" then some .undefined
  else none

def tidy (s : String) : Option (List Char) :=
  joinGroups ((Text.stripBoth isMargin s.toList).map plainDigit)

def read (s : String) : Option Numeral := do
  let cs ← tidy s
  let (negative, cs) := sign cs
  (wordValue negative (Text.lower (String.ofList cs))).orElse fun _ => unsigned negative cs

/-- The longest digit text that is taken for a whole number. -/
def digitLimit : Nat := 4300

/-- The whole number that a text writes, digits only. -/
def readWhole (s : String) : Option Int := do
  let cs ← tidy s
  let (negative, cs) := sign cs
  match digits cs with
  | ([], _) => none
  | (ds, []) =>
    if digitLimit < ds.length then none
    else some (if negative then -(Text.digitsValue ds : Int) else Text.digitsValue ds)
  | _ => none

end Numeral

end Storyworld
