import Storyworld.Fault
import Storyworld.Text.Code
import Storyworld.Text.Token
import Storyworld.Value.Reading

/-!
This module contains the reader of JSON texts. A name that comes twice keeps its first place and its
last value; a number without point and exponent is whole and may have any size up to the limit on
digits; the words for numbers that are not finite are read too. There is a limit on how
deep a value may be nested.
-/

namespace Storyworld.Json

variable {ρ : Type} [Scalar ρ]

def isSpace (c : Char) : Bool := c = ' ' || c = '\n' || c = '\r' || c = '\t'

def skipSpace (cs : List Char) : List Char := cs.dropWhile isSpace

/-- The character behind a backslash, the numbered ones apart. -/
def escaped? (c : Char) : Option Char :=
  match c with
  | '"' => some '"'
  | '\\' => some '\\'
  | '/' => some '/'
  | 'b' => some '\x08'
  | 'f' => some '\x0c'
  | 'n' => some '\n'
  | 'r' => some '\r'
  | 't' => some '\t'
  | _ => none

/-- A part of a text: a character as it is kept, or a number, which may be half of a pair. -/
inductive Part where
  | char (c : Char)
  | unit (n : Nat)
deriving DecidableEq, Repr

/-- The characters of parts; two numbers that belong together are one character. -/
def Part.chars : List Part → List Char
  | [] => []
  | .char c :: ps => c :: chars ps
  | .unit h :: .unit l :: ps =>
    if Text.isHigh h && Text.isLow l then Text.keep (Text.joined h l) ++ chars ps
    else Text.keep h ++ chars (.unit l :: ps)
  | .unit n :: ps => Text.keep n ++ chars ps

/-- The parts up to the closing mark, and what follows it. -/
def parts : List Char → Option (List Part × List Char)
  | [] => none
  | '"' :: cs => some ([], cs)
  | '\\' :: 'u' :: a :: b :: c :: d :: cs => do
    let n := 4096 * (← Text.hexValue? a) + 256 * (← Text.hexValue? b) + 16 * (← Text.hexValue? c) + (← Text.hexValue? d)
    let (ps, rest) ← parts cs
    some (.unit n :: ps, rest)
  | '\\' :: c :: cs => do
    let c ← escaped? c
    let (ps, rest) ← parts cs
    some (.char c :: ps, rest)
  | c :: cs =>
    if c.toNat < 32 ∨ c = '\\' then none
    else do
      let (ps, rest) ← parts cs
      some (.char c :: ps, rest)

def text (cs : List Char) : Option (String × List Char) :=
  (parts cs).map fun (ps, rest) => (String.ofList (Part.chars ps), rest)

def places : List Char → Option (List Nat × List Char)
  | '.' :: cs =>
    match Numeral.digits cs with
    | ([], _) => none
    | found => some found
  | _ => none

/-- An exponent, none where no digit follows. -/
def exponent : List Char → Option (Int × List Char)
  | c :: cs =>
    if c = 'e' ∨ c = 'E' then
      let (negative, cs) := Numeral.sign cs
      match Numeral.digits cs with
      | ([], _) => none
      | (ds, rest) =>
        let n : Int := Text.digitsValue ds
        some (if negative then -n else n, rest)
    else none
  | [] => none

/-- The digits of a whole part: a zero stands alone. -/
def wholePart : List Char → List Nat × List Char
  | '0' :: cs => ([0], cs)
  | cs => Numeral.digits cs

/-- A number behind its sign. -/
def number (negative : Bool) (cs : List Char) : Option (Number ρ × List Char) :=
  match wholePart cs with
  | ([], _) => none
  | (whole, cs) =>
    let (parts, rest) := (places cs).getD ([], cs)
    let (power, last) := (exponent rest).getD (0, rest)
    if parts.isEmpty && last.length == cs.length then
      if Numeral.digitLimit < whole.length then none
      else
        let n : Int := Text.digitsValue whole
        some (.int (if negative then -n else n), last)
    else
      let digits := Text.digitsValue (whole ++ parts)
      some (.real (Scalar.ofDecimal negative digits (power - parts.length)), last)

def word (cs : List Char) : Option (Value ρ × List Char) :=
  let spelt (w : String) (v : Option (Value ρ)) : Option (Value ρ × List Char) := do
    let rest ← Text.behind? w.toList cs
    some (← v, rest)
  spelt "null" (some .null)
  <|> spelt "true" (some (.flag true))
  <|> spelt "false" (some (.flag false))
  <|> spelt "NaN" (Scalar.undefined?.map .real)
  <|> spelt "Infinity" ((Scalar.infinity? false).map .real)
  <|> spelt "-Infinity" ((Scalar.infinity? true).map .real)

def leaf (cs : List Char) : Option (Value ρ × List Char) :=
  word cs <|> ((match cs with
    | '-' :: cs => number true cs
    | cs => number false cs).map fun (n, rest) => (.num n, rest))

/-- Why a text is no value. -/
inductive Flaw where
  /-- The text is not JSON. -/
  | malformed
  /-- More brackets are open than there is room for; the last of them opens a list or an object. -/
  | tooDeep (kind : String)
deriving DecidableEq, Repr

def orMalformed {α : Type} (found : Option α) : Except Flaw α :=
  (found.map Except.ok).getD (.error .malformed)

/-- The room behind an opening bracket. -/
def Flaw.enter (kind : String) : Nat → Except Flaw Nat
  | 0 => .error (.tooDeep kind)
  | room + 1 => .ok room

mutual

/-- The value at the front and what follows it. There is room for so many open brackets, and `fuel`
bounds the steps. -/
def value (fuel room : Nat) (cs : List Char) : Except Flaw (Value ρ × List Char) :=
  match fuel with
  | 0 => .error .malformed
  | fuel + 1 =>
    match skipSpace cs with
    | '"' :: cs => do
      let (s, rest) ← orMalformed (text cs)
      return (.text s, rest)
    | '[' :: cs => do
      let room ← Flaw.enter "array" room
      match skipSpace cs with
      | ']' :: rest => return (.list [], rest)
      | cs =>
        let (xs, rest) ← items fuel room cs
        return (.list xs, rest)
    | '\x7b' :: cs => do
      let room ← Flaw.enter "object" room
      match skipSpace cs with
      | '\x7d' :: rest => return (.object [], rest)
      | cs =>
        let (ms, rest) ← members fuel room cs
        return (.object (Table.ofList ms), rest)
    | cs => orMalformed (leaf cs)

def items (fuel room : Nat) (cs : List Char) : Except Flaw (List (Value ρ) × List Char) :=
  match fuel with
  | 0 => .error .malformed
  | fuel + 1 => do
    let (x, rest) ← value fuel room cs
    match skipSpace rest with
    | ',' :: rest =>
      let (xs, rest) ← items fuel room rest
      return (x :: xs, rest)
    | ']' :: rest => return ([x], rest)
    | _ => .error .malformed

def members (fuel room : Nat) (cs : List Char) :
    Except Flaw (List (String × Value ρ) × List Char) :=
  match fuel with
  | 0 => .error .malformed
  | fuel + 1 =>
    match skipSpace cs with
    | '"' :: cs => do
      let (k, rest) ← orMalformed (text cs)
      match skipSpace rest with
      | ':' :: rest =>
        let (v, rest) ← value fuel room rest
        match skipSpace rest with
        | ',' :: rest =>
          let (ms, rest) ← members fuel room rest
          return ((k, v) :: ms, rest)
        | '\x7d' :: rest => return ([(k, v)], rest)
        | _ => .error .malformed
      | _ => .error .malformed
    | _ => .error .malformed

end

/-- How many brackets may be open at a time. -/
def depthLimit : Nat := 986

/-- The value that a text writes, none where it is not JSON; stops where too many brackets are open. -/
def read (s : String) : Except Fault (Option (Value ρ)) :=
  let cs := s.toList
  match value (cs.length + 2) depthLimit cs with
  | .ok (v, rest) => .ok (if (skipSpace rest).isEmpty then some v else none)
  | .error .malformed => .ok none
  | .error (.tooDeep kind) => .error (.tooDeep s!" while decoding a JSON {kind} from a unicode string")

end Storyworld.Json
