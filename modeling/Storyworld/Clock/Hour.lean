import Storyworld.Value.Order
import Storyworld.Value.Reading

/-!
This module contains hours of the day: their reduction to a cycle, windows of hours, and their text.
-/

namespace Storyworld.Hour

variable {ρ : Type} [Scalar ρ]

def perDay : Value ρ := .int 24

/-- The hour reduced to `[0, cycle)` for a positive cycle; none for what is no finite number. The
cycle has to be a number. -/
def normalize? (hour cycle : Value ρ) : Except Fault (Option ρ) := do
  match ← hour.finite? with
  | none => return none
  | some h =>
    let c ← (← cycle.operand).toReal
    if (Number.real c).isZero then throw .divisionByZero
    let reduced := Scalar.mod (Scalar.add (Scalar.mod h c) c) c
    return some (if Scalar.le c reduced then Scalar.sub reduced c else reduced)

def tolerance : ρ := Scalar.ofDecimal false 1 (-9)

def meets (a b : ρ) : Bool := Scalar.lt (Scalar.gap a b) tolerance

/-- Whether an hour of the day lies in the window from `start` up to `finish`, which runs past
midnight where it starts after it ends; a window without length holds its one hour. -/
def within (now start finish : ρ) : Bool :=
  if meets start finish then meets now start
  else if Scalar.lt start finish then Scalar.le start now && Scalar.lt now finish
  else Scalar.le start now || Scalar.lt now finish

/-- Whether an hour lies in a window of hours. A bound that is no number never blocks. -/
def inWindow (now start finish : Value ρ) : Except Fault Bool := do
  let now ← normalize? now perDay
  let start ← normalize? start perDay
  let finish ← normalize? finish perDay
  match now, start, finish with
  | some now, some start, some finish => return within now start finish
  | _, _, _ => return true

def twoDigits (n : Int) : String :=
  let digits := toString n
  if digits.length < 2 then "0" ++ digits else digits

/-- The minutes of an hour, rounded; none for what is no number. -/
def minutes? (hour : Value ρ) : Except Fault (Option Int) :=
  Value.unlessUnreadable do
    let h ← hour.toReal
    let sixty ← (Number.int 60).toReal
    match Scalar.extent (Scalar.mul h sixty) with
    | .finite q => return Rat.nearest q
    | .infinite _ => throw .infiniteWhole
    | .undefined => throw .unreadable

/-- The hour on the face of a clock; midnight for what is no number. -/
def format (hour : Value ρ) : Except Fault String := do
  let total := (← minutes? hour).getD 0
  return twoDigits (Int.fmod (Int.fdiv total 60) 24) ++ ":" ++ twoDigits (Int.fmod total 60)

end Storyworld.Hour
