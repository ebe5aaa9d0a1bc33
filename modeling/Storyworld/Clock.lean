import Storyworld.Clock.Hour

/-!
This module contains the clock of a day of play. The day starts at one hour and is over when the
clock comes to another; the clock then stands at that hour.
-/

namespace Storyworld

/-- How a day is cut. Content may put any values here; they matter only when they are compared. -/
structure DayPlan (ρ : Type) where
  /-- The hours after which the clock starts again at zero. -/
  cycle : Value ρ := .int 24
  nightStart : Value ρ := .int 21
  nightEnd : Value ρ := .int 5

def DayPlan.isDay {ρ : Type} [Scalar ρ] (plan : DayPlan ρ) (hour : Value ρ) : Except Fault Bool := do
  if ← plan.nightEnd.atMost hour then hour.less plan.nightStart else return false

/-- What the clock tells its listeners. -/
structure ClockChange (ρ : Type) where
  time : Value ρ
  ended : Bool

/-- A clock. It starts at any value, and has hours from the first time that it is set. -/
structure Clock (ρ : Type) where
  plan : DayPlan ρ := {}
  start : Value ρ := .int 9
  /-- The hour at which the day is over. -/
  finish : Value ρ := .int 5
  time : Value ρ := start
  ended : Bool := false
  /-- Who is told of changes, in order and each once. -/
  listeners : List String := []

namespace Clock

variable {ρ : Type} [Scalar ρ]

instance : Inhabited (Clock ρ) := ⟨{}⟩

def new (start finish : Value ρ) (plan : DayPlan ρ) : Clock ρ :=
  { plan, start, finish, time := start }

def crosses (start finish hour : Value ρ) : Except Fault Bool := do
  if ← start.less finish then
    if ← finish.atMost hour then return true
  if ← finish.less start then
    if ← finish.atMost hour then hour.less start else return false
  else return false

def isDay (c : Clock ρ) : Except Fault Bool := c.plan.isDay c.time

def window (c : Clock ρ) : Except Fault String := do
  return if ← c.isDay then "day" else "night"

def notices (c : Clock ρ) (change : ClockChange ρ) : List (String × ClockChange ρ) :=
  c.listeners.map (·, change)

/-- Sets the clock to an hour, or to the end of the day where that lies before the hour. What is no
number changes nothing. The result tells who is told what. -/
def set (hour : Value ρ) : Act (Clock ρ) (List (String × ClockChange ρ)) := do
  let c ← get
  match ← Act.lift (Hour.normalize? hour c.plan.cycle) with
  | none => return []
  | some h =>
    if ← Act.lift (crosses c.start c.finish (.real h)) then
      MonadStateOf.set { c with time := c.finish, ended := true }
      return c.notices ⟨c.finish, true⟩
    else if c.time.same (.real h) then return []
    else
      MonadStateOf.set { c with time := .real h }
      return c.notices ⟨.real h, false⟩

def tick (hours : Value ρ) : Act (Clock ρ) (List (String × ClockChange ρ)) := do
  let c ← get
  set (← Act.lift (c.time.plus hours))

/-- Puts the clock to an hour of a day that is not over; what is no number changes nothing. -/
def restore (hour : Value ρ) : Act (Clock ρ) Unit := do
  let c ← get
  match ← Act.lift (Hour.normalize? hour c.plan.cycle) with
  | none => pure ()
  | some h => modify fun c => { c with time := .real h, ended := false }

def reset : Act (Clock ρ) (List (String × ClockChange ρ)) := do
  modify fun c => { c with ended := false }
  let told ← set (← get).start
  modify fun c => { c with listeners := [] }
  return told

def subscribe (name : String) (c : Clock ρ) : Clock ρ :=
  if c.listeners.contains name then c else { c with listeners := c.listeners ++ [name] }

def unsubscribe (name : String) (c : Clock ρ) : Clock ρ :=
  { c with listeners := c.listeners.filter (· != name) }

def clearListeners (c : Clock ρ) : Clock ρ := { c with listeners := [] }

end Clock

end Storyworld
