import Storyworld.Value.Mapping
import Storyworld.Value.Reading
import Storyworld.Value.Text

/-!
This module contains snapshots of a session and the payloads that they are stored as. Anyone may
have written a payload, so reading one passes over the parts that make no sense; the parts of a
snapshot are any values, and writing one may fail.
-/

namespace Storyworld

/-- What is kept of a session. -/
structure Snapshot (ρ : Type) where
  location : Value ρ
  scene : Value ρ := .null
  /-- Pairs of a location and a scene. -/
  history : Value ρ := .list []
  time : Value ρ := .null
  traits : Value ρ := .object []
  events : Value ρ := .list []
  inventory : Value ρ := .object []
  world : Value ρ := .object []
  version : Value ρ := .int 1

namespace Snapshot

variable {ρ : Type} [Scalar ρ]

def formatVersion : Int := 1

def place (location scene : Value ρ) : Value ρ :=
  .object [("locationId", location), ("sceneId", scene)]

def rowPlace (row : Value ρ) : Except Fault (Value ρ) := do
  match ← row.items with
  | [location, scene] => return place location scene
  | _ => throw .unreadable

/-- The parts of a payload; the keys of its mappings are still any values. -/
structure Parts (ρ : Type) where
  pointer : Value ρ
  history : List (Value ρ)
  traits : Mapping ρ
  events : List (Value ρ)
  inventory : Mapping ρ
  world : Mapping ρ
  time : Value ρ

def parts (s : Snapshot ρ) : Except Fault (Parts ρ) := do
  return {
    pointer := place s.location s.scene
    history := ← (← s.history.items).mapM rowPlace
    traits := ← s.traits.toMapping
    events := ← s.events.items
    inventory := ← s.inventory.toMapping
    world := ← s.world.toMapping
    time := s.time }

/-- The payload of its parts; the time is left out where there is none. -/
def Parts.payload (p : Parts ρ) : Except Fault (Value ρ) := do
  let members := [
    ("version", .int formatVersion), ("pointer", p.pointer), ("history", .list p.history),
    ("traits", ← Value.membersOf p.traits), ("domainEvents", .list p.events),
    ("inventory", ← Value.membersOf p.inventory), ("world", ← Value.membersOf p.world)]
  return .object (if p.time.isNull then members else members ++ [("time", p.time)])

def toPayload (s : Snapshot ρ) : Except Fault (Value ρ) := do (← s.parts).payload

/-- The scalar of a finite number; truth values and texts are none. -/
def finite? (v : Value ρ) : Except Fault (Option ρ) :=
  match v with
  | .num (.flag _) => return none
  | .num n => do return some (← n.toReal) |>.filter Scalar.isFinite
  | _ => return none

def rowOf? (v : Value ρ) : Except Fault (Option (Value ρ)) :=
  match v with
  | .object r => do
    let location := Record.field r "locationId"
    if location.isGiven then
      return some (.list [.text (← location.text?), ← (Record.field r "sceneId").given?])
    else return none
  | _ => return none

def historyOf (v : Value ρ) : Except Fault (List (Value ρ)) := do (← v.itemsOr).filterMapM rowOf?

/-- The members of a record that are finite numbers, read by `f`. -/
def numbers (f : Number ρ → ρ → Except Fault (Value ρ)) :
    List (String × Value ρ) → Except Fault (Record ρ)
  | [] => return []
  | (name, v) :: ms => do
    match v, ← finite? v with
    | .num n, some x =>
      let value ← f n x
      return (name, value) :: (← numbers f ms)
    | _, _ => numbers f ms

def traitsOf (r : Record ρ) : Except Fault (Record ρ) := numbers (fun _ x => return .real x) r

def countsOf (r : Record ρ) : Except Fault (Record ρ) :=
  numbers (fun n _ => Value.int <$> n.truncate) r

def eventsOf (v : Value ρ) : Except Fault (List (Value ρ)) := do
  let tokens ← v.listD.mapM Value.text?
  return (tokens.filter fun token => Text.strip token != "").map .text

/-- The version of a payload; the one that is written now stands in for none. -/
def versionOf (v : Value ρ) : Except Fault Int := do
  match ← finite? v with
  | none => return formatVersion
  | some x => if (Number.real x).isZero then return formatVersion else (Number.real x).truncate

def timeOf (v : Value ρ) : Except Fault (Value ρ) := do
  return ((← finite? v).map .real).getD .null

def read (payload pointer : Record ρ) : Except Fault (Snapshot ρ) := do
  let part (name : String) := Record.field payload name
  let history ← historyOf (part "history")
  return {
    location := .text (← (Record.field pointer "locationId").text?)
    scene := ← (Record.field pointer "sceneId").given?
    history := .list history
    time := ← timeOf (part "time")
    traits := .object (← traitsOf (part "traits").recordD)
    events := .list (← eventsOf (part "domainEvents"))
    inventory := .object (← countsOf (part "inventory").recordD)
    world := .object (part "world").recordD
    version := .int (← versionOf (part "version")) }

/-- The snapshot of a payload, none where no location is given. -/
def ofPayload (payload : Value ρ) : Except Fault (Option (Snapshot ρ)) :=
  match payload with
  | .object r =>
    match Record.field r "pointer" with
    | .object pointer =>
      if (Record.field pointer "locationId").isGiven then some <$> read r pointer else return none
    | _ => return none
  | _ => return none

end Snapshot

end Storyworld
