import Storyworld.Requirement
import Storyworld.Clock
import Storyworld.EventLog
import Storyworld.Inventory
import Storyworld.Ledger
import Storyworld.Trait

/-!
This module contains the state of play that requirements look at, and the decision whether they
hold. Where the state of play cannot be looked at, a requirement does not stand in the way.
-/

namespace Storyworld

/-- Where a requirement is asked. -/
structure Env (ρ : Type) where
  location : Value ρ := .null
  scene : Value ρ := .null
  npc : Value ρ := .null

/-- A part of the state of play; there may be none, and looking at it may fail. -/
abbrev Access (α : Type) := Option (Except Fault α)

/-- The state of play as requirements see it. -/
structure Scope (ρ : Type) where
  clock : Access (Clock ρ) := none
  traits : Access (TraitBook ρ) := none
  inventory : Access Inventory := none
  log : Access EventLog := none
  ledger : Access (Ledger ρ) := none

namespace Condition

variable {ρ : Type} [Scalar ρ]

/-- The value of a trait for comparisons; zero for a trait that there is not. -/
def traitValue (book : TraitBook ρ) (name : String) : Except Fault ρ :=
  match book.find? name with
  | none => return Scalar.zero
  | some t => do
    let value ← (Value.num t.value).finite?
    return value.getD Scalar.zero

/-- The time that the clock shows; a clock that cannot be looked at shows none. -/
def timeNow? (scope : Scope ρ) : Option (Value ρ) :=
  match scope.clock with
  | some (.ok clock) => some clock.time
  | _ => none

def holds (scope : Scope ρ) (env : Env ρ) : Condition ρ → Except Fault Bool
  | .unknown _ => return true
  | .playerHas item qty =>
    match scope.inventory with
    | none => return false
    | some inventory => do return qty.le (.int ((← inventory).count item))
  | .locationHas item qty =>
    match scope.ledger with
    | none => return false
    | some ledger => do
      if env.location.isGiven then (← ledger).has env.location (.text item) (.num qty)
      else return false
  | .npcIs npc => return (← (env.npc.orElse (.text "")).text?) == npc
  | .sceneIs scene => return (← (env.scene.orElse (.text "")).text?) == scene
  | .daypart .any => return true
  | .daypart part =>
    match scope.clock with
    | none => return true
    | some clock => do return (← (← clock).window) == part.name
  | .hours start none =>
    match timeNow? scope with
    | none => return true
    | some time => do
      match ← time.finite? with
      | none => return true
      | some now => return Scalar.le start now
  | .hours start (some finish) =>
    match timeNow? scope with
    | none => return true
    | some time => Hour.inWindow time (.real start) (.real finish)
  | .seen token =>
    match scope.log with
    | none => return false
    | some log => do return (← log).has token
  | .trait name comparison bound =>
    match scope.traits with
    | none => return comparison.holds (.real Scalar.zero) bound
    | some book => do return comparison.holds (.real (← traitValue (← book) name)) bound

end Condition

namespace Requirement

variable {ρ : Type} [Scalar ρ]

def holds (scope : Scope ρ) (env : Env ρ) (r : Requirement ρ) : Except Fault Bool := do
  let leaf (c : Condition ρ) : Except Fault (Value ρ) := Value.flag <$> c.holds scope env
  return (← r.evaluateWithin roomLimit leaf (throw (.tooDeep ""))).isGiven

/-- Whether a definition lets through. One that cannot be decided does, as long as it has a text by which
it can be told of. -/
def passes (scope : Scope ρ) (env : Env ρ) (definition : Value ρ) : Except Fault Bool :=
  match read definition >>= holds scope env with
  | .ok b => return b
  | .error _ => do
    definition.checkDepth
    return true

end Requirement

end Storyworld
