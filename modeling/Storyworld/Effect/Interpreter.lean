import Storyworld.Effect
import Storyworld.Fault

/-!
This module contains the playing of effects: every action is handed to those who carry it out. An
action that fails is passed over, and the others are still played.
-/

namespace Storyworld

/-- Those who carry out actions, each of which may be missing. -/
structure Crew (ρ σ : Type) where
  publish : Option (String → Payload ρ → Act σ Unit) := none
  adjust : Option (String → ρ → Act σ Unit) := none
  note : Option (String → Act σ Unit) := none

namespace Crew

variable {ρ σ : Type} [Scalar ρ]

def announce (crew : Crew ρ σ) (topic : String) (payload : Payload ρ) : Act σ Unit :=
  match crew.publish with
  | some publish => publish topic payload
  | none => return ()

/-- Plays one action; a jump has its target as outcome, the others none. -/
def perform (crew : Crew ρ σ) : Effect ρ → Act σ (Value ρ)
  | .go location scene => do
    let target := Value.target (.text location) (Value.ofText? scene)
    crew.announce Topic.go (.value target)
    return target
  | .trait name delta => do
    if let some adjust := crew.adjust then adjust name delta
    return .null
  | .event token args => do
    if let some note := crew.note then note token
    let payload := Payload.event ⟨token, (Text.cut token).1, args.map .text⟩
    crew.announce (Topic.effect token) payload
    crew.announce token payload
    return .null
  | .time hours => do
    if Scalar.lt Scalar.zero hours then crew.announce Topic.time (.hours hours)
    return .null

/-- Plays actions in order; the last outcome counts, `last` if there is none. -/
def performAll (crew : Crew ρ σ) (last : Value ρ) : List (Effect ρ) → Act σ (Value ρ)
  | [] => return last
  | e :: es => do
    match ← Act.attempt (crew.perform e) with
    | .ok v => crew.performAll (v.orNull last) es
    | .error _ => crew.performAll last es

def interpret (crew : Crew ρ σ) (definition cost : Value ρ) : Act σ (Value ρ) := do
  crew.performAll .null (← Act.lift (Effect.compile definition cost))

end Crew

end Storyworld
