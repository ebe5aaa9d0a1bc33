import Storyworld.Value

/-!
This module contains what is published while a story is played.
-/

namespace Storyworld

/-- Something that happened in the story: a token with its words. -/
structure DomainEvent (ρ : Type) where
  token : String
  head : String
  args : List (Value ρ)

/-- What comes with a published topic. -/
inductive Payload (ρ : Type) where
  | value (v : Value ρ)
  /-- Time goes by. -/
  | hours (h : ρ)
  | event (e : DomainEvent ρ)

def Topic.go : String := "go"

def Topic.time : String := "time"

def Topic.effect (token : String) : String := "effect:" ++ token

end Storyworld
