import Storyworld.Value.Text

/-!
This module contains the log of what has happened: tokens in the order of their first time.
-/

namespace Storyworld

/-- The tokens seen so far, each once. -/
structure EventLog where
  tokens : List String := []
deriving DecidableEq, Repr

namespace EventLog

variable {ρ : Type} [Scalar ρ]

def note (log : EventLog) (key : String) : EventLog :=
  if key = "" ∨ key ∈ log.tokens then log else ⟨log.tokens ++ [key]⟩

def noteText (log : EventLog) (token : String) : EventLog := log.note (Text.strip token)

def add (token : Value ρ) : Act EventLog Unit := do
  let key ← Act.lift token.key?
  modify fun log => log.note key

def has (log : EventLog) (token : String) : Bool := log.tokens.contains token

/-- Replaces the log by the items of a list; any other value gives the empty one. -/
def load (tokens : Value ρ) : Act EventLog Unit := do
  set ({} : EventLog)
  tokens.listD.forM add

end EventLog

end Storyworld
