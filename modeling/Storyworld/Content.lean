import Storyworld.Fault
import Storyworld.Value.Text

/-!
This module contains what a story is told from: sources of locations, options, people and items. A
source may fail to read what it is asked for, and it may keep what it has read.
-/

namespace Storyworld

/-- The sources of a story; `σ` is the state that they keep. -/
structure Content (ρ σ : Type) where
  location : Value ρ → Act σ (Value ρ) := fun _ => return .object []
  option? : String → String → Act σ (Option (Record ρ)) := fun _ _ => return none
  npc? : String → String → Act σ (Option (Record ρ)) := fun _ _ => return none
  npcs : String → Act σ (List (Record ρ)) := fun _ => return []
  item? : String → Act σ (Option (Record ρ)) := fun _ => return none

namespace Content

variable {ρ σ τ : Type} [Scalar ρ]

def within (part : τ → σ) (put : σ → τ → τ) (content : Content ρ σ) : Content ρ τ where
  location id := Act.within part put (content.location id)
  option? location id := Act.within part put (content.option? location id)
  npc? location id := Act.within part put (content.npc? location id)
  npcs location := Act.within part put (content.npcs location)
  item? id := Act.within part put (content.item? id)

def options (content : Content ρ σ) (location : String) : List String → Act σ (List (Record ρ))
  | [] => return []
  | id :: ids => do
    let found ← content.option? location id
    return found.toList ++ (← options content location ids)

def optionsOf (content : Content ρ σ) (location npc : String) : Act σ (List String) := do
  match ← content.npc? location npc with
  | none => return []
  | some row => Act.lift ((Record.field row "options").listD.mapM Value.text?)

/-- What the content says of an item; what cannot be read is null. -/
def lookup (content : Content ρ σ) (item : String) : Act σ (Value ρ) := do
  match ← Act.attempt (content.item? item) with
  | .ok (some row) => return .object row
  | _ => return .null

end Content

end Storyworld
