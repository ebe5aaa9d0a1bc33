import Storyworld.Fault
import Storyworld.Value.Text

/-!
This module contains the registry of the locations that the player has come near to.
-/

namespace Storyworld

/-- A location as it is shown. -/
structure LocationView (ρ : Type) where
  id : String
  name : String
  background : Value ρ := .null

abbrev Registry (ρ : Type) := Table (LocationView ρ)

namespace Registry

variable {ρ : Type} [Scalar ρ]

/-- Registers a location, unless it is there; what is there stays as it is. -/
def ensure (location title background : Value ρ) : Act (Registry ρ) (LocationView ρ) := do
  let key ← Act.lift location.key?
  if key = "" then throw .locationRequired
  let registry ← get
  match Table.get? registry key with
  | some view => return view
  | none =>
    let name ← Act.lift (title.orElse (.text key)).text?
    let view : LocationView ρ := ⟨key, name, background⟩
    set (Table.set registry key view)
    return view

def view (registry : Registry ρ) (location : String) : Except Fault (LocationView ρ) :=
  match Table.get? registry location with
  | some view => .ok view
  | none => .error (.notRegistered location)

end Registry

end Storyworld
