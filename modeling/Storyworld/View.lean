import Storyworld.Fault
import Storyworld.Registry
import Storyworld.Value.Text

/-!
This module contains what the player is shown and how the player answers.
-/

namespace Storyworld

/-- Something that can be picked, with what the content says of it. -/
structure Choice (ρ : Type) where
  id : String
  name : String
  details : Record ρ := []

/-- A way of the travel menu as it is shown. -/
structure PathEntry (ρ : Type) where
  id : Value ρ
  name : Value ρ
  details : Value ρ := .object []

def Choice.toEntry {ρ : Type} (c : Choice ρ) : PathEntry ρ := ⟨.text c.id, .text c.name, .object c.details⟩

/-- The person that is being talked to. -/
structure NpcPanel (ρ : Type) where
  id : Value ρ
  name : String
  description : String := ""
  dialogue : String := ""

/-- A scene as it is shown. -/
structure SceneView (ρ : Type) where
  location : LocationView ρ
  scene : String
  description : List String := []
  npc : Option (NpcPanel ρ) := none
  /-- The ids and the names of what can be picked. -/
  options : List (Value ρ × String) := []
  /-- Why the options break off, where what follows them is no pair of an id and a name. -/
  flaw : Option Fault := none

/-- A carried item as it is shown. -/
structure ItemView (ρ : Type) where
  id : Value ρ
  name : Value ρ
  quantity : Value ρ
  description : Value ρ := .text ""

/-- The pack as it is shown. -/
structure PackView (ρ : Type) where
  items : List (ItemView ρ) := []
  speed : Value ρ := .int 1

/-- The time as it is shown. -/
structure TimeView (ρ : Type) where
  time : Value ρ
  label : String
  window : String
  ended : Bool := false

/-- The side of the player: what is shown, and the answers to it. An answer that does not count as
given is none. -/
structure View (ρ V : Type) where
  showScene : SceneView ρ → Act V (Value ρ)
  showPath : List (PathEntry ρ) → String → Act V (Value ρ)
  showPack : PackView ρ → Act V Unit
  showMessage : String → Act V Unit
  showResult : Record ρ → Act V Unit
  showTime : TimeView ρ → Act V Unit
  /-- A bound on the answers that are still to come. -/
  remaining : V → Nat

namespace View

variable {ρ V : Type}

/-- Each scene that is answered uses up an answer, and nothing brings answers back. -/
structure Finite [Scalar ρ] (view : View ρ V) : Prop where
  scene_lt : ∀ dto v, ∀ a, (Act.run (view.showScene dto) v).1 = .ok a → a.isGiven = true →
    view.remaining (Act.run (view.showScene dto) v).2 < view.remaining v
  path_le : ∀ cs title v, view.remaining (Act.run (view.showPath cs title) v).2 ≤ view.remaining v
  pack_le : ∀ dto v, view.remaining (Act.run (view.showPack dto) v).2 ≤ view.remaining v
  result_le : ∀ r v, view.remaining (Act.run (view.showResult r) v).2 ≤ view.remaining v
  time_le : ∀ dto v, view.remaining (Act.run (view.showTime dto) v).2 ≤ view.remaining v

end View

end Storyworld
