import Storyworld.View

/-!
This module contains a player whose answers are known beforehand, and who writes down what is shown.
-/

namespace Storyworld

/-- Something that was shown. -/
inductive Shown (ρ : Type) where
  | scene (dto : SceneView ρ)
  | path (title : String) (entries : List (PathEntry ρ))
  | pack (dto : PackView ρ)
  | result (v : Value ρ)
  | time (dto : TimeView ρ)
  | message (text : String)

/-- The answers to scenes and to travel menus that are still to come, and what was shown so far. -/
structure Script (ρ : Type) where
  picks : List (Value ρ) := []
  pathPicks : List (Value ρ) := []
  shown : List (Shown ρ) := []

namespace Script

variable {ρ : Type}

def write (s : Script ρ) (what : Shown ρ) : Script ρ := { s with shown := s.shown ++ [what] }

/-- The view of a scripted player; without answers it answers null. -/
def view : View ρ (Script ρ) where
  showScene dto := .of fun s =>
    (.ok (s.picks.headD .null), { s.write (.scene dto) with picks := s.picks.tail })
  showPath entries title := .of fun s =>
    (.ok (s.pathPicks.headD .null),
      { s.write (.path title entries) with pathPicks := s.pathPicks.tail })
  showPack dto := modify (·.write (.pack dto))
  showMessage text := modify (·.write (.message text))
  showResult row := modify (·.write (.result (Record.field row "result")))
  showTime dto := modify (·.write (.time dto))
  remaining s := s.picks.length

theorem view_finite [Scalar ρ] : (view : View ρ (Script ρ)).Finite where
  scene_lt dto v a h hg := by
    cases hp : v.picks with
    | nil =>
      simp [view, hp] at h
      subst h
      simp [Value.isGiven] at hg
    | cons p ps => simp [view, hp]
  path_le _ _ _ := by simp [view, write]
  pack_le _ _ := Nat.le_refl _
  result_le _ _ := Nat.le_refl _
  time_le _ _ := Nat.le_refl _

end Script

end Storyworld
