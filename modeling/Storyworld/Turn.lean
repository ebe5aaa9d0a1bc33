import Storyworld.Menu

/-!
This module contains a turn: the scene is shown until something is picked that ends the turn. Talking
and looking into the pack show the scene again, and so does a travel menu that is left without a
pick.
-/

namespace Storyworld

/-- What a turn is played with, on a state of play. -/
structure Stage (ρ S : Type) where
  content : Content ρ S
  scope : S → Scope ρ
  registry : S → Registry ρ
  /-- Plays a definition and the time that it takes. -/
  interpret : Value ρ → Value ρ → Act S (Value ρ)
  /-- The time that a way takes. -/
  scale : Option (Value ρ → Act S (Value ρ)) := none
  pack : Act S (PackView ρ) := return {}

/-- The state of a turn: the play, the person talked to, and the side of the player. -/
structure Turn.Seat (ρ S V : Type) where
  play : S
  npc : Value ρ := .null
  view : V

namespace Turn

variable {ρ S V : Type} [Scalar ρ]

def onPlay {α : Type} (act : Act S α) : Act (Seat ρ S V) α :=
  Act.within Seat.play (fun play s => { s with play }) act

def onView {α : Type} (act : Act V α) : Act (Seat ρ S V) α :=
  Act.within Seat.view (fun view s => { s with view }) act

def stall (stage : Stage ρ S) (s : S) : Stall ρ S :=
  ⟨stage.content, stage.scope s, stage.registry s⟩

def scaledTime (stage : Stage ρ S) (hours : Value ρ) : Act S (Value ρ) :=
  match stage.scale with
  | none => return hours
  | some scale => do
    match ← Act.attempt (scale hours) with
    | .ok v => return v
    | .error _ => return hours

def isId (v : Value ρ) (id : String) : Bool :=
  match v with
  | .text s => s == id
  | _ => false

def leave (stage : Stage ρ S) (choice : Choice ρ) : Act S (Value ρ) := do
  let location := Record.field choice.details "location_id"
  let declared := Record.field choice.details "effect"
  let definition := declared.orElse (.text (goId ++ ":" ++ (← Act.lift location.text?)))
  let time ← scaledTime stage (Record.field choice.details "time")
  let result ← stage.interpret definition time
  return result.orNull (.target location .null)

/-- The travel menu; none where it is left without a pick. -/
def travel (stage : Stage ρ S) (view : View ρ V) (scene : Scene ρ) (base : Record ρ) :
    Act (Seat ρ S V) (Option (Value ρ)) := do
  let seat ← get
  let choices ← onPlay (Menu.pathChoices (stall stage seat.play) scene seat.npc base)
  let picked ← onView (view.showPath (choices.map Choice.toEntry) "Where to?")
  if !picked.isGiven || isId picked backId then return none
  match choices.find? fun c => isId picked c.id with
  | none => return none
  | some choice => some <$> onPlay (leave stage choice)

def behind? (start s : String) : Option String :=
  (Text.behind? start.toList s.toList).map String.ofList

def act (stage : Stage ρ S) (view : View ρ V) (picked : String) (details : Record ρ) :
    Act (Seat ρ S V) (Value ρ) := do
  if (Record.field details "result").isGiven then onView (view.showResult details)
  let definition := (Menu.effectOf details).orNull (.text picked)
  let result ← onPlay (stage.interpret definition (Record.field details "time"))
  return result.orNull (.text picked)

def present (stage : Stage ρ S) (view : View ρ V) (scene : Scene ρ) :
    Act (Seat ρ S V) (List (Choice ρ) × Value ρ) := do
  let seat ← get
  let stall := stall stage seat.play
  let choices ← onPlay (Menu.choices stall scene seat.npc)
  let dto ← onPlay (Menu.sceneView stall scene seat.npc choices)
  return (choices, ← onView (view.showScene dto))

/-- Plays a turn; `fuel` bounds the scenes that are shown. -/
def rounds (stage : Stage ρ S) (view : View ρ V) (scene : Scene ρ) :
    Nat → Act (Seat ρ S V) (Value ρ)
  | 0 => return .null
  | fuel + 1 => do
    let (choices, answer) ← present stage view scene
    if !answer.isGiven then return .null
    let picked ← Act.lift answer.text?
    if let some npc := behind? talkStart picked then
      modify fun s => { s with npc := if npc = "" then .null else .text npc }
      rounds stage view scene fuel
    else if picked = packId then
      onView (view.showPack (← onPlay stage.pack))
      rounds stage view scene fuel
    else
      let found := choices.find? (·.id == picked)
      let details := (found.map Choice.details).getD []
      if picked = exitId ∧ found.isSome ∧ details.isEmpty then return .text exitId
      if picked = goId then
        match ← travel stage view scene details with
        | none => rounds stage view scene fuel
        | some result => return result
      else act stage view picked details

/-- Plays a turn in a scene; the result is a jump, the id that was picked, or null where nothing was
picked. -/
def run (stage : Stage ρ S) (view : View ρ V) (scene : Scene ρ) : Act (Seat ρ S V) (Value ρ) := do
  rounds stage view scene (view.remaining (← get).view + 1)

end Turn

end Storyworld
