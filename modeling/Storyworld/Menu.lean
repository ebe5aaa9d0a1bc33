import Storyworld.Content
import Storyworld.Requirement.Scope
import Storyworld.Scene
import Storyworld.View

/-!
This module contains the menus of a scene: who can be talked to, what can be done and where the path
leads, as far as requirements let through.
-/

namespace Storyworld

def packId : String := "inventory"

def exitId : String := "exit"

def goId : String := "go"

def backId : String := "back"

def talkStart : String := "talk:"

def talkMark : String := " ✓"

/-- What menus are built from. -/
structure Stall (ρ σ : Type) where
  content : Content ρ σ
  scope : Scope ρ
  registry : Registry ρ

namespace Menu

variable {ρ σ : Type} [Scalar ρ]

def label (row : Record ρ) (fallback : String) : Except Fault String :=
  ((((Record.field row "name").orElse (Record.field row "title")).orElse
    (Record.field row "label")).orElse (.text fallback)).text?

def effectOf (row : Record ρ) : Value ρ :=
  (Record.field row "effects").orNull (Record.field row "effect")

def envOf (scene : Scene ρ) (npc : Value ρ) : Env ρ := ⟨.text scene.location, .text scene.id, npc⟩

def open? (stall : Stall ρ σ) (env : Env ρ) (row : Record ρ) : Except Fault Bool :=
  Requirement.passes stall.scope env (Record.field row "requirements")

def people (content : Content ρ σ) (location : String) : List String → Act σ (List (Record ρ))
  | [] => return []
  | id :: ids => do
    let found ← content.npc? location id
    return found.toList ++ (← people content location ids)

/-- The people of a scene: those that it names, or all of its location. -/
def sceneNpcs (content : Content ρ σ) (scene : Scene ρ) : Act σ (List (Record ρ)) := do
  if scene.npcs.isEmpty then
    return (← content.npcs scene.location).filter fun row => (Record.field row "id").isGiven
  else people content scene.location scene.npcs

def rowId (row : Record ρ) : Except Fault String := ((Record.field row "id").orElse (.text "")).text?

def isCurrent (npc : Value ρ) (id : String) : Bool :=
  match npc with
  | .text s => s == id
  | _ => false

/-- The choice to talk to someone, if requirements let through. -/
def talkChoice (stall : Stall ρ σ) (env : Env ρ) (row : Record ρ) :
    Except Fault (Option (Choice ρ)) := do
  let id ← rowId row
  if id = "" then return none
  if !(← open? stall env row) then return none
  let name := "Talk: " ++ (← ((Record.field row "name").orElse (.text id)).text?)
  return some ⟨talkStart ++ id, if isCurrent env.npc id then name ++ talkMark else name,
    [("npc", .object row)]⟩

def optionChoice (stall : Stall ρ σ) (env : Env ρ) (row : Record ρ) :
    Except Fault (Option (Choice ρ)) := do
  let id ← rowId row
  if id = "" then return none
  if !(← open? stall env row) then return none
  return some ⟨id, ← label row id, row⟩

def optionChoices (stall : Stall ρ σ) (env : Env ρ) (location : String) (ids : List String) :
    Act σ (List (Choice ρ)) := do
  let rows ← stall.content.options location ids
  Act.lift (rows.filterMapM (optionChoice stall env))

def distinct (choices : List (Choice ρ)) : List (Choice ρ) :=
  choices.foldl (fun seen c => if seen.any (·.id == c.id) then seen else seen ++ [c]) []

/-- Whether the options of the person talked to are offered; they are not where the scene names
others only. -/
def speaks (scene : Scene ρ) (npc : Value ρ) : Bool :=
  npc.isGiven && (scene.npcs.isEmpty || scene.npcs.any (isCurrent npc))

/-- The choices of a scene before an id that comes twice is left out: people, the options of the one
talked to, those of the scene, the pack and the exit. -/
def entries (stall : Stall ρ σ) (scene : Scene ρ) (npc : Value ρ) : Act σ (List (Choice ρ)) := do
  let env := envOf scene npc
  let people ← sceneNpcs stall.content scene
  let talks ← Act.lift (people.filterMapM (talkChoice stall env))
  let offered ←
    if speaks scene npc then do
      let ids ← stall.content.optionsOf scene.location (← Act.lift npc.text?)
      optionChoices stall env scene.location ids
    else pure []
  let own ← optionChoices stall env scene.location scene.options
  return talks ++ offered ++ own ++ [⟨packId, "Inventory", []⟩, ⟨exitId, "Exit", []⟩]

def choices (stall : Stall ρ σ) (scene : Scene ρ) (npc : Value ρ) : Act σ (List (Choice ρ)) := do
  return distinct (← entries stall scene npc)

/-- The choice to travel to a registered location, if requirements let through. Where its option
names no time, that of the travel option counts. -/
def pathChoice (stall : Stall ρ σ) (scene : Scene ρ) (env : Env ρ) (base : Record ρ)
    (location : String) : Act σ (Option (Choice ρ)) := do
  match Table.get? stall.registry location with
  | none => return none
  | some view =>
    let id := goId ++ ":" ++ location
    let row := (← stall.content.option? scene.location id).getD []
    if !(← Act.lift (open? stall env row)) then return none
    let time := ((Record.field row "time").orNull (Record.field base "time")).orNull (.int 0)
    return some ⟨id, ← Act.lift (label row view.name),
      [("location_id", .text location), ("effect", effectOf row), ("time", time)]⟩

def pathChoicesTo (stall : Stall ρ σ) (scene : Scene ρ) (env : Env ρ) (base : Record ρ) :
    List String → Act σ (List (Choice ρ))
  | [] => return []
  | location :: rest => do
    let choice ← pathChoice stall scene env base location
    return choice.toList ++ (← pathChoicesTo stall scene env base rest)

def pathChoices (stall : Stall ρ σ) (scene : Scene ρ) (npc : Value ρ) (base : Record ρ) :
    Act σ (List (Choice ρ)) :=
  pathChoicesTo stall scene (envOf scene npc) base scene.path

def openingLine (row : Record ρ) : Except Fault String :=
  match Record.field row "dialogue" with
  | .text s => return s
  | .list (line :: _) => line.text?
  | .object d =>
    (((Record.field d "opening").orElse (Record.field d "greeting")).orElse (.text "")).text?
  | _ => return ""

def panelOf (npc : Value ρ) (row : Record ρ) : Except Fault (NpcPanel ρ) := do
  return {
    id := npc
    name := ← ((Record.field row "name").orElse npc).text?
    description := ← ((Record.field row "description").orElse (.text "")).text?
    dialogue := ← openingLine row }

def npcPanel (content : Content ρ σ) (scene : Scene ρ) (npc : Value ρ) :
    Act σ (Option (NpcPanel ρ)) := do
  if !npc.isGiven then return none
  match ← content.npc? scene.location (← Act.lift npc.text?) with
  | none => return none
  | some row => some <$> Act.lift (panelOf npc row)

/-- A scene with its choices, as shown. -/
def sceneView (stall : Stall ρ σ) (scene : Scene ρ) (npc : Value ρ) (choices : List (Choice ρ)) :
    Act σ (SceneView ρ) := do
  return {
    location := (Table.get? stall.registry scene.location).getD ⟨scene.location, scene.location, .null⟩
    scene := scene.id
    description := scene.description.shown
    npc := ← npcPanel stall.content scene npc
    options := choices.map fun c => (.text c.id, c.name) }

end Menu

end Storyworld
