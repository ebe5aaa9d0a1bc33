import Storyworld.Effect
import Storyworld.Menu
import Storyworld.Scenario

/-!
This module contains the checks of a story in files before it is played: ids that lead nowhere,
values of the wrong kind, requirements and effects that nobody understands.

- `Scenario.findings` lists what is wrong with a story.
- `Scenario.verdict` is what is told of it.
-/

namespace Storyworld

/-- A part of a story. -/
inductive Spot where
  | location (id : String)
  | scene (location : String) (index : Nat)
  | option (location id : String)
  | npc (location id : String)
deriving DecidableEq, Repr

def Spot.text : Spot → String
  | .location id => id
  | .scene place index => s!"{place}.scenes[{index}]"
  | .option place id => s!"{place}.options.{id}"
  | .npc place id => s!"{place}.npcs.{id}"

/-- Something that is wrong with a story. -/
inductive Finding where
  /-- The folder of the locations is not there. -/
  | noFolder (path : String)
  /-- The folder holds no location. -/
  | noLocation (path : String)
  /-- A location has no scenes. -/
  | noScenes (location : String)
  | sceneIsNoObject (scene : Spot)
  | sceneWithoutId (scene : Spot)
  | sceneRepeated (scene : Spot) (id : String)
  | windowUnknown (scene : Spot)
  /-- A bound of the hours of a scene is no number. -/
  | boundUnreadable (scene : Spot) (bound : String)
  | pathIsNoList (scene : Spot)
  /-- A way leads to a location that there is not. -/
  | unknownDestination (spot : Spot) (destination : String)
  | missingOption (spot : Spot) (option : String)
  | missingNpc (spot : Spot) (npc : String)
  /-- The scene that a location starts with is none of its scenes. -/
  | unknownStart (location scene : String)
  | unknownRequirement (spot : Spot) (token : String)
  | malformedEffect (spot : Spot)
deriving DecidableEq, Repr

namespace Finding

def message : Finding → String
  | .noFolder path => s!"Locations directory not found: {path}"
  | .noLocation path => s!"No locations found under {path}"
  | .noScenes location => s!"{location}: scenes must be a non-empty list"
  | .sceneIsNoObject scene => s!"{scene.text} must be an object"
  | .sceneWithoutId scene => s!"{scene.text}.id is required"
  | .sceneRepeated scene id => s!"{scene.text}.id '{id}' is duplicated"
  | .windowUnknown scene => s!"{scene.text}.window must be one of any, day, night"
  | .boundUnreadable scene bound => s!"{scene.text}.{bound} must be a number"
  | .pathIsNoList scene => s!"{scene.text}.path must be a list"
  | .unknownDestination spot destination =>
    s!"{spot.text}.path references unknown location '{destination}'"
  | .missingOption spot option => s!"{spot.text} references missing option '{option}'"
  | .missingNpc spot npc => s!"{spot.text} references missing npc '{npc}'"
  | .unknownStart location scene => s!"{location}.startSceneId '{scene}' is not a declared scene"
  | .unknownRequirement spot token => s!"{spot.text} has unknown requirement '{token}'"
  | .malformedEffect spot => s!"{spot.text} has a malformed effect"

end Finding

namespace Scenario

variable {ρ : Type} [Scalar ρ]

/-- The ids that a part of a story may refer to. -/
structure Known where
  locations : List String
  options : List String := []
  npcs : List String := []

def windows : List String := ["any", "day", "night"]

def unknownAmong (names : List String) (finding : String → Finding) (vs : List (Value ρ)) :
    List Finding :=
  vs.filterMap fun v => if names.contains v.display then none else some (finding v.display)

def windowFindings (spot : Spot) (window : Value ρ) : List Finding :=
  if window.isNull || windows.contains (Text.lower (Text.strip window.display)) then []
  else [.windowUnknown spot]

def boundFindings (spot : Spot) (scene : Record ρ) (bound : String) :
    Except Fault (List Finding) := do
  let v := Record.field scene bound
  if v.isNull then return []
  return if (← v.real?).isSome then [] else [.boundUnreadable spot bound]

def pathFindings (known : Known) (spot : Spot) (path : Value ρ) : List Finding :=
  match path with
  | .null => []
  | .list ds => unknownAmong known.locations (.unknownDestination spot) ds
  | _ => [.pathIsNoList spot]

/-- What is wrong with a scene, its id apart. -/
def sceneFindings (known : Known) (spot : Spot) (scene : Record ρ) :
    Except Fault (List Finding) := do
  let low ← boundFindings spot scene "from"
  let high ← boundFindings spot scene "to"
  let options ← (Record.field scene "optionIds").itemsOr
  let npcs ← (Record.field scene "npcIds").itemsOr
  return windowFindings spot (Record.field scene "window") ++ low ++ high
    ++ pathFindings known spot (Record.field scene "path")
    ++ unknownAmong known.options (.missingOption spot) options
    ++ unknownAmong known.npcs (.missingNpc spot) npcs

/-- The id that a scene declares, stripped; empty for none. -/
def declaredId (scene : Record ρ) : String := (Record.field scene "id").key

/-- What is wrong with the scenes from an index on, and the ids that are declared after those seen
before. -/
def scenesFindings (known : Known) (location : String) :
    Nat → List String → List (Value ρ) → Except Fault (List Finding × List String)
  | _, seen, [] => return ([], seen)
  | i, seen, v :: vs => do
    let spot := Spot.scene location i
    match v with
    | .object scene =>
      let id := declaredId scene
      if id = "" then
        let (later, seen) ← scenesFindings known location (i + 1) seen vs
        return (.sceneWithoutId spot :: later, seen)
      let repeated := if seen.contains id then [Finding.sceneRepeated spot id] else []
      let found ← sceneFindings known spot scene
      let (later, seen) ← scenesFindings known location (i + 1) (seen ++ [id]) vs
      return (repeated ++ found ++ later, seen)
    | _ =>
      let (later, seen) ← scenesFindings known location (i + 1) seen vs
      return (.sceneIsNoObject spot :: later, seen)

def requirementFindings (spot : Spot) (row : Record ρ) : Except Fault (List Finding) := do
  let r ← Requirement.read (Record.field row "requirements")
  return (← r.unknownTokens).map (.unknownRequirement spot)

def optionFindings (location : String) (option : String × Record ρ) :
    Except Fault (List Finding) := do
  let spot := Spot.option location option.1
  let found ← requirementFindings spot option.2
  return found ++ (if ← Effect.isRecognised (Menu.effectOf option.2) then [] else [.malformedEffect spot])

def npcFindings (known : Known) (location : String) (npc : String × Record ρ) :
    Except Fault (List Finding) := do
  let spot := Spot.npc location npc.1
  let options ← (Record.field npc.2 "options").itemsOr
  return (← requirementFindings spot npc.2) ++ unknownAmong known.options (.missingOption spot) options

def startFindings (location : String) (declared : List String) (start : Value ρ) : List Finding :=
  if start.isGiven then unknownAmong declared (.unknownStart location) [start] else []

def locationFindings (read : Reading ρ (Except Fault)) (base : Path) (locations : List String)
    (id : String) : Except Fault (List Finding) := do
  let info ← location read base (.text id)
  match Record.field info "scenes" with
  | .list (scene :: scenes) => do
    let options ← options read base (.text id)
    let npcs ← npcs read base (.text id)
    let known : Known := ⟨locations, Table.names options, Table.names npcs⟩
    let (found, declared) ← scenesFindings known id 0 [] (scene :: scenes)
    let ways ← (Record.field info "path").itemsOr
    let ofOptions ← (options.mergeSort fun a b => (Text.order a.1 b.1).isLE).mapM (optionFindings id)
    let ofNpcs ← npcs.mapM (npcFindings known id)
    return found ++ startFindings id declared (Record.field info "startSceneId")
      ++ unknownAmong locations (.unknownDestination (.location id)) ways
      ++ ofOptions.flatten ++ ofNpcs.flatten
  | _ => return [.noScenes id]

def findings (ρ : Type) [Scalar ρ] (files : Files) (root : Path) : Except Fault (List Finding) := do
  let base := locationsIn root
  files.checkLength base base.size
  if !files.hasFolder base then return [.noFolder base.toText]
  let ids := locationIds files base
  if ids.isEmpty then return [.noLocation base.toText]
  let read : Reading ρ (Except Fault) := fun p default => files.json p default
  return (← ids.mapM (locationFindings read base ids)).flatten

def verdict (found : List Finding) : String :=
  if found.isEmpty then "Scenario content valid.\n"
  else s!"Scenario content invalid ({found.length} errors):\n"
    ++ String.join (found.map fun f => s!"- {f.message}\n")

def exitCode (found : List Finding) : Nat := if found.isEmpty then 0 else 1

end Scenario

end Storyworld
