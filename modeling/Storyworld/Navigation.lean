import Storyworld.Clock
import Storyworld.Registry
import Storyworld.Scene
import Storyworld.Text.Token
import Storyworld.Value.Mapping

/-!
This module contains the navigation of the player: the pointer, the history of the places it was
moved to, and the rules by which a request, an outcome of a turn or the time of day decides on a
scene.
-/

namespace Storyworld

/-- The locations that there are, and which scenes may be played now; without a clock all may. `σ`
is the state of the source of the locations. -/
structure Atlas (ρ σ : Type) where
  location : Value ρ → Act σ (Value ρ)
  allows : Option (Record ρ → Except Fault Bool) := none

/-- Where the player stands and has been, and the locations that have been come near to. -/
structure Navigation (ρ : Type) where
  pointer : Option (Pointer ρ) := none
  history : List (Pointer ρ) := []
  registry : Registry ρ := []

namespace Atlas

variable {ρ σ : Type} [Scalar ρ]

/-- Whether a clock allows a scene: by the window that it names, or by its hours. -/
def openAt (clock : Clock ρ) (scene : Record ρ) : Except Fault Bool := do
  let window := Text.lower (← (Record.field scene "window").key?)
  if window = "any" then return true
  if window = "day" ∨ window = "night" then return (← clock.window) == window
  let start := Record.field scene "from"
  let finish := Record.field scene "to"
  if start.isNull && finish.isNull then return true
  Hour.inWindow clock.time start finish

def scenes (info : Record ρ) : List (Record ρ) :=
  (Record.field info "scenes").listD.filterMap fun v =>
    v.record?.filter fun r => (Record.field r "id").isGiven

def sceneId (scene : Record ρ) : String := (Record.field scene "id").display

def find? (info : Record ρ) (id : Value ρ) : Option (Record ρ) :=
  if id.isGiven then (scenes info).find? fun s => sceneId s == id.display else none

/-- The scenes that are looked at until the one of an id is found. -/
def lookedAt (id : String) : List (Record ρ) → List (Record ρ)
  | [] => []
  | s :: ss => if sceneId s = id then [s] else s :: lookedAt id ss

/-- The values whose texts are compared to find a scene. -/
def compared (info : Record ρ) (id : Value ρ) : List (Value ρ) :=
  if id.isGiven && !(scenes info).isEmpty then
    id :: (lookedAt id.display (scenes info)).map fun s => Record.field s "id"
  else []

def search (info : Record ρ) (id : Value ρ) : Except Fault (Option (Record ρ)) := do
  Value.checkAll (compared info id)
  return find? info id

/-- The scene that a request leads to, whatever the time: the one asked for, the one that the
location starts with, or its first; a location without scenes leaves the request as it is. -/
def resolve (info : Record ρ) (id : Value ρ) : Value ρ :=
  let start := Record.field info "startSceneId"
  if (find? info id).isSome then .text id.display
  else if start.isGiven && (find? info start).isSome then .text start.display
  else
    match scenes info with
    | s :: _ => .text (sceneId s)
    | [] => if id.isGiven then .text id.display else .null

/-- The scene that a request leads to, as far as the scenes can be searched for it. -/
def settle (info : Record ρ) (id : Value ρ) : Except Fault (Value ρ) := do
  if (← search info id).isNone then
    if (← search info (Record.field info "startSceneId")).isNone then
      Value.checkAll ((scenes info).take 1 |>.map fun s => Record.field s "id")
  return resolve info id

/-- Whether a found scene is allowed; where none was found nothing stands against it. -/
def admits (allows : Record ρ → Except Fault Bool) : Option (Record ρ) → Except Fault Bool
  | some scene => allows scene
  | none => .ok true

def firstAllowed (allows : Record ρ → Except Fault Bool) :
    List (Record ρ) → Except Fault (Option (Record ρ))
  | [] => return none
  | s :: ss => do if ← allows s then return some s else firstAllowed allows ss

/-- The scene in whose place the time puts another: the first that is allowed, where this one is
not. -/
def gate (atlas : Atlas ρ σ) (info : Record ρ) (id : Value ρ) : Except Fault (Value ρ) :=
  match atlas.allows with
  | none => return id
  | some allows => do
    if (scenes info).isEmpty then return id
    if ← admits allows (← search info id) then return id
    match ← firstAllowed allows (scenes info) with
    | some s => return .text (← (Record.field s "id").text?)
    | none => return id

/-- What is known of a location; a location that cannot be read is empty. -/
def info (atlas : Atlas ρ σ) (location : Value ρ) : Act σ (Record ρ) := do
  match ← Act.attempt (atlas.location location) with
  | .ok v => return v.recordD
  | .error _ => return []

def scene (info : Record ρ) (p : Pointer ρ) : Scene ρ :=
  Scene.ofRecord (p.scene.orElse (.text "")) p.location ((find? info p.scene).getD [])
    (Record.field info "path")

/-- The scene of a place; stops at a text that cannot be made. -/
def read (info : Record ρ) (p : Pointer ρ) : Except Fault (Scene ρ) := do
  let record := (← search info p.scene).getD []
  Scene.read (p.scene.orElse (.text "")) p.location record (Record.field info "path")

end Atlas

namespace Navigation

variable {ρ σ : Type} [Scalar ρ]

instance : Inhabited (Navigation ρ) := ⟨{}⟩

def approach (atlas : Atlas ρ σ) (location : Value ρ) : Act (Navigation ρ × σ) (Record ρ) := do
  let info ← Act.onSecond (atlas.info location)
  let title := ((Record.field info "name").orElse (Record.field info "title")).orElse location
  let _ ← Act.onFirst (Act.within registry (fun r n => { n with registry := r })
    (Registry.ensure location title (Record.field info "background")))
  return info

def approachAll (atlas : Atlas ρ σ) : List String → Act (Navigation ρ × σ) Unit
  | [] => return ()
  | location :: rest => do
    let _ ← approach atlas (.text location)
    approachAll atlas rest

def extend (history : List (Pointer ρ)) (p : Pointer ρ) : List (Pointer ρ) :=
  match history.getLast? with
  | some last => if last.same p then history else history ++ [p]
  | none => [p]

def arrive (p : Pointer ρ) (n : Navigation ρ) : Navigation ρ :=
  { n with pointer := some p, history := extend n.history p }

/-- Finds the place that a request leads to; its location and the ways from there are registered. -/
def seek (atlas : Atlas ρ σ) (location scene : Value ρ) : Act (Navigation ρ × σ) (Pointer ρ) := do
  let location := .text (← Act.lift location.text?)
  let info ← approach atlas location
  let scene ← Act.lift scene.given?
  let scene ← Act.lift (Atlas.settle info scene)
  let p : Pointer ρ := ⟨location, ← Act.lift (atlas.gate info scene)⟩
  approachAll atlas (← Act.lift (Atlas.read info p)).path
  return p

/-- Moves the pointer to a scene of a location and notes it in the history. A request without a
location changes nothing. -/
def moveTo (atlas : Atlas ρ σ) (location scene : Value ρ) :
    Act (Navigation ρ × σ) (Option (Pointer ρ)) := do
  if location.isGiven then
    let p ← seek atlas location scene
    Act.onFirst (modify (arrive p))
    return some p
  else return (← get).1.pointer

def restore (atlas : Atlas ρ σ) (place history : Value ρ) :
    Act (Navigation ρ × σ) (Option (Pointer ρ)) := do
  let history := (← Act.lift history.items).filterMap Pointer.ofValue?
  Act.onFirst (modify fun n => { n with history, pointer := history.getLast? })
  match place with
  | .pointer location scene => moveTo atlas location scene
  | .target location scene => moveTo atlas location scene
  | _ => throw .missingPart

/-- The scene that is played now. Where the time has closed the scene of the pointer, the pointer
moves to another one, without a note in the history. -/
def current (atlas : Atlas ρ σ) : Act (Navigation ρ × σ) (Option (Scene ρ)) := do
  match (← get).1.pointer with
  | none => return none
  | some p =>
    let info ← approach atlas p.location
    let scene ← Act.lift (atlas.gate info p.scene)
    if !scene.same p.scene then
      Act.onFirst (modify fun n => { n with pointer := some { p with scene } })
    return some (← Act.lift (Atlas.read info { p with scene }))

def firstGiven : List (Value ρ) → Value ρ
  | [] => .null
  | [v] => v
  | v :: vs => v.orElse (firstGiven vs)

def destination (here outcome : Value ρ) : Value ρ × Value ρ :=
  match outcome with
  | .target location scene => (location, scene)
  | .pointer location scene => (location, scene)
  | .text s =>
    let (head, rest) := Text.cut (Text.strip s)
    if head = "go" ∧ rest ≠ "" then
      let (location, scene) := Text.cut rest
      (.text location, .text scene)
    else (.null, .null)
  | .object r =>
    match Record.field r "go" with
    | .object place =>
      (firstGiven [Record.field place "locationId", Record.field place "location_id", here],
        firstGiven [Record.field place "sceneId", Record.field place "scene_id"])
    | scene =>
      (firstGiven [Record.field r "locationId", Record.field r "location_id", here],
        firstGiven [scene, Record.field r "nextSceneId", Record.field r "sceneId",
          Record.field r "scene_id"])
  | _ => (.null, .null)

def hasScenes (atlas : Atlas ρ σ) (location : String) : Act σ Bool := do
  return !(Atlas.scenes (← atlas.info (.text location))).isEmpty

def isLocalScene (atlas : Atlas ρ σ) (p : Pointer ρ) (scene : String) :
    Act (Navigation ρ × σ) Bool := do
  let info ← approach atlas p.location
  return (← Act.lift (Atlas.search info (.text scene))).isSome

/-- Moves the pointer where an outcome asks for it. A location without scenes that is the id of a
scene here means that scene; a location without a scene that the pointer is at changes nothing. -/
def apply (atlas : Atlas ρ σ) (outcome : Value ρ) :
    Act (Navigation ρ × σ) (Option (Pointer ρ)) := do
  let pointer := (← get).1.pointer
  let here := (pointer.map Pointer.location).getD .null
  let (location, scene) := destination here outcome
  if !location.isGiven then return pointer
  let name ← Act.lift location.text?
  if scene.isGiven then moveTo atlas (.text name) (.text (← Act.lift scene.text?))
  else
    match pointer with
    | none => moveTo atlas (.text name) .null
    | some p =>
      if p.location.same (.text name) then return pointer
      if !(← Act.onSecond (hasScenes atlas name)) then
        if ← isLocalScene atlas p name then
          return ← moveTo atlas p.location (.text name)
      moveTo atlas (.text name) .null

/-- A navigation that starts at a place that content names, or nowhere. -/
def start (atlas : Atlas ρ σ) (place : Value ρ) : Act (Navigation ρ × σ) Unit := do
  match place with
  | .pointer location scene => let _ ← moveTo atlas location scene
  | .object r =>
    let location := firstGiven [Record.field r "location_id", Record.field r "locationId"]
    if location.isGiven then
      let _ ← moveTo atlas location
        (firstGiven [Record.field r "scene_id", Record.field r "sceneId"])
  | _ => return ()

end Navigation

end Storyworld
