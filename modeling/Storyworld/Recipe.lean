import Storyworld.Files
import Storyworld.Navigation
import Storyworld.Requirement.Scope
import Storyworld.Snapshot
import Storyworld.View

/-!
This module contains recipes: records that say of which parts a state of play, or something that is
shown, is made up.
-/

namespace Storyworld

namespace Recipe

variable {ρ : Type} [Scalar ρ]

def field (v : Value ρ) (name : String) : Value ρ := Record.field v.recordD name

def fieldOr (v : Value ρ) (name : String) (default : Value ρ) : Value ρ :=
  (Table.get? v.recordD name).getD default

def text : Value ρ → String
  | .text s => s
  | _ => ""

def texts (v : Value ρ) : List String := v.listD.map text

def optional {α : Type} (v : Value ρ) (name : String) (f : Value ρ → Except Fault α) :
    Except Fault (Option α) :=
  match Table.get? v.recordD name with
  | none => return none
  | some .null => return none
  | some part => some <$> f part

/-- A recipe with given parts: those that are required are there, and there are no others than these
and the optional ones. -/
def parts (required others : List String) (v : Value ρ) : Except Fault (Value ρ) :=
  match v with
  | .object r =>
    if required.all (Table.has r) && r.all fun e => required.contains e.1 || others.contains e.1
    then .ok v else .error .wrongKind
  | _ => .error .wrongKind

/-! ### What is shown -/

def itemView (v : Value ρ) : Except Fault (ItemView ρ) := do
  let v ← parts ["id", "name", "quantity"] ["description"] v
  return ⟨field v "id", field v "name", field v "quantity", fieldOr v "description" (.text "")⟩

def packView (v : Value ρ) : Except Fault (PackView ρ) := do
  return {
    items := ← (← (fieldOr v "items" (.list [])).items).mapM itemView
    speed := fieldOr v "speed" (.int 1) }

def shownText (v : Value ρ) (name : String) : String := ((field v name).orElse (.text "")).display

def npcPanel (v : Value ρ) : Except Fault (NpcPanel ρ) := do
  let v ← parts ["id", "name"] ["description", "dialogue"] v
  return ⟨field v "id", (field v "name").display, shownText v "description", shownText v "dialogue"⟩

def entry (v : Value ρ) : Except Fault (Value ρ × String) := do
  match ← v.items with
  | [id, label] => return (id, label.display)
  | _ => throw .unreadable

def entries : List (Value ρ) → List (Value ρ × String) × Option Fault
  | [] => ([], none)
  | v :: vs =>
    match entry v with
    | .error e => ([], some e)
    | .ok e => ((e :: (entries vs).1), (entries vs).2)

def menuEntries (v : Value ρ) : List (Value ρ × String) × Option Fault :=
  match v.itemsOr with
  | .error e => ([], some e)
  | .ok rows => entries rows

def locationView (v : Value ρ) : Except Fault (LocationView ρ) := do
  let v ← parts ["id", "name"] ["background"] v
  return ⟨(field v "id").display, shownText v "name", field v "background"⟩

def sceneView (v : Value ρ) : Except Fault (SceneView ρ) := do
  let (options, flaw) := menuEntries (fieldOr v "options" (.list []))
  return {
    location := ← locationView (field v "location")
    scene := (field v "scene_id").display
    description := (← (fieldOr v "description" (.list [])).items).map Value.display
    npc := ← optional v "npc" npcPanel
    options
    flaw }

def pathEntry (v : Value ρ) : Except Fault (PathEntry ρ) := do
  let v ← parts ["id", "name"] ["meta"] v
  return ⟨field v "id", field v "name", fieldOr v "meta" (.object [])⟩

def timeView (v : Value ρ) : Except Fault (TimeView ρ) := do
  let v ← parts ["time", "label", "window"] ["game_over"] v
  return {
    time := field v "time"
    label := (field v "label").display
    window := (field v "window").display
    ended := (field v "game_over").isGiven }

/-! ### The state of play -/

/-- A snapshot, none for null. -/
def snapshot? (v : Value ρ) : Except Fault (Option (Snapshot ρ)) := do
  if v.isNull then return none
  let v ← parts ["location_id"]
    ["scene_id", "history", "time", "traits", "domain_events", "inventory", "world", "version"] v
  return some {
    location := field v "location_id"
    scene := field v "scene_id"
    history := fieldOr v "history" (.list [])
    time := field v "time"
    traits := fieldOr v "traits" (.object [])
    events := fieldOr v "domain_events" (.list [])
    inventory := fieldOr v "inventory" (.object [])
    world := fieldOr v "world" (.object [])
    version := fieldOr v "version" (.int 1) }

def dayPlan (v : Value ρ) : Except Fault (DayPlan ρ) := do
  let standard : DayPlan ρ := {}
  if !v.isGiven then return standard
  let v ← parts [] ["start", "end", "night_start", "night_end"] v
  return {
    cycle := fieldOr v "end" standard.cycle
    nightStart := fieldOr v "night_start" standard.nightStart
    nightEnd := fieldOr v "night_end" standard.nightEnd }

/-- A clock, at an hour that may be given. -/
def clock (v : Value ρ) : Except Fault (Clock ρ) := do
  let standard : Clock ρ := {}
  let plan ← dayPlan (field v "settings")
  let c := Clock.new (fieldOr v "start_time" standard.start) (fieldOr v "end_time" standard.finish) plan
  match Table.get? v.recordD "at" with
  | none => return c
  | some hour =>
    let (outcome, c) := (Clock.restore hour).run c
    outcome.map fun _ => c

def trait (v : Value ρ) : Except Fault (Trait ρ) := do
  let v ← parts ["name"] ["description", "side", "value"] v
  Trait.new (field v "name") (fieldOr v "description" (.text "")) (field v "side")
    (fieldOr v "value" (.int 0))

def traitBook (v : Value ρ) : Except Fault (TraitBook ρ) := do
  return { traits := ← (← v.itemsOr).mapM trait }

/-- What the content says of items; those of a list cannot be looked up. -/
def itemLookup {σ : Type} (v : Value ρ) : ItemLookup ρ σ := fun id =>
  if (texts (field v "failing")).contains id then throw .missingPart
  else return Record.field (field v "items").recordD id

def inventory (v : Value ρ) : Except Fault Inventory :=
  let (outcome, inv) := (Inventory.load (field v "counts")).run {}
  outcome.map fun _ => inv

def ledger (v : Value ρ) : Except Fault (Ledger ρ) :=
  let (outcome, l) := (Ledger.load v).run {}
  outcome.map fun _ => l

def eventLog (v : Value ρ) : Except Fault EventLog :=
  let (outcome, log) := (EventLog.load v).run {}
  outcome.map fun _ => log

/-- Where requirements are asked; null is nowhere. -/
def env (v : Value ρ) : Except Fault (Env ρ) := do
  if v.isNull then return {}
  let v ← parts [] ["location_id", "scene_id", "current_npc_id", "path"] v
  return ⟨field v "location_id", field v "scene_id", field v "current_npc_id"⟩

/-- What requirements see; looking at the parts of a list fails with a fault. -/
def scope (fault : Fault) (v : Value ρ) : Except Fault (Scope ρ) := do
  let access {α : Type} (name : String) (part : Option α) : Access α :=
    if (texts (field v "broken")).contains name then some (.error fault) else part.map .ok
  return {
    clock := access "clock" (← optional v "clock" clock)
    traits := access "traits" (← optional v "traits" traitBook)
    inventory := access "inventory" (← optional v "inventory" inventory)
    log := access "event_log" (← optional v "event_log" eventLog)
    ledger := access "world" (← optional v "world" ledger) }

def scene (v : Value ρ) : Scene ρ :=
  Scene.ofRecord (field v "id") (field v "location") (field v "record").recordD
    (field v "location_path")

def registry (v : Value ρ) : Except Fault (Registry ρ) :=
  let part (row : Value ρ) (i : Nat) := row.listD.getD i .null
  let known : Act (Registry ρ) Unit := v.listD.forM fun row => do
    let _ ← Registry.ensure (part row 0) (part row 1) (part row 2)
  let (outcome, r) := known.run []
  outcome.map fun _ => r

def hexBytes : List Char → List UInt8
  | a :: b :: cs =>
    (16 * (Text.hexValue? a).getD 0 + (Text.hexValue? b).getD 0).toUInt8 :: hexBytes cs
  | _ => []

/-- A file with a text or with bytes; anything else is a folder. -/
def fileEntry : Value ρ → Entry
  | .text s => .file (Text.toBytes s)
  | .object [(_, .text digits)] => .file ⟨(hexBytes digits.toList).toArray⟩
  | _ => .folder

def files (v : Value ρ) : Files :=
  v.recordD.foldl (fun files e => files.put (Path.ofText e.1).resolve (fileEntry e.2)) {}

def locations {σ : Type} (known : Record ρ) (failing : List String) (fault : Fault) (id : Value ρ) :
    Act σ (Value ρ) :=
  match id with
  | .text id =>
    if failing.contains id then throw fault else return (Table.get? known id).getD (.object [])
  | _ => return .object []

end Recipe

end Storyworld
