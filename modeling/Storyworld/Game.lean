import Storyworld.Save.Database
import Storyworld.Scenario.Catalogue
import Storyworld.Settings
import Storyworld.Terminal

/-!
This module contains whole games at a terminal: from the settings and the files that there are, up
to what is said at the end.

- `Game.start` puts a player into a story, or takes up a save.
- `Game.run` plays it.
-/

namespace Storyworld

/-- The catalogue that a story is read through, and the slots beside its files. Saves are written to
the files that the story is read from. -/
structure Library (ρ : Type) where
  catalogue : Catalogue ρ
  slots : Slots := {}

namespace Library

variable {ρ : Type} [Scalar ρ]

def disk (l : Library ρ) : Disk := ⟨l.catalogue.files, l.slots⟩

def setDisk (disk : Disk) (l : Library ρ) : Library ρ :=
  { catalogue := { l.catalogue with files := disk.files }, slots := disk.slots }

def onCatalogue {α : Type} (act : Act (Catalogue ρ) α) : Act (Library ρ) α :=
  Act.within catalogue (fun catalogue l => { l with catalogue }) act

def content (root : Path) : Content ρ (Library ρ) :=
  (Catalogue.content root).within catalogue fun catalogue l => { l with catalogue }

def saver (store : Store) : Saver ρ (Library ρ) := ⟨fun snapshot =>
  Act.within disk setDisk (store.save snapshot)⟩

end Library

/-- Where a game saves to, and what there is to save to. -/
structure SavePlace where
  store : Store
  disk : Disk

namespace SavePlace

variable {ρ : Type} [Scalar ρ]

def ofSettings (settings : Settings ρ) (files : Files) : SavePlace :=
  let (files, isUsable) := ((Database.ofText? settings.database).map (Database.openIn files)).getD (files, false)
  ⟨if isUsable then .slot settings.slot else .file settings.saveFile, { files }⟩

end SavePlace

/-- How a game ended. -/
structure Ending (ρ : Type) where
  result : Except Fault (Value ρ)
  printed : List Printed
  disk : Disk

namespace Game

variable {ρ : Type} [Scalar ρ]

abbrev Play (ρ : Type) := Session ρ (Library ρ)

def content (settings : Settings ρ) : Content ρ (Library ρ) := Library.content settings.scenario

def startScene (settings : Settings ρ) : Act (Library ρ) (Value ρ) := do
  if settings.startScene != "" then return .text settings.startScene
  let info ← (content settings).location (.text settings.startLocation)
  return Record.field info.recordD "startSceneId"

def begin? (settings : Settings ρ) (disk : Disk) : Except Fault (Play ρ) :=
  let opening : Act (Library ρ) (Value ρ × List (Trait ρ)) := do
    let scene ← startScene settings
    return (scene, ← Library.onCatalogue (Catalogue.traits settings.scenario))
  match opening.run ⟨Catalogue.ofFiles disk.files, disk.slots⟩ with
  | (.error e, _) => .error e
  | (.ok (scene, traits), library) =>
    Session.start (content settings) library { traits } settings.clock
      (.pointer (.text settings.startLocation) scene)

/-- The session that a game starts with: a new one, or one that was saved. -/
def start (settings : Settings ρ) (place : SavePlace) : Except Fault (Play ρ) := do
  let session ← begin? settings place.disk
  if !settings.resumes then return session
  match ← place.store.load place.disk with
  | none => return session
  | some snapshot =>
    let (outcome, session) := (Session.restore (content settings) snapshot).run session
    outcome.map fun _ => session

/-- Plays a session at a terminal, up to a limit of turns. -/
def play (settings : Settings ρ) (store : Store) (limit : Value ρ) :
    Act (Playthrough ρ (Library ρ) Terminal) (Value ρ) :=
  Playthrough.run (content settings) Terminal.view (some (Library.saver store)) limit

def run (settings : Settings ρ) (files : Files) (terminal : Terminal) : Ending ρ :=
  let place := SavePlace.ofSettings settings files
  match start settings place with
  | .error e => ⟨.error e, terminal.printed, place.disk⟩
  | .ok session =>
    let (result, p) := (play settings place.store .null).run ⟨session, terminal⟩
    ⟨result, p.view.printed, p.session.sources.disk⟩

def help : String :=
  "\nHelp:\n"
    ++ "- Pick a numbered choice and press ENTER; Ctrl+D leaves the current menu.\n"
    ++ "- Content issues: run python -m taleweaver.infrastructure.scenario_validator --path <scenario>.\n"
    ++ "- Startup issues: verify TALE_SCENARIO_DIR, or unset TALE_DATABASE_URL to save to a JSON file.\n"

def farewell (result : Except Fault (Value ρ)) : String :=
  match result with
  | .ok _ => ""
  | .error .interrupted => "\nSession ended.\n"
  | .error e =>
    s!"An unexpected error occurred. The game closed safely.\nReason: {e.message}\n" ++ help

end Game

end Storyworld
