import Storyworld.Save
import Storyworld.Scenario

/-!
This module contains the settings of a game, as the variables of its surroundings give them.
-/

namespace Storyworld

/-- The settings of a game. -/
structure Settings (ρ : Type) where
  /-- The address of the database of the saves; empty for none. -/
  database : String := ""
  slot : String := Slots.defaultName
  saveFile : Path := ["saves", "slot1.json"]
  scenario : Path := ["scenario"]
  startLocation : String := "market"
  /-- The scene to start in; where it is empty, the one that the location starts with. -/
  startScene : String := ""
  clock : Clock ρ := {}
  /-- Whether a save is taken up again. -/
  resumes : Bool := true
  /-- The name of the level from which on messages are logged. -/
  logLevel : String := "WARNING"

namespace Settings

variable {ρ : Type} [Scalar ρ]

abbrev Variables := Table String

def text (vars : Variables) (name default : String) : String := (Table.get? vars name).getD default

def flag (vars : Variables) (name default : String) : Bool :=
  ["1", "true", "yes"].contains (Text.lower (Text.strip (text vars name default)))

/-- A variable that gives an hour; the default stands in for what is no number. -/
def hour (vars : Variables) (name : String) (default : Value ρ) : Value ρ :=
  match Numeral.read (Text.strip (text vars name "")) >>= Numeral.toReal? with
  | some x => .real x
  | none => default

def clockOf (vars : Variables) : Clock ρ :=
  let standard : Clock ρ := {}
  Clock.new (hour vars "TALE_CLOCK_START" standard.start)
    (hour vars "TALE_CLOCK_END" standard.finish) standard.plan

def variableNames : List String :=
  ["TALE_DATABASE_URL", "TALE_SAVE_SLOT", "TALE_SAVE_FILE", "TALE_SCENARIO_DIR",
    "TALE_START_LOCATION", "TALE_START_SCENE", "TALE_CLOCK_START", "TALE_CLOCK_END",
    "TALE_LOAD_SAVE", "TALE_LOG_LEVEL"]

def ofVariables (vars : Variables) : Settings ρ where
  database := Text.strip (text vars "TALE_DATABASE_URL" "")
  slot := Slots.nameOf (ρ := ρ) (.text (text vars "TALE_SAVE_SLOT" Slots.defaultName))
  saveFile := Path.ofText (text vars "TALE_SAVE_FILE" "saves/slot1.json")
  scenario := Path.ofText (text vars "TALE_SCENARIO_DIR" "scenario")
  startLocation := text vars "TALE_START_LOCATION" "market"
  startScene := text vars "TALE_START_SCENE" ""
  clock := clockOf vars
  resumes := flag vars "TALE_LOAD_SAVE" "1"
  logLevel := Text.upper (Text.strip (text vars "TALE_LOG_LEVEL" "WARNING"))

/-- Whether messages can be logged. Any name is taken for a level, and one that is none for the usual
level; the two names of how messages are written are no levels either, and are refused. -/
def logging (settings : Settings ρ) : Except Fault Unit :=
  if settings.logLevel = "BASIC_FORMAT" then .error .unreadable
  else if settings.logLevel = "_STYLES" then .error .wrongKind
  else .ok ()

end Settings

end Storyworld
