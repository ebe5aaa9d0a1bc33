import Storyworld.Content.Memory
import Storyworld.Files.Pool
import Storyworld.Trait

/-!
This module contains stories that are kept in files: a folder for each location with its scenes, its
options and its people, a file for each item, and a file of traits. What a file holds is passed over
where it does not fit.
-/

namespace Storyworld

/-- A way to read the JSON value of a file; the default stands in for what cannot be read. -/
abbrev Reading (ρ : Type) (m : Type → Type) := Path → Value ρ → m (Value ρ)

namespace Scenario

variable {ρ : Type} [Scalar ρ] {m : Type → Type} [Monad m]

def locationsIn (root : Path) : Path := root ++ ["locations"]

def itemsIn (root : Path) : Path := root ++ ["items"]

def traitsIn (root : Path) : Path := root ++ ["traits.json"]

def infoFile : String := "info.json"

def optionsFile : String := "options.json"

def npcFile : String := "npc.json"

def hasSlash (name : String) : Bool := name.toList.any fun c => c == '/' || c == '\\'

def locationFile? (base : Path) (id : Value ρ) (name : String) : Option Path :=
  let key := id.key
  if key = "" ∨ hasSlash key ∨ key = "." ∨ key = ".." then none else some (base ++ [key, name])

def itemFile? (base : Path) (id : Value ρ) : Option (String × Path) :=
  let key := id.key
  if key = "" ∨ hasSlash key then none else some (key, base ++ [key ++ ".json"])

/-- The options that a value holds: the records of a mapping, each under its id. -/
def optionTable (v : Value ρ) : Table (Record ρ) :=
  v.recordD.filterMap fun (id, row) =>
    row.record?.map fun r => (id, Table.set r "id" (.text id))

/-- The people that a value holds: the records of a list. -/
def npcTable (v : Value ρ) : Table (Record ρ) := Memory.npcTable (v.listD.filterMap Value.record?)

def itemRecord (id : String) (row : Record ρ) : Record ρ :=
  let name := (Record.field row "name").orElse ((Record.field row "title").orElse (.text id))
  Table.set (Table.set row "id" (.text id)) "name" name

def traitOf? (row : Record ρ) : Option (Trait ρ) :=
  let name := ((Record.field row "id").orElse (Record.field row "name")).key
  if name = "" then none
  else
    let description := ((Record.field row "description").orElse (Record.field row "name")).orElse
      (.text name)
    some ⟨name, .text description.display, Record.field row "side", .int 0⟩

def traitList (v : Value ρ) : List (Trait ρ) :=
  (Record.field v.recordD "traits").listD.filterMap fun row => row.record? >>= traitOf?

def location (read : Reading ρ m) (base : Path) (id : Value ρ) : m (Record ρ) :=
  match locationFile? base id infoFile with
  | none => return []
  | some p => do return (← read p (.object [])).recordD

def options (read : Reading ρ m) (base : Path) (id : Value ρ) : m (Table (Record ρ)) :=
  match locationFile? base id optionsFile with
  | none => return []
  | some p => do return optionTable (← read p (.object []))

def npcs (read : Reading ρ m) (base : Path) (id : Value ρ) : m (Table (Record ρ)) :=
  match locationFile? base id npcFile with
  | none => return []
  | some p => do return npcTable (← read p (.list []))

def item? (read : Reading ρ m) (base : Path) (id : Value ρ) : m (Option (Record ρ)) :=
  match itemFile? base id with
  | none => return none
  | some (key, p) => do return (← read p .null).record?.map (itemRecord key)

def traits (read : Reading ρ m) (file : Path) : m (List (Trait ρ)) := do
  return traitList (← read file (.object [("traits", .list [])]))

def sorted (names : List String) : List String := names.mergeSort fun a b => (Text.order a b).isLE

/-- The ids of the locations: the names of the folders that hold scenes. -/
def locationIds (files : Files) (base : Path) : List String :=
  sorted ((files.names base).filter fun name => (files.read? (base ++ [name, infoFile])).isSome)

/-- The ids of the items: the names of the JSON files without their ending. -/
def itemIds (files : Files) (base : Path) : List String :=
  sorted (((files.names base).filter (·.endsWith ".json")).map Path.stem)

end Scenario

end Storyworld
