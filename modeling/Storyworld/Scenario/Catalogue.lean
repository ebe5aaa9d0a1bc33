import Storyworld.Content
import Storyworld.Scenario

/-!
This module contains catalogues: the files of a story, and the sources that read them, each with the
pool that it reads them through. A source uses the pool that it is given where that holds something
already, else one of its own.
-/

namespace Storyworld

/-- The files, the pool that was handed to the sources, and the pools of their own. -/
structure Catalogue (ρ : Type) where
  files : Files := {}
  shared : Pool ρ := {}
  locations : Option (Pool ρ) := none
  options : Option (Pool ρ) := none
  npcs : Option (Pool ρ) := none
  items : Option (Pool ρ) := none

namespace Catalogue

variable {ρ : Type} [Scalar ρ]

def ownPool (shared : Pool ρ) : Option (Pool ρ) := if shared.size = 0 then some {} else none

def ofPool (files : Files) (shared : Pool ρ) : Catalogue ρ :=
  let own := ownPool shared
  ⟨files, shared, own, own, own, own⟩

def ofFiles (files : Files) : Catalogue ρ := ofPool files {}

def onFiles {α : Type} (act : Act Files α) : Act (Catalogue ρ) α :=
  Act.within files (fun files c => { c with files }) act

def onShared {α : Type} (act : Act (Pool ρ) α) : Act (Catalogue ρ) α :=
  Act.within shared (fun shared c => { c with shared }) act

def readShared : Reading ρ (Act (Catalogue ρ)) := fun p default => do
  onShared (Pool.read (← get).files p default)

def through (own : Catalogue ρ → Option (Pool ρ)) (put : Pool ρ → Catalogue ρ → Catalogue ρ) :
    Reading ρ (Act (Catalogue ρ)) := fun p default => do
  let c ← get
  match own c with
  | none => readShared p default
  | some pool => Act.within (fun _ => pool) put (Pool.read c.files p default)

def location (root : Path) (id : Value ρ) : Act (Catalogue ρ) (Record ρ) := do
  Act.lift id.checkDepth
  Scenario.location (through locations fun p c => { c with locations := some p })
    (Scenario.locationsIn root) id

def optionsAt (root : Path) (id : Value ρ) : Act (Catalogue ρ) (Table (Record ρ)) := do
  Act.lift id.checkDepth
  Scenario.options (through options fun p c => { c with options := some p })
    (Scenario.locationsIn root) id

def npcsAt (root : Path) (id : Value ρ) : Act (Catalogue ρ) (Table (Record ρ)) := do
  Act.lift id.checkDepth
  Scenario.npcs (through npcs fun p c => { c with npcs := some p }) (Scenario.locationsIn root) id

def item? (root : Path) (id : Value ρ) : Act (Catalogue ρ) (Option (Record ρ)) := do
  Act.lift id.checkDepth
  Scenario.item? (through items fun p c => { c with items := some p }) (Scenario.itemsIn root) id

def content (root : Path) : Content ρ (Catalogue ρ) where
  location id := Value.object <$> location root id
  option? id option := do return Table.get? (← optionsAt root (.text id)) option
  npc? id npc := do return Table.get? (← npcsAt root (.text id)) npc
  npcs id := do return (← npcsAt root (.text id)).map Prod.snd
  item? id := item? root (.text id)

/-- The traits of a story; reading them uses the shared pool where that holds something. -/
def traits (root : Path) : Act (Catalogue ρ) (List (Trait ρ)) := do
  let c ← get
  let read : Reading ρ (Act (Catalogue ρ)) :=
    if c.shared.size = 0 then fun p default => Act.lift (c.files.json p default) else readShared
  Scenario.traits read (Scenario.traitsIn root)

end Catalogue

end Storyworld
