import Storyworld.Playthrough
import Storyworld.Save.File
import Storyworld.Save.Slots

/-!
This module contains the places that sessions are saved to.
-/

namespace Storyworld

/-- The files and the slots that there are. -/
structure Disk where
  files : Files := {}
  slots : Slots := {}

/-- Where to save: in a file or in a slot. -/
inductive Store where
  | file (p : Path)
  | slot (name : String)

namespace Store

variable {ρ : Type} [Scalar ρ]

def save (store : Store) (snapshot : Option (Snapshot ρ)) : Act Disk Bool :=
  match store with
  | .file p => Act.within Disk.files (fun files d => { d with files }) (SaveFile.save {} p snapshot)
  | .slot name => Act.within Disk.slots (fun slots d => { d with slots }) (Slots.save name snapshot)

def load (store : Store) (disk : Disk) : Except Fault (Option (Snapshot ρ)) :=
  match store with
  | .file p => SaveFile.load disk.files p
  | .slot name => disk.slots.load name

def isThere (ρ : Type) [Scalar ρ] (store : Store) (disk : Disk) : Except Fault Bool :=
  match store with
  | .file p => SaveFile.isThere disk.files p
  | .slot name => disk.slots.isThere ρ name

def saver (store : Store) : Saver ρ Disk := ⟨store.save⟩

end Store

end Storyworld
