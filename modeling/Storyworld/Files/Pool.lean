import Storyworld.Files
import Storyworld.Json.Reader

/-!
This module contains the reading of JSON files: directly, or through a pool that keeps what it has
read. A file that is not there or cannot be read gives a default, which a pool keeps too.
-/

namespace Storyworld

variable {ρ : Type} [Scalar ρ]

def Files.decode? (bytes : ByteArray) : Except Fault (Option (Value ρ)) :=
  match String.fromUTF8? bytes with
  | some s => Json.read (Text.ofPlain s)
  | none => return none

def Files.json (files : Files) (p : Path) (default : Value ρ) : Except Fault (Value ρ) := do
  p.refuse
  files.checkLength p.resolve p.resolve.fullSize
  match files.bytes? p.resolve with
  | some bytes => return (← Files.decode? bytes).getD default
  | none => return default

/-- The values read so far, by the text of the resolved path. -/
structure Pool (ρ : Type) where
  entries : Table (Value ρ) := []

namespace Pool

instance : Inhabited (Pool ρ) := ⟨{}⟩

def key (p : Path) : Except Fault String := do
  p.refuse
  return p.resolve.toText

def size (pool : Pool ρ) : Nat := pool.entries.length

/-- The value of a file: the one that is kept, or else the one that is read now and then kept. -/
def read (files : Files) (p : Path) (default : Value ρ) : Act (Pool ρ) (Value ρ) := do
  let key ← Act.lift (key p)
  match Table.get? (← get).entries key with
  | some v => return v
  | none =>
    let v ← Act.lift (files.json p default)
    modify fun pool => ⟨Table.set pool.entries key v⟩
    return v

def invalidate (p : Path) : Act (Pool ρ) Unit := do
  let key ← Act.lift (key p)
  modify fun pool => ⟨Table.erase pool.entries key⟩

def clear : Act (Pool ρ) Unit := set ({} : Pool ρ)

end Pool

end Storyworld
