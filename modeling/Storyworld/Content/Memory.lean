import Storyworld.Content
import Storyworld.Value.Mapping

/-!
This module contains stories that are held in memory as tables of records.
-/

namespace Storyworld

/-- A story in memory. -/
structure Memory (ρ : Type) where
  locations : Table (Record ρ) := []
  options : Table (Table (Record ρ)) := []
  npcs : Table (Table (Record ρ)) := []
  items : Table (Record ρ) := []

namespace Memory

variable {ρ : Type} [Scalar ρ]

def entries {α : Type} (f : String → Value ρ → Except Fault α) (v : Value ρ) :
    Except Fault (Table α) := do
  Table.ofList <$> (← v.membersOr).mapM fun (k, v) => do return (k, ← f k v)

/-- A record under its id; only a mapping is one. -/
def recordUnder (id : String) : Value ρ → Except Fault (Record ρ)
  | .object r => .ok (Table.set r "id" (.text id))
  | _ => .error .wrongKind

def readOptions : Value ρ → Except Fault (Table (Record ρ))
  | .object rows => do
    Table.ofList <$> rows.mapM fun (id, row) => do return (id, ← recordUnder id row)
  | _ => .error .missingPart

/-- The id of a person: an id or a name that counts as given. -/
def npcId (row : Record ρ) : Value ρ := (Record.field row "id").orElse (Record.field row "name")

/-- The people of a location; those without id and name are left out. -/
def npcTable (rows : List (Record ρ)) : Table (Record ρ) :=
  Table.ofList (rows.filterMap fun row =>
    if (npcId row).isGiven then
      some ((npcId row).display, Table.set row "id" (.text (npcId row).display))
    else none)

def readNpcs (v : Value ρ) : Except Fault (Table (Record ρ)) := do
  let rows ← (← v.items).mapM fun row => do
    let row ← (row.record?.map Except.ok).getD (.error .missingPart)
    (npcId row).checkDepth
    return row
  return npcTable rows

def read (locations options npcs items : Value ρ) : Except Fault (Memory ρ) := do
  return {
    locations := ← entries (fun _ v => v.toRecord) locations
    options := ← entries (fun _ v => readOptions v) options
    npcs := ← entries (fun _ v => readNpcs v) npcs
    items := ← entries (fun _ v => v.toRecord) items }

/-- The record of an item under its id; the id stands in for a missing name. -/
def itemRecord (id : String) (row : Record ρ) : Record ρ :=
  Table.set (Table.set row "id" (.text id)) "name" ((Record.field row "name").orElse (.text id))

/-- The sources that a story in memory is; they keep nothing. -/
def content {σ : Type} (m : Memory ρ) : Content ρ σ where
  location id := do return .object ((Table.get? m.locations (← Act.lift id.text?)).getD [])
  option? location id := return (Table.get? m.options location).bind (Table.get? · id)
  npc? location id := return (Table.get? m.npcs location).bind (Table.get? · id)
  npcs location := return ((Table.get? m.npcs location).getD []).map Prod.snd
  item? id := return (Table.get? m.items id).map (itemRecord id)

end Memory

end Storyworld
