import Storyworld.Value.Reading
import Storyworld.Value.Text

/-!
This module contains what the player carries: how many of each item, in the order in which the items
came in, and what the content says of them.
-/

namespace Storyworld

/-- A change of one count; `delta` is signed, `quantity` is the count after it. -/
structure InventoryChange where
  item : String
  delta : Int
  quantity : Nat
deriving DecidableEq, Repr

/-- A carried item as it is shown. -/
structure ItemEntry (ρ : Type) where
  id : String
  name : String
  quantity : Nat
  description : String
  speed : Option ρ
  traits : Table ρ

/-- The counts, and who is told of changes. -/
structure Inventory where
  counts : Table Nat := []
  listeners : List String := []

/-- What the content says of an item; asking may fail, and may change what the content keeps. -/
abbrev ItemLookup (ρ σ : Type) := String → Act σ (Value ρ)

namespace ItemLookup

variable {ρ σ : Type} [Scalar ρ]

/-- The record of an item under its id; the id or a title stands in for a missing name. -/
def named (id : String) (found : Value ρ) : Record ρ :=
  let row := Table.set found.recordD "id" (.text id)
  if Table.has row "name" then row
  else Table.set row "name" ((Record.field row "title").orElse (.text id))

/-- The record of an item; one that cannot be asked for has only its id. -/
def record (lookup : ItemLookup ρ σ) (id : String) : Act σ (Record ρ) := do
  match ← Act.attempt (lookup id) with
  | .ok found => return named id found
  | .error _ => return named id .null

/-- The record of whatever is asked for; what is no text is of no item and stands for itself. -/
def recordOf (lookup : ItemLookup ρ σ) : Value ρ → Act σ (Record ρ)
  | .text id => lookup.record id
  | id => return [("id", id), ("name", id)]

end ItemLookup

namespace Inventory

variable {ρ σ : Type} [Scalar ρ]

instance : Inhabited Inventory := ⟨{}⟩

def count (inv : Inventory) (id : String) : Nat := (Table.get? inv.counts id).getD 0

def has (inv : Inventory) (id : String) (qty : Value ρ) : Except Fault Bool := do
  return decide ((← qty.count 1) ≤ inv.count id)

def notices (inv : Inventory) (change : InventoryChange) : List (String × InventoryChange) :=
  inv.listeners.map (·, change)

/-- Adds items; the result is how many came in, and who is told what. -/
def add (id qty : Value ρ) : Act Inventory (Nat × List (String × InventoryChange)) := do
  let key ← Act.lift id.key?
  let amount ← Act.lift (qty.count 1)
  if key = "" ∨ amount = 0 then return (0, [])
  let inv ← get
  let total := inv.count key + amount
  set { inv with counts := Table.set inv.counts key total }
  return (amount, inv.notices ⟨key, amount, total⟩)

/-- Removes items as far as there are some; the result is how many went, and who is told what. -/
def remove (id qty : Value ρ) : Act Inventory (Nat × List (String × InventoryChange)) := do
  let inv ← get
  let key ← Act.lift id.key?
  let wanted ← Act.lift (qty.count 1)
  let taken := min (inv.count key) wanted
  if taken = 0 then return (0, [])
  let left := inv.count key - taken
  let counts := if left = 0 then Table.erase inv.counts key else Table.set inv.counts key left
  set { inv with counts }
  return (taken, inv.notices ⟨key, -(taken : Int), left⟩)

def numbers : List (String × Value ρ) → Except Fault (Table ρ)
  | [] => .ok []
  | (name, .num n) :: ms => do
    let x ← n.toReal
    return (name, x) :: (← numbers ms)
  | _ :: ms => numbers ms

def entryOf (id : String) (quantity : Nat) (row : Record ρ) : Except Fault (ItemEntry ρ) := do
  let speed ← match Record.field row "speed" with
    | .num n => some <$> n.toReal
    | _ => pure none
  let traits ← numbers (Record.field row "traits").recordD
  return {
    id, quantity, speed, traits
    name := ← ((Record.field row "name").orElse (.text id)).text?
    description := ← ((Record.field row "description").orElse (.text "")).text? }

def entriesOf (lookup : ItemLookup ρ σ) : List (String × Nat) → Act σ (List (ItemEntry ρ))
  | [] => return []
  | (id, quantity) :: rest => do
    let entry ← Act.lift (entryOf id quantity (← lookup.record id))
    return entry :: (← entriesOf lookup rest)

def entries (lookup : ItemLookup ρ σ) (inv : Inventory) : Act σ (List (ItemEntry ρ)) :=
  entriesOf lookup inv.counts

/-- Replaces the counts by those of a mapping, without telling anyone. Counts that are no numbers or
not above zero are passed over. -/
def load (counts : Value ρ) : Act Inventory Unit := do
  modify fun inv => { inv with counts := [] }
  entries counts.recordD
where
  entries : List (String × Value ρ) → Act Inventory Unit
    | [] => return ()
    | (id, v) :: ms => do
      let amount ← Act.lift (v.count 0)
      if amount ≠ 0 then
        modify fun inv => { inv with counts := Table.set inv.counts id amount }
      entries ms

def subscribe (name : String) (inv : Inventory) : Inventory :=
  { inv with listeners := inv.listeners ++ [name] }

/-- Tells listeners of changes, one behind the other; one that fails is passed over. -/
def deliver (hear : String → InventoryChange → Act σ Unit) :
    List (String × InventoryChange) → Act σ Unit
  | [] => return ()
  | (listener, change) :: rest => do
    let _ ← Act.attempt (hear listener change)
    deliver hear rest

end Inventory

end Storyworld
