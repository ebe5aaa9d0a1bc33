import Storyworld.Value.Text
import Storyworld.Value.Reading

/-!
This module contains the account of the items that lie at the locations, in three layers: what the
scenes declared, what was added and what was removed. What lies there is the first two less the
third, and never less than nothing.
-/

namespace Storyworld

abbrev Layer (ρ : Type) := Table (Table (Number ρ))

namespace Layer

variable {ρ : Type} [Scalar ρ]

def quantity (layer : Layer ρ) (location item : String) : Number ρ :=
  ((Table.get? layer location).bind (Table.get? · item)).getD (.int 0)

def put (layer : Layer ρ) (location item : String) (n : Number ρ) : Layer ρ :=
  Table.set layer location
    (Table.set ((Table.get? layer location).getD []) item (Number.clampBelow n))

def toValue (layer : Layer ρ) : Value ρ :=
  .object (Table.mapEntries (fun items => .object (Table.mapEntries Value.num items)) layer)

end Layer

/-- The account of all locations. -/
structure Ledger (ρ : Type) where
  defaults : Layer ρ := []
  added : Layer ρ := []
  removed : Layer ρ := []

/-- What a location holds of an item, by layers. -/
structure LedgerRow (ρ : Type) where
  defaults : Number ρ := .int 0
  added : Number ρ := .int 0
  removed : Number ρ := .int 0

namespace Ledger

variable {ρ : Type} [Scalar ρ]

instance : Inhabited (Ledger ρ) := ⟨{}⟩

/-- The quantity that a value stands for, whole where it can be; the default for what is no finite
number. -/
def quantity (v : Value ρ) (default : Int) : Except Fault (Number ρ) := do
  match ← v.real? with
  | none => return .int default
  | some x =>
    match Scalar.extent x with
    | .finite q => return if q.den = 1 then .int q.num else .real x
    | _ => return .int default

def balance (defaults added removed : Number ρ) : Except Fault (Number ρ) := do
  (← defaults.add added).sub removed

def net (l : Ledger ρ) (location item : String) : Except Fault (Number ρ) :=
  balance (l.defaults.quantity location item) (l.added.quantity location item)
    (l.removed.quantity location item)

def count (l : Ledger ρ) (location item : String) : Except Fault (Number ρ) :=
  Number.clampBelow <$> l.net location item

/-- The quantity that a scene declares of an item, under the first of its names that is there. -/
def declared (item : Record ρ) : Value ρ :=
  ((Table.get? item "quantity").orElse fun _ =>
    (Table.get? item "qty").orElse fun _ => Table.get? item "count").getD (.int 1)

def sceneItems : List (Value ρ) → List (Record ρ)
  | [] => []
  | .object r :: vs =>
    if (Record.field r "id").isGiven then r :: sceneItems vs else sceneItems vs
  | _ :: vs => sceneItems vs

def raise (location : String) (item : Record ρ) : Act (Ledger ρ) Unit := do
  let qty := Number.clampBelow (← Act.lift (quantity (declared item) 1))
  let id ← Act.lift (Record.field item "id").text?
  let l ← get
  if (l.defaults.quantity location id).lt qty then
    set { l with defaults := l.defaults.put location id qty }

/-- The items that a value can be run through; only the records among them count. -/
def iterable (v : Value ρ) : Except Fault (List (Value ρ)) :=
  if v.isGiven then
    match v with
    | .list xs => .ok xs
    | .text _ => .ok []
    | .object _ => .ok []
    | _ => .error .wrongKind
  else .ok []

/-- Takes over the inventory that a scene declares; declared quantities only rise. -/
def applyScene (location items : Value ρ) : Act (Ledger ρ) Unit := do
  if location.isGiven then
    let records := sceneItems (← Act.lift (iterable items))
    records.forM fun item => do raise (← Act.lift location.text?) item

def names (location item : Value ρ) : Except Fault (String × String) := do
  return (← location.text?, ← item.text?)

def add (location item qty : Value ρ) : Act (Ledger ρ) Unit := do
  if location.isGiven && item.isGiven then
    let amount ← Act.lift (quantity qty 1)
    if !amount.isZero then
      let l ← get
      let (place, id) ← Act.lift (names location item)
      let total ← Act.lift ((l.added.quantity place id).add amount)
      set { l with added := l.added.put place id total }

/-- Removes from what lies at a location, as far as there is something; the result is how much was
taken. -/
def remove (location item qty : Value ρ) : Act (Ledger ρ) (Number ρ) := do
  if location.isGiven && item.isGiven then
    let amount ← Act.lift (quantity qty 1)
    if amount.isZero then return .int 0
    let l ← get
    let (place, id) ← Act.lift (names location item)
    let net ← Act.lift (l.net place id)
    let taken := Number.clampBelow (net.min amount)
    if Number.lt (.int 0) taken then
      let total ← Act.lift ((l.removed.quantity place id).add taken)
      set { l with removed := l.removed.put place id total }
    return taken
  else return .int 0

def has (l : Ledger ρ) (location item qty : Value ρ) : Except Fault Bool := do
  if location.isGiven && item.isGiven then
    let (place, id) ← names location item
    let net ← l.net place id
    return (← quantity qty 1).le net
  else return false

/-- The items that any layer names at a location, with their rows, in order. -/
def rows (l : Ledger ρ) (location : String) : Table (LedgerRow ρ) :=
  let at_ (layer : Layer ρ) := (Table.get? layer location).getD []
  let fill (put : Number ρ → LedgerRow ρ → LedgerRow ρ) (rows : Table (LedgerRow ρ))
      (e : String × Number ρ) :=
    Table.set rows e.1 (put e.2 ((Table.get? rows e.1).getD {}))
  let rows := (at_ l.defaults).foldl (fill fun n r => { r with defaults := n }) []
  let rows := (at_ l.added).foldl (fill fun n r => { r with added := n }) rows
  (at_ l.removed).foldl (fill fun n r => { r with removed := n }) rows

/-- What a location holds: rows with their net quantities. -/
def snapshot (l : Ledger ρ) (location : String) :
    Except Fault (List (String × LedgerRow ρ × Number ρ)) :=
  (l.rows location).mapM fun (item, row) => do
    return (item, row, Number.clampBelow (← balance row.defaults row.added row.removed))

def toRecord (l : Ledger ρ) : Record ρ :=
  [("defaults", l.defaults.toValue), ("added", l.added.toValue), ("removed", l.removed.toValue)]

def loadItems (location : String) : List (String × Value ρ) → Act (Layer ρ) Unit
  | [] => return ()
  | (item, v) :: ms => do
    let n ← Act.lift (quantity v 0)
    modify fun layer => layer.put location item n
    loadItems location ms

def loadLayer : List (String × Value ρ) → Act (Layer ρ) Unit
  | [] => return ()
  | (location, items) :: ms => do
    loadItems location items.recordD
    loadLayer ms

/-- Replaces the account by the layers of a mapping; what is no mapping counts as empty. -/
def load (payload : Value ρ) : Act (Ledger ρ) Unit := do
  set ({} : Ledger ρ)
  let layer (name : String) := (Record.field payload.recordD name).recordD
  Act.within defaults (fun t l => { l with defaults := t }) (loadLayer (layer "defaults"))
  Act.within added (fun t l => { l with added := t }) (loadLayer (layer "added"))
  Act.within removed (fun t l => { l with removed := t }) (loadLayer (layer "removed"))

end Ledger

end Storyworld
