import Storyworld.Decimal.Layout
import Storyworld.Decimal.Scaled
import Storyworld.Json.Reader
import Storyworld.Snapshot

/-!
This module contains saves in the slots of a table: each slot has a name, and holds the text of a
save with its version.
-/

namespace Storyworld

/-- What a slot holds. -/
structure SlotRow where
  text : String
  version : Int
deriving DecidableEq, Repr

/-- The table of the slots; it may not exist. -/
structure Slots where
  rows : Option (Table SlotRow) := some []

namespace Slots

variable {ρ : Type} [Scalar ρ]

instance : Inhabited Slots := ⟨{}⟩

def defaultName : String := "slot1"

/-- The name of a slot; one stands in for an empty name. -/
def nameOf (v : Value ρ) : String := (v.orElse (.text defaultName)).display

def existing (slots : Slots) : Except Fault (Table SlotRow) :=
  (slots.rows.map Except.ok).getD (.error .noSlots)

def sorted (slots : Slots) : Except Fault (Table SlotRow) := do
  return (← slots.existing).mergeSort fun a b => (Text.order a.1 b.1).isLE

def ensure (slots : Slots) : Slots := ⟨some (slots.rows.getD [])⟩

def drop : Slots := ⟨none⟩

def storable (s : String) : Except Fault Unit :=
  match Text.stop? Text.isHalf s with
  | some (place, halves) => .error (.halfStored place halves)
  | none => .ok ()

def put (name : String) (row : SlotRow) : Act Slots Unit := do
  let rows ← Act.ask existing
  Act.lift (storable name)
  Act.lift (storable row.text)
  set (⟨some (Table.set rows name row)⟩ : Slots)

/-- The text that a value is kept as, of a scalar the fifteen digits that scaling finds; null and what
is no number are not kept. -/
def kept : Value ρ → Except Fault String
  | .text s => .ok s
  | .num (.flag b) => .ok (if b then "1" else "0")
  | .num (.int i) =>
    if i < -(Nat.pow 2 63 : Int) ∨ (Nat.pow 2 63 : Int) ≤ i then .error .tooLarge
    else .ok (toString i)
  | .num (.real x) =>
    match Scalar.extent x with
    | .finite q =>
      let size := if q.num = 0 then ⟨0, 0⟩ else Decimal.scaled (mkRat q.num.natAbs q.den)
      .ok (Layout.kept.write (decide (q.num < 0)) size)
    | .infinite negative => .ok (if negative then "-Inf" else "Inf")
    | .undefined => .error .slotRefused
  | .null => .error .slotRefused
  | _ => .error .notKept

def fill (name : String) (body : Value ρ) : Act Slots Unit := do
  let rows ← Act.ask existing
  let text ← Act.lift (kept body)
  Act.lift (storable name)
  Act.lift (storable text)
  if Table.has rows name then throw .slotRefused
  put name ⟨text, 1⟩

def delete (name : String) : Act Slots Unit := do
  let rows ← Act.ask existing
  Act.lift (storable name)
  set (⟨some (Table.erase rows name)⟩ : Slots)

/-- Saves to a slot; tells whether the save is there. A snapshot whose parts make no payload stops the
save, one whose payload has no text only fails. -/
def save (name : String) (snapshot : Option (Snapshot ρ)) : Act Slots Bool := do
  let some snapshot := snapshot | return false
  let parts ← Act.lift snapshot.parts
  match parts.payload >>= Json.write none with
  | .error (.tooDeep place) => throw (.tooDeep place)
  | .error _ => return false
  | .ok text =>
    match ← Act.attempt (put name ⟨text, Snapshot.formatVersion⟩) with
    | .ok () => return true
    | .error _ => return false

/-- The snapshot that is saved in a slot, none where there is none or it cannot be read. -/
def load (slots : Slots) (name : String) : Except Fault (Option (Snapshot ρ)) :=
  match slots.rows with
  | none => return none
  | some rows => do
    storable name
    let some row := Table.get? rows name | return none
    match ← Json.read row.text with
    | none => return none
    | some payload => Snapshot.ofPayload payload

def isThere (slots : Slots) (ρ : Type) [Scalar ρ] (name : String) : Except Fault Bool := do
  return (← (load slots name : Except Fault (Option (Snapshot ρ)))).isSome

end Slots

end Storyworld
