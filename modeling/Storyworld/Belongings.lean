import Storyworld.Bus
import Storyworld.Event
import Storyworld.Inventory
import Storyworld.Ledger
import Storyworld.Scene
import Storyworld.Trait

/-!
This module contains the belongings of the player and the rules by which items change hands: taking
and dropping moves them between the player and a location, gaining and losing brings them in and
out. What is carried sets the travel speed and shifts traits.
-/

namespace Storyworld

/-- What the player carries, what lies about, and what depends on them. -/
structure Belongings (ρ : Type) where
  inventory : Inventory := {}
  ledger : Ledger ρ := {}
  traits : TraitBook ρ := {}
  speed : ρ

namespace Travel

variable {ρ σ : Type} [Scalar ρ]

def baseSpeed : ρ := Scalar.ofDecimal false 1 0

def faster (speed : ρ) (entry : ItemEntry ρ) : ρ :=
  match entry.speed with
  | some s => if Scalar.isFinite s && Scalar.lt speed s then s else speed
  | none => speed

def speed (lookup : ItemLookup ρ σ) (inv : Inventory) : Act σ ρ := do
  return (← inv.entries lookup).foldl faster baseSpeed

def kindTravel : String := "travel"

/-- The time that something takes: travel is faster with speed; what is no number of hours takes
none. -/
def hours (speed : ρ) (hours : Value ρ) (kind : String) : Except Fault (Value ρ) := do
  match ← hours.finite? with
  | none => return .int 0
  | some h =>
    if !Scalar.lt Scalar.zero h then return .int 0
    if kind = kindTravel then return .real (Scalar.div h speed)
    return .real h

end Travel

/-- The ways in which items change hands. -/
inductive ItemVerb where
  | take
  | drop
  | gain
  | lose
deriving DecidableEq, Repr

namespace ItemVerb

def all : List ItemVerb := [.take, .drop, .gain, .lose]

def name : ItemVerb → String
  | .take => "take"
  | .drop => "drop"
  | .gain => "gain"
  | .lose => "lose"

def topic (verb : ItemVerb) : String := verb.name ++ ":*"

def ofName? (s : String) : Option ItemVerb := all.find? (·.name == s)

/-- Puts a handler for each verb on a bus. -/
def register {η : Type} (handler : ItemVerb → η) (bus : Bus η) : Bus η :=
  all.foldl (fun bus verb => bus.subscribe verb.topic (handler verb) 40) bus

end ItemVerb

namespace Belongings

variable {ρ σ : Type} [Scalar ρ]

instance : Inhabited (Belongings ρ) := ⟨{ speed := Travel.baseSpeed }⟩

def speedListener : String := "speed"

def traitListener : String := "traits"

def onInventory {α : Type} (act : Act Inventory α) : Act (Belongings ρ × σ) α :=
  Act.onFirst (Act.within inventory (fun inventory b => { b with inventory }) act)

def onLedger {α : Type} (act : Act (Ledger ρ) α) : Act (Belongings ρ × σ) α :=
  Act.onFirst (Act.within ledger (fun ledger b => { b with ledger }) act)

def onTraits {α : Type} (act : Act (TraitBook ρ) α) : Act (Belongings ρ × σ) α :=
  Act.onFirst (Act.within traits (fun traits b => { b with traits }) act)

def recomputeSpeed (lookup : ItemLookup ρ σ) : Act (Belongings ρ × σ) Unit := do
  let speed ← Act.onSecond (Travel.speed lookup (← get).1.inventory)
  Act.onFirst (modify fun b => { b with speed })

def shiftTraits (delta : Int) : List (String × Value ρ) → Act (Belongings ρ × σ) Unit
  | [] => return ()
  | (name, .num n) :: ms => do
    let amount := Scalar.mul (← Act.lift n.toReal) (← Act.lift (Number.int delta.natAbs).toReal)
    if 0 < delta then
      let _ ← onTraits (TraitBook.increase name (.real amount))
    else if delta < 0 then
      let _ ← onTraits (TraitBook.decrease name (.real amount))
    shiftTraits delta ms
  | _ :: ms => shiftTraits delta ms

/-- What a listener does with a change; others do nothing here. -/
def hear (lookup : ItemLookup ρ σ) (listener : String) (change : InventoryChange) :
    Act (Belongings ρ × σ) Unit := do
  if listener = speedListener then recomputeSpeed lookup
  else if listener = traitListener then
    let row ← Act.onSecond (lookup.record change.item)
    shiftTraits change.delta (Record.field row "traits").recordD

def tell (lookup : ItemLookup ρ σ) :
    List (String × InventoryChange) → Act (Belongings ρ × σ) Unit :=
  Inventory.deliver (hear lookup)

def receive (lookup : ItemLookup ρ σ) (id qty : Value ρ) : Act (Belongings ρ × σ) Nat := do
  let (amount, notices) ← onInventory (Inventory.add id qty)
  tell lookup notices
  return amount

def surrender (lookup : ItemLookup ρ σ) (id qty : Value ρ) : Act (Belongings ρ × σ) Nat := do
  let (amount, notices) ← onInventory (Inventory.remove id qty)
  tell lookup notices
  return amount

/-- How many items an event is about: the second word, one where there is none. -/
def eventQuantity (args : List (Value ρ)) : Except Fault Nat :=
  match args with
  | _ :: qty :: _ => qty.count 1
  | _ => .ok 1

def take (lookup : ItemLookup ρ σ) (location item : Value ρ) (qty : Nat) :
    Act (Belongings ρ × σ) Unit := do
  let taken ← onLedger (Ledger.remove location item (.int qty))
  if Number.lt (.int 0) taken then
    let whole ← Act.lift taken.truncate
    let _ ← receive lookup item (.int whole)

def drop (lookup : ItemLookup ρ σ) (location item : Value ρ) (qty : Nat) :
    Act (Belongings ρ × σ) Unit := do
  let dropped ← surrender lookup item (.int qty)
  if 0 < dropped then onLedger (Ledger.add location item (.int dropped))

/-- Items change hands. `here` is the location of the player, or why that cannot be said; without
one nothing is taken or dropped. -/
def handle (lookup : ItemLookup ρ σ) (verb : ItemVerb) (here : Except Fault (Value ρ))
    (e : DomainEvent ρ) : Act (Belongings ρ × σ) Unit := do
  match e.args with
  | [] => return ()
  | item :: _ =>
    if item.isGiven then
      match verb with
      | .take => do
        let location ← Act.lift here
        if location.isGiven then take lookup location item (← Act.lift (eventQuantity e.args))
      | .drop => do
        let location ← Act.lift here
        if location.isGiven then drop lookup location item (← Act.lift (eventQuantity e.args))
      | .gain => do
        let _ ← receive lookup item (.int (← Act.lift (eventQuantity e.args)))
      | .lose => do
        let _ ← surrender lookup item (.int (← Act.lift (eventQuantity e.args)))

/-- Items change hands as a published event says; anything else that is published has no items. -/
def handlePayload (lookup : ItemLookup ρ σ) (verb : ItemVerb) (here : Except Fault (Value ρ)) :
    Payload ρ → Act (Belongings ρ × σ) Unit
  | .event e => handle lookup verb here e
  | _ => throw .missingPart

end Belongings

end Storyworld
