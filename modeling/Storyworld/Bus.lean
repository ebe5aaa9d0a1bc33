import Storyworld.Event
import Storyworld.Fault
import Storyworld.Table

/-!
This module contains the bus that events are published on. Handlers are called in the order of their
priority, and of their subscription where priorities are equal. A handler that fails does not keep
the others from being called; its failure is kept.
-/

namespace Storyworld

/-- A handler that waits for a topic. -/
structure Subscription (η : Type) where
  priority : Int
  order : Nat
  handler : η

/-- The subscriptions by topic, and the failures since the last publication started. -/
structure Bus (η : Type) where
  topics : Table (List (Subscription η)) := []
  next : Nat := 0
  failures : List Fault := []

/-- Whether a subscribed topic covers a published one: it is the same, or it ends in a star and the
published one starts with what stands before it. -/
def Topic.covers (subscribed published : String) : Bool :=
  subscribed == published ||
    match subscribed.toList.reverse with
    | '*' :: start => start.reverse.isPrefixOf published.toList
    | _ => false

namespace Bus

variable {η ρ σ : Type}

instance : Inhabited (Bus η) := ⟨{}⟩

def defaultPriority : Int := 100

def subscribe (topic : String) (handler : η) (priority : Int) (bus : Bus η) : Bus η :=
  if topic = "" then bus
  else
    let rows := (Table.get? bus.topics topic).getD []
    { bus with
      topics := Table.set bus.topics topic (rows ++ [⟨priority, bus.next, handler⟩])
      next := bus.next + 1 }

def unsubscribe [BEq η] (topic : String) (handler : η) (bus : Bus η) : Bus η :=
  match Table.get? bus.topics topic with
  | none => bus
  | some rows =>
    { bus with topics := Table.set bus.topics topic (rows.filter fun row => row.handler != handler) }

def clear (bus : Bus η) : Bus η := { bus with topics := [] }

/-- Called before: lower priority, or equal priority and subscribed earlier. -/
def before (a b : Subscription η) : Bool :=
  decide (a.priority < b.priority) || (a.priority == b.priority && Nat.ble a.order b.order)

def reached (bus : Bus η) (topic : String) : List (Subscription η) :=
  (bus.topics.flatMap fun (key, rows) => if Topic.covers key topic then rows else []).mergeSort
    before

def forget (bus : Bus η) : Bus η := { bus with failures := [] }

def record (e : Fault) (bus : Bus η) : Bus η := { bus with failures := bus.failures ++ [e] }

def deliver (modifyBus : (Bus η → Bus η) → σ → σ) (call : η → Act σ Unit) (s : σ)
    (row : Subscription η) : σ :=
  match (call row.handler).run s with
  | (.ok _, s) => s
  | (.error e, s) => modifyBus (record e) s

/-- Publishes a topic on the bus of a state: the handlers that the topic reaches when publication
starts are called one after the other, whatever they do. -/
def publish (bus : σ → Bus η) (modifyBus : (Bus η → Bus η) → σ → σ)
    (call : η → Payload ρ → Act σ Unit) (topic : String) (payload : Payload ρ) (s : σ) : σ :=
  let s := modifyBus forget s
  ((bus s).reached topic).foldl (deliver modifyBus fun h => call h payload) s

end Bus

end Storyworld
