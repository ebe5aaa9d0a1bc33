import Storyworld.Belongings
import Storyworld.Bus
import Storyworld.Effect.Interpreter
import Storyworld.Navigation
import Storyworld.Snapshot
import Storyworld.Turn

/-!
This module contains sessions: the whole state of play, how published events act on it, the turns
that move it on, and its snapshots.
-/

namespace Storyworld

/-- The state of play; `σ` is the state of the sources of the story. -/
structure Session (ρ σ : Type) where
  clock : Clock ρ
  goods : Belongings ρ
  log : EventLog := {}
  navigation : Navigation ρ := {}
  dayEnded : Bool := false
  /-- What was published, in order. -/
  journal : List (String × Payload ρ) := []
  sources : σ

/-- What a session does when something is published. -/
inductive Duty where
  /-- A jump moves the player. -/
  | travel
  /-- Time that goes by moves the clock. -/
  | time
  /-- Items change hands. -/
  | items (verb : ItemVerb)
deriving DecidableEq, Repr

/-- The bus of a session: jumps and time come before items. -/
def Duty.bus : Bus Duty :=
  ItemVerb.register .items
    ((({} : Bus Duty).subscribe Topic.go .travel 10).subscribe Topic.time .time 10)

namespace Session

variable {ρ σ : Type} [Scalar ρ]

def dayListener : String := "day"

def onSources {α : Type} (act : Act σ α) : Act (Session ρ σ) α :=
  Act.within sources (fun sources s => { s with sources }) act

def onNavigation {α : Type} (act : Act (Navigation ρ × σ) α) : Act (Session ρ σ) α :=
  Act.within (fun s => (s.navigation, s.sources))
    (fun (navigation, sources) s => { s with navigation, sources }) act

def onGoods {α : Type} (act : Act (Belongings ρ × σ) α) : Act (Session ρ σ) α :=
  Act.within (fun s => (s.goods, s.sources))
    (fun (goods, sources) s => { s with goods, sources }) act

def onClock {α : Type} (act : Act (Clock ρ) α) : Act (Session ρ σ) α :=
  Act.within clock (fun clock s => { s with clock }) act

def atlas (content : Content ρ σ) (s : Session ρ σ) : Atlas ρ σ :=
  { location := content.location, allows := some (Atlas.openAt s.clock) }

def navigate {α : Type} (content : Content ρ σ) (act : Atlas ρ σ → Act (Navigation ρ × σ) α) :
    Act (Session ρ σ) α := do
  onNavigation (act (atlas content (← get)))

def scene? (content : Content ρ σ) : Act (Session ρ σ) (Option (Scene ρ)) :=
  navigate content Navigation.current

def location (s : Session ρ σ) : Value ρ := (s.navigation.pointer.map Pointer.location).getD .null

def pass (hours : Value ρ) : Act (Session ρ σ) Unit := do
  let told ← onClock (Clock.tick hours)
  if told.any (·.2.ended) then modify fun s => { s with dayEnded := true }

def perform (content : Content ρ σ) (duty : Duty) (payload : Payload ρ) :
    Act (Session ρ σ) Unit :=
  match duty, payload with
  | .travel, .value v => do
    let _ ← navigate content fun atlas => Navigation.apply atlas v
  | .travel, _ => return ()
  | .time, .hours h =>
    if Scalar.lt Scalar.zero h then pass (.real h) else return ()
  | .time, _ => return ()
  | .items verb, payload => do
    let here := (← get).location
    onGoods (Belongings.handlePayload content.lookup verb (.ok here) payload)

/-- Publishes a topic: the duties that it reaches are done, and one that fails does not keep the
others from being done. -/
def publish (content : Content ρ σ) (topic : String) (payload : Payload ρ) :
    Act (Session ρ σ) Unit :=
  modify fun s =>
    Bus.publish (fun _ => Duty.bus) (fun _ s => s) (perform content) topic payload
      { s with journal := s.journal ++ [(topic, payload)] }

def crew (content : Content ρ σ) : Crew ρ (Session ρ σ) where
  publish := some (publish content)
  adjust := some fun name delta => do
    let _ ← onGoods (Belongings.onTraits (TraitBook.increase name (.real delta)))
  note := some fun token =>
    modify fun s => { s with log := s.log.noteText token }

def scope (s : Session ρ σ) : Scope ρ where
  clock := some (.ok s.clock)
  traits := some (.ok s.goods.traits)
  inventory := some (.ok s.goods.inventory)
  log := some (.ok s.log)
  ledger := some (.ok s.goods.ledger)

def itemView (e : ItemEntry ρ) : ItemView ρ :=
  ⟨.text e.id, .text e.name, .int e.quantity, .text e.description⟩

def pack (content : Content ρ σ) : Act (Session ρ σ) (PackView ρ) := do
  let goods := (← get).goods
  let entries ← onSources (goods.inventory.entries content.lookup)
  return { items := entries.map itemView, speed := .real goods.speed }

def timeView (s : Session ρ σ) : Except Fault (TimeView ρ) := do
  return {
    time := s.clock.time
    label := ← Hour.format s.clock.time
    window := ← s.clock.window
    ended := s.clock.ended }

def stage (content : Content ρ σ) : Stage ρ (Session ρ σ) where
  content := content.within sources fun sources s => { s with sources }
  scope
  registry s := s.navigation.registry
  interpret := (crew content).interpret
  scale := some fun hours => Act.ask fun s : Session ρ σ =>
    Travel.hours s.goods.speed hours Travel.kindTravel
  pack := pack content

/-- A session at its start: nothing is carried, and the player is put to a place. -/
def start (content : Content ρ σ) (sources : σ) (traits : TraitBook ρ) (clock : Clock ρ)
    (place : Value ρ) : Except Fault (Session ρ σ) :=
  let inventory : Inventory := { listeners := [Belongings.speedListener, Belongings.traitListener] }
  let s : Session ρ σ := {
    clock := clock.subscribe dayListener
    goods := { inventory, traits, speed := Travel.baseSpeed }
    sources }
  match (navigate content fun atlas => Navigation.start atlas place).run s with
  | (.ok _, s) => .ok s
  | (.error e, _) => .error e

/-- Plays a turn: the items of the scene come to lie about, the time is shown, the scene is played,
and the player goes where the outcome leads. Without a scene there is no turn. -/
def turn {V : Type} (content : Content ρ σ) (view : View ρ V) :
    Act (Turn.Seat ρ (Session ρ σ) V) (Value ρ) := do
  match ← Turn.onPlay (scene? content) with
  | none => return .null
  | some scene =>
    Turn.onPlay (onGoods (Belongings.onLedger
      (Ledger.applyScene (.text scene.location) (.list (scene.items.map .object)))))
    Turn.onView (view.showTime (← Act.lift (timeView (← get).play)))
    let result ← Turn.run (stage content) view scene
    let _ ← Turn.onPlay (navigate content fun atlas => Navigation.apply atlas result)
    return result

def row (p : Pointer ρ) : Value ρ := .list [p.location, p.scene]

/-- What is kept of a session; nothing while the player stands nowhere. -/
def snapshot (s : Session ρ σ) : Option (Snapshot ρ) :=
  s.navigation.pointer.map fun p => {
    location := p.location
    scene := p.scene
    history := .list (s.navigation.history.map row)
    time := s.clock.time
    traits := .object (Table.mapEntries .num s.goods.traits.snapshot)
    events := .list (s.log.tokens.map .text)
    inventory := .object (Table.mapEntries (fun n : Nat => .int n) s.goods.inventory.counts)
    world := .object s.goods.ledger.toRecord }

def pointerOf? (row : Value ρ) : Option (Pointer ρ) :=
  match row with
  | .list [location, scene] => some ⟨location, scene⟩
  | _ => none

def historyOf (snapshot : Snapshot ρ) : List (Pointer ρ) :=
  snapshot.history.listD.filterMap pointerOf?

/-- Takes over all that a snapshot tells, apart from the places. -/
def reload (content : Content ρ σ) (snapshot : Snapshot ρ) : Act (Session ρ σ) Unit := do
  if !snapshot.time.isNull then onClock (Clock.restore snapshot.time)
  onGoods (Belongings.onTraits (TraitBook.load snapshot.traits))
  Act.within log (fun log s => { s with log }) (EventLog.load snapshot.events)
  onGoods (Belongings.onInventory (Inventory.load snapshot.inventory))
  onGoods (Belongings.recomputeSpeed content.lookup)
  onGoods (Belongings.onLedger (Ledger.load snapshot.world))
  modify fun s => { s with dayEnded := false }

def restore (content : Content ρ σ) (snapshot : Snapshot ρ) : Act (Session ρ σ) Unit := do
  reload content snapshot
  let place := Value.pointer snapshot.location snapshot.scene
  let history := Value.list ((historyOf snapshot).map Pointer.toValue)
  let _ ← navigate content fun atlas => Navigation.restore atlas place history

end Session

end Storyworld
