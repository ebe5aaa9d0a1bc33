import Storyworld.Effect
import Storyworld.Requirement
import Storyworld.Save
import Storyworld.Terminal
import Storyworld.Text.Bytes
import Storyworld.View.Script

/-!
This module contains reports: the state of play, and what is shown of it, as records of content for
those who look on from outside.
-/

namespace Storyworld

variable {ρ : Type}

namespace Report

def pairs (entries : List (String × Value ρ)) : Value ρ :=
  .list (entries.map fun (k, v) => .list [.text k, v])

def texts (l : List String) : Value ρ := .list (l.map .text)

def count (n : Nat) : Value ρ := .int n

def optional {α : Type} (f : α → Value ρ) : Option α → Value ρ
  | some a => f a
  | none => .null

/-! ### Trees -/

def node (name : String) (fields : Record ρ) : Value ρ := .object (("node", .text name) :: fields)

mutual

def expr {α : Type} (leaf : α → Value ρ) : Expr α → Value ρ
  | .nothing => node "Expression" []
  | .leaf a => leaf a
  | .test _ => node "Predicate" []
  | .always b => node "Always" [("value", .flag b)]
  | .sequence es => node "Sequence" [("children", .list (exprs leaf es))]
  | .negate e => node "Not" [("inner", expr leaf e)]
  | .all es => node "All" [("items", .list (exprs leaf es))]
  | .any es => node "AnyOf" [("items", .list (exprs leaf es))]

def exprs {α : Type} (leaf : α → Value ρ) : List (Expr α) → List (Value ρ)
  | [] => []
  | e :: es => expr leaf e :: exprs leaf es

end

def condition : Condition ρ → Value ρ
  | .unknown token => node "Unknown" [("token", .text token), ("value", .flag true)]
  | .playerHas item qty => node "HasPlayerItem" [("item_id", .text item), ("qty", .num qty)]
  | .locationHas item qty => node "HasLocationItem" [("item_id", .text item), ("qty", .num qty)]
  | .npcIs npc => node "CurrentNpc" [("npc_id", .text npc)]
  | .sceneIs scene => node "CurrentScene" [("scene_id", .text scene)]
  | .daypart part => node "TimeWindow" [("kind", .text part.name), ("start", .null), ("end", .null)]
  | .hours start finish =>
    node "TimeWindow" [("kind", .text "hours"), ("start", .real start), ("end", optional .real finish)]
  | .seen token => node "EventSeen" [("token", .text token)]
  | .trait name comparison bound =>
    node "TraitCompare" [("name", .text name), ("op", .text comparison.sign), ("rhs", .num bound)]

def effect : Effect ρ → Value ρ
  | .go location scene =>
    node "Go" [("location_id", .text location), ("scene_id", Value.ofText? scene)]
  | .trait name delta => node "ChangeTrait" [("name", .text name), ("delta", .real delta)]
  | .event token args => node "DomainEvent" [("token", .text token), ("args", texts args)]
  | .time hours => node "Time" [("hours", .real hours)]

/-! ### The state of play -/

def location (v : LocationView ρ) : Value ρ :=
  .object [("id", .text v.id), ("name", .text v.name), ("background", v.background)]

def registry (r : Registry ρ) : Value ρ :=
  .list (r.map fun (_, v) => .list [.text v.id, .text v.name, v.background])

def scene (s : Scene ρ) : Record ρ :=
  [("id", .text s.id), ("location_id", .text s.location),
    ("description",
      match s.description with
      | .line l => .text l
      | .lines ls => texts ls),
    ("option_ids", texts s.options), ("npc_ids", texts s.npcs), ("path", texts s.path),
    ("items", .list (s.items.map .object))]

def navigation (n : Navigation ρ) : Record ρ :=
  [("pointer", optional Pointer.toValue n.pointer), ("history", .list (n.history.map Pointer.toValue))]

def trait (t : Trait ρ) : Value ρ :=
  .object [("name", .text t.name), ("description", t.description), ("side", t.side),
    ("value", .num t.value)]

def traitValues (book : TraitBook ρ) : Value ρ :=
  pairs (book.traits.map fun t => (t.name, .num t.value))

def counts (inv : Inventory) : Value ρ := pairs (Table.mapEntries count inv.counts)

def item (e : ItemEntry ρ) : Value ρ :=
  .object [("id", .text e.id), ("name", .text e.name), ("quantity", count e.quantity),
    ("description", .text e.description), ("speed", optional .real e.speed),
    ("traits", .object (Table.mapEntries .real e.traits))]

def row (r : LedgerRow ρ × Number ρ) : Value ρ :=
  .object [("defaults", .num r.1.defaults), ("added", .num r.1.added),
    ("removed", .num r.1.removed), ("net", .num r.2)]

def choice (c : Choice ρ) : Value ρ :=
  .object [("id", .text c.id), ("name", .text c.name), ("meta", .object c.details)]

def choices (cs : List (Choice ρ)) : Value ρ := .list (cs.map choice)

def pathEntry (e : PathEntry ρ) : Value ρ :=
  .object [("id", e.id), ("name", e.name), ("meta", e.details)]

def npc (n : NpcPanel ρ) : Value ρ :=
  .object [("id", n.id), ("name", .text n.name), ("description", .text n.description),
    ("dialogue", .text n.dialogue)]

def sceneView (d : SceneView ρ) : Value ρ :=
  .object [("location", location d.location), ("scene_id", .text d.scene),
    ("description", texts d.description), ("npc", optional npc d.npc),
    ("options", .list (d.options.map fun (i, n) => .list [i, .text n]))]

def pack (p : PackView ρ) : Value ρ :=
  let item (i : ItemView ρ) : Value ρ :=
    .object [("id", i.id), ("name", i.name), ("quantity", i.quantity),
      ("description", i.description)]
  .object [("items", .list (p.items.map item)), ("speed", p.speed)]

def time (t : TimeView ρ) : Value ρ :=
  .object [("time", t.time), ("label", .text t.label), ("window", .text t.window),
    ("game_over", .flag t.ended)]

def shown : Shown ρ → Value ρ
  | .scene d => .list [.text "scene", sceneView d]
  | .path title es => .list [.text "path", .text title, .list (es.map pathEntry)]
  | .pack p => .list [.text "inventory", pack p]
  | .result v => .list [.text "result", v]
  | .time t => .list [.text "time", time t]
  | .message t => .list [.text "message", .text t]

def payload : Payload ρ → Value ρ
  | .value v => v
  | .hours h => .object [("hours", .real h)]
  | .event e =>
    .object [("token", .text e.token), ("head", .text e.head), ("args", .list e.args)]

def published (l : List (String × Payload ρ)) : Value ρ :=
  pairs (l.map fun (topic, p) => (topic, payload p))

def block : Block → Value ρ
  | .text s => .text s
  | .table columns rows => .object [("columns", texts columns), ("rows", .list (rows.map texts))]

def printed : Printed → Value ρ
  | .line s => .text s
  | .panel body title subtitle border =>
    .object [("panel", block body), ("title", Value.ofText? title),
      ("subtitle", Value.ofText? subtitle), ("border", .text border)]

def files (fs : Files) : Value ρ :=
  .object (fs.entries.filterMap fun
    | (p, .file bytes) => some (p.toText, .text (Text.ofBytes bytes))
    | (_, .folder) => none)

def slots (s : Slots) : Except Fault (Value ρ) := do
  return .list ((← s.sorted).map fun (name, row) =>
    .list [.text name, .text row.text, .int row.version])

def snapshot (s : Snapshot ρ) : Value ρ :=
  .object [("location_id", s.location), ("scene_id", s.scene), ("history", s.history),
    ("time", s.time), ("traits", s.traits), ("domain_events", s.events),
    ("inventory", s.inventory), ("world", s.world), ("version", s.version)]

/-- What a clock shows; a clock whose day cannot be told shows nothing. -/
def clock [Scalar ρ] (c : Clock ρ) : Except Fault (Record ρ) := do
  let window ← c.window
  let day ← c.isDay
  return [("time", c.time), ("game_over", .flag c.ended), ("window", .text window),
    ("day", .flag day), ("night", .flag !day)]

def session [Scalar ρ] {σ : Type} (s : Session ρ σ) : Record ρ :=
  navigation s.navigation ++ [("location", s.location), ("time", s.clock.time),
    ("day_ended", .flag s.dayEnded), ("traits", traitValues s.goods.traits),
    ("log", texts s.log.tokens), ("counts", counts s.goods.inventory),
    ("world", .object s.goods.ledger.toRecord), ("speed", .real s.goods.speed)]

end Report

end Storyworld
