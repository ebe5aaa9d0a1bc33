import Storyworld.Value.Text

/-!
This module contains places: pointers to them and the scenes that are played there.
-/

namespace Storyworld

/-- A place: a location and a scene of it, null for none. A place that the player was moved to has
texts; one that was handed over may have any values. -/
structure Pointer (ρ : Type) where
  location : Value ρ
  scene : Value ρ := .null
deriving Repr

namespace Pointer

variable {ρ : Type}

instance : Inhabited (Pointer ρ) := ⟨⟨.null, .null⟩⟩

def same [Scalar ρ] (p q : Pointer ρ) : Bool := p.location.same q.location && p.scene.same q.scene

def ofValue? : Value ρ → Option (Pointer ρ)
  | .pointer location scene => some ⟨location, scene⟩
  | _ => none

def toValue (p : Pointer ρ) : Value ρ := .pointer p.location p.scene

/-- The location of a place, null for what does not count as given; anything else has none. -/
def locationOf [Scalar ρ] : Value ρ → Except Fault (Value ρ)
  | .pointer location _ => .ok location
  | .target location _ => .ok location
  | v => if v.isGiven then .error .missingPart else .ok .null

end Pointer

/-- The description of a scene: one text, or several lines. -/
inductive Description where
  | line (s : String)
  | lines (ls : List String)
deriving DecidableEq, Repr

def Description.shown : Description → List String
  | .line s => if s = "" then [] else [s]
  | .lines ls => ls

/-- A scene. -/
structure Scene (ρ : Type) where
  id : String
  location : String
  description : Description
  options : List String
  npcs : List String
  path : List String
  items : List (Record ρ)

namespace Scene

variable {ρ : Type} [Scalar ρ]

def names (v : Value ρ) : List String :=
  v.listD.foldl (fun seen item =>
    if item.isNull || item.display == "" || seen.contains item.display then seen
    else seen ++ [item.display]) []

/-- What a record says of a scene. A scene without a path of its own has that of its location. -/
def ofRecord (id location : Value ρ) (record : Record ρ) (locationPath : Value ρ) : Scene ρ :=
  let path := Record.field record "path"
  let items := ((Table.get? record "inventory").orElse fun _ => Table.get? record "items").getD .null
  { id := id.display
    location := location.display
    description :=
      match Record.field record "description" with
      | .list ls => .lines (ls.map Value.display)
      | .text s => .line s
      | _ => .line ""
    options := names (Record.field record "optionIds")
    npcs := names (Record.field record "npcIds")
    path := names (if path.list?.isSome then path else locationPath)
    items := items.listD.filterMap Value.record? }

/-- The values that a scene takes texts from. -/
def written (record : Record ρ) (locationPath : Value ρ) : List (Value ρ) :=
  let path := Record.field record "path"
  (Record.field record "description").listD ++ (Record.field record "optionIds").listD
    ++ (Record.field record "npcIds").listD
    ++ (if path.list?.isSome then path else locationPath).listD

/-- The scene of a record; stops at a text that cannot be made. -/
def read (id location : Value ρ) (record : Record ρ) (locationPath : Value ρ) :
    Except Fault (Scene ρ) := do
  Value.checkAll (written record locationPath)
  return ofRecord id location record locationPath

end Scene

end Storyworld
