import Storyworld.Event
import Storyworld.Value.Text
import Storyworld.Value.Reading
import Storyworld.Text.Token

/-!
This module contains effects: what content does when an option is played. An effect is a token such
as `go:market:gate` or `trait:luck:1`, a mapping, or a list of effects, nested to any depth. Read,
it is the list of its actions in order; what is not understood contributes none. There is a limit on how
deep an effect may be nested.
-/

namespace Storyworld

/-- One action of an effect. -/
inductive Effect (ρ : Type) where
  | go (location : String) (scene : Option String)
  | trait (name : String) (delta : ρ)
  | event (token : String) (args : List String)
  | time (hours : ρ)

namespace Effect

variable {ρ : Type} [Scalar ρ]

def nonempty? (s : String) : Option String := if s = "" then none else some s

def jump (location : String) (scene : Option String) : List (Effect ρ) :=
  if location = "" then [] else [.go location scene]

/-- The actions of a token without blanks around it. -/
def ofToken (token : String) : List (Effect ρ) :=
  if token = "" then []
  else
    let (head, rest) := Text.cut token
    if head = "go" then
      let (location, scene) := Text.cut rest
      jump location (nonempty? (Text.cut scene).1)
    else if head = "time" then
      ((Value.finiteText? rest).map .time).toList
    else if head = "trait" ∨ head = "changeTrait" then
      let (name, delta) := Text.cut rest
      if name = "" then [] else ((Value.finiteText? delta).map (.trait name)).toList
    else [.event token (Text.words rest)]

def firstGiven (r : Record ρ) (names : List String) : Value ρ :=
  match names with
  | [] => .null
  | n :: ns => (Record.field r n).orElse (firstGiven r ns)

def givenText? (v : Value ρ) : Option String := if v.isGiven then some v.display else none

def ofPlace (r : Record ρ) : Option (List (Effect ρ)) :=
  (givenText? (firstGiven r ["locationId", "location_id", "location"])).map fun location =>
    [.go location (givenText? (firstGiven r ["sceneId", "scene_id"]))]

def argsOf (v : Value ρ) : List String :=
  if v.isGiven then
    match v with
    | .list xs => xs.map Value.display
    | v => [v.display]
  else []

/-- The actions of a mapping that holds no further effects. -/
def ofRecord (r : Record ρ) : List (Effect ρ) :=
  match Record.field r "go" with
  | .text route =>
    let (location, scene) := Text.cut route
    jump location (nonempty? scene)
  | .object place => (ofPlace place).getD []
  | _ =>
    match ofPlace r with
    | some es => es
    | none =>
      match givenText? (Record.field r "token") with
      | some token => [.event token (argsOf (Record.field r "args"))]
      | none => []

mutual

def ofValue : Value ρ → List (Effect ρ)
  | .text token => ofToken (Text.strip token)
  | .list xs => ofValues xs
  | .object ms =>
    match ofMember "effects" ms with
    | some es => es
    | none => (ofMember "effect" ms).getD (ofRecord ms)
  | .null => []
  | .num _ => []
  | .target .. => []
  | .pointer .. => []

def ofValues : List (Value ρ) → List (Effect ρ)
  | [] => []
  | x :: xs => ofValue x ++ ofValues xs

def ofMember (name : String) : List (String × Value ρ) → Option (List (Effect ρ))
  | [] => none
  | (k, v) :: ms =>
    if k = name then (if v.isNull then none else some (ofValue v)) else ofMember name ms

end

/-! ### The limit on nesting -/

/-- How much room there is to read a definition. -/
def roomLimit : Nat := 990

/-- The room that a list takes. -/
def listRoom : Nat := 3

/-- The room that a mapping or a token takes. -/
def ownRoom : Nat := 2

def textNames : List String :=
  ["locationId", "location_id", "location", "sceneId", "scene_id", "token", "args"]

def textsFit (r : Record ρ) : Bool :=
  textNames.all fun name => (Record.field r name).isWithin Value.textDepth

mutual

/-- Whether a definition can be read with so much room. -/
def fits (room : Nat) : Value ρ → Bool
  | .list xs => Nat.blt listRoom room && allFit (room - listRoom) xs
  | .object ms =>
    Nat.blt ownRoom room
      && ((memberFits (room - ownRoom) "effects" ms).getD
        ((memberFits (room - ownRoom) "effect" ms).getD
          (textsFit ms && textsFit (Record.field ms "go").recordD)))
  | .text _ => Nat.blt ownRoom room
  | .null => true
  | .num _ => true
  | .target .. => true
  | .pointer .. => true

def allFit (room : Nat) : List (Value ρ) → Bool
  | [] => true
  | x :: xs => fits room x && allFit room xs

/-- Whether a member can be read, none where it is missing or null. -/
def memberFits (room : Nat) (name : String) : List (String × Value ρ) → Option Bool
  | [] => none
  | (k, v) :: ms =>
    if k = name then (if v.isNull then none else some (fits room v)) else memberFits room name ms

end

/-- The actions of an effect that content defines; stops at a definition that is nested too deep. -/
def read (definition : Value ρ) : Except Fault (List (Effect ρ)) :=
  if fits roomLimit definition then .ok (ofValue definition) else .error (.tooDeep "")

def isRecognised (definition : Value ρ) : Except Fault Bool := do
  return definition.isNull || !(← read definition).isEmpty

def compile (definition cost : Value ρ) : Except Fault (List (Effect ρ)) := do
  let time :=
    match ← cost.finite? with
    | some hours => if Scalar.lt Scalar.zero hours then [.time hours] else []
    | none => []
  return time ++ (← read definition)

def describe : Effect ρ → String
  | .go location scene =>
    "Go(location_id=" ++ Text.quoted location ++ ", scene_id="
      ++ (Value.ofText? scene : Value ρ).literal ++ ")"
  | .trait name delta =>
    "ChangeTrait(name=" ++ Text.quoted name ++ ", delta=" ++ Scalar.spell delta ++ ")"
  | .event token args =>
    "DomainEvent(token=" ++ Text.quoted token ++ ", args="
      ++ (Value.list (args.map Value.text) : Value ρ).literal ++ ")"
  | .time hours => "Time(hours=" ++ Scalar.spell hours ++ ")"

end Effect

end Storyworld
