import Storyworld.Expr
import Storyworld.Fault
import Storyworld.Text.Blank
import Storyworld.Text.Token
import Storyworld.Value.Reading

/-!
This module contains requirements: what content demands of the state of play before it offers an
option or a person. A requirement is a token such as `has:player:coin:2`, a list whose items all
have to hold, or a mapping with the parts `requirements`, `all`, `any` and `not`. What is not
understood stands in the tree as an unknown token. There is a limit on how deep a requirement may be
nested.
-/

namespace Storyworld

/-- How a trait is compared. -/
inductive Comparison where
  | above
  | atLeast
  | below
  | atMost
  | equal
  | same
  | unequal
deriving DecidableEq, Repr

namespace Comparison

def sign : Comparison → String
  | .above => ">"
  | .atLeast => ">="
  | .below => "<"
  | .atMost => "<="
  | .equal => "="
  | .same => "=="
  | .unequal => "!="

def ofSign? (s : String) : Option Comparison :=
  [above, atLeast, below, atMost, equal, same, unequal].find? (·.sign == s)

variable {ρ : Type} [Scalar ρ]

def holds (c : Comparison) (a b : Number ρ) : Bool :=
  match c with
  | .above => b.lt a
  | .atLeast => b.le a
  | .below => a.lt b
  | .atMost => a.le b
  | .equal => a.same b
  | .same => a.same b
  | .unequal => !a.same b

end Comparison

/-- The named windows of time. -/
inductive Daypart where
  | any
  | day
  | night
deriving DecidableEq, Repr

def Daypart.name : Daypart → String
  | .any => "any"
  | .day => "day"
  | .night => "night"

def Daypart.ofName? (s : String) : Option Daypart :=
  [Daypart.any, .day, .night].find? (·.name == s)

/-- One condition on the state of play. -/
inductive Condition (ρ : Type) where
  /-- A token that is not understood; it holds. -/
  | unknown (token : String)
  | playerHas (item : String) (qty : Number ρ)
  | locationHas (item : String) (qty : Number ρ)
  | npcIs (npc : String)
  | sceneIs (scene : String)
  | daypart (part : Daypart)
  | hours (start : ρ) (finish : Option ρ)
  | seen (token : String)
  | trait (name : String) (comparison : Comparison) (bound : Number ρ)

/-- The token of a condition that is not understood. -/
def Condition.unknown? {ρ : Type} : Condition ρ → Option String
  | .unknown token => some token
  | _ => none

abbrev Requirement (ρ : Type) := Expr (Condition ρ)

namespace Requirement

variable {ρ : Type} [Scalar ρ]

/-- What has to be carried or to lie about, by the words of the token. -/
def ofItemWords (token : String) : List String → Condition ρ
  | owner :: item :: rest =>
    if item = "" then .unknown token
    else
      let qty : Option (Number ρ) :=
        match rest with
        | [] => some (.int 1)
        | n :: _ => (Value.finiteText? n).map .real
      match qty with
      | none => .unknown token
      | some qty =>
        if owner = "player" then .playerHas item qty
        else if owner = "location" then .locationHas item qty
        else .unknown token
  | _ => .unknown token

/-- A window of time, by the words of the token. -/
def ofTimeWords (token : String) (words : List String) : Condition ρ :=
  let words :=
    match words with
    | w :: rest => if w = "window" ∨ w = "between" then rest else words
    | [] => []
  match words with
  | [] => .unknown token
  | first :: rest =>
    match Daypart.ofName? (Text.lower first) with
    | some part => .daypart part
    | none =>
      match Value.finiteText? first, rest with
      | none, _ => .unknown token
      | some start, [] => .hours start none
      | some start, last :: _ =>
        match Value.finiteText? last with
        | some finish => .hours start (some finish)
        | none => .unknown token

/-- The comparison of a trait, by the words of the token. -/
def ofTraitWords (token : String) : List String → Condition ρ
  | [] => .unknown token
  | name :: rest =>
    if name = "" then .unknown token
    else
      match rest with
      | [] => .trait name .atLeast (.int 1)
      | [bound] =>
        match Value.finiteText? bound with
        | some x => .trait name .atLeast (.real x)
        | none => .unknown token
      | sign :: bound :: _ =>
        match Comparison.ofSign? sign, Value.finiteText? bound with
        | some c, some x => .trait name c (.real x)
        | _, _ => .unknown token

/-- The condition of a token that is neither empty nor a negation. -/
def ofPlainToken (token : String) : Condition ρ :=
  let (head, rest) := Text.cut token
  let words := Text.words rest
  if head = "has" then ofItemWords token words
  else if head = "currentNpc" ∨ head = "npc" then .npcIs rest
  else if head = "currentScene" ∨ head = "scene" then .sceneIs rest
  else if head = "time" then ofTimeWords token words
  else if head = "event" ∨ head = "effect" then
    if rest = "" then .unknown token else .seen rest
  else if head = "trait" then ofTraitWords token words
  else .unknown token

def negation : List Char := ['n', 'o', 't', ':']

/-- The requirement of a token without blanks around it. Negations may be stacked. -/
def ofChars (cs : List Char) : Requirement ρ :=
  if cs.isEmpty then .always true
  else
    match _h : Text.behind? negation cs with
    | some rest => .negate (ofChars (Text.stripBoth Text.isBlank rest))
    | none => .leaf (ofPlainToken (String.ofList cs))
termination_by cs.length
decreasing_by
  have := Text.length_behind? _h
  have := Text.length_stripBoth_le Text.isBlank rest
  simp [negation] at *
  omega

def ofToken (token : String) : Requirement ρ :=
  ofChars (Text.stripBoth Text.isBlank token.toList)

/-- The parts of a mapping that say what is required. -/
inductive Part where
  | requirements
  | all
  | any
  | not
deriving DecidableEq, Repr

def Part.name : Part → String
  | .requirements => "requirements"
  | .all => "all"
  | .any => "any"
  | .not => "not"

/-- One requirement of several parts: none demands nothing. -/
def join : List (Requirement ρ) → Requirement ρ
  | [] => .always true
  | [r] => r
  | rs => .all rs

mutual

def ofValue : Value ρ → Requirement ρ
  | .text token => ofToken token
  | .list xs => .all (ofValues xs)
  | .object ms =>
    join (ofPart .requirements ms ++ ofPart .all ms ++ ofPart .any ms ++ ofPart .not ms)
  | .null => .always true
  | .num _ => .always true
  | .target .. => .always true
  | .pointer .. => .always true

def ofValues : List (Value ρ) → List (Requirement ρ)
  | [] => []
  | x :: xs => ofValue x :: ofValues xs

/-- The requirement of one part of a mapping, if the mapping has it. What is no list under `all` or
`any` counts as a list of one. -/
def ofPart (part : Part) : List (String × Value ρ) → List (Requirement ρ)
  | [] => []
  | (name, .list xs) :: ms =>
    if name = part.name then
      match part with
      | .requirements => [.all (ofValues xs)]
      | .all => [.all (ofValues xs)]
      | .any => [.any (ofValues xs)]
      | .not => [.negate (.all (ofValues xs))]
    else ofPart part ms
  | (name, v) :: ms =>
    if name = part.name then
      match part with
      | .requirements => [ofValue v]
      | .all => [.all [ofValue v]]
      | .any => [.any [ofValue v]]
      | .not => [.negate (ofValue v)]
    else ofPart part ms

end

/-! ### The limit on nesting -/

/-- How much room there is to read a definition. -/
def roomLimit : Nat := 990

/-- The room that reading a token takes. -/
def tokenRoom : Nat := 4

/-- Whether a token can be read with so much room; each negation takes some. -/
def charsFit : Nat → List Char → Bool
  | 0, _ => false
  | room + 1, cs =>
    match Text.behind? negation (cs.dropWhile Text.isBlank) with
    | some rest => charsFit room rest
    | none => Nat.ble tokenRoom (room + 1)

def Part.ofName? (name : String) : Option Part :=
  [Part.requirements, .all, .any, .not].find? (·.name == name)

/-- The room that the items of a list take. -/
def listRoom : Nat := 2

/-- The room that a part of a mapping takes: itself, and the list that it holds or counts as. -/
def Part.room (part : Part) (isList : Bool) : Nat :=
  match part, isList with
  | .all, _ => 1 + listRoom
  | .any, _ => listRoom
  | _, true => 1 + listRoom
  | _, false => 1

mutual

/-- Whether a definition can be read with so much room. -/
def fits (room : Nat) : Value ρ → Bool
  | .text token => charsFit room token.toList
  | .list xs => Nat.blt listRoom room && allFit (room - listRoom) xs
  | .object ms => partsFit room ms
  | .null => true
  | .num _ => true
  | .target .. => true
  | .pointer .. => true

def allFit (room : Nat) : List (Value ρ) → Bool
  | [] => true
  | x :: xs => fits room x && allFit room xs

def partsFit (room : Nat) : List (String × Value ρ) → Bool
  | [] => true
  | (name, .list xs) :: ms =>
    (match Part.ofName? name with
      | some part => Nat.blt (part.room true) room && allFit (room - part.room true) xs
      | none => true) && partsFit room ms
  | (name, v) :: ms =>
    (match Part.ofName? name with
      | some part => Nat.blt (part.room false) room && fits (room - part.room false) v
      | none => true) && partsFit room ms

end

/-- The requirement that content defines; stops at a definition that is nested too deep. -/
def read (definition : Value ρ) : Except Fault (Requirement ρ) :=
  if fits roomLimit definition then .ok (ofValue definition) else .error (.tooDeep "")

/-- The room that looking at one part takes, beside that of the parts it stands in. -/
def searchRoom : Nat := 2

/-- The tokens that are not understood, from left to right; stops at parts that stand too deep inside
one another. -/
def unknownTokens (r : Requirement ρ) : Except Fault (List String) :=
  if r.height + searchRoom ≤ roomLimit then .ok (r.leaves.filterMap Condition.unknown?)
  else .error (.tooDeep "")

end Requirement

end Storyworld
