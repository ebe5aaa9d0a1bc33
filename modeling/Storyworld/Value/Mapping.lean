import Storyworld.Json.Writer
import Storyworld.Value.Text

/-!
This module contains the mappings that values can be turned into: objects as they are, and lists of
pairs. The keys of a mapping are any values that do not change, and each comes once.
-/

namespace Storyworld

abbrev Mapping (ρ : Type) := List (Value ρ × Value ρ)

namespace Mapping

variable {ρ : Type} [Scalar ρ]

/-- Gives a key a value: in its place, or at the end. -/
def set (m : Mapping ρ) (key v : Value ρ) : Mapping ρ :=
  match m with
  | [] => [(key, v)]
  | (k, w) :: m => if k.same key then (k, v) :: m else (k, w) :: set m key v

/-- The record of a mapping; every key stands under its text. -/
def named (m : Mapping ρ) : Record ρ := Table.ofList (m.map fun (k, v) => (k.display, v))

end Mapping

namespace Value

variable {ρ : Type} [Scalar ρ]

def memberName : Value ρ → Except Fault String
  | .null => .ok "null"
  | .num n => Json.writeNumber n
  | .text s => .ok s
  | _ => .error .wrongKind

/-- The members that a mapping has in a JSON text; several keys may get one name there. -/
def membersOf (m : Mapping ρ) : Except Fault (Value ρ) :=
  .object <$> m.mapM fun (k, v) => do return (← k.memberName, v)

/-- Whether a value can be a key: lists and objects may change, and so may what holds them. -/
def isKey : Value ρ → Bool
  | .list _ => false
  | .object _ => false
  | .target l s => isKey l && isKey s
  | .pointer l s => isKey l && isKey s
  | _ => true

/-- The two parts of a pair. -/
def pairOf : Value ρ → Except Fault (Value ρ × Value ρ)
  | .list [k, v] => .ok (k, v)
  | .list _ => .error .unreadable
  | .text s =>
    match Text.characters s with
    | [k, v] => .ok (.text k, .text v)
    | _ => .error .unreadable
  | .object [(k, _), (v, _)] => .ok (.text k, .text v)
  | .object _ => .error .unreadable
  | _ => .error .wrongKind

/-- What kind of thing a value is, as faults name it. -/
def kindName : Value ρ → String
  | .null => "NoneType"
  | .num (.flag _) => "bool"
  | .num (.int _) => "int"
  | .num (.real _) => "float"
  | .text _ => "str"
  | .list _ => "list"
  | .object _ => "dict"
  | .target .. | .pointer .. => "object"

/-- The items that a value is made of: those of a list, the characters of a text, or the names of an
object. -/
def items (v : Value ρ) : Except Fault (List (Value ρ)) :=
  match v with
  | .list xs => .ok xs
  | .text s => .ok ((Text.characters s).map .text)
  | .object ms => .ok (ms.map fun m => .text m.1)
  | v => .error (.notIterable v.kindName)

def itemsOr (v : Value ρ) : Except Fault (List (Value ρ)) := if v.isGiven then v.items else .ok []

def mappingOf (m : Mapping ρ) : List (Value ρ) → Except Fault (Mapping ρ)
  | [] => .ok m
  | x :: xs => do
    let (k, v) ← x.pairOf
    if k.isKey then mappingOf (m.set k v) xs else .error .wrongKind

def toMapping : Value ρ → Except Fault (Mapping ρ)
  | .object ms => .ok (ms.map fun (k, v) => (.text k, v))
  | v => do mappingOf [] (← v.items)

def toRecord : Value ρ → Except Fault (Record ρ)
  | .object ms => .ok ms
  | v => Mapping.named <$> v.toMapping

def membersOr (v : Value ρ) : Except Fault (Record ρ) :=
  if v.isGiven then (v.record?.map Except.ok).getD (.error .missingPart) else .ok []

end Value

end Storyworld
