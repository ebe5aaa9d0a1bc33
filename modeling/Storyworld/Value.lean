import Storyworld.Number
import Storyworld.Table

/-!
This module contains the values that content, saves and events are made of: JSON trees whose objects
keep the order of their members, and the two kinds of places that the rules of movement hand around.
-/

namespace Storyworld

/-- A value of the content. -/
inductive Value (ρ : Type) where
  | null
  | num (n : Number ρ)
  | text (s : String)
  | list (items : List (Value ρ))
  | object (members : List (String × Value ρ))
  /-- Where a jump leads: a location and a scene of it. -/
  | target (location scene : Value ρ)
  /-- Where the player stands: a location and a scene of it. -/
  | pointer (location scene : Value ρ)
deriving Repr

/-- The members of an object: names in order, each with its value. -/
abbrev Record (ρ : Type) := Table (Value ρ)

namespace Record

variable {ρ : Type}

def field (r : Record ρ) (name : String) : Value ρ := (Table.get? r name).getD .null

end Record

namespace Value

variable {ρ : Type}

instance : Inhabited (Value ρ) := ⟨.null⟩

abbrev flag (b : Bool) : Value ρ := .num (.flag b)

abbrev int (i : Int) : Value ρ := .num (.int i)

abbrev real (x : ρ) : Value ρ := .num (.real x)

def ofText? : Option String → Value ρ
  | some s => .text s
  | none => .null

def isNull : Value ρ → Bool
  | .null => true
  | _ => false

def record? : Value ρ → Option (Record ρ)
  | .object ms => some ms
  | _ => none

/-- The members of an object; other values have none. -/
def recordD (v : Value ρ) : Record ρ := v.record?.getD []

def list? : Value ρ → Option (List (Value ρ))
  | .list xs => some xs
  | _ => none

/-- The items of a list; other values have none. -/
def listD (v : Value ρ) : List (Value ρ) := v.list?.getD []

def number? : Value ρ → Option (Number ρ)
  | .num n => some n
  | _ => none

/-- Whether a value counts as given: neither null nor zero nor empty. -/
def isGiven [Scalar ρ] : Value ρ → Bool
  | .null => false
  | .num n => !n.isZero
  | .text s => s != ""
  | .list xs => !xs.isEmpty
  | .object ms => !ms.isEmpty
  | .target .. => true
  | .pointer .. => true

def orElse [Scalar ρ] (a b : Value ρ) : Value ρ := if a.isGiven then a else b

def orNull (a b : Value ρ) : Value ρ := if a.isNull then b else a

mutual

/-- Equality of values: numbers by what they count, objects without regard to order. -/
def same [Scalar ρ] : Value ρ → Value ρ → Bool
  | .null, .null => true
  | .num a, .num b => a.same b
  | .text s, .text t => s == t
  | .list xs, .list ys => sameList xs ys
  | .object ms, .object ns => ms.length == ns.length && sameMembers ms ns
  | .target l s, .target m t => same l m && same s t
  | .pointer l s, .pointer m t => same l m && same s t
  | _, _ => false

def sameList [Scalar ρ] : List (Value ρ) → List (Value ρ) → Bool
  | [], [] => true
  | x :: xs, y :: ys => same x y && sameList xs ys
  | _, _ => false

def sameMembers [Scalar ρ] : List (String × Value ρ) → Record ρ → Bool
  | [], _ => true
  | (k, v) :: ms, ns =>
    (match Table.get? ns k with
      | some w => same v w
      | none => false) && sameMembers ms ns

end

mutual

/-- Whether a value is nested at most so deep. -/
def isWithin (depth : Nat) : Value ρ → Bool
  | .list xs => Nat.blt 0 depth && allWithin (depth - 1) xs
  | .object ms => Nat.blt 0 depth && membersWithin (depth - 1) ms
  | .target l s => Nat.blt 0 depth && isWithin (depth - 1) l && isWithin (depth - 1) s
  | .pointer l s => Nat.blt 0 depth && isWithin (depth - 1) l && isWithin (depth - 1) s
  | .null => true
  | .num _ => true
  | .text _ => true

def allWithin (depth : Nat) : List (Value ρ) → Bool
  | [] => true
  | x :: xs => isWithin depth x && allWithin depth xs

def membersWithin (depth : Nat) : List (String × Value ρ) → Bool
  | [] => true
  | (_, v) :: ms => isWithin depth v && membersWithin depth ms

end

end Value

end Storyworld
