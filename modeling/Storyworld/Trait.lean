import Storyworld.Value.Order
import Storyworld.Value.Reading
import Storyworld.Value.Text

/-!
This module contains the traits of the player: named measures between zero and ten.
-/

namespace Storyworld

/-- A trait. Its description is any content; its side groups it with others. -/
structure Trait (ρ : Type) where
  name : String
  description : Value ρ
  side : Value ρ
  value : Number ρ

namespace Trait

variable {ρ : Type} [Scalar ρ]

/-- Brings a number between zero and ten; what is no number becomes ten. -/
def clamp (n : Number ρ) : Number ρ := Number.clampBelow (Number.min (.int 10) n)

/-- A trait from what content says of it; its name stands in for a missing description. -/
def new (name description side value : Value ρ) : Except Fault (Trait ρ) := do
  let name ← name.text?
  let n ← value.operand
  return ⟨name, description.orElse (.text name), side, clamp n⟩

def assign (t : Trait ρ) (n : Number ρ) : Trait ρ := { t with value := clamp n }

end Trait

/-- The traits in order, who is told of changes, and what they have been told. -/
structure TraitBook (ρ : Type) where
  traits : List (Trait ρ) := []
  listeners : List String := []
  /-- Each listener with the trait it was shown, in order. -/
  told : List (String × Trait ρ) := []

namespace TraitBook

variable {ρ : Type} [Scalar ρ]

instance : Inhabited (TraitBook ρ) := ⟨{}⟩

def find? (book : TraitBook ρ) (name : String) : Option (Trait ρ) :=
  book.traits.find? (·.name == name)

def onSide (book : TraitBook ρ) (side : Value ρ) : List (Trait ρ) :=
  book.traits.filter (·.side.same side)

def total (book : TraitBook ρ) (side : Value ρ) : Except Fault (Number ρ) :=
  (book.onSide side).foldlM (fun sum t => sum.add t.value) (.int 0)

def tell (book : TraitBook ρ) (t : Trait ρ) : TraitBook ρ :=
  { book with told := book.told ++ book.listeners.map (·, t) }

def replace (traits : List (Trait ρ)) (t : Trait ρ) : List (Trait ρ) :=
  match traits with
  | [] => []
  | u :: us => if u.name == t.name then t :: us else u :: replace us t

/-- Computes a new value for the trait of a name from the old one. The result tells whether there is
such a trait. -/
def change (name : String) (f : Number ρ → Except Fault (Number ρ)) : Act (TraitBook ρ) Bool := do
  let book ← get
  match book.find? name with
  | none => return false
  | some t =>
    let t := t.assign (← Act.lift (f t.value))
    set (tell { book with traits := replace book.traits t } t)
    return true

def update (name : String) (v : Value ρ) : Act (TraitBook ρ) Bool :=
  change name fun _ => v.operand

def increase (name : String) (v : Value ρ) : Act (TraitBook ρ) Bool :=
  change name fun old => do old.add (← v.operand)

def decrease (name : String) (v : Value ρ) : Act (TraitBook ρ) Bool :=
  change name fun old => do old.sub (← v.operand)

def reset (book : TraitBook ρ) : TraitBook ρ :=
  let traits := book.traits.map (·.assign (.int 0))
  traits.foldl tell { book with traits }

/-- The value of every name; of several traits of a name the last. -/
def snapshot (book : TraitBook ρ) : Table (Number ρ) :=
  Table.ofList (book.traits.map fun t => (t.name, t.value))

/-- Sets the traits that a mapping names; entries that are no numbers are passed over. -/
def load (values : Value ρ) : Act (TraitBook ρ) Unit :=
  if values.isGiven then
    match values with
    | .object ms => entries ms
    | _ => throw .missingPart
  else return ()
where
  entries : List (String × Value ρ) → Act (TraitBook ρ) Unit
    | [] => return ()
    | (name, v) :: ms => do
      if let some x ← Act.lift v.real? then
        let _ ← update name (.real x)
      entries ms

def subscribe (name : String) (book : TraitBook ρ) : TraitBook ρ :=
  { book with listeners := book.listeners ++ [name] }

end TraitBook

end Storyworld
