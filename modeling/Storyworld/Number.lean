import Storyworld.Fault
import Storyworld.Scalar

/-!
This module contains the numbers of the content: truth values, whole numbers of any size and
scalars. Which of them a result is shows in every answer, so arithmetic says which it gives: whole
numbers stay whole until they meet a scalar.
-/

namespace Storyworld

/-- A number; a truth value counts as one or zero. -/
inductive Number (ρ : Type) where
  | flag (b : Bool)
  | int (i : Int)
  | real (x : ρ)
deriving Repr

namespace Number

variable {ρ : Type}

instance : Inhabited (Number ρ) := ⟨.int 0⟩

/-- The whole number that a number is; a scalar is none. -/
def whole? : Number ρ → Option Int
  | .flag b => some (if b then 1 else 0)
  | .int i => some i
  | .real _ => none

section

variable [Scalar ρ]

def extent : Number ρ → Extent
  | .flag b => .finite (if b then 1 else 0)
  | .int i => .finite i
  | .real x => Scalar.extent x

def lt (a b : Number ρ) : Bool := a.extent.lt b.extent

def le (a b : Number ρ) : Bool := a.extent.le b.extent

def same (a b : Number ρ) : Bool := a.extent.same b.extent

def isFinite (a : Number ρ) : Bool := a.extent.isFinite

def isZero (a : Number ρ) : Bool := a.same (.int 0)

/-- The scalar for a number; whole numbers may be too large. -/
def toReal (a : Number ρ) : Except Fault ρ :=
  match a with
  | .real x => .ok x
  | .flag b => ofInt (if b then 1 else 0)
  | .int i => ofInt i
where
  ofInt (i : Int) : Except Fault ρ := ((Scalar.ofInt? i).map Except.ok).getD (.error .tooLarge)

/-- Combines two numbers: whole ones exactly, any others as scalars. -/
def combine (whole : Int → Int → Int) (real : ρ → ρ → ρ) (a b : Number ρ) :
    Except Fault (Number ρ) :=
  match a.whole?, b.whole? with
  | some i, some j => .ok (.int (whole i j))
  | _, _ => do return .real (real (← a.toReal) (← b.toReal))

def add (a b : Number ρ) : Except Fault (Number ρ) := combine (· + ·) Scalar.add a b

def sub (a b : Number ρ) : Except Fault (Number ρ) := combine (· - ·) Scalar.sub a b

def max (a b : Number ρ) : Number ρ := if a.lt b then b else a

def min (a b : Number ρ) : Number ρ := if b.lt a then b else a

def clampBelow (a : Number ρ) : Number ρ := max (.int 0) a

def truncate (a : Number ρ) : Except Fault Int :=
  match a.extent with
  | .finite q => .ok (Rat.truncate q)
  | .infinite _ => .error .infiniteWhole
  | .undefined => .error .unreadable

def spell : Number ρ → String
  | .flag b => if b then "True" else "False"
  | .int i => toString i
  | .real x => Scalar.spell x

end

end Number

end Storyworld
