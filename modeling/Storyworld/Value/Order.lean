import Storyworld.Text.Code
import Storyworld.Value

/-!
This module contains the order of values and their sums. Numbers are compared by size, texts by
their characters, and lists by the items at the first place where they differ. Values of two kinds
have neither an order nor a sum.
-/

namespace Storyworld.Value

variable {ρ : Type} [Scalar ρ]

mutual

/-- Whether a value comes before another; `tie` is the answer for equal ones. -/
def before (tie : Bool) : Value ρ → Value ρ → Except Fault Bool
  | .num a, .num b => .ok (if tie then a.le b else a.lt b)
  | .text s, .text t => .ok (if tie then (Text.order s t).isLE else (Text.order s t).isLT)
  | .list xs, .list ys => beforeList tie xs ys
  | _, _ => .error .wrongKind

def beforeList (tie : Bool) : List (Value ρ) → List (Value ρ) → Except Fault Bool
  | x :: xs, y :: ys => if x.same y then beforeList tie xs ys else before tie x y
  | [], [] => .ok tie
  | [], _ :: _ => .ok true
  | _ :: _, [] => .ok false

end

def less (a b : Value ρ) : Except Fault Bool := before false a b

def atMost (a b : Value ρ) : Except Fault Bool := before true a b

def operand (v : Value ρ) : Except Fault (Number ρ) :=
  match v with
  | .num n => .ok n
  | _ => .error .wrongKind

/-- The sum of two numbers; texts and lists are put one behind the other. -/
def plus (a b : Value ρ) : Except Fault (Value ρ) :=
  match a, b with
  | .num m, .num n => .num <$> m.add n
  | .text s, .text t => .ok (.text (s ++ t))
  | .list xs, .list ys => .ok (.list (xs ++ ys))
  | _, _ => .error .wrongKind

@[simp] theorem less_num (a b : Number ρ) : less (.num a : Value ρ) (.num b) = .ok (a.lt b) := by
  simp [less, before]

@[simp] theorem atMost_num (a b : Number ρ) : atMost (.num a : Value ρ) (.num b) = .ok (a.le b) := by
  simp [atMost, before]

end Storyworld.Value
