import Storyworld.Value

/-!
This module contains expression trees: structure over leaves that somebody else knows how to
evaluate. Evaluation goes from left to right and stops as soon as the outcome is known; it may be given
only so much room for parts inside parts.
-/

namespace Storyworld

/-- An expression over leaves. -/
inductive Expr (α : Type) where
  /-- An expression without outcome. -/
  | nothing
  | leaf (a : α)
  /-- The truth of a leaf; without a leaf it is true. -/
  | test (a : Option α)
  | always (b : Bool)
  /-- One after the other; the last outcome counts. -/
  | sequence (children : List (Expr α))
  | negate (inner : Expr α)
  | all (items : List (Expr α))
  /-- Any of the items; true without items. -/
  | any (items : List (Expr α))

namespace Expr

instance {α : Type} : Inhabited (Expr α) := ⟨.nothing⟩

variable {α ρ : Type} [Scalar ρ] {m : Type → Type} [Monad m]

mutual

def evaluate (leaf : α → m (Value ρ)) : Expr α → m (Value ρ)
  | .nothing => pure .null
  | .leaf a => leaf a
  | .test none => pure (.flag true)
  | .test (some a) => do return .flag (← leaf a).isGiven
  | .always b => pure (.flag b)
  | .sequence es => evaluateSequence leaf .null es
  | .negate e => do return .flag !(← evaluate leaf e).isGiven
  | .all es => do return .flag (← evaluateAll leaf es)
  | .any es => if es.isEmpty then pure (.flag true) else do return .flag (← evaluateAny leaf es)

/-- The last outcome that is not null, `last` if there is none. -/
def evaluateSequence (leaf : α → m (Value ρ)) (last : Value ρ) : List (Expr α) → m (Value ρ)
  | [] => pure last
  | e :: es => do
    let v ← evaluate leaf e
    evaluateSequence leaf (v.orNull last) es

def evaluateAll (leaf : α → m (Value ρ)) : List (Expr α) → m Bool
  | [] => pure true
  | e :: es => do
    if (← evaluate leaf e).isGiven then evaluateAll leaf es else pure false

def evaluateAny (leaf : α → m (Value ρ)) : List (Expr α) → m Bool
  | [] => pure false
  | e :: es => do
    if (← evaluate leaf e).isGiven then pure true else evaluateAny leaf es

end

/-! ### The limit on nesting -/

/-- The room that a leaf takes, and what is decided without one. -/
def leafRoom : Nat := 3

/-- The room that the items of a conjunction or a disjunction take. -/
def itemsRoom : Nat := 3

/-- An expression where there is room for it, else a stop, which is no leaf. -/
def unlessShort (room taken : Nat) (e : Expr (Option α)) : Expr (Option α) :=
  if Nat.blt room taken then .leaf none else e

mutual

/-- An expression with a stop in place of every part that there is no room for. -/
def within (room : Nat) : Expr α → Expr (Option α)
  | .nothing => unlessShort room 1 .nothing
  | .leaf a => unlessShort room leafRoom (.leaf (some a))
  | .test a => unlessShort room leafRoom (.test (a.map some))
  | .always b => unlessShort room leafRoom (.always b)
  | .sequence es => if room = 0 then .leaf none else .sequence (allWithin (room - 1) es)
  | .negate e => if room = 0 then .leaf none else .negate (within (room - 1) e)
  | .all es => if room < itemsRoom then .leaf none else .all (allWithin (room - itemsRoom) es)
  | .any es => if room < itemsRoom then .leaf none else .any (allWithin (room - itemsRoom) es)

def allWithin (room : Nat) : List (Expr α) → List (Expr (Option α))
  | [] => []
  | e :: es => within room e :: allWithin room es

end

mutual

/-- How many parts stand inside one another below an expression. -/
def height : Expr α → Nat
  | .leaf _ => 0
  | .test _ => 0
  | .always _ => 0
  | .nothing => 0
  | .negate e => height e + 1
  | .sequence es => heightList es
  | .all es => heightList es
  | .any es => heightList es

def heightList : List (Expr α) → Nat
  | [] => 0
  | e :: es => max (height e + 1) (heightList es)

end

/-- The outcome of an expression for which there is only so much room; `stop` is that of a part for which
there is none. -/
def evaluateWithin (room : Nat) (leaf : α → m (Value ρ)) (stop : m (Value ρ)) (e : Expr α) :
    m (Value ρ) :=
  (e.within room).evaluate fun
    | some a => leaf a
    | none => stop

/-- One sequence of several expressions; sequences among them are spliced in. -/
def flatten (es : List (Expr α)) : Expr α :=
  .sequence (es.flatMap fun
    | .sequence children => children
    | e => [e])

mutual

/-- The leaves of an expression, from left to right. -/
def leaves : Expr α → List α
  | .leaf a => [a]
  | .test a => a.toList
  | .sequence es => leavesList es
  | .negate e => leaves e
  | .all es => leavesList es
  | .any es => leavesList es
  | .nothing => []
  | .always _ => []

def leavesList : List (Expr α) → List α
  | [] => []
  | e :: es => leaves e ++ leavesList es

end

end Expr

end Storyworld
