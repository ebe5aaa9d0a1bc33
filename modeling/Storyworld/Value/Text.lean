import Storyworld.Fault
import Storyworld.Value
import Storyworld.Text.Quoted

/-!
This module contains the text of values: a text stands for itself, and any other value is written
as it would be inside a list. A value that is nested too deep has no text.
-/

namespace Storyworld.Value

variable {ρ : Type} [Scalar ρ]

mutual

/-- The written form of a value, texts in quotes. -/
def literal : Value ρ → String
  | .null => "None"
  | .num n => n.spell
  | .text s => Text.quoted s
  | .list xs => "[" ++ String.intercalate ", " (literals xs) ++ "]"
  | .object ms => "\x7b" ++ String.intercalate ", " (memberLiterals ms) ++ "\x7d"
  | .target l s => "GoTarget(location_id=" ++ literal l ++ ", scene_id=" ++ literal s ++ ")"
  | .pointer l s =>
    "NavigationPointer(location_id=" ++ literal l ++ ", scene_id=" ++ literal s ++ ")"

def literals : List (Value ρ) → List String
  | [] => []
  | x :: xs => literal x :: literals xs

def memberLiterals : List (String × Value ρ) → List String
  | [] => []
  | (k, v) :: ms => (Text.quoted k ++ ": " ++ literal v) :: memberLiterals ms

end

def display : Value ρ → String
  | .text s => s
  | v => literal v

/-- The text of a value without blanks around, empty for one that does not count as given. -/
def key (v : Value ρ) : String := Text.strip (v.orElse (.text "")).display

def textDepth : Nat := 990

def checkDepth (v : Value ρ) : Except Fault Unit :=
  if v.isWithin textDepth then .ok ()
  else .error (.tooDeep " while getting the repr of an object")

/-- Stops at the first value that has no text. -/
def checkAll : List (Value ρ) → Except Fault Unit
  | [] => return ()
  | v :: vs => do
    v.checkDepth
    checkAll vs

def text? (v : Value ρ) : Except Fault String := do
  v.checkDepth
  return v.display

def key? (v : Value ρ) : Except Fault String := do
  v.checkDepth
  return v.key

def given? (v : Value ρ) : Except Fault (Value ρ) :=
  if v.isGiven then .text <$> v.text? else .ok .null

@[simp] theorem display_text (s : String) : (Value.text s : Value ρ).display = s := by
  simp [display]

@[simp] theorem text?_text (s : String) : (Value.text s : Value ρ).text? = .ok s := by
  simp [text?, checkDepth, isWithin, bind, Except.bind, pure, Except.pure]

end Storyworld.Value
