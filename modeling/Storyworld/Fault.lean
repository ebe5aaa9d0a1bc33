import Storyworld.Text.Quoted

/-!
This module contains the causes for which an operation stops, and computations that keep the state
they have reached when they stop.
-/

namespace Storyworld

/-- Why an operation stopped. -/
inductive Fault where
  /-- A value is of a kind that the operation does not take. -/
  | wrongKind
  /-- A value has not the part that the operation looks for. -/
  | missingPart
  /-- A value of a kind that is made of nothing was to be taken apart. -/
  | notIterable (kind : String)
  /-- A value is of the right kind and cannot be read. -/
  | unreadable
  /-- A text of digits that write no number. -/
  | notWhole (text : String)
  /-- A whole number has more digits than are read. -/
  | tooManyDigits (count : Nat)
  /-- A whole number is too large for a scalar. -/
  | tooLarge
  /-- Something infinite was to become a whole number. -/
  | infiniteWhole
  | divisionByZero
  /-- A location has no name at all. -/
  | locationRequired
  /-- A location that the registry does not hold. -/
  | notRegistered (location : String)
  /-- Travel without a map to travel on. -/
  | navigationRequired
  /-- A path has a character that no path can have. -/
  | pathRefused
  /-- A text that is to be stored has halves of pairs in it, after so many characters. -/
  | halfStored (place : Nat) (halves : List Nat)
  /-- A path is too long to be looked up, or a name in it is. -/
  | pathTooLong (path : String)
  /-- The table of the save slots does not exist. -/
  | noSlots
  /-- A collaborator failed; the name tells how. -/
  | collaborator (name : String)
  /-- Something was to be shown that is no text. -/
  | notDrawable
  /-- A slot was to be filled that is taken, or filled with nothing. -/
  | slotRefused
  /-- A value is of a kind that no slot holds. -/
  | notKept
  /-- Something is nested too deep; the text tells where that was found. -/
  | tooDeep (place : String)
  /-- The player broke off. -/
  | interrupted
deriving DecidableEq, Repr

/-- How much of the quoted form of a text a fault shows. -/
def Fault.shownLength : Nat := 200

def Fault.message : Fault → String
  | .wrongKind => "a value is of the wrong kind"
  | .missingPart => "a value lacks a part"
  | .notIterable kind => s!"'{kind}' object is not iterable"
  | .unreadable => "a value cannot be read"
  | .notWhole text =>
    "invalid literal for int() with base 10: "
      ++ String.ofList ((Text.quoted text).toList.take Fault.shownLength)
  | .tooManyDigits count =>
    s!"Exceeds the limit (4300 digits) for integer string conversion: value has {count} digits; "
      ++ "use sys.set_int_max_str_digits() to increase the limit"
  | .tooLarge => "int too large to convert to float"
  | .infiniteWhole => "cannot convert float infinity to integer"
  | .divisionByZero => "float modulo"
  | .locationRequired => "location_id is required"
  | .notRegistered location => s!"Location not registered: {location}"
  | .navigationRequired => "MovementManager requires a SceneCache"
  | .pathRefused => "embedded null byte"
  | .halfStored place [half] =>
    "'utf-8' codec can't encode character '\\u" ++ String.ofList (Text.hex 4 half)
      ++ s!"' in position {place}: surrogates not allowed"
  | .halfStored place halves =>
    s!"'utf-8' codec can't encode characters in position {place}-{place + halves.length - 1}: "
      ++ "surrogates not allowed"
  | .pathTooLong path => "[Errno 36] File name too long: " ++ Text.quoted path
  | .noSlots => "no such table: save_slot"
  | .collaborator _ => "listener failed"
  | .notDrawable => "a value cannot be drawn"
  | .slotRefused => "a slot cannot be filled"
  | .notKept => "a value cannot be kept"
  | .tooDeep place => "maximum recursion depth exceeded" ++ place
  | .interrupted => ""

/-- A computation on a state; when it stops with a fault, the state reached stays. -/
abbrev Act (σ α : Type) := ExceptT Fault (StateM σ) α

namespace Act

variable {σ τ α : Type}

def run (act : Act σ α) (s : σ) : Except Fault α × σ := Id.run (StateT.run (ExceptT.run act) s)

def of (f : σ → Except Fault α × σ) : Act σ α := ExceptT.mk fun s => pure (f s)

def ask (f : σ → Except Fault α) : Act σ α := of fun s => (f s, s)

def lift (x : Except Fault α) : Act σ α := ask fun _ => x

def within (part : σ → τ) (put : τ → σ → σ) (act : Act τ α) : Act σ α :=
  of fun s =>
    let (result, t) := act.run (part s)
    (result, put t s)

def onFirst (act : Act σ α) : Act (σ × τ) α := within Prod.fst (fun s p => (s, p.2)) act

def onSecond (act : Act τ α) : Act (σ × τ) α := within Prod.snd (fun t p => (p.1, t)) act

/-- Gives the value of a computation and none where it stops; the state reached stays. -/
def attempt (act : Act σ α) : Act σ (Except Fault α) :=
  of fun s =>
    let (result, s) := act.run s
    (.ok result, s)

@[simp] theorem run_of (f : σ → Except Fault α × σ) (s : σ) : (of f).run s = f s := rfl

@[simp] theorem run_pure (a : α) (s : σ) : (pure a : Act σ α).run s = (.ok a, s) := rfl

@[simp] theorem run_throw (e : Fault) (s : σ) : (throw e : Act σ α).run s = (.error e, s) := rfl

end Act

end Storyworld
