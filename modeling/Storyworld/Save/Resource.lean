import Storyworld.Text.Percent

/-!
This module contains the resources that databases are opened from: a name, and options that say how.
A text that starts with the scheme of files writes a resource as a URI, any other is a name.
-/

namespace Storyworld

/-- The name of a database, with the options of its file in order. -/
structure Resource where
  name : String
  options : List (String × String) := []
deriving DecidableEq, Repr

namespace Resource

def start : List Char := "file:".toList

def withoutMachine? (cs : List Char) : Option (List Char) :=
  match cs with
  | '/' :: '/' :: rest =>
    let (machine, path) := rest.span (· != '/')
    if machine.isEmpty ∨ String.ofList machine = "localhost" then some path else none
  | cs => some cs

def beforeZero : List Char → List Char
  | [] => []
  | '%' :: '0' :: '0' :: _ => []
  | c :: cs => c :: beforeZero cs

def partText (cs : List Char) : String := 
  Text.nameOfBytes (Text.percentBytes (Text.bytesOf (beforeZero cs)))

def optionsOf (cs : List Char) : List (String × String) :=
  (Text.piecesOn '&' cs).filterMap fun piece =>
    let (name, value) := Text.cutAt '=' piece
    let name := partText name
    if name = "" then none else some (name, partText value)

/-- The resource that a text writes, none where it names another machine, or has a zero in it or what
has no bytes. -/
def ofText? (s : String) : Option Resource :=
  if !Text.hasBytes s || s.toList.contains '\x00' then none
  else
    match Text.behind? start s.toList with
    | none => some { name := s }
    | some rest => do
      let (path, options) := Text.cutAt '?' ((← withoutMachine? rest).takeWhile (· != '#'))
      return ⟨partText path, optionsOf options⟩

def valuesOf (r : Resource) (name : String) : List String :=
  r.options.filterMap fun (n, value) => if n = name then some value else none

end Resource

end Storyworld
