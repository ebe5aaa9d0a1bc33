import Storyworld.Decimal.Numeral
import Storyworld.Text.Percent

/-!
This module contains the addresses of databases: a scheme, someone who asks, a machine, the name of
the database, and options.
-/

namespace Storyworld

/-- The address of a database on this machine that nobody has to ask for. -/
structure Address where
  scheme : String
  database : Option String
  /-- Names of options with their values, in order. -/
  options : List (String × String) := []
deriving DecidableEq, Repr

namespace Address

/-- What stands behind the last `c`, if there is one. -/
def behindLast? (c : Char) (cs : List Char) : Option (List Char × List Char) :=
  let (after, before) := cs.reverse.span (· != c)
  match before with
  | [] => none
  | _ :: before => some (before.reverse, after.reverse)

/-- The rest of an address behind the name and the password in front of the machine; none where one
of them is given. -/
def withoutUser? (cs : List Char) : Option (List Char) :=
  let (name, rest) := cs.span fun c => c != ':' && c != '/'
  let plain :=
    match behindLast? '@' name with
    | none => some cs
    | some (user, machine) => if user.isEmpty then some (machine ++ rest) else none
  match rest with
  | ':' :: rest =>
    match rest.span (· != '@') with
    | (password, '@' :: rest) => if name.isEmpty && password.isEmpty then some rest else none
    | _ => plain
  | _ => plain

/-- The rest of an address behind the machine; none where one is given. A port has to be zero. -/
def withoutMachine? (cs : List Char) : Option (List Char) :=
  match cs with
  | [] => some []
  | '/' :: _ => some cs
  | '?' :: _ => some cs
  | ':' :: rest =>
    let (port, rest) := rest.span fun c => c != '/' && c != '?'
    if Numeral.readWhole (String.ofList port) = some 0 then some rest else none
  | _ => none

def optionsOf (cs : List Char) : List (String × String) := Text.options (cs.takeWhile (· != '\n'))

def databaseOf (cs : List Char) : Option String × List (String × String) :=
  match cs with
  | '/' :: cs =>
    let (name, rest) := Text.cutAt '?' cs
    (some (String.ofList name), optionsOf rest)
  | '?' :: cs => (none, optionsOf cs)
  | _ => (none, [])

def ofText? (s : String) : Option Address := do
  let (scheme, rest) := s.toList.span (· != ':')
  let rest ← Text.behind? [':', '/', '/'] rest
  let (database, options) := databaseOf (← withoutMachine? (← withoutUser? rest))
  return ⟨String.ofList scheme, database, options⟩

def valuesOf (a : Address) (name : String) : List String :=
  a.options.filterMap fun (n, value) => if n = name then some value else none

end Address

end Storyworld
