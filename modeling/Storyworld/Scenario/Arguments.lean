import Storyworld.Text.Digit
import Storyworld.Text.Token

/-!
This module contains the arguments of the check of a story. One option names the folder, another asks
for help; an option can be shortened as long as it is clear which one is meant.
-/

namespace Storyworld.Scenario

def defaultFolder : String := "scenario"

def pathOption : String := "--path"

def helpOption : String := "--help"

def shortens (option text : String) : Bool := text.startsWith "--" && option.startsWith text

/-- Whether an argument is written like a negative number, with a point or without. -/
def isNegative (arg : String) : Bool :=
  let isDigits (cs : List Char) : Bool := cs.all fun c => (Text.digitValue? c).isSome
  match arg.toList with
  | '-' :: cs =>
    let cs := if cs.getLast? = some '\n' then cs.dropLast else cs
    let (whole, places) := Text.cutAt '.' cs
    let last := if cs.contains '.' then places else whole
    !last.isEmpty && isDigits whole && isDigits places
  | _ => false

/-- Whether an argument is one of the options, also with a value behind an equals sign. -/
def isOption (arg : String) : Bool :=
  let name := String.ofList (Text.cutAt '=' arg.toList).1
  arg.startsWith "-h" || shortens pathOption name || shortens helpOption name

/-- Whether an argument can be the value of an option. What starts with a dash is one only where it is
no option and is written like a number or has a blank in it. -/
def isPlain (arg : String) : Bool :=
  !arg.startsWith "-" || arg == "-" || (!isOption arg && (isNegative arg || arg.toList.contains ' '))

def isPathOption (arg : String) : Bool := shortens pathOption arg && !shortens helpOption arg

def assigned? (arg : String) : Option String :=
  let (name, value) := Text.cutAt '=' arg.toList
  if arg.toList.contains '=' && isPathOption (String.ofList name) then some (String.ofList value) else none

/-- The folder that arguments name, none where they cannot be understood or ask for help; the last one
counts. -/
def folderOf? (default : String) : List String → Option String
  | [] => some default
  | [arg] => assigned? arg
  | arg :: value :: rest =>
    if isPathOption arg then if isPlain value then folderOf? value rest else none
    else
      match assigned? arg with
      | some folder => folderOf? folder (value :: rest)
      | none => none

end Storyworld.Scenario
