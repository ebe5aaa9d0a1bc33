import Storyworld.Fault
import Storyworld.Text.Bytes

/-!
This module contains trees of files, seen from a working directory that lies in the folder for
temporary files. There are no links, so a path can be resolved by its names alone; the system however
looks at every folder on the way.
-/

namespace Storyworld

/-- The names of a path from the working directory on; two dots go one folder up. -/
abbrev Path := List String

namespace Path

def top : String := "/"

/-- How a path that starts at the top is written: with one slash, or with two where two were
written. -/
def tops : List String := [top, "//"]

def outside : Path := [top, "tmp"]

def topOf (s : String) : List String :=
  match s.toList with
  | '/' :: '/' :: '/' :: _ => [top]
  | '/' :: '/' :: _ => ["//"]
  | '/' :: _ => [top]
  | _ => []

/-- The path that a text writes: slashes separate, and empty names and single dots go nowhere. A path
that starts with a slash starts at a folder of that name. -/
def ofText (s : String) : Path :=
  topOf s ++ (s.splitOn "/").filter fun n => n != "" && n != "."

def toText (p : Path) : String :=
  match p with
  | [] => "."
  | name :: names =>
    if tops.contains name then name ++ String.intercalate "/" names
    else String.intercalate "/" (name :: names)

/-- Goes along one name of a resolved path; nothing lies above the top. -/
def step (p : Path) (name : String) : Path :=
  if tops.contains name then [top]
  else if name = ".." then
    if p.isEmpty then outside else if p = [top] then p else p.dropLast
  else p ++ [name]

/-- The path without two dots: names from the working directory on, or from the top on for a path
that leads out of it. -/
def resolve (p : Path) : Path := p.foldl step []

/-- The name of the file without its last ending; a point at either end of a name is none. -/
def stem (name : String) : String :=
  match name.toList.reverse.span (· != '.') with
  | ([], _) => name
  | (_, []) => name
  | (_, [_]) => name
  | (_, _ :: stem) => String.ofList stem.reverse

def withEnding? (p : Path) (ending : String) : Option Path :=
  match p.getLast? with
  | none => none
  | some name => if tops.contains name then none else some (p.dropLast ++ [stem name ++ ending])

/-- The longest name of a file, in bytes. -/
def nameLimit : Nat := 255

def isLongName (name : String) : Bool := Nat.blt nameLimit (Text.byteSize name)

/-- The bytes of a path that is too long. -/
def textLimit : Nat := 4096

/-- The bytes from the top down to the working directory, the slash behind it included. -/
def homeSize : Nat := 17

def size (p : Path) : Nat := Text.byteSize p.toText

def fullSize (p : Path) : Nat :=
  match p with
  | name :: _ => if tops.contains name then p.size else homeSize + p.size
  | [] => homeSize

/-- Goes along one name of a path, from the working directory on; what lies above that is left to two
dots. -/
def walk (here : Path) (name : String) : Path :=
  if tops.contains name then [top]
  else if name = ".." then
    match here.getLast? with
    | none => [name]
    | some last => if last = ".." then here ++ [name] else if last = top then here else here.dropLast
  else here ++ [name]

def refuseText (s : String) : Except Fault Unit :=
  match Text.stop? Text.isByteless s with
  | some (place, halves) => .error (.halfStored place halves)
  | none => if s.toList.contains '\x00' then .error .pathRefused else .ok ()

def refuse (p : Path) : Except Fault Unit := do
  let _ ← p.foldlM (fun here name => do
    let next := walk here name
    refuseText (toText next)
    return next) []

end Path

/-- What a path of a tree leads to. -/
inductive Entry where
  | folder
  | file (bytes : ByteArray)

/-- A tree of files; the folders on the way to an entry are there too. -/
structure Files where
  entries : List (Path × Entry) := []

namespace Files

instance : Inhabited Files := ⟨{}⟩

def get? (files : Files) (p : Path) : Option Entry := (files.entries.find? (·.1 == p)).map Prod.snd

def erase (files : Files) (p : Path) : Files := ⟨files.entries.filter (·.1 != p)⟩

def put (files : Files) (p : Path) (e : Entry) : Files := ⟨(files.erase p).entries ++ [(p, e)]⟩

/-- Removes a file; its folder stays. -/
def remove (files : Files) (p : Path) : Files := (files.erase p).put p.dropLast .folder

def bytes? (files : Files) (p : Path) : Option ByteArray :=
  match files.get? p with
  | some (.file bytes) => some bytes
  | _ => none

/-- Whether a resolved path leads to a folder; the working directory is one, and so are those that it
lies in. -/
def isFolder (files : Files) (p : Path) : Bool :=
  p.isPrefixOf Path.outside || files.entries.any fun (q, e) =>
    match e with
    | .folder => p.isPrefixOf q
    | .file _ => p.isPrefixOf q && p != q

/-- Where the system comes to along a path: every name but the last has to lead to a folder. -/
def locate? (files : Files) (p : Path) : Option Path :=
  p.foldlM (fun here name => if files.isFolder here then some (Path.step here name) else none) []

/-- Whether the way along a path comes to a folder that is asked for a name longer than any file has.
Where there is no folder the system looks no further. -/
def meetsLongName (files : Files) (p : Path) : Bool :=
  go [] p
where
  go (here : Path) : Path → Bool
    | [] => false
    | name :: names =>
      files.isFolder here && (Path.isLongName name || go (Path.step here name) names)

/-- Stops where a path of so many bytes cannot be looked up. -/
def checkLength (files : Files) (p : Path) (size : Nat) : Except Fault Unit :=
  if Nat.ble Path.textLimit size || files.meetsLongName p then .error (.pathTooLong p.toText)
  else .ok ()

def hasFolder (files : Files) (p : Path) : Bool := ((files.locate? p).map files.isFolder).getD false

def read? (files : Files) (p : Path) : Option ByteArray := files.locate? p >>= files.bytes?

def has (files : Files) (p : Path) : Bool := files.hasFolder p || (files.read? p).isSome

/-- Writes a file; its folder has to be there, and a folder is not overwritten. -/
def write? (files : Files) (p : Path) (bytes : ByteArray) : Option Files := do
  let place ← files.locate? p
  if files.isFolder place then none else some (files.put place (.file bytes))

/-- Moves a file in place of another; a folder is not replaced. -/
def move? (files : Files) (source target : Path) : Option Files := do
  let place ← files.locate? source
  let bytes ← files.bytes? place
  (files.remove place).write? target bytes

/-- How many folders on the way along a path are to be made; none where the first of them cannot be
made. -/
def missing (files : Files) (p : Path) : Nat :=
  go [] p
where
  go (here : Path) : Path → Nat
    | [] => 0
    | name :: names =>
      let next := Path.step here name
      if files.isFolder next then go next names
      else if (files.get? next).isSome || Path.isLongName name then 0
      else names.length + 1

/-- Makes a folder and those on the way to it; tells whether it is there. Those that have been made on
the way stay. -/
def makeFolders (files : Files) (p : Path) : Files × Bool :=
  go files [] p
where
  go (files : Files) (here : Path) : Path → Files × Bool
    | [] => (files, true)
    | name :: names =>
      let next := Path.step here name
      if files.isFolder next then go files next names
      else if (files.get? next).isSome || Path.isLongName name then (files, false)
      else go (files.put next .folder) next names

/-- The names in the folder that a path leads to, in the order of the entries and each once. -/
def names (files : Files) (p : Path) : List String :=
  match files.locate? p with
  | none => []
  | some here =>
    (files.entries.filterMap fun (q, _) =>
      if here.isPrefixOf q then q[here.length]? else none).eraseDups

def paths (files : Files) : List Path :=
  files.entries.filterMap fun (p, e) =>
    match e with
    | .file _ => some p
    | .folder => none

end Files

end Storyworld
