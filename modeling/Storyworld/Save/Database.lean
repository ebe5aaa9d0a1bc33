import Storyworld.Files
import Storyworld.Save.Address
import Storyworld.Save.Resource
import Storyworld.Text.Blank

/-!
This module contains the databases that slots are kept in: one in memory, or one in a file that is
made where there is none. The options of an address may name the file a second time, as the resource
that a URI of its own stands for.
-/

namespace Storyworld

/-- How a database is opened. -/
inductive OpenMode where
  | read
  | write
  /-- The file is made where there is none. -/
  | make
  | memory
deriving DecidableEq, Repr

namespace OpenMode

def word : OpenMode → String
  | .read => "ro"
  | .write => "rw"
  | .make => "rwc"
  | .memory => "memory"

def ofWord? (s : String) : Option OpenMode := [read, write, make, memory].find? (·.word == s)

def rank : OpenMode → Nat
  | .read => 0
  | .write => 1
  | .make => 2
  | .memory => 3

/-- The mode that a further word asks for; it may not allow more than the one before, save to leave the
files alone. -/
def narrowed? (current : OpenMode) (word : String) : Option OpenMode := do
  let next ← ofWord? word
  if next = .memory ∨ next.rank ≤ current.rank then some next else none

end OpenMode

/-- How the file of a database is treated. -/
structure Treatment where
  mode : OpenMode := .make
  /-- The file is taken for one that never changes. -/
  isFixed : Bool := false
  /-- The database is locked by a file beside its own. -/
  isLockedByFile : Bool := false
  /-- Another path, whose rights a new file takes over. -/
  model : Option String := none
deriving DecidableEq, Repr

/-- A database that can be looked for. -/
inductive Database where
  | memory (isWritable : Bool)
  | file (p : Path) (treatment : Treatment)
deriving DecidableEq, Repr

namespace Database

/-! ### The options of an address -/

def schemes : List String := ["sqlite", "sqlite+pysqlite", "sqlite+base"]

def truth? (word : String) : Option Bool :=
  let word := Text.lower (Text.strip word)
  if ["true", "yes", "on", "y", "t", "1"].contains word then some true
  else if ["false", "no", "off", "n", "f", "0"].contains word then some false
  else none

/-- The answer that the values of an option give, no where there are none and yes where there are
several; a single one has to say yes or no. -/
def answer? : List String → Option Bool
  | [] => some false
  | [word] => truth? word
  | _ => some true

/-- The bound of the whole numbers that an option may have. -/
def wholeLimit : Int := Nat.pow 2 31

def isWhole (word : String) : Bool :=
  match Numeral.readWhole word with
  | some i => decide (-wholeLimit ≤ i ∧ i < wholeLimit)
  | none => false

def fits (fine : String → Bool) : List String → Bool
  | [] => true
  | [word] => fine word
  | _ => false

/-- The options for the opening of a database; the others belong to its file. -/
def ownOptions : List String :=
  ["uri", "timeout", "isolation_level", "detect_types", "check_same_thread", "cached_statements"]

def isReadable (a : Address) : Bool :=
  (a.valuesOf "plugin").isEmpty
    && fits (fun word => (Numeral.read word).isSome) (a.valuesOf "timeout")
    && fits (fun _ => true) (a.valuesOf "isolation_level")
    && fits isWhole (a.valuesOf "detect_types")
    && (answer? (a.valuesOf "check_same_thread")).isSome
    && fits isWhole (a.valuesOf "cached_statements")

/-- The value of an option in a resource; several are written as a list. -/
def valueText : List String → String
  | [word] => word
  | words => "(" ++ String.intercalate ", " (words.map Text.quoted) ++ ")"

/-- The text of the resource of an address: the database with the options of its file, by their
names. -/
def resourceText (a : Address) (name : String) : String :=
  let names := ((a.options.map Prod.fst).filter fun n => !ownOptions.contains n).eraseDups
  let sorted := names.mergeSort fun m n => (Text.order m n).isLE
  if sorted.isEmpty then name
  else name ++ "?" ++ String.intercalate "&" (sorted.map fun n => n ++ "=" ++ valueText (a.valuesOf n))

/-! ### The options of a resource -/

def memoryName : String := ":memory:"

def systems : List String := ["unix", "unix-none", "unix-dotfile", "unix-excl", "memdb"]

def frontHex (cs : List Char) : Nat :=
  ((cs.takeWhile fun c => (Text.hexValue? c).isSome).filterMap Text.hexValue?).foldl
    (fun n d => 16 * n + d) 0

def frontNumber (cs : List Char) : Nat :=
  let n :=
    match cs with
    | '0' :: 'x' :: cs => frontHex cs
    | '0' :: 'X' :: cs => frontHex cs
    | cs => Text.digitsValue (Numeral.digits cs).1
  if n < Nat.pow 2 31 then n else 0

/-- Whether the value of an option of a file stands for yes: by a word, or by a number whose last byte is not
zero. -/
def isYes (value : String) : Bool :=
  match value.toList with
  | c :: cs =>
    if c.isDigit then frontNumber (c :: cs) % 256 != 0
    else ["on", "yes", "true"].contains (Text.lower value)
  | [] => false

def modeOf? (r : Resource) : Option OpenMode := (r.valuesOf "mode").foldlM OpenMode.narrowed? .make

/-- The database of a resource. The last way of working on files counts, and of the other options the
first value. -/
def ofResource? (r : Resource) : Option Database := do
  let mode ← modeOf? r
  let system := ((r.valuesOf "vfs").getLast?).getD "unix"
  let isFixed := ((r.valuesOf "immutable").head?.map isYes).getD false
  if !systems.contains system then none
  else if !(r.valuesOf "cache").all fun word => ["shared", "private"].contains word then none
  else if r.name = "" ∨ r.name = memoryName ∨ mode = .memory then some (.memory (mode != .read))
  else if system = "memdb" then some (.memory (mode != .read && !isFixed))
  else
    some (.file (Path.ofText r.name)
      { mode, isFixed, isLockedByFile := system == "unix-dotfile", model := (r.valuesOf "modeof").head? })

/-! ### Databases by their addresses -/

def ofName? (name : String) : Option Database :=
  if name = "" ∨ name = memoryName then some (.memory true)
  else some (.file (Path.ofText name).resolve {})

def ofAddress? (a : Address) : Option Database := do
  if !schemes.contains a.scheme || !isReadable a then none
  else if ← answer? (a.valuesOf "uri") then
    Resource.ofText? (resourceText a (← a.database)) >>= ofResource?
  else ofName? (a.database.getD "")

def ofText? (s : String) : Option Database := Address.ofText? s >>= ofAddress?

/-! ### Opening -/

/-- The longest path of a database from the working directory on, in bytes. -/
def pathLimit : Nat := 487

/-- The endings of the files in which changes are noted: before they are made, and instead of making
them. -/
def journals : List String := ["-journal", "-wal"]

def beside (p : Path) (ending : String) : Path := p.dropLast ++ [(p.getLast?.getD "") ++ ending]

/-- Whether the names of a path can be gone along one by one. A name that is not there is passed, and
only behind a file there is none but the way back. -/
def isPassable (files : Files) (p : Path) : Bool :=
  let isDeadEnd (here : Path) (name : String) : Bool :=
    name != ".." && ((files.bytes? here).isSome || Path.isLongName name)
  let enter (here : Path) (name : String) : Option Path :=
    if isDeadEnd here name then none else some (Path.step here name)
  (p.foldlM enter []).isSome

def isSound (files : Files) (p : Path) (t : Treatment) : Bool :=
  let hasModel := (t.model.map fun text => files.has (Path.ofText text)).getD true
  p.refuse.isOk && isPassable files p && hasModel
    && Nat.ble (Text.byteSize p.resolve.toText) pathLimit

/-- Whether a file without rows can take some: nothing forbids to write it, and its journal can be
kept beside it. -/
def isWritable (files : Files) (p : Path) (t : Treatment) : Bool :=
  t.mode != .read && !t.isFixed
    && journals.all (fun ending =>
      !files.meetsLongName (beside p ending) && !files.isFolder (beside p ending))
    && !(t.isLockedByFile && files.has (beside p ".lock"))

/-- The files without the journals of a database, which are used up; an empty one of the second kind
is not looked at. -/
def withoutJournals (files : Files) (p : Path) : Files :=
  let remove (files : Files) (ending : String) : Files :=
    let size := ((files.bytes? (beside p ending)).map ByteArray.size).getD 0
    if ending = "-wal" ∧ size = 0 then files else files.erase (beside p ending)
  journals.foldl remove files

def setUp (files : Files) (p : Path) (t : Treatment) : Files × Bool :=
  if isWritable files p t then (withoutJournals files p, true) else (files, false)

/-- Opens a database: the files afterwards, and whether slots can be kept in it. A file has to be a new
one or empty, and one that consists of a single byte counts as empty; nothing else is read as a
database. A file that cannot be used may be made all the same. -/
def openIn (files : Files) : Database → Files × Bool
  | .memory isWritable => (files, isWritable)
  | .file way t =>
    let p := way.resolve
    if !isSound files way t then (files, false)
    else
      match files.bytes? p with
      | some bytes => if Nat.ble bytes.size 1 then setUp files p t else (files, false)
      | none =>
        match t.mode, files.write? p ByteArray.empty with
        | .make, some made => setUp made p t
        | _, _ => (files, false)

end Database

end Storyworld
