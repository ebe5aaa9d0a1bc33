import Storyworld.Files.Pool
import Storyworld.Snapshot

/-!
This module contains saves in a file. A save is written beside the file and then moved into its
place, so that a save that fails leaves the earlier one as it was.
-/

namespace Storyworld

/-- What may break down from outside while a save is written. -/
structure Breakdown where
  /-- Folders are made for so many names of the way only. -/
  folders : Option Nat := none
  /-- The draft cannot be opened. -/
  opening : Bool := false
  /-- Writing stops after so many bytes. -/
  write : Option Nat := none
  /-- No file can be moved. -/
  move : Bool := false

namespace SaveFile

variable {ρ : Type} [Scalar ρ]

def ending : String := ".tmp"

def indent : Nat := 2

def textOf (s : Snapshot ρ) : Except Fault String := do
  Json.write (some indent) (← s.toPayload)

def bytesOf? (text : String) : Option ByteArray :=
  if Text.hasHalf text then none else some (Text.toBytes text)

def check (files : Files) (p : Path) : Except Fault Unit := do
  p.refuse
  files.checkLength p p.size

/-- Writes a file as far as nothing breaks down; tells whether it is written in full. Of a text that has
no bytes nothing is written. -/
def write (breakdown : Breakdown) (p : Path) (text : String) : Act Files Bool := .of fun files =>
  let bytes := (bytesOf? text).getD ByteArray.empty
  let written := (breakdown.write.map fun n => bytes.extract 0 n).getD bytes
  match check files p, files.write? p written with
  | .ok (), some opened =>
    if breakdown.opening then (.ok false, files)
    else (.ok (breakdown.write.isNone && (bytesOf? text).isSome), opened)
  | _, _ => (.ok false, files)

/-- The most folders that are made inside each other. -/
def folderLimit : Nat := 984

/-- Makes the folders of a save, unless that breaks down; tells whether they are there. -/
def makeFolders (breakdown : Breakdown) (p : Path) : Act Files Bool := .of fun files =>
  if !p.refuse.isOk || Nat.ble Path.textLimit p.size then (.ok false, files)
  else if Nat.blt folderLimit (files.missing p) then (.error (.tooDeep ""), files)
  else
    match breakdown.folders with
    | some n => (.ok false, (files.makeFolders (p.take n)).1)
    | none =>
      let (made, isThere) := files.makeFolders p
      (.ok isThere, made)

/-- Moves a file into the place of another, unless that breaks down; tells whether it is there. -/
def move (breakdown : Breakdown) (source target : Path) : Act Files Bool := .of fun files =>
  match check files target, files.move? source target with
  | .ok (), some moved => if breakdown.move then (.ok false, files) else (.ok true, moved)
  | _, _ => (.ok false, files)

/-- Writes a snapshot to a draft and moves that into place; tells whether the save is there. -/
def replace (breakdown : Breakdown) (draft p : Path) (s : Snapshot ρ) : Act Files Bool := do
  match textOf s with
  | .error (.tooDeep place) => throw (.tooDeep place)
  | .error _ => return false
  | .ok text => do
    if ← write breakdown draft text then move breakdown draft p else return false

/-- Saves to a file; tells whether the save is there. -/
def save (breakdown : Breakdown) (p : Path) (snapshot : Option (Snapshot ρ)) : Act Files Bool := do
  let some snapshot := snapshot | return false
  if !(← makeFolders breakdown p.dropLast) then return false
  let some draft := p.withEnding? ending | return false
  replace breakdown draft p snapshot

def isThere (files : Files) (p : Path) : Except Fault Bool :=
  match p.refuse with
  | .error _ => return false
  | .ok () => do
    files.checkLength p p.size
    return files.has p

/-- The snapshot that is saved in a file, none where there is none or it cannot be read. -/
def load (files : Files) (p : Path) : Except Fault (Option (Snapshot ρ)) := do
  if !(← isThere files p) then return none
  let some bytes := files.read? p | return none
  match ← Files.decode? bytes with
  | none => return none
  | some payload => Snapshot.ofPayload payload

end SaveFile

end Storyworld
