import Storyworld.Game
import Storyworld.Scalar.Double
import Storyworld.Scenario.Arguments
import Storyworld.Scenario.Validation
import Storyworld.Terminal.Drawing

/-!
This module contains the command line: the game, and with the word `validate` the check of a story.
A game is a function of the lines typed so far, so after each line it is worked out anew, and what
is new is shown. No database is opened from here; saves go to the file.
-/

namespace Storyworld.Shell

/-- Adds the files of a folder, or a file, to those read so far. -/
def read (files : Files) (p : Path) : IO Files := do
  let place := System.mkFilePath [Text.shown p.toText]
  if ← place.isDir then
    let mut files := files.put p.resolve .folder
    for below in ← place.walkDir do
      let q := (Path.ofText (Text.ofPlain below.toString)).resolve
      if ← below.isDir then files := files.put q .folder
      else files := files.put q (.file (← IO.FS.readBinFile below))
    return files
  else if ← place.pathExists then
    return files.put p.resolve (.file (← IO.FS.readBinFile place))
  else return files

def write (before after : Files) : IO Unit := do
  for p in after.paths do
    if let some bytes := after.bytes? p then
      if (before.bytes? p).map (·.toList) != some bytes.toList then
        IO.FS.createDirAll (Text.shown (Path.toText p.dropLast))
        IO.FS.writeBinFile (Text.shown p.toText) bytes

def display (what : List Printed) : IO Unit := do
  for line in what.flatMap Printed.draw do
    IO.println (Text.shown line)

/-- Plays on from the lines typed so far, of which some output was shown before. -/
partial def converse (settings : Settings Float) (files : Files) (lines : List String)
    (shown : Nat) : IO Unit := do
  let ending := Game.run settings files { lines, interrupts := true }
  display (ending.printed.drop shown)
  write files ending.disk.files
  match ending.result with
  | .error .interrupted => do
    IO.print "> "
    (← IO.getStdout).flush
    let line ← (← IO.getStdin).getLine
    if line.isEmpty then
      let last := Game.run settings files { lines }
      display (last.printed.drop ending.printed.length)
      write files last.disk.files
      IO.print (Game.farewell last.result)
    else
      let line := Text.ofPlain (line.dropEndWhile (· == '\n')).toString
      converse settings files (lines ++ [line]) ending.printed.length
  | result => IO.print (Game.farewell result)

def play : IO UInt32 := do
  let vars ← Settings.variableNames.filterMapM fun name => do
    return (← IO.getEnv name).map fun value => (name, Text.ofPlain value)
  let settings : Settings Float := { Settings.ofVariables vars with database := "" }
  match settings.logging with
  | .error e => do
    IO.eprintln (Text.shown e.message)
    return 1
  | .ok () => do
    converse settings (← read (← read {} settings.scenario) settings.saveFile) [] 0
    return 0

def validate (args : List String) : IO UInt32 := do
  let some folder := Scenario.folderOf? Scenario.defaultFolder args
    | IO.eprintln ("usage: validate " ++ Scenario.pathOption ++ " FOLDER"); return 2
  let root := Path.ofText (Text.ofPlain folder)
  match Scenario.findings Float (← read {} root) root with
  | .ok found => do
    IO.print (Text.shown (Scenario.verdict found))
    return if found.isEmpty then 0 else 1
  | .error e => do
    IO.eprintln (Text.shown e.message)
    return 1

end Storyworld.Shell

def main (args : List String) : IO UInt32 :=
  match args with
  | "validate" :: args => Storyworld.Shell.validate args
  | _ => Storyworld.Shell.play
