import Storyworld.Terminal

/-!
This module contains the drawing of what is printed as lines of plain text.
-/

namespace Storyworld

namespace Drawing

def marks : List String :=
  ["[bold yellow]", "[/bold yellow]", "[bold]", "[/bold]", "[dim]", "[/dim]", "[italic]",
    "[/italic]"]

def plain (s : String) : String := marks.foldl (fun s mark => s.replace mark "") s

def padded (width : Nat) (s : String) : String :=
  s ++ String.ofList (List.replicate (width - Text.size s) ' ')

def widths (rows : List (List String)) : List Nat :=
  rows.foldl (fun ws row => zipMax ws (row.map Text.size)) []
where
  zipMax : List Nat → List Nat → List Nat
    | [], ns => ns
    | ms, [] => ms
    | m :: ms, n :: ns => max m n :: zipMax ms ns

def tableLines (columns : List String) (rows : List (List String)) : List String :=
  let rows := (columns :: rows).map (·.map plain)
  rows.map fun row =>
    String.intercalate "  " ((row.zip (widths rows)).map fun (s, width) => padded width s)

def blockLines : Block → List String
  | .text s => (plain s).splitOn "\n"
  | .table columns rows => tableLines columns rows

def rule (text : Option String) : String :=
  match text with
  | none => "----"
  | some s => "-- " ++ plain s ++ " --"

end Drawing

def Printed.draw : Printed → List String
  | .line s => [Drawing.plain s]
  | .panel body title subtitle _ =>
    [Drawing.rule title] ++ (Drawing.blockLines body).map ("  " ++ ·) ++ [Drawing.rule subtitle]

end Storyworld
