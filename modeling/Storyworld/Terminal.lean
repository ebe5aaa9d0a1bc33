import Storyworld.Decimal.Layout
import Storyworld.Decimal.Numeral
import Storyworld.View

/-!
This module contains a player at a terminal, who types lines and is shown lines and panels. The
marks around titles are left in the text, for whoever draws it.

- `Terminal.pickFrom` reads lines until one answers a menu.
- `Terminal.view` is the view of such a player.
-/

namespace Storyworld

/-- What stands in a panel. -/
inductive Block where
  | text (s : String)
  | table (columns : List String) (rows : List (List String))
deriving DecidableEq, Repr

/-- Something that is printed. -/
inductive Printed where
  | line (s : String)
  | panel (body : Block) (title subtitle : Option String) (border : String)
deriving DecidableEq, Repr

/-- A terminal: the lines that are still to be typed, and what was printed so far. -/
structure Terminal where
  lines : List String := []
  printed : List Printed := []
  /-- Whether the player breaks off where the lines end, and does not just leave the menu. -/
  interrupts : Bool := false
deriving Repr

namespace Terminal

variable {ρ : Type}

instance : Inhabited Terminal := ⟨{}⟩

def print (t : Terminal) (what : List Printed) : Terminal :=
  { t with printed := t.printed ++ what }

/-! ### Menus -/

/-- The entries of a menu: what each stands for, and its label. -/
abbrev Entries (ρ : Type) := List (Value ρ × String)

/-- The whole number that a line of digits writes. The decimal digits at its beginning are counted
before it is seen whether others follow. -/
def numberOf (line : String) : Except Fault Int :=
  let count := (line.toList.takeWhile fun c => (Text.digitValue? c).isSome).length
  if Nat.blt Numeral.digitLimit count then .error (.tooManyDigits count)
  else ((Numeral.readWhole line).map Except.ok).getD (.error (.notWhole line))

def isNumber (line : String) : Bool := line != "" && line.toList.all Text.isDigit

def entryAt? (entries : Entries ρ) (line : String) : Except Fault (Option (Value ρ)) := do
  if !isNumber line then return none
  match ← numberOf line with
  | .ofNat (n + 1) => return entries[n]?.map Prod.fst
  | _ => return none

def isLine (line : String) : Value ρ → Bool
  | .text s => s == line
  | _ => false

/-- What a line says: the entry of that number, or else the entry of that name. -/
def answer? (entries : Entries ρ) (line : String) : Except Fault (Option (Value ρ)) := do
  let line := Text.strip line
  match ← entryAt? entries line with
  | some id => return some id
  | none => return (entries.find? fun e => isLine line e.1).map Prod.fst

/-- How a menu is answered: the entry, or none where the lines end, how many lines were refused
before, and the lines that are left. -/
structure Pick (ρ : Type) where
  outcome : Except Fault (Option (Value ρ))
  refused : Nat
  lines : List String

/-- Reads lines until one answers. -/
def pickFrom (entries : Entries ρ) : List String → Pick ρ
  | [] => ⟨.ok none, 0, []⟩
  | line :: lines =>
    match answer? entries line with
    | .error e => ⟨.error e, 0, lines⟩
    | .ok (some id) => ⟨.ok (some id), 0, lines⟩
    | .ok none =>
      let later := pickFrom entries lines
      { later with refused := later.refused + 1 }

def menuLines (entries : Entries ρ) : List Printed :=
  entries.zipIdx.map fun ((_, label), i) => .line s!"  [bold]{i + 1}[/bold]. {label}"

/-- What follows a line that answers nothing. -/
def reminder (entries : Entries ρ) : Printed := .line s!"[dim]Choose 1-{entries.length}.[/dim]"

def settle (interrupts : Bool) (outcome : Except Fault (Option (Value ρ))) :
    Except Fault (Option (Value ρ)) :=
  match interrupts, outcome with
  | true, .ok none => .error .interrupted
  | _, outcome => outcome

/-- Lets the player pick an entry; a menu without entries has no answer. -/
def pick (entries : Entries ρ) : Act Terminal (Option (Value ρ)) := .of fun t =>
  if entries.isEmpty then (.ok none, t)
  else
    let p := pickFrom entries t.lines
    let t := t.print (menuLines entries ++ List.replicate p.refused (reminder entries))
    (settle t.interrupts p.outcome, { t with lines := p.lines })

def pickBelow (panel : Printed) (entries : Entries ρ) : Act Terminal (Value ρ) := .of fun t =>
  let (outcome, t) := (pick entries).run (t.print [panel])
  (outcome.map (·.getD .null), t)

def breakOff (panel : Printed) (entries : Entries ρ) (flaw : Fault) : Act Terminal (Value ρ) :=
  .of fun t => (.error flaw, t.print (panel :: menuLines entries))

/-! ### Panels -/

/-- A title; one stands in for a blank title. -/
def titleMark (title : String) : String :=
  let core := if Text.strip title = "" then "Panel" else Text.strip title
  s!"[bold yellow]{core}[/bold yellow]"

def dim (s : String) : String := s!"[dim]{s}[/dim]"

def npcLines (n : NpcPanel ρ) : List String :=
  let about := if n.description = "" then "" else " - " ++ n.description
  let words := if n.dialogue = "" then [] else ["[italic]\"" ++ n.dialogue ++ "\"[/italic]"]
  ["", s!"[bold]{n.name}[/bold]{about}"] ++ words

def sceneText (dto : SceneView ρ) : String :=
  let lines := dto.description.filter fun line => Text.strip line != ""
  let lines := lines ++ (dto.npc.map npcLines).getD []
  if lines.isEmpty then "Nothing of note." else String.intercalate "\n" lines

def scenePanel (dto : SceneView ρ) : Printed :=
  .panel (.text (sceneText dto)) (some (titleMark dto.location.name)) (some (dim dto.scene)) "yellow"

variable [Scalar ρ]

/-- What stands in a cell of a table; only texts do. -/
def cell : Value ρ → Except Fault String
  | .null => .ok ""
  | .text s => .ok s
  | _ => .error .notDrawable

def hoursText : Value ρ → Except Fault String
  | .object r => .ok (((Table.get? r "time").map Value.display).getD "")
  | _ => .error .missingPart

def pathRows : Nat → List (PathEntry ρ) → Except Fault (List (List String))
  | _, [] => return []
  | i, e :: es => do
    let hours ← hoursText e.details
    return [toString i, ← cell e.name, hours] :: (← pathRows (i + 1) es)

def back : Value ρ × String := (.text "back", "Back")

def pathEntries (entries : List (PathEntry ρ)) : Entries ρ :=
  entries.map (fun e => (e.id, e.name.display)) ++ [back]

def pathPanel (entries : List (PathEntry ρ)) (title : String) : Except Fault Printed := do
  let table := .table ["#", "Destination", "Hours"] (← pathRows 1 entries)
  return .panel table (some (titleMark (if title = "" then "Travel" else title))) none "cyan"

def briefText : Value ρ → Except Fault String
  | .num n => do
    let x : ρ ← n.toReal
    match Scalar.extent x with
    | .undefined => return "nan"
    | .infinite negative => return if negative then "-inf" else "inf"
    | .finite q =>
      return Layout.brief.write (Scalar.isNegative x) (Decimal.rounded 6 q.num.natAbs q.den)
  | .text _ => .error .unreadable
  | _ => .error .wrongKind

def packRows : List (ItemView ρ) → Except Fault (List (List String))
  | [] => return []
  | i :: is => do
    return [← cell i.name, i.quantity.display, ← cell i.description] :: (← packRows is)

def packPanel (p : PackView ρ) : Except Fault Printed := do
  if p.items.isEmpty then
    return .panel (.text "Your pack is empty.") (some (titleMark "Inventory")) none "green"
  let table := .table ["Item", "Qty", "Description"] (← packRows p.items)
  let speed ← briefText p.speed
  return .panel table (some (titleMark "Inventory")) (some (dim s!"travel speed x{speed}")) "green"

/-- The text of what came of a choice; a list has a line for each item. -/
def resultText (result : Value ρ) : String :=
  match result with
  | .list items => String.intercalate "\n" (items.map Value.display)
  | v => (v.orElse (.text "")).display

def resultPanel (row : Record ρ) : Printed :=
  .panel (.text (resultText (Record.field row "result"))) none none "magenta"

def timeLine (t : TimeView ρ) : Printed := .line (dim s!"{t.label} ({t.window})")

def view : View ρ Terminal where
  showScene dto :=
    match dto.flaw with
    | none => pickBelow (scenePanel dto) dto.options
    | some flaw => breakOff (scenePanel dto) dto.options flaw
  showPath entries title := do
    let panel ← Act.lift (pathPanel entries title)
    pickBelow panel (pathEntries entries)
  showPack p := do
    let panel ← Act.lift (packPanel p)
    modify (·.print [panel])
  showMessage text := modify (·.print [.line text])
  showResult row := modify (·.print [resultPanel row])
  showTime t := modify (·.print [timeLine t])
  remaining t := t.lines.length

/-! ### Lines run out -/

omit [Scalar ρ] in
theorem pickFrom_length_le (entries : Entries ρ) (lines : List String) :
    (pickFrom entries lines).lines.length ≤ lines.length := by
  induction lines with
  | nil => simp [pickFrom]
  | cons line lines ih =>
    unfold pickFrom
    split
    · simp
    · simp
    · exact Nat.le_succ_of_le ih

omit [Scalar ρ] in
/-- A menu that is answered uses up a line. -/
theorem pickFrom_length_lt (entries : Entries ρ) (lines : List String) (id : Value ρ)
    (h : (pickFrom entries lines).outcome = .ok (some id)) :
    (pickFrom entries lines).lines.length < lines.length := by
  cases lines with
  | nil => simp [pickFrom] at h
  | cons line lines =>
    have := pickFrom_length_le entries lines
    unfold pickFrom
    split <;> simp only [List.length_cons] <;> omega

omit [Scalar ρ] in
theorem outcome_of_settle {interrupts : Bool} {outcome : Except Fault (Option (Value ρ))}
    {id : Value ρ} (h : settle interrupts outcome = .ok (some id)) : outcome = .ok (some id) := by
  unfold settle at h
  split at h
  · cases h
  · exact h

omit [Scalar ρ] in
theorem pick_length_le (entries : Entries ρ) (t : Terminal) :
    ((pick entries).run t).2.lines.length ≤ t.lines.length := by
  unfold pick
  rw [Act.run_of]
  split
  · exact Nat.le_refl _
  · exact pickFrom_length_le entries t.lines

omit [Scalar ρ] in
theorem pick_length_lt (entries : Entries ρ) (t : Terminal) (id : Value ρ)
    (h : ((pick entries).run t).1 = .ok (some id)) :
    ((pick entries).run t).2.lines.length < t.lines.length := by
  unfold pick at h ⊢
  rw [Act.run_of] at h ⊢
  split
  · next hs => simp [hs] at h
  · next hs =>
    simp only [hs] at h
    exact pickFrom_length_lt entries t.lines id (outcome_of_settle h)

omit [Scalar ρ] in
theorem pickBelow_length_le (panel : Printed) (entries : Entries ρ) (t : Terminal) :
    ((pickBelow panel entries).run t).2.lines.length ≤ t.lines.length :=
  pick_length_le entries (t.print [panel])

theorem pickBelow_length_lt (panel : Printed) (entries : Entries ρ) (t : Terminal) (v : Value ρ)
    (h : ((pickBelow panel entries).run t).1 = .ok v) (hv : v.isGiven = true) :
    ((pickBelow panel entries).run t).2.lines.length < t.lines.length := by
  have picked : ((pick entries).run (t.print [panel])).1.map (·.getD .null) = .ok v := h
  cases ho : ((pick entries).run (t.print [panel])).1 with
  | error e => simp [ho, Except.map] at picked
  | ok o =>
    cases o with
    | none =>
      simp [ho, Except.map] at picked
      subst picked
      simp [Value.isGiven] at hv
    | some id => exact pick_length_lt entries (t.print [panel]) id ho

theorem view_finite : (view : View ρ Terminal).Finite where
  scene_lt dto v a h hg := by
    simp only [view] at h ⊢
    split at h
    · exact pickBelow_length_lt _ _ v a h hg
    · simp [breakOff] at h
  path_le es title v := by
    simp only [view]
    cases pathPanel es title with
    | error e => exact Nat.le_refl _
    | ok panel => exact pickBelow_length_le panel (pathEntries es) v
  pack_le p v := by
    simp only [view]
    cases packPanel p <;> exact Nat.le_refl _
  result_le _ _ := Nat.le_refl _
  time_le _ _ := Nat.le_refl _

end Terminal

end Storyworld
