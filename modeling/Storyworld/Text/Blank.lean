/-!
This module contains the blank characters and the removal of blanks around a text.
-/

namespace Storyworld.Text

/-- Ranges of the blank characters: spaces, line ends and separators of all scripts, with the four
information separators and without zero-width spaces. -/
def blankRanges : List (Nat × Nat) :=
  [(9, 13), (28, 32), (133, 133), (160, 160), (5760, 5760), (8192, 8202), (8232, 8233),
   (8239, 8239), (8287, 8287), (12288, 12288)]

def inRanges (ranges : List (Nat × Nat)) (n : Nat) : Bool :=
  ranges.any fun (low, high) => Nat.ble low n && Nat.ble n high

def isBlank (c : Char) : Bool := inRanges blankRanges c.toNat

/-- Removes what satisfies `p` at both ends. -/
def stripBoth (p : Char → Bool) (cs : List Char) : List Char :=
  ((cs.dropWhile p).reverse.dropWhile p).reverse

def strip (s : String) : String := String.ofList (stripBoth isBlank s.toList)

/-- Small letters for the capital letters of ASCII; words of this program have no others. -/
def lower (s : String) : String := String.ofList (s.toList.map Char.toLower)

def capitals (c : Char) : List Char :=
  if c = 'ſ' then ['S']
  else if c = 'ı' then ['I']
  else if c = 'ﬅ' ∨ c = 'ﬆ' then ['S', 'T']
  else [c.toUpper]

def upper (s : String) : String := String.ofList (s.toList.flatMap capitals)

theorem length_stripBoth_le (p : Char → Bool) (cs : List Char) :
    (stripBoth p cs).length ≤ cs.length := by
  have h (l : List Char) : (l.dropWhile p).length ≤ l.length :=
    (List.dropWhile_suffix p).length_le
  unfold stripBoth
  rw [List.length_reverse]
  refine Nat.le_trans (h _) ?_
  rw [List.length_reverse]
  exact h cs

end Storyworld.Text
