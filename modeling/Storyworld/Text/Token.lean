/-!
This module contains the parts of tokens: words that stand between colons.
-/

namespace Storyworld.Text

/-- What stands before the first `c` and what stands behind it; the second is empty without one. -/
def cutAt (c : Char) (cs : List Char) : List Char × List Char :=
  (cs.takeWhile (· != c), (cs.dropWhile (· != c)).drop 1)

def cut (s : String) : String × String :=
  let (head, rest) := cutAt ':' s.toList
  (String.ofList head, String.ofList rest)

/-- The pieces between the separators; one more than there are separators. -/
def piecesOn (c : Char) : List Char → List (List Char)
  | [] => [[]]
  | d :: ds =>
    if d = c then [] :: piecesOn c ds
    else
      match piecesOn c ds with
      | [] => [[d]]
      | p :: ps => (d :: p) :: ps

/-- The words between the colons of a rest; an empty rest has none. -/
def words (rest : String) : List String :=
  if rest = "" then [] else (piecesOn ':' rest.toList).map String.ofList

def behind? (start : List Char) (cs : List Char) : Option (List Char) :=
  match start, cs with
  | [], cs => some cs
  | _ :: _, [] => none
  | s :: start, c :: cs => if s = c then behind? start cs else none

theorem piecesOn_ne_nil (c : Char) (cs : List Char) : piecesOn c cs ≠ [] := by
  cases cs with
  | nil => simp [piecesOn]
  | cons d ds =>
    simp only [piecesOn]
    split
    . simp
    . split <;> simp

theorem behind?_append (start cs : List Char) : behind? start (start ++ cs) = some cs := by
  induction start with
  | nil => rfl
  | cons s start ih => simpa [behind?] using ih

theorem behind?_eq_some {start cs rest : List Char} :
    behind? start cs = some rest ↔ cs = start ++ rest := by
  constructor
  . intro h
    induction start generalizing cs with
    | nil => exact Option.some.inj h
    | cons s start ih =>
      cases cs with
      | nil => cases h
      | cons c cs =>
        unfold behind? at h
        split at h
        next heq => rw [heq, ih h, List.cons_append]
        next => cases h
  . rintro rfl
    exact behind?_append start rest

theorem length_behind? {start cs rest : List Char} (h : behind? start cs = some rest) :
    cs.length = start.length + rest.length := by
  rw [behind?_eq_some.mp h, List.length_append]

end Storyworld.Text
