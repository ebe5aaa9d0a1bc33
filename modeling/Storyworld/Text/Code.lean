import Storyworld.Text.Half

/-!
This module contains the numbers of the characters of a text, halves of pairs among them. A half is
kept as the character at its number on a plane that no script uses, and a character from there is kept
behind a marker, so that texts are the same only where their numbers are.
-/

namespace Storyworld.Text

def halfPlane : Nat := 0x70000

def marker : Char := Char.ofNat 0x7E000

/-- Whether a character needs the marker: a half is kept as it, or it is the marker. -/
def needsMarker (n : Nat) : Bool := Nat.ble 0x7D800 n && Nat.ble n 0x7E000

def keep (n : Nat) : List Char :=
  if isHalf n then [Char.ofNat (halfPlane + n)]
  else if needsMarker n then [marker, Char.ofNat n]
  else [Char.ofNat n]

def ofCodes (ns : List Nat) : String := String.ofList (ns.flatMap keep)

def ofPlain (s : String) : String := ofCodes (s.toList.map Char.toNat)

/-- How far a text has been read: the numbers so far, and whether the marker came last. -/
structure Decoding where
  codes : Array Nat := #[]
  isMarked : Bool := false

def Decoding.step (d : Decoding) (c : Char) : Decoding :=
  if d.isMarked then ⟨d.codes.push c.toNat, false⟩
  else if c = marker then ⟨d.codes, true⟩
  else ⟨d.codes.push (if needsMarker c.toNat then c.toNat - halfPlane else c.toNat), false⟩

def codesOf (cs : List Char) : List Nat := (cs.foldl Decoding.step {}).codes.toList

def codes (s : String) : List Nat := codesOf s.toList

def hasHalf (s : String) : Bool := (codes s).any isHalf

def isByteless (n : Nat) : Bool := isHalf n && (strayByte? n).isNone

/-- Whether a text has bytes: no half in it stands for none. -/
def hasBytes (s : String) : Bool := !(codes s).any isByteless

/-- Where the writing of a text stops, and the halves that stand there from the first on that stops it;
none for a text that is written to its end. -/
def stop? (stops : Nat → Bool) (s : String) : Option (Nat × List Nat) :=
  let ns := codes s
  (ns.findIdx? stops).map fun i => (i, (ns.drop i).takeWhile isHalf)

def characters (s : String) : List String := (codes s).map fun n => ofCodes [n]

def size (s : String) : Nat := (codes s).length

def order (s t : String) : Ordering := compare (codes s) (codes t)

/-! ### Reading what is kept -/

theorem toNat_ofNat {n : Nat} (h : n.isValidChar) : (Char.ofNat n).toNat = n := by
  unfold Char.ofNat
  rw [dif_pos h]
  rfl

theorem toNat_marker : marker.toNat = 0x7E000 := toNat_ofNat (by decide)

theorem ofNat_eq_marker {n : Nat} (h : n.isValidChar) : Char.ofNat n = marker ↔ n = 0x7E000 := by
  constructor
  . intro hn
    rw [← toNat_ofNat h, hn, toNat_marker]
  . rintro rfl
    rfl

/-- The number of one character is read back from what it is kept as. -/
theorem foldl_keep {n : Nat} (h : n.isValidChar ∨ isHalf n) (read : Array Nat) :
    (keep n).foldl Decoding.step ⟨read, false⟩ = ⟨read.push n, false⟩ := by
  by_cases hn : isHalf n
  . have := lt_of_isHalf hn
    have := le_of_isHalf hn
    have valid : (halfPlane + n).isValidChar := by
      simp only [halfPlane, Nat.isValidChar]
      omega
    have needs : needsMarker (halfPlane + n) := by
      simp only [needsMarker, halfPlane, Bool.and_eq_true, Nat.ble_eq]
      omega
    have other : Char.ofNat (halfPlane + n) ≠ marker := by
      rw [ne_eq, ofNat_eq_marker valid, halfPlane]
      omega
    simp [keep, hn, Decoding.step, other, toNat_ofNat valid, needs]
  . have valid : n.isValidChar := h.resolve_right hn
    by_cases needs : needsMarker n
    . simp [keep, hn, needs, Decoding.step, toNat_ofNat valid]
    . have other : Char.ofNat n ≠ marker := by
        rw [ne_eq, ofNat_eq_marker valid]
        rintro rfl
        exact needs rfl
      simp [keep, hn, needs, Decoding.step, other, toNat_ofNat valid]

theorem foldl_flatMap_keep {ns : List Nat} (h : ∀ n ∈ ns, n.isValidChar ∨ isHalf n)
    (read : Array Nat) :
    (ns.flatMap keep).foldl Decoding.step ⟨read, false⟩ = ⟨read ++ ns.toArray, false⟩ := by
  induction ns generalizing read with
  | nil => simp
  | cons n ns ih =>
    simp only [List.mem_cons, forall_eq_or_imp] at h
    rw [List.flatMap_cons, List.foldl_append, foldl_keep h.1, ih h.2]
    simp

theorem codes_ofCodes {ns : List Nat} (h : ∀ n ∈ ns, n.isValidChar ∨ isHalf n) :
    codes (ofCodes ns) = ns := by
  simp [codes, codesOf, ofCodes, foldl_flatMap_keep h]

end Storyworld.Text
