import Storyworld.Json.Writer
import Storyworld.Proofs.Reader
import Storyworld.Text.Bytes

/-!
This module contains the way of a value through its JSON text: what is written is read back, as long as
the names of every object differ and the scalars are legible.
-/

namespace Storyworld

/-! ### Coded texts -/

namespace Text

/-- Characters that stand for numbers of characters and of halves. -/
def Coded (cs : List Char) : Prop :=
  ∃ ns : List Nat, (∀ n ∈ ns, n.isValidChar ∨ isHalf n = true) ∧ cs = ns.flatMap keep

theorem coded_nil : Coded [] := ⟨[], by simp, rfl⟩

theorem Coded.append {cs ds : List Char} (hcs : Coded cs) (hds : Coded ds) : Coded (cs ++ ds) := by
  obtain ⟨ns, hns, rfl⟩ := hcs
  obtain ⟨ms, hms, rfl⟩ := hds
  refine ⟨ns ++ ms, fun n hn => ?_, by rw [List.flatMap_append]⟩
  exact (List.mem_append.mp hn).elim (hns n) (hms n)

theorem coded_flatMap {α : Type} {f : α → List Char} {as : List α} (h : ∀ a ∈ as, Coded (f a))
    : Coded (as.flatMap f) := by
  induction as with
  | nil => exact coded_nil
  | cons a as ih =>
    exact (h a List.mem_cons_self).append (ih fun b hb => h b (List.mem_cons_of_mem a hb))

theorem keep_plain {n : Nat} (hn : n < 128) : keep n = [Char.ofNat n] := by
  revert n
  decide

def isPlain (cs : List Char) : Bool := cs.all fun c => Nat.blt c.toNat 128

theorem isPlain_iff {cs : List Char} : isPlain cs = true ↔ ∀ c ∈ cs, c.toNat < 128 := by
  simp [isPlain, List.all_eq_true]

theorem coded_plain {cs : List Char} (hplain : isPlain cs = true) : Coded cs := by
  have h := isPlain_iff.mp hplain
  clear hplain
  refine ⟨cs.map Char.toNat, fun n hn => ?_, ?_⟩
  . obtain ⟨c, _, rfl⟩ := List.mem_map.mp hn
    exact .inl c.valid
  . induction cs with
    | nil => rfl
    | cons c cs ih =>
      rw [List.map_cons, List.flatMap_cons, keep_plain (h c List.mem_cons_self), Char.ofNat_toNat,
        ← ih fun d hd => h d (List.mem_cons_of_mem c hd)]
      rfl

theorem strayByte?_eq_none {n : Nat} (h : isHalf n = false) : strayByte? n = none := by
  unfold strayByte?
  rw [if_neg]
  intro hstray
  simp only [Bool.and_eq_true, Nat.ble_eq] at hstray
  have hlow : isLow n = true := by
    simp only [isLow, Bool.and_eq_true, Nat.ble_eq, Nat.blt_eq]
    omega
  simp [isHalf, hlow] at h

/-- A text without halves is a plain text, and its bytes are those of that. -/
theorem exists_plain {t : String} (h : Coded t.toList) (hhalf : hasHalf t = false)
    : ∃ s : String, ofPlain s = t ∧ toBytes t = s.toUTF8 := by
  obtain ⟨ns, hns, hcs⟩ := h
  have ht : t = ofCodes ns := by
    rw [ofCodes, ← hcs, String.ofList_toList]
  have hcodes : codes t = ns := by
    rw [ht, codes_ofCodes hns]
  have hwhole (n : Nat) (hn : n ∈ ns) : isHalf n = false := by
    unfold hasHalf at hhalf
    rw [hcodes, List.any_eq_false] at hhalf
    simpa using hhalf n hn
  refine ⟨String.ofList (ns.map Char.ofNat), ?_, ?_⟩
  . have hsame (n : Nat) (hn : n ∈ ns) : (Char.ofNat n).toNat = n :=
      toNat_ofNat ((hns n hn).resolve_right (by simp [hwhole n hn]))
    rw [ofPlain, String.toList_ofList, List.map_map, ht]
    exact congrArg ofCodes ((List.map_congr_left hsame).trans (List.map_id ns))
  . have hbytes (n : Nat) (hn : n ∈ ns) : codeBytes n = String.utf8EncodeChar (Char.ofNat n) := by
      rw [codeBytes, strayByte?_eq_none (hwhole n hn), hwhole n hn]
      rfl
    apply ByteArray.ext
    change ((codes t).flatMap codeBytes).toArray = _
    rw [hcodes, List.flatMap_congr hbytes, String.toUTF8, String.toByteArray_ofList,
      List.utf8Encode.eq_1, List.data_toByteArray, List.flatMap_map]

end Text

/-! ### Spaces -/

namespace Json

variable {ρ : Type} [Scalar ρ]

def Spaces (cs : List Char) : Prop := ∀ c ∈ cs, isSpace c = true

theorem isSpace_iff {c : Char} : isSpace c = true ↔ c ∈ [' ', '\n', '\r', '\t'] := by
  simp [isSpace, or_assoc]

theorem skipSpace_append {spaces : List Char} (h : Spaces spaces) (cs : List Char)
    : skipSpace (spaces ++ cs) = skipSpace cs :=
  List.dropWhile_append_of_pos h

theorem skipSpace_cons {c : Char} (h : isSpace c = false) (cs : List Char)
    : skipSpace (c :: cs) = c :: cs := by
  unfold skipSpace
  rw [List.dropWhile_cons_of_neg (by simp [h])]

theorem spaces_lineBreak (indent : Indent) (depth : Nat) : Spaces (lineBreak indent depth).toList := by
  intro c hc
  cases indent with
  | none => cases hc
  | some step =>
    simp only [lineBreak, String.toList_append, String.toList_ofList, List.mem_append] at hc
    rcases hc with hc | hc
    . obtain rfl : c = '\n' := by simpa using hc
      rfl
    . rw [List.eq_of_mem_replicate hc]
      rfl

/-! ### Texts -/

theorem hex_control : ∀ n < 32, Text.hex 4 n = ['0', '0', (n / 16).digitChar, (n % 16).digitChar]
    ∧ Text.hexValue? (n / 16).digitChar = some (n / 16)
    ∧ Text.hexValue? (n % 16).digitChar = some (n % 16) := by
  decide

theorem parts_control {n : Nat} (hn : n < 32) (cs : List Char)
    : parts ('\\' :: 'u' :: Text.hex 4 n ++ cs)
      = (parts cs).map fun (ps, rest) => (.unit n :: ps, rest) := by
  obtain ⟨hhex, hhigh, hlow⟩ := hex_control n hn
  have hsum : 16 * (n / 16) + n % 16 = n := Nat.div_add_mod n 16
  rw [hhex]
  simp only [List.cons_append, List.nil_append, parts, hhigh, hlow]
  have hzero : Text.hexValue? '0' = some 0 := by decide
  cases parts cs with
  | none => simp [hzero]
  | some found => simp [hzero, hsum]

theorem chars_control {n : Nat} (hn : n < 32) (ps : List Part)
    : Part.chars (.unit n :: ps) = Char.ofNat n :: Part.chars ps := by
  have hkeep : Text.keep n = [Char.ofNat n] := by
    revert n
    decide
  have hhigh : Text.isHigh n = false := by
    revert n
    decide
  cases ps with
  | nil => simp [Part.chars, hkeep]
  | cons p ps =>
    cases p with
    | char c => simp [Part.chars, hkeep]
    | unit l => simp [Part.chars, hkeep, hhigh]

theorem escape_cases (c : Char)
    : (∃ e, e ≠ 'u' ∧ escape c = ['\\', e] ∧ escaped? e = some c)
      ∨ (c.toNat < 32 ∧ escape c = '\\' :: 'u' :: Text.hex 4 c.toNat)
      ∨ (escape c = [c] ∧ 32 ≤ c.toNat ∧ c ≠ '"' ∧ c ≠ '\\') := by
  unfold escape
  split
  next => exact .inl ⟨'"', by decide, rfl, rfl⟩
  next => exact .inl ⟨'\\', by decide, rfl, rfl⟩
  next => exact .inl ⟨'n', by decide, rfl, rfl⟩
  next => exact .inl ⟨'r', by decide, rfl, rfl⟩
  next => exact .inl ⟨'t', by decide, rfl, rfl⟩
  next hmark hslash _ _ _ =>
    have hchar {n : Nat} (h : c.toNat = n) : c = Char.ofNat n := by
      rw [← h, Char.ofNat_toNat]
    split
    next h => exact .inl ⟨'b', by decide, rfl, by rw [hchar h]; rfl⟩
    next =>
      split
      next h => exact .inl ⟨'f', by decide, rfl, by rw [hchar h]; rfl⟩
      next =>
        split
        next h => exact .inr (.inl ⟨h, rfl⟩)
        next h => exact .inr (.inr ⟨rfl, Nat.le_of_not_lt h, hmark, hslash⟩)

/-- A character comes back from its escaped form, as one part. -/
theorem parts_escape (c : Char) {cs rest : List Char} {ps : List Part}
    (h : parts cs = some (ps, rest))
    : ∃ p, parts (escape c ++ cs) = some (p :: ps, rest)
      ∧ Part.chars (p :: ps) = c :: Part.chars ps := by
  rcases escape_cases c with
    ⟨e, hne, hescape, hread⟩ | ⟨hcontrol, hescape⟩ | ⟨hescape, hle, hmark, hslash⟩
  . refine ⟨.char c, ?_, rfl⟩
    rw [hescape]
    change parts ('\\' :: e :: cs) = _
    unfold parts
    split
    next heq => cases heq
    next heq => cases heq
    next heq =>
      cases heq
      exact absurd rfl hne
    next heq =>
      cases heq
      rw [hread, h]
      rfl
    next hother heq =>
      cases heq
      exact (hother _ _ rfl rfl).elim
  . refine ⟨.unit c.toNat, ?_, ?_⟩
    . rw [hescape, parts_control hcontrol, h]
      rfl
    . rw [chars_control hcontrol, Char.ofNat_toNat]
  . refine ⟨.char c, ?_, rfl⟩
    rw [hescape]
    change parts (c :: cs) = _
    unfold parts
    split
    next heq => cases heq
    next heq => exact absurd (List.cons.inj heq).1 hmark
    next heq => exact absurd (List.cons.inj heq).1 hslash
    next heq => exact absurd (List.cons.inj heq).1 hslash
    next heq =>
      cases heq
      rw [if_neg (by simp [hle, hslash]), h]
      rfl

/-- A text comes back from between its marks. -/
theorem text_escape (s : String) (rest : List Char)
    : text (s.toList.flatMap escape ++ '"' :: rest) = some (s, rest) := by
  have hparts (cs : List Char) : ∃ ps, parts (cs.flatMap escape ++ '"' :: rest) = some (ps, rest)
      ∧ Part.chars ps = cs := by
    induction cs with
    | nil => exact ⟨[], rfl, rfl⟩
    | cons c cs ih =>
      obtain ⟨ps, hread, hchars⟩ := ih
      obtain ⟨p, hp, hc⟩ := parts_escape c hread
      rw [List.flatMap_cons, List.append_assoc]
      exact ⟨p :: ps, hp, by rw [hc, hchars]⟩
  obtain ⟨ps, hread, hchars⟩ := hparts s.toList
  unfold text
  rw [hread]
  simp [hchars]

/-! ### Numbers -/

/-- What may stand behind a value: nothing, a space, a comma or a closing bracket. -/
def Ended (rest : List Char) : Prop :=
  ∀ c ∈ rest.head?, isSpace c = true ∨ c ∈ [',', ']', '\x7d']

theorem Ended.not_numeric {c : Char} {rest : List Char} (h : Ended (c :: rest))
    : c.isDigit = false ∧ c ≠ '.' ∧ c ≠ 'e' ∧ c ≠ 'E' := by
  have hc : c ∈ [' ', '\n', '\r', '\t', ',', ']', '\x7d'] := by
    rcases h c rfl with hspace | hmark
    . exact List.mem_append_left _ (isSpace_iff.mp hspace)
    . exact List.mem_append_right [' ', '\n', '\r', '\t'] hmark
  simp only [List.mem_cons, List.not_mem_nil, or_false] at hc
  rcases hc with rfl | rfl | rfl | rfl | rfl | rfl | rfl <;> decide

theorem digits_append {ds rest : List Char} (hds : ∀ d ∈ ds, d.isDigit = true) (hrest : Ended rest)
    : Numeral.digits (ds ++ rest) = (ds.map (·.toNat - 48), rest) := by
  unfold Numeral.digits
  rw [List.takeWhile_append_of_pos hds, List.dropWhile_append_of_pos hds]
  cases rest with
  | nil => simp
  | cons c rest => simp [hrest.not_numeric.1]

theorem toDigits_head {n : Nat} (hn : n ≠ 0) {ds : List Char} : Nat.toDigits 10 n ≠ '0' :: ds := by
  induction n using Nat.strongRecOn generalizing ds with
  | ind n ih =>
    have hdigit : ∀ d < 10, d ≠ 0 → d.digitChar ≠ '0' := by decide
    rw [Nat.toDigits_eq_if (by decide)]
    split
    next hlt =>
      intro heq
      exact hdigit n hlt hn (List.cons.inj heq).1
    next hle =>
      intro heq
      obtain ⟨e, es, hes⟩ := List.exists_cons_of_ne_nil (Nat.toDigits_ne_nil (n := n / 10) (b := 10))
      rw [hes, List.cons_append] at heq
      rw [(List.cons.inj heq).1] at hes
      exact ih (n / 10) (Nat.div_lt_self (Nat.pos_of_ne_zero hn) (by decide)) (by omega) hes

theorem wholePart_toDigits (n : Nat) {rest : List Char} (hrest : Ended rest)
    : wholePart (Nat.toDigits 10 n ++ rest) = ((Nat.toDigits 10 n).map (·.toNat - 48), rest) := by
  have hdigits (d : Char) (hd : d ∈ Nat.toDigits 10 n) : d.isDigit = true :=
    Nat.isDigit_of_mem_toDigits (by decide) (by decide) hd
  by_cases hn : n = 0
  . subst hn
    rfl
  . rw [← digits_append hdigits hrest]
    unfold wholePart
    split
    next ds heq =>
      obtain ⟨d, ds, hds⟩ := List.exists_cons_of_ne_nil (Nat.toDigits_ne_nil (n := n) (b := 10))
      rw [hds, List.cons_append] at heq
      cases heq
      exact absurd hds (toDigits_head hn)
    next => rfl

theorem places_of_ended {rest : List Char} (h : Ended rest) : places rest = none := by
  unfold places
  split
  next => exact absurd rfl h.not_numeric.2.1
  next => rfl

theorem exponent_of_ended {rest : List Char} (h : Ended rest) : exponent rest = none := by
  unfold exponent
  split
  next c cs => rw [if_neg (by simp [h.not_numeric.2.2])]
  next => rfl

theorem digitsValue_toDigits (n : Nat)
    : Text.digitsValue ((Nat.toDigits 10 n).map (·.toNat - 48)) = n := by
  rw [Text.digitsValue_eq_foldl, List.foldl_map]
  exact Nat.ofDigitChars_eq_foldl.symm.trans Nat.ofDigitChars_ten_toDigits

theorem number_toDigits (negative : Bool) {n : Nat}
    (hn : (Nat.toDigits 10 n).length ≤ Numeral.digitLimit) {rest : List Char} (hrest : Ended rest)
    : (number negative (Nat.toDigits 10 n ++ rest) : Option (Number ρ × List Char))
      = some (.int (if negative then -n else n), rest) := by
  unfold number
  rw [wholePart_toDigits n hrest]
  split
  next heq =>
    exact absurd (List.map_eq_nil_iff.mp (congrArg Prod.fst heq)) Nat.toDigits_ne_nil
  next whole cs _ heq =>
    cases heq
    simp only [places_of_ended hrest, exponent_of_ended hrest, Option.getD_none]
    simp [Nat.not_lt.mpr hn, digitsValue_toDigits]

theorem word_eq_none {c : Char} (hc : c ∉ ['n', 't', 'f', 'N', 'I', '-']) (cs : List Char)
    : (word (c :: cs) : Option (Value ρ × List Char)) = none := by
  simp only [List.mem_cons, List.not_mem_nil, or_false, not_or] at hc
  obtain ⟨hn, ht, hf, hN, hI, hminus⟩ := hc
  simp [word, Text.behind?, Ne.symm hn, Ne.symm ht, Ne.symm hf, Ne.symm hN, Ne.symm hI,
    Ne.symm hminus]

theorem word_minus_eq_none {c : Char} (hc : c ≠ 'I') (cs : List Char)
    : (word ('-' :: c :: cs) : Option (Value ρ × List Char)) = none := by
  simp [word, Text.behind?, Ne.symm hc]

theorem exists_toDigits (n : Nat)
    : ∃ d ds, Nat.toDigits 10 n = d :: ds ∧ d ∉ ['n', 't', 'f', 'N', 'I', '-'] := by
  obtain ⟨d, ds, hds⟩ := List.exists_cons_of_ne_nil (Nat.toDigits_ne_nil (n := n) (b := 10))
  refine ⟨d, ds, hds, fun hd => ?_⟩
  have hdigit : d.isDigit = true :=
    Nat.isDigit_of_mem_toDigits (by decide) (by decide) (hds ▸ List.mem_cons_self)
  simp only [List.mem_cons, List.not_mem_nil, or_false] at hd
  rcases hd with rfl | rfl | rfl | rfl | rfl | rfl <;> cases hdigit

theorem leaf_int {i : Int} {t : String} (h : writeNumber (.int i : Number ρ) = .ok t)
    {rest : List Char} (hrest : Ended rest)
    : leaf (t.toList ++ rest) = some ((.int i : Value ρ), rest) := by
  have hrepr (n : Nat) : (toString n).toList = Nat.toDigits 10 n := by
    rw [Nat.toString_eq_ofList_toDigits, String.toList_ofList]
  unfold writeNumber at h
  dsimp only at h
  split at h
  next => cases h
  next hwidth =>
    cases h
    rw [Nat.blt_eq, Nat.not_lt, ← String.length_toList, hrepr] at hwidth
    cases i with
    | ofNat n =>
      have hnumber : number false (Nat.toDigits 10 n ++ rest) = some ((.int n : Number ρ), rest) :=
        number_toDigits false hwidth hrest
      obtain ⟨d, ds, hds, hd⟩ := exists_toDigits n
      have hminus : d ≠ '-' := by
        rintro rfl
        exact hd (by decide)
      change leaf ((toString n).toList ++ rest) = _
      rw [hrepr]
      rw [hds, List.cons_append] at hnumber ⊢
      unfold leaf
      rw [word_eq_none hd]
      split
      next heq => exact absurd (List.cons.inj heq).1 hminus
      next => exact congrArg (Option.map fun found => (Value.num found.1, found.2)) hnumber
    | negSucc n =>
      have hnumber : number true (Nat.toDigits 10 (n + 1) ++ rest)
          = some ((.int (Int.negSucc n) : Number ρ), rest) := number_toDigits true hwidth hrest
      obtain ⟨d, ds, hds, hd⟩ := exists_toDigits (n + 1)
      have hI : d ≠ 'I' := by
        rintro rfl
        exact hd (by decide)
      change leaf (("-" ++ toString (n + 1)).toList ++ rest) = _
      rw [String.toList_append, hrepr]
      change leaf ('-' :: (Nat.toDigits 10 (n + 1) ++ rest)) = _
      rw [hds, List.cons_append] at hnumber ⊢
      unfold leaf
      rw [word_minus_eq_none hI]
      exact congrArg (Option.map fun found => (Value.num found.1, found.2)) hnumber

/-! ### Values -/

/-- A scalar that is read back from its text, which has plain characters only. -/
structure Legible (x : ρ) : Prop where
  read : ∀ rest, Ended rest → leaf ((writeReal x).toList ++ rest) = some (.real x, rest)
  plain : Text.isPlain (writeReal x).toList = true

/-- What a JSON text can carry: texts stand for characters and halves, the names of an object differ, and
scalars are legible. -/
inductive Portable : Value ρ → Prop
  | null : Portable .null
  | flag (b : Bool) : Portable (.flag b)
  | int (i : Int) : Portable (.int i)
  | real {x : ρ} (h : Legible x) : Portable (.real x)
  | text {s : String} (h : Text.Coded s.toList) : Portable (.text s)
  | list {xs : List (Value ρ)} (h : ∀ x ∈ xs, Portable x) : Portable (.list xs)
  | object {ms : Record ρ} (hnames : (Table.names ms).Nodup)
    (hcoded : ∀ name ∈ Table.names ms, Text.Coded name.toList) (h : ∀ m ∈ ms, Portable m.2) :
    Portable (.object ms)

theorem leaf_head {c : Char} {cs : List Char} {found : Value ρ × List Char}
    (h : leaf (c :: cs) = some found)
    : isSpace c = false ∧ c ∉ ['"', '[', '\x7b', ']', '\x7d'] := by
  have hhead : c.isDigit = true ∨ c ∈ ['n', 't', 'f', 'N', 'I', '-'] := by
    by_contra hc
    obtain ⟨hdigit, hword⟩ := not_or.mp hc
    have hminus : c ≠ '-' := by
      rintro rfl
      exact hword (by decide)
    have hnumber : (number false (c :: cs) : Option (Number ρ × List Char)) = none := by
      have hzero : c ≠ '0' := by
        rintro rfl
        exact hdigit rfl
      have hwhole : wholePart (c :: cs) = ([], c :: cs) := by
        unfold wholePart
        split
        next heq => exact absurd (List.cons.inj heq).1 hzero
        next => simp [Numeral.digits, hdigit]
      unfold number
      rw [hwhole]
    unfold leaf at h
    rw [word_eq_none hword] at h
    split at h
    next heq => exact absurd (List.cons.inj heq).1 hminus
    next =>
      rw [hnumber] at h
      cases h
  have hother : c ∉ [' ', '\n', '\r', '\t', '"', '[', '\x7b', ']', '\x7d'] := by
    intro hc
    simp only [List.mem_cons, List.not_mem_nil, or_false] at hc
    rcases hc with rfl | rfl | rfl | rfl | rfl | rfl | rfl | rfl | rfl <;> revert hhead <;> decide
  refine ⟨Bool.eq_false_iff.mpr fun hspace => ?_, fun hmark => ?_⟩
  . exact hother (List.mem_append_left _ (isSpace_iff.mp hspace))
  . exact hother (List.mem_append_right [' ', '\n', '\r', '\t'] hmark)

theorem leaf_nil : (leaf [] : Option (Value ρ × List Char)) = none := by
  simp [leaf, word, Text.behind?, number, wholePart, Numeral.digits]

theorem value_of_leaf {spaces cs rest : List Char} {v : Value ρ} (hspaces : Spaces spaces)
    (h : leaf cs = some (v, rest)) (fuel room : Nat)
    : value (fuel + 1) room (spaces ++ cs) = .ok (v, rest) := by
  cases cs with
  | nil =>
    rw [leaf_nil] at h
    cases h
  | cons c cs =>
    obtain ⟨hspace, hmarks⟩ := leaf_head h
    unfold value
    rw [skipSpace_append hspaces, skipSpace_cons hspace]
    split
    next heq => exact absurd (List.cons.inj heq).1 (by rintro rfl; exact hmarks (by decide))
    next heq => exact absurd (List.cons.inj heq).1 (by rintro rfl; exact hmarks (by decide))
    next heq => exact absurd (List.cons.inj heq).1 (by rintro rfl; exact hmarks (by decide))
    next =>
      rw [h]
      rfl

/-- A value is read back from each of its texts, whatever stands in front of it and behind it; and its
text is not taken for the end of a list. -/
structure Returns (v : Value ρ) : Prop where
  head : ∀ indent depth t, writeAt indent depth v = .ok t →
    ∃ c, t.toList.head? = some c ∧ isSpace c = false ∧ c ≠ ']'
  value : ∀ indent depth room fuel t spaces rest, writeAt indent depth v = .ok t →
    v.isWithin room = true → t.length < fuel → Spaces spaces → Ended rest →
    value fuel room (spaces ++ (t.toList ++ rest)) = .ok (v, rest)

theorem returns_of_leaf {v : Value ρ}
    (h : ∀ indent depth t rest, writeAt indent depth v = .ok t → Ended rest →
      leaf (t.toList ++ rest) = some (v, rest)) : Returns v where
  head indent depth t hwrite := by
    have hleaf := h indent depth t [] hwrite (by simp [Ended])
    rw [List.append_nil] at hleaf
    cases ht : t.toList with
    | nil =>
      rw [ht, leaf_nil] at hleaf
      cases hleaf
    | cons c cs =>
      rw [ht] at hleaf
      obtain ⟨hspace, hmarks⟩ := leaf_head hleaf
      refine ⟨c, rfl, hspace, ?_⟩
      rintro rfl
      exact hmarks (by decide)
  value indent depth room fuel t spaces rest hwrite _ hfuel hspaces hrest := by
    obtain ⟨fuel, rfl⟩ := Nat.exists_eq_succ_of_ne_zero (Nat.ne_zero_of_lt hfuel)
    exact value_of_leaf hspaces (h indent depth t rest hwrite hrest) fuel room

/-- What stands between two items. -/
def separator (indent : Indent) (depth : Nat) : String :=
  (if indent.isNone then ", " else ",") ++ lineBreak indent depth

theorem exists_separator (indent : Indent) (depth : Nat)
    : ∃ spaces, Spaces spaces ∧ (separator indent depth).toList = ',' :: spaces := by
  have hbreak := spaces_lineBreak indent depth
  unfold separator
  rw [String.toList_append]
  cases indent with
  | none => exact ⟨_, List.forall_mem_cons.mpr ⟨rfl, hbreak⟩, rfl⟩
  | some step => exact ⟨_, hbreak, by simp⟩

/-- Behind the first of several texts stands a comma, and what follows the others is shorter. -/
theorem exists_intercalate (indent : Indent) (depth : Nat) (t u : String) (us : List String)
    : ∃ spaces, Spaces spaces
      ∧ ((separator indent depth).intercalate (t :: u :: us)).toList
        = t.toList ++ ',' :: (spaces ++ ((separator indent depth).intercalate (u :: us)).toList)
      ∧ t.length + ((separator indent depth).intercalate (u :: us)).length
        < ((separator indent depth).intercalate (t :: u :: us)).length := by
  obtain ⟨spaces, hspaces, hseparator⟩ := exists_separator indent depth
  have htext : ((separator indent depth).intercalate (t :: u :: us)).toList
      = t.toList ++ ',' :: (spaces ++ ((separator indent depth).intercalate (u :: us)).toList) := by
    rw [String.intercalate_cons_cons, String.toList_append, String.toList_append, hseparator,
      List.append_assoc, List.cons_append]
  have hlength := congrArg List.length htext
  simp only [String.length_toList, List.length_append, List.length_cons] at hlength
  exact ⟨spaces, hspaces, htext, by omega⟩

theorem ended_mark {c : Char} (hc : c ∈ [',', ']', '\x7d']) (rest : List Char)
    : Ended (c :: rest) := by
  intro d hd
  cases hd
  exact .inr hc

theorem ended_close {close : List Char} (h : Spaces close) {c : Char} (hc : c ∈ [',', ']', '\x7d'])
    (rest : List Char) : Ended (close ++ c :: rest) := by
  cases close with
  | nil => exact ended_mark hc rest
  | cons e close =>
    intro d hd
    cases hd
    exact .inl (h _ List.mem_cons_self)

theorem items_write {xs : List (Value ρ)} (hxs : ∀ x ∈ xs, Returns x) (hne : xs ≠ []) {indent : Indent}
    {depth room fuel : Nat} {ts : List String} {spaces close : List Char}
    (hwrite : writeItems indent depth xs = .ok ts) (hwithin : Value.allWithin room xs = true)
    (hfuel : ((separator indent depth).intercalate ts).length + 1 < fuel) (hspaces : Spaces spaces)
    (hclose : Spaces close) (rest : List Char)
    : items fuel room
        (spaces ++ (((separator indent depth).intercalate ts).toList ++ (close ++ ']' :: rest)))
      = .ok (xs, rest) := by
  induction xs generalizing ts spaces fuel with
  | nil => exact absurd rfl hne
  | cons x xs ih =>
    obtain ⟨fuel, rfl⟩ := Nat.exists_eq_succ_of_ne_zero (Nat.ne_zero_of_lt hfuel)
    unfold writeItems at hwrite
    obtain ⟨t, ht, hwrite⟩ := Fault.bind_eq_ok.mp hwrite
    obtain ⟨ts, hts, heq⟩ := Fault.bind_eq_ok.mp hwrite
    cases heq
    unfold Value.allWithin at hwithin
    rw [Bool.and_eq_true] at hwithin
    have hx := hxs x List.mem_cons_self
    cases xs with
    | nil =>
      cases hts
      rw [String.intercalate_singleton] at hfuel ⊢
      have hread := hx.value indent depth room fuel t spaces _ ht hwithin.1 (by omega) hspaces
        (ended_close (c := ']') hclose (by decide) rest)
      rw [items, hread]
      simp only [bind, Except.bind]
      rw [skipSpace_append hclose, skipSpace_cons (by decide)]
      rfl
    | cons y ys =>
      obtain ⟨u, us, rfl⟩ : ∃ u us, ts = u :: us := by
        obtain ⟨u, _, hts⟩ := Fault.bind_eq_ok.mp hts
        obtain ⟨us, _, heq⟩ := Fault.bind_eq_ok.mp hts
        exact ⟨u, us, (Except.ok.inj heq).symm⟩
      obtain ⟨more, hmore, htext, hlength⟩ := exists_intercalate indent depth t u us
      rw [htext, List.append_assoc, List.cons_append, List.append_assoc]
      have hread (after : List Char) := hx.value indent depth room fuel t spaces _ ht hwithin.1
        (by omega) hspaces (ended_mark (c := ',') (by decide) after)
      have hrest : items fuel room (more ++ (((separator indent depth).intercalate (u :: us)).toList
          ++ (close ++ ']' :: rest))) = .ok (y :: ys, rest) :=
        ih (fun z hz => hxs z (List.mem_cons_of_mem x hz)) (List.cons_ne_nil y ys) hts hwithin.2
          (by omega) hmore
      rw [items, hread]
      simp only [bind, Except.bind]
      rw [skipSpace_cons (by decide)]
      simp only [hrest]
      rfl

/-- A member is read back, and then what stands behind it: more members or the closing bracket. -/
theorem members_member {name : String} {v : Value ρ} (hv : Returns v) {indent : Indent}
    {depth room fuel : Nat} {t : String} {spaces after rest : List Char} {more : Record ρ}
    (hwrite : writeAt indent depth v = .ok t) (hwithin : v.isWithin room = true)
    (hfuel : t.length < fuel) (hspaces : Spaces spaces) (hafter : Ended after)
    (hmore : (∃ cs, skipSpace after = ',' :: cs ∧ members fuel room cs = .ok (more, rest))
      ∨ skipSpace after = '\x7d' :: rest ∧ more = [])
    : members (fuel + 1) room (spaces ++ ((writeText name ++ ": " ++ t).toList ++ after))
      = .ok ((name, v) :: more, rest) := by
  have hmember : (writeText name ++ ": " ++ t).toList ++ after
      = '"' :: (name.toList.flatMap escape ++ '"' :: ':' :: ([' '] ++ (t.toList ++ after))) := by
    simp [writeText]
  have hread := hv.value indent depth room fuel t [' '] after hwrite hwithin hfuel
    (by simp [Spaces, isSpace]) hafter
  rw [hmember, members, skipSpace_append hspaces, skipSpace_cons (by decide)]
  simp only [text_escape, orMalformed, Option.map_some, Option.getD_some, bind, Except.bind]
  rw [skipSpace_cons (by decide)]
  simp only [hread]
  rcases hmore with ⟨cs, hcs, hcomma⟩ | ⟨hclosing, rfl⟩
  . simp [hcs, hcomma, pure, Except.pure]
  . simp [hclosing, pure, Except.pure]

theorem members_write {ms : Record ρ} (hms : ∀ m ∈ ms, Returns m.2) (hne : ms ≠ []) {indent : Indent}
    {depth room fuel : Nat} {ts : List String} {spaces close : List Char}
    (hwrite : writeMembers indent depth ms = .ok ts) (hwithin : Value.membersWithin room ms = true)
    (hfuel : ((separator indent depth).intercalate ts).length + 1 < fuel) (hspaces : Spaces spaces)
    (hclose : Spaces close) (rest : List Char)
    : members fuel room
        (spaces ++ (((separator indent depth).intercalate ts).toList ++ (close ++ '\x7d' :: rest)))
      = .ok (ms, rest) := by
  induction ms generalizing ts spaces fuel with
  | nil => exact absurd rfl hne
  | cons m ms ih =>
    obtain ⟨name, v⟩ := m
    obtain ⟨fuel, rfl⟩ := Nat.exists_eq_succ_of_ne_zero (Nat.ne_zero_of_lt hfuel)
    unfold writeMembers at hwrite
    obtain ⟨t, ht, hwrite⟩ := Fault.bind_eq_ok.mp hwrite
    obtain ⟨ts, hts, heq⟩ := Fault.bind_eq_ok.mp hwrite
    cases heq
    unfold Value.membersWithin at hwithin
    rw [Bool.and_eq_true] at hwithin
    have hv : Returns v := hms (name, v) List.mem_cons_self
    cases ms with
    | nil =>
      cases hts
      rw [String.intercalate_singleton] at hfuel ⊢
      simp only [String.length_append] at hfuel
      have hclosing : skipSpace (close ++ '\x7d' :: rest) = '\x7d' :: rest := by
        rw [skipSpace_append hclose, skipSpace_cons (by decide)]
      exact members_member hv ht hwithin.1 (by omega) hspaces (ended_close hclose (by decide) rest)
        (.inr ⟨hclosing, rfl⟩)
    | cons n ns =>
      obtain ⟨u, us, rfl⟩ : ∃ u us, ts = u :: us := by
        obtain ⟨u, _, hts⟩ := Fault.bind_eq_ok.mp hts
        obtain ⟨us, _, heq⟩ := Fault.bind_eq_ok.mp hts
        exact ⟨_, us, (Except.ok.inj heq).symm⟩
      obtain ⟨more, hmore, htext, hlength⟩ := exists_intercalate indent depth
        (writeText name ++ ": " ++ t) u us
      rw [htext, List.append_assoc, List.cons_append, List.append_assoc]
      simp only [String.length_append] at hlength
      have hrest : members fuel room (more ++ (((separator indent depth).intercalate (u :: us)).toList
          ++ (close ++ '\x7d' :: rest))) = .ok (n :: ns, rest) :=
        ih (fun z hz => hms z (List.mem_cons_of_mem _ hz)) (List.cons_ne_nil n ns) hts hwithin.2
          (by omega) hmore
      exact members_member hv ht hwithin.1 (by omega) hspaces (ended_mark (by decide) _)
        (.inl ⟨_, skipSpace_cons (by decide) _, hrest⟩)

theorem toList_bracket {indent : Indent} {depth : Nat} {opening closing : String} {ts : List String}
    (h : ts ≠ [])
    : (bracket indent depth opening closing ts).toList
      = opening.toList ++ ((lineBreak indent (depth + 1)).toList
        ++ (((separator indent (depth + 1)).intercalate ts).toList
          ++ ((lineBreak indent depth).toList ++ closing.toList))) := by
  unfold bracket
  rw [if_neg (by simpa using h)]
  simp [separator]

/-- What stands between two brackets, by the character it starts with. -/
theorem exists_bracket {indent : Indent} {depth : Nat} {opening closing : String} {o e c : Char}
    (hopening : opening.toList = [o]) (hclosing : closing.toList = [e]) {ts : List String}
    (hhead : ((separator indent (depth + 1)).intercalate ts).toList.head? = some c)
    : ∃ cs, ((separator indent (depth + 1)).intercalate ts).toList = c :: cs
      ∧ (bracket indent depth opening closing ts).toList
        = o :: ((lineBreak indent (depth + 1)).toList
          ++ c :: (cs ++ ((lineBreak indent depth).toList ++ [e])))
      ∧ ((separator indent (depth + 1)).intercalate ts).length + 2
        ≤ (bracket indent depth opening closing ts).length := by
  have hne : ts ≠ [] := by
    rintro rfl
    cases hhead
  obtain ⟨cs, hcs⟩ := List.head?_eq_some_iff.mp hhead
  have htext : (bracket indent depth opening closing ts).toList = _ := toList_bracket hne
  have hlength := congrArg List.length htext
  simp only [String.length_toList, List.length_append, hopening, hclosing] at hlength
  simp only [List.length_singleton] at hlength
  refine ⟨cs, hcs, ?_, by omega⟩
  rw [htext, hopening, hclosing, hcs]
  rfl

theorem head?_bracket {opening : String} {c : Char} (h : opening.toList.head? = some c)
    (indent : Indent) (depth : Nat) (closing : String) (ts : List String)
    : (bracket indent depth opening closing ts).toList.head? = some c := by
  unfold bracket
  split
  . simp [h]
  . simp [h]

theorem head?_intercalate {indent : Indent} {depth : Nat} {x : Value ρ} {xs : List (Value ρ)}
    (hx : Returns x) {ts : List String} (hwrite : writeItems indent depth (x :: xs) = .ok ts)
    (separator : String)
    : ∃ c, (separator.intercalate ts).toList.head? = some c ∧ isSpace c = false ∧ c ≠ ']' := by
  unfold writeItems at hwrite
  obtain ⟨t, ht, hwrite⟩ := Fault.bind_eq_ok.mp hwrite
  obtain ⟨ts, _, heq⟩ := Fault.bind_eq_ok.mp hwrite
  cases heq
  obtain ⟨c, hhead, hc⟩ := hx.head indent depth t ht
  refine ⟨c, ?_, hc⟩
  cases ts with
  | nil => rw [String.intercalate_singleton, hhead]
  | cons u us => simp [String.intercalate_cons_cons, hhead]

theorem returns_list {xs : List (Value ρ)} (hxs : ∀ x ∈ xs, Returns x) : Returns (.list xs) where
  head indent depth t hwrite := by
    unfold writeAt at hwrite
    obtain ⟨ts, _, heq⟩ := Fault.bind_eq_ok.mp hwrite
    cases heq
    exact ⟨'[', head?_bracket (by simp) indent depth "]" ts, by decide⟩
  value indent depth room fuel t spaces rest hwrite hwithin hfuel hspaces hrest := by
    unfold Value.isWithin at hwithin
    rw [Bool.and_eq_true, Nat.blt_eq] at hwithin
    obtain ⟨room, rfl⟩ := Nat.exists_eq_succ_of_ne_zero hwithin.1.ne'
    obtain ⟨fuel, rfl⟩ := Nat.exists_eq_succ_of_ne_zero (Nat.ne_zero_of_lt hfuel)
    unfold writeAt at hwrite
    obtain ⟨ts, hts, heq⟩ := Fault.bind_eq_ok.mp hwrite
    cases heq
    rw [Json.value, skipSpace_append hspaces]
    cases xs with
    | nil =>
      cases hts
      have hempty : (bracket indent depth "[" "]" []).toList = ['[', ']'] := by simp [bracket]
      rw [hempty]
      simp only [List.cons_append, List.nil_append, skipSpace_cons (show isSpace '[' = false by decide),
        skipSpace_cons (show isSpace ']' = false by decide)]
      rfl
    | cons x xs =>
      obtain ⟨c, hhead, hspace, hclosing⟩ := head?_intercalate (hxs x List.mem_cons_self) hts
        (separator indent (depth + 1))
      obtain ⟨cs, hcs, htext, hlength⟩ :=
        exists_bracket (show "[".toList = ['['] by simp) (show "]".toList = [']'] by simp) hhead
      have hitems : items fuel room ([] ++ (((separator indent (depth + 1)).intercalate ts).toList
          ++ ((lineBreak indent depth).toList ++ ']' :: rest))) = .ok (x :: xs, rest) :=
        items_write hxs (List.cons_ne_nil x xs) hts hwithin.2 (by omega) (by simp [Spaces])
          (spaces_lineBreak indent depth) rest
      rw [hcs, List.nil_append, List.cons_append] at hitems
      rw [htext]
      simp only [List.cons_append, List.append_assoc, List.nil_append,
        skipSpace_cons (show isSpace '[' = false by decide),
        skipSpace_append (spaces_lineBreak indent (depth + 1)), Flaw.enter, bind, Except.bind,
        skipSpace_cons hspace]
      split
      next heq => exact absurd (List.cons.inj heq).1 hclosing
      next =>
        rw [hitems]
        rfl

theorem head?_intercalate_members {indent : Indent} {depth : Nat} {m : String × Value ρ}
    {ms : Record ρ} {ts : List String} (hwrite : writeMembers indent depth (m :: ms) = .ok ts)
    (separator : String) : (separator.intercalate ts).toList.head? = some '"' := by
  obtain ⟨name, v⟩ := m
  unfold writeMembers at hwrite
  obtain ⟨t, _, hwrite⟩ := Fault.bind_eq_ok.mp hwrite
  obtain ⟨ts, _, heq⟩ := Fault.bind_eq_ok.mp hwrite
  cases heq
  cases ts with
  | nil => simp [writeText]
  | cons u us => simp [String.intercalate_cons_cons, writeText]

theorem returns_object {ms : Record ρ} (hnames : (Table.names ms).Nodup)
    (hms : ∀ m ∈ ms, Returns m.2) : Returns (.object ms) where
  head indent depth t hwrite := by
    unfold writeAt at hwrite
    obtain ⟨ts, _, heq⟩ := Fault.bind_eq_ok.mp hwrite
    cases heq
    exact ⟨'\x7b', head?_bracket (by simp) indent depth "\x7d" ts, by decide⟩
  value indent depth room fuel t spaces rest hwrite hwithin hfuel hspaces hrest := by
    unfold Value.isWithin at hwithin
    rw [Bool.and_eq_true, Nat.blt_eq] at hwithin
    obtain ⟨room, rfl⟩ := Nat.exists_eq_succ_of_ne_zero hwithin.1.ne'
    obtain ⟨fuel, rfl⟩ := Nat.exists_eq_succ_of_ne_zero (Nat.ne_zero_of_lt hfuel)
    unfold writeAt at hwrite
    obtain ⟨ts, hts, heq⟩ := Fault.bind_eq_ok.mp hwrite
    cases heq
    rw [Json.value, skipSpace_append hspaces]
    cases ms with
    | nil =>
      cases hts
      have hempty : (bracket indent depth "\x7b" "\x7d" []).toList = ['\x7b', '\x7d'] := by simp [bracket]
      rw [hempty]
      simp only [List.cons_append, List.nil_append,
        skipSpace_cons (show isSpace '\x7b' = false by decide),
        skipSpace_cons (show isSpace '\x7d' = false by decide)]
      rfl
    | cons m ms =>
      have hhead := head?_intercalate_members hts (separator indent (depth + 1))
      obtain ⟨cs, hcs, htext, hlength⟩ := exists_bracket
        (show "\x7b".toList = ['\x7b'] by simp) (show "\x7d".toList = ['\x7d'] by simp) hhead
      have hmembers : members fuel room ([] ++ (((separator indent (depth + 1)).intercalate ts).toList
          ++ ((lineBreak indent depth).toList ++ '\x7d' :: rest))) = .ok (m :: ms, rest) :=
        members_write hms (List.cons_ne_nil m ms) hts hwithin.2 (by omega) (by simp [Spaces])
          (spaces_lineBreak indent depth) rest
      rw [hcs, List.nil_append, List.cons_append] at hmembers
      rw [htext]
      simp only [List.cons_append, List.append_assoc, List.nil_append,
        skipSpace_cons (show isSpace '\x7b' = false by decide),
        skipSpace_append (spaces_lineBreak indent (depth + 1)), Flaw.enter, bind, Except.bind,
        skipSpace_cons (show isSpace '"' = false by decide)]
      split
      next heq => exact absurd (List.cons.inj heq).1 (by decide)
      next =>
        rw [hmembers]
        exact congrArg (fun ms => Except.ok (Value.object ms, rest)) (Table.ofList_eq_self hnames)

theorem returns_text (s : String) : Returns (.text s : Value ρ) where
  head indent depth t hwrite := by
    cases hwrite
    exact ⟨'"', by simp [writeText], by decide⟩
  value indent depth room fuel t spaces rest hwrite _ hfuel hspaces _ := by
    cases hwrite
    obtain ⟨fuel, rfl⟩ := Nat.exists_eq_succ_of_ne_zero (Nat.ne_zero_of_lt hfuel)
    have htext : (writeText s).toList ++ rest = '"' :: (s.toList.flatMap escape ++ '"' :: rest) := by
      simp [writeText]
    rw [htext, Json.value, skipSpace_append hspaces, skipSpace_cons (by decide)]
    simp only [text_escape, orMalformed, Option.map_some, Option.getD_some, bind, Except.bind]
    rfl

theorem returns_of_portable {v : Value ρ} (h : Portable v) : Returns v := by
  induction h with
  | null =>
    apply returns_of_leaf
    intro indent depth t rest hwrite _
    cases hwrite
    simp [leaf, word, Text.behind?]
  | flag b =>
    apply returns_of_leaf
    intro indent depth t rest hwrite _
    cases hwrite
    cases b with
    | true => simp [leaf, word, Text.behind?]
    | false => simp [leaf, word, Text.behind?]
  | int i => exact returns_of_leaf fun _ _ _ _ hwrite hrest => leaf_int hwrite hrest
  | real h =>
    apply returns_of_leaf
    intro indent depth t rest hwrite hrest
    cases hwrite
    exact h.read rest hrest
  | text _ => exact returns_text _
  | list _ ih => exact returns_list ih
  | object hnames _ _ ih => exact returns_object hnames ih

/-- What is written is read back. -/
theorem read_write {v : Value ρ} (hv : Portable v) {indent : Indent} {t : String}
    (h : write indent v = .ok t) : read t = .ok (some v) := by
  unfold write at h
  split at h
  next hwithin =>
    have hvalue := (returns_of_portable hv).value indent 0 depthLimit (t.toList.length + 2) t [] [] h
      hwithin (by rw [String.length_toList]; omega) (by simp [Spaces]) (by simp [Ended])
    rw [List.nil_append, List.append_nil] at hvalue
    unfold read
    dsimp only
    rw [hvalue]
    rfl
  next => cases h

/-! ### The characters of a text that is written -/

theorem escape_eq_self {c : Char} (h : 128 ≤ c.toNat) : escape c = [c] := by
  rcases escape_cases c with ⟨e, _, _, hread⟩ | ⟨hcontrol, _⟩ | ⟨hescape, _⟩
  . have hplain : c.toNat < 128 := by
      unfold escaped? at hread
      split at hread <;> cases hread <;> decide
    omega
  . omega
  . exact hescape

theorem isPlain_escape : ∀ n < 128, Text.isPlain (escape (Char.ofNat n)) = true := by
  decide

theorem le_toNat_of_mem_keep {n : Nat} (hn : n.isValidChar ∨ Text.isHalf n = true) (hle : 128 ≤ n)
    {c : Char} (hc : c ∈ Text.keep n) : 128 ≤ c.toNat := by
  unfold Text.keep at hc
  split at hc
  next hhalf =>
    obtain rfl := List.mem_singleton.mp hc
    have hlt := Text.lt_of_isHalf hhalf
    have hvalid : (Text.halfPlane + n).isValidChar := by
      simp only [Text.halfPlane, Nat.isValidChar]
      omega
    rw [Text.toNat_ofNat hvalid]
    exact Nat.le_trans (by decide) (Nat.le_add_right Text.halfPlane n)
  next hhalf =>
    have hchar : 128 ≤ (Char.ofNat n).toNat := by
      rwa [Text.toNat_ofNat (hn.resolve_right hhalf)]
    split at hc
    next =>
      simp only [List.mem_cons, List.not_mem_nil, or_false] at hc
      rcases hc with rfl | rfl
      . rw [Text.toNat_marker]
        decide
      . exact hchar
    next =>
      obtain rfl := List.mem_singleton.mp hc
      exact hchar

theorem coded_escape {cs : List Char} (h : Text.Coded cs) : Text.Coded (cs.flatMap escape) := by
  obtain ⟨ns, hns, rfl⟩ := h
  rw [List.flatMap_assoc]
  refine Text.coded_flatMap fun n hn => ?_
  rcases Nat.lt_or_ge n 128 with hlt | hle
  . rw [Text.keep_plain hlt, List.flatMap_singleton]
    exact Text.coded_plain (isPlain_escape n hlt)
  . have hescape (c : Char) (hc : c ∈ Text.keep n) : escape c = [c] :=
      escape_eq_self (le_toNat_of_mem_keep (hns n hn) hle hc)
    rw [List.flatMap_congr hescape, List.flatMap_singleton']
    exact ⟨[n], by simpa using hns n hn, by simp⟩

theorem coded_writeText {s : String} (h : Text.Coded s.toList)
    : Text.Coded (writeText s).toList := by
  unfold writeText
  rw [String.toList_ofList]
  have hmark : Text.Coded ['"'] := Text.coded_plain (by decide)
  exact hmark.append ((coded_escape h).append hmark)

theorem coded_lineBreak (indent : Indent) (depth : Nat)
    : Text.Coded (lineBreak indent depth).toList := by
  refine Text.coded_plain (Text.isPlain_iff.mpr fun c hc => ?_)
  have hspace := isSpace_iff.mp (spaces_lineBreak indent depth c hc)
  simp only [List.mem_cons, List.not_mem_nil, or_false] at hspace
  rcases hspace with rfl | rfl | rfl | rfl <;> decide

theorem coded_writeNumber {i : Int} {t : String} (h : writeNumber (.int i : Number ρ) = .ok t)
    : Text.Coded t.toList := by
  have hrepr (n : Nat) (c : Char) (hc : c ∈ (toString n).toList) : c.toNat < 128 := by
    rw [Nat.toString_eq_ofList_toDigits, String.toList_ofList] at hc
    have hdigit : c.isDigit = true := Nat.isDigit_of_mem_toDigits (by decide) (by decide) hc
    simp only [Char.isDigit, ge_iff_le, Bool.and_eq_true, decide_eq_true_eq] at hdigit
    exact Nat.lt_of_le_of_lt (UInt32.le_iff_toNat_le.mp hdigit.2) (by decide)
  unfold writeNumber at h
  dsimp only at h
  split at h
  next => cases h
  next =>
    cases h
    refine Text.coded_plain (Text.isPlain_iff.mpr ?_)
    cases i with
    | ofNat n => exact hrepr n
    | negSucc n =>
      change ∀ c ∈ ("-" ++ toString (n + 1)).toList, _
      rw [String.toList_append]
      intro c hc
      rcases List.mem_append.mp hc with hc | hc
      . obtain rfl : c = '-' := by simpa using hc
        decide
      . exact hrepr (n + 1) c hc

theorem coded_intercalate {separator : String} (hseparator : Text.Coded separator.toList)
    {ts : List String} (hts : ∀ t ∈ ts, Text.Coded t.toList)
    : Text.Coded (separator.intercalate ts).toList := by
  induction ts with
  | nil => exact Text.coded_nil
  | cons t ts ih =>
    have ht := hts t List.mem_cons_self
    have hrest := ih fun u hu => hts u (List.mem_cons_of_mem t hu)
    cases ts with
    | nil => rwa [String.intercalate_singleton]
    | cons u us =>
      rw [String.intercalate_cons_cons, String.toList_append, String.toList_append]
      exact (ht.append hseparator).append hrest

theorem coded_bracket {opening closing : String} (hopening : Text.Coded opening.toList)
    (hclosing : Text.Coded closing.toList) (indent : Indent) (depth : Nat) {ts : List String}
    (hts : ∀ t ∈ ts, Text.Coded t.toList)
    : Text.Coded (bracket indent depth opening closing ts).toList := by
  by_cases hempty : ts = []
  . subst hempty
    unfold bracket
    rw [if_pos List.isEmpty_nil, String.toList_append]
    exact hopening.append hclosing
  . have hbreak := coded_lineBreak indent
    have hseparator : Text.Coded (separator indent (depth + 1)).toList := by
      unfold separator
      rw [String.toList_append]
      refine Text.Coded.append (Text.coded_plain ?_) (hbreak (depth + 1))
      split <;> decide
    rw [toList_bracket hempty]
    exact hopening.append ((hbreak (depth + 1)).append
      ((coded_intercalate hseparator hts).append ((hbreak depth).append hclosing)))

/-- What is written of a value consists of characters and halves. -/
theorem coded_writeAt {v : Value ρ} (h : Portable v) {indent : Indent} {depth : Nat} {t : String}
    (hwrite : writeAt indent depth v = .ok t) : Text.Coded t.toList := by
  induction h generalizing depth t with
  | null =>
    cases hwrite
    exact Text.coded_plain (by decide)
  | flag b =>
    cases hwrite
    cases b <;> exact Text.coded_plain (by decide)
  | int i => exact coded_writeNumber (show writeNumber (.int i : Number ρ) = .ok t from hwrite)
  | real h =>
    cases hwrite
    exact Text.coded_plain h.plain
  | text h =>
    cases hwrite
    exact coded_writeText h
  | @list xs _ ih =>
    have hitems {ys : List (Value ρ)} (hys : ∀ y ∈ ys, y ∈ xs) {ts : List String}
        (hts : writeItems indent (depth + 1) ys = .ok ts) : ∀ t ∈ ts, Text.Coded t.toList := by
      induction ys generalizing ts with
      | nil =>
        cases hts
        exact List.forall_mem_nil _
      | cons y ys ihys =>
        unfold writeItems at hts
        obtain ⟨u, hu, hts⟩ := Fault.bind_eq_ok.mp hts
        obtain ⟨us, hus, heq⟩ := Fault.bind_eq_ok.mp hts
        cases heq
        exact List.forall_mem_cons.mpr ⟨ih y (hys y List.mem_cons_self) hu,
          ihys (fun z hz => hys z (List.mem_cons_of_mem y hz)) hus⟩
    unfold writeAt at hwrite
    obtain ⟨ts, hts, heq⟩ := Fault.bind_eq_ok.mp hwrite
    cases heq
    exact coded_bracket (Text.coded_plain (by decide)) (Text.coded_plain (by decide)) indent depth
      (hitems (fun (_ : Value ρ) hy => hy) hts)
  | @object ms _ hcoded _ ih =>
    have hmembers {ns : Record ρ} (hns : ∀ n ∈ ns, n ∈ ms) {ts : List String}
        (hts : writeMembers indent (depth + 1) ns = .ok ts) : ∀ t ∈ ts, Text.Coded t.toList := by
      induction ns generalizing ts with
      | nil =>
        cases hts
        exact List.forall_mem_nil _
      | cons n ns ihns =>
        obtain ⟨name, v⟩ := n
        have hmem := hns (name, v) List.mem_cons_self
        unfold writeMembers at hts
        obtain ⟨u, hu, hts⟩ := Fault.bind_eq_ok.mp hts
        obtain ⟨us, hus, heq⟩ := Fault.bind_eq_ok.mp hts
        cases heq
        refine List.forall_mem_cons.mpr
          ⟨?_, ihns (fun m hm => hns m (List.mem_cons_of_mem _ hm)) hus⟩
        rw [String.toList_append, String.toList_append]
        exact ((coded_writeText (hcoded name (List.mem_map_of_mem hmem))).append
          (Text.coded_plain (by decide))).append (ih (name, v) hmem hu)
    unfold writeAt at hwrite
    obtain ⟨ts, hts, heq⟩ := Fault.bind_eq_ok.mp hwrite
    cases heq
    exact coded_bracket (Text.coded_plain (by decide)) (Text.coded_plain (by decide)) indent depth
      (hmembers (fun _ hn => hn) hts)

theorem coded_write {v : Value ρ} (h : Portable v) {indent : Indent} {t : String}
    (hwrite : write indent v = .ok t) : Text.Coded t.toList := by
  unfold write at hwrite
  split at hwrite
  next => exact coded_writeAt h hwrite
  next => cases hwrite

end Json

end Storyworld
