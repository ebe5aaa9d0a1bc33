import Mathlib.Data.List.TakeWhile
import Mathlib.Data.Nat.Digits.Defs
import Storyworld.Terminal

/-!
This module contains the law of the prompt of a menu. Lines are refused, each with a reminder, up to the
first one that is the number or the name of an entry. A line that only looks like a number breaks the
prompt off.
-/

namespace Storyworld

/-! ### Digits -/

namespace Text

theorem digitValue?_eq_some {c : Char} {d : Nat} (h : digitValue? c = some d)
    : d < 10 ∧ ∃ z ∈ zeros, c.toNat = z + d := by
  obtain ⟨z, hfound, rfl⟩ := Option.map_eq_some_iff.mp h
  have hz := List.find?_some hfound
  rw [Bool.and_eq_true, Nat.ble_eq, Nat.blt_eq] at hz
  refine ⟨?_, z, List.mem_of_find?_eq_some hfound, ?_⟩
  . omega
  . omega

theorem digitValue?_isSome_of_isDigit {c : Char} (h : c.isDigit = true)
    : (digitValue? c).isSome = true := by
  have hascii : 48 ≤ c.toNat ∧ c.toNat < 48 + 10 := by
    unfold Char.isDigit at h
    rw [Bool.and_eq_true, decide_eq_true_eq, decide_eq_true_eq] at h
    obtain ⟨hlow, hhigh⟩ := h
    exact ⟨hlow, Nat.lt_succ_of_le hhigh⟩
  unfold digitValue?
  rw [Option.isSome_map, List.find?_isSome]
  refine ⟨48, by decide, ?_⟩
  rw [Bool.and_eq_true, Nat.ble_eq, Nat.blt_eq]
  exact hascii

theorem isDigit_of_decimal {c : Char} (h : (digitValue? c).isSome = true) : isDigit c = true := by
  unfold isDigit
  rw [h, Bool.true_or]

/-- What is a digit, or looks like one, is not blank. -/
theorem isBlank_of_isDigit {c : Char} (h : isDigit c = true) : isBlank c = false := by
  have hzeros : ∀ z ∈ zeros, ∀ r ∈ blankRanges, z + 10 ≤ r.1 ∨ r.2 < z := by decide +kernel
  have hfancy : ∀ q ∈ fancyDigitRanges, ∀ r ∈ blankRanges, q.2 < r.1 ∨ r.2 < q.1 := by decide +kernel
  rw [← Bool.not_eq_true]
  intro hblank
  unfold isBlank inRanges at hblank
  obtain ⟨r, hr, hin⟩ := List.any_eq_true.mp hblank
  rw [Bool.and_eq_true, Nat.ble_eq, Nat.ble_eq] at hin
  unfold isDigit at h
  rcases Bool.or_eq_true _ _ |>.mp h with hdecimal | hlooks
  . obtain ⟨d, hd⟩ := Option.isSome_iff_exists.mp hdecimal
    obtain ⟨hlt, z, hz, hc⟩ := digitValue?_eq_some hd
    have := hzeros z hz r hr
    omega
  . obtain ⟨q, hq, hlook⟩ := List.any_eq_true.mp hlooks
    rw [Bool.and_eq_true, Nat.ble_eq, Nat.ble_eq] at hlook
    have := hfancy q hq r hr
    omega

theorem stripBoth_eq_self {p : Char → Bool} {cs : List Char} (h : ∀ c ∈ cs, p c = false)
    : stripBoth p cs = cs := by
  have hdrop (l : List Char) (hl : ∀ c ∈ l, p c = false) : l.dropWhile p = l := by
    cases l with
    | nil => rfl
    | cons c l => rw [List.dropWhile_cons, hl c List.mem_cons_self, if_neg Bool.false_ne_true]
  unfold stripBoth
  rw [hdrop cs h, hdrop cs.reverse fun c hc => h c (List.mem_reverse.mp hc), List.reverse_reverse]

theorem digitsValue_eq_ofDigits (ds : List Nat) : digitsValue ds = Nat.ofDigits 10 ds.reverse := by
  rw [digitsValue_eq_foldl, Nat.ofDigits_eq_foldr, List.foldr_reverse]
  congr 1
  funext n d
  simp [Nat.add_comm]

end Text

/-! ### Whole numbers of digits -/

namespace Numeral

theorem isMargin_of_isDigit {c : Char} (h : Text.isDigit c = true) : isMargin c = false := by
  have hblank := Text.isBlank_of_isDigit h
  rw [← Bool.not_eq_true]
  intro hmargin
  unfold isMargin at hmargin
  simp only [Bool.or_eq_true, Bool.and_eq_true, decide_eq_true_eq, Nat.ble_eq, hblank] at hmargin
  have hnot : ¬ ∃ r ∈ Text.blankRanges, r.1 ≤ c.toNat ∧ c.toNat ≤ r.2 := by
    rintro ⟨r, hr, hlow, hhigh⟩
    unfold Text.isBlank Text.inRanges at hblank
    have := List.any_eq_false.mp hblank r hr
    simp [hlow, hhigh] at this
  rcases hmargin with (rfl | hlow) | ⟨_, hfalse⟩
  . exact hnot ⟨(28, 32), by decide, by decide, by decide⟩
  . exact hnot ⟨(9, 13), by decide, hlow⟩
  . cases hfalse

/-- A plain digit for a decimal digit, with its value; what only looks like one is left as it is. -/
theorem plainDigit_cases (c : Char)
    : (∃ d, Text.digitValue? c = some d ∧ (plainDigit c).isDigit = true
        ∧ (plainDigit c).toNat - 48 = d)
      ∨ (Text.digitValue? c = none ∧ plainDigit c = c ∧ c.isDigit = false) := by
  unfold plainDigit
  cases hvalue : Text.digitValue? c with
  | none =>
    refine .inr ⟨rfl, rfl, ?_⟩
    rw [← Bool.not_eq_true]
    intro hdigit
    have := Text.digitValue?_isSome_of_isDigit hdigit
    rw [hvalue] at this
    cases this
  | some d =>
    have hplain : ∀ d < 10, (Char.ofNat (48 + d)).isDigit = true
        ∧ (Char.ofNat (48 + d)).toNat - 48 = d := by decide
    exact .inl ⟨d, rfl, hplain d (Text.digitValue?_eq_some hvalue).1⟩

theorem isDigit_plainDigit {c : Char} (h : Text.isDigit c = true)
    : Text.isDigit (plainDigit c) = true := by
  rcases plainDigit_cases c with ⟨d, _, hdigit, _⟩ | ⟨_, hsame, _⟩
  . exact Text.isDigit_of_decimal (Text.digitValue?_isSome_of_isDigit hdigit)
  . rw [hsame]
    exact h

theorem joinGroups_of_isDigit {cs : List Char} (h : ∀ c ∈ cs, Text.isDigit c = true)
    : joinGroups cs = some cs := by
  suffices hgo : ∀ after, joinGroups.go after cs = some cs from hgo false
  induction cs with
  | nil => exact fun _ => by rw [joinGroups.go]
  | cons c cs ih =>
    intro after
    rw [List.forall_mem_cons] at h
    have hne : c ≠ '_' := by
      rintro rfl
      exact absurd h.1 (by decide +kernel)
    unfold joinGroups.go
    split
    next heq =>
      cases heq
    next heq =>
      exact absurd (List.cons.inj heq).1 hne
    next heq =>
      obtain ⟨rfl, rfl⟩ := List.cons.inj heq
      rw [if_neg hne, ih h.2]
      rfl

theorem sign_of_isDigit {cs : List Char} (h : ∀ c ∈ cs, Text.isDigit c = true)
    : sign cs = (false, cs) := by
  unfold sign
  split
  next => exact absurd (h _ List.mem_cons_self) (by decide +kernel)
  next => exact absurd (h _ List.mem_cons_self) (by decide +kernel)
  next => rfl

theorem readWhole_of_isDigit {s : String} (h : ∀ c ∈ s.toList, Text.isDigit c = true)
    : readWhole s = match digits (s.toList.map plainDigit) with
      | ([], _) => none
      | (ds, []) => if digitLimit < ds.length then none else some (Text.digitsValue ds : Int)
      | _ => none := by
  have hplain : ∀ c ∈ s.toList.map plainDigit, Text.isDigit c = true := by
    simp only [List.mem_map, forall_exists_index, and_imp, forall_apply_eq_imp_iff₂]
    exact fun c hc => isDigit_plainDigit (h c hc)
  have htidy : tidy s = some (s.toList.map plainDigit) := by
    unfold tidy
    rw [Text.stripBoth_eq_self fun c hc => isMargin_of_isDigit (h c hc), joinGroups_of_isDigit hplain]
  unfold readWhole
  rcases hdigits : digits (s.toList.map plainDigit) with ⟨_ | ⟨d, ds⟩, _ | ⟨c, cs⟩⟩
  all_goals simp [htidy, sign_of_isDigit hplain, hdigits]

/-- Plain digits are read up to the first one that only looks like a digit. -/
theorem digits_map_plainDigit (cs : List Char)
    : ((∀ c ∈ cs, (Text.digitValue? c).isSome = true)
        ∧ digits (cs.map plainDigit) = (cs.filterMap Text.digitValue?, []))
      ∨ (¬ (∀ c ∈ cs, (Text.digitValue? c).isSome = true) ∧ (digits (cs.map plainDigit)).2 ≠ []) := by
  induction cs with
  | nil => exact .inl ⟨by simp, rfl⟩
  | cons c cs ih =>
    unfold digits at ih ⊢
    rw [List.map_cons, List.forall_mem_cons]
    rcases plainDigit_cases c with ⟨d, hvalue, hdigit, rfl⟩ | ⟨hvalue, hsame, hother⟩
    . have hsome : (Text.digitValue? c).isSome = true := by
        rw [hvalue]
        rfl
      rw [List.takeWhile_cons_of_pos hdigit, List.dropWhile_cons_of_pos hdigit, List.map_cons,
        List.filterMap_cons_some hvalue, and_iff_right hsome]
      refine ih.imp_left fun ⟨hall, hdigits⟩ => ⟨hall, ?_⟩
      rw [Prod.mk.injEq] at hdigits ⊢
      exact ⟨congrArg _ hdigits.1, hdigits.2⟩
    . refine .inr ⟨?_, ?_⟩
      . rw [hvalue]
        exact fun h => Bool.false_ne_true h.1
      . rw [hsame, List.dropWhile_cons_of_neg (by rw [hother]; exact Bool.false_ne_true)]
        exact List.cons_ne_nil _ _

theorem readWhole_of_decimal {s : String} (hs : s ≠ "")
    (h : ∀ c ∈ s.toList, (Text.digitValue? c).isSome = true) (hfew : s.length ≤ digitLimit)
    : readWhole s = some ((Nat.ofDigits 10 (s.toList.filterMap Text.digitValue?).reverse : Nat) : Int) := by
  have hlength : (s.toList.filterMap Text.digitValue?).length = s.length := by
    rw [List.length_filterMap_eq_countP, List.countP_eq_length.mpr h, String.length_toList]
  rcases digits_map_plainDigit s.toList with ⟨_, hdigits⟩ | ⟨hother, _⟩
  . rw [readWhole_of_isDigit fun c hc => Text.isDigit_of_decimal (h c hc), hdigits]
    cases hvalues : s.toList.filterMap Text.digitValue? with
    | nil =>
      rw [hvalues] at hlength
      exact absurd (String.length_eq_zero_iff.mp hlength.symm) hs
    | cons d ds =>
      rw [hvalues] at hlength
      dsimp only
      rw [if_neg (by omega), Text.digitsValue_eq_ofDigits]
  . exact absurd h hother

theorem readWhole_of_lookalike {s : String} (h : ∀ c ∈ s.toList, Text.isDigit c = true)
    (hother : ¬ ∀ c ∈ s.toList, (Text.digitValue? c).isSome = true) : readWhole s = none := by
  rcases digits_map_plainDigit s.toList with ⟨hall, _⟩ | ⟨_, hrest⟩
  . exact absurd hall hother
  . rw [readWhole_of_isDigit h]
    generalize digits (s.toList.map plainDigit) = read at hrest ⊢
    obtain ⟨ds, rest⟩ := read
    cases rest with
    | nil => exact absurd rfl hrest
    | cons => cases ds <;> rfl

end Numeral

/-! ### Lines -/

namespace Terminal

/-- The number that a line of decimal digits writes. -/
def number? (line : String) : Option Nat :=
  if line ≠ "" ∧ line.toList.all (fun c => (Text.digitValue? c).isSome) = true then
    some (Nat.ofDigits 10 (line.toList.filterMap Text.digitValue?).reverse)
  else none

/-- The line looks like a number that cannot be read: a character of it only looks like a digit, or the
digits are too many. -/
def Trips (line : String) : Prop :=
  isNumber line = true ∧ (number? line = none ∨ Numeral.digitLimit < line.length)

theorem isNumber_iff {line : String}
    : isNumber line = true ↔ line ≠ "" ∧ ∀ c ∈ line.toList, Text.isDigit c = true := by
  unfold isNumber
  rw [Bool.and_eq_true, bne_iff_ne, List.all_eq_true]

theorem isNumber_of_number? {line : String} {n : Nat} (h : number? line = some n)
    : isNumber line = true := by
  unfold number? at h
  split at h
  next hdigits =>
    refine isNumber_iff.mpr ⟨hdigits.1, fun c hc => ?_⟩
    exact Text.isDigit_of_decimal (List.all_eq_true.mp hdigits.2 c hc)
  next => cases h

/-- A line that looks like a number is one, or trips. -/
theorem numberOf_cases {line : String} (h : isNumber line = true)
    : (Trips line ∧ ∃ e, numberOf line = .error e)
      ∨ (¬ Trips line ∧ ∃ n : Nat, number? line = some n ∧ numberOf line = .ok n) := by
  obtain ⟨hne, hdigits⟩ := isNumber_iff.mp h
  unfold Trips
  rw [h, eq_self, true_and]
  by_cases hall : ∀ c ∈ line.toList, (Text.digitValue? c).isSome = true
  . have hnumber : number? line = some _ := if_pos ⟨hne, List.all_eq_true.mpr hall⟩
    have hcount : (line.toList.takeWhile fun c => (Text.digitValue? c).isSome).length = line.length := by
      rw [List.takeWhile_eq_self_iff.mpr hall, String.length_toList]
    unfold numberOf
    rw [hnumber, hcount]
    rcases Nat.lt_or_ge Numeral.digitLimit line.length with hmany | hfew
    . refine .inl ⟨.inr hmany, .tooManyDigits line.length, ?_⟩
      exact if_pos (Nat.blt_eq.mpr hmany)
    . refine .inr ⟨?_, _, rfl, ?_⟩
      . rintro (hnone | hmany)
        . cases hnone
        . exact absurd hmany (Nat.not_lt.mpr hfew)
      . rw [Numeral.readWhole_of_decimal hne hall hfew]
        exact if_neg fun hmany => Nat.not_lt.mpr hfew (Nat.blt_eq.mp hmany)
  . refine .inl ⟨.inl (if_neg fun hnumber => hall (List.all_eq_true.mp hnumber.2)), ?_⟩
    unfold numberOf
    rw [Numeral.readWhole_of_lookalike hdigits hall]
    dsimp only
    split
    next => exact ⟨_, rfl⟩
    next => exact ⟨_, rfl⟩

/-! ### Answers -/

variable {ρ : Type} {entries : Entries ρ} {line : String}

/-- The line is the number of the entry, counted from one. -/
def Numbers (entries : Entries ρ) (line : String) (id : Value ρ) : Prop :=
  ∃ i, number? line = some (i + 1) ∧ (entries.map Prod.fst)[i]? = some id

/-- The line is the entry itself. -/
def Names (entries : Entries ρ) (line : String) (id : Value ρ) : Prop :=
  id = .text line ∧ id ∈ entries.map Prod.fst

/-- What a line means, without the blanks around it: the entry of that number, or else the entry of that
name. -/
def Means (entries : Entries ρ) (line : String) (id : Value ρ) : Prop :=
  let line := Text.strip line
  Numbers entries line id ∨ (∀ other, ¬ Numbers entries line other) ∧ Names entries line id

/-- The line is read, and means nothing. -/
def Refused (entries : Entries ρ) (line : String) : Prop :=
  ¬ Trips (Text.strip line) ∧ ∀ id, ¬ Means entries line id

theorem Means.mem {id : Value ρ} (h : Means entries line id) : id ∈ entries.map Prod.fst := by
  rcases h with ⟨i, _, hid⟩ | ⟨_, hnames⟩
  . exact List.mem_of_getElem? hid
  . exact hnames.2

theorem entryAt?_cases (entries : Entries ρ) (line : String)
    : (Trips line ∧ ∃ e, entryAt? entries line = .error e)
      ∨ (¬ Trips line ∧ ∃ id, Numbers entries line id ∧ entryAt? entries line = .ok (some id))
      ∨ (¬ Trips line ∧ (∀ id, ¬ Numbers entries line id) ∧ entryAt? entries line = .ok none) := by
  unfold entryAt?
  cases h : isNumber line with
  | false =>
    refine .inr (.inr ⟨fun htrips => ?_, ?_, rfl⟩)
    . exact Bool.false_ne_true (h.symm.trans htrips.1)
    . rintro id ⟨i, hnumber, _⟩
      exact Bool.false_ne_true (h.symm.trans (isNumber_of_number? hnumber))
  | true =>
    rcases numberOf_cases h with ⟨htrips, e, he⟩ | ⟨hreads, n, hnumber, hn⟩
    . exact .inl ⟨htrips, e, by rw [he]; rfl⟩
    . rw [hn]
      cases n with
      | zero =>
        refine .inr (.inr ⟨hreads, ?_, rfl⟩)
        rintro id ⟨i, hi, _⟩
        cases hi.symm.trans hnumber
      | succ i =>
        cases hid : entries[i]?.map Prod.fst with
        | none =>
          refine .inr (.inr ⟨hreads, ?_, congrArg Except.ok hid⟩)
          rintro id ⟨j, hj, hentry⟩
          obtain rfl : i = j := Nat.succ.inj (Option.some.inj (hnumber.symm.trans hj))
          rw [List.getElem?_map, hid] at hentry
          cases hentry
        | some id =>
          refine .inr (.inl ⟨hreads, id, ⟨i, hnumber, ?_⟩, congrArg Except.ok hid⟩)
          rw [List.getElem?_map, hid]

theorem find?_isLine_cases (entries : Entries ρ) (line : String)
    : (∃ id, Names entries line id
        ∧ (entries.find? fun e => isLine line e.1).map Prod.fst = some id)
      ∨ ((∀ id, ¬ Names entries line id)
        ∧ (entries.find? fun e => isLine line e.1).map Prod.fst = none) := by
  have hline (id : Value ρ) : isLine line id = true ↔ id = .text line := by
    unfold isLine
    split
    next s => rw [beq_iff_eq, Value.text.injEq]
    next hother => exact ⟨fun h => (Bool.false_ne_true h).elim, fun h => (hother line h).elim⟩
  cases hfound : entries.find? fun e => isLine line e.1 with
  | some e =>
    have hname := List.find?_some hfound
    exact .inl ⟨e.1, ⟨(hline e.1).mp hname, List.mem_map_of_mem (List.mem_of_find?_eq_some hfound)⟩, rfl⟩
  | none =>
    refine .inr ⟨?_, rfl⟩
    rintro id ⟨rfl, hmem⟩
    obtain ⟨e, he, hid⟩ := List.mem_map.mp hmem
    exact List.find?_eq_none.mp hfound e he ((hline e.1).mpr hid)

/-- A line trips, means one entry, or is refused. -/
theorem answer?_cases (entries : Entries ρ) (line : String)
    : (Trips (Text.strip line) ∧ ∃ e, answer? entries line = .error e)
      ∨ (¬ Trips (Text.strip line) ∧ ∃ id, Means entries line id ∧ answer? entries line = .ok (some id))
      ∨ (Refused entries line ∧ answer? entries line = .ok none) := by
  unfold answer?
  dsimp only
  rcases entryAt?_cases entries (Text.strip line) with
    ⟨htrips, e, he⟩ | ⟨hreads, id, hnumbers, hid⟩ | ⟨hreads, hnumbers, hnone⟩
  . exact .inl ⟨htrips, e, by rw [he]; rfl⟩
  . exact .inr (.inl ⟨hreads, id, .inl hnumbers, by rw [hid]; rfl⟩)
  . rw [hnone]
    rcases find?_isLine_cases entries (Text.strip line) with ⟨id, hnames, hid⟩ | ⟨hnames, hid⟩
    . exact .inr (.inl ⟨hreads, id, .inr ⟨hnumbers, hnames⟩, congrArg Except.ok hid⟩)
    . refine .inr (.inr ⟨⟨hreads, ?_⟩, congrArg Except.ok hid⟩)
      rintro id (hnumber | ⟨_, hname⟩)
      . exact hnumbers id hnumber
      . exact hnames id hname

/-! ### The prompt -/

/-- How a prompt ends over these lines: where they end, or on the first of them. -/
inductive Ends (entries : Entries ρ) : List String → Except Fault (Option (Value ρ)) → Prop where
  | ended : Ends entries [] (.ok none)
  | answered {line : String} {id : Value ρ} (reads : ¬ Trips (Text.strip line))
      (means : Means entries line id) (later : List String) : Ends entries (line :: later) (.ok (some id))
  | tripped {line : String} {e : Fault} (trips : Trips (Text.strip line)) (later : List String) :
      Ends entries (line :: later) (.error e)

theorem pickFrom_ends (entries : Entries ρ) (lines : List String)
    : ∃ before rest, lines = before ++ rest ∧ (∀ line ∈ before, Refused entries line)
      ∧ Ends entries rest (pickFrom entries lines).outcome
      ∧ (pickFrom entries lines).refused = before.length
      ∧ (pickFrom entries lines).lines = rest.tail := by
  induction lines with
  | nil => exact ⟨[], [], rfl, List.forall_mem_nil _, .ended, rfl, rfl⟩
  | cons line lines ih =>
    unfold pickFrom
    rcases answer?_cases entries line with ⟨htrips, e, he⟩ | ⟨hreads, id, hmeans, hid⟩ | ⟨hrefused, hnone⟩
    . rw [he]
      exact ⟨[], line :: lines, rfl, List.forall_mem_nil _, .tripped htrips lines, rfl, rfl⟩
    . rw [hid]
      exact ⟨[], line :: lines, rfl, List.forall_mem_nil _, .answered hreads hmeans lines, rfl, rfl⟩
    . rw [hnone]
      obtain ⟨before, rest, rfl, hbefore, hends, hcount, hlines⟩ := ih
      refine ⟨line :: before, rest, rfl, ?_, hends, congrArg (· + 1) hcount, hlines⟩
      exact List.forall_mem_cons.mpr ⟨hrefused, hbefore⟩

theorem pickFrom_of_refused {before : List String} (h : ∀ line ∈ before, Refused entries line)
    (rest : List String)
    : (pickFrom entries (before ++ rest)).outcome = (pickFrom entries rest).outcome := by
  induction before with
  | nil => rfl
  | cons line before ih =>
    obtain ⟨hrefused, hbefore⟩ := List.forall_mem_cons.mp h
    rcases answer?_cases entries line with ⟨htrips, _⟩ | ⟨_, id, hmeans, _⟩ | ⟨_, hnone⟩
    . exact absurd htrips hrefused.1
    . exact absurd hmeans (hrefused.2 id)
    . rw [List.cons_append, pickFrom, hnone]
      exact ih hbefore

theorem pickFrom_eq_none_iff (entries : Entries ρ) (lines : List String)
    : (pickFrom entries lines).outcome = .ok none ↔ ∀ line ∈ lines, Refused entries line := by
  constructor
  . intro h
    obtain ⟨before, rest, rfl, hbefore, hends, _⟩ := pickFrom_ends entries lines
    rw [h] at hends
    cases hends
    rwa [List.append_nil]
  . intro h
    rw [← List.append_nil lines, pickFrom_of_refused h]
    rfl

theorem pickFrom_error_iff (entries : Entries ρ) (lines : List String)
    : (∃ e, (pickFrom entries lines).outcome = .error e)
      ↔ ∃ before line after, lines = before ++ line :: after ∧ (∀ line ∈ before, Refused entries line)
        ∧ Trips (Text.strip line) := by
  constructor
  . rintro ⟨e, he⟩
    obtain ⟨before, rest, rfl, hbefore, hends, _⟩ := pickFrom_ends entries lines
    rw [he] at hends
    cases hends with
    | tripped htrips after => exact ⟨before, _, after, rfl, hbefore, htrips⟩
  . rintro ⟨before, line, after, rfl, hbefore, htrips⟩
    rw [pickFrom_of_refused hbefore, pickFrom]
    rcases answer?_cases entries line with ⟨_, e, he⟩ | ⟨hreads, _⟩ | ⟨hrefused, _⟩
    . exact ⟨e, by rw [he]⟩
    . exact absurd htrips hreads
    . exact absurd htrips hrefused.1

/-- A menu without entries has no answer and reads no line. Else the first line that means an entry picks
it, each line before it is met by a reminder, and there is no answer where no line means any. The prompt
breaks off just where a line that it reaches looks like a number and cannot be read. -/
theorem pick_exact (entries : Entries ρ) (lines : List String) (printed : List Printed)
    : let (outcome, after) := (pick entries).run ⟨lines, printed, false⟩
      (entries = [] → outcome = .ok none ∧ after = ⟨lines, printed, false⟩)
      ∧ (entries ≠ [] → ∃ before rest, lines = before ++ rest ∧ (∀ line ∈ before, Refused entries line)
        ∧ Ends entries rest outcome
        ∧ after = ⟨rest.tail, printed ++ (menuLines entries
          ++ List.replicate before.length (reminder entries)), false⟩)
      ∧ (∀ id, outcome = .ok (some id) → id ∈ entries.map Prod.fst)
      ∧ (outcome = .ok none ↔ entries = [] ∨ ∀ line ∈ lines, Refused entries line)
      ∧ ((∃ e, outcome = .error e) ↔ entries ≠ [] ∧ ∃ before line after, lines = before ++ line :: after
        ∧ (∀ line ∈ before, Refused entries line) ∧ Trips (Text.strip line)) := by
  unfold pick
  rw [Act.run_of]
  rcases eq_or_ne entries [] with rfl | hentries
  . refine ⟨fun _ => ⟨rfl, rfl⟩, fun h => absurd rfl h, ?_, ?_, ?_⟩
    . exact fun _ h => nomatch h
    . exact iff_of_true rfl (.inl rfl)
    . exact iff_of_false (fun ⟨_, h⟩ => nomatch h) fun h => h.1 rfl
  . have hsettle (outcome : Except Fault (Option (Value ρ))) : settle false outcome = outcome := rfl
    rw [if_neg (by rwa [List.isEmpty_iff])]
    dsimp only [print]
    rw [hsettle]
    obtain ⟨before, rest, hlines, hbefore, hends, hcount, hleft⟩ := pickFrom_ends entries lines
    refine ⟨fun h => absurd h hentries, fun _ => ⟨before, rest, hlines, hbefore, hends, ?_⟩, ?_, ?_, ?_⟩
    . rw [hcount, hleft]
    . intro id hid
      rw [hid] at hends
      cases hends with
      | answered _ hmeans _ => exact hmeans.mem
    . rw [pickFrom_eq_none_iff, or_iff_right hentries]
    . rw [pickFrom_error_iff, and_iff_right hentries]

/-- A superscript two is no number, and the line after it is not read. -/
example : (pickFrom ([(.text "bread", "Bread")] : Entries Rat) ["\u00b2", "1"]).outcome
    = .error (.notWhole "\u00b2") := by
  rfl

end Terminal

end Storyworld
