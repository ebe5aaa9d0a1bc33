import Storyworld.Proofs.Requirement

/-!
This module contains what the search for tokens that are not understood finds: it goes through a
definition from left to right and finds every text that stands for a requirement there, bare of blanks
and negations, unless it is understood. The search stops where a definition is nested too deep to be
read, and where the parts of its requirement stand too deep inside one another to be searched.
-/

namespace Storyworld

/-! ### Parts of expressions -/

namespace Expr

variable {α : Type} {a : α} {e : Expr α} {es : List (Expr α)} {n : Nat}

/-- One expression occurs in another, however deep. -/
inductive Occurs (e : Expr α) : Expr α → Prop where
  | self : Occurs e e
  | negate {f : Expr α} (h : Occurs e f) : Occurs e f.negate
  | sequence {fs : List (Expr α)} {f : Expr α} (hf : f ∈ fs) (h : Occurs e f)
    : Occurs e (.sequence fs)
  | all {fs : List (Expr α)} {f : Expr α} (hf : f ∈ fs) (h : Occurs e f) : Occurs e (.all fs)
  | any {fs : List (Expr α)} {f : Expr α} (hf : f ∈ fs) (h : Occurs e f) : Occurs e (.any fs)

theorem Logical.mem_leaves_iff (h : e.Logical) : a ∈ e.leaves ↔ (Expr.leaf a).Occurs e := by
  constructor
  . intro ha
    induction h with
    | leaf b =>
      obtain rfl := List.mem_singleton.mp ha
      exact .self
    | always b => cases ha
    | negate _ ih => exact .negate (ih ha)
    | all _ ih =>
      obtain ⟨f, hf, ha⟩ := mem_leavesList.mp ha
      exact .all hf (ih f hf ha)
    | any _ ih =>
      obtain ⟨f, hf, ha⟩ := mem_leavesList.mp ha
      exact .any hf (ih f hf ha)
  . intro ha
    clear h
    induction ha with
    | self => simp [leaves]
    | negate _ ih => exact ih
    | sequence hf _ ih => exact mem_leavesList.mpr ⟨_, hf, ih⟩
    | all hf _ ih => exact mem_leavesList.mpr ⟨_, hf, ih⟩
    | any hf _ ih => exact mem_leavesList.mpr ⟨_, hf, ih⟩

theorem leavesList_eq_flatMap (es : List (Expr α)) : leavesList es = es.flatMap leaves := by
  induction es with
  | nil => rfl
  | cons e es ih =>
    unfold leavesList
    rw [ih]
    rfl

theorem heightList_le_iff : heightList es ≤ n ↔ ∀ e ∈ es, e.height + 1 ≤ n := by
  induction es with
  | nil => simp [heightList]
  | cons e es ih => simp [heightList, ih]

end Expr

/-! ### Bare texts -/

namespace Requirement

section

variable {core cs : List Char}

/-- What is left of a text when the blanks around it and the negations in front of it are gone. -/
def bareChars (cs : List Char) : List Char :=
  match _h : Text.behind? negation (Text.stripBoth Text.isBlank cs) with
  | some rest => bareChars rest
  | none => Text.stripBoth Text.isBlank cs
termination_by cs.length
decreasing_by
  have := Text.length_behind? _h
  have := Text.length_stripBoth_le Text.isBlank cs
  simp [negation] at *
  omega

def bare (token : String) : String := String.ofList (bareChars token.toList)

/-- There are neither blanks around a text nor a negation in front of it. -/
structure IsBare (cs : List Char) : Prop where
  blanks : Text.stripBoth Text.isBlank cs = cs
  negations : Text.behind? negation cs = none

/-- A text is a core with any number of blanks around it and negations in front of it. -/
inductive Dressed (core : List Char) : List Char → Prop where
  | core : Dressed core core
  | before {b : Char} {cs : List Char} (hb : Text.isBlank b = true) (h : Dressed core cs)
    : Dressed core (b :: cs)
  | behind {b : Char} {cs : List Char} (hb : Text.isBlank b = true) (h : Dressed core cs)
    : Dressed core (cs ++ [b])
  | negation {cs : List Char} (h : Dressed core cs) : Dressed core (negation ++ cs)

theorem Dressed.blanks_append (h : Dressed core cs) {bs : List Char}
    (hbs : ∀ b ∈ bs, Text.isBlank b = true) : Dressed core (bs ++ cs) := by
  induction bs with
  | nil => exact h
  | cons b bs ih =>
    rw [List.forall_mem_cons] at hbs
    exact .before hbs.1 (ih hbs.2)

theorem Dressed.append_blanks (h : Dressed core cs) {bs : List Char}
    (hbs : ∀ b ∈ bs, Text.isBlank b = true) : Dressed core (cs ++ bs) := by
  induction bs generalizing cs with
  | nil => rwa [List.append_nil]
  | cons b bs ih =>
    rw [List.forall_mem_cons] at hbs
    rw [List.append_cons]
    exact ih (.behind hbs.1 h) hbs.2

theorem Dressed.of_stripBoth (h : Dressed core (Text.stripBoth Text.isBlank cs))
    : Dressed core cs := by
  obtain ⟨front, back, hfront, hback, hcs⟩ := Text.exists_blanks Text.isBlank cs
  rw [hcs]
  exact (h.append_blanks hback).blanks_append hfront

theorem bareChars_negation {rest : List Char}
    (h : Text.stripBoth Text.isBlank cs = negation ++ rest) : bareChars cs = bareChars rest := by
  rw [bareChars, h]
  split
  next rest' hrest =>
    rw [Text.behind?_append] at hrest
    rw [Option.some.inj hrest]
  next hnone =>
    rw [Text.behind?_append] at hnone
    cases hnone

theorem bareChars_plain (h : Text.behind? negation (Text.stripBoth Text.isBlank cs) = none)
    : bareChars cs = Text.stripBoth Text.isBlank cs := by
  rw [bareChars]
  split
  next rest hrest =>
    rw [h] at hrest
    cases hrest
  next => rfl

theorem isBare_bareChars (cs : List Char) : IsBare (bareChars cs) := by
  induction cs using bareChars.induct with
  | case1 cs rest hrest ih =>
    rw [bareChars_negation (Text.behind?_eq_some.mp hrest)]
    exact ih
  | case2 cs hnone =>
    rw [bareChars_plain hnone]
    exact ⟨Text.stripBoth_stripBoth _ _, hnone⟩

theorem dressed_bareChars (cs : List Char) : Dressed (bareChars cs) cs := by
  induction cs using bareChars.induct with
  | case1 cs rest hrest ih =>
    have hcs := Text.behind?_eq_some.mp hrest
    rw [bareChars_negation hcs]
    refine .of_stripBoth ?_
    rw [hcs]
    exact .negation ih
  | case2 cs hnone =>
    rw [bareChars_plain hnone]
    exact .of_stripBoth .core

theorem bareChars_congr {ds : List Char}
    (h : Text.stripBoth Text.isBlank cs = Text.stripBoth Text.isBlank ds)
    : bareChars cs = bareChars ds := by
  rw [bareChars, bareChars, h]

/-- A text has a single core that is bare. -/
theorem bareChars_eq_iff
    : bareChars cs = core ↔ IsBare core ∧ Dressed core cs := by
  constructor
  . rintro rfl
    exact ⟨isBare_bareChars cs, dressed_bareChars cs⟩
  . rintro ⟨hbare, hdressed⟩
    induction hdressed with
    | core =>
      rw [bareChars_plain (by rw [hbare.blanks]; exact hbare.negations), hbare.blanks]
    | @before b cs hb _ ih =>
      rw [← ih]
      exact bareChars_congr (Text.stripBoth_cons hb cs)
    | @behind b cs hb _ ih =>
      rw [← ih]
      exact bareChars_congr (Text.stripBoth_concat hb cs)
    | @negation cs _ ih =>
      obtain ⟨rest, hstrip, hrest⟩ := stripBoth_negation cs
      rw [bareChars_negation hstrip, bareChars_congr hrest, ih]

theorem bare_eq_iff {token core : String}
    : bare token = core ↔ IsBare core.toList ∧ Dressed core.toList token.toList := by
  rw [← bareChars_eq_iff]
  constructor
  . rintro rfl
    exact String.toList_ofList.symm
  . intro h
    unfold bare
    rw [h, String.ofList_toList]

end

variable {ρ : Type}

/-! ### Texts of a definition -/

mutual

/-- The texts that stand for requirements in a definition, from left to right. -/
def texts : Value ρ → List String
  | .text token => [token]
  | .list xs => textsOfItems xs
  | .object ms =>
    textsOfPart .requirements ms ++ textsOfPart .all ms ++ textsOfPart .any ms ++ textsOfPart .not ms
  | .null => []
  | .num _ => []
  | .target .. => []
  | .pointer .. => []

def textsOfItems : List (Value ρ) → List String
  | [] => []
  | x :: xs => texts x ++ textsOfItems xs

def textsOfPart (part : Part) : List (String × Value ρ) → List String
  | [] => []
  | (name, v) :: ms => if name = part.name then texts v else textsOfPart part ms

end

theorem texts_list (xs : List (Value ρ)) : texts (.list xs) = xs.flatMap texts := by
  conv_lhs => unfold texts
  induction xs with
  | nil => rfl
  | cons x xs ih =>
    unfold textsOfItems
    rw [ih]
    rfl

theorem textsOfPart_eq (part : Part) (ms : Record ρ)
    : textsOfPart part ms = (Table.get? ms part.name).toList.flatMap texts := by
  induction ms with
  | nil => rfl
  | cons m ms ih =>
    obtain ⟨name, v⟩ := m
    unfold textsOfPart
    rw [Table.get?_cons, ih]
    split
    . simp
    . rfl

theorem texts_object (ms : Record ρ)
    : texts (.object ms) = (parts ms).flatMap fun part => texts part.2 := by
  conv_lhs => unfold texts
  unfold parts
  simp only [textsOfPart_eq, List.filterMap_cons, List.filterMap_nil]
  cases Table.get? ms Part.requirements.name <;> cases Table.get? ms Part.all.name <;>
    cases Table.get? ms Part.any.name <;> cases Table.get? ms Part.not.name <;> simp

variable [Scalar ρ]

/-! ### Tokens that are not understood -/

/-- Should a condition not be understood, it quotes this token. -/
def Quotes (token : String) : Condition ρ → Prop
  | .unknown t => t = token
  | _ => True

theorem quotes_ofItemWords (token : String) (words : List String)
    : Quotes token (ofItemWords token words : Condition ρ) := by
  fun_cases ofItemWords (ρ := ρ) token words <;> simp [Quotes]

theorem quotes_ofTimeWords (token : String) (words : List String)
    : Quotes token (ofTimeWords token words : Condition ρ) := by
  fun_cases ofTimeWords (ρ := ρ) token words <;> simp [Quotes]

theorem quotes_ofTraitWords (token : String) (words : List String)
    : Quotes token (ofTraitWords token words : Condition ρ) := by
  fun_cases ofTraitWords (ρ := ρ) token words <;> simp [Quotes]

theorem quotes_ofPlainToken (token : String)
    : Quotes token (ofPlainToken token : Condition ρ) := by
  unfold ofPlainToken
  dsimp only
  split
  . exact quotes_ofItemWords token _
  split
  . trivial
  split
  . trivial
  split
  . exact quotes_ofTimeWords token _
  split
  . split
    . rfl
    . trivial
  split
  . exact quotes_ofTraitWords token _
  . rfl

/-- Whether a text is read as one token that is not understood. -/
def isUnknownText (ρ : Type) [Scalar ρ] (token : String) : Bool :=
  match (ofToken token : Requirement ρ) with
  | .leaf c => c.unknown?.isSome
  | _ => false

theorem ofToken_bare (token : String)
    : (ofToken (bare token) : Requirement ρ) = .always true
      ∨ (ofToken (bare token) : Requirement ρ) = .leaf (ofPlainToken (bare token)) := by
  have hbare := isBare_bareChars token.toList
  unfold ofToken bare
  rw [String.toList_ofList, hbare.blanks]
  by_cases hnil : bareChars token.toList = []
  . left
    rw [hnil, ofChars]
    rfl
  . exact .inr (ofChars_plain hnil hbare.negations)

/-- Blanks and negations are not where the leaves are. -/
theorem Dressed.leaves_eq {core cs : List Char} (h : Dressed core cs)
    : (ofChars (Text.stripBoth Text.isBlank cs) : Requirement ρ).leaves
      = (ofChars (Text.stripBoth Text.isBlank core) : Requirement ρ).leaves := by
  induction h with
  | core => rfl
  | before hb _ ih => rw [← ih, Text.stripBoth_cons hb]
  | behind hb _ ih => rw [← ih, Text.stripBoth_concat hb]
  | @negation cs _ ih =>
    obtain ⟨rest, hstrip, hrest⟩ := stripBoth_negation cs
    rw [hstrip, ofChars_negation, hrest]
    exact ih

theorem unknown_leaves_ofToken (token : String)
    : (ofToken token : Requirement ρ).leaves.filterMap Condition.unknown?
      = [bare token].filter (isUnknownText ρ) := by
  have hleaves : (ofToken token : Requirement ρ).leaves = (ofToken (bare token)).leaves := by
    unfold ofToken bare
    rw [String.toList_ofList]
    exact (dressed_bareChars token.toList).leaves_eq
  rw [hleaves]
  rcases ofToken_bare (ρ := ρ) token with hempty | hplain
  . simp [isUnknownText, hempty, Expr.leaves]
  . have hquotes := quotes_ofPlainToken (ρ := ρ) (bare token)
    simp only [isUnknownText, hplain, Expr.leaves, List.filterMap_cons, List.filterMap_nil,
      List.filter_cons, List.filter_nil]
    -- only what kind of condition it is counts from here on, and that it quotes the bare text
    generalize (ofPlainToken (bare token) : Condition ρ) = c at hquotes
    cases c with
    | unknown t =>
      change t = _ at hquotes
      rw [hquotes]
      rfl
    | _ => rfl

/-! ### Leaves of a definition -/

omit [Scalar ρ] in
theorem leaves_join (rs : List (Requirement ρ)) : (join rs).leaves = rs.flatMap Expr.leaves := by
  unfold join
  split
  . rfl
  . simp
  . rw [← Expr.leavesList_eq_flatMap]
    rfl

theorem leaves_list (xs : List (Value ρ))
    : (ofValue (.list xs)).leaves = xs.flatMap fun x => (ofValue x).leaves := by
  rw [ofValue_list]
  change Expr.leavesList (xs.map ofValue) = _
  rw [Expr.leavesList_eq_flatMap, List.flatMap_map]

/-- Whatever a part of a mapping makes of its value, its leaves are those of the value. -/
theorem leaves_requirement (part : Part) (v : Value ρ)
    : (part.requirement v).leaves = (ofValue v).leaves := by
  have hitems : Expr.leavesList ((asList v).map ofValue) = (ofValue v).leaves := by
    rw [Expr.leavesList_eq_flatMap, List.flatMap_map]
    cases v with
    | list xs => exact (leaves_list xs).symm
    | _ => exact List.flatMap_singleton ..
  cases part with
  | requirements => rfl
  | all => exact hitems
  | any => exact hitems
  | not => rfl

theorem leaves_object (ms : Record ρ)
    : (ofValue (.object ms)).leaves = (parts ms).flatMap fun part => (ofValue part.2).leaves := by
  rw [ofValue_object, leaves_join, List.flatMap_map]
  simp only [leaves_requirement]

/-- The bare texts of a definition that are not understood. -/
def unknownTexts (definition : Value ρ) : List String :=
  ((texts definition).map bare).filter (isUnknownText ρ)

theorem unknown_leaves_ofValue (definition : Value ρ)
    : (ofValue definition).leaves.filterMap Condition.unknown? = unknownTexts definition := by
  unfold unknownTexts
  induction definition using Value.inductParts with
  | text token =>
    unfold ofValue texts
    exact unknown_leaves_ofToken token
  | list xs ih =>
    rw [leaves_list, texts_list, List.filterMap_flatMap, List.map_flatMap, List.filter_flatMap]
    exact List.flatMap_congr ih
  | object ms ih =>
    rw [leaves_object, texts_object, List.filterMap_flatMap, List.map_flatMap, List.filter_flatMap]
    exact List.flatMap_congr fun part hpart => ih _ (Table.mem_of_get? (mem_parts.mp hpart))
  | _ => rfl

theorem unknownTexts_eq_nil_iff (definition : Value ρ)
    : unknownTexts definition = []
      ↔ ∀ token, ¬(Expr.leaf (.unknown token)).Occurs (ofValue definition) := by
  have hlogical := logical_ofValue definition
  rw [← unknown_leaves_ofValue, List.filterMap_eq_nil_iff]
  constructor
  . intro h token htoken
    cases h _ (hlogical.mem_leaves_iff.mpr htoken)
  . intro h c hc
    cases c with
    | unknown token => exact absurd (hlogical.mem_leaves_iff.mp hc) (h token)
    | _ => rfl

/-! ### Room for the search -/

theorem behind?_stripBoth {cs : List Char}
    (h : Text.behind? negation (cs.dropWhile Text.isBlank) = none)
    : Text.behind? negation (Text.stripBoth Text.isBlank cs) = none := by
  cases hstrip : Text.behind? negation (Text.stripBoth Text.isBlank cs) with
  | none => rfl
  | some rest =>
    obtain ⟨front, back, hfront, _, hcs⟩ := Text.exists_blanks Text.isBlank cs
    rw [Text.behind?_eq_some.mp hstrip, List.append_assoc] at hcs
    rw [hcs, List.dropWhile_append_of_pos hfront, dropWhile_negation, Text.behind?_append] at h
    cases h

theorem height_ofChars_le {room : Nat} {cs : List Char} (h : charsFit room cs = true)
    : (ofChars (Text.stripBoth Text.isBlank cs) : Requirement ρ).height + tokenRoom ≤ room := by
  induction room generalizing cs with
  | zero => cases h
  | succ room ih =>
    unfold charsFit at h
    split at h
    next rest hrest =>
      obtain ⟨rest', hstrip, hrest'⟩ := stripBoth_negation rest
      have hcs : Text.stripBoth Text.isBlank cs = negation ++ rest' := by
        rw [← hstrip, ← Text.behind?_eq_some.mp hrest]
        unfold Text.stripBoth
        rw [List.dropWhile_idempotent]
      rw [hcs, ofChars_negation, hrest']
      have := ih h
      unfold Expr.height
      omega
    next hnone =>
      have hheight : (ofChars (Text.stripBoth Text.isBlank cs) : Requirement ρ).height = 0 := by
        by_cases hnil : Text.stripBoth Text.isBlank cs = []
        . rw [hnil, ofChars]
          rfl
        . rw [ofChars_plain hnil (behind?_stripBoth hnone)]
          rfl
      rw [hheight, Nat.zero_add]
      exact Nat.le_of_ble_eq_true h

omit [Scalar ρ] in
theorem height_join_le {rs : List (Requirement ρ)} {m n : Nat}
    (h : ∀ r ∈ rs, r.height + (n + 1) ≤ m) (hn : n ≤ m) : (join rs).height + n ≤ m := by
  unfold join
  split
  . change 0 + n ≤ m
    omega
  . have := h _ List.mem_cons_self
    omega
  . have hitems : Expr.heightList rs ≤ m - n := by
      rw [Expr.heightList_le_iff]
      intro r hr
      have := h r hr
      omega
    change Expr.heightList rs + n ≤ m
    omega

/-- By how much twice the room for reading exceeds the height of a requirement, at least. The part `any`
takes no room beside that of its list, so a list has to leave more. -/
def spare : Value ρ → Nat
  | .list _ => 3
  | _ => 2

omit [Scalar ρ] in
theorem two_le_spare (v : Value ρ) : 2 ≤ spare v := by
  cases v <;> simp [spare]

omit [Scalar ρ] in
theorem three_le_taken_add_spare (part : Part) (v : Value ρ) : 3 ≤ part.taken v + spare v := by
  cases part <;> cases v <;> simp [Part.taken, Part.room, listRoom, spare]

theorem height_items (v : Value ρ)
    : Expr.heightList ((asList v).map ofValue) + spare v = (ofValue v).height + 3 := by
  cases v with
  | list xs =>
    rw [ofValue_list]
    rfl
  | _ =>
    change max _ 0 + 2 = _
    rw [Nat.max_zero]

theorem height_requirement_le {part : Part} {v : Value ρ} {room : Nat}
    (htaken : part.taken v < room)
    (h : (ofValue v).height + spare v ≤ 2 * (room - part.taken v))
    : (part.requirement v).height + 3 ≤ 2 * room := by
  have htwo := two_le_spare v
  have hthree := three_le_taken_add_spare part v
  have hitems := height_items v
  cases part with
  | requirements =>
    change (ofValue v).height + 3 ≤ _
    omega
  | all =>
    change Expr.heightList ((asList v).map ofValue) + 3 ≤ _
    omega
  | any =>
    change Expr.heightList ((asList v).map ofValue) + 3 ≤ _
    omega
  | not =>
    have hone : Part.not.taken v = 1 := by cases v <;> rfl
    change (ofValue v).height + 1 + 3 ≤ _
    omega

/-- A requirement is less than twice as high as there has to be room to read it: a mapping takes room
for one negation, and where it has other parts, this makes a conjunction above the negation. -/
theorem height_ofValue_le {room : Nat} (hroom : 0 < room) {definition : Value ρ}
    (h : fits room definition = true)
    : (ofValue definition).height + spare definition ≤ 2 * room := by
  induction definition using Value.inductParts generalizing room with
  | text token =>
    unfold fits at h
    have hheight : _ + 4 ≤ room := height_ofChars_le (ρ := ρ) h
    unfold ofValue ofToken
    change _ + 2 ≤ _
    omega
  | list xs ih =>
    obtain ⟨hlist, hitems⟩ := fits_list.mp h
    change 2 < room at hlist
    change ∀ x ∈ xs, fits (room - 2) x = true at hitems
    have hheight : Expr.heightList (xs.map ofValue) ≤ 2 * room - 5 := by
      rw [Expr.heightList_le_iff, List.forall_mem_map]
      intro x hx
      have := ih x hx (by omega) (hitems x hx)
      have := two_le_spare x
      omega
    rw [ofValue_list]
    change Expr.heightList (xs.map ofValue) + 3 ≤ _
    omega
  | object ms ih =>
    rw [ofValue_object]
    change (join _).height + 2 ≤ _
    refine height_join_le (List.forall_mem_map.mpr fun part hpart => ?_) (by omega)
    have hmem := Table.mem_of_get? (mem_parts.mp hpart)
    unfold fits at h
    obtain ⟨htaken, hfits⟩ := partsFit_iff.mp h _ hmem part.1 part.1.ofName?_name
    exact height_requirement_le htaken (ih _ hmem (Nat.sub_pos_of_lt htaken) hfits)
  | _ =>
    change 0 + 2 ≤ _
    omega

/-- The search for what is not understood in a definition finds all of it, in order, and nothing else,
wherever the definition can be read and its requirement searched; half of the room for reading is
enough for both. It finds nothing just when nothing in the requirement is unknown. What it finds is
bare: the core of a text, without any of the blanks and the negations that it is dressed in. -/
theorem read_unknownTokens (definition : Value ρ)
    : read definition >>= unknownTokens
        = (if fits roomLimit definition = true
              ∧ (ofValue definition).height + searchRoom ≤ roomLimit
            then .ok (unknownTexts definition)
            else .error (.tooDeep ""))
      ∧ (fits (roomLimit / 2) definition = true →
        read definition >>= unknownTokens = .ok (unknownTexts definition))
      ∧ (unknownTexts definition = []
        ↔ ∀ token, ¬(Expr.leaf (.unknown token)).Occurs (ofValue definition))
      ∧ ∀ token core, bare token = core
        ↔ IsBare core.toList ∧ Dressed core.toList token.toList := by
  have hsearch : read definition >>= unknownTokens
      = (if fits roomLimit definition = true
            ∧ (ofValue definition).height + searchRoom ≤ roomLimit
          then .ok (unknownTexts definition)
          else .error (.tooDeep "")) := by
    by_cases hfits : fits roomLimit definition = true
    . rw [read_of_fits hfits, ← unknown_leaves_ofValue]
      simp only [hfits, true_and]
      rfl
    . unfold read
      rw [if_neg hfits, if_neg fun h => hfits h.1]
      rfl
  refine ⟨hsearch, fun hhalf => ?_, unknownTexts_eq_nil_iff definition, fun _ _ => bare_eq_iff⟩
  rw [hsearch, if_pos]
  have hheight := height_ofValue_le (by decide) hhalf
  have hspare := two_le_spare definition
  refine ⟨fits_mono (by decide) hhalf, ?_⟩
  unfold searchRoom
  change _ ≤ 2 * (roomLimit / 2)
  omega

/-- Tokens under blanks and negations, in the parts of a mapping, of which one is understood. -/
def puzzle : Value Rat :=
  .object [("not", .object [("requirements", .list [.null, .text "event:met", .text "has:player"])]),
    ("any", .text "time:soon"), ("all", .list [.text "foo", .text " not: not:bar "])]

theorem read_unknownTokens_puzzle
    : fits (roomLimit / 2) puzzle = true
      ∧ read puzzle >>= unknownTokens = .ok ["foo", "bar", "time:soon", "has:player"]
      ∧ ∃ token, (Expr.leaf (.unknown token)).Occurs (ofValue puzzle) := by
  have hhalf : fits (roomLimit / 2) puzzle = true := by decide +kernel
  have htexts : unknownTexts puzzle = ["foo", "bar", "time:soon", "has:player"] := by
    decide +kernel
  obtain ⟨_, hfound, hnone, _⟩ := read_unknownTokens puzzle
  refine ⟨hhalf, htexts ▸ hfound hhalf, ?_⟩
  by_contra h
  rw [hnone.mpr (not_exists.mp h)] at htexts
  cases htexts

/-- What can be read may be too high to be searched. -/
example
    : let nested (n : Nat) : Value Rat :=
        (fun v => .object [("any", .list []), ("not", v)])^[n] (.text "foo")
      (read (nested 600)).isOk = true ∧ (read (nested 600) >>= unknownTokens).isOk = false := by
  decide +kernel

end Requirement

end Storyworld
