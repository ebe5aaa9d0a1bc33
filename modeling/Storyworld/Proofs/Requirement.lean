import Storyworld.Proofs.Evaluation
import Storyworld.Requirement.Scope

/-!
This module contains what requirements mean: where a definition can be decided, it lets through just
when its structure says so, by what its parts let through.
-/

namespace Storyworld.Requirement

variable {ρ : Type}

/-! ### Parts -/

/-- What is no list counts as a list of one. -/
def asList : Value ρ → List (Value ρ)
  | .list xs => xs
  | v => [v]

/-- The parts that a mapping has, each with its value. -/
def parts (ms : Record ρ) : List (Part × Value ρ) :=
  [Part.requirements, .all, .any, .not].filterMap fun part =>
    (Table.get? ms part.name).map fun v => (part, v)

theorem mem_parts {ms : Record ρ} {part : Part} {v : Value ρ}
    : (part, v) ∈ parts ms ↔ Table.get? ms part.name = some v := by
  have hpart : part ∈ [Part.requirements, .all, .any, .not] := by cases part <;> decide
  unfold parts
  rw [List.mem_filterMap]
  constructor
  . rintro ⟨part', _, h⟩
    obtain ⟨v', hv', heq⟩ := Option.map_eq_some_iff.mp h
    cases heq
    exact hv'
  . intro h
    exact ⟨part, hpart, by rw [h]; rfl⟩

/-! ### Room -/

theorem charsFit_plain {room : Nat} (hroom : tokenRoom ≤ room) {cs : List Char}
    (h : Text.behind? negation (cs.dropWhile Text.isBlank) = none) : charsFit room cs = true := by
  cases room with
  | zero => exact absurd hroom (by decide)
  | succ room =>
    unfold charsFit
    rw [h]
    exact Nat.ble_eq_true_of_le hroom

theorem charsFit_blanks_append (room : Nat) {bs : List Char}
    (hbs : ∀ b ∈ bs, Text.isBlank b = true) (cs : List Char)
    : charsFit room (bs ++ cs) = charsFit room cs := by
  cases room with
  | zero => rfl
  | succ room =>
    unfold charsFit
    rw [List.dropWhile_append_of_pos hbs]

theorem dropWhile_negation (cs : List Char)
    : (negation ++ cs).dropWhile Text.isBlank = negation ++ cs := by
  unfold negation
  rw [List.cons_append, List.dropWhile_cons_of_neg (by decide)]

theorem charsFit_negation (room : Nat) (cs : List Char)
    : charsFit (room + 1) (negation ++ cs) = charsFit room cs := by
  conv_lhs => unfold charsFit
  rw [dropWhile_negation, Text.behind?_append]

theorem charsFit_mono {room room' : Nat} (hroom : room ≤ room') {cs : List Char}
    (h : charsFit room cs = true) : charsFit room' cs = true := by
  induction room generalizing room' cs with
  | zero => cases h
  | succ room ih =>
    obtain ⟨room', rfl⟩ := Nat.exists_eq_succ_of_ne_zero (Nat.pos_iff_ne_zero.mp (by omega : 0 < room'))
    unfold charsFit at h ⊢
    split
    next rest hrest =>
      rw [hrest] at h
      exact ih (by omega) h
    next hnone =>
      rw [hnone] at h
      exact Nat.ble_eq_true_of_le ((Nat.le_of_ble_eq_true h).trans hroom)

theorem allFit_iff {room : Nat} {xs : List (Value ρ)}
    : allFit room xs = true ↔ ∀ x ∈ xs, fits room x = true := by
  induction xs with
  | nil => simp [allFit]
  | cons x xs ih => simp [allFit, ih]

theorem fits_list {room : Nat} {xs : List (Value ρ)}
    : fits room (.list xs) = true
      ↔ listRoom < room ∧ ∀ x ∈ xs, fits (room - listRoom) x = true := by
  conv_lhs => unfold fits
  rw [Bool.and_eq_true, Nat.blt_eq, allFit_iff]

/-- The room that a part of a mapping takes beside its value. -/
def Part.taken (part : Part) : Value ρ → Nat
  | .list _ => part.room true - listRoom
  | _ => part.room false

theorem partsFit_iff {room : Nat} {ms : Record ρ}
    : partsFit room ms = true
      ↔ ∀ m ∈ ms, ∀ part ∈ Part.ofName? m.1,
        part.taken m.2 < room ∧ fits (room - part.taken m.2) m.2 = true := by
  induction ms with
  | nil => simp [partsFit]
  | cons m ms ih =>
    obtain ⟨name, v⟩ := m
    rw [List.forall_mem_cons, ← ih]
    conv_lhs => unfold partsFit
    cases hname : Part.ofName? name with
    | none => cases v <;> simp [hname]
    | some part =>
      cases v with
      | list xs =>
        have hlist : (Nat.blt (part.room true) room && allFit (room - part.room true) xs) = true
            ↔ part.room true - listRoom < room
              ∧ fits (room - (part.room true - listRoom)) (.list xs) = true := by
          have hroom : listRoom ≤ part.room true := by cases part <;> decide
          have hitems : room - (part.room true - listRoom) - listRoom = room - part.room true := by
            omega
          rw [Bool.and_eq_true, Nat.blt_eq, allFit_iff, fits_list, hitems, ← and_assoc]
          exact and_congr_left' (by omega)
        simp [hname, Part.taken, hlist]
      | _ => simp [hname, Part.taken]

theorem Part.ofName?_name (part : Part) : ofName? part.name = some part := by
  cases part <;> decide

theorem fits_mono {room room' : Nat} (hroom : room ≤ room') {v : Value ρ} (h : fits room v = true)
    : fits room' v = true := by
  induction v using Value.inductParts generalizing room room' with
  | text s =>
    unfold fits at h ⊢
    exact charsFit_mono hroom h
  | list xs ih =>
    rw [fits_list] at h ⊢
    exact ⟨h.1.trans_le hroom, fun x hx => ih x hx (by omega) (h.2 x hx)⟩
  | object ms ih =>
    unfold fits at h ⊢
    rw [partsFit_iff] at h ⊢
    intro m hm part hpart
    obtain ⟨htaken, hfits⟩ := h m hm part hpart
    exact ⟨htaken.trans_le hroom, ih m hm (by omega) hfits⟩
  | _ => rfl

/-- A part of a mapping that can be read can be read on its own. -/
theorem fits_part {room : Nat} {ms : Record ρ} (h : fits room (.object ms) = true) {part : Part}
    {v : Value ρ} (hpart : Table.get? ms part.name = some v) : fits room v = true := by
  unfold fits at h
  rw [partsFit_iff] at h
  have := h _ (Table.mem_of_get? hpart) part part.ofName?_name
  exact fits_mono (by omega) this.2

theorem fits_of_mem_asList {room : Nat} {v : Value ρ} (h : fits room v = true) {x : Value ρ}
    (hx : x ∈ asList v) : fits room x = true := by
  cases v with
  | list xs => exact fits_mono (Nat.sub_le _ _) ((fits_list.mp h).2 x hx)
  | _ =>
    obtain rfl := List.mem_singleton.mp hx
    exact h

theorem fits_negation {blanks : String} (hblanks : ∀ b ∈ blanks.toList, Text.isBlank b = true)
    {token : String} {room : Nat}
    (h : fits room (.text (blanks ++ ("not:" ++ token)) : Value ρ) = true)
    : fits room (.text token : Value ρ) = true := by
  unfold fits at h ⊢
  have hchars : ("not:" ++ token).toList = negation ++ token.toList := by
    rw [String.toList_append]
    rfl
  rw [String.toList_append, charsFit_blanks_append room hblanks, hchars] at h
  cases room with
  | zero => cases h
  | succ room =>
    rw [charsFit_negation] at h
    exact charsFit_mono (Nat.le_succ room) h

variable [Scalar ρ]

/-! ### Tokens -/

theorem stripBoth_negation (cs : List Char)
    : ∃ rest, Text.stripBoth Text.isBlank (negation ++ cs) = negation ++ rest
      ∧ Text.stripBoth Text.isBlank rest = Text.stripBoth Text.isBlank cs := by
  refine ⟨(cs.reverse.dropWhile Text.isBlank).reverse, ?_, ?_⟩
  . have hback : negation.reverse.dropWhile Text.isBlank = negation.reverse := by decide
    unfold Text.stripBoth
    rw [dropWhile_negation, List.reverse_append, List.dropWhile_append]
    split
    next hnil =>
      rw [List.isEmpty_iff.mp hnil, hback, List.reverse_reverse]
      simp
    next => rw [List.reverse_append, List.reverse_reverse]
  . have hcs : cs = (cs.reverse.dropWhile Text.isBlank).reverse
        ++ (cs.reverse.takeWhile Text.isBlank).reverse := by
      rw [← List.reverse_append, List.takeWhile_append_dropWhile, List.reverse_reverse]
    conv_rhs => rw [hcs]
    rw [Text.stripBoth_append_blanks]
    exact fun b hb => List.mem_takeWhile_imp (List.mem_reverse.mp hb)

theorem ofChars_plain {cs : List Char} (hne : cs ≠ []) (h : Text.behind? negation cs = none)
    : (ofChars cs : Requirement ρ) = .leaf (ofPlainToken (String.ofList cs)) := by
  rw [ofChars, if_neg (by simpa using hne)]
  split
  next rest hrest =>
    rw [h] at hrest
    cases hrest
  next => rfl

theorem ofChars_negation (cs : List Char)
    : (ofChars (negation ++ cs) : Requirement ρ)
      = .negate (ofChars (Text.stripBoth Text.isBlank cs)) := by
  rw [ofChars, if_neg (by simp [negation])]
  split
  next rest hrest =>
    rw [Text.behind?_append] at hrest
    rw [Option.some.inj hrest]
  next hnone =>
    rw [Text.behind?_append] at hnone
    cases hnone

/-- A negation negates the rest of its token, whatever blanks stand around. -/
theorem ofValue_negation {blanks : String} (hblanks : ∀ b ∈ blanks.toList, Text.isBlank b = true)
    (token : String)
    : (ofValue (.text (blanks ++ ("not:" ++ token))) : Requirement ρ)
      = .negate (ofValue (.text token)) := by
  have hchars : (blanks ++ ("not:" ++ token)).toList
      = blanks.toList ++ (negation ++ token.toList) := by
    rw [String.toList_append, String.toList_append]
    rfl
  obtain ⟨rest, hstrip, hrest⟩ := stripBoth_negation token.toList
  unfold ofValue ofToken
  rw [hchars, Text.stripBoth_blanks_append hblanks, hstrip, ofChars_negation, hrest]

/-! ### Structure -/

theorem ofValues_eq_map (xs : List (Value ρ)) : ofValues xs = xs.map ofValue := by
  induction xs with
  | nil => rfl
  | cons x xs ih =>
    unfold ofValues
    rw [ih]
    rfl

theorem ofValue_list (xs : List (Value ρ))
    : (ofValue (.list xs) : Requirement ρ) = .all (xs.map ofValue) := by
  conv_lhs => unfold ofValue
  rw [ofValues_eq_map]

/-- The requirement that a part of a mapping stands for. -/
def Part.requirement (part : Part) (v : Value ρ) : Requirement ρ :=
  match part with
  | .requirements => ofValue v
  | .all => .all ((asList v).map ofValue)
  | .any => .any ((asList v).map ofValue)
  | .not => .negate (ofValue v)

theorem ofPart_eq (part : Part) (ms : Record ρ)
    : ofPart part ms = ((Table.get? ms part.name).map part.requirement).toList := by
  induction ms with
  | nil => rfl
  | cons m ms ih =>
    obtain ⟨name, v⟩ := m
    rw [Table.get?_cons]
    by_cases hname : name = part.name
    . subst hname
      cases v <;> cases part <;> unfold ofPart <;>
        simp [Part.requirement, asList, ofValues_eq_map, ofValue_list]
    . rw [if_neg hname, ← ih]
      conv_lhs => unfold ofPart
      cases v <;> simp [hname]

theorem ofValue_object (ms : Record ρ)
    : (ofValue (.object ms) : Requirement ρ)
      = join ((parts ms).map fun part => part.1.requirement part.2) := by
  conv_lhs => unfold ofValue
  unfold parts
  congr 1
  simp only [ofPart_eq, List.filterMap_cons, List.filterMap_nil]
  cases Table.get? ms Part.requirements.name <;> cases Table.get? ms Part.all.name <;>
    cases Table.get? ms Part.any.name <;> cases Table.get? ms Part.not.name <;> rfl

theorem logical_ofChars (cs : List Char) : (ofChars cs : Requirement ρ).Logical := by
  induction cs using ofChars.induct with
  | case1 cs h =>
    rw [ofChars, if_pos h]
    exact .always true
  | case2 cs h rest hrest ih =>
    rw [ofChars, if_neg h]
    split
    next rest' hrest' =>
      rw [hrest] at hrest'
      rw [← Option.some.inj hrest']
      exact .negate ih
    next => exact .leaf _
  | case3 cs h hnone =>
    rw [ofChars_plain (by simpa using h) hnone]
    exact .leaf _

theorem logical_requirement (part : Part) {v : Value ρ} (h : (ofValue v).Logical)
    : (part.requirement v).Logical := by
  have hitems : ∀ r ∈ (asList v).map ofValue, r.Logical := by
    cases v with
    | list xs =>
      rw [ofValue_list] at h
      cases h with
      | all h => exact h
    | _ => simpa [asList] using h
  cases part with
  | requirements => exact h
  | all => exact .all hitems
  | any => exact .any hitems
  | not => exact .negate h

omit [Scalar ρ] in
theorem logical_join {rs : List (Requirement ρ)} (h : ∀ r ∈ rs, r.Logical)
    : (join rs).Logical := by
  unfold join
  split
  . exact .always true
  . exact h _ List.mem_cons_self
  . exact .all h

theorem logical_ofValue (v : Value ρ) : (ofValue v).Logical := by
  induction v using Value.inductParts with
  | text s =>
    unfold ofValue
    exact logical_ofChars _
  | list xs ih =>
    rw [ofValue_list]
    refine .all fun r hr => ?_
    obtain ⟨x, hx, rfl⟩ := List.mem_map.mp hr
    exact ih x hx
  | object ms ih =>
    rw [ofValue_object]
    refine logical_join fun r hr => ?_
    obtain ⟨⟨part, v⟩, hpart, rfl⟩ := List.mem_map.mp hr
    exact logical_requirement part (ih _ (Table.mem_of_get? (mem_parts.mp hpart)))
  | _ =>
    unfold ofValue
    exact .always true

/-! ### Decisions -/

/-- What a condition answers. -/
def ask (scope : Scope ρ) (env : Env ρ) (c : Condition ρ) : Except Fault (Value ρ) :=
  Value.flag <$> c.holds scope env

/-- A definition that can be read, and decided in this state of play. -/
def Decides (scope : Scope ρ) (env : Env ρ) (definition : Value ρ) : Prop :=
  (read definition >>= holds scope env).isOk = true

def Passes (scope : Scope ρ) (env : Env ρ) (definition : Value ρ) : Prop :=
  passes scope env definition = .ok true

variable {scope : Scope ρ} {env : Env ρ} {definition : Value ρ} {r : Requirement ρ} {b : Bool}

theorem holds_eq_ok : holds scope env r = .ok b ↔ r.Comes (ask scope env) roomLimit b := by
  unfold holds Expr.Comes CountsAs
  rw [Fault.bind_eq_ok]
  refine exists_congr fun v => and_congr_right fun _ => ?_
  exact Fault.pure_eq_ok.trans eq_comm

theorem passes_of_comes (hread : read definition = .ok r)
    (h : r.Comes (ask scope env) roomLimit b) : passes scope env definition = .ok b := by
  have hholds : read definition >>= holds scope env = .ok b := by
    rw [hread]
    exact holds_eq_ok.mpr h
  unfold passes
  rw [hholds]
  rfl

theorem read_of_fits (h : fits roomLimit definition = true)
    : read definition = .ok (ofValue definition) := by
  unfold read
  rw [if_pos h]

omit [Scalar ρ] in
theorem isOk_unknownTokens
    : r.unknownTokens.isOk = true ↔ r.height + searchRoom ≤ roomLimit := by
  unfold unknownTokens
  split
  next hsearch => exact iff_of_true rfl hsearch
  next hsearch => exact iff_of_false Bool.false_ne_true hsearch

theorem decides_iff
    : Decides scope env definition
      ↔ fits roomLimit definition = true
        ∧ ∃ b, (ofValue definition).Comes (ask scope env) roomLimit b := by
  unfold Decides
  by_cases hfits : fits roomLimit definition = true
  . rw [and_iff_right hfits, read_of_fits hfits]
    change (holds scope env (ofValue definition)).isOk = true ↔ _
    simp only [← holds_eq_ok]
    cases holds scope env (ofValue definition) <;> simp
  . refine iff_of_false ?_ fun h => hfits h.1
    unfold read
    rw [if_neg hfits]
    exact Bool.false_ne_true

/-- What cannot be decided lets through, as long as it has a text. -/
theorem passes_of_not_decides (h : ¬Decides scope env definition)
    : passes scope env definition = (do definition.checkDepth; return true) := by
  unfold Decides at h
  unfold passes
  cases hdecision : read definition >>= holds scope env with
  | error e => rfl
  | ok b =>
    rw [hdecision] at h
    exact absurd rfl h

/-- There is room to read a definition and to decide every part of it. -/
structure Roomy (definition : Value ρ) : Prop where
  fits : fits roomLimit definition = true
  leaves : ∀ leaf ∈ ((ofValue definition).within roomLimit).leaves, leaf.isSome = true

theorem Roomy.decides (h : Roomy definition)
    (hleaves : ∀ c ∈ (ofValue definition).leaves, (c.holds scope env).isOk = true)
    : Decides scope env definition := by
  have hroom : none ∉ ((ofValue definition).within roomLimit).leaves :=
    fun hnone => Bool.false_ne_true (h.leaves none hnone)
  refine decides_iff.mpr ⟨h.fits, (logical_ofValue definition).comes hroom fun c hc => ?_⟩
  obtain hok := Fault.eq_ok_getD (hleaves c hc) true
  refine ⟨(c.holds scope env).toOption.getD true, .flag _, ?_, isGiven_flag _⟩
  unfold ask
  rw [hok]
  rfl

/-- A definition that comes out as a part of another one comes out so on its own. -/
theorem passes_iff {room : Nat} (hroom : room ≤ roomLimit) (hfits : fits room definition = true)
    {room' : Nat} (hroom' : room' ≤ roomLimit)
    (h : (ofValue definition).Comes (ask scope env) room' b)
    : Passes scope env definition ↔ b = true := by
  unfold Passes
  rw [passes_of_comes (read_of_fits (fits_mono hroom hfits))
    (h.widen (logical_ofValue definition) hroom'), Except.ok.injEq]

theorem passes_list {xs : List (Value ρ)} (h : Decides scope env (.list xs))
    : Passes scope env (.list xs) ↔ ∀ x ∈ xs, Passes scope env x := by
  obtain ⟨hfits, b, hb⟩ := decides_iff.mp h
  rw [passes_iff le_rfl hfits le_rfl hb]
  rw [ofValue_list, Expr.comes_all, Until.map_iff] at hb
  rw [fits_list] at hfits
  exact hb.2.all_iff fun x hx c hc => passes_iff (Nat.sub_le _ _) (hfits.2 x hx) (Nat.sub_le _ _) hc

/-- What a part of a mapping asks for, by what its items ask for. -/
def Part.Demands (part : Part) (P : Value ρ → Prop) (v : Value ρ) : Prop :=
  match part with
  | .requirements => P v
  | .all => ∀ x ∈ asList v, P x
  | .any => asList v = [] ∨ ∃ x ∈ asList v, P x
  | .not => ¬P v

theorem demands_iff (part : Part) {v : Value ρ} (hfits : fits roomLimit v = true)
    (h : (part.requirement v).Comes (ask scope env) roomLimit b)
    : part.Demands (Passes scope env) v ↔ b = true := by
  have hitems {room : Nat} (hroom : room ≤ roomLimit) (x : Value ρ) (hx : x ∈ asList v) (c : Bool)
      (hc : (ofValue x).Comes (ask scope env) room c) : Passes scope env x ↔ c = true :=
    passes_iff le_rfl (fits_of_mem_asList hfits hx) hroom hc
  cases part with
  | requirements => exact passes_iff le_rfl hfits le_rfl h
  | all =>
    unfold Part.requirement at h
    rw [Expr.comes_all, Until.map_iff] at h
    exact (h.2.all_iff (hitems (Nat.sub_le _ _))).symm
  | any =>
    unfold Part.requirement at h
    simp only [Expr.comes_any, List.map_eq_nil_iff] at h
    unfold Part.Demands
    by_cases hnil : asList v = []
    . rw [if_pos hnil] at h
      exact iff_of_true (.inl hnil) h.2
    . rw [if_neg hnil, Until.map_iff] at h
      rw [or_iff_right hnil]
      exact (h.2.any_iff (hitems (Nat.sub_le _ _))).symm
  | not =>
    unfold Part.requirement at h
    rw [Expr.comes_negate] at h
    unfold Part.Demands
    rw [passes_iff le_rfl hfits (Nat.sub_le _ _) h.2]
    simp

theorem comes_join {rs : List (Requirement ρ)} {room : Nat} (hlogical : ∀ r ∈ rs, r.Logical)
    (h : (join rs).Comes (ask scope env) room b)
    : Until (Expr.Comes (ask scope env) room) false rs b := by
  unfold join at h
  split at h
  . rw [← (Expr.comes_always.mp h).2]
    exact .none
  . cases b with
    | true => exact .next h .none
    | false => exact .found h
  . refine (Expr.comes_all.mp h).2.mono fun r hr c hc => hc.widen (hlogical r hr) (Nat.sub_le _ _)

theorem passes_object {ms : Record ρ} (h : Decides scope env (.object ms))
    : Passes scope env (.object ms) ↔ ∀ part v, Table.get? ms (Part.name part) = some v →
      part.Demands (Passes scope env) v := by
  obtain ⟨hfits, b, hb⟩ := decides_iff.mp h
  rw [passes_iff le_rfl hfits le_rfl hb]
  rw [ofValue_object] at hb
  have hlogical : ∀ r ∈ (parts ms).map fun part => part.1.requirement part.2, r.Logical := by
    intro r hr
    obtain ⟨part, _, rfl⟩ := List.mem_map.mp hr
    exact logical_requirement part.1 (logical_ofValue part.2)
  have hparts := Until.map_iff.mp (comes_join hlogical hb)
  rw [hparts.all_iff (T := fun part => part.1.Demands (Passes scope env) part.2)]
  . simp only [Prod.forall, mem_parts]
  . intro part hpart c hc
    exact demands_iff part.1 (fits_part hfits (mem_parts.mp hpart)) hc

/-- A token with negations in front of it, and blanks in front of each of them. -/
def negated : List String → String → String
  | [], token => token
  | blanks :: rest, token => blanks ++ ("not:" ++ negated rest token)

theorem passes_negation {blanks : String} (hblanks : ∀ b ∈ blanks.toList, Text.isBlank b = true)
    {token : String} (h : Decides scope env (.text (blanks ++ ("not:" ++ token))))
    : Decides scope env (.text token)
      ∧ (Passes scope env (.text (blanks ++ ("not:" ++ token))) ↔ ¬Passes scope env (.text token)) := by
  obtain ⟨hfits, b, hb⟩ := decides_iff.mp h
  have hrest : fits roomLimit (.text token : Value ρ) = true := fits_negation hblanks hfits
  rw [passes_iff le_rfl hfits le_rfl hb]
  rw [ofValue_negation hblanks, Expr.comes_negate] at hb
  refine ⟨decides_iff.mpr ⟨hrest, _, hb.2.widen (logical_ofValue _) (Nat.sub_le _ _)⟩, ?_⟩
  rw [passes_iff le_rfl hrest (Nat.sub_le _ _) hb.2]
  simp

theorem passes_negated {blanks : List String}
    (hblanks : ∀ bs ∈ blanks, ∀ b ∈ bs.toList, Text.isBlank b = true) {token : String}
    (h : Decides scope env (.text (negated blanks token)))
    : Passes scope env (.text (negated blanks token))
      ↔ (Even blanks.length ↔ Passes scope env (.text token)) := by
  induction blanks with
  | nil => simp [negated]
  | cons bs blanks ih =>
    rw [List.forall_mem_cons] at hblanks
    obtain ⟨hrest, hiff⟩ := passes_negation hblanks.1 h
    unfold negated
    rw [hiff, ih hblanks.2 hrest, List.length_cons, Nat.even_add_one]
    exact not_iff

/-- A state of play in which one event has happened. -/
def met : Scope Rat := { log := some (.ok { tokens := ["met"] }) }

end Storyworld.Requirement
