import Storyworld.Proofs.Composition
import Storyworld.Proofs.Validation

/-!
This module contains what the checks of a story tell of the elements of an effect. The effect of an option
is reported if, and only if, none of its elements yields an action. So an element that yields none passes
next to one that yields some: within a list whose members are not all alike.
-/

namespace Storyworld

theorem Fault.mem_flatten_of_mapM {α β : Type} {f : α → Except Fault (List β)} {as : List α}
    {found : List (List β)} {b : β} {P : α → Prop} (h : as.mapM f = .ok found)
    (hf : ∀ a bs, f a = .ok bs → (b ∈ bs ↔ P a)) : b ∈ found.flatten ↔ ∃ a ∈ as, P a := by
  induction as generalizing found with
  | nil =>
    obtain rfl := Except.ok.inj h
    simp
  | cons a as ih =>
    rw [List.mapM_cons] at h
    obtain ⟨first, hfirst, h⟩ := Fault.bind_eq_ok.mp h
    obtain ⟨rest, hrest, h⟩ := Fault.bind_eq_ok.mp h
    obtain rfl := Except.ok.inj h
    rw [List.flatten_cons, List.mem_append, hf a first hfirst, ih hrest]
    simp

variable {ρ : Type}

/-! ### Elements -/

namespace Effect

/-- The definition that a mapping passes on. -/
def payload? (ms : Record ρ) : Option (Value ρ) := (member? "effects" ms).or (member? "effect" ms)

theorem mem_of_payload? {ms : Record ρ} {v : Value ρ} (h : payload? ms = some v)
    : ∃ name, (name, v) ∈ ms := by
  rcases Option.or_eq_some_iff.mp h with h | ⟨_, h⟩
  . exact ⟨_, mem_of_member? h⟩
  . exact ⟨_, mem_of_member? h⟩

/-- What goes by the two names of a payload in turn goes by the payload. -/
theorem getD_payload? {α : Type} (f : Value ρ → α) (ms : Record ρ) (otherwise : α)
    : ((member? "effects" ms).map f).getD (((member? "effect" ms).map f).getD otherwise)
      = ((payload? ms).map f).getD otherwise := by
  unfold payload?
  cases member? "effects" ms with
  | some v => rfl
  | none => rfl

theorem fits_object {room : Nat} {ms : Record ρ}
    : fits room (.object ms) = true
      ↔ ownRoom < room ∧ ((payload? ms).map (fits (room - ownRoom))).getD
        (textsFit ms && textsFit (Record.field ms "go").recordD) = true := by
  conv_lhs => unfold fits
  rw [Bool.and_eq_true, Nat.blt_eq, memberFits_eq, memberFits_eq, getD_payload?]

/-- An element of a definition: the definition itself, what is an element of a member of a list, and
what is an element of the definition that a mapping passes on. -/
inductive Element (e : Value ρ) : Value ρ → Prop where
  | whole : Element e e
  | item {x : Value ρ} {xs : List (Value ρ)} (hx : x ∈ xs) (h : Element e x) : Element e (.list xs)
  | payload {v : Value ρ} {ms : Record ρ} (hv : payload? ms = some v) (h : Element e v) :
    Element e (.object ms)

theorem Element.of_mem_listD {d e : Value ρ} (h : e ∈ d.listD) : Element e d := by
  cases d with
  | list xs => exact .item h .whole
  | _ => cases h

theorem Element.trans {d e f : Value ρ} (h : Element f e) (h' : Element e d) : Element f d := by
  induction h' with
  | whole => exact h
  | item hx _ ih => exact .item hx ih
  | payload hv _ ih => exact .payload hv ih

/-- All elements of what can be read can be read. -/
theorem Element.fits {d e : Value ρ} (h : Element e d) {room : Nat} (hfits : fits room d = true)
    : Effect.fits room e = true := by
  induction h generalizing room with
  | whole => exact hfits
  | item hx _ ih => exact fits_mono (Nat.sub_le _ _) (ih ((fits_list.mp hfits).2 _ hx))
  | payload hv _ ih =>
    have hinner := (fits_object.mp hfits).2
    rw [hv] at hinner
    exact fits_mono (Nat.sub_le _ _) (ih hinner)

variable [Scalar ρ]

theorem ofValue_list (xs : List (Value ρ)) : ofValue (.list xs) = xs.flatMap ofValue := by
  conv_lhs => unfold ofValue
  exact ofValues_eq_flatMap xs

theorem ofValue_object (ms : Record ρ)
    : ofValue (.object ms) = ((payload? ms).map ofValue).getD (ofRecord ms) := by
  rw [← getD_payload?]
  conv_lhs => unfold ofValue
  rw [ofMember_eq, ofMember_eq]
  cases member? "effects" ms with
  | some v => rfl
  | none => rfl

theorem ofValue_of_payload? {ms : Record ρ} {v : Value ρ} (h : payload? ms = some v)
    : ofValue (.object ms) = ofValue v := by
  rw [ofValue_object, h]
  rfl

/-- The actions of an element are a stretch of those of the definition. -/
theorem Element.ofValue_isInfix {d e : Value ρ} (h : Element e d) : ofValue e <:+: ofValue d := by
  induction h with
  | whole => exact List.infix_rfl
  | item hx _ ih =>
    obtain ⟨before, after, rfl⟩ := List.append_of_mem hx
    refine ih.trans ⟨before.flatMap ofValue, after.flatMap ofValue, ?_⟩
    simp [ofValue_list]
  | payload hv _ ih =>
    rw [ofValue_of_payload? hv]
    exact ih

/-! ### Elements that are dropped -/

/-- Reading a definition yields an action. -/
def Yields (v : Value ρ) : Prop := ∃ action actions, read v = .ok (action :: actions)

/-- A definition can be read, and yields no action. -/
def Idle (v : Value ρ) : Prop := read v = .ok []

instance (v : Value ρ) : Decidable (Idle v) :=
  decidable_of_iff ((read v).toOption.any List.isEmpty = true) <| by
    simp [Idle, Fault.any_eq_true]

/-- Within a definition, an element lies in a member of a list that yields no action, while another
member of the list yields some. -/
def Beside (e d : Value ρ) : Prop :=
  ∃ xs, Element (.list xs) d ∧ (∃ x ∈ xs, Element e x ∧ Idle x) ∧ ∃ y ∈ xs, Yields y

theorem not_yields_of_idle {v : Value ρ} (h : Idle v) : ¬ Yields v := by
  rintro ⟨action, actions, hyields⟩
  rw [Idle, hyields] at h
  cases h

theorem idle_iff {v : Value ρ} (h : fits roomLimit v = true) : Idle v ↔ ofValue v = [] := by
  unfold Idle
  rw [read_of_fits h, Except.ok.injEq]

theorem yields_iff {v : Value ρ} (h : fits roomLimit v = true) : Yields v ↔ ofValue v ≠ [] := by
  unfold Yields
  simp only [read_of_fits h, Except.ok.injEq, List.ne_nil_iff_exists_cons]

/-- A definition yields no action if, and only if, none of its elements does. -/
theorem idle_iff_elements {v : Value ρ} (h : fits roomLimit v = true)
    : Idle v ↔ ∀ e, Element e v → Idle e := by
  constructor
  . intro hidle e he
    rw [idle_iff h] at hidle
    rw [idle_iff (he.fits h)]
    exact List.eq_nil_of_infix_nil (hidle ▸ he.ofValue_isInfix)
  . exact fun hall => hall v .whole

/-- Of a definition that yields an action, the elements that yield none are those that lie beside one
that does. -/
theorem Element.idle_iff_beside {d e : Value ρ} (h : Element e d)
    (hfits : Effect.fits roomLimit d = true) (hd : Yields d) : Idle e ↔ Beside e d := by
  rw [idle_iff (h.fits hfits)]
  constructor
  . intro he
    rw [yields_iff hfits] at hd
    induction h with
    | whole => exact absurd he hd
    | @item x xs hx helement ih =>
      have hitem (y : Value ρ) (hy : y ∈ xs) : Effect.fits roomLimit y = true :=
        (Element.item hy .whole).fits hfits
      by_cases hnone : ofValue x = []
      . rw [ofValue_list, ne_eq, List.flatMap_eq_nil_iff] at hd
        push Not at hd
        obtain ⟨y, hy, hyields⟩ := hd
        exact ⟨xs, .whole, ⟨x, hx, helement, (idle_iff (hitem x hx)).mpr hnone⟩,
          y, hy, (yields_iff (hitem y hy)).mpr hyields⟩
      . obtain ⟨ys, hys, hbeside⟩ := ih (hitem x hx) hnone
        exact ⟨ys, .item hx hys, hbeside⟩
    | payload hv _ ih =>
      rw [ofValue_of_payload? hv] at hd
      obtain ⟨ys, hys, hbeside⟩ := ih ((Element.payload hv .whole).fits hfits) hd
      exact ⟨ys, .payload hv hys, hbeside⟩
  . rintro ⟨xs, hxs, ⟨x, hx, helement, hidle⟩, -⟩
    have hx := (Element.item hx .whole).trans hxs
    rw [← idle_iff (h.fits hfits)]
    exact (idle_iff_elements (hx.fits hfits)).mp hidle e helement

/-! ### Innermost elements -/

mutual

/-- The elements of a definition that hold no others, in order. -/
def innermost : Value ρ → List (Value ρ)
  | .list xs => innermostOf xs
  | .object ms =>
    match innermostOfMember "effects" ms with
    | some vs => vs
    | none => (innermostOfMember "effect" ms).getD [.object ms]
  | .null => [.null]
  | .num n => [.num n]
  | .text s => [.text s]
  | .target l s => [.target l s]
  | .pointer l s => [.pointer l s]

def innermostOf : List (Value ρ) → List (Value ρ)
  | [] => []
  | x :: xs => innermost x ++ innermostOf xs

def innermostOfMember (name : String) : List (String × Value ρ) → Option (List (Value ρ))
  | [] => none
  | (k, v) :: ms =>
    if k = name then (if v.isNull then none else some (innermost v)) else innermostOfMember name ms

end

omit [Scalar ρ] in
theorem innermost_list (xs : List (Value ρ)) : innermost (.list xs) = xs.flatMap innermost := by
  have hall : innermostOf xs = xs.flatMap innermost := by
    induction xs with
    | nil => rfl
    | cons x xs ih =>
      unfold innermostOf
      rw [ih]
      rfl
  conv_lhs => unfold innermost
  exact hall

omit [Scalar ρ] in
theorem innermostOfMember_eq (name : String) (ms : Record ρ)
    : innermostOfMember name ms = (member? name ms).map innermost := by
  induction ms with
  | nil => rfl
  | cons m ms ih =>
    obtain ⟨k, v⟩ := m
    unfold innermostOfMember
    rw [member?_cons, ih]
    split
    . split <;> rfl
    . rfl

omit [Scalar ρ] in
theorem innermost_object (ms : Record ρ)
    : innermost (.object ms) = ((payload? ms).map innermost).getD [.object ms] := by
  rw [← getD_payload?]
  conv_lhs => unfold innermost
  rw [innermostOfMember_eq, innermostOfMember_eq]
  cases member? "effects" ms with
  | some v => rfl
  | none => rfl

theorem ofValue_eq_innermost (v : Value ρ) : ofValue v = (innermost v).flatMap ofValue := by
  have hself (v : Value ρ) : ofValue v = [v].flatMap ofValue := by
    rw [List.flatMap_singleton]
  induction v using Value.inductParts with
  | list xs ih =>
    rw [ofValue_list, innermost_list, List.flatMap_assoc]
    exact List.flatMap_congr ih
  | object ms ih =>
    rw [innermost_object]
    cases hpayload : payload? ms with
    | none => exact hself _
    | some v =>
      obtain ⟨_, hv⟩ := mem_of_payload? hpayload
      rw [ofValue_of_payload? hpayload]
      exact ih _ hv
  | _ => exact hself _

omit [Scalar ρ] in
/-- How deep an innermost element lies makes no difference to it. -/
theorem fits_of_mem_innermost {v b : Value ρ} {room room' : Nat} (hfits : fits room v = true)
    (hroom : ownRoom < room') (h : b ∈ innermost v) : fits room' b = true := by
  induction v using Value.inductParts generalizing room with
  | text s =>
    obtain rfl := List.mem_singleton.mp h
    unfold fits
    rw [Nat.blt_eq]
    exact hroom
  | list xs ih =>
    rw [innermost_list] at h
    obtain ⟨x, hx, hb⟩ := List.mem_flatMap.mp h
    exact ih x hx ((fits_list.mp hfits).2 x hx) hb
  | object ms ih =>
    rw [innermost_object] at h
    have hinner := (fits_object.mp hfits).2
    cases hpayload : payload? ms with
    | none =>
      rw [hpayload] at h hinner
      obtain rfl := List.mem_singleton.mp h
      refine fits_object.mpr ⟨hroom, ?_⟩
      rw [hpayload]
      exact hinner
    | some v =>
      rw [hpayload] at h hinner
      obtain ⟨_, hv⟩ := mem_of_payload? hpayload
      exact ih _ hv hinner h
  | _ =>
    obtain rfl := List.mem_singleton.mp h
    unfold fits
    rfl

/-- The innermost elements of a definition that yield an action, in order. -/
def kept (v : Value ρ) : List (Value ρ) := (innermost v).filter fun b => !(ofValue b).isEmpty

/-- A definition is read as the list of the innermost elements that yield an action. -/
theorem read_kept {v : Value ρ} (h : fits roomLimit v = true) : read (.list (kept v)) = read v := by
  have hkept : fits roomLimit (.list (kept v)) = true := by
    refine fits_list.mpr ⟨by decide, fun b hb => ?_⟩
    exact fits_of_mem_innermost h (by decide) (List.mem_filter.mp hb).1
  have hfilter (bs : List (Value ρ)) :
      (bs.filter fun b => !(ofValue b).isEmpty).flatMap ofValue = bs.flatMap ofValue := by
    induction bs with
    | nil => rfl
    | cons b bs ih =>
      rw [List.filter_cons]
      cases hb : ofValue b with
      | nil => simp [hb, ih]
      | cons => simp [hb, ih]
  rw [read_of_fits hkept, read_of_fits h, ofValue_list, ofValue_eq_innermost v]
  exact congrArg Except.ok (hfilter _)

/-- An effect is played as the innermost elements that yield an action, one after the other. -/
theorem interpret_kept {σ : Type} (crew : Crew ρ σ) (cost : Value ρ) {v : Value ρ}
    (h : fits roomLimit v = true) : crew.interpret (.list (kept v)) cost = crew.interpret v cost := by
  unfold Crew.interpret
  rw [compile_eq, compile_eq v, read_kept h]

/-- A definition that is not dropped as a whole. -/
structure Heard (v : Value ρ) : Prop where
  /-- An element yields an action, unless it lies beside one that does. -/
  yields : ∀ e, Element e v → Yields e ∨ Idle e ∧ Beside e v
  idle : ∀ e, Beside e v → Idle e
  kept_iff : ∀ b, b ∈ kept v ↔ b ∈ innermost v ∧ Yields b
  /-- It is played as if what yields no action was not there. -/
  plays : ∀ (σ : Type) (crew : Crew ρ σ) (cost : Value ρ),
    crew.interpret v cost = crew.interpret (.list (kept v)) cost

theorem heard {v : Value ρ} (h : fits roomLimit v = true) (hyields : Yields v) : Heard v := by
  constructor
  case yields =>
    intro e he
    by_cases hidle : Idle e
    . exact .inr ⟨hidle, (he.idle_iff_beside h hyields).mp hidle⟩
    . rw [idle_iff (he.fits h)] at hidle
      exact .inl ((yields_iff (he.fits h)).mpr hidle)
  case idle =>
    intro e he
    obtain ⟨xs, hxs, ⟨x, hx, helement, _⟩, _⟩ := id he
    exact ((helement.trans (.item hx .whole)).trans hxs).idle_iff_beside h hyields |>.mpr he
  case kept_iff =>
    intro b
    unfold kept
    rw [List.mem_filter]
    refine and_congr_right fun hb => ?_
    rw [yields_iff (fits_of_mem_innermost h (by decide) hb)]
    simp
  case plays => exact fun σ crew cost => (interpret_kept crew cost h).symm

end Effect

/-! ### What is reported -/

theorem Value.exists_of_listD_ne_nil {v : Value ρ} (h : v.listD ≠ [])
    : ∃ x xs, v = .list (x :: xs) := by
  cases v with
  | list xs =>
    obtain ⟨x, xs, rfl⟩ := List.ne_nil_iff_exists_cons.mp h
    exact ⟨x, xs, rfl⟩
  | _ => exact absurd rfl h

namespace Scenario

/-- No finding is about an effect. -/
def Effectless (found : List Finding) : Prop := ∀ spot, .malformedEffect spot ∉ found

theorem effectless_nil : Effectless [] := fun _ h => by cases h

theorem effectless_singleton {f : Finding} (h : ∀ spot, f ≠ .malformedEffect spot)
    : Effectless [f] :=
  fun spot hspot => h spot (List.mem_singleton.mp hspot).symm

theorem effectless_append {found found' : List Finding}
    : Effectless (found ++ found') ↔ Effectless found ∧ Effectless found' := by
  unfold Effectless
  simp only [List.mem_append, not_or, forall_and]

variable [Scalar ρ]

theorem effectless_unknownAmong {names : List String} {finding : String → Finding}
    {vs : List (Value ρ)} (h : ∀ name spot, finding name ≠ .malformedEffect spot)
    : Effectless (unknownAmong names finding vs) := by
  intro spot hspot
  obtain ⟨v, _, hv⟩ := List.mem_filterMap.mp hspot
  split at hv
  . cases hv
  . exact h _ _ (Option.some.inj hv)

theorem effectless_windowFindings (spot : Spot) (window : Value ρ)
    : Effectless (windowFindings spot window) := by
  unfold windowFindings
  split
  . exact effectless_nil
  . exact effectless_singleton (by simp)

theorem effectless_boundFindings {spot : Spot} {scene : Record ρ} {bound : String}
    {found : List Finding} (h : boundFindings spot scene bound = .ok found) : Effectless found := by
  unfold boundFindings at h
  dsimp only at h
  split at h
  . obtain rfl := Except.ok.inj h
    exact effectless_nil
  . obtain ⟨x, _, h⟩ := Fault.bind_eq_ok.mp h
    obtain rfl := Except.ok.inj h
    split
    . exact effectless_nil
    . exact effectless_singleton (by simp)

theorem effectless_pathFindings (known : Known) (spot : Spot) (path : Value ρ)
    : Effectless (pathFindings known spot path) := by
  unfold pathFindings
  split
  . exact effectless_nil
  . exact effectless_unknownAmong (by simp)
  . exact effectless_singleton (by simp)

theorem effectless_sceneFindings {known : Known} {spot : Spot} {scene : Record ρ}
    {found : List Finding} (h : sceneFindings known spot scene = .ok found) : Effectless found := by
  obtain ⟨low, hlow, h⟩ := Fault.bind_eq_ok.mp h
  obtain ⟨high, hhigh, h⟩ := Fault.bind_eq_ok.mp h
  obtain ⟨options, _, h⟩ := Fault.bind_eq_ok.mp h
  obtain ⟨npcs, _, h⟩ := Fault.bind_eq_ok.mp h
  obtain rfl := Except.ok.inj h
  simp only [effectless_append]
  exact ⟨⟨⟨⟨⟨effectless_windowFindings _ _, effectless_boundFindings hlow⟩,
    effectless_boundFindings hhigh⟩, effectless_pathFindings _ _ _⟩,
    effectless_unknownAmong (by simp)⟩, effectless_unknownAmong (by simp)⟩

theorem effectless_scenesFindings {known : Known} {location : String} {i : Nat}
    {seen : List String} {vs : List (Value ρ)} {found : List Finding × List String}
    (h : scenesFindings known location i seen vs = .ok found) : Effectless found.1 := by
  induction vs generalizing i seen found with
  | nil =>
    obtain rfl := Except.ok.inj h
    exact effectless_nil
  | cons v vs ih =>
    have hlater {f : Finding} (hf : ∀ spot, f ≠ .malformedEffect spot) {later : List Finding}
        (hlater : Effectless later) : Effectless (f :: later) :=
      effectless_append.mpr ⟨effectless_singleton hf, hlater⟩
    cases v with
    | object scene =>
      rw [scenesFindings] at h
      dsimp only at h
      split at h
      . obtain ⟨⟨later, declared⟩, hrest, h⟩ := Fault.bind_eq_ok.mp h
        obtain rfl := Except.ok.inj h
        exact hlater (by simp) (ih hrest)
      . obtain ⟨own, hown, h⟩ := Fault.bind_eq_ok.mp h
        obtain ⟨⟨later, declared⟩, hrest, h⟩ := Fault.bind_eq_ok.mp h
        obtain rfl := Except.ok.inj h
        refine effectless_append.mpr ⟨effectless_append.mpr ⟨?_, effectless_sceneFindings hown⟩, ih hrest⟩
        split
        . exact effectless_singleton (by simp)
        . exact effectless_nil
    | _ =>
      unfold scenesFindings at h
      dsimp only at h
      obtain ⟨⟨later, declared⟩, hrest, h⟩ := Fault.bind_eq_ok.mp h
      obtain rfl := Except.ok.inj h
      exact hlater (by simp) (ih hrest)

theorem effectless_startFindings (location : String) (declared : List String) (start : Value ρ)
    : Effectless (startFindings location declared start) := by
  unfold startFindings
  split
  . exact effectless_unknownAmong (by simp)
  . exact effectless_nil

theorem effectless_requirementFindings {spot : Spot} {row : Record ρ} {found : List Finding}
    (h : requirementFindings spot row = .ok found) : Effectless found := by
  obtain ⟨r, _, h⟩ := Fault.bind_eq_ok.mp h
  obtain ⟨tokens, _, h⟩ := Fault.bind_eq_ok.mp h
  obtain rfl := Except.ok.inj h
  intro spot hspot
  obtain ⟨token, _, htoken⟩ := List.mem_map.mp hspot
  cases htoken

theorem effectless_npcFindings {known : Known} {location : String} {npc : String × Record ρ}
    {found : List Finding} (h : npcFindings known location npc = .ok found) : Effectless found := by
  obtain ⟨options, _, h⟩ := Fault.bind_eq_ok.mp h
  obtain ⟨own, hown, h⟩ := Fault.bind_eq_ok.mp h
  obtain rfl := Except.ok.inj h
  exact effectless_append.mpr ⟨effectless_requirementFindings hown, effectless_unknownAmong (by simp)⟩

/-- An option has an effect that can be read, and it yields no action. -/
def Dropped (row : Record ρ) : Prop := Menu.effectOf row ≠ .null ∧ Effect.Idle (Menu.effectOf row)

theorem malformedEffect_mem_optionFindings {location : String} {option : String × Record ρ}
    {found : List Finding} (h : optionFindings location option = .ok found) (spot : Spot)
    : .malformedEffect spot ∈ found ↔ spot = .option location option.1 ∧ Dropped option.2 := by
  obtain ⟨own, hown, h⟩ := Fault.bind_eq_ok.mp h
  obtain ⟨recognised, hrecognised, h⟩ := Fault.bind_eq_ok.mp h
  obtain rfl := Except.ok.inj h
  obtain ⟨actions, hread, hrecognised⟩ := Fault.bind_eq_ok.mp hrecognised
  obtain rfl := Except.ok.inj hrecognised
  rw [List.mem_append, or_iff_right (effectless_requirementFindings hown spot)]
  unfold Dropped Effect.Idle
  rw [hread]
  cases heffect : Menu.effectOf option.2 <;> cases actions <;> simp [Value.isNull]

theorem malformedEffect_mem_partsFindings {locations : List String} {id : String} {info : Record ρ}
    {scenes : List (Value ρ)} {options npcs : Table (Record ρ)} {found : List Finding}
    (h : partsFindings locations id info scenes options npcs = .ok found) (spot : Spot)
    : .malformedEffect spot ∈ found
      ↔ ∃ option ∈ options, spot = .option id option.1 ∧ Dropped option.2 := by
  obtain ⟨⟨ofScenes, declared⟩, hscenes, h⟩ := Fault.bind_eq_ok.mp h
  obtain ⟨ways, _, h⟩ := Fault.bind_eq_ok.mp h
  obtain ⟨ofOptions, hoptions, h⟩ := Fault.bind_eq_ok.mp h
  obtain ⟨ofNpcs, hnpcs, h⟩ := Fault.bind_eq_ok.mp h
  obtain rfl := Except.ok.inj h
  have hnpcs : Effectless ofNpcs.flatten := by
    intro spot hspot
    have hnone := Fault.mem_flatten_of_mapM (P := fun _ => False) hnpcs
      fun npc own hown => iff_of_false (effectless_npcFindings hown spot) not_false
    simpa using hnone.mp hspot
  have hways : Effectless (unknownAmong locations (.unknownDestination (.location id)) ways) :=
    effectless_unknownAmong (by simp)
  have hstart := effectless_startFindings id declared (Record.field info "startSceneId")
  have hsorted := Fault.mem_flatten_of_mapM hoptions
    fun option own hown => malformedEffect_mem_optionFindings hown spot
  simp only [List.mem_append, effectless_scenesFindings hscenes spot, hstart spot, hways spot,
    hnpcs spot, hsorted, List.mem_mergeSort, false_or, or_false]

variable {read : Reading ρ (Except Fault)} {base : Path} {id : String} {info : Record ρ}
  {table : Table (Record ρ)} {locations : List String} {found : List Finding}

theorem malformedEffect_mem_locationFindings (hinfo : location read base (.text id) = .ok info)
    (hscenes : (Record.field info "scenes").listD ≠ [])
    (htable : options read base (.text id) = .ok table)
    (h : locationFindings read base locations id = .ok found) (spot : Spot)
    : .malformedEffect spot ∈ found
      ↔ ∃ option ∈ table, spot = .option id option.1 ∧ Dropped option.2 := by
  obtain ⟨first, rest, hscenes⟩ := Value.exists_of_listD_ne_nil hscenes
  rw [locationFindings_eq] at h
  obtain ⟨info', hinfo', h⟩ := Fault.bind_eq_ok.mp h
  obtain rfl := Except.ok.inj (hinfo.symm.trans hinfo')
  rw [hscenes] at h
  obtain ⟨table', htable', h⟩ := Fault.bind_eq_ok.mp h
  obtain rfl := Except.ok.inj (htable.symm.trans htable')
  obtain ⟨npcs, _, h⟩ := Fault.bind_eq_ok.mp h
  exact malformedEffect_mem_partsFindings h spot

/-- Effects whose checks came to their end can be read. -/
theorem fits_effectOf (hinfo : location read base (.text id) = .ok info)
    (hscenes : (Record.field info "scenes").listD ≠ [])
    (htable : options read base (.text id) = .ok table)
    (h : locationFindings read base locations id = .ok found) {option : String × Record ρ}
    (hoption : option ∈ table) : Effect.fits Effect.roomLimit (Menu.effectOf option.2) = true := by
  obtain ⟨first, rest, hscenes⟩ := Value.exists_of_listD_ne_nil hscenes
  have hok : (locationFindings read base locations id).isOk = true := by rw [h, Fault.isOk_ok]
  obtain ⟨info', hinfo', hparts⟩ := isOk_locationFindings.mp hok
  obtain rfl := Except.ok.inj (hinfo.symm.trans hinfo')
  obtain ⟨table', npcs, htable', _, hlegible⟩ := hparts first rest hscenes
  obtain rfl := Except.ok.inj (htable.symm.trans htable')
  exact (hlegible.options option hoption).effect

/-- An effect is reported if, and only if, none of its elements yields an action. Of one that is not
reported the elements that yield no action are those that lie beside one that does, in a list, and it
is played as if they were not there. -/
theorem elements_of_checked (hinfo : location read base (.text id) = .ok info)
    (hscenes : (Record.field info "scenes").listD ≠ [])
    (htable : options read base (.text id) = .ok table)
    (hfound : locationFindings read base locations id = .ok found)
    : (∀ name, .malformedEffect (.option id name) ∈ found
        ↔ ∃ option ∈ table, option.1 = name ∧ Menu.effectOf option.2 ≠ .null
          ∧ ∀ e, Effect.Element e (Menu.effectOf option.2) → Effect.Idle e)
      ∧ ∀ option ∈ table, .malformedEffect (.option id option.1) ∉ found →
        Menu.effectOf option.2 ≠ .null → Effect.Heard (Menu.effectOf option.2) := by
  have hmem := malformedEffect_mem_locationFindings hinfo hscenes htable hfound
  have hfits {option : String × Record ρ} (hoption : option ∈ table) :=
    fits_effectOf hinfo hscenes htable hfound hoption
  constructor
  . intro name
    rw [hmem]
    refine exists_congr fun option => and_congr_right fun hoption => ?_
    rw [Spot.option.injEq, eq_comm (a := name)]
    refine and_congr (by simp) (and_congr_right fun _ => ?_)
    exact Effect.idle_iff_elements (hfits hoption)
  . intro option hoption hunreported hgiven
    apply Effect.heard (hfits hoption)
    rw [Effect.yields_iff (hfits hoption)]
    intro hnone
    exact hunreported ((hmem _).mpr
      ⟨option, hoption, rfl, hgiven, (Effect.idle_iff (hfits hoption)).mpr hnone⟩)

/-- An inn with an option whose effect is a list: what happens, and a time that is no number. -/
def restFiles : Files :=
  let info := "\x7b\"scenes\":[\x7b\"id\":\"hall\",\"optionIds\":[\"rest\"]\x7d]\x7d"
  let options := "\x7b\"rest\":\x7b\"effect\":[\"slept\",\"time:soon\"]\x7d\x7d"
  ⟨[(["scenario", "locations", "inn", "info.json"], .file info.toUTF8),
    (["scenario", "locations", "inn", "options.json"], .file options.toUTF8)]⟩

theorem locationFindings_restFiles
    : locationFindings (ρ := Rat) restFiles.json (locationsIn ["scenario"]) ["inn"] "inn" = .ok [] :=
  Fault.eq_ok_of_toOption (by decide +kernel)

theorem location_restFiles
    : ∃ info : Record Rat, location restFiles.json (locationsIn ["scenario"]) (.text "inn") = .ok info
      ∧ (Record.field info "scenes").listD ≠ [] := by
  have hany : (location (ρ := Rat) restFiles.json (locationsIn ["scenario"]) (.text "inn")).toOption.any
      (fun info => !(Record.field info "scenes").listD.isEmpty) = true := by
    decide +kernel
  simpa using Fault.any_eq_true.mp hany

theorem options_restFiles
    : ∃ table : Table (Record Rat),
      options restFiles.json (locationsIn ["scenario"]) (.text "inn") = .ok table
        ∧ ∃ option ∈ table, option.1 = "rest"
          ∧ ∃ e, e.display = "time:soon" ∧ Effect.Element e (Menu.effectOf option.2) ∧ Effect.Idle e := by
  have hany : (options (ρ := Rat) restFiles.json (locationsIn ["scenario"]) (.text "inn")).toOption.any
      (fun table => table.any fun option => option.1 == "rest"
        && (Menu.effectOf option.2).listD.any fun e => e.display == "time:soon" && Effect.Idle e)
      = true := by
    decide +kernel
  obtain ⟨table, htable, hany⟩ := Fault.any_eq_true.mp hany
  simp only [List.any_eq_true, Bool.and_eq_true, beq_iff_eq, decide_eq_true_eq] at hany
  obtain ⟨option, hoption, hname, e, he, htext, hidle⟩ := hany
  exact ⟨table, htable, option, hoption, hname, e, htext, .of_mem_listD he, hidle⟩

/-- What is passed over beside what is understood is not reported. -/
theorem restFiles_unreported
    : locationFindings (ρ := Rat) restFiles.json (locationsIn ["scenario"]) ["inn"] "inn" = .ok []
      ∧ ∃ table : Table (Record Rat),
        options restFiles.json (locationsIn ["scenario"]) (.text "inn") = .ok table
          ∧ ∃ option ∈ table, option.1 = "rest"
            ∧ ∃ e, e.display = "time:soon" ∧ Effect.Element e (Menu.effectOf option.2)
              ∧ ¬ Effect.Yields e := by
  obtain ⟨table, htable, option, hoption, hname, e, htext, he, hidle⟩ := options_restFiles
  exact ⟨locationFindings_restFiles, table, htable, option, hoption, hname, e, htext, he,
    Effect.not_yields_of_idle hidle⟩

theorem elements_of_checked_rest
    : ∃ (info : Record Rat) (table : Table (Record Rat)),
      location restFiles.json (locationsIn ["scenario"]) (.text "inn") = .ok info
        ∧ (Record.field info "scenes").listD ≠ []
        ∧ options restFiles.json (locationsIn ["scenario"]) (.text "inn") = .ok table
        ∧ locationFindings (ρ := Rat) restFiles.json (locationsIn ["scenario"]) ["inn"] "inn" = .ok []
        ∧ ∃ option ∈ table, option.1 = "rest"
          ∧ Effect.Heard (Menu.effectOf option.2)
          ∧ ∃ e, e.display = "time:soon" ∧ Effect.Beside e (Menu.effectOf option.2) := by
  obtain ⟨info, hinfo, hscenes⟩ := location_restFiles
  obtain ⟨table, htable, option, hoption, hname, e, htext, he, hidle⟩ := options_restFiles
  have hgiven : Menu.effectOf option.2 ≠ .null := by
    intro hnull
    rw [hnull] at he
    cases he
    exact absurd htext (by decide)
  have hheard := (elements_of_checked hinfo hscenes htable locationFindings_restFiles).2 option hoption
    List.not_mem_nil hgiven
  refine ⟨info, table, hinfo, hscenes, htable, locationFindings_restFiles, option, hoption, hname,
    hheard, e, htext, ?_⟩
  rcases hheard.yields e he with hyields | ⟨_, hbeside⟩
  . exact absurd hyields (Effect.not_yields_of_idle hidle)
  . exact hbeside

end Scenario

end Storyworld
