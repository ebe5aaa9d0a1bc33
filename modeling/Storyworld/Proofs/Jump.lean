import Storyworld.Proofs.Picks
import Storyworld.Proofs.Frame
import Storyworld.Proofs.Gate
import Storyworld.Proofs.History
import Storyworld.Proofs.Reached

/-!
This module contains what one jump notes in the history. A jump that is played moves the player
when it is played, and moves the player to where it leads once more when the turn is over. Between
the two nothing but time can have come in; where it leads to another scene then, that one is noted
as well.
-/

namespace Storyworld

variable {ρ σ V : Type} [Scalar ρ] {content : Content ρ σ}

/-! ### Jumps that name a scene -/

namespace Navigation

variable {f : Value ρ → Except Fault (Value ρ)} {atlas : Atlas ρ σ} {here : Option (Pointer ρ)}
  {location : String} {scene : Option String}

/-- A jump names a scene of a place: it has a scene, or what it has for a location is none that has
scenes, but a scene of the location that the player is at. -/
inductive Names (f : Value ρ → Except Fault (Value ρ)) (here : Option (Pointer ρ))
    (location : String) (scene : Option String) : String → String → Prop where
  | scene (asked : String) (hlocation : location ≠ "") (hscene : scene = some asked)
    (hasked : asked ≠ "") : Names f here location scene location asked
  | here (p : Pointer ρ) (place : String) (hpointer : here = some p)
    (hplace : p.location = .text place)
    (hnamed : place ≠ "") (hlocation : location ≠ "") (hne : place ≠ location)
    (hscene : scene.getD "" = "") (hempty : Atlas.scenes (infoOf f (.text location)) = [])
    (hfound : (Atlas.find? (infoOf f p.location) (.text location)).isSome) :
    Names f here location scene place location

/-- The place where a request for a scene leads while these scenes are allowed. -/
structure Comes (f : Value ρ → Except Fault (Value ρ)) (atlas : Atlas ρ σ) (place asked : String)
    (p : Pointer ρ) : Prop where
  location_eq : p.location = .text place
  scene_eq : atlas.gate (infoOf f (.text place))
    (Atlas.resolve (infoOf f (.text place)) (.text asked)) = .ok p.scene

theorem Comes.unique {atlas' : Atlas ρ σ} {place asked : String} {p q : Pointer ρ}
    (h : Comes f atlas place asked p) (h' : Comes f atlas' place asked q)
    (hallows : atlas.allows = atlas'.allows) : p = q := by
  have hscene := h.scene_eq
  rw [Atlas.gate_congr hallows, h'.scene_eq, Except.ok.injEq] at hscene
  calc
    p = ⟨p.location, p.scene⟩ := rfl
    _ = ⟨q.location, q.scene⟩ := by rw [h.location_eq, h'.location_eq, hscene]
    _ = q := rfl

/-- A move to a given location stops where the player stands, or arrives. -/
theorem moveTo_arrives (hf : Answers f atlas.location) {location : Value ρ}
    (hgiven : location.isGiven = true) (scene : Value ρ) (n : Navigation ρ) (src : σ)
    : ((∃ e, ((moveTo atlas location scene).run (n, src)).1 = .error e)
        ∧ Stands n.pointer n.history ((moveTo atlas location scene).run (n, src)).2.1)
      ∨ ∃ p r, Arrival f atlas location scene r p
        ∧ ((moveTo atlas location scene).run (n, src)).1 = .ok (some p)
        ∧ Stands (some p) (extend n.history p)
          ((moveTo atlas location scene).run (n, src)).2.1 := by
  rcases moveTo_cases hf location scene n src with
    ⟨result, src', hrun, hstops⟩ | ⟨e, r, src', _, hrun⟩ | ⟨p, r, src', harrival, _, hrun⟩
  . rw [hrun]
    exact .inl ⟨hstops hgiven, rfl, rfl⟩
  . rw [hrun]
    exact .inl ⟨⟨e, rfl⟩, rfl, rfl⟩
  . rw [hrun]
    exact .inr ⟨p, r, harrival, rfl, rfl, rfl⟩

theorem Arrival.spelled {location scene : Value ρ} {r : Registry ρ} {p : Pointer ρ}
    (h : Arrival f atlas location scene r p) : Spelled p := by
  obtain ⟨l, _, hlocation, _⟩ := h.location_eq
  exact ⟨⟨l, hlocation⟩, h.scene_text⟩

theorem Arrival.location_text {place : String} {scene : Value ρ} {r : Registry ρ} {p : Pointer ρ}
    (h : Arrival f atlas (.text place) scene r p) : p.location = .text place := by
  obtain ⟨l, hl, hlocation, _⟩ := h.location_eq
  rw [Value.text?_text, Except.ok.injEq] at hl
  rw [hlocation, hl]

theorem Arrival.comes {place asked : String} (hasked : asked ≠ "") {r : Registry ρ}
    {p : Pointer ρ} (h : Arrival f atlas (.text place) (.text asked) r p)
    : Comes f atlas place asked p := by
  obtain ⟨v, hv, hgate⟩ := h.scene_eq
  rw [Value.given?_text hasked, Except.ok.injEq] at hv
  subst hv
  rw [h.location_text] at hgate
  exact ⟨h.location_text, hgate⟩

/-- A jump to a location, from where the player is. -/
theorem run_apply_target (hf : Answers f atlas.location) (location : String)
    (scene : Option String) (n : Navigation ρ) (src : σ)
    : (apply atlas (.target (.text location) (.ofText? scene))).run (n, src)
      = if location = "" then (.ok n.pointer, n, src)
        else if scene.getD "" ≠ "" then
          (moveTo atlas (.text location) (.text (scene.getD ""))).run (n, src)
        else
          match n.pointer with
          | none => (moveTo atlas (.text location) .null).run (n, src)
          | some p =>
            if p.location.same (.text location) then (.ok n.pointer, n, src)
            else if Atlas.scenes (infoOf f (.text location)) ≠ [] then
              (moveTo atlas (.text location) .null).run
                (n, ((atlas.location (.text location)).run src).2)
            else
              match (isLocalScene atlas p location).run
                (n, ((atlas.location (.text location)).run src).2) with
              | (.error e, n') => (.error e, n')
              | (.ok true, n') => (moveTo atlas p.location (.text location)).run n'
              | (.ok false, n') => (moveTo atlas (.text location) .null).run n' := by
  obtain ⟨pointer, history, registry⟩ := n
  unfold apply
  simp only [Act.run_bind, Act.run_get, destination]
  by_cases hlocation : location = ""
  . subst hlocation
    rfl
  simp only [Value.isGiven_text.mpr hlocation, Bool.not_true, Bool.false_eq_true, if_false,
    hlocation, Act.run_bind, Act.run_lift, Value.text?_text]
  by_cases hscene : scene.getD "" = ""
  . have hnone : (Value.ofText? scene : Value ρ).isGiven = false := by
      cases scene with
      | none => rfl
      | some asked => simpa [Value.ofText?, Value.isGiven] using hscene
    simp only [hnone, Bool.false_eq_true, if_false, hscene, ne_eq, not_true_eq_false]
    cases pointer with
    | none => rfl
    | some p =>
      dsimp only
      by_cases hstay : p.location.same (.text location) = true
      . simp [hstay]
      simp only [hstay, Bool.false_eq_true, if_false, Act.run_bind, Act.run_onSecond,
        run_hasScenes hf, Bool.not_not, ite_not, List.isEmpty_iff]
      split
      . rw [Act.run_bind]
        rcases (isLocalScene atlas p location).run _ with ⟨e | isLocal, n'⟩
        . rfl
        . cases isLocal with
          | true => rfl
          | false => rfl
      . rfl
  . obtain ⟨asked, rfl⟩ : ∃ asked, scene = some asked := by
      cases scene with
      | none => exact absurd rfl hscene
      | some asked => exact ⟨asked, rfl⟩
    have hgiven : (Value.ofText? (some asked) : Value ρ).isGiven = true :=
      Value.isGiven_text.mpr hscene
    rw [if_pos hgiven, if_pos hscene]
    rfl

/-- A jump that names a scene stops where the player stands, or comes to where that leads. -/
theorem apply_names (hf : Answers f atlas.location) {place asked : String} {n : Navigation ρ}
    (h : Names f n.pointer location scene place asked) (src : σ)
    : let run := (apply atlas (.target (.text location) (.ofText? scene))).run (n, src)
      ((∃ e, run.1 = .error e) ∧ Stands n.pointer n.history run.2.1)
      ∨ ∃ p, run.1 = .ok (some p) ∧ Comes f atlas place asked p ∧ Spelled p
        ∧ Stands (some p) (extend n.history p) run.2.1 := by
  intro run
  have hmoves : ((∃ e, run.1 = .error e) ∧ Stands n.pointer n.history run.2.1)
      ∨ place ≠ "" ∧ asked ≠ "" ∧ ∃ r src',
        run = (moveTo atlas (.text place) (.text asked)).run ({ n with registry := r }, src') := by
    have hrun : run = _ := run_apply_target hf location scene n src
    cases h with
    | scene _ hlocation hscene hasked =>
      subst hscene
      rw [if_neg hlocation, Option.getD_some, if_pos hasked] at hrun
      exact .inr ⟨hlocation, hasked, n.registry, src, hrun⟩
    | here p _ hpointer hplace hnamed hlocation hne hscene hempty hfound =>
      have hleaves : ¬ p.location.same (.text location) = true := by
        rw [Value.same_text_iff, hplace]
        exact fun heq => hne (Value.text.inj heq)
      simp only [hlocation, hscene, hpointer, hleaves, hempty, if_false, ne_eq, not_true_eq_false]
        at hrun
      obtain ⟨r, src', _, ⟨e, hlocal⟩ | hlocal⟩ :=
        isLocalScene_cases hf p location n ((atlas.location (.text location)).run src).2
      . rw [hlocal] at hrun
        rw [hrun]
        exact .inl ⟨⟨e, rfl⟩, rfl, rfl⟩
      . rw [hlocal, hfound, hplace] at hrun
        exact .inr ⟨hnamed, hlocation, r, src', hrun⟩
  rcases hmoves with hstays | ⟨hplace, hasked, r, src', hrun⟩
  . exact .inl hstays
  . rw [hrun]
    rcases moveTo_arrives hf (Value.isGiven_text.mpr hplace) (.text asked)
      { n with registry := r } src' with hstays | ⟨p, r', harrival, hok, hstands⟩
    . exact .inl hstays
    . exact .inr ⟨p, hok, harrival.comes hasked, harrival.spelled, hstands⟩

/-- A jump that names no scene leaves the player in place, or moves the player to its location; it
leaves a player who is there already in place. -/
theorem apply_entrance (hf : Answers f atlas.location) {n : Navigation ρ}
    (htext : ∀ p, n.pointer = some p → ∃ l, p.location = .text l ∧ l ≠ "")
    (h : ∀ place asked, ¬ Names f n.pointer location scene place asked) (src : σ)
    : let run := (apply atlas (.target (.text location) (.ofText? scene))).run (n, src)
      Stands n.pointer n.history run.2.1
      ∨ location ≠ "" ∧ (∀ q, n.pointer = some q → q.location ≠ .text location)
        ∧ ∃ p, p.location = .text location ∧ Spelled p
          ∧ Stands (some p) (extend n.history p) run.2.1 := by
  intro run
  have hmoves : Stands n.pointer n.history run.2.1
      ∨ location ≠ "" ∧ (∀ q, n.pointer = some q → q.location ≠ .text location) ∧ ∃ r src',
        run = (moveTo atlas (.text location) .null).run ({ n with registry := r }, src') := by
    have hrun : run = _ := run_apply_target hf location scene n src
    by_cases hlocation : location = ""
    . rw [if_pos hlocation] at hrun
      rw [hrun]
      exact .inl ⟨rfl, rfl⟩
    have hscene : scene.getD "" = "" := by
      by_contra hasked
      cases scene with
      | none => exact hasked rfl
      | some asked => exact h location asked (.scene asked hlocation rfl hasked)
    rw [if_neg hlocation, if_neg (not_not.mpr hscene)] at hrun
    obtain ⟨pointer, history, registry⟩ := n
    cases pointer with
    | none => exact .inr ⟨hlocation, by simp, registry, src, hrun⟩
    | some p =>
      dsimp only at hrun
      split at hrun
      next =>
        rw [hrun]
        exact .inl ⟨rfl, rfl⟩
      next hleaves =>
        have hleaves' (q : Pointer ρ) (hq : some p = some q) : q.location ≠ .text location := by
          rw [← Option.some.inj hq]
          exact fun heq => hleaves (Value.same_text_iff.mpr heq)
        split at hrun
        next => exact .inr ⟨hlocation, hleaves', registry, _, hrun⟩
        next hempty =>
          obtain ⟨r, src', _, ⟨e, hlocal⟩ | hlocal⟩ := isLocalScene_cases hf p location
            ⟨some p, history, registry⟩ ((atlas.location (.text location)).run src).2
          . rw [hlocal] at hrun
            rw [hrun]
            exact .inl ⟨rfl, rfl⟩
          . have hfound : (Atlas.find? (infoOf f p.location) (.text location)).isSome = false := by
              by_contra hfound
              obtain ⟨l, hl, hne⟩ := htext p rfl
              refine h l location (.here p l rfl hl hne hlocation ?_ hscene (not_not.mp hempty) ?_)
              . rintro rfl
                exact hleaves' p rfl hl
              . simpa only [Bool.not_eq_false] using hfound
            rw [hlocal, hfound] at hrun
            exact .inr ⟨hlocation, hleaves', r, src', hrun⟩
  rcases hmoves with hstays | ⟨hlocation, hleaves, r, src', hrun⟩
  . exact .inl hstays
  . rw [hrun]
    rcases moveTo_arrives hf (Value.isGiven_text.mpr hlocation) .null
      { n with registry := r } src' with ⟨_, hstays⟩ | ⟨p, r', harrival, _, hstands⟩
    . exact .inl hstays
    . exact .inr ⟨hlocation, hleaves, p, harrival.location_text, harrival.spelled, hstands⟩

/-! ### The same jump twice -/

/-- A jump that is made from the place that it has led to names the same scene again. -/
theorem Names.again {place asked : String} (h : Names f here location scene place asked)
    {p : Pointer ρ} (hp : p.location = .text place)
    : Names f (some p) location scene place asked := by
  cases h with
  | scene _ hlocation hscene hasked => exact .scene asked hlocation hscene hasked
  | here q _ _ hplace hnamed hlocation hne hscene hempty hfound =>
    refine .here p place rfl hp hnamed hlocation hne hscene hempty ?_
    rw [hp, ← hplace]
    exact hfound

theorem not_names_at (h : ∀ place asked, ¬ Names f here location scene place asked)
    {p : Pointer ρ} (hp : p.location = .text location) (place asked : String)
    : ¬ Names f (some p) location scene place asked := by
  rintro (⟨_, hlocation, hscene, hasked⟩ | ⟨q, _, hpointer, hplace, _, _, hne, _, _, _⟩)
  . exact h _ _ (.scene asked hlocation hscene hasked)
  . cases hpointer
    exact hne (Value.text.inj (hplace.symm.trans hp))

theorem noted_of_extend {p : Pointer ρ} (hp : Spelled p) {history noted : List (Pointer ρ)}
    (h : extend history p = history ++ noted)
    : noted = [] ∧ history.getLast? = some p ∨ noted = [p] ∧ history.getLast? ≠ some p := by
  rcases extend_cases hp history with ⟨hlast, heq⟩ | ⟨hlast, heq⟩
  . exact .inl ⟨List.self_eq_append_right.mp (heq.symm.trans h), hlast⟩
  . exact .inr ⟨List.append_cancel_left (h.symm.trans heq), hlast⟩

/-- A jump notes at most one place. -/
theorem apply_notes (atlas : Atlas ρ σ) (outcome : Value ρ) (n : Navigation ρ × σ)
    : ∃ noted, ((apply atlas outcome).run n).2.1.history = n.1.history ++ noted
      ∧ noted.length ≤ 1 := by
  rcases moves_apply outcome n ⟨rfl, rfl⟩ with ⟨_, hstays⟩ | ⟨_, p, hp, _, hcame⟩
  . exact ⟨[], by rw [hstays, List.append_nil], Nat.zero_le 1⟩
  . rcases extend_cases hp n.1.history with ⟨_, heq⟩ | ⟨_, heq⟩
    . exact ⟨[], by rw [hcame, heq, List.append_nil], Nat.zero_le 1⟩
    . exact ⟨[p], by rw [hcame, heq], Nat.le_refl 1⟩

section

variable {atlas' : Atlas ρ σ} {n n' n'' : Navigation ρ} {src src₁ src' src₂ : σ}
  {first second : Except Fault (Option (Pointer ρ))} {noted again : List (Pointer ρ)}

/-- A jump that names a scene and is made twice notes a place each time just where it ends well the
second time, and is led to another scene then. -/
theorem names_twice (hf : Answers f atlas.location) (hf' : Answers f atlas'.location)
    {place asked : String} (hnames : Names f n.pointer location scene place asked)
    (hrun : (apply atlas (.target (.text location) (.ofText? scene))).run (n, src)
      = (first, n', src₁))
    (hrun' : (apply atlas' (.target (.text location) (.ofText? scene))).run (n', src')
      = (second, n'', src₂))
    (hnoted : n'.history = n.history ++ noted) (hagain : n''.history = n'.history ++ again)
    : noted ≠ [] ∧ again ≠ [] ↔ (∃ a, second = .ok a) ∧ ∃ p q, noted = [p]
      ∧ Comes f atlas place asked p ∧ Comes f atlas' place asked q ∧ p ≠ q := by
  have hfirst := apply_names hf hnames src
  rw [hrun] at hfirst
  rcases hfirst with ⟨_, _, hstays⟩ | ⟨p, _, hcomes, hp, hhere, hcame⟩
  . obtain rfl : noted = [] := List.self_eq_append_right.mp (hstays.symm.trans hnoted)
    simp
  have hsecond := apply_names hf' (hhere ▸ hnames.again hcomes.location_eq) src'
  rw [hrun'] at hsecond
  rcases hsecond with ⟨⟨e, herror⟩, _, hstays⟩ | ⟨q, hok, hcomes', hq, _, hcame'⟩
  . obtain rfl : again = [] := List.self_eq_append_right.mp (hstays.symm.trans hagain)
    dsimp only at herror
    simp [herror]
  -- the last place of the history is now the one where the jump has led the first time
  have hlast : n'.history.getLast? = some p := by
    dsimp only at hcame
    rw [hcame]
    exact getLast?_extend hp n.history
  have hagain' : again ≠ [] ↔ p ≠ q := by
    rcases noted_of_extend hq (hcame'.symm.trans hagain) with ⟨rfl, heq⟩ | ⟨rfl, hne⟩
    . simp [Option.some.inj (hlast.symm.trans heq)]
    . refine iff_of_true (List.cons_ne_nil q []) ?_
      rintro rfl
      exact hne hlast
  rw [hagain']
  constructor
  . rintro ⟨hne, hpq⟩
    rcases noted_of_extend hp (hcame.symm.trans hnoted) with ⟨hnil, _⟩ | ⟨hp', _⟩
    . exact absurd hnil hne
    . exact ⟨⟨_, hok⟩, p, q, hp', hcomes, hcomes', hpq⟩
  . rintro ⟨_, p', q', rfl, hp', hq', hpq⟩
    rw [hp'.unique hcomes rfl, hq'.unique hcomes' rfl] at hpq
    exact ⟨List.cons_ne_nil _ _, hpq⟩

/-- A jump that names no scene and is made twice notes at most one place. -/
theorem entrance_twice (hf : Answers f atlas.location) (hf' : Answers f atlas'.location)
    (htext : ∀ p, n.pointer = some p → ∃ l, p.location = .text l ∧ l ≠ "")
    (hunnamed : ∀ place asked, ¬ Names f n.pointer location scene place asked)
    (hrun : (apply atlas (.target (.text location) (.ofText? scene))).run (n, src)
      = (first, n', src₁))
    (hrun' : (apply atlas' (.target (.text location) (.ofText? scene))).run (n', src')
      = (second, n'', src₂))
    (hnoted : n'.history = n.history ++ noted) (hagain : n''.history = n'.history ++ again)
    : noted = [] ∨ again = [] := by
  have hfirst := apply_entrance hf htext hunnamed src
  rw [hrun] at hfirst
  rcases hfirst with ⟨_, hstays⟩ | ⟨hlocation, _, p, hplace, _, hhere, _⟩
  . exact .inl (List.self_eq_append_right.mp (hstays.symm.trans hnoted))
  dsimp only at hhere
  have hthere (q : Pointer ρ) (hq : n'.pointer = some q) : q.location = .text location := by
    rw [← Option.some.inj (hhere.symm.trans hq)]
    exact hplace
  have hsecond := apply_entrance hf' (fun q hq => ⟨location, hthere q hq, hlocation⟩)
    (hhere ▸ not_names_at hunnamed hplace) src'
  rw [hrun'] at hsecond
  rcases hsecond with ⟨_, hstays⟩ | ⟨_, hleaves, _⟩
  . exact .inr (List.self_eq_append_right.mp (hstays.symm.trans hagain))
  . exact absurd hplace (hleaves p hhere)

end

/-- A jump that is made twice notes a place each time just where it names a scene, ends well the
second time, and is led to another scene then. -/
theorem apply_twice (atlas atlas' : Atlas ρ σ) (hf : Answers f atlas.location)
    (hf' : Answers f atlas'.location) (location : String) (scene : Option String)
    {n : Navigation ρ} (htext : ∀ p, n.pointer = some p → ∃ l, p.location = .text l ∧ l ≠ "")
    (src src' : σ)
    : let target : Value ρ := .target (.text location) (.ofText? scene)
      let n' := ((apply atlas target).run (n, src)).2.1
      let second := (apply atlas' target).run (n', src')
      ∃ noted again, n'.history = n.history ++ noted
        ∧ second.2.1.history = n.history ++ noted ++ again
        ∧ noted.length ≤ 1 ∧ again.length ≤ 1
        ∧ (noted ≠ [] ∧ again ≠ [] ↔ (∃ a, second.1 = .ok a) ∧ ∃ place asked p q, noted = [p]
          ∧ Names f n.pointer location scene place asked ∧ Comes f atlas place asked p
          ∧ Comes f atlas' place asked q ∧ p ≠ q) := by
  intro target n' second
  obtain ⟨noted, hnoted, hfew⟩ : ∃ noted, n'.history = n.history ++ noted ∧ noted.length ≤ 1 :=
    apply_notes atlas target (n, src)
  obtain ⟨again, hagain, hfew'⟩ : ∃ again, second.2.1.history = n'.history ++ again
    ∧ again.length ≤ 1 := apply_notes atlas' target (n', src')
  refine ⟨noted, again, hnoted, by rw [hagain, hnoted], hfew, hfew', ?_⟩
  constructor
  . intro hboth
    by_cases h : ∃ place asked, Names f n.pointer location scene place asked
    . obtain ⟨place, asked, hnames⟩ := h
      obtain ⟨hok, p, q, hp, hcomes, hcomes', hne⟩ :=
        (names_twice hf hf' hnames rfl rfl hnoted hagain).mp hboth
      exact ⟨hok, place, asked, p, q, hp, hnames, hcomes, hcomes', hne⟩
    . have hfew := entrance_twice hf hf' htext (fun place asked hnames => h ⟨place, asked, hnames⟩)
        rfl rfl hnoted hagain
      exact absurd hfew (not_or.mpr hboth)
  . rintro ⟨hok, place, asked, p, q, hp, hnames, hcomes, hcomes', hne⟩
    exact (names_twice hf hf' hnames rfl rfl hnoted hagain).mpr
      ⟨hok, p, q, hp, hcomes, hcomes', hne⟩

end Navigation

/-! ### Effects that are no jumps -/

namespace Effect

/-- An effect that is no jump. -/
def Still (effect : Effect ρ) : Prop := ∀ location scene, effect ≠ .go location scene

/-- An effect that takes no time. -/
def Timeless (effect : Effect ρ) : Prop := ∀ hours, effect ≠ .time hours

omit [Scalar ρ] in
theorem still_or_go (effect : Effect ρ)
    : effect.Still ∨ ∃ location scene, effect = .go location scene := by
  cases effect with
  | go location scene => exact .inr ⟨location, scene, rfl⟩
  | _ => exact .inl nofun

omit [Scalar ρ] in
theorem outcome_of_still {effect : Effect ρ} (h : effect.Still) : effect.outcome = .null := by
  cases effect with
  | go location scene => exact absurd rfl (h location scene)
  | _ => rfl

theorem eq_go_of_published {effect : Effect ρ} {topic : String} {v : Value ρ}
    (h : (topic, .value v) ∈ effect.published) : ∃ location scene, effect = .go location scene := by
  cases effect with
  | go location scene => exact ⟨location, scene, rfl⟩
  | trait name delta => cases h
  | event token args => simp [published] at h
  | time hours =>
    by_cases hpos : Scalar.lt Scalar.zero hours = true
    . simp [published, hpos] at h
    . simp [published, hpos] at h

theorem eq_time_of_published {effect : Effect ρ} {topic : String} {hours : ρ}
    (h : (topic, .hours hours) ∈ effect.published) : effect = .time hours := by
  cases effect with
  | go location scene => simp [published] at h
  | trait name delta => cases h
  | event token args => simp [published] at h
  | time hours' =>
    by_cases hpos : Scalar.lt Scalar.zero hours' = true
    . simp only [published, hpos, if_true, List.mem_singleton, Prod.mk.injEq] at h
      exact congrArg Effect.time (Payload.hours.inj h.2).symm
    . simp [published, hpos] at h

end Effect

namespace Session

variable {P : Session ρ σ → Prop}

/-- What is kept of a session when it changes in any of these parts. -/
structure Apart (P : Session ρ σ → Prop) : Prop where
  journal : ∀ s journal, P s → P { s with journal }
  log : ∀ s log, P s → P { s with log }
  goods : ∀ goods sources s, P s → P { s with goods, sources }

/-- An effect keeps what all duties keep that are called for it. -/
theorem keeps_perform (h : Apart P) {effect : Effect ρ}
    (hduty : ∀ published ∈ effect.published, ∀ duty,
      Act.Keeps P (Session.perform content duty published.2))
    : Act.Keeps P ((crew content).perform effect) := by
  have hpublish (topic : String) (payload : Payload ρ)
      (hmem : (topic, payload) ∈ effect.published) :
      Act.Keeps P (publish content topic payload) :=
    fun s hs => published (hduty _ hmem) (h.journal s _ hs)
  unfold Crew.perform
  cases effect with
  | go location scene =>
    exact Act.keeps_bind (hpublish _ _ (by simp [Effect.published])) fun _ => Act.keeps_pure _
  | trait name delta =>
    refine Act.keeps_bind (Act.keeps_bind (keeps_onGoods _ h.goods) fun _ => Act.keeps_pure _)
      fun _ => Act.keeps_pure _
  | event token args =>
    refine Act.keeps_bind (Act.keeps_modify fun s hs => h.log s _ hs) fun _ => ?_
    refine Act.keeps_bind (hpublish _ _ (by simp [Effect.published])) fun _ => ?_
    exact Act.keeps_bind (hpublish _ _ (by simp [Effect.published])) fun _ => Act.keeps_pure _
  | time hours =>
    dsimp only
    split
    next hpos =>
      exact Act.keeps_bind (hpublish _ _ (by simp [Effect.published, hpos])) fun _ =>
        Act.keeps_pure _
    . apply Act.keeps_pure

theorem keeps_items_apart (h : Apart P) (verb : ItemVerb) (payload : Payload ρ)
    : Act.Keeps P (Session.perform content (.items verb) payload) := by
  refine Act.keeps_bind Act.keeps_get fun here => ?_
  exact keeps_onGoods _ h.goods

/-- Only a jump moves the player. -/
theorem keeps_perform_navigation (content : Content ρ σ) {effect : Effect ρ}
    (hstill : effect.Still) (n : Navigation ρ)
    : Act.Keeps (fun s => s.navigation = n) ((crew content).perform effect) := by
  have hapart : Apart fun s : Session ρ σ => s.navigation = n :=
    ⟨fun _ _ hs => hs, fun _ _ hs => hs, fun _ _ _ hs => hs⟩
  refine keeps_perform hapart ?_
  rintro ⟨topic, payload⟩ hmem duty
  cases duty with
  | items verb => exact keeps_items_apart hapart verb payload
  | travel =>
    cases payload with
    | value v =>
      obtain ⟨location, scene, rfl⟩ := Effect.eq_go_of_published hmem
      exact absurd rfl (hstill location scene)
    | hours _ => apply Act.keeps_pure
    | event _ => apply Act.keeps_pure
  | time =>
    cases payload with
    | value _ => apply Act.keeps_pure
    | hours hours => exact Act.keeps_ite (keeps_pass _ fun _ _ hs => hs) (Act.keeps_pure _)
    | event _ => apply Act.keeps_pure

/-- Only time moves the clock. -/
theorem keeps_perform_clock (content : Content ρ σ) {effect : Effect ρ}
    (htimeless : effect.Timeless) (c : Clock ρ)
    : Act.Keeps (fun s => s.clock = c) ((crew content).perform effect) := by
  have hapart : Apart fun s : Session ρ σ => s.clock = c :=
    ⟨fun _ _ hs => hs, fun _ _ hs => hs, fun _ _ _ hs => hs⟩
  refine keeps_perform hapart ?_
  rintro ⟨topic, payload⟩ hmem duty
  cases duty with
  | items verb => exact keeps_items_apart hapart verb payload
  | travel =>
    cases payload with
    | value v =>
      refine Act.keeps_bind ?_ fun _ => Act.keeps_pure _
      intro s hs
      rw [run_navigate]
      exact hs
    | hours _ => apply Act.keeps_pure
    | event _ => apply Act.keeps_pure
  | time =>
    cases payload with
    | value _ => apply Act.keeps_pure
    | hours hours => exact absurd (Effect.eq_time_of_published hmem) (htimeless hours)
    | event _ => apply Act.keeps_pure

end Session

/-! ### A jump among effects -/

namespace Crew

variable {S : Type} {crew : Crew ρ S}

/-- Effects that are no jumps leave the outcome as it is. -/
theorem performAll_still {effects : List (Effect ρ)} (h : ∀ effect ∈ effects, effect.Still)
    (last : Value ρ) (s : S) : ((crew.performAll last effects).run s).1 = .ok last := by
  induction effects generalizing s with
  | nil => rfl
  | cons effect effects ih =>
    rw [List.forall_mem_cons] at h
    unfold performAll
    rw [Act.run_bind, Act.run_attempt]
    cases houtcome : ((crew.perform effect).run s).1 with
    | error e => exact ih h.2 _
    | ok v =>
      have hnull : v = .null :=
        (crew.ends_perform effect s v houtcome).trans (Effect.outcome_of_still h.1)
      rw [hnull]
      exact ih h.2 _

end Crew

namespace Session

theorem reached_go : Duty.bus.reached Topic.go = [⟨10, 0, .travel⟩] := by
  unfold Bus.reached
  have hrows : (Duty.bus.topics.flatMap fun (key, rows) =>
      if Topic.covers key Topic.go then rows else []) = [⟨10, 0, .travel⟩] := by rfl
  rw [hrows, List.mergeSort_singleton]

/-- A jump that is published moves the player, or leaves the session as it is. -/
theorem run_publish_go (v : Value ρ) (s : Session ρ σ)
    : ((publish content Topic.go (.value v)).run s).2
      = ((navigate content fun atlas => Navigation.apply atlas v).run
        { s with journal := s.journal ++ [(Topic.go, .value v)] }).2 := by
  unfold publish
  rw [Act.run_modify]
  unfold Bus.publish
  dsimp only
  rw [reached_go, List.foldl_cons, List.foldl_nil]
  unfold Bus.deliver perform
  rw [Act.run_bind]
  rcases (navigate content fun atlas => Navigation.apply atlas v).run
    { s with journal := s.journal ++ [(Topic.go, .value v)] } with ⟨e | p, s'⟩
  . rfl
  . rfl

/-- The session at which a jump is played that stands behind these effects. -/
def before (content : Content ρ σ) (effects : List (Effect ρ)) (s : Session ρ σ) : Session ρ σ :=
  (((crew content).performAll .null effects).run s).2

/-- Where a jump among other effects leads is settled when it is played; nothing else of the effects
moves the player, and the outcome is the target of the jump. -/
theorem run_interpret_jump {definition time : Value ρ} {location : String} {scene : Option String}
    {effects effects' : List (Effect ρ)}
    (hcompile : Effect.compile definition time = .ok (effects ++ .go location scene :: effects'))
    (heffects : ∀ effect ∈ effects, effect.Still) (heffects' : ∀ effect ∈ effects', effect.Still)
    (s : Session ρ σ)
    : let target : Value ρ := .target (.text location) (.ofText? scene)
      let s₁ := before content effects s
      let run := ((crew content).interpret definition time).run s
      run.1 = .ok target
      ∧ run.2.navigation = ((Navigation.apply (atlas content s₁) target).run
        (s.navigation, s₁.sources)).2.1
      ∧ ((∀ effect ∈ effects', effect.Timeless) → run.2.clock = s₁.clock) := by
  intro target s₁ run
  have hbefore : ((crew content).performAll .null effects).run s = (.ok .null, s₁) :=
    Prod.ext (Crew.performAll_still heffects .null s) rfl
  have hnavigation : s₁.navigation = s.navigation :=
    Crew.keeps_performAll
      (fun effect h => keeps_perform_navigation content (heffects effect h) s.navigation)
      .null s rfl
  let jumped := ((publish content Topic.go (.value target)).run s₁).2
  have hrun : run = ((crew content).performAll target effects').run jumped := by
    have hgo : ((crew content).perform (.go location scene)).run s₁ = (.ok target, jumped) := rfl
    change ((crew content).interpret definition time).run s = _
    unfold Crew.interpret
    rw [hcompile, Act.run_bind, Act.run_lift]
    dsimp only
    rw [Crew.performAll_append, Act.run_bind, hbefore]
    dsimp only
    rw [Crew.performAll, Act.run_bind, Act.run_attempt, hgo]
    rfl
  have hjumped : jumped = ((navigate content fun atlas => Navigation.apply atlas target).run
      { s₁ with journal := s₁.journal ++ [(Topic.go, .value target)] }).2 :=
    run_publish_go target s₁
  rw [hrun]
  refine ⟨Crew.performAll_still heffects' target jumped, ?_, fun htimeless => ?_⟩
  . have hstays := Crew.keeps_performAll
      (fun effect h => keeps_perform_navigation content (heffects' effect h) jumped.navigation)
      target jumped rfl
    rw [hstays, hjumped, run_navigate, ← hnavigation]
    rfl
  . have hstays := Crew.keeps_performAll
      (fun effect h => keeps_perform_clock content (htimeless effect h) jumped.clock)
      target jumped rfl
    rw [hstays, hjumped, run_navigate]

/-! ### The turn of a jump -/

/-- A turn up to what it comes to; none where there is no scene. -/
def ponder (content : Content ρ σ) (view : View ρ V) :
    Act (Turn.Seat ρ (Session ρ σ) V) (Option (Turn.Decision ρ)) := do
  match ← Turn.onPlay (scene? content) with
  | none => return none
  | some scene =>
    Turn.onPlay (onGoods (Belongings.onLedger
      (Ledger.applyScene (.text scene.location) (.list (scene.items.map .object)))))
    Turn.onView (view.showTime (← Act.lift (timeView (← get).play)))
    some <$> Turn.decide (stage content) view scene (view.remaining (← get).view + 1)

/-- What is left of a turn: the decision is carried out, and the player goes where its outcome
leads. -/
def conclude (content : Content ρ σ) (decision : Turn.Decision ρ) :
    Act (Turn.Seat ρ (Session ρ σ) V) (Value ρ) := do
  let result ← Turn.onPlay (decision.carryOut (stage content).interpret)
  let _ ← Turn.onPlay (navigate content fun atlas => Navigation.apply atlas result)
  return result

theorem turn_eq (content : Content ρ σ) (view : View ρ V)
    : turn content view = (do
      match ← ponder content view with
      | none => return .null
      | some decision => conclude content decision) := by
  unfold turn ponder
  rw [bind_assoc]
  congr 1
  funext found
  cases found with
  | none => rfl
  | some scene =>
    dsimp only
    unfold Turn.run conclude
    simp only [bind_assoc, map_eq_pure_bind, pure_bind, Turn.rounds_eq]

/-- The player is nowhere, or at a location with a name. -/
def Located (n : Navigation ρ) : Prop :=
  ∀ p, n.pointer = some p → ∃ l, p.location = .text l ∧ l ≠ ""

/-- Wherever turns lead from the start, the location has a name. -/
theorem located {f : Value ρ → Except Fault (Value ρ)} (hf : Answers f content.location)
    {sources : σ} {traits : TraitBook ρ} {clock : Clock ρ} {place : Value ρ} {s₀ s : Session ρ σ}
    (hstart : start content sources traits clock place = .ok s₀) (hs : Turns content s₀ s)
    : Located s.navigation := by
  intro p hp
  obtain ⟨l, hl, hne⟩ := (allValid hf hstart hs p (.inl hp)).location_text
  refine ⟨l, hl, ?_⟩
  rintro rfl
  exact hne rfl

/-- The player has not been moved: the history is this one, and the location has a name. -/
def Waits (history : List (Pointer ρ)) (n : Navigation ρ) : Prop := n.history = history ∧ Located n

theorem keeps_current_waits (atlas : Atlas ρ σ) (history : List (Pointer ρ))
    : Act.Keeps (fun n => Waits history n.1) (Navigation.current atlas) := by
  have happroach (location : Value ρ) :
      Act.Keeps (fun n => Waits history n.1) (Navigation.approach atlas location) := by
    rintro n ⟨hhistory, hlocated⟩
    obtain ⟨hpointer', hhistory'⟩ : Navigation.Stands n.1.pointer n.1.history
        ((Navigation.approach atlas location).run n).2.1 :=
      Navigation.surveys_stands.approach location n ⟨rfl, rfl⟩
    exact ⟨hhistory'.trans hhistory, fun p hp => hlocated p (hpointer'.symm.trans hp)⟩
  unfold Navigation.current
  refine Act.keeps_get_bind fun n hn => ?_
  cases hpointer : n.1.pointer with
  | none => apply Act.keeps_pure
  | some p =>
    have hp := hn.2 p hpointer
    refine Act.keeps_bind (happroach p.location) fun info => ?_
    refine Act.keeps_bind (Act.keeps_lift _) fun scene => ?_
    have hread : Act.Keeps (fun n : Navigation ρ × σ => Waits history n.1) (do
        return some (← Act.lift (Atlas.read info { p with scene }))) :=
      Act.keeps_bind (Act.keeps_lift _) fun _ => Act.keeps_pure _
    dsimp only
    split
    . have hmodify : Act.Keeps (fun n : Navigation ρ => Waits history n)
          (modify fun n => { n with pointer := some { p with scene } }) := by
        refine Act.keeps_modify fun n hn => ⟨hn.1, ?_⟩
        rintro q ⟨⟩
        exact hp
      exact Act.keeps_bind (Act.keeps_onFirst hmodify) fun _ => hread
    . exact hread

/-- Up to what a turn comes to, only the scene of the player is looked at. -/
theorem keeps_ponder {Q : Navigation ρ → Prop}
    (hcurrent : ∀ s, Act.Keeps (fun n => Q n.1) (Navigation.current (atlas content s)))
    (view : View ρ V)
    : Act.Keeps (fun seat => Q seat.play.navigation) (ponder content view) := by
  unfold ponder
  have hlook : Act.Keeps (fun s => Q s.navigation) (scene? content) := by
    intro s hs
    exact hcurrent s (s.navigation, s.sources) hs
  have hgoods (act : Act (Belongings ρ × σ) Unit) :
      Act.Keeps (fun s : Session ρ σ => Q s.navigation) (onGoods act) :=
    keeps_onGoods act fun _ _ _ hs => hs
  refine Act.keeps_bind (Turn.keeps_onPlay hlook) fun found => ?_
  cases found with
  | none => apply Act.keeps_pure
  | some scene =>
    refine Act.keeps_bind (Turn.keeps_onPlay (hgoods _)) fun _ => ?_
    refine Act.keeps_bind Act.keeps_get fun _ => ?_
    refine Act.keeps_bind (Act.keeps_lift _) fun time => ?_
    refine Act.keeps_bind (Act.keeps_frame fun _ _ hseat => hseat) fun _ => ?_
    refine Act.keeps_bind Act.keeps_get fun now => ?_
    apply Act.keeps_map
    intro seat hseat
    obtain ⟨sources, _, heq⟩ := Turn.keeps_decide (looks_read seat.play) _ seat (.refl seat.play)
    rw [heq]
    exact hseat

theorem ponder_waits (content : Content ρ σ) (view : View ρ V) (history : List (Pointer ρ))
    : Act.Keeps (fun seat => Waits history seat.play.navigation) (ponder content view) :=
  keeps_ponder (fun _ => keeps_current_waits _ history) view

/-- What a turn comes to is decided in the scene that the player is in. -/
theorem ponder_eq_ok {view : View ρ V} {seat mid : Turn.Seat ρ (Session ρ σ) V}
    {decision : Turn.Decision ρ}
    (h : (ponder content view).run seat = (.ok (some decision), mid))
    : ∃ scene fuel seat', ((scene? content).run seat.play).1 = .ok (some scene)
      ∧ (Turn.decide (stage content) view scene fuel).run seat' = (.ok decision, mid) := by
  obtain ⟨found, _, hlook, h⟩ := Act.run_bind_eq_ok.mp h
  cases found with
  | none => cases h
  | some scene =>
    obtain ⟨_, _, _, h⟩ := Act.run_bind_eq_ok.mp h
    obtain ⟨_, _, _, h⟩ := Act.run_bind_eq_ok.mp h
    obtain ⟨_, _, _, h⟩ := Act.run_bind_eq_ok.mp h
    obtain ⟨_, _, _, h⟩ := Act.run_bind_eq_ok.mp h
    obtain ⟨now, _, _, h⟩ := Act.run_bind_eq_ok.mp h
    obtain ⟨decision', hdecide, heq⟩ := Act.run_map_eq_ok.mp h
    obtain rfl := Option.some.inj heq
    obtain ⟨_, hscene, _⟩ := Turn.run_onPlay_eq_ok.mp hlook
    exact ⟨scene, _, _, congrArg Prod.fst hscene, hdecide⟩

/-- Once something has been played the turn makes the jump of its outcome, and ends well just where
that does. -/
theorem run_conclude {definition time : Value ρ} (otherwise : Value ρ) {outcome : Value ρ}
    {seat : Turn.Seat ρ (Session ρ σ) V} {s : Session ρ σ}
    (h : ((crew content).interpret definition time).run seat.play = (.ok outcome, s))
    : let run := (conclude content (.play definition time otherwise)).run seat
      let moved := (Navigation.apply (atlas content s) (outcome.orNull otherwise)).run
        (s.navigation, s.sources)
      run.2.play.navigation = moved.2.1 ∧ ((∃ v, run.1 = .ok v) ↔ ∃ a, moved.1 = .ok a) := by
  intro run moved
  have hplayed : (Turn.onPlay ((Turn.Decision.play definition time otherwise).carryOut
      (stage content).interpret)).run seat
      = (.ok (outcome.orNull otherwise), { seat with play := s }) := by
    refine Turn.run_onPlay_eq_ok.mpr ⟨s, ?_, rfl⟩
    change ((do
      let result ← (crew content).interpret definition time
      return result.orNull otherwise) : Act (Session ρ σ) (Value ρ)).run seat.play = _
    rw [Act.run_bind, h]
    rfl
  have hrun : run = (do
      let _ ← Turn.onPlay (navigate content fun atlas =>
        Navigation.apply atlas (outcome.orNull otherwise))
      return outcome.orNull otherwise : Act (Turn.Seat ρ (Session ρ σ) V) (Value ρ)).run
        { seat with play := s } := by
    change (conclude content (.play definition time otherwise)).run seat = _
    unfold conclude
    rw [Act.run_bind, hplayed]
  rw [hrun, Act.run_bind, Turn.run_onPlay, run_navigate]
  change _ ∧ (_ ↔ ∃ a, moved.1 = .ok a)
  cases moved.1 with
  | error e => exact ⟨rfl, by simp⟩
  | ok a => exact ⟨rfl, iff_of_true ⟨_, rfl⟩ ⟨a, rfl⟩⟩

/-- Once a jump has been played the turn makes it again, and ends well just where that does. -/
theorem run_conclude_jump {definition time : Value ρ} (otherwise : Value ρ)
    {location scene : Value ρ} {seat : Turn.Seat ρ (Session ρ σ) V} {s : Session ρ σ}
    (h : ((crew content).interpret definition time).run seat.play
      = (.ok (.target location scene), s))
    : let run := (conclude content (.play definition time otherwise)).run seat
      let moved := (Navigation.apply (atlas content s) (.target location scene)).run
        (s.navigation, s.sources)
      run.2.play.navigation = moved.2.1 ∧ ((∃ v, run.1 = .ok v) ↔ ∃ a, moved.1 = .ok a) :=
  run_conclude otherwise h

/-- Whether this decision is to play a jump to this scene and then to let time pass. -/
def jumpsThenWaits (location scene : String) : Turn.Decision ρ → Bool
  | .play definition time _ => (Effect.compile definition time).toOption.any fun effects =>
    match effects with
    | [.go location' (some scene'), .time _] => location' == location && scene' == scene
    | _ => false
  | _ => false

theorem compile_of_jumpsThenWaits {location scene : String} {decision : Turn.Decision ρ}
    (h : jumpsThenWaits location scene decision = true)
    : ∃ definition time otherwise hours, decision = .play definition time otherwise
      ∧ Effect.compile definition time
        = .ok ([] ++ .go location (some scene) :: [.time hours]) := by
  cases decision with
  | nothing => cases h
  | exit => cases h
  | play definition time otherwise =>
    obtain ⟨effects, hcompile, heffects⟩ := Fault.any_eq_true.mp h
    split at heffects
    next location' scene' hours =>
      obtain ⟨rfl, rfl⟩ : location' = location ∧ scene' = scene := by simpa using heffects
      exact ⟨definition, time, otherwise, hours, rfl, hcompile⟩
    next => cases heffects

/-- What one jump notes. When it is played at most one place is noted, and when the turn is over at
most one more. Both are just where the jump names a scene, the turn ends well, and the time has come
to lead to another scene since the jump was played; so it takes time that is spent after the jump,
among the same effects. -/
theorem turn_notes_twice_iff {f : Value ρ → Except Fault (Value ρ)}
    (hf : Answers f content.location) (view : View ρ V)
    {seat mid : Turn.Seat ρ (Session ρ σ) V} (hlocated : Located seat.play.navigation)
    {definition time otherwise : Value ρ}
    (hponder : (ponder content view).run seat
      = (.ok (some (.play definition time otherwise)), mid))
    {location : String} {scene : Option String} {effects effects' : List (Effect ρ)}
    (hcompile : Effect.compile definition time = .ok (effects ++ .go location scene :: effects'))
    (heffects : ∀ effect ∈ effects, effect.Still) (heffects' : ∀ effect ∈ effects', effect.Still)
    : let jumps := before content effects mid.play
      let played := (((crew content).interpret definition time).run mid.play).2
      let run := (turn content view).run seat
      ∃ noted again, played.navigation.history = seat.play.navigation.history ++ noted
        ∧ run.2.play.navigation.history = seat.play.navigation.history ++ noted ++ again
        ∧ noted.length ≤ 1 ∧ again.length ≤ 1
        ∧ (noted ≠ [] ∧ again ≠ [] ↔ (∃ v, run.1 = .ok v) ∧ ∃ place asked p q, noted = [p]
          ∧ Navigation.Names f mid.play.navigation.pointer location scene place asked
          ∧ Navigation.Comes f (atlas content jumps) place asked p
          ∧ Navigation.Comes f (atlas content played) place asked q ∧ p ≠ q)
        ∧ ((∀ effect ∈ effects', effect.Timeless) → noted = [] ∨ again = []) := by
  intro jumps played run
  obtain ⟨hhistory, hlocated'⟩ : Waits seat.play.navigation.history mid.play.navigation := by
    have hwaits :=
      ponder_waits content view seat.play.navigation.history seat ⟨rfl, hlocated⟩
    rw [hponder] at hwaits
    exact hwaits
  obtain ⟨hresult, hjumped, hclock⟩ := run_interpret_jump hcompile heffects heffects' mid.play
  have hrun : run = (conclude content (.play definition time otherwise)).run mid := by
    change (turn content view).run seat = _
    rw [turn_eq, Act.run_bind, hponder]
  obtain ⟨hends, hok⟩ := run_conclude_jump otherwise (Prod.ext hresult rfl)
  rw [← hrun] at hends hok
  obtain ⟨noted, again, hnoted, hagain, hfew, hfew', hiff⟩ :=
    Navigation.apply_twice (atlas content jumps) (atlas content played) hf hf location scene
      hlocated' jumps.sources played.sources
  rw [← hjumped] at hnoted hagain hiff
  rw [hhistory] at hnoted hagain
  rw [← hok] at hiff
  rw [← hends] at hagain
  refine ⟨noted, again, hnoted, hagain, hfew, hfew', hiff, fun htimeless => ?_⟩
  by_contra hboth
  obtain ⟨_, place, asked, p, q, _, _, hp, hq, hne⟩ := hiff.mp (not_or.mp hboth)
  have hallows : (atlas content jumps).allows = (atlas content played).allows := by
    unfold atlas
    rw [hclock htimeless]
  exact hne (hp.unique hq hallows)

def road : Memory Rat where
  locations := [
    ("field", [("scenes", .list [.object [("id", .text "meadow"),
      ("optionIds", .list [.text "home"])]])]),
    ("inn", [("scenes", .list [
      .object [("id", .text "day"), ("from", .int 6), ("to", .int 18)],
      .object [("id", .text "night")]])])]
  options := [("field", [("home", [("id", .text "home"),
    ("effect", .list [.text "go:inn:day", .text "time:10"])])])]

/-- One jump to the day scene of the inn, with ten hours after it, is noted as two places. -/
theorem turn_notes_twice_iff_road
    : ∃ (seat mid : Turn.Seat Rat (Session Rat Unit) (Script Rat))
      (definition time otherwise : Value Rat) (hours : Rat), Located seat.play.navigation
      ∧ (ponder road.content Script.view).run seat
        = (.ok (some (.play definition time otherwise)), mid)
      ∧ Effect.compile definition time = .ok ([] ++ .go "inn" (some "day") :: [.time hours])
      ∧ ∃ p q, ((turn road.content Script.view).run seat).2.play.navigation.history
        = seat.play.navigation.history ++ [p] ++ [q] := by
  let seatOf (s₀ : Session Rat Unit) : Turn.Seat Rat (Session Rat Unit) (Script Rat) :=
    ⟨s₀, .null, { picks := [.text "home"] }⟩
  have hroad : ((start road.content () {} {} (.object [("locationId", .text "field")])
      : Except Fault (Session Rat Unit)).toOption.any fun s₀ =>
        ((turn road.content Script.view).run (seatOf s₀)).2.play.navigation.history.length
            == (seatOf s₀).play.navigation.history.length + 2
          && ((ponder road.content Script.view).run (seatOf s₀)).1.toOption.any
            fun decision => decision.any (jumpsThenWaits "inn" "day")) = true := by decide +kernel
  obtain ⟨s₀, hstart, hturn⟩ := Fault.any_eq_true.mp hroad
  obtain ⟨hlong, hdecides⟩ := Bool.and_eq_true_iff.mp hturn
  have hlocated : Located (seatOf s₀).play.navigation :=
    located (Memory.answers road) hstart .none
  obtain ⟨decision?, hponder, hdecided⟩ := Fault.any_eq_true.mp hdecides
  obtain ⟨decision, rfl, hjumps⟩ := (Option.any_eq_true _ _).mp hdecided
  obtain ⟨definition, time, otherwise, hours, rfl, hcompile⟩ := compile_of_jumpsThenWaits hjumps
  have hstill : ∀ effect ∈ [(.time hours : Effect Rat)], effect.Still := by simp [Effect.Still]
  have hrun : (ponder road.content Script.view).run (seatOf s₀)
      = (.ok (some (.play definition time otherwise)), _) := Prod.ext hponder rfl
  obtain ⟨noted, again, _, hhistory, hfew, hfew', _⟩ :=
    turn_notes_twice_iff (Memory.answers road) Script.view hlocated hrun hcompile (by simp) hstill
  have hlength := congrArg List.length hhistory
  rw [beq_iff_eq.mp hlong, List.length_append, List.length_append] at hlength
  have hnoted : noted.length = 1 := by omega
  have hagain : again.length = 1 := by omega
  obtain ⟨p, rfl⟩ := List.length_eq_one_iff.mp hnoted
  obtain ⟨q, rfl⟩ := List.length_eq_one_iff.mp hagain
  exact ⟨seatOf s₀, _, definition, time, otherwise, hours, hlocated, hrun, hcompile, p, q, hhistory⟩

end Session

end Storyworld
