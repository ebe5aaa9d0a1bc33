import Storyworld.Proofs.Accepted
import Storyworld.Proofs.Jump
import Storyworld.Proofs.Offer

/-!
This module contains where the player can come to in a story in which nothing is found. What is
checked of a story are its records and its ways, but not where its jumps lead. While those lead inside
the locations of the story, so do all turns.
-/

namespace Storyworld

variable {ρ σ V : Type} [Scalar ρ]

/-! ### Moves inside a region -/

namespace Navigation

variable {f : Value ρ → Except Fault (Value ρ)} {atlas : Atlas ρ σ} {region : List String}

/-- The player is at one of these locations. -/
def Inside (region : List String) (n : Navigation ρ) : Prop :=
  ∃ name ∈ region, ∃ scene, n.pointer = some ⟨.text name, scene⟩

omit [Scalar ρ] in
theorem Inside.mono {n : Navigation ρ} (h : Inside region n) {region' : List String}
    (hregion : ∀ name ∈ region, name ∈ region') : Inside region' n := by
  obtain ⟨name, hname, hpointer⟩ := h
  exact ⟨name, hregion name hname, hpointer⟩

theorem surveys_inside (atlas : Atlas ρ σ) (region : List String)
    : Surveys atlas fun n => Inside region n.1 where
  info _ := Act.keeps_onSecond
  ensure _ _ _ := Act.keeps_onFirst (Act.keeps_frame fun _ _ h => h)

theorem keeps_moveTo_inside (hf : Answers f atlas.location) {name : String} (hname : name ∈ region)
    (scene : Value ρ) : Act.Keeps (fun n => Inside region n.1) (moveTo atlas (.text name) scene) := by
  rintro ⟨n, src⟩ hn
  rcases moveTo_cases hf (.text name) scene n src with
    ⟨result, src', hrun, _⟩ | ⟨e, r, src', _, hrun⟩ | ⟨p, r, src', harrival, _, hrun⟩
  . rw [hrun]
    exact hn
  . rw [hrun]
    exact hn
  . rw [hrun]
    refine ⟨name, hname, p.scene, ?_⟩
    rw [← harrival.location_text]
    rfl

theorem keeps_current_inside (hf : Answers f atlas.location) (region : List String)
    : Act.Keeps (fun n => Inside region n.1) (current atlas) := by
  rintro ⟨n, src⟩ ⟨name, hname, scene, hpointer⟩
  rcases current_cases hf n src with
    ⟨_, hrun⟩ | ⟨p, r, src', hp, _, ⟨e, hrun⟩ | ⟨v, _, hrun⟩⟩
  . rw [hrun]
    exact ⟨name, hname, scene, hpointer⟩
  . rw [hrun]
    exact ⟨name, hname, scene, hpointer⟩
  . rw [hrun]
    obtain rfl := Option.some.inj (hp.symm.trans hpointer)
    exact ⟨name, hname, v, rfl⟩

/-- From all over a region an outcome leads nowhere, to a location of the region, or to a scene that
every location of the region has. -/
inductive Confines (f : Value ρ → Except Fault (Value ρ)) (region : List String)
    (outcome : Value ρ) : Prop where
  | nowhere (h : ∀ here, (destination here outcome).1.isGiven = false)
  | place (name : String) (hname : name ∈ region)
    (h : ∀ here, (destination here outcome).1 = .text name)
  | scene (name : String) (h : ∀ here, (destination here outcome).1 = .text name)
    (hscene : (destination .null outcome).2.isGiven = false)
    (hempty : Atlas.scenes (infoOf f (.text name)) = [])
    (hfound : ∀ place ∈ region, (Atlas.find? (infoOf f (.text place)) (.text name)).isSome)

theorem keeps_apply_inside (hf : Answers f atlas.location) {outcome : Value ρ}
    (h : Confines f region outcome)
    : Act.Keeps (fun n => Inside region n.1) (apply atlas outcome) := by
  unfold apply
  refine Act.keeps_get_bind fun n ⟨place, hplace, scene₀, hpointer⟩ => ?_
  dsimp only
  generalize (n.1.pointer.map Pointer.location).getD .null = here
  rw [hpointer]
  cases h with
  | nowhere h =>
    rw [h]
    apply Act.keeps_pure
  | place name hname h =>
    rw [h, Value.text?_text, Act.lift_ok, pure_bind]
    apply Act.keeps_ite
    . apply Act.keeps_pure
    apply Act.keeps_ite
    . exact Act.keeps_bind (Act.keeps_lift _) fun id => keeps_moveTo_inside hf hname _
    apply Act.keeps_ite
    . apply Act.keeps_pure
    refine Act.keeps_bind ((surveys_inside atlas region).hasScenes name) fun hasScenes => ?_
    apply Act.keeps_ite
    . refine Act.keeps_bind ((surveys_inside atlas region).isLocalScene _ name) fun isLocal => ?_
      exact Act.keeps_ite (keeps_moveTo_inside hf hplace _) (keeps_moveTo_inside hf hname _)
    . exact keeps_moveTo_inside hf hname _
  | scene name h hscene hempty hfound =>
    rw [h, Value.text?_text, Act.lift_ok, pure_bind, destination_snd, hscene]
    apply Act.keeps_ite
    . apply Act.keeps_pure
    rw [if_neg Bool.false_ne_true]
    apply Act.keeps_ite
    . apply Act.keeps_pure
    -- the location has no scenes, and the scene of its name is found here
    rintro ⟨n, src⟩ hn
    rw [Act.run_bind, Act.run_onSecond, run_hasScenes hf, hempty]
    dsimp only
    rw [List.isEmpty_nil, Bool.not_not, if_pos rfl, Act.run_bind]
    obtain ⟨r, src', _, ⟨e, hrun⟩ | hrun⟩ := isLocalScene_cases hf ⟨.text place, scene₀⟩ name n
      ((atlas.location (.text name)).run src).2
    . rw [hrun]
      exact hn
    . rw [hrun, hfound place hplace]
      exact keeps_moveTo_inside hf hplace _ _ hn

end Navigation

/-! ### What is played -/

theorem Value.orNull_of_isGiven {v w : Value ρ} (h : v.isGiven = true) : v.orNull w = v := by
  cases v with
  | null => cases h
  | _ => rfl

namespace Effect

/-- The targets of the jumps among actions. -/
def jumps (effects : List (Effect ρ)) : List (Value ρ) :=
  (effects.map outcome).filter fun v => !v.isNull

/-- All that the playing of a definition may come to: the targets of its jumps, or another outcome
where it has none. -/
def outcomes (definition otherwise : Value ρ) : List (Value ρ) :=
  if (jumps (ofValue definition)).isEmpty then [otherwise] else jumps (ofValue definition)

theorem mem_outcomes {definition otherwise v : Value ρ}
    : v ∈ outcomes definition otherwise
      ↔ v ∈ jumps (ofValue definition) ∨ jumps (ofValue definition) = [] ∧ v = otherwise := by
  unfold outcomes
  split
  next hnone =>
    rw [List.isEmpty_iff.mp hnone]
    simp
  next hsome =>
    rw [List.isEmpty_iff] at hsome
    simp [hsome]

/-- Where a token stands in for a missing definition and is a jump to the other outcome, that outcome
is all that may come of it, or all that may come of it are jumps of the definition. -/
theorem outcomes_orElse (definition : Value ρ) {token otherwise : Value ρ}
    (htoken : jumps (ofValue token) = [otherwise])
    : (∀ outcome ∈ outcomes (definition.orElse token) otherwise, outcome = otherwise)
      ∨ definition.isGiven = true ∧ ∀ outcome ∈ outcomes (definition.orElse token) otherwise,
        outcome ∈ jumps (ofValue definition) := by
  simp only [mem_outcomes]
  unfold Value.orElse
  split
  next hgiven =>
    by_cases hnone : jumps (ofValue definition) = []
    . left
      simp [hnone]
    . right
      simp [hnone, hgiven]
  next =>
    left
    simp [htoken]

omit [Scalar ρ] in
theorem jumps_cons_of_still {effect : Effect ρ} (h : effect.Still) (effects : List (Effect ρ))
    : jumps (effect :: effects) = jumps effects := by
  unfold jumps
  rw [List.map_cons, outcome_of_still h]
  rfl

omit [Scalar ρ] in
theorem outcome_mem_jumps {effects : List (Effect ρ)} {location : String} {scene : Option String}
    (h : .go location scene ∈ effects)
    : .target (.text location) (.ofText? scene) ∈ jumps effects :=
  List.mem_filter.mpr ⟨List.mem_map_of_mem h, rfl⟩

/-- Where an outcome of an option leads does not depend on where the player is. -/
theorem destination_of_mem {definition v : Value ρ} {id : String}
    (h : v ∈ outcomes definition (.text id)) (here : Value ρ)
    : Navigation.destination here v = Navigation.destination .null v := by
  rcases mem_outcomes.mp h with hjump | ⟨_, rfl⟩
  . obtain ⟨effect, _, rfl⟩ := List.mem_map.mp (List.mem_filter.mp hjump).1
    cases effect <;> rfl
  . rfl

theorem jumps_of_compile {definition cost : Value ρ} {effects : List (Effect ρ)}
    (h : compile definition cost = .ok effects) : jumps effects = jumps (ofValue definition) := by
  obtain ⟨hours?, _, h⟩ := Fault.bind_eq_ok.mp h
  obtain ⟨own, hown, h⟩ := Fault.bind_eq_ok.mp h
  obtain rfl := Except.ok.inj h
  unfold read at hown
  split at hown
  . obtain rfl := Except.ok.inj hown
    cases hours? with
    | none => rfl
    | some hours =>
      dsimp only
      split
      . rfl
      . rfl
  . cases hown

end Effect

namespace Session

open Navigation (Inside Confines)

variable {content : Content ρ σ} {f : Value ρ → Except Fault (Value ρ)} {region : List String}

theorem keeps_perform_inside (hf : Answers f content.location) {effect : Effect ρ}
    (h : Confines f region effect.outcome)
    : Act.Keeps (fun s => Inside region s.navigation) ((crew content).perform effect) := by
  intro s hs
  rcases effect.still_or_go with hstill | ⟨location, scene, rfl⟩
  . have hstays := keeps_perform_navigation content hstill s.navigation s rfl
    dsimp only at hstays ⊢
    rw [hstays]
    exact hs
  . change Inside region ((publish content Topic.go (.value _)).run s).2.navigation
    rw [run_publish_go, run_navigate]
    exact Navigation.keeps_apply_inside hf h (s.navigation, s.sources) hs

/-- Jumps are never passed over, so the outcome is the target of one if there is any. -/
theorem ends_performAll (effects : List (Effect ρ)) (last : Value ρ)
    : Act.Ends (fun v => v ∈ Effect.jumps effects ∨ Effect.jumps effects = [] ∧ v = last)
      ((crew content).performAll last effects) := by
  induction effects generalizing last with
  | nil => exact Act.ends_pure (.inr ⟨rfl, rfl⟩)
  | cons effect effects ih =>
    intro s v hv
    unfold Crew.performAll at hv
    rw [Act.run_bind, Act.run_attempt] at hv
    rcases effect.still_or_go with hstill | ⟨location, scene, rfl⟩
    . rw [Effect.jumps_cons_of_still hstill]
      cases houtcome : (((crew content).perform effect).run s).1 with
      | error e =>
        rw [houtcome] at hv
        exact ih last _ v hv
      | ok w =>
        have hnull : w = .null :=
          ((crew content).ends_perform effect s w houtcome).trans (Effect.outcome_of_still hstill)
        rw [houtcome, hnull] at hv
        exact ih last _ v hv
    . left
      rcases ih (.target (.text location) (.ofText? scene)) _ v hv with hmem | ⟨_, rfl⟩
      . exact List.mem_cons_of_mem _ hmem
      . exact List.mem_cons_self

end Session

namespace Turn

/-- All that a decision may come to. -/
def Decision.outcomes : Decision ρ → List (Value ρ)
  | .nothing => [.null]
  | .exit => [.text exitId]
  | .play definition _ otherwise => Effect.outcomes definition otherwise

end Turn

namespace Session

open Navigation (Inside Confines)

variable {content : Content ρ σ} {f : Value ρ → Except Fault (Value ρ)} {region : List String}
  {decision : Turn.Decision ρ}

theorem ends_carryOut (content : Content ρ σ) (decision : Turn.Decision ρ)
    : Act.Ends (· ∈ decision.outcomes) (decision.carryOut (crew content).interpret) := by
  cases decision with
  | nothing => exact Act.ends_pure List.mem_cons_self
  | exit => exact Act.ends_pure List.mem_cons_self
  | play definition time otherwise =>
    refine Act.Ends.bind (Q := fun v => v ∈ Effect.jumps (Effect.ofValue definition)
      ∨ Effect.jumps (Effect.ofValue definition) = [] ∧ v = .null) ?_ fun v hv => Act.ends_pure ?_
    . refine (Act.ends_lift fun effects h => h).bind fun effects hcompile => ?_
      rw [← Effect.jumps_of_compile hcompile]
      exact ends_performAll effects .null
    . apply Effect.mem_outcomes.mpr
      rcases hv with hmem | ⟨hnone, rfl⟩
      . have hsome : v.isNull = false := by simpa using (List.mem_filter.mp hmem).2
        left
        unfold Value.orNull
        rw [hsome, if_neg Bool.false_ne_true]
        exact hmem
      . exact .inr ⟨hnone, rfl⟩

theorem keeps_carryOut_inside (hf : Answers f content.location)
    (h : ∀ outcome ∈ decision.outcomes, Confines f region outcome)
    : Act.Keeps (fun s => Inside region s.navigation)
      (decision.carryOut (crew content).interpret) := by
  cases decision with
  | nothing => apply Act.keeps_pure
  | exit => apply Act.keeps_pure
  | play definition time otherwise =>
    refine Act.keeps_bind ?_ fun result => Act.keeps_pure _
    refine Act.keeps_bind_of_ends (Act.keeps_lift _) (Act.ends_lift fun effects h => h)
      fun effects hcompile => Crew.keeps_performAll (fun effect hmem => ?_) .null
    apply keeps_perform_inside hf
    rcases effect.still_or_go with hstill | ⟨location, scene, rfl⟩
    . rw [Effect.outcome_of_still hstill]
      exact .nowhere fun _ => rfl
    . have hjump := Effect.outcome_mem_jumps hmem
      rw [Effect.jumps_of_compile hcompile] at hjump
      exact h _ (Effect.mem_outcomes.mpr (.inl hjump))

theorem keeps_conclude_inside (hf : Answers f content.location)
    (h : ∀ outcome ∈ decision.outcomes, Confines f region outcome)
    : Act.Keeps (fun seat : Turn.Seat ρ (Session ρ σ) V => Inside region seat.play.navigation)
      (conclude content decision) := by
  have happly (result : Value ρ) (hresult : Confines f region result) :
      Act.Keeps (fun s => Inside region s.navigation)
        (navigate content fun atlas => Navigation.apply atlas result) := by
    intro s hs
    rw [run_navigate]
    exact Navigation.keeps_apply_inside hf hresult (s.navigation, s.sources) hs
  unfold conclude
  refine Act.keeps_bind_of_ends (Turn.keeps_onPlay (keeps_carryOut_inside hf h))
    (Turn.ends_onPlay (ends_carryOut content decision)) fun result hresult => ?_
  exact Act.keeps_bind (Turn.keeps_onPlay (happly result (h result hresult))) fun _ =>
    Act.keeps_pure _

end Session

/-! ### What can be decided on -/

namespace Turn

variable {S : Type}

/-- What can be decided on in a scene: nothing, the exit, an option of its location, or a way of its
path. -/
inductive OnOffer (content : Content ρ S) (scene : Scene ρ) : Decision ρ → Prop where
  | nothing : OnOffer content scene .nothing
  | exit : OnOffer content scene .exit
  | option (row : Record ρ) (id : String) (time : Value ρ)
    (hread : ∃ key s, ((content.option? scene.location key).run s).1 = .ok (some row))
    (hid : Menu.rowId row = .ok id) :
    OnOffer content scene (.play ((Menu.effectOf row).orNull (.text id)) time (.text id))
  | way (location : String) (row : Record ρ) (time : Value ρ) (hlocation : location ∈ scene.path)
    (hread : ∃ s found, ((content.option? scene.location (goId ++ ":" ++ location)).run s).1
      = .ok found ∧ row = found.getD []) :
    OnOffer content scene (.play ((Menu.effectOf row).orElse (.text (goId ++ ":" ++ location))) time
      (.target (.text location) .null))

variable {stage : Stage ρ S} {view : View ρ V} {scene : Scene ρ}

theorem OnOffer.of_within {content : Content ρ σ} {part : S → σ} {put : σ → S → S}
    {decision : Decision ρ} (h : OnOffer (content.within part put) scene decision)
    : OnOffer content scene decision := by
  cases h with
  | nothing => exact .nothing
  | exit => exact .exit
  | option row id time hread hid =>
    obtain ⟨key, s, hread⟩ := hread
    exact .option row id time ⟨key, part s, hread⟩ hid
  | way location row time hlocation hread =>
    obtain ⟨s, found, hread⟩ := hread
    exact .way location row time hlocation ⟨part s, found, hread⟩

theorem ends_round (hview : view.Fair)
    : Act.Ends (fun decision? => ∀ decision ∈ decision?, OnOffer stage.content scene decision)
      (round stage view scene) := by
  intro seat decision? hround
  obtain ⟨choices, dto, answer, play, v, _, hchoices, hoptions, hflaw, hshown, hheed⟩ :=
    round_eq_ok (.all stage) trivial (Prod.ext hround rfl)
  have hbrings := heed_brings hheed
  generalize hreply : Reply.of choices answer = reply at hbrings
  cases hbrings with
  | nothing =>
    rintro _ ⟨⟩
    exact .nothing
  | exit =>
    rintro _ ⟨⟩
    exact .exit
  | talk id => simp
  | pack => simp
  | stay details ways picked htravels hpicked => simp
  | leave details ways c location time htravels hc _ _ hlocation =>
    rintro _ ⟨⟩
    obtain ⟨location', hmem, row, hopens⟩ := Menu.ends_pathChoices scene seat.npc details play ways
      htravels.1 c hc
    obtain ⟨_, hread, _, hlocation', heffect⟩ := hopens
    rw [hlocation', Value.text?_text] at hlocation
    obtain rfl := Except.ok.inj hlocation
    unfold leads
    rw [hlocation', heffect]
    exact .way location' row time hmem hread
  | option id details =>
    rintro _ ⟨⟩
    obtain ⟨c, hc, rfl⟩ := hview.mem_of_option hoptions hflaw hshown hreply
    have hholds := Menu.ends_choices scene seat.npc seat.play choices hchoices
    obtain ⟨_, _, _, _, _, _, hid, hread⟩ := open_of_option hholds hc hreply
    exact .option details id _ hread hid

theorem ends_decide (hview : view.Fair) (fuel : Nat)
    : Act.Ends (OnOffer stage.content scene) (decide stage view scene fuel) := by
  induction fuel with
  | zero => exact Act.ends_pure .nothing
  | succ fuel ih =>
    unfold decide
    refine (ends_round hview).bind fun decision? hdecision => ?_
    cases decision? with
    | none => exact ih
    | some decision => exact Act.ends_pure (hdecision decision rfl)

end Turn

/-! ### Turns inside a story -/

namespace Session

open Navigation (Inside)

variable {content : Content ρ σ} {f : Value ρ → Except Fault (Value ρ)}

/-- The scene that is played is that of the player's location. -/
theorem scene_eq (hf : Answers f content.location) {s : Session ρ σ} {scene : Scene ρ}
    (h : ((scene? content).run s).1 = .ok (some scene))
    : ∃ p, s.navigation.pointer = some p
      ∧ ∃ v, scene = Atlas.scene (infoOf f p.location) ⟨p.location, v⟩ := by
  have hatlas : Answers f (atlas content s).location := hf
  unfold scene? at h
  rw [run_navigate] at h
  rcases Navigation.current_cases hatlas s.navigation s.sources with
    ⟨_, hrun⟩ | ⟨p, r, src', hp, _, ⟨e, hrun⟩ | ⟨v, _, hrun⟩⟩
  . rw [hrun] at h
    cases h
  . rw [hrun] at h
    cases h
  . rw [hrun] at h
    obtain ⟨read, hread, heq⟩ := Fault.map_eq_ok.mp h
    obtain rfl := Option.some.inj heq
    exact ⟨p, hp, v, Atlas.eq_of_read hread⟩

end Session

namespace Scenario

open Navigation (Inside Confines)

/-- All that can be played in a story leads inside its locations: the options of a location do, and a
way is read as the jump to the location that it leads to. -/
structure Enclosed (ρ : Type) [Scalar ρ] (files : Files) (root : Path) : Prop where
  options : ∀ location ∈ locationIds files (locationsIn root), ∀ rows : Table (Record ρ),
    optionsOf files root location = .ok rows → ∀ id row, (id, row) ∈ rows →
      ∃ region, location ∈ region ∧ (∀ name ∈ region, name ∈ locationIds files (locationsIn root))
        ∧ ∀ outcome ∈ Effect.outcomes ((Menu.effectOf row).orNull (.text id)) (.text id),
          Confines (answerOf files root) region outcome
  ways : ∀ location ∈ locationIds files (locationsIn root),
    Effect.ofValue (.text (goId ++ ":" ++ location) : Value ρ) = [.go location none]

variable {files : Files} {root : Path}

theorem rowId_of_mem {location : String} {rows : Table (Record ρ)}
    (h : optionsOf files root location = .ok rows) {id : String} {row : Record ρ}
    (hrow : (id, row) ∈ rows) : Menu.rowId row = .ok id := by
  unfold optionsOf options at h
  split at h
  . obtain rfl := Except.ok.inj h
    cases hrow
  . obtain ⟨v, _, h⟩ := Fault.bind_eq_ok.mp h
    obtain rfl := Except.ok.inj h
    unfold optionTable at hrow
    obtain ⟨⟨id', v'⟩, _, hrow⟩ := List.mem_filterMap.mp hrow
    obtain ⟨r, _, heq⟩ := Option.map_eq_some_iff.mp hrow
    obtain ⟨rfl, rfl⟩ := Prod.mk.inj heq
    unfold Menu.rowId Record.field
    rw [Table.get?_set_self]
    dsimp only [Option.getD_some]
    unfold Value.orElse
    split
    . exact Value.text?_text id'
    next hnot =>
      rw [Value.isGiven_text, not_not] at hnot
      rw [hnot, Value.text?_text]

/-- All that can be decided on in a scene of a location leads inside the story. -/
theorem Enclosed.confines (h : Enclosed ρ files root) {location : String} {info : Record ρ}
    {options npcs : Table (Record ρ)}
    (hmem : location ∈ locationIds files (locationsIn root))
    (hchecked : Checked files root location info options npcs) {v : Value ρ}
    {decision : Turn.Decision ρ}
    (hoffer : Turn.OnOffer (filed files root : Content ρ σ) (Atlas.scene info ⟨.text location, v⟩)
      decision)
    : ∃ region, location ∈ region ∧ (∀ name ∈ region, name ∈ locationIds files (locationsIn root))
      ∧ ∀ outcome ∈ decision.outcomes, Confines (answerOf files root) region outcome := by
  have hscene : (Atlas.scene info ⟨.text location, v⟩).location = location := by
    change (Value.text location : Value ρ).display = location
    exact Value.display_text location
  have hhere : ∀ name ∈ [location], name ∈ locationIds files (locationsIn root) := by
    simpa using hmem
  cases hoffer with
  | nothing =>
    refine ⟨[location], List.mem_cons_self, hhere, fun outcome houtcome => .nowhere fun _ => ?_⟩
    rw [List.mem_singleton.mp houtcome]
    rfl
  | exit =>
    refine ⟨[location], List.mem_cons_self, hhere, fun outcome houtcome => .nowhere fun _ => ?_⟩
    rw [List.mem_singleton.mp houtcome]
    rfl
  | option row id time hread hid =>
    obtain ⟨key, s, hrow⟩ := hread
    rw [hscene, run_filed_option? hchecked.optionsOf_eq] at hrow
    have hrow' := Table.mem_of_get? (Except.ok.inj hrow)
    rw [rowId_of_mem hchecked.optionsOf_eq hrow'] at hid
    obtain rfl := Except.ok.inj hid
    exact h.options location hmem options hchecked.optionsOf_eq key row hrow'
  | way place row time hplace hread =>
    have hplaces : ∀ name ∈ [location, place], name ∈ locationIds files (locationsIn root) := by
      simpa using ⟨hmem, hchecked.sound.way_mem _ place hplace⟩
    obtain ⟨s, found, hfound, rfl⟩ := hread
    rw [hscene, run_filed_option? hchecked.optionsOf_eq] at hfound
    obtain rfl := Except.ok.inj hfound
    generalize hrow : Table.get? options (goId ++ ":" ++ place) = found
    have htoken : Effect.jumps (Effect.ofValue (.text (goId ++ ":" ++ place) : Value ρ))
        = [.target (.text place) .null] := by
      rw [h.ways place (hplaces place (by simp))]
      rfl
    rcases Effect.outcomes_orElse (Menu.effectOf (found.getD [])) htoken with
      htarget | ⟨hgiven, hjumps⟩
    . refine ⟨[location, place], List.mem_cons_self, hplaces, fun outcome houtcome => ?_⟩
      rw [htarget outcome houtcome]
      exact .place place (by simp) fun _ => rfl
    . cases found with
      | none => cases hgiven
      | some row =>
        rw [Option.getD_some] at hgiven hjumps
        obtain ⟨region, hin, hregion, hconfines⟩ := h.options location hmem options
          hchecked.optionsOf_eq _ row (Table.mem_of_get? hrow)
        refine ⟨region, hin, hregion, fun outcome houtcome => hconfines outcome ?_⟩
        rw [Value.orNull_of_isGiven hgiven]
        exact Effect.mem_outcomes.mpr (.inl (hjumps outcome houtcome))

/-- In a story in which nothing is found, and whose jumps lead inside it, no turn leaves its
locations. -/
theorem keeps_turn_inside (h : findings ρ files root = .ok []) (henclosed : Enclosed ρ files root)
    {view : View ρ V} (hview : view.Fair)
    : Act.Keeps (fun seat : Turn.Seat ρ (Session ρ σ) V =>
        Inside (locationIds files (locationsIn root)) seat.play.navigation)
      (Session.turn (filed files root) view) := by
  have hf : Answers (answerOf files root) (filed files root : Content ρ σ).location :=
    answers_filed files root
  rintro seat ⟨location, hmem, scene₀, hpointer⟩
  have hponder : Inside [location]
      ((Session.ponder (filed files root) view).run seat).2.play.navigation :=
    Session.keeps_ponder (fun _ => Navigation.keeps_current_inside hf [location]) view seat
      ⟨location, List.mem_cons_self, scene₀, hpointer⟩
  have hstory : ∀ name ∈ [location], name ∈ locationIds files (locationsIn root) := by
    simpa using hmem
  rw [Session.turn_eq, Act.run_bind]
  rcases hrun : (Session.ponder (filed files root) view).run seat with ⟨e | decision?, mid⟩
  . rw [hrun] at hponder
    exact hponder.mono hstory
  rw [hrun] at hponder
  cases decision? with
  | none => exact hponder.mono hstory
  | some decision =>
    obtain ⟨scene, fuel, seat', hscene, hdecide⟩ := Session.ponder_eq_ok hrun
    obtain ⟨p, hp, v, rfl⟩ := Session.scene_eq hf hscene
    obtain rfl := Option.some.inj (hpointer.symm.trans hp)
    obtain ⟨info, options, npcs, hchecked⟩ := checked_of_findings h hmem
    rw [infoOf_answerOf hchecked.told] at hdecide
    have hoffer := Turn.ends_decide hview fuel seat' decision (congrArg Prod.fst hdecide)
    obtain ⟨region, hin, hregion, hconfines⟩ := henclosed.confines hmem hchecked hoffer.of_within
    have hmid : Inside region mid.play.navigation := hponder.mono (by simpa using hin)
    exact (Session.keeps_conclude_inside hf hconfines mid hmid).mono hregion

end Scenario

namespace Session

/-- The sessions that turns lead to while nothing is picked in a scene but what is offered there; a
turn that stops counts too. -/
inductive FairTurns (content : Content ρ σ) (s : Session ρ σ) : Session ρ σ → Prop where
  | none : FairTurns content s s
  | turn {t : Session ρ σ} (h : FairTurns content s t) {V : Type} (view : View ρ V)
    (hview : view.Fair) (npc : Value ρ) (v : V) :
    FairTurns content s (Act.run (Session.turn content view) ⟨t, npc, v⟩).2.play

section

variable {content : Content ρ σ}

theorem FairTurns.turns {s t : Session ρ σ} (h : FairTurns content s t) : Turns content s t := by
  induction h with
  | none => exact .none
  | turn _ view _ npc v ih => exact .turn ih view npc v

variable {τ : Type} {R : σ → τ → Prop} {content' : Content ρ τ}

/-- A session over sources that answer alike starts alike. -/
theorem start_mirrored (h : content.Mirrors R content') {sources : σ} (sources' : τ)
    (hsources : R sources sources') {traits : TraitBook ρ} {clock : Clock ρ} {place : Value ρ}
    {s : Session ρ σ} (hs : start content sources traits clock place = .ok s)
    : ∃ s', start content' sources' traits clock place = .ok s' ∧ Mirrored R s s' := by
  have hgoes : Act.Mirrors (Mirrored R)
      (navigate content fun atlas => Navigation.start atlas place)
      (navigate content' fun atlas => Navigation.start atlas place) :=
    mirrors_navigate fun _ => Navigation.mirrors_start h.location place
  have hstarts (fresh : Session ρ σ) (hfresh : R fresh.sources sources') {a : Unit}
      (hrun : ((navigate content fun atlas => Navigation.start atlas place).run fresh)
        = (.ok a, s)) :
      ∃ s', ((navigate content' fun atlas => Navigation.start atlas place).run
        (fresh.withSources sources')) = (.ok a, s') ∧ Mirrored R s s' := by
    obtain ⟨hresult, hstate⟩ := hgoes fresh (fresh.withSources sources') (.intro hfresh)
    rw [hrun] at hresult hstate
    exact ⟨_, Prod.ext hresult.symm rfl, hstate⟩
  unfold start at hs ⊢
  dsimp only at hs ⊢
  split at hs
  next hrun =>
    obtain rfl := Except.ok.inj hs
    obtain ⟨s', hrun', hmirrored⟩ := hstarts _ hsources hrun
    refine ⟨s', ?_, hmirrored⟩
    dsimp only [withSources] at hrun'
    rw [hrun']
  next => cases hs

theorem FairTurns.mirrored (h : content.Mirrors R content') {s t : Session ρ σ} {s' : Session ρ τ}
    (hs : Mirrored R s s') (ht : FairTurns content s t)
    : ∃ t', FairTurns content' s' t' ∧ Mirrored R t t' := by
  induction ht with
  | none => exact ⟨s', .none, hs⟩
  | turn _ view hview npc v ih =>
    obtain ⟨t', ht', hmirrored⟩ := ih
    exact ⟨_, .turn ht' view hview npc v,
      (mirrors_turn h view _ _ (.intro hmirrored npc v)).2.play⟩

end

end Session

namespace Scenario

variable {files : Files} {root : Path}

/-- A player who starts in a story in which nothing is found, and whose jumps lead inside it, is in
a scene of one of its locations after every turn, as long as nothing is picked but what is offered. -/
theorem turns_stay_inside (h : findings ρ files root = .ok []) (henclosed : Enclosed ρ files root)
    {c : Catalogue ρ} (hc : c.Coherent files root) {traits : TraitBook ρ} {clock : Clock ρ}
    {place : Value ρ} {s₀ s : Session ρ (Catalogue ρ)}
    (hstart : Session.start (Catalogue.content root) c traits clock place = .ok s₀)
    (hhere : Navigation.Inside (locationIds files (locationsIn root)) s₀.navigation)
    (hs : Session.FairTurns (Catalogue.content root) s₀ s)
    : ∃ location ∈ locationIds files (locationsIn root), ∃ info : Record ρ,
      toldOf files root (.text location) = .ok info ∧ ∃ scene ∈ Atlas.scenes info,
        s.navigation.pointer = some ⟨.text location, .text (Atlas.sceneId scene)⟩ := by
  have hmirrors := Catalogue.mirrors_filed (ρ := ρ) (σ := Unit) files root
  obtain ⟨s₀', hstart', hmirrored₀⟩ := Session.start_mirrored hmirrors () hc hstart
  obtain ⟨s', hs', hmirrored⟩ := hs.mirrored hmirrors hmirrored₀
  have hnavigation₀ : s₀'.navigation = s₀.navigation := by
    cases hmirrored₀
    rfl
  have hnavigation : s'.navigation = s.navigation := by
    cases hmirrored
    rfl
  have hinside : Navigation.Inside (locationIds files (locationsIn root)) s'.navigation := by
    clear hmirrored hnavigation
    induction hs' with
    | none =>
      rw [hnavigation₀]
      exact hhere
    | turn _ view hview npc v ih => exact keeps_turn_inside h henclosed hview _ ih
  obtain ⟨location, hmem, v, hpointer⟩ := hinside
  obtain ⟨info, options, npcs, hchecked⟩ := checked_of_findings h hmem
  have hvalid := Session.allValid (answers_filed files root) hstart' hs'.turns _ (.inl hpointer)
  have hdeclared := hvalid.declared
  dsimp only at hdeclared
  rw [infoOf_answerOf hchecked.told] at hdeclared
  obtain ⟨scene, hscene, rfl⟩ := hdeclared hchecked.sound.inhabited
  exact ⟨location, hmem, info, hchecked.told, scene, hscene, hnavigation ▸ hpointer⟩

/-- The jump of the inn leads back to it, and so the player stays there for a turn, whatever lines are
typed. -/
theorem turns_stay_inside_inn
    : findings Rat innFiles ["scenario"] = .ok [] ∧ Enclosed Rat innFiles ["scenario"]
      ∧ ∃ s₀ : Session Rat (Catalogue Rat), Session.start (Catalogue.content ["scenario"])
          (Catalogue.ofFiles innFiles) {} {} (.object [("locationId", .text "inn")]) = .ok s₀
        ∧ ∀ lines : List String, ∃ info : Record Rat,
          toldOf innFiles ["scenario"] (.text "inn") = .ok info ∧ ∃ scene ∈ Atlas.scenes info,
            ((Session.turn (Catalogue.content ["scenario"]) Terminal.view).run
              ⟨s₀, .null, { lines }⟩).2.play.navigation.pointer
                = some ⟨.text "inn", .text (Atlas.sceneId scene)⟩ := by
  have henclosed : Enclosed Rat innFiles ["scenario"] := by
    have hjumps : ((optionsOf innFiles ["scenario"] "inn").toOption.all fun rows => rows.all fun row =>
        (Effect.outcomes ((Menu.effectOf row.2).orNull (.text row.1)) (.text row.1 : Value Rat)).all
          fun outcome => Turn.isId (Navigation.destination .null outcome).1 "inn") = true := by
      decide +kernel
    rw [Option.all_eq_true] at hjumps
    constructor
    . rw [locationIds_innFiles]
      intro location hmem rows hrows id row hrow
      obtain rfl := List.mem_singleton.mp hmem
      refine ⟨["inn"], hmem, fun name hname => hname, fun outcome houtcome => ?_⟩
      have hoption := List.all_eq_true.mp (hjumps rows (by rw [hrows]; rfl)) _ hrow
      have hleads := List.all_eq_true.mp hoption outcome houtcome
      refine .place "inn" List.mem_cons_self fun here => ?_
      rw [Effect.destination_of_mem houtcome]
      exact Turn.isId_iff.mp hleads
    . rw [locationIds_innFiles]
      intro location hmem
      obtain rfl := List.mem_singleton.mp hmem
      rfl
  have hstarts : ((Session.start (Catalogue.content ["scenario"]) (Catalogue.ofFiles innFiles) {} {}
      (.object [("locationId", .text "inn")]) : Except Fault (Session Rat _)).toOption.any fun s₀ =>
        s₀.navigation.pointer.any fun p => Turn.isId p.location "inn") = true := by decide +kernel
  obtain ⟨s₀, hstart, hpointer⟩ := Fault.any_eq_true.mp hstarts
  obtain ⟨p, hp, hlocation⟩ := (Option.any_eq_true _ _).mp hpointer
  have hhere : Navigation.Inside (locationIds innFiles (locationsIn ["scenario"])) s₀.navigation := by
    refine ⟨"inn", by simp [locationIds_innFiles], p.scene, ?_⟩
    rw [hp, ← Turn.isId_iff.mp hlocation]
  refine ⟨findings_innFiles, henclosed, s₀, hstart, fun lines => ?_⟩
  obtain ⟨location, hmem, hinfo⟩ := turns_stay_inside findings_innFiles henclosed
    (Catalogue.coherent_ofFiles innFiles ["scenario"]) hstart hhere
    (.turn .none Terminal.view Terminal.view_fair .null { lines })
  rw [locationIds_innFiles, List.mem_singleton] at hmem
  rw [← hmem]
  exact hinfo

/-- A player who starts at the location of a story in which nothing is found comes to this place in a
fair turn, and it is no location of the story. -/
def Strays (files : Files) (place : String) : Prop :=
  findings Rat files ["scenario"] = .ok [] ∧ ∃ s₀ s : Session Rat (Catalogue Rat),
    Session.start (Catalogue.content ["scenario"]) (Catalogue.ofFiles files) {} {}
      (.object [("locationId", .text "a:b")]) = .ok s₀
    ∧ Navigation.Inside (locationIds files (locationsIn ["scenario"])) s₀.navigation
    ∧ Session.FairTurns (Catalogue.content ["scenario"]) s₀ s
    ∧ s.location = .text place ∧ place ∉ locationIds files (locationsIn ["scenario"])

theorem strays_of_turn {files : Files} {place : String} (lines : List String)
    (hfindings : (findings Rat files ["scenario"]).toOption = some [])
    (hids : locationIds files (locationsIn ["scenario"]) = ["a:b"]) (hplace : place ≠ "a:b")
    (hturn : ((Session.start (Catalogue.content ["scenario"]) (Catalogue.ofFiles files) {} {}
      (.object [("locationId", .text "a:b")]) : Except Fault (Session Rat _)).toOption.any fun s₀ =>
        s₀.navigation.pointer.any (fun p => Turn.isId p.location "a:b")
          && Turn.isId ((Session.turn (Catalogue.content ["scenario"]) Terminal.view).run
            ⟨s₀, .null, { lines }⟩).2.play.location place) = true)
    : Strays files place := by
  obtain ⟨s₀, hstart, hmoves⟩ := Fault.any_eq_true.mp hturn
  obtain ⟨hpointer, hlocation⟩ := Bool.and_eq_true_iff.mp hmoves
  obtain ⟨p, hp, hhere⟩ := (Option.any_eq_true _ _).mp hpointer
  refine ⟨Fault.eq_ok_of_toOption hfindings, s₀, _, hstart, ⟨"a:b", ?_, p.scene, ?_⟩,
    .turn .none Terminal.view Terminal.view_fair .null { lines }, Turn.isId_iff.mp hlocation, ?_⟩
  . simp [hids]
  . rw [hp, ← Turn.isId_iff.mp hhere]
  . simpa [hids] using hplace

/-- A story of one location, which has an option of this id and a way to itself. -/
def strayFiles (option : String) : Files :=
  let info := "\x7b\"scenes\":[\x7b\"id\":\"hall\",\"optionIds\":[\"" ++ option
    ++ "\"]\x7d],\"path\":[\"a:b\"]\x7d"
  let options := "\x7b\"" ++ option ++ "\":\x7b\"name\":\"Leave\",\"effect\":\"go:nowhere\"\x7d\x7d"
  ⟨[(["scenario", "locations", "a:b", "info.json"], .file info.toUTF8),
    (["scenario", "locations", "a:b", "options.json"], .file options.toUTF8)]⟩

/-- Both the jump of an option and the token of a way can lead out of a story in which nothing is
found. -/
theorem accepted_strays : Strays (strayFiles "leave") "nowhere" ∧ Strays (strayFiles "go") "a" :=
  ⟨strays_of_turn ["leave"] (by decide +kernel) (by decide +kernel) (by decide) (by decide +kernel),
    strays_of_turn ["go", "1"] (by decide +kernel) (by decide +kernel) (by decide)
      (by decide +kernel)⟩

end Scenario

end Storyworld
