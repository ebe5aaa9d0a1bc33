import Storyworld.Proofs.Picks
import Storyworld.Terminal

/-!
This module contains what a player at a terminal can have played. A menu holds only what its
requirements let through, an answer at a terminal is an entry of the menu that is shown, and a turn
plays what that entry says; so nothing that is locked is ever played.
-/

namespace Storyworld

variable {ρ S V : Type} [Scalar ρ]

/-! ### What a menu holds -/

namespace Menu

variable {stall : Stall ρ S}

/-- The entries of a menu: people, options of the location that requirements let through, the pack
and the exit. -/
inductive Holds (stall : Stall ρ S) (scene : Scene ρ) (npc : Value ρ) : Choice ρ → Prop where
  | talk (id name : String) (details : Record ρ) :
    Holds stall scene npc ⟨talkStart ++ id, name, details⟩
  | option (c : Choice ρ)
    (hread : ∃ id s, ((stall.content.option? scene.location id).run s).1 = .ok (some c.details))
    (hid : rowId c.details = .ok c.id)
    (hopen : open? stall (envOf scene npc) c.details = .ok true) : Holds stall scene npc c
  | pack : Holds stall scene npc ⟨packId, "Inventory", []⟩
  | exit : Holds stall scene npc ⟨exitId, "Exit", []⟩

theorem holds_talkChoice {scene : Scene ρ} {npc : Value ρ} {row : Record ρ} {c : Choice ρ}
    (h : talkChoice stall (envOf scene npc) row = .ok (some c)) : Holds stall scene npc c := by
  unfold talkChoice at h
  obtain ⟨id, _, h⟩ := Fault.bind_eq_ok.mp h
  split at h
  . cases h
  obtain ⟨isOpen, _, h⟩ := Fault.bind_eq_ok.mp h
  dsimp only at h
  split at h
  . cases h
  obtain ⟨name, _, h⟩ := Fault.bind_eq_ok.mp h
  cases h
  exact .talk id _ _

theorem holds_optionChoice {scene : Scene ρ} {npc : Value ρ} {row : Record ρ} {c : Choice ρ}
    (hread : ∃ id s, ((stall.content.option? scene.location id).run s).1 = .ok (some row))
    (h : optionChoice stall (envOf scene npc) row = .ok (some c)) : Holds stall scene npc c := by
  unfold optionChoice at h
  obtain ⟨id, hid, h⟩ := Fault.bind_eq_ok.mp h
  split at h
  . cases h
  obtain ⟨isOpen, hopen, h⟩ := Fault.bind_eq_ok.mp h
  split at h
  . cases h
  next hpasses =>
    obtain ⟨name, _, h⟩ := Fault.bind_eq_ok.mp h
    cases h
    rw [Bool.not_eq_true, Bool.not_eq_false'] at hpasses
    exact .option _ hread hid (hpasses ▸ hopen)

omit [Scalar ρ] in
theorem ends_options (content : Content ρ S) (location : String) (ids : List String)
    : Act.Ends (fun rows => ∀ row ∈ rows,
        ∃ id s, ((content.option? location id).run s).1 = .ok (some row))
      (content.options location ids) := by
  induction ids with
  | nil => exact Act.ends_pure (by simp)
  | cons id ids ih =>
    unfold Content.options
    refine (Act.ends_self _).bind fun found hread => ?_
    obtain ⟨s, hfound⟩ := hread
    refine ih.bind fun rest hrest => Act.ends_pure fun row hrow => ?_
    rcases List.mem_append.mp hrow with hrow | hrow
    . rw [Option.mem_toList] at hrow
      obtain rfl := hrow
      exact ⟨id, s, hfound⟩
    . exact hrest row hrow

theorem ends_optionChoices (scene : Scene ρ) (npc : Value ρ) (ids : List String)
    : Act.Ends (fun cs => ∀ c ∈ cs, Holds stall scene npc c)
      (optionChoices stall (envOf scene npc) scene.location ids) := by
  refine (ends_options stall.content scene.location ids).bind fun rows hrows => ?_
  refine Act.ends_lift fun cs hcs c hc => ?_
  obtain ⟨row, hmem, hrow⟩ := Fault.of_mem_filterMapM hcs hc
  exact holds_optionChoice (hrows row hmem) hrow

theorem ends_choices (scene : Scene ρ) (npc : Value ρ)
    : Act.Ends (fun cs => ∀ c ∈ cs, Holds stall scene npc c) (choices stall scene npc) := by
  have hentries : Act.Ends (fun cs => ∀ c ∈ cs, Holds stall scene npc c)
      (entries stall scene npc) := by
    unfold entries
    refine Act.ends_bind fun people => ?_
    refine (Act.ends_lift fun talks h => h).bind fun talks htalks => ?_
    have htalk (c : Choice ρ) (hc : c ∈ talks) : Holds stall scene npc c := by
      obtain ⟨row, _, hrow⟩ := Fault.of_mem_filterMapM htalks hc
      exact holds_talkChoice hrow
    -- what follows after the options of a person is the same with and without one
    have hall (offered : List (Choice ρ)) (hoffered : ∀ c ∈ offered, Holds stall scene npc c) :
        Act.Ends (fun cs => ∀ c ∈ cs, Holds stall scene npc c) (do
          let own ← optionChoices stall (envOf scene npc) scene.location scene.options
          return talks ++ offered ++ own ++ [⟨packId, "Inventory", []⟩, ⟨exitId, "Exit", []⟩]) := by
      refine (ends_optionChoices _ _ _).bind fun own hown => Act.ends_pure fun c hc => ?_
      simp only [List.mem_append, List.mem_cons, List.not_mem_nil, or_false] at hc
      rcases hc with ((hc | hc) | hc) | rfl | rfl
      . exact htalk c hc
      . exact hoffered c hc
      . exact hown c hc
      . exact .pack
      . exact .exit
    dsimp only
    split
    . refine Act.ends_bind fun id => Act.ends_bind fun ids => ?_
      exact (ends_optionChoices _ _ _).bind hall
    . exact hall [] (by simp)
  exact hentries.bind fun cs hcs => Act.ends_pure fun c hc => hcs c (mem_of_mem_distinct hc)

/-- A way of the travel menu: it leads to a registered location, and is built from the option of
that way, which requirements let through. -/
structure OpenWay (stall : Stall ρ S) (scene : Scene ρ) (npc : Value ρ) (c : Choice ρ)
    (location : String) (row : Record ρ) : Prop where
  registered : Table.has stall.registry location = true
  read : ∃ s found, ((stall.content.option? scene.location (goId ++ ":" ++ location)).run s).1
    = .ok found ∧ row = found.getD []
  passes : open? stall (envOf scene npc) row = .ok true
  location_eq : Record.field c.details "location_id" = .text location
  effect_eq : Record.field c.details "effect" = effectOf row

theorem ends_pathChoice (scene : Scene ρ) (npc : Value ρ) (base : Record ρ) (location : String)
    : Act.Ends (fun c? => ∀ c ∈ c?, ∃ row, OpenWay stall scene npc c location row)
      (pathChoice stall scene (envOf scene npc) base location) := by
  unfold pathChoice
  cases hview : Table.get? stall.registry location with
  | none => exact Act.ends_pure (by simp)
  | some view =>
    have hregistered : Table.has stall.registry location = true := by
      simp [Table.has, hview]
    refine (Act.ends_self _).bind fun found hfound => ?_
    refine (Act.ends_lift fun isOpen h => h).bind fun isOpen hopen => ?_
    split
    . exact Act.ends_pure (by simp)
    next hpasses =>
      rw [Bool.not_eq_true, Bool.not_eq_false'] at hpasses
      subst hpasses
      refine Act.ends_bind fun name => Act.ends_pure ?_
      rintro c ⟨⟩
      obtain ⟨s, hs⟩ := hfound
      exact ⟨found.getD [], hregistered, ⟨s, found, hs, rfl⟩, hopen, rfl, rfl⟩

theorem ends_pathChoices (scene : Scene ρ) (npc : Value ρ) (base : Record ρ)
    : Act.Ends (fun cs => ∀ c ∈ cs, ∃ location ∈ scene.path, ∃ row,
        OpenWay stall scene npc c location row)
      (pathChoices stall scene npc base) := by
  have hto (locations : List String) : Act.Ends (fun cs => ∀ c ∈ cs, ∃ location ∈ locations,
      ∃ row, OpenWay stall scene npc c location row)
      (pathChoicesTo stall scene (envOf scene npc) base locations) := by
    induction locations with
    | nil => exact Act.ends_pure (by simp)
    | cons location rest ih =>
      unfold pathChoicesTo
      refine (ends_pathChoice scene npc base location).bind fun c? hc? => ?_
      refine ih.bind fun cs hcs => Act.ends_pure fun c hc => ?_
      rcases List.mem_append.mp hc with hc | hc
      . exact ⟨location, List.mem_cons_self, hc? c (Option.mem_toList.mp hc)⟩
      . obtain ⟨other, hmem, hother⟩ := hcs c hc
        exact ⟨other, List.mem_cons_of_mem location hmem, hother⟩
  exact hto scene.path

end Menu

/-! ### What is answered at a terminal -/

namespace Terminal

omit [Scalar ρ] in
theorem mem_of_entryAt? {entries : Entries ρ} {line : String} {id : Value ρ}
    (h : entryAt? entries line = .ok (some id)) : ∃ e ∈ entries, e.1 = id := by
  unfold entryAt? at h
  split at h
  . cases h
  obtain ⟨n, _, h⟩ := Fault.bind_eq_ok.mp h
  split at h
  next n =>
    obtain ⟨e, he, rfl⟩ := Option.map_eq_some_iff.mp (Except.ok.inj h)
    exact ⟨e, List.mem_of_getElem? he, rfl⟩
  . cases h

omit [Scalar ρ] in
theorem mem_of_answer? {entries : Entries ρ} {line : String} {id : Value ρ}
    (h : answer? entries line = .ok (some id)) : ∃ e ∈ entries, e.1 = id := by
  unfold answer? at h
  obtain ⟨numbered, hnumbered, h⟩ := Fault.bind_eq_ok.mp h
  cases numbered with
  | some numbered =>
    cases h
    exact mem_of_entryAt? hnumbered
  | none =>
    obtain ⟨e, he, rfl⟩ := Option.map_eq_some_iff.mp (Except.ok.inj h)
    exact ⟨e, List.mem_of_find?_eq_some he, rfl⟩

omit [Scalar ρ] in
theorem mem_of_pickFrom {entries : Entries ρ} {lines : List String} {id : Value ρ}
    (h : (pickFrom entries lines).outcome = .ok (some id)) : ∃ e ∈ entries, e.1 = id := by
  induction lines with
  | nil => cases h
  | cons line lines ih =>
    unfold pickFrom at h
    split at h
    next => cases h
    next hanswer =>
      cases h
      exact mem_of_answer? hanswer
    next => exact ih h

/-- An answer to a scene is one of the entries that are shown, or none. -/
theorem ends_showScene {dto : SceneView ρ} (hflaw : dto.flaw = none)
    : Act.Ends (fun answer => answer = .null ∨ ∃ e ∈ dto.options, e.1 = answer)
      (view.showScene dto) := by
  intro t answer h
  unfold view at h
  dsimp only at h
  rw [hflaw] at h
  change ((pick dto.options).run (t.print [scenePanel dto])).1.map (·.getD .null) = .ok answer at h
  obtain ⟨picked, hpicked, rfl⟩ := Fault.map_eq_ok.mp h
  cases picked with
  | none => exact .inl rfl
  | some id =>
    refine .inr ?_
    unfold pick at hpicked
    rw [Act.run_of] at hpicked
    split at hpicked
    . cases hpicked
    . exact mem_of_pickFrom (outcome_of_settle hpicked)

end Terminal

/-- An answer to a scene is one of the options that are shown, or does not count as given. -/
def View.Fair (view : View ρ V) : Prop :=
  ∀ dto, dto.flaw = none → Act.Ends
    (fun answer => answer.isGiven = true → ∃ option ∈ dto.options, option.1 = answer)
    (view.showScene dto)

theorem Terminal.view_fair : (Terminal.view : View ρ Terminal).Fair := by
  intro dto hflaw s answer h hgiven
  rcases ends_showScene hflaw s answer h with rfl | hmem
  . cases hgiven
  . exact hmem

/-! ### What is played -/

/-- Where an answer of a fair player asks for an option, it is a choice that was shown. -/
theorem View.Fair.mem_of_option {view : View ρ V} (hview : view.Fair) {choices : List (Choice ρ)}
    {dto : SceneView ρ} (hoptions : dto.options = choices.map fun c => (.text c.id, c.name))
    (hflaw : dto.flaw = none) {answer : Value ρ} {v v' : V}
    (hshown : (view.showScene dto).run v = (.ok answer, v')) {id : String} {details : Record ρ}
    (hreply : Turn.Reply.of choices answer = .option id details)
    : ∃ c ∈ choices, .text c.id = answer := by
  have hgiven : answer.isGiven = true := by
    by_contra hnot
    unfold Turn.Reply.of at hreply
    rw [if_pos (by simpa using hnot)] at hreply
    cases hreply
  obtain ⟨o, ho, rfl⟩ := hview dto hflaw v answer (congrArg Prod.fst hshown) hgiven
  rw [hoptions] at ho
  obtain ⟨c, hc, rfl⟩ := List.mem_map.mp ho
  exact ⟨c, hc, rfl⟩

namespace Turn

variable {σ : Type}

/-- From this seat a scene is shown, an option of its menu is picked that requirements let through,
and what is played is the effect of the option or, where it has none, its id. -/
def Offers (content : Content ρ σ) (scene : Scene ρ) (seat : Seat ρ (Session ρ σ) Terminal)
    (definition : Value ρ) : Prop :=
  let stall := stall (Session.stage content) seat.play
  ∃ choices, ∃ dto : SceneView ρ, ∃ c v,
    ((Menu.choices stall scene seat.npc).run seat.play).1 = .ok choices
    ∧ dto.options = choices.map (fun c => (.text c.id, c.name))
    ∧ (Terminal.view.showScene dto).run seat.view = (.ok (.text c.id), v)
    ∧ c ∈ choices ∧ Menu.open? stall (Menu.envOf scene seat.npc) c.details = .ok true
    ∧ definition = (Menu.effectOf c.details).orNull (.text c.id)

/-- From this seat a scene and then the travel menu is shown, a way is picked that requirements let
through and that leads to a registered location, and what is played is the effect of the way or,
where it has none, the jump to the location. -/
def OffersWay (content : Content ρ σ) (scene : Scene ρ) (seat : Seat ρ (Session ρ σ) Terminal)
    (definition : Value ρ) : Prop :=
  ∃ play v seat' base ways c location row, Session.Read content seat.play play
    ∧ Travels (Session.stage content) Terminal.view scene ⟨play, seat.npc, v⟩ seat' base ways
      (.text c.id)
    ∧ c ∈ ways ∧ Menu.OpenWay (stall (Session.stage content) play) scene seat.npc c location row
    ∧ definition = (Menu.effectOf row).orElse (.text (goId ++ ":" ++ location))

theorem behind?_talkStart (id : String) : behind? talkStart (talkStart ++ id) = some id := by
  unfold behind?
  rw [String.toList_append, Text.behind?_append]
  simp

theorem Reply.of_eq_option {choices : List (Choice ρ)} {c : Choice ρ} (hc : c ∈ choices)
    {id : String} {details : Record ρ} (h : Reply.of choices (.text c.id) = .option id details)
    : id = c.id ∧ behind? talkStart c.id = none ∧ c.id ≠ packId
      ∧ ∃ c' ∈ choices, c'.id = c.id ∧ details = c'.details ∧ (c.id = exitId → details ≠ []) := by
  obtain ⟨c', hfound⟩ : ∃ c', choices.find? (·.id == c.id) = some c' := by
    rw [← Option.isSome_iff_exists, List.find?_isSome]
    exact ⟨c, hc, by simp⟩
  have hid : c'.id = c.id := by simpa using List.find?_some hfound
  unfold Reply.of at h
  split at h
  . cases h
  rw [Value.text?_text] at h
  dsimp only at h
  cases htalk : behind? talkStart c.id with
  | some npc =>
    rw [htalk] at h
    cases h
  | none =>
    rw [htalk, hfound] at h
    dsimp only at h
    split at h
    . cases h
    next hpack =>
      split at h
      . cases h
      next hexit =>
        split at h
        . cases h
        cases h
        refine ⟨rfl, rfl, hpack, c', List.mem_of_find?_eq_some hfound, hid, rfl, ?_⟩
        intro heq hnil
        exact hexit ⟨heq, rfl, by rw [hnil]; rfl⟩

/-- Of the options of a menu, only those can be picked that requirements let through. -/
theorem open_of_option {stall : Stall ρ S} {scene : Scene ρ} {npc : Value ρ}
    {choices : List (Choice ρ)} (hholds : ∀ c ∈ choices, Menu.Holds stall scene npc c)
    {c : Choice ρ} (hc : c ∈ choices) {id : String} {details : Record ρ}
    (h : Reply.of choices (.text c.id) = .option id details)
    : ∃ c' ∈ choices, c'.id = c.id ∧ id = c'.id ∧ details = c'.details
      ∧ Menu.open? stall (Menu.envOf scene npc) c'.details = .ok true
      ∧ Menu.rowId details = .ok id
      ∧ ∃ row s, ((stall.content.option? scene.location row).run s).1 = .ok (some details) := by
  obtain ⟨rfl, htalk, hpack, c', hc', hid, rfl, hexit⟩ := Reply.of_eq_option hc h
  refine ⟨c', hc', hid, hid.symm, rfl, ?_⟩
  rw [← hid] at htalk hpack hexit ⊢
  cases hholds c' hc' with
  | talk id name details =>
    rw [behind?_talkStart] at htalk
    cases htalk
  | option _ hread hrow hopen => exact ⟨hopen, hrow, hread⟩
  | pack => exact absurd rfl hpack
  | exit => exact absurd rfl (hexit rfl)

theorem offered_of_round {content : Content ρ σ} {scene : Scene ρ}
    {seat seat' : Seat ρ (Session ρ σ) Terminal} {definition time otherwise : Value ρ}
    (h : (round (Session.stage content) Terminal.view scene).run seat
      = (.ok (some (.play definition time otherwise)), seat'))
    : Offers content scene seat definition ∨ OffersWay content scene seat definition := by
  obtain ⟨choices, dto, answer, play, v, hplay, hchoices, hoptions, hflaw, hshown, hheed⟩ :=
    round_eq_ok (Session.looks_read seat.play) (.refl seat.play) h
  have hbrings := heed_brings hheed
  generalize hreply : Reply.of choices answer = reply at hbrings
  cases hbrings with
  | option id details =>
    left
    obtain ⟨c, hc, rfl⟩ := Terminal.view_fair.mem_of_option hoptions hflaw hshown hreply
    have hholds := Menu.ends_choices scene seat.npc seat.play choices hchoices
    obtain ⟨c', hc', hid, rfl, rfl, hopen, _⟩ := open_of_option hholds hc hreply
    refine ⟨choices, dto, c', v, hchoices, hoptions, ?_, hc', hopen, rfl⟩
    rw [hid]
    exact hshown
  | leave details ways c location time htravels hc _ _ hlocation =>
    right
    obtain ⟨location', _, row, hopens⟩ := Menu.ends_pathChoices scene seat.npc details play ways
      htravels.1 c hc
    rw [hopens.location_eq, Value.text?_text] at hlocation
    cases hlocation
    refine ⟨play, v, seat', details, ways, c, location, row, hplay, htravels, hc, hopens, ?_⟩
    rw [hopens.effect_eq]

/-- What is locked cannot be played: at a terminal, whatever lines are typed, a turn plays nothing,
or it plays an option that its last menu offers, or a way that its last travel menu offers; whether
they do is settled for the play, the scene and the person talked to of the round in which it is
picked. -/
theorem run_plays_offered (content : Content ρ σ) (scene : Scene ρ)
    (seat : Seat ρ (Session ρ σ) Terminal)
    : ∃ ending : Except Fault (Decision ρ), ∃ last seat',
      Again (Session.stage content) Terminal.view scene seat last
      ∧ Session.Read content seat.play last.play
      ∧ (∀ interpret, (run { Session.stage content with interpret } Terminal.view scene).run seat
        = (do
          let decision ← Act.lift ending
          onPlay (decision.carryOut interpret)).run seat')
      ∧ ∀ definition time otherwise, ending = .ok (.play definition time otherwise) →
        Offers content scene last definition ∨ OffersWay content scene last definition := by
  obtain ⟨last, ending, seat', hagain, hround, hrun⟩ :=
    run_cases (Session.stage content) Terminal.view_finite scene seat
  have hread := hagain.play (Session.looks_read seat.play) (.refl seat.play)
  refine ⟨ending, last, seat', hagain, hread, hrun, ?_⟩
  rintro definition time otherwise rfl
  exact offered_of_round hround

end Turn

end Storyworld
