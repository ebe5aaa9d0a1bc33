import Storyworld.Proofs.Rounds

/-!
This module contains the two parts of a turn. First scenes and menus are shown until it is decided
what the turn comes to, and nothing is played; then what was decided on is played, at most once.
-/

namespace Storyworld

namespace Turn

variable {ρ S V : Type} [Scalar ρ]

/-- What a turn comes to. -/
inductive Decision (ρ : Type) where
  /-- Nothing was picked. -/
  | nothing
  /-- The exit of the menu was picked. -/
  | exit
  /-- A definition is played, with the time that it takes; the last value is the outcome of the turn
  where the definition has none. -/
  | play (definition time otherwise : Value ρ)

/-- Carries a decision out; all that is ever played in a turn is played here. -/
def Decision.carryOut (interpret : Value ρ → Value ρ → Act S (Value ρ)) :
    Decision ρ → Act S (Value ρ)
  | .nothing => return .null
  | .exit => return .text exitId
  | .play definition time otherwise => do
    let result ← interpret definition time
    return result.orNull otherwise

/-- What to play to go somewhere. -/
def leaving (stage : Stage ρ S) (choice : Choice ρ) : Act S (Decision ρ) := do
  let location := Record.field choice.details "location_id"
  let declared := Record.field choice.details "effect"
  let definition := declared.orElse (.text (goId ++ ":" ++ (← Act.lift location.text?)))
  let time ← scaledTime stage (Record.field choice.details "time")
  return .play definition time (.target location .null)

/-- Shows the travel menu; none where it is left without a pick. -/
def route (stage : Stage ρ S) (view : View ρ V) (scene : Scene ρ) (base : Record ρ) :
    Act (Seat ρ S V) (Option (Decision ρ)) := do
  let seat ← get
  let choices ← onPlay (Menu.pathChoices (stall stage seat.play) scene seat.npc base)
  let picked ← onView (view.showPath (choices.map Choice.toEntry) "Where to?")
  if !picked.isGiven || isId picked backId then return none
  match choices.find? fun c => isId picked c.id with
  | none => return none
  | some choice => some <$> onPlay (leaving stage choice)

/-- What to play for an option. -/
def option (view : View ρ V) (picked : String) (details : Record ρ) :
    Act (Seat ρ S V) (Decision ρ) := do
  if (Record.field details "result").isGiven then onView (view.showResult details)
  return .play ((Menu.effectOf details).orNull (.text picked)) (Record.field details "time")
    (.text picked)

/-- What an answer to a scene asks for. -/
inductive Reply (ρ : Type) where
  | nothing
  /-- The answer cannot be read. -/
  | garbled (e : Fault)
  | talk (npc : String)
  | pack
  | exit
  | go (details : Record ρ)
  | option (id : String) (details : Record ρ)

/-- What an answer asks for, of the choices that are shown. -/
def Reply.of (choices : List (Choice ρ)) (answer : Value ρ) : Reply ρ :=
  if !answer.isGiven then .nothing
  else
    match answer.text? with
    | .error e => .garbled e
    | .ok picked =>
      match behind? talkStart picked with
      | some npc => .talk npc
      | none =>
        if picked = packId then .pack
        else
          let found := choices.find? (·.id == picked)
          let details := (found.map Choice.details).getD []
          if picked = exitId ∧ found.isSome ∧ details.isEmpty then .exit
          else if picked = goId then .go details
          else .option picked details

/-- The person of this name; none where the name is empty. -/
def called (npc : String) : Value ρ := if npc = "" then .null else .text npc

/-- Does what is asked for; none where the scene is to be shown again. -/
def heed (stage : Stage ρ S) (view : View ρ V) (scene : Scene ρ) :
    Reply ρ → Act (Seat ρ S V) (Option (Decision ρ))
  | .nothing => return some .nothing
  | .garbled e => throw e
  | .talk npc => do
    modify fun s => { s with npc := called npc }
    return none
  | .pack => do
    onView (view.showPack (← onPlay stage.pack))
    return none
  | .exit => return some .exit
  | .go details => route stage view scene details
  | .option picked details => some <$> option view picked details

/-- Shows the scene once; none where it is to be shown again. -/
def round (stage : Stage ρ S) (view : View ρ V) (scene : Scene ρ) :
    Act (Seat ρ S V) (Option (Decision ρ)) := do
  let (choices, answer) ← present stage view scene
  heed stage view scene (.of choices answer)

/-- Shows the scene until it is decided what the turn comes to. -/
def decide (stage : Stage ρ S) (view : View ρ V) (scene : Scene ρ) :
    Nat → Act (Seat ρ S V) (Decision ρ)
  | 0 => return .nothing
  | fuel + 1 => do
    match ← round stage view scene with
    | none => decide stage view scene fuel
    | some decision => return decision

/-! ### A turn is a decision that is carried out -/

section

variable {stage : Stage ρ S} {view : View ρ V} {scene : Scene ρ}

omit [Scalar ρ] in
theorem onPlay_bind {α β : Type} (act : Act S α) (f : α → Act S β)
    : (onPlay (act >>= f) : Act (Seat ρ S V) β) = onPlay act >>= fun a => onPlay (f a) := by
  apply Act.ext
  intro seat
  unfold onPlay
  rw [Act.run_bind, Act.run_within, Act.run_within, Act.run_bind]
  rcases act.run seat.play with ⟨_ | _, _⟩
  . rfl
  . rfl

omit [Scalar ρ] in
theorem run_onPlay {α : Type} (act : Act S α) (seat : Seat ρ S V)
    : (onPlay act).run seat
      = ((act.run seat.play).1, { seat with play := (act.run seat.play).2 }) := rfl

omit [Scalar ρ] in
theorem run_onPlay_eq_ok {α : Type} {act : Act S α} {a : α} {seat seat' : Seat ρ S V}
    : (onPlay act).run seat = (.ok a, seat')
      ↔ ∃ play, act.run seat.play = (.ok a, play) ∧ seat' = { seat with play } := by
  rw [run_onPlay, Prod.mk.injEq]
  constructor
  . rintro ⟨ha, rfl⟩
    exact ⟨_, Prod.ext ha rfl, rfl⟩
  . rintro ⟨play, hrun, rfl⟩
    simp [hrun]

omit [Scalar ρ] in
theorem run_onView_eq_ok {α : Type} {act : Act V α} {a : α} {seat seat' : Seat ρ S V}
    : (onView act).run seat = (.ok a, seat')
      ↔ ∃ view, act.run seat.view = (.ok a, view) ∧ seat' = { seat with view } := by
  unfold onView
  rw [Act.run_within, Prod.mk.injEq]
  constructor
  . rintro ⟨ha, rfl⟩
    exact ⟨_, Prod.ext ha rfl, rfl⟩
  . rintro ⟨view, hrun, rfl⟩
    simp [hrun]

theorem leave_eq (choice : Choice ρ)
    : leave stage choice = leaving stage choice >>= Decision.carryOut stage.interpret := by
  unfold leave leaving
  simp only [bind_assoc, pure_bind, Decision.carryOut]

/-- What follows a round: the decision is carried out, or the scene is shown again. -/
def follow (stage : Stage ρ S) (again : Act (Seat ρ S V) (Value ρ))
    (decision : Option (Decision ρ)) : Act (Seat ρ S V) (Value ρ) :=
  match decision with
  | none => again
  | some decision => onPlay (decision.carryOut stage.interpret)

theorem travel_bind_eq (base : Record ρ) (again : Act (Seat ρ S V) (Value ρ))
    : (do
      match ← travel stage view scene base with
      | none => again
      | some result => return result)
      = route stage view scene base >>= follow stage again := by
  unfold travel route
  simp only [bind_assoc]
  congr 1
  funext seat
  congr 1
  funext choices
  congr 1
  funext picked
  split
  . rfl
  . cases choices.find? fun c => isId picked c.id with
    | none => rfl
    | some choice =>
      dsimp only
      rw [leave_eq, onPlay_bind]
      simp only [map_eq_pure_bind, bind_assoc, pure_bind, bind_pure]
      rfl

theorem act_eq (picked : String) (details : Record ρ)
    : act stage view picked details = (do
      let decision ← option view picked details
      onPlay (decision.carryOut stage.interpret)) := by
  have hplayed (definition time : Value ρ) : (do
      let result ← onPlay (stage.interpret definition time)
      return result.orNull (.text picked) : Act (Seat ρ S V) (Value ρ))
      = onPlay ((Decision.play definition time (.text picked)).carryOut stage.interpret) := by
    unfold Decision.carryOut
    rw [onPlay_bind]
    rfl
  unfold act option
  dsimp only
  split
  . simp only [bind_assoc, pure_bind, hplayed]
  . simp only [pure_bind, hplayed]

theorem rounds_succ (fuel : Nat)
    : rounds stage view scene (fuel + 1)
      = round stage view scene >>= follow stage (rounds stage view scene fuel) := by
  unfold round
  rw [rounds, bind_assoc]
  congr 1
  funext (choices, answer)
  unfold Reply.of
  dsimp only
  split
  . rfl
  cases answer.text? with
  | error e => rfl
  | ok picked =>
    have hlift : (Act.lift (.ok picked) : Act (Seat ρ S V) String) = pure picked := rfl
    rw [hlift, pure_bind]
    dsimp only
    cases behind? talkStart picked with
    | some npc => rfl
    | none =>
      dsimp only
      split
      . simp only [heed, bind_assoc, pure_bind]
        rfl
      split
      . rfl
      split
      . exact travel_bind_eq _ _
      . rw [act_eq]
        simp only [heed, map_eq_pure_bind, bind_assoc, pure_bind]
        rfl

theorem rounds_eq (fuel : Nat)
    : rounds stage view scene fuel = (do
      let decision ← decide stage view scene fuel
      onPlay (decision.carryOut stage.interpret)) := by
  induction fuel with
  | zero => rfl
  | succ fuel ih =>
    rw [rounds_succ]
    unfold decide
    rw [bind_assoc]
    congr 1
    funext decision
    cases decision with
    | none => exact ih
    | some decision => rw [pure_bind]; rfl

/-- Nothing is played until it is decided what the turn comes to. -/
theorem decide_of_interpret (interpret : Value ρ → Value ρ → Act S (Value ρ)) (fuel : Nat)
    : decide { stage with interpret } view scene fuel = decide stage view scene fuel := by
  induction fuel with
  | zero => rfl
  | succ fuel ih =>
    unfold decide
    rw [ih]
    rfl

theorem run_eq (interpret : Value ρ → Value ρ → Act S (Value ρ)) (seat : Seat ρ S V)
    : (run { stage with interpret } view scene).run seat
      = (do
        let decision ← decide stage view scene (view.remaining seat.view + 1)
        onPlay (decision.carryOut interpret)).run seat := by
  unfold run
  rw [Act.run_bind, Act.run_get]
  dsimp only
  rw [rounds_eq, decide_of_interpret]

end

/-! ### What a round does -/

end Turn

variable {ρ S V : Type} [Scalar ρ] {P : S → Prop} {I : V → Prop}

/-- What is looked at in a turn keeps a property. -/
structure Stage.Looks (P : S → Prop) (stage : Stage ρ S) : Prop where
  content : stage.content.Keeps P
  scale : ∀ scale, stage.scale = some scale → ∀ hours, Act.Keeps P (scale hours)
  pack : Act.Keeps P stage.pack

/-- All that is shown in a turn besides scenes keeps a property of the player. -/
structure View.Keeps (I : V → Prop) (view : View ρ V) : Prop where
  path : ∀ entries title, Act.Keeps I (view.showPath entries title)
  pack : ∀ dto, Act.Keeps I (view.showPack dto)
  result : ∀ details, Act.Keeps I (view.showResult details)

omit [Scalar ρ] in
theorem Stage.Looks.all (stage : Stage ρ S) : stage.Looks fun _ => True where
  content := ⟨fun _ _ _ => trivial, fun _ _ _ _ => trivial, fun _ _ _ _ => trivial,
    fun _ _ _ => trivial, fun _ _ _ => trivial⟩
  scale _ _ _ _ _ := trivial
  pack _ _ := trivial

omit [Scalar ρ] in
theorem View.Keeps.all (view : View ρ V) : view.Keeps fun _ => True where
  path _ _ _ _ := trivial
  pack _ _ _ := trivial
  result _ _ _ := trivial

theorem View.Finite.keeps {view : View ρ V} (h : view.Finite) (n : Nat)
    : view.Keeps fun v => view.remaining v ≤ n where
  path entries title v hv := (h.path_le entries title v).trans hv
  pack dto v hv := (h.pack_le dto v).trans hv
  result details v hv := (h.result_le details v).trans hv

namespace Turn

variable {stage : Stage ρ S} {view : View ρ V} {scene : Scene ρ}

/-- The play and the player have their properties, and this is who is talked to. -/
structure Rests (P : S → Prop) (I : V → Prop) (npc : Value ρ) (seat : Seat ρ S V) : Prop where
  play : P seat.play
  npc : seat.npc = npc
  view : I seat.view

section

variable {npc : Value ρ} {α : Type}

omit [Scalar ρ] in
theorem rests_onPlay {act : Act S α} (h : Act.Keeps P act)
    : Act.Keeps (Rests P I npc) (onPlay act : Act (Seat ρ S V) α) :=
  Act.keeps_within h (fun _ hseat => hseat.play) fun _ _ hseat hplay => { hseat with play := hplay }

omit [Scalar ρ] in
theorem rests_onView {act : Act V α} (h : Act.Keeps I act)
    : Act.Keeps (Rests P I npc) (onView act : Act (Seat ρ S V) α) :=
  Act.keeps_within h (fun _ hseat => hseat.view) fun _ _ hseat hview => { hseat with view := hview }

theorem keeps_leaving (h : stage.Looks P) (choice : Choice ρ)
    : Act.Keeps P (leaving stage choice) := by
  unfold leaving scaledTime
  refine Act.keeps_bind (Act.keeps_lift _) fun location => ?_
  refine Act.keeps_bind ?_ fun time => Act.keeps_pure _
  cases hscale : stage.scale with
  | none => apply Act.keeps_pure
  | some scale =>
    refine Act.keeps_bind (Act.keeps_attempt (h.scale scale hscale _)) fun scaled => ?_
    cases scaled with
    | error e => apply Act.keeps_pure
    | ok v => apply Act.keeps_pure

theorem rests_route (h : stage.Looks P) (hview : view.Keeps I) (base : Record ρ)
    : Act.Keeps (Rests P I npc) (route stage view scene base) := by
  unfold route
  refine Act.keeps_bind Act.keeps_get fun seat => ?_
  refine Act.keeps_bind (rests_onPlay ?_) fun choices => ?_
  . exact Menu.keeps_pathChoices h.content scene seat.npc base
  . refine Act.keeps_bind (rests_onView (hview.path _ _)) fun picked => ?_
    apply Act.keeps_ite
    . apply Act.keeps_pure
    . cases choices.find? fun c => isId picked c.id with
      | none => apply Act.keeps_pure
      | some choice =>
        apply Act.keeps_map
        exact rests_onPlay (keeps_leaving h choice)

theorem rests_option (hview : view.Keeps I) (picked : String) (details : Record ρ)
    : Act.Keeps (Rests P I npc) (option view picked details : Act (Seat ρ S V) (Decision ρ)) := by
  unfold option
  dsimp only
  split
  . refine Act.keeps_bind (rests_onView (hview.result details)) fun _ => ?_
    apply Act.keeps_pure
  . apply Act.keeps_pure

end

/-- Who is talked to after a reply. -/
def Reply.person (npc : Value ρ) : Reply ρ → Value ρ
  | .talk id => called id
  | _ => npc

/-- To do what is asked for changes nothing but who is talked to, and that only where it is asked to
talk to someone. -/
theorem heed_rests (h : stage.Looks P) (hview : view.Keeps I) (scene : Scene ρ) (reply : Reply ρ)
    (seat : Seat ρ S V) (hseat : Rests P I seat.npc seat)
    : Rests P I (reply.person seat.npc) ((heed stage view scene reply).run seat).2 := by
  cases reply with
  | nothing => exact hseat
  | garbled e => exact hseat
  | talk id => exact { hseat with npc := rfl }
  | pack =>
    refine Act.keeps_bind (rests_onPlay h.pack) (fun dto => ?_) seat hseat
    refine Act.keeps_bind (rests_onView (hview.pack dto)) fun _ => ?_
    apply Act.keeps_pure
  | exit => exact hseat
  | go details => exact rests_route h hview details seat hseat
  | option picked details => exact Act.keeps_map _ (rests_option hview picked details) seat hseat

theorem keeps_heed (h : stage.Looks P) (reply : Reply ρ)
    : Act.Keeps (fun seat : Seat ρ S V => P seat.play) (heed stage view scene reply) :=
  fun _ hseat => (heed_rests h (.all view) scene reply _ ⟨hseat, rfl, trivial⟩).play

/-- What it comes to to go a way that leads to a location. -/
def leads (c : Choice ρ) (location : String) (time : Value ρ) : Decision ρ :=
  .play ((Record.field c.details "effect").orElse (.text (goId ++ ":" ++ location))) time
    (.target (Record.field c.details "location_id") .null)

/-- What can come of a reply; none where the scene is to be shown again. The travel menu has ways,
and one of them or something else is picked. -/
inductive Reply.Brings (travels : Record ρ → List (Choice ρ) → Value ρ → Prop) :
    Reply ρ → Option (Decision ρ) → Prop where
  | nothing : Brings travels .nothing (some .nothing)
  | talk (id : String) : Brings travels (.talk id) none
  | pack : Brings travels .pack none
  | exit : Brings travels .exit (some .exit)
  | stay (details : Record ρ) (ways : List (Choice ρ)) (picked : Value ρ)
    (h : travels details ways picked)
    (hpicked : picked.isGiven = false ∨ picked = .text backId ∨ ∀ c ∈ ways, picked ≠ .text c.id) :
    Brings travels (.go details) none
  | leave (details : Record ρ) (ways : List (Choice ρ)) (c : Choice ρ) (location : String)
    (time : Value ρ) (h : travels details ways (.text c.id)) (hc : c ∈ ways) (hid : c.id ≠ "")
    (hback : c.id ≠ backId)
    (hlocation : (Record.field c.details "location_id").text? = .ok location) :
    Brings travels (.go details) (some (leads c location time))
  | option (id : String) (details : Record ρ) : Brings travels (.option id details)
    (some (.play ((Menu.effectOf details).orNull (.text id)) (Record.field details "time")
      (.text id)))

/-- From one seat to the other the travel menu is shown with these ways, and this is picked. -/
def Travels (stage : Stage ρ S) (view : View ρ V) (scene : Scene ρ) (seat seat' : Seat ρ S V)
    (base : Record ρ) (ways : List (Choice ρ)) (picked : Value ρ) : Prop :=
  ((Menu.pathChoices (stall stage seat.play) scene seat.npc base).run seat.play).1 = .ok ways
    ∧ (view.showPath (ways.map Choice.toEntry) "Where to?").run seat.view = (.ok picked, seat'.view)

omit [Scalar ρ] in
theorem isId_iff {v : Value ρ} {id : String} : isId v id = true ↔ v = .text id := by
  cases v with
  | text s => simp [isId]
  | _ => simp [isId]

theorem ends_leaving (c : Choice ρ)
    : Act.Ends (fun decision => ∃ location time,
      (Record.field c.details "location_id").text? = .ok location
        ∧ decision = leads c location time)
      (leaving stage c) := by
  intro s decision hdecision
  obtain ⟨location, _, hlocation, hrest⟩ := Act.run_bind_eq_ok.mp (Prod.ext hdecision rfl)
  obtain ⟨time, _, _, hpure⟩ := Act.run_bind_eq_ok.mp hrest
  cases hpure
  exact ⟨location, time, congrArg Prod.fst hlocation, rfl⟩

theorem route_brings {base : Record ρ} {seat seat' : Seat ρ S V} {decision? : Option (Decision ρ)}
    (h : (route stage view scene base).run seat = (.ok decision?, seat'))
    : Reply.Brings (Travels stage view scene seat seat') (.go base) decision? := by
  unfold route at h
  obtain ⟨_, _, hget, h⟩ := Act.run_bind_eq_ok.mp h
  cases hget
  obtain ⟨ways, _, hways, h⟩ := Act.run_bind_eq_ok.mp h
  obtain ⟨play, hways, rfl⟩ := run_onPlay_eq_ok.mp hways
  obtain ⟨picked, _, hpicked, h⟩ := Act.run_bind_eq_ok.mp h
  obtain ⟨v, hshown, rfl⟩ := run_onView_eq_ok.mp hpicked
  -- what follows is on the side of the play, so the player has been shown the travel menu only
  have htravels (hview : seat'.view = v) : Travels stage view scene seat seat' base ways picked :=
    ⟨congrArg Prod.fst hways, by rw [hview]; exact hshown⟩
  split at h
  next hleft =>
    cases h
    refine .stay base ways picked (htravels rfl) ?_
    rw [Bool.or_eq_true, Bool.not_eq_true', isId_iff] at hleft
    exact hleft.imp_right .inl
  next hleft =>
    cases hfound : ways.find? fun c => isId picked c.id with
    | none =>
      rw [hfound] at h
      cases h
      refine .stay base ways picked (htravels rfl) (.inr (.inr fun c hc => ?_))
      simpa [isId_iff] using List.find?_eq_none.mp hfound c hc
    | some c =>
      rw [hfound] at h
      have hisId := List.find?_some hfound
      obtain rfl : picked = .text c.id := isId_iff.mp hisId
      obtain ⟨decision, hleaving, rfl⟩ := Act.run_map_eq_ok.mp h
      obtain ⟨play', hleaving, rfl⟩ := run_onPlay_eq_ok.mp hleaving
      obtain ⟨location, time, hlocation, rfl⟩ :=
        ends_leaving c play decision (congrArg Prod.fst hleaving)
      have hid : c.id ≠ "" ∧ c.id ≠ backId := by simpa [Value.isGiven, isId] using hleft
      exact .leave base ways c location time (htravels rfl) (List.mem_of_find?_eq_some hfound)
        hid.1 hid.2 hlocation

/-- What is decided is what was asked for. -/
theorem heed_brings {reply : Reply ρ} {seat seat' : Seat ρ S V} {decision? : Option (Decision ρ)}
    (h : (heed stage view scene reply).run seat = (.ok decision?, seat'))
    : reply.Brings (Travels stage view scene seat seat') decision? := by
  cases reply with
  | nothing =>
    cases h
    exact .nothing
  | garbled e => cases h
  | talk id =>
    cases h
    exact .talk id
  | pack =>
    obtain ⟨dto, _, _, h⟩ := Act.run_bind_eq_ok.mp h
    obtain ⟨_, _, _, h⟩ := Act.run_bind_eq_ok.mp h
    cases h
    exact .pack
  | exit =>
    cases h
    exact .exit
  | go details => exact route_brings h
  | option picked details =>
    obtain ⟨decision, hdecision, rfl⟩ := Act.run_map_eq_ok.mp h
    unfold option at hdecision
    dsimp only at hdecision
    split at hdecision
    . obtain ⟨_, _, _, hpure⟩ := Act.run_bind_eq_ok.mp hdecision
      cases hpure
      exact .option picked details
    . cases hdecision
      exact .option picked details

theorem ends_sceneView (stall : Stall ρ S) (scene : Scene ρ) (npc : Value ρ)
    (choices : List (Choice ρ))
    : Act.Ends (fun dto => dto.options = choices.map (fun c => (.text c.id, c.name))
      ∧ dto.flaw = none) (Menu.sceneView stall scene npc choices) :=
  Act.ends_bind fun _ => Act.ends_pure ⟨rfl, rfl⟩

theorem Reply.Brings.person_eq {travels : Record ρ → List (Choice ρ) → Value ρ → Prop}
    {reply : Reply ρ} {decision : Decision ρ} (h : reply.Brings travels (some decision))
    (npc : Value ρ) : reply.person npc = npc := by
  cases h with
  | _ => rfl

theorem person_of_error {reply : Reply ρ} {seat seat' : Seat ρ S V} {e : Fault}
    (h : (heed stage view scene reply).run seat = (.error e, seat')) {npc : Value ρ}
    : reply.person npc = npc := by
  cases reply with
  | talk id => cases h
  | _ => rfl

/-- A scene is shown with all choices of its menu, or the menu stops before anything is shown. -/
theorem present_cases (h : stage.Looks P) (view : View ρ V) (scene : Scene ρ)
    {seat : Seat ρ S V} (hseat : P seat.play)
    : (∃ e play, P play
        ∧ (present stage view scene).run seat = (.error e, { seat with play }))
      ∨ ∃ choices dto play, P play
        ∧ ((Menu.choices (stall stage seat.play) scene seat.npc).run seat.play).1 = .ok choices
        ∧ dto.options = choices.map (fun c => (.text c.id, c.name)) ∧ dto.flaw = none
        ∧ (present stage view scene).run seat
          = (((view.showScene dto).run seat.view).1.map (choices, ·),
            ⟨play, seat.npc, ((view.showScene dto).run seat.view).2⟩) := by
  have hmenu : P ((Menu.choices (stall stage seat.play) scene seat.npc).run seat.play).2 :=
    Menu.keeps_choices h.content scene seat.npc _ hseat
  unfold present
  rw [Act.run_bind, Act.run_get]
  dsimp only
  rw [Act.run_bind, run_onPlay]
  rcases hchoices : (Menu.choices (stall stage seat.play) scene seat.npc).run seat.play
    with ⟨e | choices, play⟩
  . rw [hchoices] at hmenu
    exact .inl ⟨e, play, hmenu, rfl⟩
  rw [hchoices] at hmenu
  dsimp only at hmenu ⊢
  have hview : P ((Menu.sceneView (stall stage seat.play) scene seat.npc choices).run play).2 :=
    Menu.keeps_sceneView h.content scene seat.npc choices _ hmenu
  rw [Act.run_bind, run_onPlay]
  rcases hdto : (Menu.sceneView (stall stage seat.play) scene seat.npc choices).run play
    with ⟨e | dto, play'⟩
  . rw [hdto] at hview
    exact .inl ⟨e, play', hview, rfl⟩
  rw [hdto] at hview
  obtain ⟨hoptions, hflaw⟩ := ends_sceneView _ _ _ choices play dto (congrArg Prod.fst hdto)
  refine .inr ⟨choices, dto, play', hview, rfl, hoptions, hflaw, ?_⟩
  dsimp only
  rw [Act.run_bind]
  unfold onView
  rw [Act.run_within]
  cases ((view.showScene dto).run seat.view).1 with
  | error e => rfl
  | ok answer => rfl

/-- A round that ends well has shown its menu, and has done what was then asked for. -/
theorem round_eq_ok (h : stage.Looks P) {seat seat' : Seat ρ S V} (hseat : P seat.play)
    {decision? : Option (Decision ρ)}
    (hround : (round stage view scene).run seat = (.ok decision?, seat'))
    : ∃ choices dto answer play v, P play
      ∧ ((Menu.choices (stall stage seat.play) scene seat.npc).run seat.play).1 = .ok choices
      ∧ dto.options = choices.map (fun c => (.text c.id, c.name)) ∧ dto.flaw = none
      ∧ (view.showScene dto).run seat.view = (.ok answer, v)
      ∧ (heed stage view scene (.of choices answer)).run ⟨play, seat.npc, v⟩
        = (.ok decision?, seat') := by
  obtain ⟨⟨choices, answer⟩, shown, hpresent, hheed⟩ := Act.run_bind_eq_ok.mp hround
  rcases present_cases h view scene hseat with
    ⟨e, play, _, hrun⟩ | ⟨choices', dto, play, hplay, hchoices, hoptions, hflaw, hrun⟩
  . rw [hrun] at hpresent
    cases hpresent
  rw [hrun, Prod.mk.injEq, Fault.map_eq_ok] at hpresent
  obtain ⟨⟨_, hanswer, heq⟩, rfl⟩ := hpresent
  cases heq
  exact ⟨choices, dto, answer, play, _, hplay, hchoices, hoptions, hflaw, Prod.ext hanswer rfl,
    hheed⟩

/-- A round that stops leaves the play and the person talked to as they are. -/
theorem round_error (h : stage.Looks P) {seat seat' : Seat ρ S V} (hseat : P seat.play)
    {e : Fault} (hround : (round stage view scene).run seat = (.error e, seat'))
    : P seat'.play ∧ seat'.npc = seat.npc := by
  unfold round at hround
  rw [Act.run_bind] at hround
  rcases present_cases h view scene hseat with
    ⟨e', play, hplay, hrun⟩ | ⟨choices, dto, play, hplay, _, _, _, hrun⟩
  . rw [hrun] at hround
    cases hround
    exact ⟨hplay, rfl⟩
  rw [hrun] at hround
  cases hanswer : ((view.showScene dto).run seat.view).1 with
  | error e' =>
    rw [hanswer] at hround
    cases hround
    exact ⟨hplay, rfl⟩
  | ok answer =>
    rw [hanswer] at hround
    change (heed stage view scene (.of choices answer)).run _ = _ at hround
    have hrests := heed_rests h (.all view) scene (.of choices answer)
      ⟨play, seat.npc, ((view.showScene dto).run seat.view).2⟩ ⟨hplay, rfl, trivial⟩
    rw [hround] at hrests
    exact ⟨hrests.play, hrests.npc.trans (person_of_error hround)⟩

theorem keeps_shown (h : stage.Looks P) (view : View ρ V) (scene : Scene ρ)
    : Act.Keeps (fun seat : Seat ρ S V => P seat.play) (present stage view scene) := by
  have hkeeps : Stage.Keeps P { stage with interpret := fun _ _ => return .null } :=
    ⟨h.content, fun _ _ => Act.keeps_pure _, h.scale, h.pack⟩
  exact keeps_present hkeeps view scene

theorem keeps_round (h : stage.Looks P) (view : View ρ V) (scene : Scene ρ)
    : Act.Keeps (fun seat : Seat ρ S V => P seat.play) (round stage view scene) := by
  unfold round
  exact Act.keeps_bind (keeps_shown h view scene) fun _ => keeps_heed h _

/-! ### Rounds until it is decided -/

theorem keeps_decide (h : stage.Looks P) (fuel : Nat)
    : Act.Keeps (fun seat : Seat ρ S V => P seat.play) (decide stage view scene fuel) := by
  induction fuel with
  | zero => apply Act.keeps_pure
  | succ fuel ih =>
    unfold decide
    refine Act.keeps_bind (keeps_round h view scene) fun decision => ?_
    cases decision with
    | none => exact ih
    | some decision => apply Act.keeps_pure

/-- From one seat to the other scenes are shown again and again. -/
inductive Again (stage : Stage ρ S) (view : View ρ V) (scene : Scene ρ) :
    Seat ρ S V → Seat ρ S V → Prop where
  | refl (seat : Seat ρ S V) : Again stage view scene seat seat
  | head {seat seat' last : Seat ρ S V}
    (h : (round stage view scene).run seat = (.ok none, seat'))
    (hrest : Again stage view scene seat' last) : Again stage view scene seat last

theorem Again.play (h : stage.Looks P) {seat last : Seat ρ S V}
    (hagain : Again stage view scene seat last) (hseat : P seat.play) : P last.play := by
  induction hagain with
  | refl => exact hseat
  | head hround _ ih =>
    have hkept := keeps_round h view scene _ hseat
    rw [hround] at hkept
    exact ih hkept

/-- Where something is picked, a scene has been answered. -/
theorem remaining_lt (hview : view.Finite) {seat seat' : Seat ρ S V}
    {decision? : Option (Decision ρ)}
    (h : (round stage view scene).run seat = (.ok decision?, seat'))
    (hpicked : decision? ≠ some .nothing)
    : view.remaining seat'.view < view.remaining seat.view := by
  obtain ⟨⟨choices, answer⟩, shown, hpresent, hheed⟩ := Act.run_bind_eq_ok.mp h
  dsimp only at hheed
  have hgiven : answer.isGiven = true := by
    by_contra hgiven
    have hreply : Reply.of choices answer = .nothing := by simp [Reply.of, hgiven]
    rw [hreply] at hheed
    cases hheed
    exact hpicked rfl
  have hlt := awaits_of_present hview hpresent hgiven
  have hrests := heed_rests (.all stage) (hview.keeps (view.remaining shown.view)) scene
    (.of choices answer) shown ⟨trivial, rfl, Nat.le_refl _⟩
  rw [hheed] at hrests
  exact Nat.lt_of_le_of_lt hrests.view hlt

theorem Again.remaining_le (hview : view.Finite) {seat last : Seat ρ S V}
    (hagain : Again stage view scene seat last)
    : view.remaining last.view ≤ view.remaining seat.view := by
  induction hagain with
  | refl => exact Nat.le_refl _
  | head hround _ ih => exact ih.trans (remaining_lt hview hround (by simp)).le

/-- What a turn comes to is what the last of its rounds comes to; after each round before it the
scene is shown again. -/
theorem decide_cases (stage : Stage ρ S) (hview : view.Finite) (scene : Scene ρ) {fuel : Nat}
    {seat : Seat ρ S V} (hfuel : view.remaining seat.view < fuel)
    : ∃ last outcome seat', Again stage view scene seat last
      ∧ (round stage view scene).run last = (outcome.map some, seat')
      ∧ (decide stage view scene fuel).run seat = (outcome, seat') := by
  induction fuel generalizing seat with
  | zero => omega
  | succ fuel ih =>
    unfold decide
    rw [Act.run_bind]
    rcases hround : (round stage view scene).run seat with ⟨e | _ | decision, seat'⟩
    . exact ⟨seat, .error e, seat', .refl seat, hround, rfl⟩
    . have hlt := remaining_lt hview hround (by simp)
      obtain ⟨last, outcome, seat'', hagain, hlast, hdecide⟩ :=
        ih (Nat.lt_of_lt_of_le hlt (Nat.le_of_lt_succ hfuel))
      exact ⟨last, outcome, seat'', .head hround hagain, hlast, hdecide⟩
    . exact ⟨seat, .ok decision, seat', .refl seat, hround, rfl⟩

/-- A turn is the last of its rounds and then what is left to carry out; after each round before it
the scene is shown again. -/
theorem run_cases (stage : Stage ρ S) (hview : view.Finite) (scene : Scene ρ) (seat : Seat ρ S V)
    : ∃ last, ∃ outcome : Except Fault (Decision ρ), ∃ seat', Again stage view scene seat last
      ∧ (round stage view scene).run last = (outcome.map some, seat')
      ∧ ∀ interpret, (run { stage with interpret } view scene).run seat
        = (do
          let decision ← Act.lift outcome
          onPlay (decision.carryOut interpret)).run seat' := by
  obtain ⟨last, outcome, seat', hagain, hround, hdecide⟩ :=
    decide_cases stage hview scene (Nat.lt_succ_self (view.remaining seat.view))
  refine ⟨last, outcome, seat', hagain, hround, fun interpret => ?_⟩
  rw [run_eq, Act.run_bind, hdecide, Act.run_bind, Act.run_lift]

end Turn

end Storyworld
