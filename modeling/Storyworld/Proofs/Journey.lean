import Storyworld.Proofs.Course
import Storyworld.Proofs.Mirror
import Storyworld.Proofs.Offer
import Storyworld.Proofs.Repeat
import Storyworld.Proofs.Route

/-!
This module contains journeys: a way of the travel menu is picked, the time that it takes goes by,
and the player comes to its location. On the way the location is the text of a route, which is read
as an effect, played as a jump and made once more when the turn is over.
-/

namespace Storyworld

/-! ### Ways that are picked -/

namespace Turn

variable {ρ S V : Type} [Scalar ρ] {stage : Stage ρ S} {view : View ρ V} {scene : Scene ρ}

/-- Shows the travel menu; the way that is picked, if any. -/
def browse (stage : Stage ρ S) (view : View ρ V) (scene : Scene ρ) (base : Record ρ) :
    Act (Seat ρ S V) (Option (Choice ρ)) := do
  let seat ← get
  let ways ← onPlay (Menu.pathChoices (stall stage seat.play) scene seat.npc base)
  let picked ← onView (view.showPath (ways.map Choice.toEntry) "Where to?")
  if !picked.isGiven || isId picked backId then return none
  return ways.find? fun c => isId picked c.id

/-- Shows the scene and, where it is asked for, the travel menu; the way that is picked, if any. -/
def plan (stage : Stage ρ S) (view : View ρ V) (scene : Scene ρ) :
    Act (Seat ρ S V) (Option (Choice ρ)) := do
  let (choices, answer) ← present stage view scene
  match Reply.of choices answer with
  | .go base => browse stage view scene base
  | _ => return none

theorem route_eq (base : Record ρ)
    : route stage view scene base = (do
      match ← browse stage view scene base with
      | none => return none
      | some c => some <$> onPlay (leaving stage c)) := by
  unfold route browse
  simp only [bind_assoc]
  congr 1
  funext seat
  congr 1
  funext ways
  congr 1
  funext picked
  split
  . rfl
  . cases ways.find? fun c => isId picked c.id with
    | none => rfl
    | some c => rfl

/-- A round in which a way is picked comes to what it takes to go it. -/
theorem round_of_plan {seat mid : Seat ρ S V} {c : Choice ρ}
    (h : (plan stage view scene).run seat = (.ok (some c), mid))
    : (round stage view scene).run seat = (some <$> onPlay (leaving stage c)).run mid := by
  obtain ⟨⟨choices, answer⟩, shown, hshown, h⟩ := Act.run_bind_eq_ok.mp h
  unfold round
  rw [Act.run_bind, hshown]
  dsimp only at h ⊢
  cases hreply : Reply.of choices answer with
  | go base =>
    rw [hreply] at h
    change (route stage view scene base).run shown = _
    rw [route_eq, Act.run_bind, h]
  | _ =>
    rw [hreply] at h
    cases h

theorem keeps_browse {P : S → Prop} (h : stage.Looks P) (view : View ρ V) (scene : Scene ρ)
    (base : Record ρ)
    : Act.Keeps (fun seat : Seat ρ S V => P seat.play) (browse stage view scene base) := by
  unfold browse
  refine Act.keeps_bind Act.keeps_get fun seat => ?_
  refine Act.keeps_bind (keeps_onPlay ?_) fun ways => ?_
  . exact Menu.keeps_pathChoices h.content scene seat.npc base
  . refine Act.keeps_bind (keeps_onView _) fun picked => ?_
    exact Act.keeps_ite (Act.keeps_pure _) (Act.keeps_pure _)

/-- Up to a way that is picked the play keeps what looks keep, and the way is an open one. -/
theorem plan_eq_ok {P : S → Prop} (h : stage.Looks P) {seat mid : Seat ρ S V} (hseat : P seat.play)
    {c : Choice ρ} (hplan : (plan stage view scene).run seat = (.ok (some c), mid))
    : P mid.play ∧ ∃ play npc location row, P play
      ∧ Menu.OpenWay (stall stage play) scene npc c location row := by
  obtain ⟨⟨choices, answer⟩, shown, hshown, hplan⟩ := Act.run_bind_eq_ok.mp hplan
  have hplay : P shown.play := by
    have hkept := keeps_shown h view scene seat hseat
    rw [hshown] at hkept
    exact hkept
  dsimp only at hplan
  cases hreply : Reply.of choices answer with
  | go base =>
    rw [hreply] at hplan
    have hmid := keeps_browse h view scene base shown hplay
    change (browse stage view scene base).run shown = _ at hplan
    rw [hplan] at hmid
    refine ⟨hmid, shown.play, shown.npc, ?_⟩
    unfold browse at hplan
    obtain ⟨_, _, hget, hplan⟩ := Act.run_bind_eq_ok.mp hplan
    cases hget
    obtain ⟨ways, _, hways, hplan⟩ := Act.run_bind_eq_ok.mp hplan
    obtain ⟨picked, _, _, hplan⟩ := Act.run_bind_eq_ok.mp hplan
    obtain ⟨play, hways, _⟩ := run_onPlay_eq_ok.mp hways
    split at hplan
    . cases hplan
    . have hfound : ways.find? (fun c => isId picked c.id) = some c :=
        Except.ok.inj (congrArg Prod.fst hplan)
      obtain ⟨location, _, row, hopen⟩ := Menu.ends_pathChoices scene shown.npc base shown.play
        ways (congrArg Prod.fst hways) c (List.mem_of_find?_eq_some hfound)
      exact ⟨location, row, hplay, hopen⟩
  | _ =>
    rw [hreply] at hplan
    cases hplan

/-- Rounds after which the scene is shown again, and then one that comes to something, decide the
turn. -/
theorem decide_of_again (hview : view.Finite) {seat last seat' : Seat ρ S V}
    (hagain : Again stage view scene seat last) {decision : Decision ρ}
    (hround : (round stage view scene).run last = (.ok (some decision), seat')) {fuel : Nat}
    (hfuel : view.remaining seat.view < fuel)
    : (decide stage view scene fuel).run seat = (.ok decision, seat') := by
  induction hagain generalizing fuel with
  | refl =>
    cases fuel with
    | zero => omega
    | succ fuel =>
      unfold decide
      rw [Act.run_bind, hround]
      rfl
  | head hfirst _ ih =>
    cases fuel with
    | zero => omega
    | succ fuel =>
      have hlt := remaining_lt hview hfirst (by simp)
      unfold decide
      rw [Act.run_bind, hfirst]
      exact ih hround (by omega)

end Turn

variable {ρ σ V : Type} [Scalar ρ] {content : Content ρ σ}
  {f : Value ρ → Except Fault (Value ρ)}

/-! ### Jumps to a location -/

theorem Text.cut_of_fst_eq {s : String} (h : (cut s).1 = s) : cut s = (s, "") := by
  have hcolon := cut_fst_eq_iff.mp h
  have hrest : s.toList.dropWhile (· != ':') = [] := by
    rw [List.dropWhile_eq_nil_iff]
    intro c hc
    rw [bne_iff_ne]
    rintro rfl
    exact hcolon hc
  refine Prod.ext h ?_
  unfold cut cutAt
  dsimp only
  rw [hrest]
  rfl

namespace Navigation

variable {atlas : Atlas ρ σ} {n n' : Navigation ρ} {location : String} {p : Pointer ρ}

/-- A location that means no scene here: it has scenes, or no scene here has its id. -/
def Unclaimed (f : Value ρ → Except Fault (Value ρ)) (here : Value ρ) (location : String) : Prop :=
  Atlas.scenes (infoOf f (.text location)) ≠ []
    ∨ Atlas.search (infoOf f here) (.text location) = .ok none

theorem rests_apply_here (hf : Answers f atlas.location) (hlocation : location ≠ "")
    (hpointer : n.pointer = some p) (hhere : p.location = .text location)
    : Rests (apply atlas (.target (.text location) .null)) n (some p) := by
  intro src
  have hrun := run_apply_target hf location none n src
  have hsame : p.location.same (.text location) = true := Value.same_text_iff.mpr hhere
  rw [if_neg hlocation, hpointer] at hrun
  dsimp only [Option.getD_none] at hrun
  rw [if_neg (not_not.mpr rfl), if_pos hsame] at hrun
  exact ⟨src, hrun⟩

/-- A jump to another location that means no scene here moves the player there. -/
theorem run_apply_away (hf : Answers f atlas.location) (hlocation : location ≠ "")
    (hpointer : n.pointer = some p) (hregistered : Registered n.registry p.location)
    (haway : p.location ≠ .text location) (hunclaimed : Unclaimed f p.location location) (src : σ)
    : ∃ src', (apply atlas (.target (.text location) .null)).run (n, src)
      = (moveTo atlas (.text location) .null).run (n, src') := by
  have hrun := run_apply_target hf location none n src
  have hdiffer : ¬ p.location.same (.text location) = true := by
    rw [Value.same_text_iff]
    exact haway
  rw [if_neg hlocation, hpointer] at hrun
  dsimp only [Option.getD_none] at hrun
  rw [if_neg (not_not.mpr rfl), if_neg hdiffer] at hrun
  by_cases hscenes : Atlas.scenes (infoOf f (.text location)) = []
  . have hsearch := hunclaimed.resolve_left (not_not.mpr hscenes)
    obtain ⟨src', hlocal⟩ := rests_isLocalScene hf (p := p) hregistered hsearch
      ((atlas.location (.text location)).run src).2
    rw [if_neg (not_not.mpr hscenes), hlocal] at hrun
    exact ⟨src', hrun⟩
  . rw [if_pos hscenes] at hrun
    exact ⟨_, hrun⟩

/-- Where a move leads does not depend on what the source has been asked before. -/
theorem run_moveTo_of_sources (hf : Answers f atlas.location) {location scene : Value ρ}
    {result : Except Fault (Option (Pointer ρ))} {src src₁ : σ}
    (h : (moveTo atlas location scene).run (n, src) = (result, n', src₁)) (src' : σ)
    : ∃ src₂, (moveTo atlas location scene).run (n, src') = (result, n', src₂) := by
  have hmirrors : ∀ id, Act.Mirrors (fun _ _ => True) (atlas.location id) (atlas.location id) := by
    intro id s t _
    exact ⟨(hf id s).trans (hf id t).symm, trivial⟩
  have hmoves : Act.Mirrors (Act.Beside fun _ _ => True) (moveTo atlas location scene)
      (moveTo atlas location scene) := mirrors_moveTo hmirrors location scene
  obtain ⟨hresult, hstate⟩ := hmoves (n, src) (n, src') (.intro n trivial)
  rw [h] at hresult hstate
  rcases hrun : (moveTo atlas location scene).run (n, src') with ⟨result', n₁, src₂⟩
  rw [hrun] at hresult hstate
  cases hresult
  cases hstate
  exact ⟨src₂, rfl⟩

/-- A request for a location that has ended well has come there, to the scene that it starts with or
the one that the time has put in its place. -/
theorem enters_of_moveTo (hf : Answers f atlas.location) (hlocation : location ≠ "")
    {result : Option (Pointer ρ)} {src src' : σ}
    (h : (moveTo atlas (.text location) .null).run (n, src) = (.ok result, n', src'))
    : ∃ p, result = some p ∧ n'.pointer = some p ∧ p.location = .text location
      ∧ atlas.gate (infoOf f (.text location)) (Atlas.resolve (infoOf f (.text location)) .null)
        = .ok p.scene := by
  have harrives := moveTo_arrives hf (Value.isGiven_text.mpr hlocation) .null n src
  rw [h] at harrives
  rcases harrives with ⟨⟨e, herror⟩, _⟩ | ⟨p, r, harrival, hok, hstands⟩
  . cases herror
  . obtain ⟨v, hv, hgate⟩ := harrival.scene_eq
    obtain rfl : (.null : Value ρ) = v := Except.ok.inj hv
    rw [harrival.location_text] at hgate
    exact ⟨p, Except.ok.inj hok, hstands.1, harrival.location_text, hgate⟩

end Navigation

/-! ### The time of a way -/

/-- The clock after a way that takes so many hours; no hours, or none to speak of, leave it as it
is. -/
def Clock.spend (hours : Option ρ) (c : Clock ρ) : Clock ρ :=
  match hours with
  | some h => if Scalar.lt Scalar.zero h then ((tick (.real h)).run c).2 else c
  | none => c

namespace Effect

/-- The actions of so many hours that something takes. -/
def spent (hours : Option ρ) : List (Effect ρ) :=
  match hours with
  | some h => if Scalar.lt Scalar.zero h then [.time h] else []
  | none => []

theorem compile_of_read {definition cost : Value ρ} {hours : Option ρ} {effects : List (Effect ρ)}
    (hcost : cost.finite? = .ok hours) (hread : read definition = .ok effects)
    : compile definition cost = .ok (spent hours ++ effects) := by
  unfold compile
  rw [hcost, hread]
  cases hours with
  | none => rfl
  | some h => rfl

theorem still_spent (hours : Option ρ) : ∀ effect ∈ spent hours, effect.Still := by
  unfold spent
  intro effect heffect
  split at heffect
  . split at heffect
    . obtain rfl := List.mem_singleton.mp heffect
      exact nofun
    . cases heffect
  . cases heffect

omit [Scalar ρ] in
theorem timeless_jump (location : String) (scene : Option String)
    : ∀ effect ∈ (jump location scene : List (Effect ρ)), effect.Timeless := by
  unfold jump
  intro effect heffect
  split at heffect
  . cases heffect
  . obtain rfl := List.mem_singleton.mp heffect
    exact nofun

theorem read_route {route : String} (htrim : Text.strip route = route)
    : read (.text (goId ++ ":" ++ route) : Value ρ)
      = .ok (jump (Text.cut route).1 (nonempty? (Text.cut (Text.cut route).2).1)) := by
  have hcompile := compile_route (ρ := ρ) htrim
  obtain ⟨effects, hread⟩ : ∃ effects, read (.text ("go:" ++ route) : Value ρ) = .ok effects :=
    ⟨_, rfl⟩
  have hnull : (Value.null : Value ρ).finite? = .ok none := rfl
  rw [compile_of_read hnull hread] at hcompile
  exact hread.trans hcompile

/-- A location that a route names as a whole: no colon cuts it, or it begins with one, and is then
read as no route. -/
def Whole (location : String) : Prop :=
  (Text.cut location).1 = location ∨ (Text.cut location).1 = ""

theorem read_whole {location : String} (htrim : Text.strip location = location)
    (hne : location ≠ "") (hwhole : Whole location)
    : ∃ jumps, read (.text (goId ++ ":" ++ location) : Value ρ) = .ok jumps
      ∧ (jumps = [.go location none] ∨ jumps = []) := by
  refine ⟨_, read_route htrim, ?_⟩
  unfold jump
  rcases hwhole with hcut | hcut
  . rw [Text.cut_of_fst_eq hcut, if_neg hne]
    exact .inl rfl
  . rw [hcut, if_pos rfl]
    exact .inr rfl

end Effect

namespace Session

theorem reached_time : Duty.bus.reached Topic.time = [⟨10, 1, .time⟩] := by
  unfold Bus.reached
  have hrows : (Duty.bus.topics.flatMap fun (key, rows) =>
      if Topic.covers key Topic.time then rows else []) = [⟨10, 1, .time⟩] := by rfl
  rw [hrows, List.mergeSort_singleton]

theorem clock_pass (hours : Value ρ) (s : Session ρ σ)
    : ((pass hours).run s).2.clock = ((Clock.tick hours).run s.clock).2 := by
  unfold pass
  rw [Act.run_bind, run_onClock]
  rcases (Clock.tick hours).run s.clock with ⟨e | told, c⟩
  . rfl
  . dsimp only
    split
    . rfl
    . rfl

/-- Time that is published and goes by moves the clock by as much. -/
theorem clock_publish_time {hours : ρ} (hpos : Scalar.lt Scalar.zero hours = true)
    (s : Session ρ σ)
    : ((publish content Topic.time (.hours hours)).run s).2.clock
      = ((Clock.tick (.real hours)).run s.clock).2 := by
  let noted : Session ρ σ := { s with journal := s.journal ++ [(Topic.time, .hours hours)] }
  have hpass := clock_pass (.real hours) noted
  unfold publish
  rw [Act.run_modify]
  unfold Bus.publish
  dsimp only
  rw [reached_time, List.foldl_cons, List.foldl_nil]
  unfold Bus.deliver perform
  dsimp only
  rw [if_pos hpos]
  rcases hrun : (pass (.real hours)).run noted with ⟨e | u, s'⟩
  . rw [hrun] at hpass
    exact hpass
  . rw [hrun] at hpass
    exact hpass

/-- When the time of a way has gone by, the clock has moved on, and the player has not. -/
theorem before_spent (content : Content ρ σ) (hours : Option ρ) (s : Session ρ σ)
    : let s' := before content (Effect.spent hours) s
      s'.clock = s.clock.spend hours ∧ s'.navigation = s.navigation ∧ s'.sources = s.sources := by
  unfold before Effect.spent Clock.spend
  cases hours with
  | none => exact ⟨rfl, rfl, rfl⟩
  | some h =>
    dsimp only
    by_cases hpos : Scalar.lt Scalar.zero h = true
    . rw [if_pos hpos, if_pos hpos]
      obtain ⟨time, ended, dayEnded, heq⟩ := perform_touches content s (.time h)
      have hplayed : (((crew content).performAll .null [.time h]).run s).2
          = (((crew content).perform (.time h)).run s).2 := by
        unfold Crew.performAll
        rw [Act.run_bind, Act.run_attempt]
        dsimp only
        split
        . rfl
        . rfl
      have hclock : (((crew content).perform (.time h)).run s).2.clock
          = ((Clock.tick (.real h)).run s.clock).2 := by
        unfold Crew.perform
        dsimp only
        rw [if_pos hpos, Act.run_bind_pure_snd]
        exact clock_publish_time hpos s
      rw [hplayed]
      refine ⟨hclock, ?_, ?_⟩
      . rw [heq]
      . rw [heq]
    . rw [if_neg hpos, if_neg hpos]
      exact ⟨rfl, rfl, rfl⟩

/-! ### The turn of a way -/

/-- A turn up to where its scene is shown; none where there is no scene. -/
def opening (content : Content ρ σ) (view : View ρ V) :
    Act (Turn.Seat ρ (Session ρ σ) V) (Option (Scene ρ)) := do
  match ← Turn.onPlay (scene? content) with
  | none => return none
  | some scene =>
    Turn.onPlay (onGoods (Belongings.onLedger
      (Ledger.applyScene (.text scene.location) (.list (scene.items.map .object)))))
    Turn.onView (view.showTime (← Act.lift (timeView (← get).play)))
    return some scene

theorem ponder_eq (content : Content ρ σ) (view : View ρ V)
    : ponder content view = (do
      match ← opening content view with
      | none => return none
      | some scene =>
        some <$> Turn.decide (stage content) view scene (view.remaining (← get).view + 1)) := by
  unfold ponder opening
  rw [bind_assoc]
  congr 1
  funext found
  cases found with
  | none => rfl
  | some scene => simp only [bind_assoc, pure_bind]

/-- In the turn that begins at a seat a way to a location is picked, whose option has no effect of
its own; at the other seat it is about to be gone. -/
structure Departs (content : Content ρ σ) (view : View ρ V) (location : String) (c : Choice ρ)
    (seat mid : Turn.Seat ρ (Session ρ σ) V) : Prop where
  picked : ∃ scene opened last, (opening content view).run seat = (.ok (some scene), opened)
    ∧ Turn.Again (stage content) view scene opened last
    ∧ (Turn.plan (stage content) view scene).run last = (.ok (some c), mid)
  location_eq : Record.field c.details "location_id" = .text location
  undeclared : (Record.field c.details "effect").isGiven = false

/-- A turn that picks a way in its first round. -/
def setOff (content : Content ρ σ) (view : View ρ V) :
    Act (Turn.Seat ρ (Session ρ σ) V) (Option (Choice ρ)) := do
  match ← opening content view with
  | none => return none
  | some scene => Turn.plan (stage content) view scene

theorem departs_of_setOff {view : View ρ V} {location : String} {c : Choice ρ}
    {seat mid : Turn.Seat ρ (Session ρ σ) V}
    (h : (setOff content view).run seat = (.ok (some c), mid))
    (hlocation : Record.field c.details "location_id" = .text location)
    (hundeclared : (Record.field c.details "effect").isGiven = false)
    : Departs content view location c seat mid := by
  obtain ⟨found, opened, hopening, hplan⟩ := Act.run_bind_eq_ok.mp h
  cases found with
  | none => cases hplan
  | some scene =>
    exact ⟨⟨scene, opened, opened, hopening, .refl opened, hplan⟩, hlocation, hundeclared⟩

/-- What has come of a session when a way is about to be gone: the player is at a scene of a
location that is registered, and the clock and the speed are what they were. -/
structure Waiting (s t : Session ρ σ) : Prop where
  clock_eq : t.clock = s.clock
  speed_eq : t.goods.speed = s.goods.speed
  here : ∃ p, t.navigation.pointer = some p ∧ Navigation.Registered t.navigation.registry p.location
  trim : s.navigation.registry.Trim → t.navigation.registry.Trim

theorem Waiting.of_read {s t u : Session ρ σ} (h : Waiting s t) (hread : Read content t u)
    : Waiting s u := by
  obtain ⟨sources, _, rfl⟩ := hread
  exact { h with }

theorem current_registers {atlas : Atlas ρ σ} (hf : Answers f atlas.location) {n n' : Navigation ρ}
    {src src' : σ} {scene : Scene ρ}
    (h : (Navigation.current atlas).run (n, src) = (.ok (some scene), n', src'))
    : ∃ p, n'.pointer = some p ∧ Navigation.Registered n'.registry p.location := by
  rcases Option.eq_none_or_eq_some n.pointer with hpointer | ⟨p, hpointer⟩
  . rw [Navigation.run_current_none hpointer] at h
    cases h
  . obtain ⟨v, _, _, _, _, hregistered, heq⟩ := Navigation.current_eq_ok hf hpointer h
    exact ⟨⟨p.location, v⟩, by rw [heq], hregistered⟩

theorem waiting_of_opening (hf : Answers f content.location) {view : View ρ V}
    {seat opened : Turn.Seat ρ (Session ρ σ) V} {scene : Scene ρ}
    (h : (opening content view).run seat = (.ok (some scene), opened))
    : Waiting seat.play opened.play := by
  obtain ⟨found, looked, hlook, h⟩ := Act.run_bind_eq_ok.mp h
  cases found with
  | none => cases h
  | some found =>
    obtain ⟨_, declared, hdeclared, h⟩ := Act.run_bind_eq_ok.mp h
    obtain ⟨_, _, hget, h⟩ := Act.run_bind_eq_ok.mp h
    cases hget
    obtain ⟨time, timed, htime, h⟩ := Act.run_bind_eq_ok.mp h
    obtain ⟨_, told, hshown, h⟩ := Act.run_bind_eq_ok.mp h
    obtain ⟨s₁, hscene, rfl⟩ := Turn.run_onPlay_eq_ok.mp hlook
    obtain ⟨s₂, hledger, rfl⟩ := Turn.run_onPlay_eq_ok.mp hdeclared
    obtain ⟨v, _, rfl⟩ := Turn.run_onView_eq_ok.mp hshown
    cases congrArg Prod.snd htime
    cases h
    have hnavigation : s₂.navigation = s₁.navigation :=
      (congrArg (fun run => run.2.navigation) hledger).symm
    have hcurrent : (Navigation.current (atlas content seat.play)).run
        (seat.play.navigation, seat.play.sources)
        = (.ok (some scene), s₁.navigation, s₁.sources) := by
      unfold scene? at hscene
      rw [run_navigate] at hscene
      have hstate := congrArg Prod.snd hscene
      exact Prod.ext (congrArg (fun run => run.1) hscene)
        (Prod.ext (congrArg Session.navigation hstate) (congrArg Session.sources hstate))
    have hanswers : Answers f (atlas content seat.play).location := hf
    constructor
    case clock_eq =>
      calc
        s₂.clock = s₁.clock := (congrArg (fun run => run.2.clock) hledger).symm
        _ = seat.play.clock := (congrArg (fun run => run.2.clock) hscene).symm
    case speed_eq =>
      calc
        s₂.goods.speed = s₁.goods.speed := (congrArg (fun run => run.2.goods.speed) hledger).symm
        _ = seat.play.goods.speed := (congrArg (fun run => run.2.goods.speed) hscene).symm
    case here =>
      dsimp only
      rw [hnavigation]
      exact current_registers hanswers hcurrent
    case trim =>
      intro htrim
      have hkept : Act.Keeps (fun n : Navigation ρ × σ => n.1.registry.Trim)
          (Navigation.current (atlas content seat.play)) := Navigation.travels_trim.current
      replace hkept := hkept (seat.play.navigation, seat.play.sources) htrim
      rw [hcurrent] at hkept
      dsimp only
      rw [hnavigation]
      exact hkept

theorem run_leaving {c : Choice ρ} {location : String} {time : Value ρ} {s : Session ρ σ}
    (hlocation : Record.field c.details "location_id" = .text location)
    (htime : Travel.hours s.goods.speed (Record.field c.details "time") Travel.kindTravel
      = .ok time)
    : (Turn.leaving (stage content) c).run s = (.ok (Turn.leads c location time), s) := by
  have hscaled : (Turn.scaledTime (stage content) (Record.field c.details "time")).run s
      = (.ok time, s) := by
    unfold Turn.scaledTime stage
    dsimp only
    rw [Act.run_bind, Act.run_attempt, Act.run_ask, htime]
    rfl
  unfold Turn.leaving Turn.leads
  dsimp only
  rw [hlocation, Value.text?_text, Act.run_bind, Act.run_lift]
  dsimp only
  rw [Act.run_bind, hscaled]
  rfl

/-- What is known when a way is about to be gone, and that the turn comes to going it. -/
theorem ponder_of_departs (hf : Answers f content.location) {view : View ρ V}
    (hview : view.Finite) {location : String} {c : Choice ρ}
    {seat mid : Turn.Seat ρ (Session ρ σ) V} (h : Departs content view location c seat mid)
    {time : Value ρ} (htime : Travel.hours seat.play.goods.speed (Record.field c.details "time")
      Travel.kindTravel = .ok time)
    : (ponder content view).run seat = (.ok (some (Turn.leads c location time)), mid)
      ∧ Waiting seat.play mid.play ∧ Table.has mid.play.navigation.registry location = true := by
  obtain ⟨scene, opened, last, hopening, hagain, hplan⟩ := h.picked
  have hopened := waiting_of_opening hf hopening
  have hlooks : (stage content).Looks (Read content opened.play) := looks_read opened.play
  obtain ⟨hmid, play, npc, location', row, hplay, hopen⟩ :=
    Turn.plan_eq_ok hlooks (hagain.play hlooks (.refl opened.play)) hplan
  have hwaiting : Waiting seat.play mid.play := hopened.of_read hmid
  refine ⟨?_, hwaiting, ?_⟩
  . rw [← hwaiting.speed_eq] at htime
    have hround : (Turn.round (stage content) view scene).run last
        = (.ok (some (Turn.leads c location time)), mid) := by
      rw [Turn.round_of_plan hplan]
      refine Act.run_map_eq_ok.mpr ⟨_, ?_, rfl⟩
      exact Turn.run_onPlay_eq_ok.mpr ⟨mid.play, run_leaving h.location_eq htime, rfl⟩
    have hdecide := Turn.decide_of_again hview hagain hround
      (Nat.lt_succ_self (view.remaining opened.view))
    rw [ponder_eq, Act.run_bind, hopening]
    dsimp only
    rw [Act.run_bind, Act.run_get]
    exact Act.run_map_eq_ok.mpr ⟨_, hdecide, rfl⟩
  . obtain ⟨sources, _, rfl⟩ := hplay
    obtain ⟨sources', _, hmid⟩ := hmid
    have hlocation := hopen.location_eq
    rw [h.location_eq, Value.text.injEq] at hlocation
    rw [hmid, hlocation]
    exact hopen.registered

/-- What is played and takes time first lets that go by; without time behind it the clock then
stays. -/
theorem clock_of_conclude {definition time otherwise : Value ρ} {effects effects' : List (Effect ρ)}
    (hcompile : Effect.compile definition time = .ok (effects ++ effects'))
    (htimeless : ∀ effect ∈ effects', effect.Timeless) (mid : Turn.Seat ρ (Session ρ σ) V)
    : ((conclude content (.play definition time otherwise)).run mid).2.play.clock
      = (before content effects mid.play).clock := by
  let Shows (s : Session ρ σ) : Prop := s.clock = (before content effects mid.play).clock
  have hplayed : Shows (((crew content).interpret definition time).run mid.play).2 := by
    unfold Crew.interpret
    rw [hcompile, Act.run_bind, Act.run_lift]
    dsimp only
    rw [Crew.performAll_append]
    refine Act.bind_of_keeps (P := Shows) rfl fun last => ?_
    have heffects' (effect : Effect ρ) (h : effect ∈ effects') :
        Act.Keeps Shows ((crew content).perform effect) :=
      keeps_perform_clock content (htimeless effect h) _
    exact Crew.keeps_performAll heffects' last
  have hmoves (outcome : Value ρ) : Act.Keeps Shows (navigate content fun atlas =>
      Navigation.apply atlas outcome) := by
    intro s hs
    rw [run_navigate]
    exact hs
  unfold conclude
  let Sees (seat : Turn.Seat ρ (Session ρ σ) V) : Prop := Shows seat.play
  refine Act.bind_of_keeps (P := Sees) ?_ fun result => ?_
  . change Shows _
    rw [Turn.run_onPlay]
    unfold Turn.Decision.carryOut stage
    dsimp only
    rw [Act.run_bind_pure_snd]
    exact hplayed
  . exact Act.keeps_bind (Turn.keeps_onPlay (hmoves result)) fun _ => Act.keeps_pure _

/-- A way that has led to its location, once its time had gone by, is where the turn ends. -/
theorem conclude_arrives (hf : Answers f content.location) {location : String}
    (htrim : Text.strip location = location) (hne : location ≠ "")
    (hwhole : Effect.Whole location) {time : Value ρ} {hours : Option ρ}
    (hhours : time.finite? = .ok hours) {mid : Turn.Seat ρ (Session ρ σ) V} {s : Session ρ σ}
    (hs : before content (Effect.spent hours) mid.play = s) {n : Navigation ρ} {src : σ}
    {p : Pointer ρ} (hmoved : (Navigation.apply (atlas content s)
      (.target (.text location) .null)).run (s.navigation, s.sources) = (.ok (some p), n, src))
    (hpointer : n.pointer = some p) (hlocation : p.location = .text location)
    : let run := (conclude content (.play (.text (goId ++ ":" ++ location)) time
        (.target (.text location) .null))).run mid
      (∃ v, run.1 = .ok v) ∧ run.2.play.navigation.pointer = some p := by
  intro run
  obtain ⟨jumps, hread, hjumps⟩ := Effect.read_whole (ρ := ρ) htrim hne hwhole
  have hcompile := Effect.compile_of_read hhours hread
  have hstill := Effect.still_spent hours
  rcases hplayed : ((crew content).interpret (.text (goId ++ ":" ++ location)) time).run mid.play
    with ⟨outcome, t⟩
  rcases hjumps with rfl | rfl
  . -- the jump is made when it is played, and once more from where it has led
    obtain ⟨hresult, hjumped, _⟩ := run_interpret_jump hcompile hstill (by simp) mid.play
    rw [hplayed] at hresult hjumped
    cases hresult
    have hthere : t.navigation = n := by
      obtain ⟨_, hnavigation, _⟩ := before_spent content hours mid.play
      rw [hs] at hjumped hnavigation
      rw [hnavigation] at hmoved
      exact hjumped.trans (congrArg (fun run => run.2.1) hmoved)
    have hanswers : Answers f (atlas content t).location := hf
    obtain ⟨src', hagain⟩ :=
      Navigation.rests_apply_here hanswers hne hpointer hlocation t.sources
    obtain ⟨hends, hok⟩ := run_conclude_jump (.target (.text location) .null) hplayed
    dsimp only [Value.ofText?] at hends hok
    rw [hthere, hagain] at hends hok
    refine ⟨hok.mpr ⟨_, rfl⟩, ?_⟩
    rw [hends]
    exact hpointer
  . -- what is no route is played as nothing, and the jump is made when that is over
    have hnothing : ((crew content).interpret (.text (goId ++ ":" ++ location)) time).run mid.play
        = (.ok .null, s) := by
      unfold Crew.interpret
      rw [hcompile, Act.run_bind, Act.run_lift, List.append_nil]
      exact Prod.ext (Crew.performAll_still hstill .null mid.play) hs
    obtain ⟨hends, hok⟩ := run_conclude (.target (.text location) .null) hnothing
    have houtcome : (Value.null : Value ρ).orNull (.target (.text location) .null)
        = .target (.text location) .null := rfl
    rw [houtcome, hmoved] at hends hok
    refine ⟨hok.mpr ⟨_, rfl⟩, ?_⟩
    rw [hends]
    exact hpointer

theorem lasting_trim : Lasting content fun s => s.navigation.registry.Trim := by
  apply Lasting.of_navigation (Q := fun _ n => n.registry.Trim)
  case htick => exact fun _ _ _ h => h
  case happly => exact fun outcome _ n src h => Navigation.travels_trim.apply outcome (n, src) h
  case hlook => exact fun _ n src h => Navigation.travels_trim.current (n, src) h

/-- Wherever a session is taken, locations are registered under names without blanks around them. -/
theorem trim_of_course {sources : σ} {traits : TraitBook ρ} {clock : Clock ρ} {place : Value ρ}
    {R : Session ρ σ → Snapshot ρ → Prop} {s₀ s : Session ρ σ}
    (hstart : start content sources traits clock place = .ok s₀) (hs : Course content R s₀ s)
    : s.navigation.registry.Trim := by
  refine lasting_trim.course ?_ ?_ hs
  . intro t snapshot _ ht
    exact keeps_restore_registry Registry.trim_ensure snapshot t ht
  . rcases (started hstart).navigation_eq with hnowhere | ⟨location, scene, result, src, hmove⟩
    . rw [hnowhere]
      exact Registry.trim_nil
    . have hkept : Act.Keeps (fun n : Navigation ρ × σ => n.1.registry.Trim)
          (Navigation.moveTo ⟨content.location, some (Atlas.openAt s₀.clock)⟩ location scene) :=
        Navigation.travels_trim.moveTo location scene
      replace hkept := hkept ({}, sources) Registry.trim_nil
      rw [hmove] at hkept
      exact hkept

/-- What comes of a request for a location. -/
def request (content : Content ρ σ) (location : String) (s : Session ρ σ) :
    Except Fault (Option (Pointer ρ)) :=
  ((navigate content fun atlas => Navigation.moveTo atlas (.text location) .null).run s).1

/-- Travel arrives. Wherever turns, effects and restores have led, a turn in which a way of the
travel menu is picked whose option has no effect of its own moves the clock on by the time of the
way at the pace of the player. Unless the name of its location is cut by a colon, the turn then ends
well: a player who is at the location already stays in place, and one who is not ends up where a
request for it leads by then, where the location does not mean a scene here. -/
theorem turn_travels (hf : Answers f content.location) {sources : σ} {traits : TraitBook ρ}
    {clock : Clock ρ} {place : Value ρ} {s₀ : Session ρ σ}
    (hstart : start content sources traits clock place = .ok s₀) {view : View ρ V}
    (hview : view.Finite) {seat mid : Turn.Seat ρ (Session ρ σ) V}
    (hs : Course content (fun _ _ => True) s₀ seat.play) {location : String} {c : Choice ρ}
    (h : Departs content view location c seat mid) {time : Value ρ} {hours : Option ρ}
    (htime : Travel.hours seat.play.goods.speed (Record.field c.details "time") Travel.kindTravel
      = .ok time)
    (hhours : time.finite? = .ok hours)
    : let run := (turn content view).run seat
      let arrived : Session ρ σ := { mid.play with clock := seat.play.clock.spend hours }
      run.2.play.clock = arrived.clock
      ∧ ∃ here, mid.play.navigation.pointer = some here ∧ (Effect.Whole location →
        (here.location = .text location →
          (∃ v, run.1 = .ok v) ∧ run.2.play.navigation.pointer = some here)
        ∧ (here.location ≠ .text location → Navigation.Unclaimed f here.location location →
          ∀ result, request content location arrived = .ok result →
          (∃ v, run.1 = .ok v) ∧ run.2.play.navigation.pointer = result
          ∧ ∃ p, result = some p ∧ p.location = .text location
            ∧ (atlas content arrived).gate (infoOf f (.text location))
              (Atlas.resolve (infoOf f (.text location)) .null) = .ok p.scene)) := by
  intro run arrived
  obtain ⟨hponder, hwaiting, hregistered⟩ := ponder_of_departs hf hview h htime
  obtain ⟨hne, htrim⟩ := hwaiting.trim (trim_of_course hstart hs) location hregistered
  obtain ⟨here, hpointer, hhere⟩ := hwaiting.here
  have hleads : Turn.leads c location time = .play (.text (goId ++ ":" ++ location)) time
      (.target (.text location) .null) := by
    unfold Turn.leads Value.orElse
    rw [h.location_eq, h.undeclared]
    rfl
  have hrun : run = (conclude content (.play (.text (goId ++ ":" ++ location)) time
      (.target (.text location) .null))).run mid := by
    change (turn content view).run seat = _
    rw [turn_eq, Act.run_bind, hponder, hleads]
  obtain ⟨s, hs⟩ : ∃ s, before content (Effect.spent hours) mid.play = s := ⟨_, rfl⟩
  obtain ⟨hclock, hnavigation, hsources⟩ := before_spent content hours mid.play
  rw [hs] at hclock hnavigation hsources
  rw [hwaiting.clock_eq] at hclock
  rw [hrun]
  refine ⟨?_, here, hpointer, fun hwhole => ⟨fun hlocation => ?_, ?_⟩⟩
  . have hcompile := Effect.compile_of_read hhours (Effect.read_route htrim)
    rw [clock_of_conclude hcompile (Effect.timeless_jump _ _), hs]
    exact hclock
  . have hanswers : Answers f (atlas content s).location := hf
    obtain ⟨src, hstays⟩ := Navigation.rests_apply_here hanswers hne (hnavigation ▸ hpointer)
      hlocation s.sources
    exact conclude_arrives hf htrim hne hwhole hhours hs hstays (hnavigation ▸ hpointer) hlocation
  . intro haway hunclaimed result hresult
    have hanswers : Answers f (atlas content s).location := hf
    have hatlas : atlas content arrived = atlas content s := by
      unfold atlas
      rw [hclock]
    unfold request at hresult
    rw [run_navigate, hatlas] at hresult
    rcases hmove : (Navigation.moveTo (atlas content s) (.text location) .null).run
      (s.navigation, s.sources) with ⟨outcome, n, src⟩
    have houtcome : outcome = .ok result := by
      rw [hnavigation, hsources] at hmove
      rw [← hresult]
      exact (congrArg Prod.fst hmove).symm
    subst houtcome
    obtain ⟨p, rfl, hthere, hlocation, hgate⟩ := Navigation.enters_of_moveTo hanswers hne hmove
    obtain ⟨src', haway⟩ := Navigation.run_apply_away hanswers hne (hnavigation ▸ hpointer)
      (hnavigation ▸ hhere) haway hunclaimed s.sources
    obtain ⟨src₂, hmoved⟩ := Navigation.run_moveTo_of_sources hanswers hmove src'
    obtain ⟨hends, hpointer'⟩ := conclude_arrives hf htrim hne hwhole hhours hs
      (haway.trans hmoved) hthere hlocation
    rw [hatlas]
    exact ⟨hends, hpointer', p, rfl, hlocation, hgate⟩

def market : Memory Rat where
  locations := [
    ("market", [("scenes", .list [
      .object [("id", .text "gate")],
      .object [("id", .text "hall"), ("optionIds", .list [.text "go"]),
        ("path", .list [.text "shop", .text "buy", .text "market", .text "shop:noon"])],
      .object [("id", .text "buy")]])]),
    ("shop", [("scenes", .list [
      .object [("id", .text "morning"), ("from", .int 6), ("to", .int 10)],
      .object [("id", .text "noon"), ("from", .int 10), ("to", .int 14)]])]),
    ("buy", [])]
  options := [("market", [("go", [("id", .text "go"), ("time", .int 2)])])]

def marketHall : Value Rat := .object [("locationId", .text "market"), ("sceneId", .text "hall")]

/-- At the market, about to ask for the way to a location. -/
def atMarket (s₀ : Session Rat Unit) (location : String) :
    Turn.Seat Rat (Session Rat Unit) (Script Rat) :=
  ⟨s₀, .null, { picks := [.text goId], pathPicks := [.text (goId ++ ":" ++ location)] }⟩

/-- Whether a way of no effect leads to this location, and takes two hours at this pace. -/
def isWay (speed : Rat) (location : String) (c : Choice Rat) : Bool :=
  Turn.isId (Record.field c.details "location_id") location
    && !(Record.field c.details "effect").isGiven
    && (Travel.hours speed (Record.field c.details "time") Travel.kindTravel).toOption.any
      fun time => time.finite?.toOption.any (· == some 2)

theorem departs_of_isWay {location : String}
    {seat mid : Turn.Seat Rat (Session Rat Unit) (Script Rat)}
    {found : Except Fault (Option (Choice Rat))}
    (hrun : (setOff market.content Script.view).run seat = (found, mid))
    (h : found.toOption.any (fun c? => c?.any (isWay seat.play.goods.speed location)) = true)
    : ∃ c time, Departs market.content Script.view location c seat mid
      ∧ Travel.hours seat.play.goods.speed (Record.field c.details "time") Travel.kindTravel
        = .ok time
      ∧ time.finite? = .ok (some 2) := by
  obtain ⟨c?, rfl, hfound⟩ := Fault.any_eq_true.mp h
  obtain ⟨c, rfl, hway⟩ := (Option.any_eq_true _ _).mp hfound
  unfold isWay at hway
  rw [Bool.and_eq_true, Bool.and_eq_true, Turn.isId_iff, Bool.not_eq_true'] at hway
  obtain ⟨⟨hlocation, hundeclared⟩, hway⟩ := hway
  obtain ⟨time, htime, hway⟩ := Fault.any_eq_true.mp hway
  obtain ⟨hours, hhours, hway⟩ := Fault.any_eq_true.mp hway
  obtain rfl := beq_iff_eq.mp hway
  exact ⟨c, time, departs_of_setOff hrun hlocation hundeclared, htime, hhours⟩

/-- The shop is left for in the morning, and its noon is come to. -/
theorem turn_travels_shop
    : ∃ (s₀ : Session Rat Unit) (mid : Turn.Seat Rat (Session Rat Unit) (Script Rat))
      (c : Choice Rat) (time : Value Rat),
      start market.content () {} {} marketHall = .ok s₀
      ∧ Departs market.content Script.view "shop" c (atMarket s₀ "shop") mid
      ∧ Travel.hours s₀.goods.speed (Record.field c.details "time") Travel.kindTravel = .ok time
      ∧ time.finite? = .ok (some 2)
      ∧ let t := ((turn market.content Script.view).run (atMarket s₀ "shop")).2.play
        t.clock = s₀.clock.spend (some 2) ∧ t.clock.time.same (.real 11) = true
        ∧ ∃ p, t.navigation.pointer = some p ∧ p.location = .text "shop"
          ∧ p.scene.same (.text "noon") = true := by
  let trip (s₀ : Session Rat Unit) : Bool :=
    let (found, mid) := (setOff market.content Script.view).run (atMarket s₀ "shop")
    let t := ((turn market.content Script.view).run (atMarket s₀ "shop")).2.play
    found.toOption.any (fun c? => c?.any (isWay s₀.goods.speed "shop"))
      && mid.play.navigation.pointer.any (fun here => !here.location.same (.text "shop"))
      && (request market.content "shop"
        { mid.play with clock := s₀.clock.spend (some 2) }).toOption.isSome
      && t.clock.time.same (.real 11)
      && t.navigation.pointer.any fun p => p.scene.same (.text "noon")
  have htrip : ((start market.content () {} {} marketHall
      : Except Fault (Session Rat Unit)).toOption.any trip) = true := by decide +kernel
  obtain ⟨s₀, hstart, htrip⟩ := Fault.any_eq_true.mp htrip
  dsimp only [trip] at htrip
  rcases hrun : (setOff market.content Script.view).run (atMarket s₀ "shop") with ⟨found, mid⟩
  rw [hrun] at htrip
  simp only [Bool.and_eq_true] at htrip
  obtain ⟨⟨⟨⟨hway, hleaves⟩, hmoves⟩, htime⟩, hscene⟩ := htrip
  obtain ⟨c, time, hdeparts, hhours, hfinite⟩ := departs_of_isWay hrun hway
  obtain ⟨hclock, here, hpointer, hcomes⟩ := turn_travels (Memory.answers market) hstart
    Script.view_finite .none hdeparts hhours hfinite
  refine ⟨s₀, mid, c, time, hstart, hdeparts, hhours, hfinite, hclock, htime, ?_⟩
  have hleaves' : here.location ≠ .text "shop" := by
    rw [hpointer, Option.any_some, Bool.not_eq_true', ← Bool.not_eq_true, Value.same_text_iff]
      at hleaves
    exact hleaves
  have hwhole : Effect.Whole "shop" := .inl (by decide +kernel)
  have hscenes : Navigation.Unclaimed (fun id => do
      return .object ((Table.get? market.locations (← id.text?)).getD []))
      here.location "shop" := by
    refine .inl ?_
    rw [← List.isEmpty_eq_false_iff]
    decide +kernel
  obtain ⟨result, hresult⟩ := Option.isSome_iff_exists.mp hmoves
  obtain ⟨_, hthere, p, rfl, hlocation, _⟩ :=
    (hcomes hwhole).2 hleaves' hscenes result (Fault.eq_ok_of_toOption hresult)
  rw [hthere] at hscene
  exact ⟨p, hthere, hlocation, hscene⟩

/-- Three ways that lead elsewhere than a request for their location does: to a scene of the market
that has the name of a location without scenes, to where the player is already, and to a scene that
the name of a location is cut into. -/
theorem turn_travels_astray
    : ∃ s₀ : Session Rat Unit, start market.content () {} {} marketHall = .ok s₀
      ∧ ∀ way ∈ [("buy", "market", "buy"), ("market", "market", "hall"),
          ("shop:noon", "shop", "noon")],
        ∃ (mid : Turn.Seat Rat (Session Rat Unit) (Script Rat)) (c : Choice Rat) (time : Value Rat),
          Departs market.content Script.view way.1 c (atMarket s₀ way.1) mid
          ∧ Travel.hours s₀.goods.speed (Record.field c.details "time") Travel.kindTravel = .ok time
          ∧ time.finite? = .ok (some 2)
          ∧ ∃ p q, ((turn market.content Script.view).run
              (atMarket s₀ way.1)).2.play.navigation.pointer = some p
            ∧ p.location = .text way.2.1 ∧ p.scene = .text way.2.2
            ∧ request market.content way.1
                { mid.play with clock := s₀.clock.spend (some 2) } = .ok (some q)
            ∧ q ≠ p := by
  let strays (s₀ : Session Rat Unit) (way : String × String × String) : Bool :=
    let (found, mid) := (setOff market.content Script.view).run (atMarket s₀ way.1)
    found.toOption.any (fun c? => c?.any (isWay s₀.goods.speed way.1))
      && ((turn market.content Script.view).run
        (atMarket s₀ way.1)).2.play.navigation.pointer.any
          (fun p => Turn.isId p.location way.2.1 && Turn.isId p.scene way.2.2)
      && (request market.content way.1
        { mid.play with clock := s₀.clock.spend (some 2) }).toOption.any fun q? => q?.any
          fun q => !(Turn.isId q.location way.2.1 && Turn.isId q.scene way.2.2)
  have hall : ((start market.content () {} {} marketHall
      : Except Fault (Session Rat Unit)).toOption.any fun s₀ =>
        [("buy", "market", "buy"), ("market", "market", "hall"), ("shop:noon", "shop", "noon")].all
          (strays s₀)) = true := by decide +kernel
  obtain ⟨s₀, hstart, hstrays⟩ := Fault.any_eq_true.mp hall
  refine ⟨s₀, hstart, fun way hmem => ?_⟩
  have hway := List.all_eq_true.mp hstrays way hmem
  dsimp only [strays] at hway
  rcases hrun : (setOff market.content Script.view).run (atMarket s₀ way.1) with ⟨found, mid⟩
  rw [hrun] at hway
  rw [Bool.and_eq_true, Bool.and_eq_true] at hway
  obtain ⟨⟨hway, hends⟩, hasked⟩ := hway
  obtain ⟨c, time, hdeparts, hhours, hfinite⟩ := departs_of_isWay hrun hway
  obtain ⟨p, hpointer, hp⟩ := (Option.any_eq_true _ _).mp hends
  obtain ⟨q?, hresult, hfound⟩ := Fault.any_eq_true.mp hasked
  obtain ⟨q, rfl, hq⟩ := (Option.any_eq_true _ _).mp hfound
  have hne : q ≠ p := by
    rintro rfl
    rw [hp] at hq
    cases hq
  rw [Bool.and_eq_true, Turn.isId_iff, Turn.isId_iff] at hp
  exact ⟨mid, c, time, hdeparts, hhours, hfinite, p, q, hpointer, hp.1, hp.2, hresult, hne⟩

end Session

end Storyworld
