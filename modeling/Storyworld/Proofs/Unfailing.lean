import Storyworld.Proofs.Arrival
import Storyworld.Proofs.Reached
import Storyworld.Proofs.Speed
import Storyworld.Proofs.Steady
import Storyworld.View.Script

/-!
This module contains sessions that do not fail: in a playable story every session that starts at a
location with a name can be started, and each of its turns ends well.
-/

namespace Storyworld

variable {ρ σ : Type} [Scalar ρ]

/-- A scripted player whose answers are answers to a turn never stops it. -/
theorem Script.calm
    : (view : View ρ (Script ρ)).Calm fun s => ∀ v ∈ s.picks, v.IsAnswer where
  scene dto s hs := by
    refine ⟨_, _, rfl, fun v hv => hs v (List.mem_of_mem_tail hv), ?_⟩
    cases hpicks : s.picks with
    | nil => exact nofun
    | cons pick picks => exact hs pick (hpicks ▸ List.mem_cons_self)
  path _ _ s hs := ⟨_, _, rfl, hs, trivial⟩
  pack _ s hs := ⟨_, _, rfl, hs, trivial⟩
  result _ s hs := ⟨_, _, rfl, hs, trivial⟩
  time _ s hs := ⟨_, _, rfl, hs, trivial⟩

/-! ### Items -/

theorem Ledger.gives_raise (location : String) {item : Record ρ}
    (h : Record.Plain item) (hdeclared : (declared item).fitsScalar = true)
    : Act.Gives (fun _ => True) (raise location item) fun _ => True := by
  have hquantity : Fault.Gives (quantity (declared item) 1) fun _ => True := by
    obtain ⟨x, hx⟩ := Value.real?_of_fitsScalar hdeclared
    unfold quantity
    refine Fault.Gives.bind ⟨x, hx, trivial⟩ fun reading (_ : True) => ?_
    split
    . exact Fault.gives_pure trivial
    . split
      . exact Fault.gives_pure trivial
      . exact Fault.gives_pure trivial
  unfold raise
  refine (Act.gives_lift hquantity).bind fun qty _ => ?_
  refine (Act.gives_lift (Menu.gives_text? (h.field "id"))).bind fun id _ => ?_
  refine Act.gives_get.bind fun l _ => ?_
  split
  . intro s _
    exact ⟨_, _, rfl, trivial, trivial⟩
  . exact Act.gives_pure trivial

theorem Ledger.mem_sceneItems {item : Record ρ} {vs : List (Value ρ)} (h : item ∈ sceneItems vs)
    : .object item ∈ vs := by
  fun_induction sceneItems vs with
  | case1 => cases h
  | case2 r vs hid ih =>
    rcases List.mem_cons.mp h with rfl | h
    . exact List.mem_cons_self
    . exact List.mem_cons_of_mem _ (ih h)
  | case3 r vs hid ih => exact List.mem_cons_of_mem _ (ih h)
  | case4 v vs hv ih => exact List.mem_cons_of_mem _ (ih h)

/-- What a scene declares can be taken over. -/
theorem Ledger.gives_applyScene (location : String) {items : List (Record ρ)}
    (h : ∀ item ∈ items, Record.Plain item ∧ (declared item).fitsScalar = true)
    : Act.Gives (fun _ => True) (applyScene (.text location) (.list (items.map .object)))
      fun _ => True := by
  have hitems : Fault.Gives (iterable (.list (items.map .object) : Value ρ)) fun vs =>
      ∀ item ∈ sceneItems vs, Record.Plain item ∧ (declared item).fitsScalar = true := by
    unfold iterable
    split
    . refine ⟨_, rfl, fun item hitem => ?_⟩
      obtain ⟨_, hmem, heq⟩ := List.mem_map.mp (mem_sceneItems hitem)
      cases heq
      exact h _ hmem
    . exact ⟨[], rfl, nofun⟩
  unfold applyScene
  split
  . refine (Act.gives_lift hitems).bind fun vs hvs => ?_
    refine Act.gives_forM fun item hitem => ?_
    refine (Act.gives_lift (Menu.gives_text? (.text location))).bind fun place _ => ?_
    exact gives_raise place (hvs item hitem).1 (hvs item hitem).2
  . exact Act.gives_pure trivial

namespace Inventory

variable {S : Type} {P : S → Prop}

theorem gives_entryOf (id : String) (quantity : Nat) {row : Record ρ} (h : Record.Portable row)
    : Fault.Gives (entryOf id quantity row) fun _ => True := by
  have hname := (h.plain.field "name").orElse (.text id)
  have hdescription := (h.plain.field "description").orElse (.text "")
  have hok : (entryOf id quantity row).isOk = true := isOk_entryOf.mpr
    ⟨h.speed, h.traits, (Menu.gives_text? hname).isOk, (Menu.gives_text? hdescription).isOk⟩
  cases hentry : entryOf id quantity row with
  | error e =>
    rw [hentry] at hok
    cases hok
  | ok e => exact ⟨e, rfl, trivial⟩

theorem gives_entries {content : Content ρ S} (h : content.Serves P) (inv : Inventory)
    : Act.Gives P (inv.entries content.lookup) fun _ => True := by
  have hnamed (id : String) {v : Value ρ} (hv : Record.Portable v.recordD) :
      Record.Portable (ItemLookup.named id v) := by
    have hid := hv.set (.inl rfl) (.text id)
    unfold ItemLookup.named
    dsimp only
    split
    . exact hid
    . exact hid.set (.inr rfl) ((hid.plain.field "title").orElse (.text id))
  have hlookup (id : String) :
      Act.Gives P (content.lookup id) fun v => Record.Portable v.recordD := by
    unfold Content.lookup
    refine (h.item? id).attempt.bind fun outcome houtcome => ?_
    obtain ⟨row?, rfl, hrow⟩ := houtcome
    cases row? with
    | none => exact Act.gives_pure Record.portable_nil
    | some row => exact Act.gives_pure (hrow row rfl)
  have hrecord (id : String) :
      Act.Gives P (ItemLookup.record content.lookup id) Record.Portable := by
    unfold ItemLookup.record
    refine (hlookup id).attempt.bind fun outcome houtcome => ?_
    obtain ⟨v, rfl, hv⟩ := houtcome
    exact Act.gives_pure (hnamed id hv)
  have hof (counts : List (String × Nat)) :
      Act.Gives P (entriesOf content.lookup counts) fun _ => True := by
    induction counts with
    | nil => exact Act.gives_pure trivial
    | cons count counts ih =>
      obtain ⟨id, quantity⟩ := count
      unfold entriesOf
      refine (hrecord id).bind fun row hrow => ?_
      refine (Act.gives_lift (gives_entryOf id quantity hrow)).bind fun entry _ => ?_
      exact ih.bind fun rest _ => Act.gives_pure trivial
  exact hof inv.counts

end Inventory

theorem Travel.finite?_hours (hρ : Scalar.HoldsHours ρ) {speed : ρ} {time v : Value ρ}
    (h : hours speed time kindTravel = .ok v) : ∃ x, v.finite? = .ok x := by
  have hnone : ∃ x, (.int 0 : Value ρ).finite? = .ok x :=
    Value.finite?_of_fitsScalar (hρ.fitsScalar (by decide) (by decide))
  unfold hours at h
  obtain ⟨x, _, h⟩ := Fault.bind_eq_ok.mp h
  cases x with
  | none =>
    obtain rfl := Except.ok.inj h
    exact hnone
  | some x =>
    dsimp only at h
    split at h
    . obtain rfl := Except.ok.inj h
      exact hnone
    . obtain rfl := Except.ok.inj h
      exact ⟨_, rfl⟩

/-! ### Sessions -/

omit [Scalar ρ] in
theorem Navigation.AllValid.placed [Scalar ρ] {f : Value ρ → Except Fault (Value ρ)}
    {asked : String → Prop} {n : Navigation ρ} (h : AllValid f asked n) : n.Placed := by
  intro p hp
  obtain ⟨hlocation, hdeclared, hliteral⟩ := h p (.inl hp)
  refine ⟨hlocation, ?_⟩
  by_cases hscenes : Atlas.scenes (infoOf f p.location) = []
  . rcases hliteral hscenes with hnull | ⟨s, _, htext⟩
    . rw [hnull]
      exact .null
    . rw [htext]
      exact .text s
  . obtain ⟨scene, _, htext⟩ := hdeclared hscenes
    rw [htext]
    exact .text _

namespace Session

/-- A session that can be played on: its clock can be read, the registry holds names without blanks
around them, and the player stands at a valid place. -/
structure Ready (f : Value ρ → Except Fault (Value ρ)) (c : Clock ρ) (n : Navigation ρ) : Prop where
  clock : c.Steady
  registry : n.registry.Trim
  places : Navigation.AllValid f (· ≠ "") n

def Poised (f : Value ρ → Except Fault (Value ρ)) (s : Session ρ σ) : Prop :=
  Ready f s.clock s.navigation

variable {f : Value ρ → Except Fault (Value ρ)} {m : Memory ρ}

theorem lasting_poised {content : Content ρ σ} (hf : Answers f content.location)
    : Lasting content (Poised f) := by
  refine Lasting.of_navigation (Q := Ready f) ?_ ?_ ?_
  . intro hours c n h
    exact { h with clock := Clock.steady_tick hours c h.clock }
  . intro outcome c n src h
    have hplaces := allValid_after hf c (.apply outcome) src h.places
    exact ⟨h.clock, Navigation.travels_trim.apply outcome (n, src) h.registry, hplaces⟩
  . intro c n src h
    have hplaces := allValid_after hf c .current src h.places
    exact ⟨h.clock, Navigation.travels_trim.current (n, src) h.registry, hplaces⟩

/-- The locations of a playable story can be read at any time that can be told. -/
theorem serves_atlas (hρ : Scalar.HoldsHours ρ) (hm : m.Playable) {s : Session ρ σ}
    (hs : s.clock.Steady) : (atlas m.content s).Serves where
  location id := by
    refine Act.ends_bind fun name => Act.ends_pure ?_
    cases hlocation : Table.get? m.locations name with
    | none => exact Record.walkable_nil
    | some info => exact hm.locations _ (Table.mem_of_get? hlocation)
  allows allows hallows scene hplain hscene := by
    cases hallows
    exact hs.gives_openAt hρ hplain hscene

variable (hρ : Scalar.HoldsHours ρ) (hm : m.Playable)
  (hf : Answers f (m.content : Content ρ σ).location)

include hf

theorem gives_interpret {definition cost : Value ρ} (hplain : definition.Plain)
    (hgrounded : Effect.Grounded definition) (hcost : ∃ x, cost.finite? = .ok x)
    : Act.Gives (Poised f) ((crew (m.content : Content ρ σ)).interpret definition cost)
      Value.IsJump := by
  refine Act.Gives.of_keeps ((lasting_poised hf).interpret definition cost) fun s _ => ?_
  obtain ⟨effects, hcompile, heffects⟩ := Effect.gives_compile hplain hgrounded hcost
  unfold Crew.interpret
  rw [hcompile]
  exact Crew.gives_performAll _ (.inl rfl) heffects s

include hρ hm

theorem gives_scene?
    : Act.Gives (Poised f) (scene? (m.content : Content ρ σ)) fun scene? =>
      ∀ scene ∈ scene?, scene.Passable :=
  Act.Gives.of_keeps (lasting_poised hf).look fun _ hs =>
    Navigation.gives_current (serves_atlas hρ hm hs.clock) hs.places.placed

theorem gives_apply {outcome : Value ρ} (houtcome : outcome.IsOutcome)
    : Act.Gives (Poised f) (navigate (m.content : Content ρ σ) fun atlas =>
      Navigation.apply atlas outcome) fun _ => True :=
  Act.Gives.of_keeps ((lasting_poised hf).apply outcome) fun _ hs =>
    Navigation.gives_apply (serves_atlas hρ hm hs.clock) houtcome hs.places.placed

theorem serves_stage : (stage (m.content : Content ρ σ)).Serves (Poised f) where
  content := hm.serves.within (R := fun _ => True) (fun _ _ => trivial) fun _ _ hs _ => { hs with }
  registry _ hs := hs.registry
  interpret _ _ hplain hgrounded hcost := gives_interpret hf hplain hgrounded hcost
  scale scale hscale hours := by
    obtain rfl := Option.some.inj hscale
    refine ⟨Act.keeps_ask _, fun s v hv => ?_⟩
    exact Travel.finite?_hours hρ hv
  pack := by
    refine Act.gives_get.bind fun s _ => ?_
    have hentries : Act.Gives (Poised f) (onSources (s.goods.inventory.entries
        (m.content : Content ρ σ).lookup)) fun _ => True :=
      Act.gives_within (Inventory.gives_entries (P := fun _ => True) hm.serves _)
        (fun _ _ => trivial) fun _ _ hs _ => { hs with }
    exact hentries.bind fun entries _ => Act.gives_pure trivial

omit hρ hm hf in
theorem gives_timeView {s : Session ρ σ} (hs : s.clock.Steady)
    : Fault.Gives s.timeView fun _ => True := by
  obtain ⟨face, hface⟩ := hs.time.face
  unfold timeView
  rw [hface]
  exact hs.gives_window.bind fun window _ => Fault.gives_pure trivial

/-- A turn ends well, and the session can be played on after it. -/
theorem gives_turn {V : Type} {I : V → Prop} {view : View ρ V} (hview : view.Calm I)
    : Act.Gives (Turn.Sits (Poised f) I) (turn (m.content : Content ρ σ) view) Value.IsOutcome := by
  have hzero : (.int 0 : Value ρ).fitsScalar = true := hρ.fitsScalar (by decide) (by decide)
  unfold turn
  refine (Turn.gives_onPlay (gives_scene? hρ hm hf)).bind fun scene? hscene => ?_
  cases scene? with
  | none => exact Act.gives_pure (.inl (.inl rfl))
  | some scene =>
    have hitems := (hscene scene rfl).items
    have hdeclare : Act.Gives (Poised f) (onGoods (Belongings.onLedger (Ledger.applyScene
        (.text scene.location) (.list (scene.items.map .object)))) : Act (Session ρ σ) Unit)
        fun _ => True :=
      Act.Gives.of_keeps ((lasting_poised hf).declare _ _) fun s _ =>
        (Ledger.gives_applyScene scene.location hitems).fst
    refine (Turn.gives_onPlay hdeclare).bind fun _ _ => ?_
    refine Act.gives_get.bind fun seat hseat => ?_
    refine (Act.gives_lift (gives_timeView hseat.play.clock)).bind fun time _ => ?_
    refine (Turn.gives_onView (hview.time time)).bind fun _ _ => ?_
    refine (Turn.gives_run (serves_stage hρ hm hf) hview hzero scene).bind fun result hresult => ?_
    refine (Turn.gives_onPlay (gives_apply hρ hm hf hresult)).bind fun _ _ => ?_
    exact Act.gives_pure hresult

theorem start_eq_ok {clock : Clock ρ} (hclock : clock.Steady) (sources : σ) (traits : TraitBook ρ)
    {location : String} (hlocation : Text.strip location ≠ "") (scene : Option String)
    : ∃ s, start m.content sources traits clock (.pointer (.text location) (.ofText? scene)) = .ok s
      ∧ Poised f s := by
  have hscene : (.ofText? scene : Value ρ).Plain := by
    cases scene with
    | none => exact .null
    | some scene => exact .text scene
  have hmove : Act.Gives (Poised f) (navigate (m.content : Content ρ σ) fun atlas =>
      Navigation.moveTo atlas (.text location) (.ofText? scene)) fun _ => True := by
    refine Act.Gives.of_keeps (fun s hs => ?_) fun s hs =>
      (Navigation.gives_moveTo (serves_atlas hρ hm hs.clock) ⟨location, rfl, hlocation⟩ hscene).fst
    have hplaces := allValid_after hf s.clock (.moveTo (.text location) (.ofText? scene)) s.sources
      hs.places
    exact ⟨hs.clock, Navigation.travels_trim.moveTo _ _ (s.navigation, s.sources) hs.registry,
      hplaces⟩
  obtain ⟨fresh, hfresh⟩ : ∃ fresh : Session ρ σ, fresh = {
      clock := clock.subscribe dayListener
      goods := {
        inventory := { listeners := [Belongings.speedListener, Belongings.traitListener] }
        traits
        speed := Travel.baseSpeed }
      sources } := ⟨_, rfl⟩
  have hposed : Poised f fresh := by
    subst hfresh
    refine ⟨hclock.subscribe dayListener, Registry.trim_nil, ?_⟩
    rintro p (hp | hp)
    . cases hp
    . cases hp
  obtain ⟨_, s, hrun, hs, _⟩ := hmove fresh hposed
  have hstart : (navigate (m.content : Content ρ σ) fun atlas =>
      Navigation.start atlas (.pointer (.text location) (.ofText? scene))).run fresh
      = (.ok (), s) := by
    rw [run_navigate] at hrun ⊢
    unfold Navigation.start
    dsimp only
    rw [Act.run_bind]
    rcases hmoved : (Navigation.moveTo (atlas m.content fresh) (.text location)
      (.ofText? scene)).run (fresh.navigation, fresh.sources) with ⟨_ | _, n, src⟩
    . rw [hmoved] at hrun
      cases hrun
    . rw [hmoved] at hrun
      cases hrun
      rfl
  refine ⟨s, ?_, hs⟩
  unfold start
  dsimp only
  rw [← hfresh, hstart]

omit hρ hm hf

end Session

end Storyworld
