import Storyworld.Proofs.Playable

/-!
This module contains turns in playable stories: with a view that never stops, every scene can be
shown, whatever is picked can be played, and a turn ends as soon as no answer is left.
-/

namespace Storyworld

variable {ρ S V : Type} [Scalar ρ] {P : S → Prop}

/-- Every location is registered under a name without blanks around it. -/
def Registry.Trim (registry : Registry ρ) : Prop :=
  ∀ key, Table.has registry key = true → key ≠ "" ∧ Text.strip key = key

/-- What a turn asks of the state of play can be answered while it has a property. -/
structure Stage.Serves (P : S → Prop) (stage : Stage ρ S) : Prop where
  content : stage.content.Serves P
  registry : ∀ s, P s → (stage.registry s).Trim
  interpret : ∀ definition cost, definition.Plain → Effect.Grounded definition →
    (∃ x, cost.finite? = .ok x) → Act.Gives P (stage.interpret definition cost) Value.IsJump
  scale : ∀ scale, stage.scale = some scale → ∀ hours,
    Act.Keeps P (scale hours) ∧ Act.Ends (fun v => ∃ x, v.finite? = .ok x) (scale hours)
  pack : Act.Gives P stage.pack fun _ => True

/-- A given answer is a text, and as a token it jumps to no location without a name. -/
def Value.IsAnswer (v : Value ρ) : Prop :=
  v.isGiven = true → ∃ s, v = .text s ∧ Effect.Grounded (.text s : Value ρ)

/-- A view that never stops, as long as the player has a property. -/
structure View.Calm (I : V → Prop) (view : View ρ V) : Prop where
  scene : ∀ dto, Act.Gives I (view.showScene dto) Value.IsAnswer
  path : ∀ choices title, Act.Gives I (view.showPath choices title) fun _ => True
  pack : ∀ dto, Act.Gives I (view.showPack dto) fun _ => True
  result : ∀ details, Act.Gives I (view.showResult details) fun _ => True
  time : ∀ dto, Act.Gives I (view.showTime dto) fun _ => True

/-! ### The travel menu -/

namespace Menu

/-- A way whose effect can be read and played. -/
structure Way (details : Record ρ) : Prop where
  location : ∃ l, Record.field details "location_id" = .text l ∧ l ≠ "" ∧ Text.strip l = l
  effect : (Record.field details "effect").Plain
  grounded : Effect.Grounded (Record.field details "effect")
  time : (Record.field details "time").fitsScalar = true

variable {stall : Stall ρ S}

theorem gives_pathChoice (h : stall.content.Serves P) (htrim : stall.registry.Trim)
    (hzero : (Value.int 0 : Value ρ).fitsScalar = true) (scene : Scene ρ) (env : Env ρ)
    {base : Record ρ} (hbase : (Record.field base "time").fitsScalar = true) (location : String)
    : Act.Gives P (pathChoice stall scene env base location) fun c? =>
      ∀ c ∈ c?, Way c.details := by
  unfold pathChoice
  cases hview : Table.get? stall.registry location with
  | none => exact Act.gives_pure (by simp)
  | some view =>
    have hlocation := htrim location (by simp [Table.has, hview])
    refine (h.option? scene.location _).bind fun row? hrow? => ?_
    have hrow : Record.Playable (row?.getD []) := by
      cases row? with
      | none => exact Record.playable_nil
      | some row => exact hrow? row rfl
    refine (Act.gives_lift (gives_open? stall env hrow.plain)).bind fun isOpen _ => ?_
    split
    . exact Act.gives_pure (by simp)
    . refine (Act.gives_lift (gives_label hrow.plain view.name)).bind fun name _ => ?_
      apply Act.gives_pure
      rintro c ⟨⟩
      have hsound := sound_of_playable hrow
      exact ⟨⟨location, rfl, hlocation⟩, hsound.effect, hsound.grounded,
        Value.fitsScalar_orNull (Value.fitsScalar_orNull hsound.time hbase) hzero⟩

theorem gives_pathChoices (h : stall.content.Serves P) (htrim : stall.registry.Trim)
    (hzero : (Value.int 0 : Value ρ).fitsScalar = true) (scene : Scene ρ) (npc : Value ρ)
    {base : Record ρ} (hbase : (Record.field base "time").fitsScalar = true)
    : Act.Gives P (pathChoices stall scene npc base) fun cs => ∀ c ∈ cs, Way c.details := by
  unfold pathChoices
  induction scene.path with
  | nil => exact Act.gives_pure (by simp)
  | cons location rest ih =>
    unfold pathChoicesTo
    refine (gives_pathChoice h htrim hzero scene _ hbase location).bind fun choice hchoice => ?_
    refine ih.bind fun choices hchoices => ?_
    apply Act.gives_pure
    simpa [or_imp, forall_and] using ⟨hchoice, hchoices⟩

end Menu

/-! ### Rounds -/

namespace Turn

variable {stage : Stage ρ S} {view : View ρ V} {I : V → Prop}

/-- The play and the player have their properties, and whoever is talked to has a name. -/
structure Sits (P : S → Prop) (I : V → Prop) (seat : Seat ρ S V) : Prop where
  play : P seat.play
  npc : seat.npc.Plain
  view : I seat.view

omit [Scalar ρ] in
theorem gives_onPlay {α : Type} {act : Act S α} {Q : α → Prop} (h : Act.Gives P act Q)
    : Act.Gives (Sits P I) (onPlay act : Act (Seat ρ S V) α) Q :=
  Act.gives_within h (fun _ hseat => hseat.play) fun _ _ hseat hplay => { hseat with play := hplay }

omit [Scalar ρ] in
theorem gives_onView {α : Type} {act : Act V α} {Q : α → Prop} (h : Act.Gives I act Q)
    : Act.Gives (Sits P I) (onView act : Act (Seat ρ S V) α) Q :=
  Act.gives_within h (fun _ hseat => hseat.view) fun _ _ hseat hview => { hseat with view := hview }

theorem gives_leave (h : stage.Serves P) {choice : Choice ρ} (hway : Menu.Way choice.details)
    : Act.Gives P (leave stage choice) Value.IsJump := by
  obtain ⟨l, hl, hne, htrim⟩ := hway.location
  have hscaled (hours : Value ρ) (hhours : hours.fitsScalar = true) :
      Act.Gives P (scaledTime stage hours) fun v => ∃ x, v.finite? = .ok x := by
    unfold scaledTime
    cases hscale : stage.scale with
    | none => exact Act.gives_pure (Value.finite?_of_fitsScalar hhours)
    | some scale =>
      obtain ⟨hkeeps, hends⟩ := h.scale scale hscale hours
      refine (Act.gives_attempt hkeeps).bind fun outcome houtcome => ?_
      cases outcome with
      | error e => exact Act.gives_pure (Value.finite?_of_fitsScalar hhours)
      | ok v =>
        obtain ⟨s, hs⟩ := houtcome
        exact Act.gives_pure (hends s v hs)
  have hplain (s : String) : ((Record.field choice.details "effect").orElse (.text s)).Plain :=
    hway.effect.orElse (.text s)
  have hgrounded : Effect.Grounded
      ((Record.field choice.details "effect").orElse (.text (goId ++ ":" ++ l))) := by
    unfold Value.orElse
    split
    . exact hway.grounded
    . exact Effect.grounded_way htrim
  unfold leave
  dsimp only
  rw [hl]
  refine (Act.gives_lift (Value.gives_text l)).bind fun location heq => ?_
  subst heq
  refine (hscaled _ hway.time).bind fun time htime => ?_
  refine (h.interpret _ time (hplain _) hgrounded htime).bind fun result hresult => ?_
  exact Act.gives_pure (hresult.orNull (.inr ⟨location, none, rfl, by rwa [htrim]⟩))

theorem gives_travel (h : stage.Serves P) (hview : view.Calm I)
    (hzero : (Value.int 0 : Value ρ).fitsScalar = true) (scene : Scene ρ) {base : Record ρ}
    (hbase : (Record.field base "time").fitsScalar = true)
    : Act.Gives (Sits P I) (travel stage view scene base) fun result? =>
      ∀ result ∈ result?, Value.IsJump result := by
  unfold travel
  refine Act.gives_get.bind fun seat hseat => ?_
  have hchoices : Act.Gives P (Menu.pathChoices (stall stage seat.play) scene seat.npc base)
      fun cs => ∀ c ∈ cs, Menu.Way c.details :=
    Menu.gives_pathChoices h.content (h.registry _ hseat.play) hzero scene seat.npc hbase
  refine (gives_onPlay hchoices).bind fun choices hways => ?_
  refine (gives_onView (hview.path _ _)).bind fun picked _ => ?_
  split
  . exact Act.gives_pure (by simp)
  . cases hfound : choices.find? fun c => isId picked c.id with
    | none => exact Act.gives_pure (by simp)
    | some choice =>
      have hway := hways choice (List.mem_of_find?_eq_some hfound)
      refine (gives_onPlay (gives_leave h hway)).map fun result hresult => ?_
      rintro _ ⟨⟩
      exact hresult

theorem gives_act (h : stage.Serves P) (hview : view.Calm I) {picked : String}
    (hpicked : Effect.Grounded (.text picked : Value ρ)) {details : Record ρ}
    (hdetails : Menu.Sound details)
    : Act.Gives (Sits P I) (act stage view picked details) Value.IsOutcome := by
  have hplain : ((Menu.effectOf details).orNull (.text picked)).Plain :=
    hdetails.effect.orNull (.text picked)
  have hgrounded : Effect.Grounded ((Menu.effectOf details).orNull (.text picked)) := by
    unfold Value.orNull
    split
    . exact hpicked
    . exact hdetails.grounded
  have hplayed : Act.Gives (Sits P I : Seat ρ S V → Prop) (do
      let result ← onPlay (stage.interpret ((Menu.effectOf details).orNull (.text picked))
        (Record.field details "time"))
      return result.orNull (.text picked)) Value.IsOutcome := by
    have hinterpret := h.interpret _ _ hplain hgrounded (Value.finite?_of_fitsScalar hdetails.time)
    refine (gives_onPlay hinterpret).bind fun result hresult => ?_
    apply Act.gives_pure
    unfold Value.orNull
    split
    . exact .inr ⟨picked, rfl, hpicked⟩
    . exact .inl hresult
  unfold act
  dsimp only
  split
  . exact (gives_onView (hview.result details)).bind fun _ _ => hplayed
  . exact hplayed

theorem gives_present (h : stage.Serves P) (hview : view.Calm I) (scene : Scene ρ)
    : Act.Gives (Sits P I) (present stage view scene) fun shown =>
      (∀ c ∈ shown.1, Menu.Sound c.details) ∧ shown.2.IsAnswer := by
  unfold present
  refine Act.gives_get.bind fun seat hseat => ?_
  have hcontent : (stall stage seat.play).content.Serves P := h.content
  have hmenu := Menu.gives_choices hcontent scene hseat.npc
  refine (gives_onPlay hmenu).bind fun choices hchoices => ?_
  refine (gives_onPlay (Menu.gives_sceneView hcontent scene hseat.npc choices)).bind fun dto _ => ?_
  refine (gives_onView (hview.scene dto)).bind fun answer hanswer => ?_
  exact Act.gives_pure ⟨hchoices, hanswer⟩

/-- However many scenes are shown, the turn ends well. -/
theorem gives_rounds (h : stage.Serves P) (hview : view.Calm I)
    (hzero : (Value.int 0 : Value ρ).fitsScalar = true) (scene : Scene ρ) (fuel : Nat)
    : Act.Gives (Sits P I) (rounds stage view scene fuel) Value.IsOutcome := by
  induction fuel with
  | zero => exact Act.gives_pure (.inl (.inl rfl))
  | succ fuel ih =>
    unfold rounds
    refine (gives_present h hview scene).bind fun shown hshown => ?_
    obtain ⟨choices, answer⟩ := shown
    obtain ⟨hchoices, hanswer⟩ := hshown
    dsimp only at hchoices hanswer ⊢
    split
    . exact Act.gives_pure (.inl (.inl rfl))
    next hgiven =>
      obtain ⟨picked, rfl, hpicked⟩ := hanswer (by simpa using hgiven)
      refine (Act.gives_lift (Value.gives_text picked)).bind fun id heq => ?_
      subst heq
      have hdetails : Menu.Sound ((choices.find? (·.id == id)).map Choice.details |>.getD []) := by
        cases hfound : choices.find? (·.id == id) with
        | none => exact Menu.sound_nil
        | some choice => exact hchoices choice (List.mem_of_find?_eq_some hfound)
      cases behind? talkStart id with
      | some npc =>
        refine (Act.gives_modify ?_).bind fun _ _ => ih
        intro seat hseat
        refine { hseat with npc := ?_ }
        dsimp only
        split
        . exact .null
        . exact .text npc
      | none =>
        dsimp only
        split
        . refine (gives_onPlay h.pack).bind fun dto _ => ?_
          exact (gives_onView (hview.pack dto)).bind fun _ _ => ih
        split
        . rename_i hexit
          exact Act.gives_pure (.inr ⟨exitId, rfl, hexit.1 ▸ hpicked⟩)
        split
        . refine (gives_travel h hview hzero scene hdetails.time).bind fun result? hresult => ?_
          cases result? with
          | none => exact ih
          | some result => exact Act.gives_pure (.inl (hresult result rfl))
        . exact gives_act h hview hpicked hdetails

theorem gives_run (h : stage.Serves P) (hview : view.Calm I)
    (hzero : (Value.int 0 : Value ρ).fitsScalar = true) (scene : Scene ρ)
    : Act.Gives (Sits P I) (run stage view scene) Value.IsOutcome :=
  Act.gives_get.bind fun _ _ => gives_rounds h hview hzero scene _

/-! ### Scenes that are shown -/

/-- At most so many answers are still to come. -/
def Awaits (view : View ρ V) (n : Nat) (seat : Seat ρ S V) : Prop := view.remaining seat.view ≤ n

omit [Scalar ρ] in
theorem awaits_onPlay {α : Type} (act : Act S α) (n : Nat)
    : Act.Keeps (Awaits view n) (onPlay act : Act (Seat ρ S V) α) :=
  Act.keeps_frame fun _ _ hseat => hseat

omit [Scalar ρ] in
theorem awaits_onView {α : Type} {act : Act V α} {n : Nat}
    (h : ∀ v, view.remaining (act.run v).2 ≤ view.remaining v)
    : Act.Keeps (Awaits view n) (onView act : Act (Seat ρ S V) α) :=
  fun seat hseat => (h seat.view).trans hseat

theorem awaits_travel (hview : view.Finite) (scene : Scene ρ) (base : Record ρ) (n : Nat)
    : Act.Keeps (Awaits view n) (travel stage view scene base) := by
  unfold travel
  refine Act.keeps_bind Act.keeps_get fun seat => ?_
  refine Act.keeps_bind (awaits_onPlay _ n) fun choices => ?_
  refine Act.keeps_bind (awaits_onView fun v => hview.path_le _ _ v) fun picked => ?_
  apply Act.keeps_ite
  . apply Act.keeps_pure
  . cases choices.find? fun c => isId picked c.id with
    | none => apply Act.keeps_pure
    | some choice => exact Act.keeps_map _ (awaits_onPlay _ n)

/-- A scene that is answered uses up an answer. -/
theorem awaits_of_present (hview : view.Finite) {scene : Scene ρ} {seat seat' : Seat ρ S V}
    {choices : List (Choice ρ)} {answer : Value ρ}
    (h : (present stage view scene).run seat = (.ok (choices, answer), seat'))
    (hgiven : answer.isGiven = true)
    : view.remaining seat'.view < view.remaining seat.view := by
  unfold present at h
  obtain ⟨_, s₀, hget, h⟩ := Act.run_bind_eq_ok.mp h
  obtain ⟨cs, s₁, hchoices, h⟩ := Act.run_bind_eq_ok.mp h
  obtain ⟨dto, s₂, hdto, h⟩ := Act.run_bind_eq_ok.mp h
  obtain ⟨a, s₃, hanswer, h⟩ := Act.run_bind_eq_ok.mp h
  have hview₀ : s₀.view = seat.view := by
    cases hget
    rfl
  have hview₁ : s₁.view = s₀.view := (congrArg (Seat.view ∘ Prod.snd) hchoices).symm
  have hview₂ : s₂.view = s₁.view := (congrArg (Seat.view ∘ Prod.snd) hdto).symm
  cases h
  have hlt := hview.scene_lt dto s₂.view answer (congrArg Prod.fst hanswer) hgiven
  have hview₃ : ((view.showScene dto).run s₂.view).2 = seat'.view :=
    congrArg (Seat.view ∘ Prod.snd) hanswer
  rw [hview₃, hview₂, hview₁, hview₀] at hlt
  exact hlt

/-- With a view that ends its input, a turn shows as many scenes as there are answers, and is the
same for every bound above that. -/
theorem rounds_congr (hview : view.Finite) (scene : Scene ρ) {fuel fuel' n : Nat} (h : n < fuel)
    (h' : n < fuel')
    : Act.Agree (Awaits view n) (rounds stage view scene fuel) (rounds stage view scene fuel') := by
  induction fuel generalizing fuel' n with
  | zero => omega
  | succ fuel ih =>
    obtain ⟨fuel', rfl⟩ := Nat.exists_eq_succ_of_ne_zero (by omega : fuel' ≠ 0)
    intro seat hseat
    unfold rounds
    rw [Act.run_bind, Act.run_bind]
    rcases hpresent : (present stage view scene).run seat with ⟨e | ⟨choices, answer⟩, seat'⟩
    . rfl
    dsimp only
    cases hgiven : answer.isGiven with
    | false => rfl
    | true =>
      have hlt := awaits_of_present hview hpresent hgiven
      unfold Awaits at hseat
      have hagree : Act.Agree (Awaits view (n - 1)) (rounds stage view scene fuel)
          (rounds stage view scene fuel') := ih (by omega) (by omega)
      have hawaits : Awaits view (n - 1) seat' := by
        unfold Awaits
        omega
      have hpicked := Act.keeps_lift (P := Awaits view (n - 1)) (σ := Seat ρ S V) answer.text?
      refine Act.agree_bind hpicked (fun picked => ?_) seat' hawaits
      cases behind? talkStart picked with
      | some npc => exact Act.agree_bind (Act.keeps_modify fun _ hs => hs) fun _ => hagree
      | none =>
        dsimp only
        apply Act.agree_ite
        . refine Act.agree_bind (awaits_onPlay _ _) fun dto => ?_
          refine Act.agree_bind (awaits_onView fun v => hview.pack_le dto v) fun _ => ?_
          exact hagree
        apply Act.agree_ite (Act.agree_refl _)
        apply Act.agree_ite _ (Act.agree_refl _)
        refine Act.agree_bind (awaits_travel hview scene _ _) fun result => ?_
        cases result with
        | none => exact hagree
        | some result => apply Act.agree_refl

end Turn

end Storyworld
