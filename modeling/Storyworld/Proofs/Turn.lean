import Storyworld.Effect.Interpreter
import Storyworld.Proofs.Act
import Storyworld.Turn

/-!
This module contains what a turn keeps: a property that the sources, the effects and the pack keep
is kept by all menus and by a whole turn, whatever the player answers.
-/

namespace Storyworld

variable {ρ S V : Type} {P : S → Prop}

structure Content.Keeps (P : S → Prop) (content : Content ρ S) : Prop where
  location : ∀ id, Act.Keeps P (content.location id)
  option? : ∀ location id, Act.Keeps P (content.option? location id)
  npc? : ∀ location id, Act.Keeps P (content.npc? location id)
  npcs : ∀ location, Act.Keeps P (content.npcs location)
  item? : ∀ id, Act.Keeps P (content.item? id)

namespace Content.Keeps

variable {content : Content ρ S}

theorem options (h : content.Keeps P) (location : String) (ids : List String)
    : Act.Keeps P (content.options location ids) := by
  induction ids with
  | nil => apply Act.keeps_pure
  | cons id ids ih =>
    unfold Content.options
    refine Act.keeps_bind (h.option? location id) fun found => ?_
    refine Act.keeps_bind ih fun rest => ?_
    apply Act.keeps_pure

theorem optionsOf [Scalar ρ] (h : content.Keeps P) (location npc : String)
    : Act.Keeps P (content.optionsOf location npc) := by
  unfold Content.optionsOf
  refine Act.keeps_bind (h.npc? location npc) fun row => ?_
  cases row with
  | none => apply Act.keeps_pure
  | some row => apply Act.keeps_lift

theorem lookup (h : content.Keeps P) (id : String) : Act.Keeps P (content.lookup id) := by
  unfold Content.lookup
  refine Act.keeps_bind (Act.keeps_attempt (h.item? id)) fun found => ?_
  split
  . apply Act.keeps_pure
  . apply Act.keeps_pure

end Content.Keeps

namespace Menu

variable {stall : Stall ρ S}

theorem keeps_people {content : Content ρ S} (h : content.Keeps P) (location : String)
    (ids : List String) : Act.Keeps P (people content location ids) := by
  induction ids with
  | nil => apply Act.keeps_pure
  | cons id ids ih =>
    unfold people
    refine Act.keeps_bind (h.npc? location id) fun found => ?_
    refine Act.keeps_bind ih fun rest => ?_
    apply Act.keeps_pure

variable [Scalar ρ]

theorem keeps_sceneNpcs {content : Content ρ S} (h : content.Keeps P) (scene : Scene ρ)
    : Act.Keeps P (sceneNpcs content scene) := by
  unfold sceneNpcs
  apply Act.keeps_ite
  . refine Act.keeps_bind (h.npcs scene.location) fun rows => ?_
    apply Act.keeps_pure
  . exact keeps_people h scene.location scene.npcs

theorem keeps_optionChoices (h : stall.content.Keeps P) (env : Env ρ) (location : String)
    (ids : List String) : Act.Keeps P (optionChoices stall env location ids) := by
  unfold optionChoices
  refine Act.keeps_bind (h.options location ids) fun rows => ?_
  apply Act.keeps_lift

theorem keeps_choices (h : stall.content.Keeps P) (scene : Scene ρ) (npc : Value ρ)
    : Act.Keeps P (choices stall scene npc) := by
  unfold choices entries
  refine Act.keeps_bind ?_ fun entries => Act.keeps_pure _
  refine Act.keeps_bind (keeps_sceneNpcs h scene) fun people => ?_
  refine Act.keeps_bind (Act.keeps_lift _) fun talks => ?_
  -- what follows after the options of a person is the same with and without one
  have hown (offered : List (Choice ρ)) : Act.Keeps P (do
      let own ← optionChoices stall (envOf scene npc) scene.location scene.options
      return talks ++ offered ++ own ++ [⟨packId, "Inventory", []⟩, ⟨exitId, "Exit", []⟩]) := by
    refine Act.keeps_bind (keeps_optionChoices h _ scene.location scene.options) fun own => ?_
    apply Act.keeps_pure
  dsimp only
  apply Act.keeps_ite
  . refine Act.keeps_bind (Act.keeps_lift _) fun id => ?_
    refine Act.keeps_bind (h.optionsOf scene.location id) fun ids => ?_
    refine Act.keeps_bind (keeps_optionChoices h _ scene.location ids) fun offered => ?_
    apply hown
  . apply hown

theorem keeps_pathChoice (h : stall.content.Keeps P) (scene : Scene ρ) (env : Env ρ)
    (base : Record ρ) (location : String)
    : Act.Keeps P (pathChoice stall scene env base location) := by
  unfold pathChoice
  cases Table.get? stall.registry location with
  | none => apply Act.keeps_pure
  | some view =>
    refine Act.keeps_bind (h.option? scene.location _) fun row => ?_
    refine Act.keeps_bind (Act.keeps_lift _) fun isOpen => ?_
    apply Act.keeps_ite
    . apply Act.keeps_pure
    . refine Act.keeps_bind (Act.keeps_lift _) fun name => ?_
      apply Act.keeps_pure

theorem keeps_pathChoices (h : stall.content.Keeps P) (scene : Scene ρ) (npc : Value ρ)
    (base : Record ρ) : Act.Keeps P (pathChoices stall scene npc base) := by
  have hto (ids : List String) :
      Act.Keeps P (pathChoicesTo stall scene (envOf scene npc) base ids) := by
    induction ids with
    | nil => apply Act.keeps_pure
    | cons id ids ih =>
      unfold pathChoicesTo
      refine Act.keeps_bind (keeps_pathChoice h scene _ base id) fun choice => ?_
      refine Act.keeps_bind ih fun rest => ?_
      apply Act.keeps_pure
  exact hto scene.path

theorem keeps_sceneView (h : stall.content.Keeps P) (scene : Scene ρ) (npc : Value ρ)
    (choices : List (Choice ρ)) : Act.Keeps P (sceneView stall scene npc choices) := by
  unfold sceneView npcPanel
  refine Act.keeps_bind ?_ fun panel => Act.keeps_pure _
  apply Act.keeps_ite
  . apply Act.keeps_pure
  . refine Act.keeps_bind (Act.keeps_lift _) fun id => ?_
    refine Act.keeps_bind (h.npc? scene.location id) fun row => ?_
    cases row with
    | none => apply Act.keeps_pure
    | some row =>
      apply Act.keeps_map
      apply Act.keeps_lift

end Menu

structure Crew.Keeps (P : S → Prop) (crew : Crew ρ S) : Prop where
  publish : ∀ publish, crew.publish = some publish → ∀ topic payload,
    Act.Keeps P (publish topic payload)
  adjust : ∀ adjust, crew.adjust = some adjust → ∀ name delta, Act.Keeps P (adjust name delta)
  note : ∀ note, crew.note = some note → ∀ token, Act.Keeps P (note token)

theorem Crew.performAll_append [Scalar ρ] {crew : Crew ρ S} (last : Value ρ)
    (effects effects' : List (Effect ρ))
    : crew.performAll last (effects ++ effects')
      = crew.performAll last effects >>= fun v => crew.performAll v effects' := by
  induction effects generalizing last with
  | nil => rfl
  | cons effect effects ih =>
    rw [List.cons_append, performAll, performAll, bind_assoc]
    congr 1
    funext outcome
    cases outcome with
    | error e => exact ih last
    | ok v => exact ih _

theorem Crew.keeps_performAll [Scalar ρ] {crew : Crew ρ S} {effects : List (Effect ρ)}
    (h : ∀ effect ∈ effects, Act.Keeps P (crew.perform effect)) (last : Value ρ)
    : Act.Keeps P (crew.performAll last effects) := by
  induction effects generalizing last with
  | nil => apply Act.keeps_pure
  | cons effect effects ih =>
    rw [List.forall_mem_cons] at h
    unfold Crew.performAll
    refine Act.keeps_bind (Act.keeps_attempt h.1) fun outcome => ?_
    cases outcome with
    | error e => exact ih h.2 last
    | ok v => exact ih h.2 _

/-- What one of the actions brings about, and the others keep, is there when all are played. -/
theorem Crew.gains_performAll [Scalar ρ] {crew : Crew ρ S} {effects : List (Effect ρ)}
    (h : ∀ effect ∈ effects, Act.Keeps P (crew.perform effect)) {effect : Effect ρ}
    (hmem : effect ∈ effects) (hgains : ∀ s, P ((crew.perform effect).run s).2) (last : Value ρ)
    (s : S) : P ((crew.performAll last effects).run s).2 := by
  induction effects generalizing last s with
  | nil => cases hmem
  | cons first effects ih =>
    rw [List.forall_mem_cons] at h
    unfold Crew.performAll
    rcases List.mem_cons.mp hmem with rfl | hmem
    . refine Act.bind_of_keeps (hgains s) fun outcome => ?_
      cases outcome with
      | error e => exact keeps_performAll h.2 last
      | ok v => exact keeps_performAll h.2 _
    . rw [Act.run_bind, Act.run_attempt]
      dsimp only
      split
      . exact ih h.2 hmem _ _
      . exact ih h.2 hmem _ _

namespace Crew.Keeps

variable {crew : Crew ρ S}

theorem announce (h : crew.Keeps P) (topic : String) (payload : Payload ρ)
    : Act.Keeps P (crew.announce topic payload) := by
  unfold Crew.announce
  cases hpublish : crew.publish with
  | none => apply Act.keeps_pure
  | some publish => exact h.publish publish hpublish topic payload

variable [Scalar ρ]

theorem perform (h : crew.Keeps P) (effect : Effect ρ) : Act.Keeps P (crew.perform effect) := by
  unfold Crew.perform
  cases effect with
  | go location scene =>
    refine Act.keeps_bind (h.announce _ _) fun _ => ?_
    apply Act.keeps_pure
  | trait name delta =>
    dsimp only
    cases hadjust : crew.adjust with
    | none => apply Act.keeps_pure
    | some adjust =>
      refine Act.keeps_bind (h.adjust adjust hadjust name delta) fun _ => ?_
      apply Act.keeps_pure
  | event token args =>
    have hpublished (payload : Payload ρ) : Act.Keeps P (do
        crew.announce (Topic.effect token) payload
        crew.announce token payload
        return (.null : Value ρ)) := by
      refine Act.keeps_bind (h.announce _ _) fun _ => ?_
      refine Act.keeps_bind (h.announce _ _) fun _ => ?_
      apply Act.keeps_pure
    dsimp only
    cases hnote : crew.note with
    | none => apply hpublished
    | some note =>
      refine Act.keeps_bind (h.note note hnote token) fun _ => ?_
      apply hpublished
  | time hours =>
    dsimp only
    split
    . refine Act.keeps_bind (h.announce _ _) fun _ => ?_
      apply Act.keeps_pure
    . apply Act.keeps_pure

theorem interpret (h : crew.Keeps P) (definition cost : Value ρ)
    : Act.Keeps P (crew.interpret definition cost) := by
  unfold Crew.interpret
  refine Act.keeps_bind (Act.keeps_lift _) fun effects => ?_
  exact Crew.keeps_performAll (fun effect _ => h.perform effect) .null

end Crew.Keeps

structure Stage.Keeps (P : S → Prop) (stage : Stage ρ S) : Prop where
  content : stage.content.Keeps P
  interpret : ∀ definition cost, Act.Keeps P (stage.interpret definition cost)
  scale : ∀ scale, stage.scale = some scale → ∀ hours, Act.Keeps P (scale hours)
  pack : Act.Keeps P stage.pack

namespace Turn

variable {stage : Stage ρ S} {α : Type}

theorem keeps_onPlay {act : Act S α} (h : Act.Keeps P act)
    : Act.Keeps (fun seat : Seat ρ S V => P seat.play) (onPlay act) :=
  Act.keeps_within h (fun _ hseat => hseat) fun _ _ _ hplay => hplay

theorem ends_onPlay {Q : α → Prop} {act : Act S α} (h : Act.Ends Q act)
    : Act.Ends Q (onPlay act : Act (Seat ρ S V) α) :=
  fun seat a ha => h seat.play a ha

theorem keeps_onView (act : Act V α)
    : Act.Keeps (fun seat : Seat ρ S V => P seat.play) (onView act) :=
  Act.keeps_within (Q := fun _ => True) (fun _ _ => trivial) (fun _ _ => trivial)
    fun _ _ hseat _ => hseat

variable [Scalar ρ]

theorem keeps_leave (h : stage.Keeps P) (choice : Choice ρ) : Act.Keeps P (leave stage choice) := by
  have hscaled (hours : Value ρ) : Act.Keeps P (scaledTime stage hours) := by
    unfold scaledTime
    cases hscale : stage.scale with
    | none => apply Act.keeps_pure
    | some scale =>
      refine Act.keeps_bind (Act.keeps_attempt (h.scale scale hscale hours)) fun scaled => ?_
      cases scaled with
      | error e => apply Act.keeps_pure
      | ok v => apply Act.keeps_pure
  unfold leave
  refine Act.keeps_bind (Act.keeps_lift _) fun location => ?_
  refine Act.keeps_bind (hscaled _) fun time => ?_
  refine Act.keeps_bind (h.interpret _ time) fun result => ?_
  apply Act.keeps_pure

theorem keeps_travel (h : stage.Keeps P) (view : View ρ V) (scene : Scene ρ) (base : Record ρ)
    : Act.Keeps (fun seat : Seat ρ S V => P seat.play) (travel stage view scene base) := by
  unfold travel
  refine Act.keeps_bind Act.keeps_get fun seat => ?_
  refine Act.keeps_bind (keeps_onPlay ?_) fun choices => ?_
  . exact Menu.keeps_pathChoices h.content scene seat.npc base
  . refine Act.keeps_bind (keeps_onView _) fun picked => ?_
    apply Act.keeps_ite
    . apply Act.keeps_pure
    . cases choices.find? fun c => isId picked c.id with
      | none => apply Act.keeps_pure
      | some choice =>
        apply Act.keeps_map
        exact keeps_onPlay (keeps_leave h choice)

theorem keeps_act (h : stage.Keeps P) (view : View ρ V) (picked : String) (details : Record ρ)
    : Act.Keeps (fun seat : Seat ρ S V => P seat.play) (act stage view picked details) := by
  have hplayed (definition cost : Value ρ) : Act.Keeps (fun seat : Seat ρ S V => P seat.play) (do
      let result ← onPlay (stage.interpret definition cost)
      return result.orNull (.text picked)) := by
    refine Act.keeps_bind (keeps_onPlay (h.interpret definition cost)) fun result => ?_
    apply Act.keeps_pure
  unfold act
  dsimp only
  split
  . refine Act.keeps_bind (keeps_onView _) fun _ => ?_
    apply hplayed
  . apply hplayed

theorem keeps_present (h : stage.Keeps P) (view : View ρ V) (scene : Scene ρ)
    : Act.Keeps (fun seat : Seat ρ S V => P seat.play) (present stage view scene) := by
  unfold present
  refine Act.keeps_bind Act.keeps_get fun seat => ?_
  refine Act.keeps_bind (keeps_onPlay ?_) fun choices => ?_
  . exact Menu.keeps_choices h.content scene seat.npc
  . refine Act.keeps_bind (keeps_onPlay ?_) fun dto => ?_
    . exact Menu.keeps_sceneView h.content scene seat.npc choices
    . refine Act.keeps_bind (keeps_onView _) fun answer => ?_
      apply Act.keeps_pure

theorem keeps_run (h : stage.Keeps P) (view : View ρ V) (scene : Scene ρ)
    : Act.Keeps (fun seat : Seat ρ S V => P seat.play) (run stage view scene) := by
  have hrounds (fuel : Nat) :
      Act.Keeps (fun seat : Seat ρ S V => P seat.play) (rounds stage view scene fuel) := by
    induction fuel with
    | zero => apply Act.keeps_pure
    | succ fuel ih =>
      unfold rounds
      refine Act.keeps_bind (keeps_present h view scene) fun (choices, answer) => ?_
      dsimp only
      apply Act.keeps_ite
      . apply Act.keeps_pure
      . refine Act.keeps_bind (Act.keeps_lift _) fun picked => ?_
        cases behind? talkStart picked with
        | some npc =>
          refine Act.keeps_bind (Act.keeps_modify fun _ hseat => hseat) fun _ => ?_
          exact ih
        | none =>
          dsimp only
          apply Act.keeps_ite
          . refine Act.keeps_bind (keeps_onPlay h.pack) fun dto => ?_
            refine Act.keeps_bind (keeps_onView _) fun _ => ?_
            exact ih
          . apply Act.keeps_ite
            . apply Act.keeps_pure
            . apply Act.keeps_ite
              . refine Act.keeps_bind (keeps_travel h view scene _) fun result => ?_
                cases result with
                | none => exact ih
                | some result => apply Act.keeps_pure
              . apply keeps_act h
  unfold run
  refine Act.keeps_bind Act.keeps_get fun seat => ?_
  apply hrounds

end Turn

end Storyworld
