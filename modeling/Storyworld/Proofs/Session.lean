import Storyworld.Proofs.Turn
import Storyworld.Session

/-!
This module contains what sessions keep over turns. A property that is kept by the few things that a
turn can do to a session is kept by whole turns, and so holds of every session that turns lead to.
-/

namespace Storyworld.Session

variable {ρ σ : Type} [Scalar ρ] {content : Content ρ σ} {P : Session ρ σ → Prop}

/-- The sessions that turns lead to, whatever the player answers; a turn that stops counts too. -/
inductive Turns (content : Content ρ σ) (s : Session ρ σ) : Session ρ σ → Prop where
  | none : Turns content s s
  | turn {t : Session ρ σ} (h : Turns content s t) {V : Type} (view : View ρ V) (npc : Value ρ)
    (v : V) : Turns content s (Act.run (Session.turn content view) ⟨t, npc, v⟩).2.play

/-- All that a turn can do to a session keeps a property. -/
structure Lasting (content : Content ρ σ) (P : Session ρ σ → Prop) : Prop where
  sources : ∀ sources s, P s → P { s with sources }
  journal : ∀ journal s, P s → P { s with journal }
  note : ∀ token s, P s → P { s with log := s.log.noteText token }
  look : Act.Keeps P (scene? content)
  apply : ∀ outcome, Act.Keeps P (navigate content fun atlas => Navigation.apply atlas outcome)
  pass : ∀ hours, Act.Keeps P (pass (.real hours))
  trade : ∀ verb here payload,
    Act.Keeps P (onGoods (Belongings.handlePayload content.lookup verb (.ok here) payload))
  adjust : ∀ name delta,
    Act.Keeps P (onGoods (Belongings.onTraits (TraitBook.increase name (.real delta))))
  declare : ∀ location items,
    Act.Keeps P (onGoods (Belongings.onLedger (Ledger.applyScene location items)))

/-- What all duties keep is kept when something is published; a duty that stops is passed over, so
whatever it leaves counts too. -/
theorem published {topic : String} {payload : Payload ρ}
    (hperform : ∀ duty, Act.Keeps P (perform content duty payload)) {s : Session ρ σ}
    (h : P { s with journal := s.journal ++ [(topic, payload)] })
    : P ((publish content topic payload).run s).2 := by
  have hdeliver (rows : List (Subscription Duty)) : ∀ s, P s → P (rows.foldl
      (Bus.deliver (fun _ s => s) fun duty => perform content duty payload) s) := by
    induction rows with
    | nil =>
      intro s hs
      exact hs
    | cons row rows ih =>
      intro s hs
      apply ih
      have hrow := hperform row.handler s hs
      unfold Bus.deliver
      split
      next hrun =>
        rw [hrun] at hrow
        exact hrow
      next hrun =>
        rw [hrun] at hrow
        exact hrow
  exact hdeliver _ _ h

namespace Lasting

theorem onSources (h : Lasting content P) {α : Type} (act : Act σ α)
    : Act.Keeps P (onSources act) :=
  Act.keeps_within (Q := fun _ => True) (fun _ _ => trivial) (fun _ _ => trivial)
    fun s sources hs _ => h.sources sources s hs

theorem perform (h : Lasting content P) (duty : Duty) (payload : Payload ρ)
    : Act.Keeps P (perform content duty payload) := by
  cases duty with
  | travel =>
    cases payload with
    | value v =>
      refine Act.keeps_bind (h.apply v) fun _ => ?_
      apply Act.keeps_pure
    | hours _ => apply Act.keeps_pure
    | event _ => apply Act.keeps_pure
  | time =>
    cases payload with
    | value _ => apply Act.keeps_pure
    | hours hours =>
      apply Act.keeps_ite
      . exact h.pass hours
      . apply Act.keeps_pure
    | event _ => apply Act.keeps_pure
  | items verb =>
    refine Act.keeps_bind Act.keeps_get fun s => ?_
    exact h.trade verb s.location payload

theorem publish (h : Lasting content P) (topic : String) (payload : Payload ρ)
    : Act.Keeps P (publish content topic payload) := fun s hs =>
  published (fun duty => h.perform duty payload) (h.journal _ s hs)

theorem crew (h : Lasting content P) : (crew content).Keeps P := by
  constructor
  case publish =>
    intro publish hpublish topic payload
    obtain rfl := Option.some.inj hpublish
    exact h.publish topic payload
  case adjust =>
    intro adjust hadjust name delta
    obtain rfl := Option.some.inj hadjust
    refine Act.keeps_bind (h.adjust name delta) fun _ => ?_
    apply Act.keeps_pure
  case note =>
    intro note hnote token
    obtain rfl := Option.some.inj hnote
    exact Act.keeps_modify fun s hs => h.note token s hs

theorem interpret (h : Lasting content P) (definition cost : Value ρ)
    : Act.Keeps P ((Session.crew content).interpret definition cost) :=
  h.crew.interpret definition cost

theorem stage (h : Lasting content P) : (stage content).Keeps P where
  content := by
    constructor
    case location => exact fun _ => h.onSources _
    case option? => exact fun _ _ => h.onSources _
    case npc? => exact fun _ _ => h.onSources _
    case npcs => exact fun _ => h.onSources _
    case item? => exact fun _ => h.onSources _
  interpret := h.interpret
  scale := by
    intro scale hscale hours
    obtain rfl := Option.some.inj hscale
    apply Act.keeps_ask
  pack := by
    refine Act.keeps_bind Act.keeps_get fun s => ?_
    refine Act.keeps_bind (h.onSources _) fun entries => ?_
    apply Act.keeps_pure

theorem turn (h : Lasting content P) {V : Type} (view : View ρ V)
    : Act.Keeps (fun seat : Turn.Seat ρ (Session ρ σ) V => P seat.play)
      (Session.turn content view) := by
  unfold Session.turn
  refine Act.keeps_bind (Turn.keeps_onPlay h.look) fun found => ?_
  cases found with
  | none => apply Act.keeps_pure
  | some scene =>
    refine Act.keeps_bind (Turn.keeps_onPlay (h.declare _ _)) fun _ => ?_
    refine Act.keeps_bind Act.keeps_get fun seat => ?_
    refine Act.keeps_bind (Act.keeps_lift _) fun time => ?_
    refine Act.keeps_bind (Turn.keeps_onView _) fun _ => ?_
    refine Act.keeps_bind (Turn.keeps_run h.stage view scene) fun result => ?_
    refine Act.keeps_bind (Turn.keeps_onPlay (h.apply result)) fun _ => ?_
    apply Act.keeps_pure

theorem turns (h : Lasting content P) {s t : Session ρ σ} (hs : P s) (ht : Turns content s t)
    : P t := by
  induction ht with
  | none => exact hs
  | turn _ view npc v ih => exact h.turn view ⟨_, npc, v⟩ ih

end Lasting

/-! ### Parts of a session -/

theorem run_navigate {α : Type} (act : Atlas ρ σ → Act (Navigation ρ × σ) α) (s : Session ρ σ)
    : (navigate content act).run s
      = (((act (atlas content s)).run (s.navigation, s.sources)).1,
        { s with
          navigation := ((act (atlas content s)).run (s.navigation, s.sources)).2.1
          sources := ((act (atlas content s)).run (s.navigation, s.sources)).2.2 }) := rfl

section

omit [Scalar ρ]

variable {α : Type} (s : Session ρ σ)

theorem run_onClock (act : Act (Clock ρ) α)
    : (onClock act).run s = ((act.run s.clock).1, { s with clock := (act.run s.clock).2 }) := rfl

theorem run_onGoods (act : Act (Belongings ρ × σ) α)
    : (onGoods act).run s
      = ((act.run (s.goods, s.sources)).1,
        { s with
          goods := (act.run (s.goods, s.sources)).2.1
          sources := (act.run (s.goods, s.sources)).2.2 }) := rfl

theorem run_onTraits (act : Act (TraitBook ρ) α)
    : (onGoods (Belongings.onTraits act)).run s
      = ((act.run s.goods.traits).1,
        { s with goods := { s.goods with traits := (act.run s.goods.traits).2 } }) := rfl

theorem run_onInventory (act : Act Inventory α)
    : (onGoods (Belongings.onInventory act)).run s
      = ((act.run s.goods.inventory).1,
        { s with goods := { s.goods with inventory := (act.run s.goods.inventory).2 } }) := rfl

theorem run_onLedger (act : Act (Ledger ρ) α)
    : (onGoods (Belongings.onLedger act)).run s
      = ((act.run s.goods.ledger).1,
        { s with goods := { s.goods with ledger := (act.run s.goods.ledger).2 } }) := rfl

end

omit [Scalar ρ] in
theorem keeps_onGoods {α : Type} (act : Act (Belongings ρ × σ) α)
    (h : ∀ goods sources s, P s → P { s with goods, sources }) : Act.Keeps P (onGoods act) :=
  Act.keeps_within (Q := fun _ => True) (fun _ _ => trivial) (fun _ _ => trivial)
    fun s goods hs _ => h goods.1 goods.2 s hs

omit [Scalar ρ] in
theorem keeps_goods {Q : Belongings ρ → Prop} {α : Type} {act : Act (Belongings ρ × σ) α}
    (h : Act.Keeps (fun b : Belongings ρ × σ => Q b.1) act)
    : Act.Keeps (fun s : Session ρ σ => Q s.goods) (onGoods act) :=
  Act.keeps_within h (fun _ hs => hs) fun _ _ _ hb => hb

theorem keeps_pass (hours : Value ρ)
    (h : ∀ s dayEnded, P s → P { s with clock := ((Clock.tick hours).run s.clock).2, dayEnded })
    : Act.Keeps P (pass (σ := σ) hours) := by
  intro s hs
  have hclock := h s s.dayEnded hs
  have hended := h s true hs
  unfold pass
  rw [Act.run_bind]
  unfold onClock
  rw [Act.run_within]
  cases hrun : (Clock.tick hours).run s.clock with
  | mk told clock =>
    rw [hrun] at hclock hended
    cases told with
    | error e => exact hclock
    | ok told =>
      dsimp only
      split
      . exact hended
      . exact hclock

theorem Lasting.of_navigation {Q : Clock ρ → Navigation ρ → Prop}
    (htick : ∀ hours c n, Q c n → Q ((Clock.tick hours).run c).2 n)
    (happly : ∀ outcome c n src, Q c n → Q c ((Navigation.apply
      ⟨content.location, some (Atlas.openAt c)⟩ outcome).run (n, src)).2.1)
    (hlook : ∀ c n src, Q c n → Q c ((Navigation.current
      ⟨content.location, some (Atlas.openAt c)⟩).run (n, src)).2.1)
    : Lasting content fun s => Q s.clock s.navigation where
  sources _ _ hs := hs
  journal _ _ hs := hs
  note _ _ hs := hs
  look s hs := hlook s.clock s.navigation s.sources hs
  apply outcome s hs := happly outcome s.clock s.navigation s.sources hs
  pass hours := keeps_pass _ fun s _ hs => htick (.real hours) s.clock s.navigation hs
  trade _ _ _ := keeps_onGoods _ fun _ _ _ hs => hs
  adjust _ _ := keeps_onGoods _ fun _ _ _ hs => hs
  declare _ _ := keeps_onGoods _ fun _ _ _ hs => hs

theorem Lasting.of_log {Q : EventLog → Prop} (h : ∀ token log, Q log → Q (log.noteText token))
    : Lasting content fun s => Q s.log where
  sources _ _ hs := hs
  journal _ _ hs := hs
  note token s hs := h token s.log hs
  look _ hs := hs
  apply _ _ hs := hs
  pass _ := keeps_pass _ fun _ _ hs => hs
  trade _ _ _ := keeps_onGoods _ fun _ _ _ hs => hs
  adjust _ _ := keeps_onGoods _ fun _ _ _ hs => hs
  declare _ _ := keeps_onGoods _ fun _ _ _ hs => hs

theorem Lasting.of_goods {Q : Belongings ρ → Prop}
    (htrade : ∀ verb here payload, Act.Keeps (fun b : Belongings ρ × σ => Q b.1)
      (Belongings.handlePayload content.lookup verb (.ok here) payload))
    (hadjust : ∀ name delta, Act.Keeps (fun b : Belongings ρ × σ => Q b.1)
      (Belongings.onTraits (TraitBook.increase name (.real delta))))
    (hdeclare : ∀ location items, Act.Keeps (fun b : Belongings ρ × σ => Q b.1)
      (Belongings.onLedger (Ledger.applyScene location items)))
    : Lasting content fun s => Q s.goods where
  sources _ _ hs := hs
  journal _ _ hs := hs
  note _ _ hs := hs
  look _ hs := hs
  apply _ _ hs := hs
  pass _ := keeps_pass _ fun _ _ hs => hs
  trade verb here payload := keeps_goods (htrade verb here payload)
  adjust name delta := keeps_goods (hadjust name delta)
  declare location items := keeps_goods (hdeclare location items)

structure Started (content : Content ρ σ) (sources : σ) (traits : TraitBook ρ) (clock : Clock ρ)
    (s : Session ρ σ) : Prop where
  clock_eq : s.clock = clock.subscribe dayListener
  goods_eq : s.goods = {
    inventory := { listeners := [Belongings.speedListener, Belongings.traitListener] }
    traits
    speed := Travel.baseSpeed }
  log_eq : s.log = {}
  navigation_eq : s.navigation = {} ∨ ∃ location scene result src, (Navigation.moveTo
    ⟨content.location, some (Atlas.openAt s.clock)⟩ location scene).run ({}, sources)
      = (.ok result, s.navigation, src)

theorem started {sources : σ} {traits : TraitBook ρ} {clock : Clock ρ} {place : Value ρ}
    {s : Session ρ σ} (h : start content sources traits clock place = .ok s)
    : Started content sources traits clock s := by
  unfold start at h
  dsimp only at h
  rw [run_navigate] at h
  unfold atlas at h
  dsimp only at h
  generalize hatlas : (⟨content.location, some (Atlas.openAt (clock.subscribe dayListener))⟩ :
    Atlas ρ σ) = atlas at h
  rcases hrun : (Navigation.start atlas place).run ({}, sources) with ⟨_ | _, n, src⟩
  . rw [hrun] at h
    cases h
  . rw [hrun] at h
    obtain rfl := Except.ok.inj h
    refine ⟨rfl, rfl, rfl, ?_⟩
    rw [hatlas]
    dsimp only
    have hmove {location scene : Value ρ} (hmoved : (do
        let _ ← Navigation.moveTo atlas location scene
        return () : Act (Navigation ρ × σ) Unit).run ({}, sources) = (.ok (), n, src)) :
        ∃ location scene result src,
          (Navigation.moveTo atlas location scene).run ({}, sources) = (.ok result, n, src) := by
      obtain ⟨result, moved, hresult, hmoved⟩ := Act.run_bind_eq_ok.mp hmoved
      obtain rfl : moved = (n, src) := congrArg Prod.snd hmoved
      exact ⟨location, scene, result, src, hresult⟩
    unfold Navigation.start at hrun
    cases place with
    | pointer location scene => exact .inr (hmove hrun)
    | object r =>
      dsimp only at hrun
      split at hrun
      . exact .inr (hmove hrun)
      . left
        cases hrun
        rfl
    | _ =>
      left
      cases hrun
      rfl

end Storyworld.Session
