import Storyworld.Proofs.Gate
import Storyworld.Proofs.Payload
import Storyworld.Proofs.Reached

/-!
This module contains the resumption of a session: a session that is restored from the payload of
another one has its state, and plays its scene.
-/

namespace Storyworld

def Content.shown {ρ : Type} (items : String → Except Fault (Option (Record ρ))) (id : String) :
    Value ρ :=
  match items id with
  | .ok (some row) => .object row
  | _ => .null

theorem Content.shows_lookup {ρ σ : Type} [Scalar ρ] {content : Content ρ σ}
    {items : String → Except Fault (Option (Record ρ))}
    (h : ∀ id src, ((content.item? id).run src).1 = items id)
    : ItemLookup.Shows (shown items) content.lookup := by
  intro id src
  unfold lookup shown
  rw [Act.run_bind, Act.run_attempt, h]
  rcases items id with e | _ | row
  . rfl
  . rfl
  . rfl

namespace Navigation

theorem run_restore {ρ σ : Type} [Scalar ρ] (atlas : Atlas ρ σ) (location scene : Value ρ)
    (history : List (Pointer ρ)) (n : Navigation ρ) (src : σ)
    : (Navigation.restore atlas (.pointer location scene) (.list (history.map Pointer.toValue))).run
        (n, src)
      = (moveTo atlas location scene).run
        ({ n with history, pointer := history.getLast? }, src) := by
  have hhistory : (history.map Pointer.toValue).filterMap Pointer.ofValue? = history := by
    rw [List.filterMap_map]
    exact List.filterMap_some
  unfold Navigation.restore
  simp only [Value.items, Act.run_bind, Act.run_lift, hhistory, Act.run_onFirst, Act.run_modify]

theorem Valid.named {ρ : Type} [Scalar ρ] (hspell : ∀ x : ρ, Scalar.spell x ≠ "")
    {f : Value ρ → Except Fault (Value ρ)} {p : Pointer ρ} (h : Valid f (· ≠ "") p)
    : p.Named := by
  obtain ⟨l, hl, hne⟩ := h.location_text
  refine ⟨⟨l, hl, Text.ne_empty_of_strip hne⟩, ?_⟩
  by_cases hscenes : Atlas.scenes (infoOf f p.location) = []
  . refine (h.literal hscenes).imp_right ?_
    rintro ⟨s, hs, hscene⟩
    exact ⟨s, hscene, hs⟩
  . obtain ⟨scene, hmem, hscene⟩ := h.declared hscenes
    exact .inr ⟨_, hscene, Atlas.sceneId_ne_empty hspell hmem⟩

end Navigation

namespace Session

section

variable {ρ σ : Type} [Scalar ρ] {content : Content ρ σ} {f : Value ρ → Except Fault (Value ρ)}

theorem restore_eq_ok {snapshot : Snapshot ρ} {t t' : Session ρ σ}
    (h : (restore content snapshot).run t = (.ok (), t'))
    : ∃ loaded result, (reload content snapshot).run t = (.ok (), loaded)
      ∧ (navigate content fun atlas => Navigation.restore atlas
          (.pointer snapshot.location snapshot.scene)
          (.list ((historyOf snapshot).map Pointer.toValue))).run loaded = (.ok result, t') := by
  obtain ⟨_, loaded, hloaded, h⟩ := Act.run_bind_eq_ok.mp h
  obtain ⟨result, moved, hmoved, h⟩ := Act.run_bind_eq_ok.mp h
  obtain rfl : moved = t' := congrArg Prod.snd h
  exact ⟨loaded, result, hloaded, hmoved⟩

theorem restore_comes (hspell : ∀ x : ρ, Scalar.spell x ≠ "") (hf : Answers f content.location)
    {loaded t' : Session ρ σ} {p : Pointer ρ} (hp : Navigation.Valid f (· ≠ "") p)
    {history : List (Pointer ρ)} {result : Option (Pointer ρ)}
    (hrun : (navigate content fun atlas => Navigation.restore atlas (.pointer p.location p.scene)
      (.list (history.map Pointer.toValue))).run loaded = (.ok result, t'))
    : ∃ v n src, (atlas content loaded).gate (infoOf f p.location) p.scene = .ok v
      ∧ t' = { loaded with navigation := n, sources := src }
      ∧ n.pointer = some ⟨p.location, v⟩
      ∧ n.history = Navigation.extend history ⟨p.location, v⟩
      ∧ Atlas.read (infoOf f p.location) ⟨p.location, v⟩
        = .ok (Atlas.scene (infoOf f p.location) ⟨p.location, v⟩)
      ∧ ∃ key, p.location.key? = .ok key ∧ key ≠ "" ∧ Table.has n.registry key = true := by
  have hanswers : Answers f (atlas content loaded).location := hf
  obtain ⟨l, hl, hne⟩ := hp.location_text
  have hgiven : p.location.isGiven = true := by
    rw [hl, Value.isGiven_text]
    exact Text.ne_empty_of_strip hne
  rw [run_navigate, Navigation.run_restore] at hrun
  rcases Navigation.moveTo_cases hanswers p.location p.scene
      { loaded.navigation with history, pointer := history.getLast? } loaded.sources with
    ⟨_, src, hmove, herror⟩ | ⟨e, r, src, _, hmove⟩ | ⟨q, r, src, harrival, _, hmove⟩
  . obtain ⟨e, rfl⟩ := herror hgiven
    rw [hmove] at hrun
    cases hrun
  . rw [hmove] at hrun
    cases hrun
  . rw [hmove] at hrun
    obtain ⟨l', hl', hlocation, _⟩ := harrival.location_eq
    obtain ⟨v, hv, hgate⟩ := harrival.scene_eq
    have hsame : q.location = p.location := by
      rw [hl, Value.text?_text, Except.ok.injEq] at hl'
      rw [hlocation, hl, hl']
    rw [Snapshot.given?_scene (hp.named hspell), Except.ok.injEq] at hv
    rw [hsame, ← hv, hp.resolve_eq hspell] at hgate
    obtain rfl := congrArg Prod.snd hrun
    have hq : ⟨p.location, q.scene⟩ = q := by rw [← hsame]
    refine ⟨q.scene, _, _, hgate, rfl, ?_, ?_, ?_, Text.strip l, ?_, hne, ?_⟩
    . rw [hq]
      rfl
    . rw [hq]
      rfl
    . rw [hq, ← hsame]
      exact harrival.readable
    . rw [hl, Value.key?_text]
    . apply harrival.registered
      left
      rw [hsame, hl, Value.key?_text]

end

variable {σ : Type} {content : Content Rat σ} {f : Value Rat → Except Fault (Value Rat)}
  {look : String → Value Rat} {names : List String} {plan : DayPlan Rat} {cycle : Number Rat}

/-- Two sessions agree on all that a snapshot tells of, apart from the places. -/
structure Agrees (t s : Session Rat σ) : Prop where
  time : t.clock.time.same s.clock.time = true
  traits : (Value.object (Table.mapEntries .num t.goods.traits.snapshot)).same
    (.object (Table.mapEntries .num s.goods.traits.snapshot)) = true
  log : t.log.tokens = s.log.tokens
  counts : t.goods.inventory.counts = s.goods.inventory.counts
  speed : t.goods.speed = s.goods.speed
  defaults : t.goods.ledger.defaults.toValue.same s.goods.ledger.defaults.toValue = true
  added : t.goods.ledger.added.toValue.same s.goods.ledger.added.toValue = true
  removed : t.goods.ledger.removed.toValue.same s.goods.ledger.removed.toValue = true

theorem historyOf_returned (s : Session Rat σ) (p : Pointer Rat) (time : Number Rat)
    : historyOf (s.returned p time) = s.navigation.history := by
  unfold historyOf returned
  change (s.navigation.history.map row).filterMap pointerOf? = _
  rw [List.filterMap_map]
  exact List.filterMap_some

theorem restore_loads (hlook : ItemLookup.Shows look content.lookup) {s t t' : Session Rat σ}
    (h : Reached f look names plan cycle s) (hnodup : names.Nodup)
    (hplan : t.clock.plan = plan) (hcycle : plan.cycle = .num cycle)
    (hnames : (Table.names t.goods.traits.values).Perm names) {p : Pointer Rat} {time : Number Rat}
    (htime : s.clock.time = .num time) (hhour : Hour.OfDay cycle.rat time)
    (hrun : (restore content (s.returned p time)).run t = (.ok (), t'))
    : ∃ loaded result, Agrees loaded s ∧ loaded.clock.plan = plan
      ∧ loaded.clock.time = .real time.rat
      ∧ (navigate content fun atlas => Navigation.restore atlas (.pointer p.location p.scene)
        (.list (s.navigation.history.map Pointer.toValue))).run loaded = (.ok result, t') := by
  have hclock := Clock.run_restore_of_mem (c := t.clock) (hplan ▸ hcycle) hhour
  obtain ⟨book, hbook, htraits⟩ := TraitBook.same_of_load h.goods.clamped hnodup hnames
  have hlog := EventLog.run_load (ρ := Rat) h.log t.log
  have hcounts := Inventory.run_load h.goods.stocked t.goods.inventory
  have hledger := Ledger.run_load h.goods.settled
  obtain ⟨loaded, result, hloaded, hmoved⟩ := restore_eq_ok hrun
  rw [historyOf_returned] at hmoved
  refine ⟨loaded, result, ?_⟩
  rw [← and_assoc, ← and_assoc]
  refine ⟨?_, hmoved⟩
  -- the parts are loaded one behind the other, so the run is taken apart in their order
  unfold reload returned at hloaded
  dsimp only at hloaded
  have hgiven : (!(Value.real time.rat).isNull) = true := rfl
  rw [if_pos hgiven, Act.run_bind, run_onClock, hclock] at hloaded
  dsimp only at hloaded
  rw [Act.run_bind, run_onTraits, hbook] at hloaded
  dsimp only at hloaded
  rw [Act.run_bind, Act.run_within, hlog] at hloaded
  dsimp only at hloaded
  rw [Act.run_bind, run_onInventory, hcounts] at hloaded
  dsimp only at hloaded
  rw [Act.run_bind, run_onGoods] at hloaded
  obtain ⟨src, ⟨e, _, hspeed⟩ | ⟨v, hv, hspeed⟩⟩ := Belongings.recomputeSpeed_cases hlook
    { t.goods with
      traits := book
      inventory := { t.goods.inventory with counts := s.goods.inventory.counts } } t.sources
  . rw [hspeed] at hloaded
    cases hloaded
  . rw [hspeed] at hloaded
    dsimp only at hloaded
    rw [Act.run_bind, run_onLedger, hledger] at hloaded
    dsimp only at hloaded
    rw [Act.run_modify] at hloaded
    obtain rfl := congrArg Prod.snd hloaded
    refine ⟨⟨?_, hplan⟩, rfl⟩
    constructor
    case time =>
      rw [htime, Value.same_num]
      simp
    case traits => exact htraits
    case log => rfl
    case counts => rfl
    case speed => exact (h.goods.paced v hv).symm
    case defaults => exact Ledger.same_reload h.goods.settled.defaults
    case added => exact Ledger.same_reload h.goods.settled.added
    case removed => exact Ledger.same_reload h.goods.settled.removed

theorem run_scene? (hf : Answers f content.location) {s : Session Rat σ} {p : Pointer Rat}
    (hpointer : s.navigation.pointer = some p) {key : String} (hkey : p.location.key? = .ok key)
    (hne : key ≠ "") (hhas : Table.has s.navigation.registry key = true) {v : Value Rat}
    (hgate : (atlas content s).gate (infoOf f p.location) p.scene = .ok v)
    (hread : Atlas.read (infoOf f p.location) ⟨p.location, v⟩
      = .ok (Atlas.scene (infoOf f p.location) ⟨p.location, v⟩))
    : ∃ s', (scene? content).run s
      = (.ok (some (Atlas.scene (infoOf f p.location) ⟨p.location, v⟩)), s') := by
  have hanswers : Answers f (atlas content s).location := hf
  have happroach := Navigation.run_approach_of_has hanswers hkey hne hhas s.sources
  have hcurrent := Navigation.run_current hpointer happroach
  rw [hgate] at hcurrent
  dsimp only at hcurrent
  rw [hread] at hcurrent
  unfold scene?
  rw [run_navigate, hcurrent]
  exact ⟨_, rfl⟩

theorem Reached.snapshot_eq_values {s : Session Rat σ} (h : Reached f look names plan cycle s)
    (hnodup : names.Nodup) : s.goods.traits.snapshot = s.goods.traits.values := by
  apply TraitBook.snapshot_eq_values
  rw [h.goods.clamped.names_eq]
  exact hnodup

theorem Reached.ofPayload {s : Session Rat σ} (h : Reached f look names plan cycle s)
    (hnodup : names.Nodup) {p : Pointer Rat} (hpointer : s.navigation.pointer = some p)
    {time : Number Rat} (htime : s.clock.time = .num time) (hhour : Hour.OfDay cycle.rat time)
    : ∃ snapshot payload, s.snapshot = some snapshot ∧ snapshot.toPayload = .ok payload
      ∧ Snapshot.ofPayload payload = .ok (some (s.returned p time)) := by
  apply ofPayload_snapshot hpointer
  case hp => exact (h.places p (.inl hpointer)).named Value.spell_ne_empty
  case hhistory =>
    intro q hq
    exact (h.places q (.inr hq)).named Value.spell_ne_empty
  case htime => exact htime
  case hhour => exact hhour.flag
  case htraits =>
    intro name n hmem
    rw [h.snapshot_eq_values hnodup] at hmem
    exact (h.goods.clamped.inRange name n hmem).flag
  case htokens =>
    intro token htoken
    obtain ⟨hne, hstrip⟩ := h.log.token token htoken
    rw [hstrip]
    exact hne

/-- A session that is restored from the payload of one that turns have led to agrees with that one,
whatever it was before, and plays the scene that the other plays. -/
theorem restore_agrees (hf : Answers f content.location)
    {items : String → Except Fault (Option (Record Rat))}
    (hitems : ∀ id src, ((content.item? id).run src).1 = items id)
    (hcycle : plan.cycle = .num cycle) {start finish : Number Rat}
    (hstart : Hour.OfDay cycle.rat start) (hfinish : Hour.OfDay cycle.rat finish)
    {traits : TraitBook Rat} (hnodup : (traits.traits.map Trait.name).Nodup)
    (hvalues : ∀ trait ∈ traits.traits, ∃ n, (∀ b, n ≠ .flag b) ∧ trait.value = Trait.clamp n)
    {sources : σ} {place : Value Rat} {s₀ s : Session Rat σ}
    (hfresh : Session.start content sources traits (Clock.new (.num start) (.num finish) plan) place
      = .ok s₀)
    (hs : Turns content s₀ s) (hpointer : s.navigation.pointer.isSome)
    : ∃ snapshot payload snapshot', s.snapshot = some snapshot ∧ snapshot.toPayload = .ok payload
      ∧ Snapshot.ofPayload payload = .ok (some snapshot')
      ∧ ∀ t t' : Session Rat σ, t.clock.plan = plan →
        (t.goods.traits.traits.map Trait.name).Perm (traits.traits.map Trait.name) →
        (restore content snapshot').run t = (.ok (), t') →
        Agrees t' s ∧ ∃ scene s' t'', (scene? content).run s = (.ok (some scene), s')
          ∧ (scene? content).run t' = (.ok (some scene), t'') := by
  have hlook := Content.shows_lookup hitems
  have htraits : traits.Clamped (traits.traits.map Trait.name) := by
    refine ⟨TraitBook.names_values traits, ?_⟩
    intro name n hmem
    obtain ⟨trait, htrait, heq⟩ := List.mem_map.mp hmem
    obtain ⟨m, hm, hvalue⟩ := hvalues trait htrait
    cases heq
    rw [hvalue]
    exact Trait.clamp_inRange hm
  have hreached := reached hf hlook hcycle hstart hfinish htraits hfresh hs
  obtain ⟨p, hp⟩ := Option.isSome_iff_exists.mp hpointer
  obtain ⟨time, htime, hhour⟩ := hreached.clock.time_mem
  obtain ⟨snapshot, payload, htaken, hwritten, hread⟩ := hreached.ofPayload hnodup hp htime hhour
  refine ⟨snapshot, payload, _, htaken, hwritten, hread, ?_⟩
  intro t t' hplan hnames hrun
  rw [← TraitBook.names_values] at hnames
  obtain ⟨loaded, result, hagrees, hloaded, hshown, hmoved⟩ :=
    restore_loads hlook hreached hnodup hplan hcycle hnames htime hhour hrun
  obtain ⟨v, n, src, hgate, rfl, hstands, _, hread, key, hkey, hne, hhas⟩ :=
    restore_comes Value.spell_ne_empty hf (hreached.places p (.inl hp)) hmoved
  refine ⟨{ hagrees with }, Atlas.scene (infoOf f p.location) ⟨p.location, v⟩, ?_⟩
  -- both clocks show one hour, so the time puts one scene in place for both
  have hallows : Atlas.openAt s.clock = Atlas.openAt loaded.clock := by
    apply Atlas.openAt_congr _ htime hshown
    . simp
    . rw [hloaded, hreached.clock.plan_eq]
  have hgate' : (atlas content s).gate (infoOf f p.location) p.scene = .ok v := by
    rw [← hgate]
    apply Atlas.gate_congr
    exact congrArg some hallows
  obtain ⟨key', hkey', hne', hhas'⟩ := hreached.explored.pointer p hp
  obtain ⟨s', hplays⟩ := run_scene? hf hp hkey' hne' hhas' hgate' hread
  -- the restored pointer already names the scene that the time has put in place, and it stays
  obtain ⟨t'', hplays'⟩ := run_scene? (s := { loaded with navigation := n, sources := src }) hf
    hstands hkey hne hhas (Atlas.gate_gate hgate (Atlas.search_of_read hread)) hread
  exact ⟨s', t'', hplays, hplays'⟩

theorem restore_agrees_inn
    : ∃ (s₀ s t' : Session Rat Unit) (snapshot snapshot' : Snapshot Rat) (payload : Value Rat),
      let mood : TraitBook Rat := { traits := [⟨"mood", .text "mood", .null, .int 3⟩] }
      let t : Session Rat Unit :=
        { clock := {}, goods := { traits := mood, speed := 0 }, sources := () }
      Session.start inn.content () mood {} (.object [("locationId", .text "inn")]) = .ok s₀
      ∧ Turns inn.content s₀ s ∧ s.snapshot = some snapshot ∧ snapshot.toPayload = .ok payload
      ∧ Snapshot.ofPayload payload = .ok (some snapshot')
      ∧ (restore inn.content snapshot').run t = (.ok (), t') ∧ Agrees t' s
      ∧ ∃ scene s' t'', (scene? inn.content).run s = (.ok (some scene), s')
        ∧ (scene? inn.content).run t' = (.ok (some scene), t'') := by
  let mood : TraitBook Rat := { traits := [⟨"mood", .text "mood", .null, .int 3⟩] }
  let t : Session Rat Unit :=
    { clock := {}, goods := { traits := mood, speed := 0 }, sources := () }
  let begun := Session.start inn.content () mood {} (.object [("locationId", .text "inn")])
  let s₀ : Session Rat Unit := begun.toOption.getD t
  let s : Session Rat Unit :=
    (Act.run (turn inn.content Script.view) ⟨s₀, .null, { picks := [.text "rest"] }⟩).2.play
  have hstart : begun = .ok s₀ := Fault.eq_ok_getD (by decide +kernel) _
  have hturns : Turns inn.content s₀ s := .turn .none Script.view .null _
  have hpointer : s.navigation.pointer.isSome = true := by decide +kernel
  have hresumes : (s.snapshot.any fun snapshot => snapshot.toPayload.toOption.any fun payload =>
      (Snapshot.ofPayload payload).toOption.any fun read => read.any fun snapshot' =>
        ((restore inn.content snapshot').run t).1.isOk) = true := by decide +kernel
  have hcycle : ({} : DayPlan Rat).cycle = .num (.int 24) := rfl
  have hnine : Hour.OfDay (Number.int 24).rat (.int 9) := ⟨by simp, by simp, by norm_num⟩
  have hfive : Hour.OfDay (Number.int 24).rat (.int 5) := ⟨by simp, by simp, by norm_num⟩
  have hnodup : (mood.traits.map Trait.name).Nodup := by simp [mood]
  have hvalues : ∀ trait ∈ mood.traits, ∃ n, (∀ b, n ≠ .flag b) ∧ trait.value = Trait.clamp n := by
    intro trait htrait
    obtain rfl := List.mem_singleton.mp htrait
    exact ⟨.int 3, by simp, by rfl⟩
  obtain ⟨snapshot, payload, snapshot', htaken, hwritten, hread, hall⟩ := restore_agrees
    (Memory.answers inn) (fun _ _ => rfl) hcycle hnine hfive hnodup hvalues hstart hturns hpointer
  simp only [htaken, hwritten, hread, Except.toOption, Option.any_some] at hresumes
  have hrun := Fault.eq_ok_getD hresumes ()
  obtain ⟨hagrees, hscene⟩ := hall t _ rfl (.refl _) (Prod.ext hrun rfl)
  exact ⟨s₀, s, _, snapshot, snapshot', payload, hstart, hturns, htaken, hwritten, hread,
    Prod.ext hrun rfl, hagrees, hscene⟩

end Session

end Storyworld
