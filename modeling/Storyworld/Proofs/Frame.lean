import Storyworld.Proofs.Belongings
import Storyworld.Proofs.Clock
import Storyworld.Proofs.Navigation
import Storyworld.Proofs.Session

/-!
This module contains the frame of effects. All effects are published on one bus, and the token of an
event is a topic that authors choose: it may be that of a jump or of time, or cover several. Still a
jump changes nothing but where the player is and has been, time nothing but the clock, and an event
nothing but what is logged, carried and put to account.
-/

namespace Storyworld

variable {ρ σ : Type}

/-- The sources have been read: whatever all their answers keep still holds. -/
def Content.Reads (content : Content ρ σ) (src src' : σ) : Prop :=
  ∀ R : σ → Prop, content.Keeps R → R src → R src'

namespace Content.Reads

variable {content : Content ρ σ}

theorem refl (src : σ) : content.Reads src src := fun _ _ h => h

theorem keeps {α : Type} {act : Act σ α} (h : ∀ R, content.Keeps R → Act.Keeps R act) (src : σ)
    : Act.Keeps (content.Reads src) act :=
  fun src' hreads R hR hsrc => h R hR src' (hreads R hR hsrc)

end Content.Reads

/-! ### Traits -/

/-- All of a trait but its value. -/
def Trait.profile (t : Trait ρ) : String × Value ρ × Value ρ := (t.name, t.description, t.side)

/-- The same traits with other values, of which those who listen were told. -/
structure TraitBook.Revalued (book book' : TraitBook ρ) : Prop where
  profiles : book'.traits.map Trait.profile = book.traits.map Trait.profile
  listeners : book'.listeners = book.listeners
  told : ∃ shown : List (Trait ρ),
    book'.told = book.told ++ shown.flatMap fun t => book.listeners.map (·, t)

namespace TraitBook

theorem Revalued.refl (book : TraitBook ρ) : book.Revalued book where
  profiles := rfl
  listeners := rfl
  told := ⟨[], by simp⟩

theorem Revalued.trans {book book' book'' : TraitBook ρ} (h : book.Revalued book')
    (h' : book'.Revalued book'') : book.Revalued book'' where
  profiles := h'.profiles.trans h.profiles
  listeners := h'.listeners.trans h.listeners
  told := by
    obtain ⟨shown, hshown⟩ := h.told
    obtain ⟨shown', hshown'⟩ := h'.told
    refine ⟨shown ++ shown', ?_⟩
    rw [hshown', hshown, h.listeners, List.flatMap_append, List.append_assoc]

theorem profiles_replace {traits : List (Trait ρ)} {t u : Trait ρ}
    (h : traits.find? (fun v => v.name == u.name) = some t) (hprofile : u.profile = t.profile)
    : (replace traits u).map Trait.profile = traits.map Trait.profile := by
  induction traits with
  | nil => rfl
  | cons v vs ih =>
    unfold replace
    rw [List.find?_cons] at h
    by_cases hv : v.name == u.name
    . rw [if_pos hv]
      rw [hv] at h
      obtain rfl := Option.some.inj h
      rw [List.map_cons, List.map_cons, hprofile]
    . rw [if_neg hv]
      rw [Bool.not_eq_true] at hv
      rw [hv] at h
      rw [List.map_cons, List.map_cons, ih h]

theorem keeps_revalued [Scalar ρ] (book : TraitBook ρ) (name : String)
    (f : Number ρ → Except Fault (Number ρ))
    : Act.Keeps book.Revalued (change name f) := by
  intro book' h
  refine h.trans ?_
  unfold change
  rw [Act.run_bind, Act.run_get]
  dsimp only
  cases hfind : book'.find? name with
  | none => exact .refl book'
  | some t =>
    have hname : t.name = name := by simpa using List.find?_some hfind
    subst hname
    rw [Act.run_bind, Act.run_lift]
    cases f t.value with
    | error e => exact .refl book'
    | ok n => exact ⟨profiles_replace hfind rfl, rfl, [t.assign n], by simp [tell]⟩

end TraitBook

/-! ### Time -/

theorem Clock.keeps_tick [Scalar ρ] (c : Clock ρ) (hours : Value ρ)
    : Act.Keeps (fun c' => ∃ time ended, c' = { c with time, ended }) (tick hours) := by
  unfold tick
  refine Act.keeps_bind Act.keeps_get fun now => ?_
  refine Act.keeps_bind (Act.keeps_lift _) fun hour => ?_
  rintro _ ⟨time, ended, rfl⟩
  rcases set_cases hour { c with time, ended } with ⟨e, hrun⟩ | hrun | hrun | ⟨x, _, hrun⟩
  . rw [hrun]
    exact ⟨_, _, rfl⟩
  . rw [hrun]
    exact ⟨_, _, rfl⟩
  . rw [hrun]
    exact ⟨_, _, rfl⟩
  . rw [hrun]
    exact ⟨_, _, rfl⟩

/-! ### Items -/

namespace Belongings

variable [Scalar ρ] {content : Content ρ σ}

/-- What items that change hands may change: the counts, the account, the values of the traits and
the speed. -/
def Traded (content : Content ρ σ) (s s' : Belongings ρ × σ) : Prop :=
  ∃ counts ledger traits speed, s.1.traits.Revalued traits ∧ content.Reads s.2 s'.2
    ∧ s'.1 = { inventory := { s.1.inventory with counts }, ledger, traits, speed }

omit [Scalar ρ] in
theorem Traded.refl (s : Belongings ρ × σ) : Traded content s s :=
  ⟨s.1.inventory.counts, s.1.ledger, s.1.traits, s.1.speed, .refl _, .refl _, rfl⟩

theorem keeps_onTraits_traded (s : Belongings ρ × σ) (name : String)
    (f : Number ρ → Except Fault (Number ρ))
    : Act.Keeps (Traded content s) (onTraits (TraitBook.change name f)) := by
  rintro ⟨_, src⟩ ⟨counts, ledger, traits, speed, htraits, hreads, rfl⟩
  exact ⟨counts, ledger, _, speed, TraitBook.keeps_revalued _ name f _ htraits, hreads, rfl⟩

omit [Scalar ρ] in
theorem keeps_onLedger_traded {α : Type} (s : Belongings ρ × σ) (act : Act (Ledger ρ) α)
    : Act.Keeps (Traded content s) (onLedger act) := by
  rintro ⟨_, src⟩ ⟨counts, ledger, traits, speed, htraits, hreads, rfl⟩
  exact ⟨counts, _, traits, speed, htraits, hreads, rfl⟩

theorem keeps_trade_traded (s : Belongings ρ × σ)
    {act : Act Inventory (Nat × List (String × InventoryChange))} (hact : Inventory.Trades act)
    : Act.Keeps (Traded content s) (do
      let (amount, notices) ← onInventory act
      tell content.lookup notices
      return amount) := by
  refine Act.keeps_bind ?_ fun (amount, notices) => ?_
  . rintro ⟨_, src⟩ ⟨counts, ledger, traits, speed, htraits, hreads, rfl⟩
    unfold onInventory
    rw [Act.run_onFirst, Act.run_within]
    rcases hact { s.1.inventory with counts } with ⟨result, hrun, _⟩ | ⟨_, _, counts', hrun, _⟩
    . rw [hrun]
      exact ⟨counts, ledger, traits, speed, htraits, hreads, rfl⟩
    . rw [hrun]
      exact ⟨counts', ledger, traits, speed, htraits, hreads, rfl⟩
  . refine Act.keeps_bind (keeps_tell (keeps_hear ?_ ?_ ?_) notices) fun _ => Act.keeps_pure _
    . rintro id b src ⟨counts, ledger, traits, speed, htraits, hreads, rfl⟩
      have hlookup := Content.Reads.keeps (fun _ h => h.lookup id) s.2 src hreads
      exact ⟨counts, ledger, traits, speed, htraits, hlookup, rfl⟩
    . rintro speed b src ⟨counts, ledger, traits, _, htraits, hreads, rfl⟩
      exact ⟨counts, ledger, traits, speed, htraits, hreads, rfl⟩
    . exact keeps_onTraits_traded s

theorem bears_traded (s : Belongings ρ × σ) : Bears content.lookup (Traded content s) where
  receive id qty := keeps_trade_traded s (Inventory.trades_add id qty)
  surrender id qty := keeps_trade_traded s (Inventory.trades_remove id qty)
  add _ _ _ := keeps_onLedger_traded s _
  remove _ _ _ := keeps_onLedger_traded s _

end Belongings

/-! ### Effects -/

section

variable [Scalar ρ]

/-- What is published when an effect is played. -/
def Effect.published : Effect ρ → List (String × Payload ρ)
  | .go location scene => [(Topic.go, .value (.target (.text location) (.ofText? scene)))]
  | .trait .. => []
  | .event token args =>
    let payload := .event ⟨token, (Text.cut token).1, args.map .text⟩
    [(Topic.effect token, payload), (token, payload)]
  | .time hours => if Scalar.lt Scalar.zero hours then [(Topic.time, .hours hours)] else []

namespace Session

variable {content : Content ρ σ}

/-- What an effect that is played may change of a session. -/
def Touches (content : Content ρ σ) (s s' : Session ρ σ) (effect : Effect ρ) : Prop :=
  let journal := s.journal ++ effect.published
  match effect with
  | .go .. => ∃ navigation sources, content.Reads s.sources sources
    ∧ s' = { s with navigation, sources, journal }
  | .trait .. => ∃ traits, s.goods.traits.Revalued traits
    ∧ s' = { s with goods := { s.goods with traits } }
  | .event token _ => ∃ goods sources,
    Belongings.Traded content (s.goods, s.sources) (goods, sources)
    ∧ s' = { s with log := s.log.noteText token, goods, sources, journal }
  | .time _ => ∃ time ended dayEnded,
    s' = { s with clock := { s.clock with time, ended }, dayEnded, journal }

theorem travels_reads (s : Session ρ σ) (src : σ)
    : Navigation.Travels (atlas content s) fun n => content.Reads src n.2 where
  info location := by
    refine Act.keeps_second fun _ => Content.Reads.keeps (fun R h => ?_) src
    refine Act.keeps_bind (Act.keeps_attempt (h.location location)) fun found => ?_
    cases found with
    | error e => apply Act.keeps_pure
    | ok v => apply Act.keeps_pure
  ensure _ _ _ _ h := h
  place _ _ _ h := h

theorem keeps_travel (s : Session ρ σ) (journal : List (String × Payload ρ)) (duty : Duty)
    (target : Value ρ)
    : Act.Keeps (fun s' => ∃ navigation sources, content.Reads s.sources sources
      ∧ s' = { s with navigation, sources, journal }) (perform content duty (.value target)) := by
  cases duty with
  | travel =>
    refine Act.keeps_bind ?_ fun _ => Act.keeps_pure _
    rintro _ ⟨navigation, sources, hreads, rfl⟩
    rw [run_navigate]
    exact ⟨_, _, (travels_reads _ s.sources).apply target (navigation, sources) hreads, rfl⟩
  | time => apply Act.keeps_pure
  | items verb => exact fun _ h => h

theorem keeps_time (s : Session ρ σ) (journal : List (String × Payload ρ)) (duty : Duty) (hours : ρ)
    : Act.Keeps (fun s' => ∃ time ended dayEnded,
      s' = { s with clock := { s.clock with time, ended }, dayEnded, journal })
      (perform content duty (.hours hours)) := by
  cases duty with
  | travel => apply Act.keeps_pure
  | time =>
    refine Act.keeps_ite (keeps_pass _ ?_) (Act.keeps_pure _)
    rintro _ dayEnded ⟨time, ended, _, rfl⟩
    obtain ⟨time', ended', htick⟩ :=
      Clock.keeps_tick s.clock (.real hours) { s.clock with time, ended } ⟨_, _, rfl⟩
    refine ⟨time', ended', dayEnded, ?_⟩
    rw [htick]
  | items verb => exact fun _ h => h

theorem keeps_items (s : Session ρ σ) (log : EventLog) (journal : List (String × Payload ρ))
    (duty : Duty) (e : DomainEvent ρ)
    : Act.Keeps (fun s' => ∃ goods sources,
      Belongings.Traded content (s.goods, s.sources) (goods, sources)
        ∧ s' = { s with log, goods, sources, journal }) (perform content duty (.event e)) := by
  cases duty with
  | travel => apply Act.keeps_pure
  | time => apply Act.keeps_pure
  | items verb =>
    refine Act.keeps_bind Act.keeps_get fun here => ?_
    rintro _ ⟨goods, sources, htraded, rfl⟩
    rw [run_onGoods]
    exact ⟨_, _, (Belongings.bears_traded _).handlePayload verb _ _ (goods, sources) htraded, rfl⟩

theorem publish_items (content : Content ρ σ) (s : Session ρ σ) (log : EventLog)
    (journal : List (String × Payload ρ)) {s' : Session ρ σ} (topic : String) (e : DomainEvent ρ)
    (h : ∃ goods sources, Belongings.Traded content (s.goods, s.sources) (goods, sources)
      ∧ s' = { s with log, goods, sources, journal })
    : ∃ goods sources, Belongings.Traded content (s.goods, s.sources) (goods, sources)
      ∧ ((publish content topic (.event e)).run s').2
        = { s with log, goods, sources, journal := journal ++ [(topic, .event e)] } := by
  obtain ⟨goods, sources, htraded, rfl⟩ := h
  exact published (fun duty => keeps_items s log _ duty e) ⟨goods, sources, htraded, rfl⟩

/-- A jump changes nothing but the navigation, time nothing but the clock and whether the day has
ended, a trait effect nothing but values of traits, and an event, whatever its token and its words,
nothing but the log, what is carried and put to account, values of traits and the speed. -/
theorem perform_touches (content : Content ρ σ) (s : Session ρ σ) (effect : Effect ρ)
    : Touches content s (((crew content).perform effect).run s).2 effect := by
  cases effect with
  | go location scene =>
    unfold Crew.perform
    rw [Act.run_bind_pure_snd]
    exact published (fun duty => keeps_travel s _ duty _) ⟨_, _, .refl _, rfl⟩
  | trait name delta =>
    have hadjust : Act.Keeps (fun s' => ∃ traits, s.goods.traits.Revalued traits
        ∧ s' = { s with goods := { s.goods with traits } })
        (onGoods (Belongings.onTraits (TraitBook.increase name (.real delta)))) := by
      rintro _ ⟨traits, htraits, rfl⟩
      rw [run_onTraits]
      exact ⟨_, TraitBook.keeps_revalued _ name _ traits htraits, rfl⟩
    unfold Crew.perform
    refine Act.keeps_bind (Act.keeps_bind hadjust fun _ => ?_) (fun _ => ?_) s ⟨_, .refl _, rfl⟩
    . apply Act.keeps_pure
    . apply Act.keeps_pure
  | event token args =>
    obtain ⟨e, he⟩ : ∃ e : DomainEvent ρ, e = ⟨token, (Text.cut token).1, args.map .text⟩ :=
      ⟨_, rfl⟩
    have hrun : (((crew content).perform (.event token args)).run s).2
        = ((publish content token (.event e)).run
          ((publish content (Topic.effect token) (.event e)).run
            { s with log := s.log.noteText token }).2).2 := by
      rw [he]
      rfl
    have hfirst := publish_items content s (s.log.noteText token) s.journal (Topic.effect token) e
      ⟨s.goods, s.sources, .refl _, rfl⟩
    obtain ⟨goods, sources, htraded, heq⟩ := publish_items content s _ _ token e hfirst
    rw [hrun, heq]
    refine ⟨goods, sources, htraded, ?_⟩
    rw [List.append_assoc, he]
    rfl
  | time hours =>
    unfold Crew.perform
    dsimp only
    by_cases hpos : Scalar.lt Scalar.zero hours = true
    . have hjournal : (Effect.time hours).published = [(Topic.time, .hours hours)] := if_pos hpos
      rw [if_pos hpos, Act.run_bind_pure_snd]
      unfold Touches
      rw [hjournal]
      exact published (fun duty => keeps_time s _ duty hours) ⟨_, _, _, rfl⟩
    . have hjournal : (Effect.time hours).published = [] := if_neg hpos
      rw [if_neg hpos]
      unfold Touches
      rw [hjournal, List.append_nil]
      exact ⟨_, _, _, rfl⟩

end Session

end

end Storyworld
