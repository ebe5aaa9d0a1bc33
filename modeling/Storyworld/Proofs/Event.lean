import Storyworld.Proofs.Accounts
import Storyworld.Proofs.Composition
import Storyworld.Proofs.Dispatch
import Storyworld.Proofs.Fired

/-!
This module contains what an event comes to that content writes as a mapping with a token and that it
writes as a text. Both are noted alike, but items change hands only as the words of the event say, and a
mapping has the words that it lists.
-/

namespace Storyworld

variable {ρ σ : Type} [Scalar ρ] {content : Content ρ σ}

/-! ### Who is reached -/

/-- The verb that a duty is about; jumps and time have none. -/
def Duty.verb? : Duty → Option ItemVerb
  | .items verb => some verb
  | _ => none

theorem Duty.entries_bus
    : Bus.entries Duty.bus.topics
      = [(Topic.go, ⟨10, 0, .travel⟩), (Topic.time, ⟨10, 1, .time⟩)]
        ++ ItemVerb.all.map fun verb =>
          (verb.topic, ⟨40, 2 + ItemVerb.all.idxOf verb, .items verb⟩) := rfl

theorem Duty.verbs_reached (topic : String)
    : (Duty.bus.reached topic).filterMap (fun row => row.handler.verb?)
      = (ItemVerb.reached? topic).toList := by
  have hothers : ∀ rows : List (String × Subscription Duty),
      (∀ row ∈ rows, row.2.handler.verb? = none) →
      ((rows.filter fun row => Topic.covers row.1 topic).map Prod.snd).filterMap
        (fun row => row.handler.verb?) = [] := by
    intro rows hrows
    rw [List.filterMap_eq_nil_iff]
    intro row hrow
    obtain ⟨entry, hentry, rfl⟩ := List.mem_map.mp hrow
    exact hrows entry (List.mem_filter.mp hentry).1
  have hverbs : (((Bus.entries Duty.bus.topics).filter fun entry => Topic.covers entry.1 topic).map
      Prod.snd).filterMap (fun row => row.handler.verb?) = (ItemVerb.reached? topic).toList := by
    rw [Duty.entries_bus, List.filter_append, List.map_append, List.filterMap_append,
      hothers _ (by simp [Duty.verb?]), List.nil_append, List.filter_map]
    simp only [Function.comp_def, ItemVerb.covers_eq]
    cases ItemVerb.reached? topic with
    | none => simp
    | some verb => cases verb <;> rfl
  have hperm := (Bus.reached_perm Duty.bus topic).filterMap fun row => row.handler.verb?
  rw [hverbs] at hperm
  cases hreached : ItemVerb.reached? topic with
  | none =>
    rw [hreached] at hperm
    exact hperm.eq_nil
  | some verb =>
    rw [hreached] at hperm
    exact List.perm_singleton.mp hperm

theorem ItemVerb.reached?_effect (token : String) : reached? (Topic.effect token) = none := by
  cases hreached : reached? (Topic.effect token) with
  | none => rfl
  | some verb =>
    have hcovers : Topic.covers verb.topic (Topic.effect token) = true := by
      rw [covers_eq]
      exact decide_eq_true hreached
    have hprefix := prefix_of_covers hcovers
    unfold Topic.effect at hprefix
    rw [String.toList_append] at hprefix
    -- no verb starts as the topics of effects do
    cases verb <;> simp [name] at hprefix

/-! ### One event -/

namespace Session

/-- What is left of the belongings, and of the sources, once an event is published on a topic. -/
def traded (content : Content ρ σ) (topic : String) (e : DomainEvent ρ) (s : Session ρ σ)
    : Belongings ρ × σ :=
  match ItemVerb.reached? topic with
  | none => (s.goods, s.sources)
  | some verb => ((Belongings.handle content.lookup verb (.ok s.location) e).run
    (s.goods, s.sources)).2

theorem traded_of_unreached {topic : String} (h : ItemVerb.reached? topic = none) (e : DomainEvent ρ)
    (s : Session ρ σ) : traded content topic e s = (s.goods, s.sources) := by
  unfold traded
  rw [h]

/-- An event without words names no item. -/
theorem traded_wordless (content : Content ρ σ) (topic token : String) (s : Session ρ σ)
    : traded content topic ⟨token, (Text.cut token).1, []⟩ s = (s.goods, s.sources) := by
  unfold traded
  split
  . rfl
  . rfl

theorem foldl_deliver_event (e : DomainEvent ρ) (rows : List (Subscription Duty)) (s : Session ρ σ)
    : rows.foldl (Bus.deliver (fun _ s => s) fun duty => perform content duty (.event e)) s
      = (rows.filterMap fun row => row.handler.verb?).foldl
        (fun s verb => ((perform content (.items verb) (.event e)).run s).2) s := by
  induction rows generalizing s with
  | nil => rfl
  | cons row rows ih =>
    obtain ⟨priority, order, duty⟩ := row
    rw [List.foldl_cons, ih]
    unfold Bus.deliver
    cases duty with
    | travel => rfl
    | time => rfl
    | items verb =>
      change _ = List.foldl _ _ (verb :: _)
      rw [List.foldl_cons]
      rcases (perform content (.items verb) (.event e)).run s with ⟨_ | _, t⟩
      . rfl
      . rfl

theorem run_publish_event (topic : String) (e : DomainEvent ρ) (s : Session ρ σ)
    : (publish content topic (.event e)).run s
      = (.ok ⟨⟩, { s with
        goods := (traded content topic e s).1
        sources := (traded content topic e s).2
        journal := s.journal ++ [(topic, .event e)] }) := by
  unfold publish
  rw [Act.run_modify]
  unfold Bus.publish traded
  rw [foldl_deliver_event, Duty.verbs_reached]
  cases ItemVerb.reached? topic with
  | none => rfl
  | some verb => rfl

/-- An event is noted, and items change hands as its token says. -/
theorem run_perform_event (token : String) (args : List String) (s : Session ρ σ)
    : let e : DomainEvent ρ := ⟨token, (Text.cut token).1, args.map .text⟩
      ((crew content).perform (.event token args)).run s
      = (.ok .null, { s with
        log := s.log.noteText token
        goods := (traded content token e s).1
        sources := (traded content token e s).2
        journal := s.journal ++ [(Topic.effect token, .event e), (token, .event e)] }) := by
  intro e
  unfold Crew.perform crew Crew.announce
  dsimp only
  rw [Act.run_bind, Act.run_modify]
  dsimp only
  rw [Act.run_bind, run_publish_event]
  dsimp only
  rw [Act.run_bind, run_publish_event, traded_of_unreached (ItemVerb.reached?_effect token)]
  dsimp only
  rw [List.append_assoc]
  rfl

theorem run_interpret_event {definition : Value ρ} {token : String} {args : List String}
    (h : Effect.compile definition .null = .ok [.event token args]) (s : Session ρ σ)
    : ((crew content).interpret definition .null).run s
      = ((crew content).perform (.event token args)).run s := by
  rw [Crew.interpret_of_compile h]
  unfold Crew.performAll
  rw [Act.run_bind, Act.run_attempt, run_perform_event]
  rfl

end Session

/-! ### Events as mappings -/

namespace Effect

theorem givenText?_text {token : String} (hne : token ≠ "")
    : givenText? (.text token : Value ρ) = some token := by
  unfold givenText?
  rw [if_pos (Value.isGiven_text.mpr hne), Value.display_text]

theorem argsOf_texts (args : List String) : argsOf (.list (args.map .text) : Value ρ) = args := by
  cases args with
  | nil => rfl
  | cons arg args =>
    have hdisplay : ((arg :: args).map Value.text : List (Value ρ)).map Value.display
        = arg :: args := by
      rw [List.map_map]
      exact List.map_id'' (fun arg => Value.display_text arg) _
    exact hdisplay

/-- A mapping that has a token, and nothing that comes before it, is an event. -/
theorem compile_token {r : Record ρ} {token : String} (hplain : (Value.object r).Plain)
    (heffects : member? "effects" r = none) (heffect : member? "effect" r = none)
    (hgo : Record.field r "go" = .null) (hplace : ofPlace r = none)
    (htoken : givenText? (Record.field r "token") = some token)
    : compile (.object r) .null = .ok [.event token (argsOf (Record.field r "args"))] := by
  have hevent : ofValue (.object r) = [.event token (argsOf (Record.field r "args"))] := by
    unfold ofValue
    rw [ofMember_eq, ofMember_eq, heffects, heffect]
    change ofRecord r = _
    unfold ofRecord
    rw [hgo, hplace, htoken]
  rw [compile_eq, read_of_plain hplain, hevent]
  rfl

theorem compile_bare {token : String} (hne : token ≠ "")
    : compile (.object [("token", .text token)] : Value ρ) .null = .ok [.event token []] :=
  compile_token rfl rfl rfl rfl rfl (givenText?_text hne)

/-- A mapping that lists words has them as its own. -/
theorem compile_listed {token : String} (hne : token ≠ "") (args : List String)
    : compile (.object [("token", .text token), ("args", .list (args.map .text))] : Value ρ) .null
      = .ok [.event token args] := by
  have hargs (depth : Nat) : Value.allPlain depth (args.map .text : List (Value ρ)) = true := by
    rw [Value.allPlain_iff]
    intro arg harg
    obtain ⟨_, _, rfl⟩ := List.mem_map.mp harg
    rfl
  have hplain : (.object [("token", .text token), ("args", .list (args.map .text))] :
      Value ρ).Plain := by
    unfold Value.Plain
    simp [Value.isPlain, Value.membersPlain, Value.plainDepth, hargs]
  have hcompile := compile_token hplain rfl rfl rfl rfl (givenText?_text hne)
  rwa [show Record.field _ "args" = .list (args.map .text) from rfl, argsOf_texts] at hcompile

end Effect

namespace Session

/-- The same is carried in both sessions and lies about in both, and traits and log are the same. -/
structure Concurs (s s' : Session ρ σ) : Prop where
  counts : s.goods.inventory.counts = s'.goods.inventory.counts
  ledger : s.goods.ledger = s'.goods.ledger
  traits : s.goods.traits.traits = s'.goods.traits.traits
  log : s.log = s'.log

/-- A text that is read as an event and the mapping that has it as token are noted alike. Items change
hands as the words of the text say, and none as the mapping does, so the two concur just where the words
change nothing; they do where no verb is reached. A mapping that lists the words of the text is played
as the text is. -/
theorem event_forms_concur_iff (content : Content ρ σ) {t token : String} {args : List String}
    (h : Effect.compile (.text t : Value ρ) .null = .ok [.event token args]) (s : Session ρ σ)
    : let play (definition : Value ρ) := ((crew content).interpret definition .null).run s
      let mapped := (play (.object [("token", .text t)])).2
      let spoken := (play (.text t)).2
      let changed := (traded content token ⟨token, (Text.cut token).1, args.map .text⟩ s).1
      mapped.log = spoken.log
        ∧ mapped.goods = s.goods
        ∧ spoken.goods = changed
        ∧ (Concurs mapped spoken
          ↔ changed.inventory.counts = s.goods.inventory.counts ∧ changed.ledger = s.goods.ledger
            ∧ changed.traits.traits = s.goods.traits.traits)
        ∧ (ItemVerb.reached? token = none → Concurs mapped spoken)
        ∧ play (.object [("token", .text token), ("args", .list (args.map .text))])
          = play (.text t) := by
  intro play mapped spoken changed
  have htoken := h
  rw [Effect.compile_text, Except.ok.injEq] at htoken
  obtain ⟨hstrip, hne⟩ :=
    Effect.eq_of_event_mem (ρ := ρ) (by rw [htoken]; exact List.mem_singleton_self _)
  have hblank : t ≠ "" := by
    rintro rfl
    exact hne rfl
  have hmapped : play (.object [("token", .text t)])
      = ((crew content).perform (.event t [])).run s :=
    run_interpret_event (Effect.compile_bare hblank) s
  have hspoken : play (.text t) = ((crew content).perform (.event token args)).run s :=
    run_interpret_event h s
  have hlisted : play (.object [("token", .text token), ("args", .list (args.map .text))])
      = ((crew content).perform (.event token args)).run s :=
    run_interpret_event (Effect.compile_listed (hstrip ▸ hne) args) s
  rw [← hspoken] at hlisted
  rw [run_perform_event] at hmapped hspoken
  have hlog : mapped.log = spoken.log := by
    have hnote : s.log.noteText t = s.log.noteText token := by
      unfold EventLog.noteText
      rw [hstrip, Text.strip_strip]
    change (play _).2.log = (play (.text t)).2.log
    rw [hmapped, hspoken]
    dsimp only
    exact hnote
  have hgoods : mapped.goods = s.goods := by
    change (play _).2.goods = _
    rw [hmapped]
    exact congrArg Prod.fst (traded_wordless content t t s)
  have hchanged : spoken.goods = changed := by
    change (play _).2.goods = _
    rw [hspoken]
  have hconcurs : Concurs mapped spoken
      ↔ changed.inventory.counts = s.goods.inventory.counts ∧ changed.ledger = s.goods.ledger
        ∧ changed.traits.traits = s.goods.traits.traits := by
    rw [← hchanged, ← hgoods]
    exact ⟨fun h => ⟨h.counts.symm, h.ledger.symm, h.traits.symm⟩,
      fun ⟨hcounts, hledger, htraits⟩ => ⟨hcounts.symm, hledger.symm, htraits.symm, hlog⟩⟩
  refine ⟨hlog, hgoods, hchanged, hconcurs, fun hquiet => ?_, ?_⟩
  . have hsame : changed = s.goods := by
      change (traded content token _ s).1 = _
      rw [traded_of_unreached hquiet]
    rw [hconcurs, hsame]
    exact ⟨rfl, rfl, rfl⟩
  . exact hlisted

/-- To gain an apple by its text gives one; the mapping that has the text as token gives none. -/
theorem event_forms_concur_iff_apple
    : let begun := start inn.content () {} {} (.object [("locationId", .text "inn")])
      let s : Session Rat Unit :=
        begun.toOption.getD { clock := {}, goods := { speed := 0 }, sources := () }
      let play (definition : Value Rat) := ((crew inn.content).interpret definition .null).run s
      let mapped := (play (.object [("token", .text "gain:apple")])).2
      let spoken := (play (.text "gain:apple")).2
      begun = .ok s
        ∧ Effect.compile (.text "gain:apple" : Value Rat) .null
          = .ok [.event "gain:apple" ["apple"]]
        ∧ spoken.goods.inventory.counts = [("apple", 1)] ∧ mapped.goods = s.goods
        ∧ ¬ Concurs mapped spoken
        ∧ play (.object [("token", .text "gain:apple"), ("args", .list [.text "apple"])])
          = play (.text "gain:apple") := by
  intro begun s play mapped spoken
  have hcompile : Effect.compile (.text "gain:apple" : Value Rat) .null
      = .ok [.event "gain:apple" ["apple"]] := by rfl
  obtain ⟨_, hgoods, hspoken, hconcurs, _, hlisted⟩ :=
    event_forms_concur_iff inn.content hcompile s
  have hcounts : spoken.goods.inventory.counts = [("apple", 1)] := by decide +kernel
  have hempty : s.goods.inventory.counts = [] := by decide +kernel
  refine ⟨Fault.eq_ok_getD (by decide +kernel) _, hcompile, hcounts, hgoods, fun h => ?_, hlisted⟩
  obtain ⟨hsame, _⟩ := hconcurs.mp h
  rw [← hspoken, hcounts, hempty] at hsame
  cases hsame

end Session

end Storyworld
