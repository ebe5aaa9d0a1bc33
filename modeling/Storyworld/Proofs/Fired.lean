import Storyworld.Proofs.Course
import Storyworld.Proofs.Jump
import Storyworld.Proofs.Requirement
import Storyworld.Proofs.Resumption

/-!
This module contains what becomes of an event once an effect has played it: its token is in the log
for good, through turns, effects and saves that are restored, and requirements find it there.
-/

namespace Storyworld

variable {ρ σ : Type} [Scalar ρ]

/-! ### Requirements of events -/

namespace Requirement

section

variable {token : String} (htrim : Text.strip token = token)

include htrim

theorem strip_event : Text.strip ("event:" ++ token) = "event:" ++ token :=
  Text.strip_append (by decide +kernel) htrim

theorem ofToken_event (hne : token ≠ "")
    : (ofToken ("event:" ++ token) : Requirement ρ) = .leaf (.seen token) := by
  have hplain : Text.behind? negation ("event:" ++ token).toList = none := by
    rw [String.toList_append]
    rfl
  have hcolon : ':' ∉ "event".toList := by decide
  have hcut : Text.cut ("event:" ++ token) = ("event", token) :=
    Text.cut_append_colon hcolon token
  unfold ofToken
  rw [← Text.toList_strip, strip_event htrim, ofChars_plain (by simp) hplain, String.ofList_toList]
  unfold ofPlainToken
  rw [hcut]
  simp [hne]

theorem read_event (hne : token ≠ "")
    : read (.text ("event:" ++ token) : Value ρ) = .ok (.leaf (.seen token)) := by
  have hfits : fits roomLimit (.text ("event:" ++ token) : Value ρ) = true := by
    refine charsFit_plain (by decide) ?_
    rw [String.toList_append]
    rfl
  unfold read
  rw [if_pos hfits]
  exact congrArg Except.ok (ofToken_event htrim hne)

theorem read_not_event (hne : token ≠ "")
    : read (.text ("not:event:" ++ token) : Value ρ) = .ok (.negate (.leaf (.seen token))) := by
  have htoken : "not:event:" ++ token = "not:" ++ ("event:" ++ token) := by
    rw [← String.append_assoc]
    rfl
  have hchars : ("not:event:" ++ token).toList = negation ++ ("event:" ++ token).toList := by
    rw [htoken, String.toList_append]
    rfl
  have hstrip : Text.strip ("not:event:" ++ token) = "not:event:" ++ token := by
    rw [htoken]
    exact Text.strip_append (by decide +kernel) (strip_event htrim)
  have hfits : fits roomLimit (.text ("not:event:" ++ token) : Value ρ) = true := by
    unfold fits
    rw [hchars, show roomLimit = 989 + 1 from rfl, charsFit_negation]
    refine charsFit_plain (by decide) ?_
    rw [String.toList_append]
    rfl
  have hinner := ofToken_event (ρ := ρ) htrim hne
  unfold read
  rw [if_pos hfits]
  unfold ofValue
  unfold ofToken at hinner ⊢
  rw [← Text.toList_strip, hstrip, hchars, ofChars_negation, hinner]

end

theorem holds_seen {scope : Scope ρ} {log : EventLog} (hlog : scope.log = some (.ok log))
    (token : String) (env : Env ρ)
    : (Condition.seen token).holds scope env = .ok (log.has token) := by
  unfold Condition.holds
  rw [hlog]
  rfl

theorem comes_seen {scope : Scope ρ} {log : EventLog} (hlog : scope.log = some (.ok log))
    (token : String) (env : Env ρ) {room : Nat} (hroom : Expr.leafRoom ≤ room)
    : (Expr.leaf (.seen token)).Comes (ask scope env) room (log.has token) := by
  refine Expr.comes_leaf.mpr ⟨hroom, .flag (log.has token), ?_, isGiven_flag _⟩
  unfold ask
  rw [holds_seen hlog]
  rfl

theorem passes_seen {scope : Scope ρ} {log : EventLog} (hlog : scope.log = some (.ok log))
    {definition : Value ρ} {token : String} (h : read definition = .ok (.leaf (.seen token)))
    (env : Env ρ) : passes scope env definition = .ok (log.has token) :=
  passes_of_comes h (comes_seen hlog token env (by decide))

theorem passes_not_seen {scope : Scope ρ} {log : EventLog} (hlog : scope.log = some (.ok log))
    {definition : Value ρ} {token : String}
    (h : read definition = .ok (.negate (.leaf (.seen token)))) (env : Env ρ)
    : passes scope env definition = .ok (!log.has token) := by
  refine passes_of_comes h (Expr.comes_negate.mpr ⟨by decide, ?_⟩)
  rw [Bool.not_not]
  exact comes_seen hlog token env (by decide)

end Requirement

/-! ### The log -/

theorem EventLog.noteText_prefix (log : EventLog) (token : String)
    : log.tokens <+: (log.noteText token).tokens := by
  unfold noteText note
  split
  . exact List.prefix_refl _
  . exact List.prefix_append _ _

theorem EventLog.mem_noteText (log : EventLog) {token : String} (htrim : Text.strip token = token)
    (hne : token ≠ "") : token ∈ (log.noteText token).tokens := by
  unfold noteText note
  rw [htrim]
  split
  next hold => exact hold.resolve_left hne
  next => simp

/-- A clean log that goes on from these tokens. -/
structure EventLog.Since (past : List String) (log : EventLog) : Prop where
  clean : log.Clean
  past_prefix : past <+: log.tokens

/-- An event that is read from a token is the token. -/
theorem Effect.eq_of_event_mem {s token : String} {args : List String}
    (h : .event token args ∈ (ofToken s : List (Effect ρ))) : token = s ∧ s ≠ "" := by
  unfold ofToken at h
  split at h
  . cases h
  next hne =>
    dsimp only at h
    -- what starts with another word is read as no event
    split at h
    . unfold jump at h
      split at h <;> simp at h
    . split at h
      . simp at h
      . split at h
        . split at h <;> simp at h
        . rw [List.mem_singleton] at h
          cases h
          exact ⟨rfl, hne⟩

namespace Snapshot

/-- The events of a snapshot come back through its payload. -/
theorem ofPayload_events {s s' : Snapshot ρ} {tokens : List String}
    (hevents : s.events = .list (tokens.map .text))
    (htokens : ∀ token ∈ tokens, Text.strip token ≠ "") {payload : Value ρ}
    (hwritten : s.toPayload = .ok payload) (hread : ofPayload payload = .ok (some s'))
    : s'.events = .list (tokens.map .text) := by
  obtain ⟨parts, r, hparts, rfl, _, _, hfield⟩ := toPayload_eq_ok hwritten
  obtain ⟨_, _, hitems⟩ := parts_eq_ok hparts
  rw [hevents] at hitems
  obtain ⟨payload, pointer, husable, hreads⟩ := reads_of_ofPayload hread
  obtain rfl := Value.object.inj husable.object
  obtain ⟨events, hread_events, heq⟩ := hreads.events
  rw [hfield, ← Except.ok.inj hitems, eventsOf_tokens htokens, Except.ok.injEq] at hread_events
  rw [heq, hread_events]

end Snapshot

namespace Session

variable {content : Content ρ σ}

/-- A session is saved as a snapshot: the one that is read back from the payload of its own. -/
def SavedAs (s : Session ρ σ) (snapshot : Snapshot ρ) : Prop :=
  ∃ taken payload, s.snapshot = some taken ∧ taken.toPayload = .ok payload
    ∧ Snapshot.ofPayload payload = .ok (some snapshot)

theorem SavedAs.events_eq {s : Session ρ σ} {snapshot : Snapshot ρ} (h : s.SavedAs snapshot)
    (hclean : s.log.Clean) : snapshot.events = .list (s.log.tokens.map .text) := by
  obtain ⟨taken, payload, htaken, hwritten, hread⟩ := h
  obtain ⟨p, _, rfl⟩ := Option.map_eq_some_iff.mp htaken
  refine Snapshot.ofPayload_events rfl ?_ hwritten hread
  intro token htoken
  obtain ⟨hne, hstrip⟩ := hclean.token token htoken
  rw [hstrip]
  exact hne

/-- The sessions that come after another one. Turns and effects go on from it; and what one of these
sessions is saved as is restored in any of them, or taken up by any session at all. -/
inductive Later (content : Content ρ σ) (s : Session ρ σ) : Session ρ σ → Prop where
  | now : Later content s s
  | turn {t : Session ρ σ} (h : Later content s t) {V : Type} (view : View ρ V) (npc : Value ρ)
    (v : V) : Later content s (Act.run (Session.turn content view) ⟨t, npc, v⟩).2.play
  | effect {t : Session ρ σ} (h : Later content s t) (definition cost : Value ρ) :
    Later content s (((crew content).interpret definition cost).run t).2
  | restore {t u : Session ρ σ} (h : Later content s t) (hu : Later content s u)
    {snapshot : Snapshot ρ} (hsaved : u.SavedAs snapshot) :
    Later content s ((restore content snapshot).run t).2
  | resume {u r r' : Session ρ σ} (hu : Later content s u) {snapshot : Snapshot ρ}
    (hsaved : u.SavedAs snapshot) (hrun : (restore content snapshot).run r = (.ok (), r')) :
    Later content s r'

/-- The sessions right after an event of this token has been played, by an effect or in a turn. -/
inductive Fires (content : Content ρ σ) (token : String) (s : Session ρ σ) :
    Session ρ σ → Prop where
  | effect {definition cost : Value ρ} {effects : List (Effect ρ)} {args : List String}
    (hcompile : Effect.compile definition cost = .ok effects)
    (hevent : .event token args ∈ effects) :
    Fires content token s (((crew content).interpret definition cost).run s).2
  | turn {V : Type} (view : View ρ V) (npc : Value ρ) (v : V)
    {definition cost otherwise : Value ρ} {mid : Turn.Seat ρ (Session ρ σ) V}
    {effects : List (Effect ρ)} {args : List String}
    (hponder : (ponder content view).run ⟨s, npc, v⟩
      = (.ok (some (.play definition cost otherwise)), mid))
    (hcompile : Effect.compile definition cost = .ok effects)
    (hevent : .event token args ∈ effects) :
    Fires content token s (Act.run (Session.turn content view) ⟨s, npc, v⟩).2.play

theorem lasting_since (past : List String) : Lasting content fun s => s.log.Since past :=
  Lasting.of_log fun token _ h =>
    ⟨h.clean.noteText token, h.past_prefix.trans (EventLog.noteText_prefix _ token)⟩

theorem lasting_mem (token : String) : Lasting content fun s => token ∈ s.log.tokens := by
  refine Lasting.of_log (Q := fun log => token ∈ log.tokens) fun token' log h => ?_
  have hprefix := EventLog.noteText_prefix log token'
  exact hprefix.subset h

theorem clean_of_course {R : Session ρ σ → Snapshot ρ → Prop} {s t : Session ρ σ}
    (hs : s.log.Clean) (ht : Course content R s t) : t.log.Clean :=
  lasting_clean.course
    (fun t _ _ => keeps_restore_log (EventLog.keeps_load_clean _) t) hs ht

theorem Later.since {s t : Session ρ σ} (h : Later content s t) (hs : s.log.Clean)
    : t.log.Since s.log.tokens := by
  have hlasting : Lasting content _ := lasting_since s.log.tokens
  -- a clean log comes back as it was saved, so what is loaded goes on from the same tokens
  have hload {u : Session ρ σ} (hu : u.log.Since s.log.tokens) {snapshot : Snapshot ρ}
      (hsaved : u.SavedAs snapshot) (log : EventLog) :
      (EventLog.load snapshot.events).run log = (.ok (), u.log) := by
    rw [hsaved.events_eq hu.clean]
    exact EventLog.run_load hu.clean log
  induction h with
  | now => exact ⟨hs, List.prefix_refl _⟩
  | turn _ view npc v ih => exact hlasting.turn view ⟨_, npc, v⟩ ih
  | effect _ definition cost ih => exact hlasting.interpret definition cost _ ih
  | restore _ _ hsaved ih ihu =>
    refine keeps_restore_log (fun log _ => ?_) _ ih
    rw [hload ihu hsaved log]
    exact ihu
  | resume _ hsaved hrun ihu =>
    have hlog := log_of_restore hrun
    rw [hload ihu hsaved, Prod.mk.injEq] at hlog
    rw [← hlog.2]
    exact ihu

theorem Fires.mem {token : String} {s fired : Session ρ σ} (h : Fires content token s fired)
    (htrim : Text.strip token = token) (hne : token ≠ "") : token ∈ fired.log.tokens := by
  have hlasting : Lasting content _ := lasting_mem token
  have hperform (effect : Effect ρ) : Act.Keeps _ ((crew content).perform effect) :=
    hlasting.crew.perform effect
  have hplayed {definition cost : Value ρ} {effects : List (Effect ρ)} {args : List String}
      (hcompile : Effect.compile definition cost = .ok effects)
      (hevent : .event token args ∈ effects) (s : Session ρ σ) :
      token ∈ (((crew content).interpret definition cost).run s).2.log.tokens := by
    unfold Crew.interpret
    rw [hcompile, Act.lift_ok, pure_bind]
    refine Crew.gains_performAll (fun effect _ => hperform effect) hevent (fun s => ?_) .null s
    -- the token is noted before the event is published
    let Noted (s : Session ρ σ) : Prop := token ∈ s.log.tokens
    have hnoted : Noted { s with log := s.log.noteText token } :=
      EventLog.mem_noteText s.log htrim hne
    unfold Crew.perform
    refine Act.bind_of_keeps (P := Noted) hnoted fun _ => ?_
    refine Act.keeps_bind (hlasting.crew.announce _ _) fun _ => ?_
    refine Act.keeps_bind (hlasting.crew.announce _ _) fun _ => ?_
    apply Act.keeps_pure
  cases h with
  | effect hcompile hevent => exact hplayed hcompile hevent s
  | @turn V view npc v _ _ _ _ _ _ hponder hcompile hevent =>
    let Holds (seat : Turn.Seat ρ (Session ρ σ) V) : Prop := token ∈ seat.play.log.tokens
    rw [turn_eq, Act.run_bind, hponder]
    dsimp only
    unfold conclude Turn.Decision.carryOut
    refine Act.bind_of_keeps (P := Holds) ?_ fun result => ?_
    . rw [Turn.run_onPlay, Act.run_bind_pure_snd]
      exact hplayed hcompile hevent _
    . refine Act.keeps_bind (Turn.keeps_onPlay (hlasting.apply result)) fun _ => ?_
      apply Act.keeps_pure

theorem Fires.since {token : String} {s fired : Session ρ σ} (h : Fires content token s fired)
    (hs : s.log.Clean) : fired.log.Since s.log.tokens := by
  have hlasting : Lasting content _ := lasting_since s.log.tokens
  have hnow : s.log.Since s.log.tokens := ⟨hs, List.prefix_refl _⟩
  cases h with
  | effect => exact hlasting.interpret _ _ s hnow
  | turn view npc v => exact hlasting.turn view ⟨s, npc, v⟩ hnow

/-- An event is never forgotten. Whatever a session has been through before it played the event, the
event is required with success, and its absence without, in all that comes after: in the sessions
that turns and effects lead to, and in those that saves are restored to, which were taken behind it.
What was in the log before it, and what came since, stays there in its order, each token once. -/
theorem fired_stays {sources : σ} {traits : TraitBook ρ} {clock : Clock ρ} {place : Value ρ}
    {s₀ s fired later : Session ρ σ} (hstart : start content sources traits clock place = .ok s₀)
    (hs : Course content (fun _ _ => True) s₀ s) {token : String} (htrim : Text.strip token = token)
    {event : String} {args : List String}
    (hevent : Effect.compile (.text token : Value ρ) .null = .ok [.event event args])
    (hfired : Fires content event s fired) (hlater : Later content fired later)
    : (∀ env, Requirement.passes later.scope env (.text ("event:" ++ token)) = .ok true
        ∧ Requirement.passes later.scope env (.text ("not:event:" ++ token)) = .ok false)
      ∧ s.log.tokens <+: fired.log.tokens ∧ fired.log.tokens <+: later.log.tokens
      ∧ later.log.tokens.Nodup := by
  obtain ⟨rfl, hne⟩ : event = token ∧ token ≠ "" := by
    rw [Effect.compile_text, htrim, Except.ok.injEq] at hevent
    exact Effect.eq_of_event_mem (ρ := ρ) (by rw [hevent]; exact List.mem_singleton_self _)
  have hclean : s.log.Clean := by
    refine clean_of_course ?_ hs
    rw [(started hstart).log_eq]
    exact EventLog.clean_empty
  have hfired_since := hfired.since hclean
  have hlater_since := hlater.since hfired_since.clean
  have hseen : later.log.has event = true := by
    have hmem := hlater_since.past_prefix.subset (hfired.mem htrim hne)
    simpa [EventLog.has] using hmem
  refine ⟨fun env => ?_, hfired_since.past_prefix, hlater_since.past_prefix, hlater_since.clean.nodup⟩
  have hlog : later.scope.log = some (.ok later.log) := rfl
  rw [Requirement.passes_seen hlog (Requirement.read_event htrim hne),
    Requirement.passes_not_seen hlog (Requirement.read_not_event htrim hne), hseen]
  exact ⟨rfl, rfl⟩

/-- After a day at the inn the keeper is met; a session that is started anew and takes up the save
knows of it. -/
theorem fired_stays_inn
    : ∃ s₀ s fired later : Session Rat Unit,
      start inn.content () {} {} (.object [("locationId", .text "inn")]) = .ok s₀
      ∧ Course inn.content (fun _ _ => True) s₀ s
      ∧ Fires inn.content "met:the keeper" s fired ∧ Later inn.content fired later
      ∧ Requirement.passes later.scope {} (.text "event:met:the keeper") = .ok true
      ∧ Requirement.passes later.scope {} (.text "not:event:met:the keeper") = .ok false := by
  let begun := start inn.content () {} {} (.object [("locationId", .text "inn")])
  let s₀ : Session Rat Unit :=
    begun.toOption.getD { clock := {}, goods := { speed := 0 }, sources := () }
  let s : Session Rat Unit :=
    (Act.run (turn inn.content Script.view) ⟨s₀, .null, { picks := [.text "rest"] }⟩).2.play
  let meeting : Value Rat := .list [.text "met:the keeper", .text "time:1"]
  let fired := (((crew inn.content).interpret meeting .null).run s).2
  have hstart : begun = .ok s₀ := Fault.eq_ok_getD (by decide +kernel) _
  have hs : Course inn.content (fun _ _ => True) s₀ s := .turn .none Script.view .null _
  have hmeeting : Effect.compile meeting .null
      = .ok [.event "met:the keeper" ["the keeper"], .time 1] := by rfl
  have hfired : Fires inn.content "met:the keeper" s fired :=
    .effect hmeeting List.mem_cons_self
  have hresumes : (fired.snapshot.any fun snapshot => snapshot.toPayload.toOption.any fun payload =>
      (Snapshot.ofPayload payload).toOption.any fun read => read.any fun snapshot' =>
        ((restore inn.content snapshot').run s₀).1.isOk) = true := by decide +kernel
  obtain ⟨snapshot, htaken, hresumes⟩ := (Option.any_eq_true _ _).mp hresumes
  obtain ⟨payload, hwritten, hresumes⟩ := Fault.any_eq_true.mp hresumes
  obtain ⟨read, hread, hresumes⟩ := Fault.any_eq_true.mp hresumes
  obtain ⟨snapshot', rfl, hok⟩ := (Option.any_eq_true _ _).mp hresumes
  have hsaved : fired.SavedAs snapshot' := ⟨snapshot, payload, htaken, hwritten, hread⟩
  have hlater : Later inn.content fired ((restore inn.content snapshot').run s₀).2 :=
    .resume .now hsaved (Prod.ext (Fault.eq_ok_getD hok ()) rfl)
  have htrim : Text.strip "met:the keeper" = "met:the keeper" := by decide +kernel
  have hevent : Effect.compile (.text "met:the keeper" : Value Rat) .null
      = .ok [.event "met:the keeper" ["the keeper"]] := by rfl
  obtain ⟨hpasses, _⟩ := fired_stays hstart hs htrim hevent hfired hlater
  obtain ⟨hseen, hunseen⟩ := hpasses {}
  have hevent : "event:" ++ "met:the keeper" = "event:met:the keeper" := by decide
  have hnot : "not:event:" ++ "met:the keeper" = "not:event:met:the keeper" := by decide
  rw [hevent] at hseen
  rw [hnot] at hunseen
  exact ⟨s₀, s, fired, _, hstart, hs, hfired, hlater, hseen, hunseen⟩

end Session

end Storyworld
