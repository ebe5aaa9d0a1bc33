import Storyworld.Proofs.Belongings
import Storyworld.Proofs.EventLog
import Storyworld.Proofs.Pointer
import Storyworld.Proofs.Travel

/-!
This module contains what turns keep of a session over exact numbers: the clock shows an hour of the
day, the places are valid, what is carried and what lies about is well-formed, and the log is clean.
-/

namespace Storyworld

/-- An hour of a day of so many hours; a truth value is none. -/
structure Hour.OfDay (cycle : Rat) (n : Number Rat) : Prop where
  flag : ∀ b, n ≠ .flag b
  nonneg : 0 ≤ n.rat
  lt : n.rat < cycle

namespace Clock

/-- A clock of a plan that shows an hour of the day, as its end is one. -/
structure Daily (plan : DayPlan Rat) (cycle : Number Rat) (c : Clock Rat) : Prop where
  plan_eq : c.plan = plan
  finish_mem : ∃ n, c.finish = .num n ∧ Hour.OfDay cycle.rat n
  time_mem : ∃ n, c.time = .num n ∧ Hour.OfDay cycle.rat n

variable {plan : DayPlan Rat} {cycle : Number Rat}

theorem daily_new {start finish : Number Rat} (hstart : Hour.OfDay cycle.rat start)
    (hfinish : Hour.OfDay cycle.rat finish)
    : Daily plan cycle (Clock.new (.num start) (.num finish) plan) where
  plan_eq := rfl
  finish_mem := ⟨finish, rfl, hfinish⟩
  time_mem := ⟨start, rfl, hstart⟩

theorem Daily.subscribe {c : Clock Rat} (h : Daily plan cycle c) (name : String)
    : Daily plan cycle (c.subscribe name) := by
  unfold Clock.subscribe
  split
  . exact h
  . exact { h with }

theorem daily_tick (hcycle : plan.cycle = .num cycle) (hpos : 0 < cycle.rat) (hours : Value Rat)
    : Act.Keeps (Daily plan cycle) (Clock.tick hours) := by
  have hset (hour : Value Rat) : Act.Keeps (Daily plan cycle) (Clock.set hour) := by
    intro c h
    rcases set_cases hour c with ⟨e, hrun⟩ | hrun | hrun | ⟨x, hx, hrun⟩
    . rw [hrun]
      exact h
    . rw [hrun]
      exact h
    . rw [hrun]
      exact { h with time_mem := h.finish_mem }
    . rw [hrun]
      -- only here the clock comes to show another hour than its end, and that one is reduced
      rw [h.plan_eq, hcycle] at hx
      obtain ⟨hnonneg, hlt⟩ := Hour.mem_of_normalize? hpos hx
      exact { h with time_mem := ⟨.real x, rfl, by simp, hnonneg, hlt⟩ }
  unfold Clock.tick
  refine Act.keeps_bind Act.keeps_get fun c => ?_
  refine Act.keeps_bind (Act.keeps_lift _) fun hour => ?_
  exact hset hour

theorem run_restore_of_mem {c : Clock Rat} (hcycle : c.plan.cycle = .num cycle) {n : Number Rat}
    (hn : Hour.OfDay cycle.rat n)
    : (Clock.restore (.real n.rat)).run c
      = (.ok (), { c with time := .real n.rat, ended := false }) := by
  have hpos : 0 < cycle.rat := lt_of_le_of_lt hn.nonneg hn.lt
  have hreading : Hour.normalize? (.real n.rat) c.plan.cycle = .ok (some n.rat) := by
    rw [hcycle, Hour.normalize?_num _ _ hpos, Number.rat_real, Hour.reduced_of_mem hn.nonneg hn.lt]
  unfold Clock.restore
  simp only [Act.run_bind, Act.run_get, Act.run_lift, hreading, Act.run_modify]

end Clock

namespace Session

section

variable {ρ σ : Type} [Scalar ρ] {content : Content ρ σ} {f : Value ρ → Except Fault (Value ρ)}

theorem lasting_clean : Lasting content fun s => s.log.Clean :=
  Lasting.of_log fun token _ h => h.noteText token

theorem allValid_after (hf : Answers f content.location) (c : Clock ρ) (call : Navigation.Call ρ)
    {n : Navigation ρ} (src : σ) (h : Navigation.AllValid f (· ≠ "") n)
    : Navigation.AllValid f (· ≠ "")
      (call.after ⟨content.location, some (Atlas.openAt c)⟩ (n, src)).1 := by
  refine Navigation.AllValid.after ?_ ?_ h
  . exact hf
  . intro s hs
    exact hs.2.2

theorem lasting_allValid (hf : Answers f content.location)
    : Lasting content fun s => Navigation.AllValid f (· ≠ "") s.navigation := by
  refine Lasting.of_navigation (Q := fun _ n => Navigation.AllValid f (· ≠ "") n) ?_ ?_ ?_
  . intro _ _ _ h
    exact h
  . intro outcome c n src h
    exact allValid_after hf c (.apply outcome) src h
  . intro c n src h
    exact allValid_after hf c .current src h

theorem allValid (hf : Answers f content.location) {sources : σ} {traits : TraitBook ρ}
    {clock : Clock ρ} {place : Value ρ} {s₀ s : Session ρ σ}
    (hstart : start content sources traits clock place = .ok s₀) (hs : Turns content s₀ s)
    : Navigation.AllValid f (· ≠ "") s.navigation := by
  apply (lasting_allValid hf).turns ?_ hs
  have hnowhere : Navigation.AllValid f (· ≠ "") ({} : Navigation ρ) := by
    rintro p (hp | hp)
    . cases hp
    . cases hp
  rcases (started hstart).navigation_eq with hnavigation | ⟨location, scene, result, src, hmove⟩
  . rw [hnavigation]
    exact hnowhere
  . have hnavigation := congrArg (fun run => run.2.1) hmove
    dsimp only at hnavigation
    rw [← hnavigation]
    refine hnowhere.moveTo ?_ ?_ sources
    . exact hf
    . intro _ _ _ _ _ _ hne
      exact hne

end

variable {σ : Type} {content : Content Rat σ} {f : Value Rat → Except Fault (Value Rat)}
  {look : String → Value Rat} {names : List String} {plan : DayPlan Rat} {cycle : Number Rat}

theorem lasting_daily (hcycle : plan.cycle = .num cycle) (hpos : 0 < cycle.rat)
    : Lasting content fun s => Clock.Daily plan cycle s.clock := by
  refine Lasting.of_navigation (Q := fun c _ => Clock.Daily plan cycle c) ?_ ?_ ?_
  . intro hours c n h
    exact Clock.daily_tick hcycle hpos hours c h
  . intro _ _ _ _ h
    exact h
  . intro _ _ _ h
    exact h

theorem lasting_sound (hlook : ItemLookup.Shows look content.lookup)
    : Lasting content fun s => Belongings.Sound look names s.goods := by
  apply Lasting.of_goods
  case htrade =>
    intro verb here payload
    exact Belongings.keeps_handlePayload hlook verb _ payload
  case hadjust =>
    intro name delta
    exact Belongings.keeps_onTraits (TraitBook.keeps_increase name delta)
  case hdeclare =>
    intro location items
    exact Belongings.keeps_onLedger (Ledger.keeps_applyScene location items)

structure Reached (f : Value Rat → Except Fault (Value Rat)) (look : String → Value Rat)
    (names : List String) (plan : DayPlan Rat) (cycle : Number Rat) (s : Session Rat σ) : Prop where
  clock : Clock.Daily plan cycle s.clock
  places : Navigation.AllValid f (· ≠ "") s.navigation
  explored : Navigation.Explored f (fun _ => True) s.navigation
  goods : Belongings.Sound look names s.goods
  log : s.log.Clean

theorem reached (hf : Answers f content.location) (hlook : ItemLookup.Shows look content.lookup)
    (hcycle : plan.cycle = .num cycle) {start finish : Number Rat}
    (hstart : Hour.OfDay cycle.rat start) (hfinish : Hour.OfDay cycle.rat finish)
    {traits : TraitBook Rat} (htraits : traits.Clamped names) {sources : σ} {place : Value Rat}
    {s₀ s : Session Rat σ} (hfresh : Session.start content sources traits
      (Clock.new (.num start) (.num finish) plan) place = .ok s₀) (hs : Turns content s₀ s)
    : Reached f look names plan cycle s := by
  have hpos : 0 < cycle.rat := lt_of_le_of_lt hstart.nonneg hstart.lt
  obtain ⟨hclock₀, hgoods₀, hlog₀, _⟩ := started hfresh
  obtain ⟨_, hexplored⟩ := travelled hf hfresh hs
  constructor
  case clock =>
    refine (lasting_daily hcycle hpos).turns ?_ hs
    rw [hclock₀]
    exact (Clock.daily_new hstart hfinish).subscribe dayListener
  case places => exact allValid hf hfresh hs
  case explored => exact { hexplored with registry := fun _ _ => .inr trivial }
  case goods =>
    refine (lasting_sound hlook).turns ?_ hs
    rw [hgoods₀]
    refine ⟨⟨rfl, ⟨List.nodup_nil, ?_⟩, htraits, Ledger.settled_empty⟩, ?_⟩
    . intro _ _ h
      cases h
    . intro v hv
      exact Except.ok.inj hv
  case log =>
    refine lasting_clean.turns ?_ hs
    rw [hlog₀]
    exact EventLog.clean_empty

end Session

end Storyworld
