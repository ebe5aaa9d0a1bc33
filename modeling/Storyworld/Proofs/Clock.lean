import Storyworld.Clock
import Storyworld.Proofs.Act
import Storyworld.Proofs.Hour

/-!
This module contains runs of a clock over exact hours. Whether a tick ends the day depends on the
hour alone that it arrives at: a tick that comes past the end of the day and goes on to the next
start, or to midnight where the day ends after it starts, jumps over the end.
-/

namespace Storyworld.Clock

inductive Command (ρ : Type) where
  | tick (hours : Value ρ)
  | set (hour : Value ρ)
  | restore (hour : Value ρ)
  | reset
  | subscribe (name : String)
  | unsubscribe (name : String)
  | clearListeners

def Command.after {ρ : Type} [Scalar ρ] (c : Clock ρ) : Command ρ → Clock ρ
  | .tick hours => (Act.run (Clock.tick hours) c).2
  | .set hour => (Act.run (Clock.set hour) c).2
  | .restore hour => (Act.run (Clock.restore hour) c).2
  | .reset => (Act.run Clock.reset c).2
  | .subscribe name => c.subscribe name
  | .unsubscribe name => c.unsubscribe name
  | .clearListeners => c.clearListeners

/-- A clock of a plan that goes from a start to a finish and shows a number. -/
structure Runs {ρ : Type} (plan : DayPlan ρ) (start finish : Number ρ) (c : Clock ρ) : Prop where
  plan_eq : c.plan = plan
  start_eq : c.start = .num start
  finish_eq : c.finish = .num finish
  time_num : ∃ t, c.time = .num t

section

variable {ρ : Type}

theorem runs_new {plan : DayPlan ρ} {start finish : Number ρ}
    : Runs plan start finish (Clock.new (.num start) (.num finish) plan) where
  plan_eq := rfl
  start_eq := rfl
  finish_eq := rfl
  time_num := ⟨start, rfl⟩

variable [Scalar ρ]

theorem run_set_of {hour : Value ρ} {c : Clock ρ} {x : ρ} {crossed : Bool}
    (hn : Hour.normalize? hour c.plan.cycle = .ok (some x))
    (hx : crosses c.start c.finish (.real x) = .ok crossed)
    : (Clock.set hour).run c =
      if crossed then
        (.ok (c.notices ⟨c.finish, true⟩), { c with time := c.finish, ended := true })
      else if c.time.same (.real x) then (.ok [], c)
      else (.ok (c.notices ⟨.real x, false⟩), { c with time := .real x }) := by
  unfold Clock.set
  simp only [Act.run_bind, Act.run_get, Act.run_lift, hn, hx]
  cases crossed with
  | true => rfl
  | false =>
    by_cases hs : c.time.same (.real x) = true
    . simp [hs]
    . simp [hs]
      rfl

theorem set_cases (hour : Value ρ) (c : Clock ρ)
    : (∃ e, (Clock.set hour).run c = (.error e, c))
      ∨ (Clock.set hour).run c = (.ok [], c)
      ∨ (Clock.set hour).run c
        = (.ok (c.notices ⟨c.finish, true⟩), { c with time := c.finish, ended := true })
      ∨ (∃ x, Hour.normalize? hour c.plan.cycle = .ok (some x) ∧ (Clock.set hour).run c
        = (.ok (c.notices ⟨.real x, false⟩), { c with time := .real x })) := by
  cases hn : Hour.normalize? hour c.plan.cycle with
  | error e =>
    left
    refine ⟨e, ?_⟩
    unfold Clock.set
    simp [hn]
  | ok reading =>
    cases reading with
    | none =>
      right; left
      unfold Clock.set
      simp [hn]
    | some x =>
      cases hx : crosses c.start c.finish (.real x) with
      | error e =>
        left
        refine ⟨e, ?_⟩
        unfold Clock.set
        simp [hn, hx]
      | ok crossed =>
        right
        rw [run_set_of hn hx]
        split
        . exact .inr (.inl rfl)
        . split
          . exact .inl rfl
          . exact .inr (.inr ⟨x, rfl, rfl⟩)

variable {plan : DayPlan ρ} {start finish : Number ρ}

theorem runs_set (hour : Value ρ) : Act.Keeps (Runs plan start finish) (Clock.set hour) := by
  intro c h
  rcases set_cases hour c with ⟨e, hr⟩ | hr | hr | ⟨x, _, hr⟩
  . rw [hr]
    exact h
  . rw [hr]
    exact h
  . rw [hr]
    exact { h with time_num := ⟨finish, h.finish_eq⟩ }
  . rw [hr]
    exact { h with time_num := ⟨.real x, rfl⟩ }

theorem runs_restore (hour : Value ρ)
    : Act.Keeps (Runs plan start finish) (Clock.restore hour) := by
  intro c h
  unfold Clock.restore
  simp only [Act.run_bind, Act.run_get, Act.run_lift]
  cases Hour.normalize? hour c.plan.cycle with
  | error e => exact h
  | ok reading =>
    cases reading with
    | none => exact h
    | some x => exact { h with time_num := ⟨.real x, rfl⟩ }

theorem runs_tick (hours : Value ρ) : Act.Keeps (Runs plan start finish) (Clock.tick hours) := by
  unfold Clock.tick
  refine Act.keeps_bind Act.keeps_get fun c => ?_
  refine Act.keeps_bind (Act.keeps_lift _) fun hour => ?_
  exact runs_set hour

theorem runs_reset : Act.Keeps (Runs plan start finish) Clock.reset := by
  have hmodify {f : Clock ρ → Clock ρ} (hf : ∀ c, (f c).plan = c.plan ∧ (f c).start = c.start
      ∧ (f c).finish = c.finish ∧ (f c).time = c.time)
      : Act.Keeps (Runs plan start finish) (modify f : Act (Clock ρ) PUnit) := by
    apply Act.keeps_modify
    intro c h
    obtain ⟨hplan, hstart, hfinish, htime⟩ := hf c
    exact ⟨hplan ▸ h.plan_eq, hstart ▸ h.start_eq, hfinish ▸ h.finish_eq, htime ▸ h.time_num⟩
  unfold Clock.reset
  refine Act.keeps_bind (hmodify fun c => ⟨rfl, rfl, rfl, rfl⟩) fun _ => ?_
  refine Act.keeps_bind Act.keeps_get fun c => ?_
  refine Act.keeps_bind (runs_set _) fun told => ?_
  refine Act.keeps_bind (hmodify fun c => ⟨rfl, rfl, rfl, rfl⟩) fun _ => ?_
  exact Act.keeps_pure told

theorem runs_after (command : Command ρ) {c : Clock ρ} (h : Runs plan start finish c)
    : Runs plan start finish (command.after c) := by
  cases command with
  | tick hours => exact runs_tick hours c h
  | set hour => exact runs_set hour c h
  | restore hour => exact runs_restore hour c h
  | reset => exact runs_reset c h
  | subscribe name =>
    change Runs plan start finish (c.subscribe name)
    unfold subscribe
    split
    . exact h
    . exact { h with }
  | unsubscribe name => exact { h with }
  | clearListeners => exact { h with }

theorem runs_foldl (commands : List (Command ρ)) {c : Clock ρ} (h : Runs plan start finish c)
    : Runs plan start finish (commands.foldl Command.after c) := by
  induction commands generalizing c with
  | nil => exact h
  | cons command commands ih => exact ih (runs_after command h)

end

/-! ### Exact hours -/

/-- The hour comes at or behind the end of the day, and before the next start or midnight. -/
def Behind (start finish hour : Rat) : Prop :=
  (start < finish ∧ finish ≤ hour) ∨ (finish < start ∧ finish ≤ hour ∧ hour < start)

theorem crosses_num (start finish : Number Rat) (hour : Rat)
    : ∃ crossed, crosses (.num start) (.num finish) (.real hour) = .ok crossed
      ∧ (crossed = true ↔ Behind start.rat finish.rat hour) := by
  unfold crosses Behind
  by_cases hlt : start.rat < finish.rat
  . have hgt : ¬ finish.rat < start.rat := not_lt.mpr hlt.le
    by_cases hle : finish.rat ≤ hour
    all_goals simp [hlt, hgt, hle, bind, Except.bind, pure, Except.pure]
  . by_cases hgt : finish.rat < start.rat
    . by_cases hle : finish.rat ≤ hour
      all_goals simp [hlt, hgt, hle, bind, Except.bind, pure, Except.pure]
    . simp [hlt, hgt, bind, Except.bind, pure, Except.pure]

variable {plan : DayPlan Rat} {start finish cycle : Number Rat} {c : Clock Rat}

theorem run_tick (h : Runs plan start finish c) (hcycle : plan.cycle = .num cycle)
    (hpos : 0 < cycle.rat) {time : Number Rat} (htime : c.time = .num time) (hours : Number Rat)
    {hour : Rat} (hhour : Hour.reduced (time.rat + hours.rat) cycle.rat = hour)
    : (Behind start.rat finish.rat hour ∧ (Clock.tick (.num hours)).run c
        = (.ok (c.notices ⟨c.finish, true⟩), { c with time := c.finish, ended := true }))
      ∨ (¬ Behind start.rat finish.rat hour ∧ (Clock.tick (.num hours)).run c
        = if time.rat = hour then (.ok [], c)
          else (.ok (c.notices ⟨.real hour, false⟩), { c with time := .real hour })) := by
  obtain ⟨sum, hsum, hsum_rat, _⟩ := Number.add_eq_ok time hours
  have hreading : Hour.normalize? (.num sum) c.plan.cycle = .ok (some hour) := by
    rw [h.plan_eq, hcycle, Hour.normalize?_num sum cycle hpos, hsum_rat, hhour]
  obtain ⟨crossed, hcross, hiff⟩ := crosses_num start finish hour
  rw [← h.start_eq, ← h.finish_eq] at hcross
  have htick : (Clock.tick (.num hours)).run c = (Clock.set (.num sum)).run c := by
    unfold Clock.tick
    simp [htime, Value.plus, hsum]
  rw [htick, run_set_of hreading hcross]
  by_cases hb : Behind start.rat finish.rat hour
  . left
    simp [hiff.mpr hb, hb]
  . right
    have hfalse : crossed = false := by
      rw [← Bool.not_eq_true, hiff]
      exact hb
    simp [hfalse, hb, htime, Value.same]

theorem behind_reduced_iff {start finish cycle : Rat} (hpos : 0 < cycle) (hne : start ≠ finish)
    (hfinish : 0 ≤ finish) (instant : Rat)
    : Behind start finish (Hour.reduced instant cycle)
      ↔ ∃ k : Int, finish + k * cycle ≤ instant
        ∧ instant < (if start < finish then cycle else min start cycle) + k * cycle := by
  have hlt : Hour.reduced instant cycle < cycle := Hour.reduced_lt hpos
  have hinstant := Hour.eq_reduced_add instant cycle
  constructor
  . -- the whole cycles below the instant are those of its reduced hour
    intro hbehind
    refine ⟨(instant / cycle).floor, ?_⟩
    rcases hbehind with ⟨hday, hle⟩ | ⟨hnight, hle, hstart⟩
    . rw [if_pos hday]
      constructor
      . linarith
      . linarith
    . rw [if_neg (not_lt.mpr hnight.le)]
      have : Hour.reduced instant cycle < min start cycle := lt_min hstart hlt
      constructor
      . linarith
      . linarith
  . intro ⟨k, hle, hbound⟩
    have hhour : Hour.reduced instant cycle = instant - k * cycle := by
      apply Hour.reduced_eq_of (k := k)
      . linarith
      . have : (if start < finish then cycle else min start cycle) ≤ cycle := by
          split
          . exact le_refl cycle
          . exact min_le_right start cycle
        linarith
      . ring
    rw [hhour]
    by_cases hday : start < finish
    . left
      constructor
      . exact hday
      . linarith
    . rw [if_neg hday] at hbound
      have := min_le_left start cycle
      right
      refine ⟨lt_of_le_of_ne (not_lt.mp hday) hne.symm, ?_, ?_⟩
      . linarith
      . linarith

/-- A tick ends the day exactly where it arrives behind the end of a day and before what comes next,
the start of the following day or midnight; the clock then stands at the end, and all are told. -/
theorem tick_ends_day_iff (hcycle : plan.cycle = .num cycle) (hpos : 0 < cycle.rat)
    (hne : start.rat ≠ finish.rat) (hfinish : 0 ≤ finish.rat) (commands : List (Command Rat))
    (hc : commands.foldl Command.after (Clock.new (.num start) (.num finish) plan) = c)
    (hgoing : c.ended = false)
    : ∃ time : Number Rat, c.time = .num time ∧ ∀ hours : Number Rat,
      (((Clock.tick (.num hours)).run c).2.ended = true
        ↔ ∃ k : Int, finish.rat + k * cycle.rat ≤ time.rat + hours.rat
          ∧ time.rat + hours.rat
            < (if start.rat < finish.rat then cycle.rat else min start.rat cycle.rat)
              + k * cycle.rat)
      ∧ (((Clock.tick (.num hours)).run c).2.ended = true →
        ((Clock.tick (.num hours)).run c).2.time = .num finish
        ∧ ((Clock.tick (.num hours)).run c).1
          = .ok (c.listeners.map fun listener => (listener, ⟨.num finish, true⟩))) := by
  have hruns : Runs plan start finish c := hc ▸ runs_foldl commands runs_new
  obtain ⟨time, htime⟩ := hruns.time_num
  refine ⟨time, htime, fun hours => ?_⟩
  rw [← behind_reduced_iff hpos hne hfinish]
  rcases run_tick hruns hcycle hpos htime hours rfl with ⟨hbehind, hrun⟩ | ⟨hbefore, hrun⟩
  . rw [hrun]
    constructor
    . simp [hbehind]
    . intro _
      refine ⟨hruns.finish_eq, ?_⟩
      unfold notices
      rw [hruns.finish_eq]
  . have hended : ((Clock.tick (.num hours)).run c).2.ended = false := by
      rw [hrun]
      split
      . exact hgoing
      . exact hgoing
    simp [hended, hbefore]

theorem tick_ends_day_iff_nine_to_five
    : let c : Clock Rat := [Command.subscribe "bell", .tick (.int 6)].foldl Command.after
        (Clock.new (.int 9) (.int 17) {})
      c.ended = false
      ∧ ((Clock.tick (.int 3)).run c).2.time = .int 17
      ∧ ((Clock.tick (.int 3)).run c).1 = .ok [("bell", ⟨.int 17, true⟩)] := by
  intro c
  have hgoing : c.ended = false := by decide +kernel
  obtain ⟨time, htime, hall⟩ := @tick_ends_day_iff {} (.int 9) (.int 17) (.int 24) c rfl (by simp)
    (by simp) (by simp) _ rfl hgoing
  have hfifteen : time.rat = 15 := by
    have : c.time.same (.int 15) = true := by decide +kernel
    rw [htime] at this
    simpa [Value.same] using this
  obtain ⟨hiff, htold⟩ := hall (.int 3)
  have hended : ((Clock.tick (.int 3)).run c).2.ended = true := by
    rw [hiff]
    refine ⟨0, ?_⟩
    rw [hfifteen]
    norm_num
  obtain ⟨hstands, hnotices⟩ := htold hended
  refine ⟨hgoing, hstands, ?_⟩
  have hlisteners : c.listeners = ["bell"] := by decide +kernel
  rw [hnotices, hlisteners]
  rfl

end Storyworld.Clock
