import Storyworld.Navigation
import Storyworld.Proofs.Requirement
import Storyworld.Proofs.Window

/-!
This module contains nights. A plan tells night from day by comparing hours, and the window of the same
hours goes round the circle of a day: the two are the same for a night that runs past midnight, and
come apart for one that lies within a day.
-/

namespace Storyworld

/-- A plan whose night starts at one hour of the day and ends at another. -/
structure DayPlan.Nights (plan : DayPlan Rat) (start finish : Number Rat) : Prop where
  start_eq : plan.nightStart = .num start
  finish_eq : plan.nightEnd = .num finish
  start_mem : 0 ≤ start.rat ∧ start.rat < 24
  finish_mem : 0 ≤ finish.rat ∧ finish.rat < 24
  ne : start.rat ≠ finish.rat

def DayPlan.isNight {ρ : Type} [Scalar ρ] (plan : DayPlan ρ) (hour : Value ρ) : Except Fault Bool := do
  return !(← plan.isDay hour)

theorem Requirement.passes_leaf {ρ : Type} [Scalar ρ] {scope : Scope ρ} {env : Env ρ}
    {definition : Value ρ} {condition : Condition ρ} {b : Bool}
    (hread : read definition = .ok (.leaf condition)) (h : condition.holds scope env = .ok b)
    : passes scope env definition = .ok b := by
  refine passes_of_comes hread (Expr.comes_leaf.mpr ⟨by decide, .flag b, ?_, isGiven_flag b⟩)
  unfold ask
  rw [h]
  rfl

/-- A window depends on its hours as they are read. -/
theorem Hour.inWindow_of_finite {hour start finish : Number Rat} {v w : Value Rat}
    (hv : v.finite? = .ok (some start.rat)) (hw : w.finite? = .ok (some finish.rat))
    : inWindow (.num hour) v w = inWindow (.num hour) (.num start) (.num finish) := by
  have hday : (0 : Rat) < (Number.int 24 : Number Rat).rat := by norm_num
  have hreading {v : Value Rat} {n : Number Rat} (h : v.finite? = .ok (some n.rat)) :
      normalize? v perDay = normalize? (.num n) perDay :=
    (normalize?_of_finite h hday).trans (normalize?_num n (.int 24) hday).symm
  unfold inWindow
  rw [hreading hv, hreading hw]

/-! ### Gates -/

/-- What is open at some times only: a scene, or what a requirement stands before. -/
inductive Gate (ρ : Type) where
  | scene (record : Record ρ)
  | requirement (definition : Value ρ)

namespace Gate

section

variable {ρ : Type} [Scalar ρ]

def opens (scope : Scope ρ) (env : Env ρ) (c : Clock ρ) : Gate ρ → Except Fault Bool
  | .scene record => Atlas.openAt c record
  | .requirement definition =>
    Requirement.passes { scope with clock := some (.ok c) } env definition

/-- The gate is open in the window of this name. -/
def Names (window : String) : Gate ρ → Prop
  | .scene record => Text.lower <$> (Record.field record "window").key? = .ok window
  | .requirement definition =>
    ∃ part, part.name = window ∧ Requirement.read definition = .ok (.leaf (.daypart part))

end

/-- The gate is open from one hour up to another, as numbers or as texts of numbers. -/
def Spans (start finish : Number Rat) : Gate Rat → Prop
  | .scene record =>
    (∃ window, Text.lower <$> (Record.field record "window").key? = .ok window
      ∧ ∀ part : Daypart, window ≠ part.name)
      ∧ (Record.field record "from").finite? = .ok (some start.rat)
      ∧ (Record.field record "to").finite? = .ok (some finish.rat)
  | .requirement definition =>
    Requirement.read definition = .ok (.leaf (.hours start.rat (some finish.rat)))

variable {ρ : Type} [Scalar ρ] {scope : Scope ρ} {env : Env ρ} {c : Clock ρ}

theorem opens_night {night : Bool} (h : c.plan.isNight c.time = .ok night) {gate : Gate ρ}
    (hnames : gate.Names "night") : gate.opens scope env c = .ok night := by
  have hwindow : c.window = .ok (if night then "night" else "day") := by
    obtain ⟨day, hday, hnight⟩ := Fault.bind_eq_ok.mp h
    obtain rfl : (!day) = night := Except.ok.inj hnight
    unfold Clock.window Clock.isDay
    rw [hday]
    cases day <;> rfl
  have hsame : ((if night then "night" else "day") == "night") = night := by
    cases night <;> decide
  cases gate with
  | scene record =>
    obtain ⟨window, hkey, hlower⟩ := Fault.map_eq_ok.mp hnames
    unfold opens Atlas.openAt
    simp only [hkey, hlower, hwindow, bind, Except.bind, or_true, if_true]
    rw [if_neg (by decide)]
    exact congrArg Except.ok hsame
  | requirement definition =>
    obtain ⟨part, hpart, hread⟩ := hnames
    obtain rfl : part = .night := by
      cases part
      . exact absurd hpart (by decide)
      . exact absurd hpart (by decide)
      . rfl
    refine Requirement.passes_leaf hread ?_
    unfold Condition.holds
    simp only [hwindow, bind, Except.bind]
    exact congrArg Except.ok hsame

theorem opens_hours {c : Clock Rat} {scope : Scope Rat} {env : Env Rat}
    {hour start finish : Number Rat} (htime : c.time = .num hour) {inside : Bool}
    (h : Hour.inWindow (.num hour) (.num start) (.num finish) = .ok inside) {gate : Gate Rat}
    (hspans : gate.Spans start finish) : gate.opens scope env c = .ok inside := by
  cases gate with
  | scene record =>
    obtain ⟨⟨window, hwindow, hother⟩, hstart, hfinish⟩ := hspans
    obtain ⟨key, hkey, hlower⟩ := Fault.map_eq_ok.mp hwindow
    have hany : window ≠ "any" := hother .any
    have hday : window ≠ "day" := hother .day
    have hnight : window ≠ "night" := hother .night
    have hgiven : ((Record.field record "from").isNull && (Record.field record "to").isNull) = false := by
      cases hvalue : Record.field record "from" with
      | null =>
        rw [hvalue] at hstart
        cases hstart
      | _ => rfl
    unfold opens Atlas.openAt
    simp only [hkey, hlower, hany, hday, hnight, or_self, if_false, hgiven, htime, bind, Except.bind]
    rw [if_neg Bool.false_ne_true, Hour.inWindow_of_finite hstart hfinish]
    exact h
  | requirement definition =>
    refine Requirement.passes_leaf hspans ?_
    unfold Condition.holds Condition.timeNow?
    simp only [htime]
    rw [← h]
    exact Hour.inWindow_of_finite (Value.finite?_num _) (Value.finite?_num _)

end Gate

/-! ### Hours of one day -/

namespace DayPlan

/-- The hours that a plan calls night. -/
def Covers (start finish hour : Rat) : Prop := hour < finish ∨ start ≤ hour

/-- The hours of a day that a window holds. -/
def Holds (start finish hour : Rat) : Prop :=
  if |start - finish| < 1 / 10 ^ 9 then |hour - start| < 1 / 10 ^ 9
  else if start < finish then start ≤ hour ∧ hour < finish
  else start ≤ hour ∨ hour < finish

section

variable {start finish hour : Rat}

theorem holds_of_past_midnight (h : finish + 1 / 10 ^ 9 ≤ start)
    : Holds start finish hour ↔ Covers start finish hour := by
  have hlt : ¬ start < finish := by
    rw [not_lt]
    linarith
  unfold Holds Covers
  rw [abs_of_nonneg (by linarith), if_neg (by linarith), if_neg hlt]
  exact or_comm

theorem holds_of_within_day (h : start + 1 / 10 ^ 9 ≤ finish)
    : Holds start finish hour ↔ start ≤ hour ∧ hour < finish := by
  have hlt : start < finish := by linarith
  unfold Holds
  rw [abs_of_neg (by linarith), if_neg (by linarith), if_pos hlt]

theorem covers_of_within_day (h : start < finish) : Covers start finish hour := by
  rcases lt_or_ge hour finish with hlt | hge
  . exact .inl hlt
  . exact .inr (h.le.trans hge)

/-- Of a window around one hour, midnight or the last hour of the day lies outside. -/
theorem exists_covers_not_holds (hstart : 0 ≤ start ∧ start < 24)
    (hclose : |start - finish| < 1 / 10 ^ 9)
    : ∃ hour, (0 ≤ hour ∧ hour < 24) ∧ Covers start finish hour ∧ ¬ Holds start finish hour := by
  obtain ⟨_, hfinish⟩ := abs_lt.mp hclose
  unfold Covers Holds
  simp only [if_pos hclose, not_lt, le_abs]
  rcases le_or_gt 12 start with hlate | hearly
  . refine ⟨0, by norm_num, .inl ?_, .inr ?_⟩
    . linarith
    . linarith
  . refine ⟨23, by norm_num, .inr ?_, .inl ?_⟩
    . linarith
    . linarith

theorem forall_holds_iff (hstart : 0 ≤ start ∧ start < 24) (hfinish : 0 ≤ finish ∧ finish < 24)
    : (∀ hour, 0 ≤ hour ∧ hour < 24 → (Covers start finish hour ↔ Holds start finish hour))
      ↔ finish + 1 / 10 ^ 9 ≤ start := by
  constructor
  . intro halike
    rcases lt_or_ge |start - finish| (1 / 10 ^ 9) with hclose | hapart
    . obtain ⟨hour, hhour, hcovers, hholds⟩ := exists_covers_not_holds hstart hclose
      exact absurd ((halike hour hhour).mp hcovers) hholds
    . rcases le_abs.mp hapart with hafter | hbefore
      . linarith
      -- a night within the day goes on behind the end of the window
      . have hlt : start < finish := by linarith
        have hend := (halike finish hfinish).mp (covers_of_within_day hlt)
        rw [holds_of_within_day (by linarith)] at hend
        exact absurd hend.2 (lt_irrefl finish)
  . intro h hour _
    exact (holds_of_past_midnight h).symm

end

variable {plan : DayPlan Rat} {start finish hour : Number Rat}

theorem Nights.isNight_eq (h : plan.Nights start finish) (hour : Number Rat)
    : ∃ night, plan.isNight (.num hour) = .ok night
      ∧ (night = true ↔ Covers start.rat finish.rat hour.rat) := by
  unfold isNight isDay Covers
  rw [h.start_eq, h.finish_eq]
  by_cases hfinish : finish.rat ≤ hour.rat
  . refine ⟨!decide (hour.rat < start.rat), ?_, ?_⟩
    . simp [hfinish, bind, Except.bind, pure, Except.pure]
    . simp [not_lt.mpr hfinish]
  . refine ⟨true, ?_, ?_⟩
    . simp [hfinish, bind, Except.bind, pure, Except.pure]
    . simp [not_le.mp hfinish]

theorem Nights.inWindow_eq (h : plan.Nights start finish) (hhour : 0 ≤ hour.rat ∧ hour.rat < 24)
    : ∃ inside, Hour.inWindow (.num hour) (.num start) (.num finish) = .ok inside
      ∧ (inside = true ↔ Holds start.rat finish.rat hour.rat) := by
  refine ⟨_, Hour.inWindow_num hour start finish, ?_⟩
  rw [Hour.reduced_of_mem hhour.1 hhour.2, Hour.reduced_of_mem h.start_mem.1 h.start_mem.2,
    Hour.reduced_of_mem h.finish_mem.1 h.finish_mem.2]
  unfold Hour.within Holds
  simp only [Hour.meets_iff]
  split
  next => exact Hour.meets_iff _ _
  next => split <;> simp_all [Hour.le_eq_decide]

/-- Night is the window of its hours just where it runs past midnight, by the tolerance or more: then
all gates of the night and of its hours are open together. A night within the day covers the whole day,
and its window holds its own hours only. -/
theorem night_is_window_iff (h : plan.Nights start finish)
    : (∀ hour : Number Rat, 0 ≤ hour.rat ∧ hour.rat < 24 → ∃ night inside,
        plan.isNight (.num hour) = .ok night
        ∧ Hour.inWindow (.num hour) (.num start) (.num finish) = .ok inside
        ∧ (∀ c : Clock Rat, c.plan = plan → c.time = .num hour → ∀ scope env (gate : Gate Rat),
          (gate.Names "night" → gate.opens scope env c = .ok night)
          ∧ (gate.Spans start finish → gate.opens scope env c = .ok inside))
        ∧ (finish.rat + 1 / 10 ^ 9 ≤ start.rat → night = inside)
        ∧ (start.rat + 1 / 10 ^ 9 ≤ finish.rat →
          night = true ∧ (inside = true ↔ start.rat ≤ hour.rat ∧ hour.rat < finish.rat)))
      ∧ ((∀ hour : Number Rat, 0 ≤ hour.rat ∧ hour.rat < 24 →
          plan.isNight (.num hour) = Hour.inWindow (.num hour) (.num start) (.num finish))
        ↔ finish.rat + 1 / 10 ^ 9 ≤ start.rat) := by
  constructor
  . intro hour hhour
    obtain ⟨night, hnight, hcovers⟩ := h.isNight_eq hour
    obtain ⟨inside, hinside, hholds⟩ := h.inWindow_eq hhour
    refine ⟨night, inside, hnight, hinside, ?_, ?_, ?_⟩
    . rintro c rfl htime scope env gate
      exact ⟨Gate.opens_night (htime ▸ hnight), Gate.opens_hours htime hinside⟩
    . intro hpast
      rw [Bool.eq_iff_iff, hcovers, hholds, holds_of_past_midnight hpast]
    . intro hwithin
      rw [hcovers, hholds]
      exact ⟨covers_of_within_day (by linarith), holds_of_within_day hwithin⟩
  . rw [← forall_holds_iff h.start_mem h.finish_mem]
    have halike (hour : Number Rat) (hhour : 0 ≤ hour.rat ∧ hour.rat < 24) :
        plan.isNight (.num hour) = Hour.inWindow (.num hour) (.num start) (.num finish)
          ↔ (Covers start.rat finish.rat hour.rat ↔ Holds start.rat finish.rat hour.rat) := by
      obtain ⟨night, hnight, hcovers⟩ := h.isNight_eq hour
      obtain ⟨inside, hinside, hholds⟩ := h.inWindow_eq hhour
      rw [hnight, hinside, Except.ok.injEq, Bool.eq_iff_iff, hcovers, hholds]
    constructor
    . intro hall hour hhour
      exact (halike (.real hour) hhour).mp (hall (.real hour) hhour)
    . intro hall hour hhour
      exact (halike hour hhour).mpr (hall hour.rat hhour)

/-- At noon a night from one to five is still going on, and its window is long over. -/
theorem night_is_window_iff_short
    : let plan : DayPlan Rat := { nightStart := .int 1, nightEnd := .int 5 }
      let scope : Scope Rat := { clock := some (.ok { plan, time := .int 12 }) }
      plan.Nights (.int 1) (.int 5)
        ∧ Requirement.passes scope {} (.text "time:night") = .ok true
        ∧ Requirement.passes scope {} (.text "time:1:5") = .ok false
        ∧ ¬ ∀ hour : Number Rat, 0 ≤ hour.rat ∧ hour.rat < 24 →
          plan.isNight (.num hour) = Hour.inWindow (.num hour) (.int 1) (.int 5) := by
  intro plan scope
  have hplan : plan.Nights (.int 1) (.int 5) := ⟨rfl, rfl, by simp, by norm_num, by norm_num⟩
  obtain ⟨hhours, halike⟩ := night_is_window_iff hplan
  obtain ⟨night, inside, _, _, hgates, _, hwithin⟩ := hhours (.int 12) (by norm_num)
  obtain ⟨rfl, hinside⟩ := hwithin (by norm_num)
  obtain rfl : inside = false := by
    rw [← Bool.not_eq_true, hinside]
    norm_num
  have hopens := hgates { plan, time := .int 12 } rfl rfl scope {}
  have hnight : Requirement.read (.text "time:night" : Value Rat) = .ok (.leaf (.daypart .night)) :=
    (Requirement.read_of_fits (by decide +kernel)).trans
      (congrArg Except.ok (Requirement.ofChars_plain (by decide +kernel) (by decide +kernel)))
  have hspan : (Gate.requirement (.text "time:1:5")).Spans (.int 1) (.int 5) :=
    (Requirement.read_of_fits (by decide +kernel)).trans
      (congrArg Except.ok (Requirement.ofChars_plain (by decide +kernel) (by decide +kernel)))
  refine ⟨hplan, (hopens (.requirement (.text "time:night"))).1 ⟨.night, rfl, hnight⟩,
    (hopens (.requirement (.text "time:1:5"))).2 hspan, ?_⟩
  rw [halike]
  norm_num

end DayPlan

end Storyworld
