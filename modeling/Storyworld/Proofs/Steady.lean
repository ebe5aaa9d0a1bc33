import Storyworld.Proofs.Clock
import Storyworld.Proofs.Playable

/-!
This module contains clocks that can always be read: whatever the time, its window and its face can
be told, and so can whether a scene may be played at that time.
-/

namespace Storyworld

/-- The whole numbers up to the hours of a day are scalars. -/
def Scalar.HoldsHours (ρ : Type) [Scalar ρ] : Prop :=
  ∀ i : Int, 0 ≤ i → i ≤ 24 → ∃ x : ρ, Scalar.ofInt? i = some x ∧ Scalar.extent x = .finite i

theorem Scalar.holdsHours_rat : Scalar.HoldsHours Rat := fun i _ _ => ⟨i, rfl, rfl⟩

variable {ρ σ : Type} [Scalar ρ]

theorem Scalar.HoldsHours.toReal (h : Scalar.HoldsHours ρ) {i : Int} (h0 : 0 ≤ i) (h24 : i ≤ 24)
    : ∃ x : ρ, (Number.int i).toReal = .ok x ∧ Scalar.extent x = .finite i := by
  obtain ⟨x, hx, hextent⟩ := h i h0 h24
  refine ⟨x, ?_, hextent⟩
  change ((Scalar.ofInt? i).map Except.ok).getD _ = _
  rw [hx]
  rfl

theorem Scalar.HoldsHours.fitsScalar (h : Scalar.HoldsHours ρ) {i : Int} (h0 : 0 ≤ i) (h24 : i ≤ 24)
    : (.int i : Value ρ).fitsScalar = true := by
  obtain ⟨x, hx, _⟩ := h.toReal h0 h24
  exact Value.fitsScalar_of_toReal hx

/-! ### Clocks -/

namespace Hour

/-- An hour that the face of a clock can show. -/
structure Told (v : Value ρ) : Prop where
  number : ∃ n, v = .num n
  fits : v.fitsScalar = true
  face : ∃ s, format v = .ok s

theorem told_num (n : Number Rat) : Told (.num n) where
  number := ⟨n, rfl⟩
  fits := Value.fitsScalar_of_toReal (Number.toReal_eq_rat n)
  face := by
    have hreal : (Value.num n).toReal = .ok n.rat := Number.toReal_eq_rat n
    unfold format minutes?
    rw [hreal, Number.toReal_eq_rat]
    exact ⟨_, rfl⟩

theorem gives_normalize? (h : Scalar.HoldsHours ρ) {hour : Value ρ} (hhour : hour.fitsScalar = true)
    : Fault.Gives (normalize? hour perDay) fun _ => True := by
  obtain ⟨x, hx⟩ := Value.finite?_of_fitsScalar hhour
  obtain ⟨day, hday, hextent⟩ := h.toReal (i := 24) (by decide) (by decide)
  have hne : (Number.real day).isZero = false := by
    change (Scalar.extent day).same (.finite 0) = false
    rw [hextent]
    decide
  unfold normalize?
  refine Fault.Gives.bind ⟨x, hx, trivial⟩ fun reading (_ : True) => ?_
  cases reading with
  | none => exact Fault.gives_pure trivial
  | some x =>
    refine Fault.Gives.bind (Q := (· = .int 24)) ⟨_, rfl, rfl⟩ fun cycle hcycle => ?_
    subst hcycle
    refine Fault.Gives.bind (Q := (· = day)) ⟨day, hday, rfl⟩ fun c hc => ?_
    subst hc
    rw [hne]
    exact Fault.gives_pure trivial

theorem gives_inWindow (h : Scalar.HoldsHours ρ) {now start finish : Value ρ}
    (hnow : now.fitsScalar = true) (hstart : start.fitsScalar = true)
    (hfinish : finish.fitsScalar = true)
    : Fault.Gives (inWindow now start finish) fun _ => True := by
  unfold inWindow
  refine (gives_normalize? h hnow).bind fun now _ => ?_
  refine (gives_normalize? h hstart).bind fun start _ => ?_
  refine (gives_normalize? h hfinish).bind fun finish _ => ?_
  split
  . exact Fault.gives_pure trivial
  . exact Fault.gives_pure trivial

end Hour

namespace Clock

/-- A clock that can always be read: night and day are cut by numbers, and every hour that the clock
comes to can be shown. -/
structure Steady (c : Clock ρ) : Prop where
  nightStart : ∃ n, c.plan.nightStart = .num n
  nightEnd : ∃ n, c.plan.nightEnd = .num n
  finish : Hour.Told c.finish
  time : Hour.Told c.time
  reading : ∀ hour x, Hour.normalize? hour c.plan.cycle = .ok (some x) →
    Hour.Told (.real x : Value ρ)

theorem Steady.subscribe {c : Clock ρ} (h : c.Steady) (name : String)
    : (c.subscribe name).Steady := by
  unfold Clock.subscribe
  split
  . exact h
  . exact { h with }

theorem steady_tick (hours : Value ρ) : Act.Keeps Steady (Clock.tick hours) := by
  unfold tick
  refine Act.keeps_bind Act.keeps_get fun c => ?_
  refine Act.keeps_bind (Act.keeps_lift _) fun hour => ?_
  intro c h
  rcases set_cases hour c with ⟨e, hrun⟩ | hrun | hrun | ⟨x, hx, hrun⟩
  . rw [hrun]
    exact h
  . rw [hrun]
    exact h
  . rw [hrun]
    exact { h with time := h.finish }
  . rw [hrun]
    exact { h with time := h.reading hour x hx }

theorem Steady.gives_window {c : Clock ρ} (h : c.Steady) : Fault.Gives c.window fun _ => True := by
  obtain ⟨nightStart, hstart⟩ := h.nightStart
  obtain ⟨nightEnd, hend⟩ := h.nightEnd
  obtain ⟨time, htime⟩ := h.time.number
  unfold window isDay DayPlan.isDay
  rw [hstart, hend, htime, Value.atMost_num, Value.less_num]
  refine Fault.Gives.bind (Q := fun _ => True) ?_ fun _ _ => Fault.gives_pure trivial
  refine Fault.Gives.bind (Q := fun _ => True) ⟨_, rfl, trivial⟩ fun _ _ => ?_
  split
  . exact ⟨_, rfl, trivial⟩
  . exact Fault.gives_pure trivial

theorem Steady.gives_openAt {c : Clock ρ} (h : c.Steady) (hρ : Scalar.HoldsHours ρ)
    {scene : Record ρ} (hplain : Record.Plain scene) (hscene : Record.Enterable scene)
    : Fault.Gives (Atlas.openAt c scene) fun _ => True := by
  unfold Atlas.openAt
  refine Fault.Gives.bind ⟨_, (hplain.field "window").key?, trivial⟩ fun key (_ : True) => ?_
  dsimp only
  split
  . exact Fault.gives_pure trivial
  split
  . exact h.gives_window.bind fun window _ => Fault.gives_pure trivial
  split
  . exact Fault.gives_pure trivial
  . exact Hour.gives_inWindow hρ h.time.fits hscene.start hscene.finish

/-- Over exact numbers a clock of numbers can always be read. -/
theorem steady_new (start finish nightStart nightEnd : Number Rat) (cycle : Value Rat)
    : (Clock.new (.num start) (.num finish)
      { cycle, nightStart := .num nightStart, nightEnd := .num nightEnd }).Steady where
  nightStart := ⟨nightStart, rfl⟩
  nightEnd := ⟨nightEnd, rfl⟩
  finish := Hour.told_num finish
  time := Hour.told_num start
  reading _ x _ := Hour.told_num (.real x)

end Clock

end Storyworld
