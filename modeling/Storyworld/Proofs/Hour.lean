import Mathlib.Tactic.FieldSimp
import Storyworld.Clock.Hour
import Storyworld.Proofs.Exact

/-!
This module contains the reduction of exact hours to a cycle: the reduced hour is the only one of
the cycle that lies a whole number of cycles away.
-/

namespace Storyworld.Hour

def reduced (hour cycle : Rat) : Rat := hour - cycle * (hour / cycle).floor

section

variable {hour cycle : Rat}

theorem eq_reduced_add (hour cycle : Rat)
    : hour = reduced hour cycle + (hour / cycle).floor * cycle := by
  unfold reduced
  ring

theorem reduced_nonneg (hc : 0 < cycle) : 0 ≤ reduced hour cycle := by
  have hfloor : ((hour / cycle).floor : Rat) ≤ hour / cycle := Rat.floor_le _
  rw [le_div_iff₀ hc] at hfloor
  unfold reduced
  linarith

theorem reduced_lt (hc : 0 < cycle) : reduced hour cycle < cycle := by
  have hfloor : hour / cycle < ((hour / cycle).floor : Rat) + 1 := Int.lt_floor_add_one _
  rw [div_lt_iff₀ hc] at hfloor
  unfold reduced
  linarith

theorem reduced_eq_of {r : Rat} {k : Int} (hr : 0 ≤ r) (hrc : r < cycle) (h : hour = r + k * cycle)
    : reduced hour cycle = r := by
  have hc : 0 < cycle := lt_of_le_of_lt hr hrc
  have hfloor : (hour / cycle).floor = k := by
    have hdiv : hour / cycle = r / cycle + k := by
      rw [h]
      field_simp
    have hnonneg : 0 ≤ r / cycle := div_nonneg hr hc.le
    have hlt : r / cycle < 1 := (div_lt_one hc).mpr hrc
    change ⌊hour / cycle⌋ = k
    rw [Int.floor_eq_iff, hdiv]
    constructor
    . linarith
    . linarith
  unfold reduced
  rw [hfloor, h]
  ring

theorem reduced_of_mem (h0 : 0 ≤ hour) (hc : hour < cycle) : reduced hour cycle = hour := by
  apply reduced_eq_of (k := 0) h0 hc
  simp

theorem reduced_add_cycle (hc : 0 < cycle) : reduced (hour + cycle) cycle = reduced hour cycle := by
  apply reduced_eq_of (k := (hour / cycle).floor + 1) (reduced_nonneg hc) (reduced_lt hc)
  have := eq_reduced_add hour cycle
  push_cast
  linarith

theorem reduced_reduced (hc : 0 < cycle)
    : reduced (reduced hour cycle) cycle = reduced hour cycle :=
  reduced_of_mem (reduced_nonneg hc) (reduced_lt hc)

theorem normalize?_of_finite {v : Value Rat} {q : Rat} (hv : v.finite? = .ok (some q))
    {c : Number Rat} (hc : 0 < c.rat) : normalize? v (.num c) = .ok (some (reduced q c.rat)) := by
  have hmod (x y : Rat) : Scalar.mod x y = reduced x y := rfl
  have hadd (x y : Rat) : Scalar.add x y = x + y := rfl
  have hne : (Number.real c.rat).isZero = false := by
    simpa [Number.isZero] using hc.ne'
  have hle : Scalar.le c.rat (reduced q c.rat) = false := by
    change (Number.real c.rat).le (.real (reduced q c.rat)) = false
    rw [Number.le_eq_rat, decide_eq_false_iff_not, not_le]
    exact reduced_lt hc
  unfold normalize?
  simp [hv, Value.operand, hmod, hadd, reduced_add_cycle hc, reduced_reduced hc, hne, hle, bind,
    Except.bind, pure, Except.pure]

theorem normalize?_num (n c : Number Rat) (hc : 0 < c.rat)
    : normalize? (.num n) (.num c) = .ok (some (reduced n.rat c.rat)) :=
  normalize?_of_finite (Value.finite?_num n) hc

theorem mem_of_normalize? {v : Value Rat} {c : Number Rat} (hc : 0 < c.rat) {x : Rat}
    (h : normalize? v (.num c) = .ok (some x)) : 0 ≤ x ∧ x < c.rat := by
  cases hv : v.finite? with
  | error e =>
    unfold normalize? at h
    rw [hv] at h
    cases h
  | ok reading =>
    cases reading with
    | none =>
      unfold normalize? at h
      rw [hv] at h
      cases h
    | some q =>
      rw [normalize?_of_finite hv hc, Except.ok.injEq, Option.some.injEq] at h
      rw [← h]
      exact ⟨reduced_nonneg hc, reduced_lt hc⟩

end

end Storyworld.Hour
