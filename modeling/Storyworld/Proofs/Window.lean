import Mathlib.Algebra.Group.ModEq
import Storyworld.Proofs.Hour

/-!
This module contains windows of exact hours. On the circle of a day a window is a half-open interval:
it holds the hours that are less far behind its start than its end is.
-/

namespace Storyworld.Hour

/-! ### Offsets on the circle of a day -/

section

variable {a b cycle : Rat}

theorem reduced_eq_iff (hc : 0 < cycle)
    : reduced a cycle = reduced b cycle ↔ a ≡ b [PMOD cycle] := by
  rw [AddCommGroup.modEq_iff_zsmul']
  have ha := eq_reduced_add a cycle
  have hb := eq_reduced_add b cycle
  constructor
  . intro heq
    refine ⟨(b / cycle).floor - (a / cycle).floor, ?_⟩
    rw [zsmul_eq_mul]
    push_cast
    linarith
  . rintro ⟨k, hk⟩
    rw [zsmul_eq_mul] at hk
    apply reduced_eq_of (k := (b / cycle).floor - k) (reduced_nonneg hc) (reduced_lt hc)
    push_cast
    linarith

/-- How far one hour is behind another, by where they are in the cycle. -/
theorem reduced_sub (hc : 0 < cycle)
    : reduced (a - b) cycle = if reduced b cycle ≤ reduced a cycle
        then reduced a cycle - reduced b cycle else reduced a cycle - reduced b cycle + cycle := by
  have ha := eq_reduced_add a cycle
  have hb := eq_reduced_add b cycle
  have ha0 : 0 ≤ reduced a cycle := reduced_nonneg hc
  have hac : reduced a cycle < cycle := reduced_lt hc
  have hb0 : 0 ≤ reduced b cycle := reduced_nonneg hc
  have hbc : reduced b cycle < cycle := reduced_lt hc
  split
  next hle =>
    apply reduced_eq_of (k := (a / cycle).floor - (b / cycle).floor)
    . linarith
    . linarith
    . push_cast
      linarith
  next hlt =>
    rw [not_le] at hlt
    -- the second hour comes later in its cycle, so it belongs to an earlier one
    apply reduced_eq_of (k := (a / cycle).floor - (b / cycle).floor - 1)
    . linarith
    . linarith
    . push_cast
      linarith

end

/-! ### Windows -/

/-- Hours that are the same hour of the day, or as far apart as the tolerance or farther. -/
def Apart (a b : Rat) : Prop :=
  reduced a 24 = reduced b 24 ∨ 1 / 10 ^ 9 ≤ |reduced a 24 - reduced b 24|

theorem meets_iff (a b : Rat) : meets a b = true ↔ |a - b| < 1 / 10 ^ 9 := by
  have htolerance : (tolerance : Rat) = 1 / 10 ^ 9 := by
    change mkRat 1 (Nat.pow 10 9) = 1 / 10 ^ 9
    norm_num [Rat.mkRat_eq_div]
  have hgap : Scalar.gap a b = |a - b| := by
    change (if decide (a - b < 0) = true then 0 - (a - b) else a - b) = |a - b|
    simp only [decide_eq_true_eq, zero_sub]
    split
    next hneg => exact (abs_of_neg hneg).symm
    next hpos => exact (abs_of_nonneg (not_lt.mp hpos)).symm
  unfold meets
  rw [hgap, htolerance, Rat.scalar_lt, decide_eq_true_eq]

theorem meets_self (a : Rat) : meets a a = true := by
  rw [meets_iff, sub_self, abs_zero]
  norm_num

theorem ne_of_not_meets {a b : Rat} (h : ¬ meets a b = true) : a ≠ b := by
  rintro rfl
  exact h (meets_self a)

theorem meets_comm (a b : Rat) : meets a b = meets b a := by
  rw [Bool.eq_iff_iff, meets_iff, meets_iff, abs_sub_comm]

theorem Apart.meets_iff {a b : Rat} (h : Apart a b)
    : meets (reduced a 24) (reduced b 24) = true ↔ a ≡ b [PMOD 24] := by
  rw [Hour.meets_iff, ← reduced_eq_iff (by norm_num)]
  constructor
  . intro hlt
    exact h.resolve_right (not_le.mpr hlt)
  . intro heq
    rw [← Hour.meets_iff, heq]
    exact meets_self _

theorem inWindow_num (now start finish : Number Rat)
    : inWindow (.num now) (.num start) (.num finish)
      = .ok (within (reduced now.rat 24) (reduced start.rat 24) (reduced finish.rat 24)) := by
  have hday : (Number.int 24 : Number Rat).rat = 24 := by norm_num
  have hreduced (n : Number Rat) : normalize? (.num n) perDay = .ok (some (reduced n.rat 24)) := by
    rw [← hday]
    exact normalize?_num n (.int 24) (by norm_num)
  unfold inWindow
  rw [hreduced, hreduced, hreduced]
  rfl

theorem le_eq_decide (p q : Rat) : Scalar.le p q = decide (p ≤ q) := Number.le_eq_rat (.real p) (.real q)

/-- A window whose ends differ holds the hours that are less far behind its start than its end is. -/
theorem within_iff_of_not_meets {now start finish : Rat}
    (h : ¬ meets (reduced start 24) (reduced finish 24) = true)
    : within (reduced now 24) (reduced start 24) (reduced finish 24) = true
      ↔ reduced (now - start) 24 < reduced (finish - start) 24 := by
  have hday : (0 : Rat) < 24 := by norm_num
  have hnow0 : 0 ≤ reduced now 24 := reduced_nonneg hday
  have hnow : reduced now 24 < 24 := reduced_lt hday
  have hfinish0 : 0 ≤ reduced finish 24 := reduced_nonneg hday
  have hfinish : reduced finish 24 < 24 := reduced_lt hday
  rw [reduced_sub hday, reduced_sub hday]
  unfold within
  rw [if_neg h]
  simp only [le_eq_decide, Rat.scalar_lt, decide_eq_true_eq]
  generalize reduced now 24 = n at *
  generalize reduced start 24 = s at *
  generalize reduced finish 24 = f at *
  -- the window runs past midnight where its end comes earlier in the day than its start
  rcases lt_or_gt_of_ne (ne_of_not_meets h) with hlt | hgt
  . simp only [hlt, hlt.le, if_true, Bool.and_eq_true, decide_eq_true_eq]
    split
    next hsn =>
      simp only [hsn, true_and]
      constructor <;> intro <;> linarith
    next hns =>
      simp only [hns, false_and, false_iff, not_lt]
      linarith
  . simp only [not_lt.mpr hgt.le, not_le.mpr hgt, if_false, Bool.or_eq_true, decide_eq_true_eq]
    split
    next hsn =>
      simp only [hsn, true_or, true_iff]
      linarith
    next hns =>
      simp only [hns, false_or]
      constructor <;> intro <;> linarith

/-- Of the two windows between two ends, every hour lies in one and not in the other. -/
theorem within_swap {now start finish : Rat} (h : ¬ meets start finish = true)
    : within now finish start = !within now start finish := by
  unfold within
  rw [if_neg h, if_neg (by rwa [meets_comm])]
  simp only [le_eq_decide, Rat.scalar_lt, decide_eq_true_eq]
  rcases lt_or_gt_of_ne (ne_of_not_meets h) with hlt | hgt
  . simp only [hlt, not_lt.mpr hlt.le, if_true, if_false, Bool.not_and, ← decide_not, not_le, not_lt]
    exact Bool.or_comm _ _
  . simp only [hgt, not_lt.mpr hgt.le, if_true, if_false, Bool.not_or, ← decide_not, not_le, not_lt]
    exact Bool.and_comm _ _

theorem apart_int (i j : Int) : Apart i j := by
  have hreduced (i : Int) : reduced i 24 = ((i % 24 : Int) : Rat) := by
    have hpos : (0 : Int) ≤ i % 24 := Int.emod_nonneg i (by decide)
    have hlt : i % 24 < 24 := Int.emod_lt_of_pos i (by decide)
    apply reduced_eq_of (k := i / 24)
    . exact_mod_cast hpos
    . exact_mod_cast hlt
    . have := Int.emod_add_mul_ediv i 24
      rw [mul_comm] at this
      exact_mod_cast this.symm
  unfold Apart
  rw [hreduced, hreduced]
  by_cases heq : i % 24 = j % 24
  . left
    rw [heq]
  . -- whole numbers that differ are one or more apart
    right
    have hone : (1 : Int) ≤ |i % 24 - j % 24| := Int.one_le_abs (sub_ne_zero.mpr heq)
    have hcast : (1 : Rat) ≤ |((i % 24 : Int) : Rat) - ((j % 24 : Int) : Rat)| := by
      exact_mod_cast hone
    exact le_trans (by norm_num) hcast

/-- What a window holds: its start alone, where that is its end too, and else the hours that are less far
behind its start than its end is. -/
def Holds (now start finish : Rat) : Prop :=
  (start ≡ finish [PMOD 24] ∧ now ≡ start [PMOD 24])
    ∨ (¬ start ≡ finish [PMOD 24] ∧ reduced (now - start) 24 < reduced (finish - start) 24)

theorem within_iff_holds {now start finish : Rat} (hends : Apart start finish)
    (hstart : Apart now start)
    : within (reduced now 24) (reduced start 24) (reduced finish 24) = true
      ↔ Holds now start finish := by
  unfold Holds
  rw [← hends.meets_iff, ← hstart.meets_iff]
  by_cases hmeets : meets (reduced start 24) (reduced finish 24) = true
  . unfold within
    simp [hmeets]
  . rw [within_iff_of_not_meets hmeets]
    simp [hmeets]

theorem holds_add (now start finish shift : Rat)
    : Holds (now + shift) (start + shift) (finish + shift) ↔ Holds now start finish := by
  have hshift := AddCommGroup.modEq_refl (p := (24 : Rat)) shift
  unfold Holds
  rw [hshift.add_iff_right, hshift.add_iff_right, add_sub_add_right_eq_sub,
    add_sub_add_right_eq_sub]

/-- Windows are half-open intervals on the circle of a day, as far as no two of the hours are closer
than the tolerance without being the same. So the two windows between hours that differ split the day,
and whole hours can all be shifted by the same number of hours. -/
theorem inWindow_cyclic
    : (∀ now start finish : Number Rat, Apart start.rat finish.rat → Apart now.rat start.rat →
        ∃ inside, inWindow (.num now) (.num start) (.num finish) = .ok inside
          ∧ (inside = true ↔ Holds now.rat start.rat finish.rat))
      ∧ (∀ now start finish : Number Rat, Apart start.rat finish.rat →
        ¬ start.rat ≡ finish.rat [PMOD 24] →
        ∃ inside, inWindow (.num now) (.num start) (.num finish) = .ok inside
          ∧ inWindow (.num now) (.num finish) (.num start) = .ok !inside)
      ∧ ∀ now start finish shift : Int,
        inWindow (.int (now + shift) : Value Rat) (.int (start + shift)) (.int (finish + shift))
          = inWindow (.int now : Value Rat) (.int start) (.int finish) := by
  refine ⟨?_, ?_, ?_⟩
  . intro now start finish hends hstart
    exact ⟨_, inWindow_num now start finish, within_iff_holds hends hstart⟩
  . intro now start finish hends hne
    have hmeets : ¬ meets (reduced start.rat 24) (reduced finish.rat 24) = true := by
      rwa [hends.meets_iff]
    refine ⟨_, inWindow_num now start finish, ?_⟩
    rw [inWindow_num, within_swap hmeets]
  . intro now start finish shift
    rw [inWindow_num, inWindow_num, Except.ok.injEq, Bool.eq_iff_iff]
    simp only [Number.rat_int]
    rw [within_iff_holds (apart_int _ _) (apart_int _ _),
      within_iff_holds (apart_int _ _) (apart_int _ _)]
    push_cast
    exact holds_add ..

theorem inWindow_cyclic_evening
    : let now : Number Rat := .real (-1 / 2)
      let start : Number Rat := .real (43 / 2)
      let finish : Number Rat := .int 29
      Apart start.rat finish.rat ∧ Apart now.rat start.rat ∧ ¬ start.rat ≡ finish.rat [PMOD 24]
        ∧ inWindow (.num now) (.num start) (.num finish) = .ok true
        ∧ inWindow (.num now) (.num finish) (.num start) = .ok false := by
  intro now start finish
  have hnow : reduced now.rat 24 = 47 / 2 := by decide +kernel
  have hstart : reduced start.rat 24 = 43 / 2 := by decide +kernel
  have hfinish : reduced finish.rat 24 = 5 := by decide +kernel
  have hends : Apart start.rat finish.rat := by
    right
    rw [hstart, hfinish]
    norm_num [abs_of_pos]
  have hbehind : Apart now.rat start.rat := by
    right
    rw [hnow, hstart]
    norm_num [abs_of_pos]
  have hne : ¬ start.rat ≡ finish.rat [PMOD 24] := by
    rw [← reduced_eq_iff (by norm_num), hstart, hfinish]
    norm_num
  obtain ⟨hcyclic, hsplit, _⟩ := inWindow_cyclic
  obtain ⟨inside, hinside, hholds⟩ := hcyclic now start finish hends hbehind
  obtain ⟨_, hfirst, hsecond⟩ := hsplit now start finish hends hne
  have htrue : inside = true := hholds.mpr (.inr ⟨hne, by decide +kernel⟩)
  rw [hinside] at hfirst
  cases hfirst
  rw [htrue] at hinside hsecond
  exact ⟨hends, hbehind, hne, hinside, hsecond⟩

end Storyworld.Hour
