import Mathlib.Data.Rat.Floor
import Mathlib.Tactic.Linarith
import Mathlib.Tactic.Ring
import Storyworld.Scalar.Exact
import Storyworld.Value.Order
import Storyworld.Value.Reading

/-!
This module contains the numbers of the content over the rationals: every number is a rational, and
arithmetic and comparisons are those of the rationals.
-/

namespace Storyworld

namespace Number

def rat : Number Rat → Rat
  | .flag b => if b then 1 else 0
  | .int i => i
  | .real x => x

-- Not by `rfl`: as a definitional step `simp` would also use these under `decide`, where the
-- instance would keep the old form.
@[simp] theorem rat_int (i : Int) : (Number.int i).rat = i := by rw [rat]

@[simp] theorem rat_real (x : Rat) : (Number.real x).rat = x := by rw [rat]

@[simp]
theorem extent_eq_rat (n : Number Rat) : n.extent = .finite n.rat := by
  cases n with
  | flag b => cases b <;> rfl
  | int i => rfl
  | real x => rfl

@[simp]
theorem toReal_eq_rat (n : Number Rat) : n.toReal = .ok n.rat := by
  cases n with
  | flag b => cases b <;> rfl
  | int i => rfl
  | real x => rfl

@[simp]
theorem lt_eq_rat (a b : Number Rat) : a.lt b = decide (a.rat < b.rat) := by
  unfold lt
  rw [extent_eq_rat, extent_eq_rat]
  rfl

@[simp]
theorem same_eq_rat (a b : Number Rat) : a.same b = decide (a.rat = b.rat) := by
  unfold same
  rw [extent_eq_rat, extent_eq_rat]
  rfl

@[simp]
theorem le_eq_rat (a b : Number Rat) : a.le b = decide (a.rat ≤ b.rat) := by
  unfold le Extent.le
  rw [← lt, ← same, lt_eq_rat, same_eq_rat, ← Bool.decide_or]
  simp only [le_iff_lt_or_eq]

theorem combine_eq_ok {whole : Int → Int → Int} {real : Rat → Rat → Rat}
    (h : ∀ i j : Int, ((whole i j : Int) : Rat) = real i j) (a b : Number Rat)
    : ∃ n, combine whole real a b = .ok n ∧ n.rat = real a.rat b.rat ∧ ∀ t, n ≠ .flag t := by
  unfold combine
  split
  . next i j ha hb =>
    have hai : a.rat = i := by cases a <;> simp [whole?] at ha <;> subst ha <;> simp [rat]
    have hbj : b.rat = j := by cases b <;> simp [whole?] at hb <;> subst hb <;> simp [rat]
    refine ⟨.int (whole i j), rfl, ?_, by simp⟩
    rw [rat_int, h, hai, hbj]
  . refine ⟨.real (real a.rat b.rat), ?_, rfl, by simp⟩
    rw [toReal_eq_rat, toReal_eq_rat]
    rfl

theorem add_eq_ok (a b : Number Rat)
    : ∃ n, a.add b = .ok n ∧ n.rat = a.rat + b.rat ∧ ∀ t, n ≠ .flag t := by
  apply combine_eq_ok
  intro i j
  exact Rat.intCast_add i j

theorem sub_eq_ok (a b : Number Rat)
    : ∃ n, a.sub b = .ok n ∧ n.rat = a.rat - b.rat ∧ ∀ t, n ≠ .flag t := by
  apply combine_eq_ok
  intro i j
  exact Rat.intCast_sub i j

theorem rat_min (a b : Number Rat) : (a.min b).rat = Min.min a.rat b.rat := by
  unfold Number.min
  rw [lt_eq_rat]
  by_cases h : b.rat < a.rat
  . simp [h, h.le]
  . simp [h, not_lt.mp h]

theorem truncate_eq_ok {n : Number Rat} {k : Nat} (h : n.rat = k) : n.truncate = .ok (k : Int) := by
  unfold truncate
  rw [extent_eq_rat, h]
  simp [Rat.truncate]

end Number

namespace Value

@[simp]
theorem toReal_num (n : Number Rat) : (Value.num n).toReal = .ok n.rat := by
  simp [toReal]

@[simp]
theorem real?_num (n : Number Rat) : (Value.num n).real? = .ok (some n.rat) := by
  simp [real?, unlessUnreadable]

@[simp]
theorem finite?_num (n : Number Rat) : (Value.num n).finite? = .ok (some n.rat) := by
  unfold finite?
  rw [real?_num]
  rfl

/-- A value is a number or is none; there are no numbers that are too large. -/
theorem toReal_cases (v : Value Rat)
    : (∃ x, v.toReal = .ok x) ∨ v.toReal = .error .wrongKind ∨ v.toReal = .error .unreadable := by
  cases v with
  | num n => simp
  | text s =>
    simp only [toReal]
    split <;> simp
  | _ => simp [toReal]

theorem exists_real? (v : Value Rat) : ∃ x?, v.real? = .ok x? := by
  unfold real?
  rcases v.toReal_cases with ⟨x, hx⟩ | hx | hx
  . exact ⟨some x, by rw [hx]; rfl⟩
  . exact ⟨none, by rw [hx]; rfl⟩
  . exact ⟨none, by rw [hx]; rfl⟩

/-- Every value counts as some number of things. -/
theorem exists_count (v : Value Rat) (default : Nat) : ∃ n, v.count default = .ok n := by
  unfold count toWhole
  rcases v.toReal_cases with ⟨x, hx⟩ | hx | hx
  . rw [hx]
    exact ⟨_, rfl⟩
  . rw [hx]
    exact ⟨_, rfl⟩
  . rw [hx]
    exact ⟨_, rfl⟩

end Value

end Storyworld
