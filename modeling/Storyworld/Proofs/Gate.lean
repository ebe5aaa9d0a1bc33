import Storyworld.Proofs.Hour
import Storyworld.Proofs.Pointer

/-!
This module contains what the time does to the scene of a place: it depends on the hour alone, and a
scene that the time has put in place of another stays. The scene of a valid place is the one that a
request for it leads to.
-/

namespace Storyworld

namespace Hour

theorem normalize?_congr {n m : Number Rat} (h : n.rat = m.rat) (cycle : Value Rat)
    : normalize? (.num n) cycle = normalize? (.num m) cycle := by
  unfold normalize?
  rw [Value.finite?_num, Value.finite?_num, h]

theorem inWindow_congr {n m : Number Rat} (h : n.rat = m.rat)
    : inWindow (.num n) = inWindow (.num m) := by
  funext start finish
  unfold inWindow
  rw [normalize?_congr h]

end Hour

namespace Atlas

theorem openAt_congr {c d : Clock Rat} (hplan : c.plan = d.plan) {n m : Number Rat}
    (hc : c.time = .num n) (hd : d.time = .num m) (h : n.rat = m.rat) : openAt c = openAt d := by
  have hatMost (v : Value Rat) : v.atMost (.num n) = v.atMost (.num m) := by
    cases v with
    | num k => simp [h]
    | _ => simp [Value.atMost, Value.before]
  have hless (v : Value Rat) : (Value.num n).less v = (Value.num m).less v := by
    cases v with
    | num k => simp [h]
    | _ => simp [Value.less, Value.before]
  have hwindow : c.window = d.window := by
    unfold Clock.window Clock.isDay DayPlan.isDay
    rw [hplan, hc, hd, hatMost, hless]
  funext scene
  unfold openAt
  rw [hwindow, hc, hd, Hour.inWindow_congr h]

section

variable {ρ σ : Type}

/-- The scenes up to the first that is allowed have all been looked at. -/
theorem allows_of_firstAllowed {allows : Record ρ → Except Fault Bool} {p : Record ρ → Bool}
    {records : List (Record ρ)} {scene earlier : Record ρ}
    (h : firstAllowed allows records = .ok (some scene)) (hscene : p scene = true)
    (hearlier : records.find? p = some earlier) : ∃ allowed, allows earlier = .ok allowed := by
  induction records with
  | nil => cases hearlier
  | cons record records ih =>
    unfold firstAllowed at h
    obtain ⟨allowed, hallows, h⟩ := Fault.bind_eq_ok.mp h
    rw [List.find?_cons] at hearlier
    split at hearlier
    next =>
      obtain rfl := Option.some.inj hearlier
      exact ⟨allowed, hallows⟩
    next hne =>
      cases allowed with
      | true =>
        simp only [if_true, pure, Except.pure, Except.ok.injEq, Option.some.injEq] at h
        rw [h, hscene] at hne
        cases hne
      | false =>
        simp only [Bool.false_eq_true, if_false] at h
        exact ih h hearlier

variable [Scalar ρ] {atlas : Atlas ρ σ} {info : Record ρ}

theorem gate_congr {other : Atlas ρ σ} (h : atlas.allows = other.allows) (id : Value ρ)
    : atlas.gate info id = other.gate info id := by
  unfold gate
  rw [h]

/-- The time leaves the scene that it has put in place of another one, where that can be found. -/
theorem gate_gate {id v : Value ρ} (h : atlas.gate info id = .ok v)
    (hfound : search info v = .ok (find? info v)) : atlas.gate info v = .ok v := by
  cases hallows : atlas.allows with
  | none =>
    unfold gate
    rw [hallows]
    rfl
  | some allows =>
    by_cases hscenes : scenes info = []
    . unfold gate
      simp only [hallows, hscenes, List.isEmpty_nil, if_true]
      rfl
    . obtain ⟨_, ⟨_, rfl⟩ | ⟨_, hclosed⟩⟩ := gate_eq_ok hallows hscenes h
      . exact h
      . cases hclosed with
        | all => exact h
        | other scene hfirst hname =>
          -- a scene of this id that comes first was looked at and not allowed, or it is this one
          have hadmits : ∃ allowed,
              admits allows (find? info (.text (sceneId scene))) = .ok allowed := by
            cases hearlier : find? info (.text (sceneId scene)) with
            | none => exact ⟨true, rfl⟩
            | some earlier =>
              unfold find? at hearlier
              split at hearlier
              next => exact allows_of_firstAllowed hfirst (by simp) hearlier
              next => cases hearlier
          obtain ⟨allowed, hallowed⟩ := hadmits
          rw [gate_of_allows hallows hscenes, hfound]
          simp only [bind, Except.bind, hallowed]
          cases allowed with
          | true => rfl
          | false => simp only [Bool.false_eq_true, if_false, hfirst, hname, pure, Except.pure]

end

theorem sceneId_ne_empty {ρ : Type} [Scalar ρ] (hspell : ∀ x : ρ, Scalar.spell x ≠ "")
    {info scene : Record ρ} (h : scene ∈ scenes info) : sceneId scene ≠ "" := by
  unfold scenes at h
  rw [List.mem_filterMap] at h
  obtain ⟨v, _, hv⟩ := h
  exact Value.display_ne_empty hspell (Option.filter_eq_some_iff.mp hv).2

end Atlas

namespace Navigation

variable {ρ : Type} [Scalar ρ] {f : Value ρ → Except Fault (Value ρ)} {p : Pointer ρ}

theorem Valid.resolve_eq (hspell : ∀ x : ρ, Scalar.spell x ≠ "") (h : Valid f (· ≠ "") p)
    : Atlas.resolve (infoOf f p.location) p.scene = p.scene := by
  by_cases hscenes : Atlas.scenes (infoOf f p.location) = []
  . have hnone (v : Value ρ) : (Atlas.find? (infoOf f p.location) v).isSome = false := by
      simp [Atlas.find?, hscenes]
    unfold Atlas.resolve
    simp only [hnone, Bool.and_false, Bool.false_eq_true, if_false, hscenes]
    rcases h.literal hscenes with hnull | ⟨s, hs, hscene⟩
    . rw [hnull]
      rfl
    . rw [hscene, Value.display_text, if_pos]
      exact Value.isGiven_text.mpr hs
  . obtain ⟨scene, hmem, hscene⟩ := h.declared hscenes
    have hid := Atlas.sceneId_ne_empty hspell hmem
    have hfound : (Atlas.find? (infoOf f p.location) p.scene).isSome := by
      have hgiven : (Value.text (Atlas.sceneId scene) : Value ρ).isGiven = true :=
        Value.isGiven_text.mpr hid
      unfold Atlas.find?
      rw [hscene, if_pos hgiven, List.find?_isSome]
      exact ⟨scene, hmem, by simp⟩
    unfold Atlas.resolve
    rw [if_pos hfound, hscene, Value.display_text]

end Navigation

end Storyworld
