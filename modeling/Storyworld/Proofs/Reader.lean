import Storyworld.Json.Reader
import Storyworld.Proofs.Plain

/-!
This module contains what the reader of JSON texts gives: plain values, which are nested no deeper
than brackets may be open at a time.
-/

namespace Storyworld.Json

variable {ρ : Type} [Scalar ρ]

namespace Flaw

variable {α β : Type}

theorem bind_eq_ok {x : Except Flaw α} {f : α → Except Flaw β} {b : β}
    : x >>= f = .ok b ↔ ∃ a, x = .ok a ∧ f a = .ok b := by
  cases x with
  | error e => simp [bind, Except.bind]
  | ok a => simp [bind, Except.bind]

theorem enter_eq_ok {kind : String} {room inner : Nat} (h : enter kind room = .ok inner)
    : room = inner + 1 := by
  cases room with
  | zero => cases h
  | succ room =>
    cases h
    rfl

theorem orMalformed_eq_ok {found : Option α} {a : α}
    : orMalformed found = .ok a ↔ found = some a := by
  cases found with
  | none => simp [orMalformed]
  | some b => simp [orMalformed]

end Flaw

/-- A word stands for nothing or for a number. -/
theorem word_isPlain {cs : List Char} {v : Value ρ} {rest : List Char}
    (h : word cs = some (v, rest)) (room : Nat) : v.isPlain room = true := by
  have hspelt {w : String} {found : Option (Value ρ)}
      (h : (do let rest ← Text.behind? w.toList cs; some (← found, rest)) = some (v, rest)) :
      found = some v := by
    obtain ⟨_, _, h⟩ := Option.bind_eq_some_iff.mp h
    obtain ⟨w, hw, h⟩ := Option.bind_eq_some_iff.mp h
    cases h
    exact hw
  have hreal {found : Option ρ} (h : found.map Value.real = some v) : v.isPlain room = true := by
    obtain ⟨x, _, rfl⟩ := Option.map_eq_some_iff.mp h
    rfl
  unfold word at h
  simp only [Option.orElse_eq_orElse, Option.orElse_eq_or, Option.or_eq_some_iff] at h
  obtain h | ⟨-, h | ⟨-, h | ⟨-, h | ⟨-, h | ⟨-, h⟩⟩⟩⟩⟩ := h
  . cases hspelt h
    rfl
  . cases hspelt h
    rfl
  . cases hspelt h
    rfl
  . exact hreal (hspelt h)
  . exact hreal (hspelt h)
  . exact hreal (hspelt h)

theorem leaf_isPlain {cs : List Char} {v : Value ρ} {rest : List Char}
    (h : leaf cs = some (v, rest)) (room : Nat) : v.isPlain room = true := by
  unfold leaf at h
  simp only [Option.orElse_eq_orElse, Option.orElse_eq_or, Option.or_eq_some_iff] at h
  obtain h | ⟨-, h⟩ := h
  . exact word_isPlain h room
  . obtain ⟨_, _, heq⟩ := Option.map_eq_some_iff.mp h
    cases heq
    rfl

/-- The values that are read in so many steps are nested no deeper than there is room. -/
structure Roomy (ρ : Type) [Scalar ρ] (fuel : Nat) : Prop where
  value : ∀ room cs (v : Value ρ) rest, value fuel room cs = .ok (v, rest) → v.isPlain room = true
  items : ∀ room cs (xs : List (Value ρ)) rest, items fuel room cs = .ok (xs, rest) →
    ∀ x ∈ xs, x.isPlain room = true
  members : ∀ room cs (ms : List (String × Value ρ)) rest,
    members fuel room cs = .ok (ms, rest) → ∀ m ∈ ms, m.2.isPlain room = true

namespace Roomy

variable {fuel room : Nat} {cs rest : List Char}

theorem value_succ (hfuel : Roomy ρ fuel) {v : Value ρ}
    (h : Json.value (fuel + 1) room cs = .ok (v, rest)) : v.isPlain room = true := by
  unfold Json.value at h
  split at h
  next =>
    obtain ⟨_, _, hread⟩ := Flaw.bind_eq_ok.mp h
    cases hread
    rfl
  next =>
    obtain ⟨inner, henter, hread⟩ := Flaw.bind_eq_ok.mp h
    obtain rfl := Flaw.enter_eq_ok henter
    split at hread
    . cases hread
      rfl
    . obtain ⟨⟨xs, _⟩, hxs, hread⟩ := Flaw.bind_eq_ok.mp hread
      cases hread
      unfold Value.isPlain
      rw [Bool.and_eq_true, Value.allPlain_iff]
      exact ⟨rfl, hfuel.items _ _ _ _ hxs⟩
  next =>
    obtain ⟨inner, henter, hread⟩ := Flaw.bind_eq_ok.mp h
    obtain rfl := Flaw.enter_eq_ok henter
    split at hread
    . cases hread
      rfl
    . obtain ⟨⟨ms, _⟩, hms, hread⟩ := Flaw.bind_eq_ok.mp hread
      cases hread
      unfold Value.isPlain
      rw [Bool.and_eq_true, Value.membersPlain_iff]
      exact ⟨rfl, fun m hm => hfuel.members _ _ _ _ hms m (Table.mem_of_mem_ofList hm)⟩
  next => exact leaf_isPlain (Flaw.orMalformed_eq_ok.mp h) room

theorem items_succ (hfuel : Roomy ρ fuel) {xs : List (Value ρ)}
    (h : Json.items (fuel + 1) room cs = .ok (xs, rest)) : ∀ x ∈ xs, x.isPlain room = true := by
  unfold Json.items at h
  obtain ⟨⟨x, _⟩, hx, hread⟩ := Flaw.bind_eq_ok.mp h
  have hfirst := hfuel.value _ _ _ _ hx
  dsimp only at hread
  split at hread
  . obtain ⟨⟨xs, _⟩, hxs, hread⟩ := Flaw.bind_eq_ok.mp hread
    cases hread
    rw [List.forall_mem_cons]
    exact ⟨hfirst, hfuel.items _ _ _ _ hxs⟩
  . cases hread
    rw [List.forall_mem_singleton]
    exact hfirst
  . cases hread

theorem members_succ (hfuel : Roomy ρ fuel) {ms : List (String × Value ρ)}
    (h : Json.members (fuel + 1) room cs = .ok (ms, rest)) : ∀ m ∈ ms, m.2.isPlain room = true := by
  unfold Json.members at h
  split at h
  next =>
    obtain ⟨⟨name, _⟩, _, hread⟩ := Flaw.bind_eq_ok.mp h
    dsimp only at hread
    split at hread
    next =>
      obtain ⟨⟨v, _⟩, hv, hread⟩ := Flaw.bind_eq_ok.mp hread
      have hfirst := hfuel.value _ _ _ _ hv
      dsimp only at hread
      split at hread
      . obtain ⟨⟨ms, _⟩, hms, hread⟩ := Flaw.bind_eq_ok.mp hread
        cases hread
        rw [List.forall_mem_cons]
        exact ⟨hfirst, hfuel.members _ _ _ _ hms⟩
      . cases hread
        rw [List.forall_mem_singleton]
        exact hfirst
      . cases hread
    next => cases hread
  next => cases h

variable (ρ) in
theorem all (fuel : Nat) : Roomy ρ fuel := by
  induction fuel with
  | zero =>
    constructor
    all_goals
      intro _ _ _ _ h
      cases h
  | succ fuel ih => exact ⟨fun _ _ _ _ => ih.value_succ, fun _ _ _ _ => ih.items_succ,
      fun _ _ _ _ => ih.members_succ⟩

end Roomy

theorem read_isPlain {s : String} {v : Value ρ} (h : read s = .ok (some v))
    : v.isPlain depthLimit = true := by
  unfold read at h
  dsimp only at h
  split at h
  next v' rest hvalue =>
    split at h
    . cases h
      exact (Roomy.all ρ _).value _ _ _ _ hvalue
    . cases h
  next => cases h
  next => cases h

end Storyworld.Json
