import Mathlib.Data.List.Chain
import Storyworld.Proofs.Pointer

/-!
This module contains the law of the history: every call leaves what was noted before and notes at
most the place that it has moved the pointer to, which is never the place that was noted last.
-/

namespace Storyworld.Navigation

variable {ρ σ : Type} [Scalar ρ]

/-- How a call ends. -/
def Call.outcome (atlas : Atlas ρ σ) (n : Navigation ρ × σ) : Call ρ → Except Fault Unit
  | .moveTo location scene => ((Navigation.moveTo atlas location scene).run n).1.map fun _ => ()
  | .apply outcome => ((Navigation.apply atlas outcome).run n).1.map fun _ => ()
  | .current => ((Navigation.current atlas).run n).1.map fun _ => ()

/-- The player is here, and this has been noted. -/
def Stands (here : Option (Pointer ρ)) (noted : List (Pointer ρ)) (n : Navigation ρ) : Prop :=
  n.pointer = here ∧ n.history = noted

structure Spelled (p : Pointer ρ) : Prop where
  location : ∃ l, p.location = .text l
  scene : p.scene = .null ∨ ∃ s, p.scene = .text s

/-- A computation leaves the player in place and the history as it is. -/
def Keeps {α : Type} (here : Option (Pointer ρ)) (noted : List (Pointer ρ))
    (act : Act (Navigation ρ × σ) α) : Prop :=
  Act.Keeps (fun n => Stands here noted n.1) act

variable {atlas : Atlas ρ σ} {here : Option (Pointer ρ)} {noted : List (Pointer ρ)}

theorem surveys_stands : Surveys atlas fun n => Stands here noted n.1 where
  info _ := Act.keeps_onSecond
  ensure _ _ _ := Act.keeps_onFirst (Act.keeps_frame fun _ _ h => h)

theorem spelled_of_seek {location scene : Value ρ} {n n' : Navigation ρ × σ} {p : Pointer ρ}
    (h : (seek atlas location scene).run n = (.ok p, n')) : Spelled p := by
  rw [seek_eq] at h
  obtain ⟨l, _, _, h⟩ := Act.run_bind_eq_ok.mp h
  obtain ⟨info, _, _, h⟩ := Act.run_bind_eq_ok.mp h
  obtain ⟨⟨q, found⟩, _, hlocate, h⟩ := Act.run_bind_eq_ok.mp h
  obtain ⟨_, _, _, h⟩ := Act.run_bind_eq_ok.mp h
  obtain rfl : q = p := Except.ok.inj (congrArg Prod.fst h)
  obtain ⟨hlocation, _, _, v, _, hgate⟩ := locate_eq_ok (congrArg Prod.fst hlocate)
  exact ⟨⟨l, hlocation⟩, Atlas.text_of_gate hgate⟩

/-! ### Moves -/

/-- A computation leaves the player in place, or it ends well and the player has come to a place. -/
def Moves {α : Type} (here : Option (Pointer ρ)) (noted : List (Pointer ρ))
    (act : Act (Navigation ρ × σ) α) : Prop :=
  ∀ n, Stands here noted n.1 → Stands here noted (act.run n).2.1
    ∨ ((∃ a, (act.run n).1 = .ok a)
      ∧ ∃ p, Spelled p ∧ Stands (some p) (extend noted p) (act.run n).2.1)

section

variable {α β : Type}

theorem moves_of_keeps {act : Act (Navigation ρ × σ) α} (h : Keeps here noted act)
    : Moves here noted act := fun n hn => .inl (h n hn)

theorem moves_bind {act : Act (Navigation ρ × σ) α} {f : α → Act (Navigation ρ × σ) β}
    (ha : Keeps here noted act) (hf : ∀ a, Moves here noted (f a))
    : Moves here noted (act >>= f) := by
  intro n hn
  have hact := ha n hn
  rw [Act.run_bind]
  rcases hrun : act.run n with ⟨e | a, n'⟩
  . rw [hrun] at hact
    exact .inl hact
  . rw [hrun] at hact
    exact hf a n' hact

end

theorem run_moveTo {location : Value ρ} (hgiven : location.isGiven = true) (scene : Value ρ)
    (n : Navigation ρ × σ)
    : (moveTo atlas location scene).run n =
      match (seek atlas location scene).run n with
      | (.ok p, n') => (.ok (some p), arrive p n'.1, n'.2)
      | (.error e, n') => (.error e, n') := by
  unfold moveTo
  rw [if_pos hgiven, Act.run_bind]
  rcases (seek atlas location scene).run n with ⟨_ | _, _⟩
  . rfl
  . rfl

/-- A move to a given location stops where the player stands, or comes to a place. -/
theorem moveTo_stands (atlas : Atlas ρ σ) {location : Value ρ} (hgiven : location.isGiven = true)
    (scene : Value ρ) {n : Navigation ρ × σ} (hn : Stands here noted n.1)
    : (∃ e, ((moveTo atlas location scene).run n).1 = .error e)
        ∧ Stands here noted ((moveTo atlas location scene).run n).2.1
      ∨ ∃ p, ((moveTo atlas location scene).run n).1 = .ok (some p) ∧ Spelled p
        ∧ Stands (some p) (extend noted p) ((moveTo atlas location scene).run n).2.1 := by
  have hseek : Stands here noted ((seek atlas location scene).run n).2.1 :=
    surveys_stands.seek location scene n hn
  rw [run_moveTo hgiven]
  rcases hrun : (seek atlas location scene).run n with ⟨e | p, n'⟩
  . rw [hrun] at hseek
    exact .inl ⟨⟨e, rfl⟩, hseek⟩
  . rw [hrun] at hseek
    obtain ⟨_, rfl⟩ := hseek
    exact .inr ⟨p, rfl, spelled_of_seek hrun, rfl, rfl⟩

theorem moves_moveTo (location scene : Value ρ)
    : Moves here noted (moveTo atlas location scene) := by
  by_cases hgiven : location.isGiven
  . intro n hn
    rcases moveTo_stands atlas hgiven scene hn with ⟨_, hstands⟩ | ⟨p, hok, hp, hstands⟩
    . exact .inl hstands
    . exact .inr ⟨⟨_, hok⟩, p, hp, hstands⟩
  . unfold moveTo
    rw [if_neg hgiven]
    apply moves_of_keeps
    refine Act.keeps_bind Act.keeps_get fun n => ?_
    apply Act.keeps_pure

theorem moves_apply (outcome : Value ρ) : Moves here noted (apply atlas outcome) := by
  unfold apply
  refine moves_bind Act.keeps_get fun n => ?_
  generalize n.1.pointer = pointer
  dsimp only
  generalize destination _ outcome = target
  obtain ⟨location, scene⟩ := target
  dsimp only
  split
  . apply moves_of_keeps
    apply Act.keeps_pure
  refine moves_bind (Act.keeps_lift _) fun name => ?_
  split
  . refine moves_bind (Act.keeps_lift _) fun id => ?_
    apply moves_moveTo
  cases pointer with
  | none => apply moves_moveTo
  | some p =>
    dsimp only
    split
    . apply moves_of_keeps
      apply Act.keeps_pure
    refine moves_bind Act.keeps_onSecond fun scenes => ?_
    split
    . refine moves_bind (surveys_stands.isLocalScene p name) fun isLocal => ?_
      split
      . apply moves_moveTo
      . apply moves_moveTo
    . apply moves_moveTo

/-! ### Looks -/

/-- The time has led from a place to another one, and the scene there cannot be read. -/
structure Unreadable (atlas : Atlas ρ σ) (n : Navigation ρ × σ) (e : Fault) (p q : Pointer ρ) :
    Prop where
  pointer : n.1.pointer = some p
  location : q.location = p.location
  scene : q.scene ≠ p.scene
  info : ∃ info, ((approach atlas p.location).run n).1 = .ok info
    ∧ atlas.gate info p.scene = .ok q.scene ∧ Atlas.read info q = .error e

theorem current_history (atlas : Atlas ρ σ) (n : Navigation ρ × σ)
    : ((current atlas).run n).2.1.history = n.1.history
      ∧ ∀ e, ((current atlas).run n).1 = .error e →
        ((current atlas).run n).2.1.pointer = n.1.pointer
          ∨ ∃ p q, Unreadable atlas n e p q ∧ ((current atlas).run n).2.1.pointer = some q := by
  obtain ⟨n, src⟩ := n
  cases hpointer : n.pointer with
  | none =>
    rw [run_current_none hpointer]
    exact ⟨rfl, fun _ _ => .inl hpointer⟩
  | some p =>
    have hstands : Stands n.pointer n.history ((approach atlas p.location).run (n, src)).2.1 :=
      surveys_stands.approach p.location (n, src) ⟨rfl, rfl⟩
    rcases happroach : (approach atlas p.location).run (n, src) with ⟨e | info, ⟨h, o, r⟩, src'⟩
    . rw [happroach] at hstands
      obtain ⟨rfl, rfl⟩ := hstands
      have hrun : (current atlas).run (n, src) = (.error e, ⟨n.pointer, n.history, r⟩, src') := by
        unfold current
        simp only [Act.run_bind, Act.run_get, hpointer, happroach]
      rw [hrun]
      exact ⟨rfl, fun _ _ => .inl hpointer⟩
    . rw [happroach] at hstands
      obtain ⟨rfl, rfl⟩ := hstands
      rw [run_current hpointer happroach]
      cases hgate : atlas.gate info p.scene with
      | error e => exact ⟨rfl, fun _ _ => .inl hpointer⟩
      | ok v =>
        refine ⟨rfl, fun e he => ?_⟩
        dsimp only at he ⊢
        by_cases hscene : v = p.scene
        . left
          rw [hscene]
        . right
          refine ⟨p, ⟨p.location, v⟩, ⟨hpointer, rfl, hscene, info, ?_, hgate, ?_⟩, rfl⟩
          . rw [happroach]
          . exact Fault.map_eq_error.mp he

/-! ### The law -/

theorem extend_cases {p : Pointer ρ} (hp : Spelled p) (history : List (Pointer ρ))
    : (history.getLast? = some p ∧ extend history p = history)
      ∨ (history.getLast? ≠ some p ∧ extend history p = history ++ [p]) := by
  unfold extend
  cases hlast : history.getLast? with
  | none =>
    right
    rw [List.getLast?_eq_none_iff.mp hlast]
    simp
  | some last =>
    have hsame := same_iff_eq (p := last) hp.location hp.scene
    dsimp only
    by_cases h : last.same p = true
    . left
      rw [if_pos h, hsame.mp h]
      exact ⟨rfl, rfl⟩
    . right
      rw [if_neg h, Ne, Option.some.injEq, ← hsame]
      exact ⟨h, rfl⟩

theorem isChain_extend {p : Pointer ρ} (hp : Spelled p) {history : List (Pointer ρ)}
    (h : history.IsChain (· ≠ ·)) : (extend history p).IsChain (· ≠ ·) := by
  rcases extend_cases hp history with ⟨_, heq⟩ | ⟨hlast, heq⟩
  . rw [heq]
    exact h
  . rw [heq]
    apply h.append (.singleton p)
    intro last hmem q hq
    obtain rfl : p = q := Option.some.inj hq
    rintro rfl
    exact hlast hmem

theorem after_cases (atlas : Atlas ρ σ) (call : Call ρ) (n : Navigation ρ × σ)
    : (call.after atlas n).1.history = n.1.history
      ∨ ∃ p, Spelled p ∧ Stands (some p) (extend n.1.history p) (call.after atlas n).1 := by
  have hmoves {α : Type} {act : Act (Navigation ρ × σ) α}
      (h : Moves n.1.pointer n.1.history act) : (act.run n).2.1.history = n.1.history
        ∨ ∃ p, Spelled p ∧ Stands (some p) (extend n.1.history p) (act.run n).2.1 := by
    rcases h n ⟨rfl, rfl⟩ with ⟨_, hhistory⟩ | ⟨_, hcame⟩
    . exact .inl hhistory
    . exact .inr hcame
  cases call with
  | moveTo location scene => exact hmoves (moves_moveTo location scene)
  | apply outcome => exact hmoves (moves_apply outcome)
  | current => exact .inl (current_history atlas n).1

theorem pointer_of_stopped {call : Call ρ} {n : Navigation ρ × σ} {e : Fault}
    (h : call.outcome atlas n = .error e)
    : (call.after atlas n).1.history = n.1.history
      ∧ ((call.after atlas n).1.pointer = n.1.pointer
        ∨ call = .current ∧ ∃ p q, Unreadable atlas n e p q
          ∧ (call.after atlas n).1.pointer = some q) := by
  have hmoves {α : Type} {act : Act (Navigation ρ × σ) α}
      (hact : Moves n.1.pointer n.1.history act) (herror : (act.run n).1 = .error e) :
      Stands n.1.pointer n.1.history (act.run n).2.1 := by
    rcases hact n ⟨rfl, rfl⟩ with hstands | ⟨⟨a, hok⟩, _⟩
    . exact hstands
    . rw [hok] at herror
      cases herror
  cases call with
  | moveTo location scene =>
    obtain ⟨hpointer, hhistory⟩ := hmoves (moves_moveTo location scene) (Fault.map_eq_error.mp h)
    exact ⟨hhistory, .inl hpointer⟩
  | apply outcome =>
    obtain ⟨hpointer, hhistory⟩ := hmoves (moves_apply outcome) (Fault.map_eq_error.mp h)
    exact ⟨hhistory, .inl hpointer⟩
  | current =>
    obtain ⟨hhistory, hpointer⟩ := current_history atlas n
    exact ⟨hhistory, (hpointer e (Fault.map_eq_error.mp h)).imp_right fun hq => ⟨rfl, hq⟩⟩

theorem getLast?_extend {p : Pointer ρ} (hp : Spelled p) (history : List (Pointer ρ))
    : (extend history p).getLast? = some p := by
  rcases extend_cases hp history with ⟨hlast, heq⟩ | ⟨_, heq⟩
  . rw [heq, hlast]
  . rw [heq, List.getLast?_concat]

theorem isChain_after (call : Call ρ) {n : Navigation ρ × σ} (h : n.1.history.IsChain (· ≠ ·))
    : (call.after atlas n).1.history.IsChain (· ≠ ·) := by
  rcases after_cases atlas call n with heq | ⟨p, hp, _, heq⟩
  . rw [heq]
    exact h
  . rw [heq]
    exact isChain_extend hp h

theorem isChain_afterAll (source : Value ρ → Act σ (Value ρ))
    (calls : List (Option (Record ρ → Except Fault Bool) × Call ρ)) {n : Navigation ρ × σ}
    (h : n.1.history.IsChain (· ≠ ·)) : (afterAll source n calls).1.history.IsChain (· ≠ ·) := by
  induction calls generalizing n with
  | nil => exact h
  | cons c calls ih => exact ih (isChain_after c.2 h)

/-- What was noted stays, and a call notes at most the place that it has moved the pointer to. Looks
note nothing, no place is noted twice in a row, and after a move the last place is the pointer. A
call that stops leaves all as it was, but for a look that cannot read the scene it has come to. -/
theorem history_law (source : Value ρ → Act σ (Value ρ)) (here : Option (Pointer ρ))
    (registry : Registry ρ) (src : σ)
    (calls : List (Option (Record ρ → Except Fault Bool) × Call ρ))
    (allows : Option (Record ρ → Except Fault Bool)) (call : Call ρ)
    : let atlas : Atlas ρ σ := ⟨source, allows⟩
      let n := afterAll source ({ pointer := here, registry }, src) calls
      let n' := call.after atlas n
      n.1.history.IsChain (· ≠ ·)
      ∧ (n'.1.history = n.1.history
        ∨ ∃ p, n'.1.pointer = some p ∧ n'.1.history = n.1.history ++ [p])
      ∧ (call = .current → n'.1.history = n.1.history)
      ∧ (∀ location scene, call = .moveTo location scene → location.isGiven →
        call.outcome atlas n = .ok () → ∃ p, n'.1.pointer = some p ∧ n'.1.history.getLast? = some p)
      ∧ ∀ e, call.outcome atlas n = .error e → n'.1.history = n.1.history
        ∧ (n'.1.pointer = n.1.pointer
          ∨ call = .current ∧ ∃ p q, Unreadable atlas n e p q ∧ n'.1.pointer = some q) := by
  intro atlas n n'
  refine ⟨isChain_afterAll source calls .nil, ?_, ?_, ?_, ?_⟩
  . rcases after_cases atlas call n with heq | ⟨p, hp, hpointer, heq⟩
    . exact .inl heq
    . rcases extend_cases hp n.1.history with ⟨_, hstays⟩ | ⟨_, hgrows⟩
      . exact .inl (heq.trans hstays)
      . exact .inr ⟨p, hpointer, heq.trans hgrows⟩
  . rintro rfl
    exact (current_history atlas n).1
  . rintro location scene rfl hgiven hok
    rcases moveTo_stands atlas hgiven scene (n := n) ⟨rfl, rfl⟩ with
      ⟨⟨e, herror⟩, _⟩ | ⟨p, _, hp, hpointer, hhistory⟩
    . unfold Call.outcome at hok
      dsimp only at hok
      rw [herror] at hok
      cases hok
    . refine ⟨p, hpointer, ?_⟩
      exact (congrArg List.getLast? hhistory).trans (getLast?_extend hp n.1.history)
  . intro e he
    exact pointer_of_stopped he

end Storyworld.Navigation
