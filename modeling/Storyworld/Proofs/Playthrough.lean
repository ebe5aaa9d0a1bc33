import Storyworld.Content.Memory
import Storyworld.Playthrough
import Storyworld.Proofs.Decision
import Storyworld.Proofs.Mirror
import Storyworld.Scalar.Exact
import Storyworld.View.Script

/-!
This module contains what a playthrough leaves behind. Each turn that is started is saved once, also
one that stops on the way, and what is saved last is what a snapshot shows at the end. It is played on
until the first turn that ends it.
-/

namespace Storyworld

variable {ρ σ V : Type} [Scalar ρ]

/-- A saver that keeps a record of what it is handed, in order. -/
def Saver.recording (saver : Saver ρ σ) : Saver ρ (σ × List (Option (Snapshot ρ))) where
  save snapshot := do
    modify fun s => (s.1, s.2 ++ [snapshot])
    Act.onFirst (saver.save snapshot)

/-- A saver that never stops. -/
def Saver.Saves (saver : Saver ρ σ) : Prop :=
  ∀ snapshot s, ((saver.save snapshot).run s).1.isOk = true

/-- Sources with a record beside them, which they leave alone. -/
def Content.recorded (content : Content ρ σ) : Content ρ (σ × List (Option (Snapshot ρ))) :=
  content.within Prod.fst fun s p => (s, p.2)

namespace Playthrough

/-- A playthrough with a record beside the sources. -/
def recorded (p : Playthrough ρ σ V) (saves : List (Option (Snapshot ρ))) :
    Playthrough ρ (σ × List (Option (Snapshot ρ))) V :=
  ⟨p.session.withSources (p.session.sources, saves), p.view⟩

/-- The playthrough after so many turns, each with its save. -/
def after (content : Content ρ σ) (view : View ρ V) (saver : Saver ρ σ) :
    Nat → Playthrough ρ σ V → Playthrough ρ σ V
  | 0, p => p
  | n + 1, p => after content view saver n (Act.run (savedTurn content view (some saver)) p).2

/-- What comes of the turn after so many turns. -/
def result (content : Content ρ σ) (view : View ρ V) (saver : Saver ρ σ) (n : Nat)
    (p : Playthrough ρ σ V) : Except Fault (Value ρ) :=
  (Act.run (savedTurn content view (some saver)) (after content view saver n p)).1

/-- What is handed to the saver in so many turns. -/
def saves (content : Content ρ σ) (view : View ρ V) (saver : Saver ρ σ) (n : Nat)
    (p : Playthrough ρ σ V) : List (Option (Snapshot ρ)) :=
  (List.range n).map fun k => (after content view saver (k + 1) p).session.snapshot

/-- It is played on after a turn: something was picked that is not the exit, the day is not over, and
the turns that are played have not come to the limit. -/
def GoesOn (limit : Value ρ) (played : Nat) (result : Except Fault (Value ρ))
    (p : Playthrough ρ σ V) : Prop :=
  ∃ v, result = .ok v ∧ leaves v = false ∧ p.session.dayEnded = false
    ∧ reaches played limit = .ok false

/-- How a playthrough ends with a turn: its outcome, and where it is left. -/
inductive Closes (view : View ρ V) (limit : Value ρ) (played : Nat) (p : Playthrough ρ σ V) :
    Except Fault (Value ρ) → Except Fault (Value ρ) → Playthrough ρ σ V → Prop where
  | stopped (e : Fault) : Closes view limit played p (.error e) (.error e) p
  | left (v : Value ρ) (hleaves : leaves v = true) : Closes view limit played p (.ok v) (.ok v) p
  /-- The player is told that the day is over. -/
  | night (v : Value ρ) (hstays : leaves v = false) (hended : p.session.dayEnded = true) :
    Closes view limit played p (.ok v)
      ((Act.run (view.showMessage nightfall) p.view).1.map fun _ => v)
      { p with view := (Act.run (view.showMessage nightfall) p.view).2 }
  | limit (v : Value ρ) (hstays : leaves v = false) (hday : p.session.dayEnded = false)
    (hreached : reaches played limit = .ok true) : Closes view limit played p (.ok v) (.ok v) p
  /-- The limit is nothing that turns can be counted against. -/
  | unlimited (v : Value ρ) (e : Fault) (hstays : leaves v = false)
    (hday : p.session.dayEnded = false) (hreached : reaches played limit = .error e) :
    Closes view limit played p (.ok v) (.error e) p

section

variable {content : Content ρ σ} {view : View ρ V} {saver : Saver ρ σ} {limit : Value ρ}

theorem Closes.not_goesOn {played : Nat} {p last : Playthrough ρ σ V}
    {result outcome : Except Fault (Value ρ)} (h : Closes view limit played p result outcome last)
    : ¬ GoesOn limit played result p := by
  rintro ⟨v, hv, hstays, hday, hreached⟩
  cases h <;> simp_all

theorem Closes.session_eq {played : Nat} {p last : Playthrough ρ σ V}
    {result outcome : Except Fault (Value ρ)} (h : Closes view limit played p result outcome last)
    : last.session = p.session := by
  cases h <;> rfl

/-! ### Answers that are used up -/

theorem remaining_run_lt (hview : view.Finite) {S : Type} {stage : Stage ρ S} {scene : Scene ρ}
    {seat seat' : Turn.Seat ρ S V} {v : Value ρ}
    (h : (Turn.run stage view scene).run seat = (.ok v, seat')) (hgiven : v.isGiven = true)
    : view.remaining seat'.view < view.remaining seat.view := by
  obtain ⟨last, outcome, decided, hagain, hround, hrun⟩ := Turn.run_cases stage hview scene seat
  have hplayed := hrun stage.interpret
  rw [show { stage with interpret := stage.interpret } = stage from rfl, h] at hplayed
  cases outcome with
  | error e => cases hplayed
  | ok decision =>
    rw [Act.run_bind, Act.run_lift] at hplayed
    obtain ⟨play, hcarried, rfl⟩ := Turn.run_onPlay_eq_ok.mp hplayed.symm
    have hpicked : some decision ≠ some .nothing := by
      rintro ⟨⟩
      cases hcarried
      cases hgiven
    have hlt : view.remaining decided.view < view.remaining last.view :=
      Turn.remaining_lt hview hround hpicked
    exact Nat.lt_of_lt_of_le hlt (hagain.remaining_le hview)

/-- A turn in which something is picked uses up an answer. -/
theorem remaining_turn_lt (hview : view.Finite) {seat seat' : Turn.Seat ρ (Session ρ σ) V}
    {v : Value ρ} (h : (Session.turn content view).run seat = (.ok v, seat'))
    (hgiven : v.isGiven = true) : view.remaining seat'.view < view.remaining seat.view := by
  unfold Session.turn at h
  obtain ⟨found, looked, hlook, h⟩ := Act.run_bind_eq_ok.mp h
  obtain ⟨_, _, rfl⟩ := Turn.run_onPlay_eq_ok.mp hlook
  cases found with
  | none =>
    cases h
    cases hgiven
  | some scene =>
    obtain ⟨_, _, hitems, h⟩ := Act.run_bind_eq_ok.mp h
    obtain ⟨_, _, rfl⟩ := Turn.run_onPlay_eq_ok.mp hitems
    obtain ⟨_, _, hget, h⟩ := Act.run_bind_eq_ok.mp h
    cases hget
    obtain ⟨time, _, htime, h⟩ := Act.run_bind_eq_ok.mp h
    cases congrArg Prod.snd htime
    obtain ⟨_, _, hshown, h⟩ := Act.run_bind_eq_ok.mp h
    obtain ⟨shown, htold, rfl⟩ := Turn.run_onView_eq_ok.mp hshown
    obtain ⟨picked, _, hrun, h⟩ := Act.run_bind_eq_ok.mp h
    obtain ⟨_, _, happly, h⟩ := Act.run_bind_eq_ok.mp h
    obtain ⟨_, _, rfl⟩ := Turn.run_onPlay_eq_ok.mp happly
    cases h
    have hle : view.remaining shown ≤ view.remaining seat.view := by
      have htime := hview.time_le time seat.view
      rw [show (view.showTime time).run seat.view = _ from htold] at htime
      exact htime
    have hlt := remaining_run_lt hview hrun hgiven
    exact Nat.lt_of_lt_of_le hlt hle

/-! ### Turns with their saves -/

/-- A playthrough that has been saved as it is. -/
def stored (saver : Saver ρ σ) (p : Playthrough ρ σ V) : Playthrough ρ σ V :=
  { p with session := { p.session with
    sources := ((saver.save p.session.snapshot).run p.session.sources).2 } }

theorem run_turn (p : Playthrough ρ σ V)
    : (turn content view).run p
      = (((Session.turn content view).run ⟨p.session, .null, p.view⟩).1,
        ⟨((Session.turn content view).run ⟨p.session, .null, p.view⟩).2.play,
          ((Session.turn content view).run ⟨p.session, .null, p.view⟩).2.view⟩) := rfl

/-- A turn is saved whatever came of it. -/
theorem run_savedTurn (hsaver : saver.Saves) (p : Playthrough ρ σ V)
    : (savedTurn content view (some saver)).run p
      = (((turn content view).run p).1, ((turn content view).run p).2.stored saver) := by
  have hsave (q : Playthrough ρ σ V) : (save (some saver)).run q = (.ok (), q.stored saver) := by
    have hok := hsaver q.session.snapshot q.session.sources
    unfold save stored Session.onSources
    simp only [Act.run_bind, Act.run_get, Act.run_within]
    cases hrun : ((saver.save q.session.snapshot).run q.session.sources).1 with
    | error e =>
      rw [hrun] at hok
      cases hok
    | ok stays => rfl
  unfold savedTurn
  simp only [Act.run_bind, Act.run_attempt, hsave, Act.run_lift]

theorem remaining_savedTurn_lt (hview : view.Finite) (hsaver : saver.Saves)
    {p q : Playthrough ρ σ V} {v : Value ρ}
    (h : (savedTurn content view (some saver)).run p = (.ok v, q)) (hgiven : v.isGiven = true)
    : view.remaining q.view < view.remaining p.view := by
  rw [run_savedTurn hsaver, run_turn, Prod.mk.injEq] at h
  obtain ⟨hresult, rfl⟩ := h
  exact remaining_turn_lt hview (Prod.ext hresult rfl) hgiven

/-- What an observer of the sources sees does not change the turn. -/
theorem turn_recorded (p : Playthrough ρ σ V) (record : List (Option (Snapshot ρ)))
    : (turn content.recorded view).run (p.recorded record)
      = (((turn content view).run p).1, ((turn content view).run p).2.recorded record) := by
  have hone {α : Type} (act : Act σ α) :
      Act.Mirrors (fun s t => t = (s, record)) act
        (Act.within Prod.fst (fun s t => (s, t.2)) act) := by
    rintro s _ rfl
    exact ⟨rfl, rfl⟩
  have hmirrors : content.Mirrors (fun s t => t = (s, record)) content.recorded :=
    ⟨fun _ => hone _, fun _ _ => hone _, fun _ _ => hone _, fun _ => hone _, fun _ => hone _⟩
  have hsession : Session.Mirrored (fun s t => t = (s, record)) p.session (p.recorded record).session :=
    .intro rfl
  obtain ⟨hresult, hseat⟩ :=
    Session.mirrors_turn hmirrors view _ _ (.intro hsession .null p.view)
  rw [run_turn, run_turn]
  refine Prod.ext hresult.symm ?_
  revert hseat
  dsimp only [recorded]
  generalize ((Session.turn content view).run ⟨p.session, .null, p.view⟩).2 = seat
  generalize ((Session.turn content.recorded view).run _).2 = seat'
  rintro ⟨⟨rfl⟩, npc, v⟩
  rfl

theorem savedTurn_recorded (hsaver : saver.Saves) {p q : Playthrough ρ σ V}
    {result : Except Fault (Value ρ)}
    (h : (savedTurn content view (some saver)).run p = (result, q))
    (record : List (Option (Snapshot ρ)))
    : (savedTurn content.recorded view (some saver.recording)).run (p.recorded record)
      = (result, q.recorded (record ++ [q.session.snapshot])) := by
  have hrecording : saver.recording.Saves := fun snapshot s => hsaver snapshot s.1
  rw [run_savedTurn hsaver, Prod.mk.injEq] at h
  obtain ⟨rfl, rfl⟩ := h
  rw [run_savedTurn hrecording, turn_recorded]
  rfl

/-! ### Whether it is played on -/

theorem Closes.recorded {played : Nat} {p last : Playthrough ρ σ V}
    {result outcome : Except Fault (Value ρ)} (h : Closes view limit played p result outcome last)
    (record : List (Option (Snapshot ρ)))
    : Closes view limit played (p.recorded record) result outcome (last.recorded record) := by
  cases h with
  | stopped e => exact .stopped e
  | left v hleaves => exact .left v hleaves
  | night v hstays hended => exact .night v hstays hended
  | limit v hstays hday hreached => exact .limit v hstays hday hreached
  | unlimited v e hstays hday hreached => exact .unlimited v e hstays hday hreached

theorem goesOn_or_closes (view : View ρ V) (limit : Value ρ) (played : Nat)
    (result : Except Fault (Value ρ)) (p : Playthrough ρ σ V)
    : GoesOn limit played result p ∨ ∃ outcome last, Closes view limit played p result outcome last := by
  cases result with
  | error e => exact .inr ⟨_, _, .stopped e⟩
  | ok v =>
    cases hleaves : leaves v with
    | true => exact .inr ⟨_, _, .left v hleaves⟩
    | false =>
      cases hended : p.session.dayEnded with
      | true => exact .inr ⟨_, _, .night v hleaves hended⟩
      | false =>
        rcases hreached : reaches played limit with e | _ | _
        . exact .inr ⟨_, _, .unlimited v e hleaves hended hreached⟩
        . exact .inl ⟨v, rfl, hleaves, hended, hreached⟩
        . exact .inr ⟨_, _, .limit v hleaves hended hreached⟩

variable {saver? : Option (Saver ρ σ)} {fuel played : Nat} {p q : Playthrough ρ σ V}
  {result : Except Fault (Value ρ)}

theorem rounds_of_goesOn (h : (savedTurn content view saver?).run p = (result, q))
    (hgoesOn : GoesOn limit (played + 1) result q)
    : (rounds content view saver? limit (fuel + 1) played).run p
      = (rounds content view saver? limit fuel (played + 1)).run q := by
  obtain ⟨v, rfl, hstays, hday, hreached⟩ := hgoesOn
  rw [rounds, Act.run_bind, h]
  simp [hstays, hday, hreached]

theorem rounds_of_closes (h : (savedTurn content view saver?).run p = (result, q))
    {outcome : Except Fault (Value ρ)} {last : Playthrough ρ σ V}
    (hcloses : Closes view limit (played + 1) q result outcome last)
    : (rounds content view saver? limit (fuel + 1) played).run p = (outcome, last) := by
  rw [rounds, Act.run_bind, h]
  cases hcloses with
  | stopped e => rfl
  | left v hleaves => simp [hleaves]
  | night v hstays hended =>
    simp only [hstays, hended, Act.run_bind, Act.run_get, Act.run_within, Act.run_pure, if_true,
      Bool.false_eq_true, if_false]
    cases ((view.showMessage nightfall).run q.view).1 <;> rfl
  | limit v hstays hday hreached => simp [hstays, hday, hreached]
  | unlimited v e hstays hday hreached => simp [hstays, hday, hreached]

/-! ### Whole playthroughs -/

theorem result_zero (h : (savedTurn content view (some saver)).run p = (result, q))
    : Playthrough.result content view saver 0 p = result := congrArg Prod.fst h

theorem after_succ (h : (savedTurn content view (some saver)).run p = (result, q)) (n : Nat)
    : after content view saver (n + 1) p = after content view saver n q := by
  rw [after, h]

theorem result_succ (h : (savedTurn content view (some saver)).run p = (result, q)) (n : Nat)
    : Playthrough.result content view saver (n + 1) p = Playthrough.result content view saver n q := by
  unfold Playthrough.result
  rw [after_succ h]

theorem saves_succ (h : (savedTurn content view (some saver)).run p = (result, q)) (n : Nat)
    : saves content view saver (n + 1) p = q.session.snapshot :: saves content view saver n q := by
  unfold saves
  rw [List.range_succ_eq_map, List.map_cons, List.map_map]
  congr 1
  . rw [after_succ h]
    rfl
  . apply List.map_congr_left
    intro k _
    rw [Function.comp_apply, after_succ h]

/-- The turns are played up to the first that ends the playthrough, and each is saved once. -/
theorem rounds_cases (hview : view.Finite) (hsaver : saver.Saves) (content : Content ρ σ)
    (limit : Value ρ) (played : Nat) (hfuel : view.remaining p.view < fuel)
    (record : List (Option (Snapshot ρ)))
    : ∃ n outcome last,
      (∀ k < n, GoesOn limit (played + k + 1) (Playthrough.result content view saver k p)
        (after content view saver (k + 1) p))
      ∧ Closes view limit (played + n + 1) (after content view saver (n + 1) p)
        (Playthrough.result content view saver n p) outcome last
      ∧ (rounds content view (some saver) limit fuel played).run p = (outcome, last)
      ∧ (rounds content.recorded view (some saver.recording) limit fuel played).run
          (p.recorded record)
        = (outcome, last.recorded (record ++ saves content view saver (n + 1) p)) := by
  induction fuel generalizing played p record with
  | zero => omega
  | succ fuel ih =>
    rcases hturn : (savedTurn content view (some saver)).run p with ⟨result, q⟩
    have hrecorded := savedTurn_recorded hsaver hturn record
    rcases goesOn_or_closes view limit (played + 1) result q with hgoesOn | ⟨outcome, last, hcloses⟩
    . have hlt : view.remaining q.view < view.remaining p.view := by
        obtain ⟨v, rfl, hstays, _⟩ := hgoesOn
        apply remaining_savedTurn_lt hview hsaver hturn
        unfold leaves at hstays
        rw [Bool.or_eq_false_iff, Bool.not_eq_false'] at hstays
        exact hstays.1
      obtain ⟨n, outcome, last, hall, hcloses, hplain, hrecord⟩ :=
        ih (played + 1) (p := q) (by omega) (record ++ [q.session.snapshot])
      refine ⟨n + 1, outcome, last, ?_, ?_, ?_, ?_⟩
      . rintro (_ | k) hk
        . rw [result_zero hturn, after_succ hturn]
          exact hgoesOn
        . rw [result_succ hturn, after_succ hturn, show played + (k + 1) = played + 1 + k by omega]
          exact hall k (by omega)
      . rw [result_succ hturn, after_succ hturn, show played + (n + 1) = played + 1 + n by omega]
        exact hcloses
      . rw [rounds_of_goesOn hturn hgoesOn]
        exact hplain
      . rw [rounds_of_goesOn hrecorded hgoesOn, hrecord, saves_succ hturn, List.append_assoc,
          List.singleton_append]
    . refine ⟨0, outcome, last, by simp, ?_, rounds_of_closes hturn hcloses, ?_⟩
      . rw [result_zero hturn, after_succ hturn]
        exact hcloses
      . rw [saves_succ hturn]
        exact rounds_of_closes hrecorded (hcloses.recorded _)

/-- A playthrough with a saver that never stops plays on up to the first turn that stops, in which
nothing or the exit is picked, with which the day is over, or with which the turns come to the limit.
An observer sees one save for each of the turns, and the last one is what a snapshot shows at the
end. -/
theorem run_saves_each_turn (hview : view.Finite) (hsaver : saver.Saves) (content : Content ρ σ)
    (limit : Value ρ) (p : Playthrough ρ σ V)
    : ∃ n outcome last,
      (∀ k < n, GoesOn limit (k + 1) (Playthrough.result content view saver k p)
        (after content view saver (k + 1) p))
      ∧ ¬ GoesOn limit (n + 1) (Playthrough.result content view saver n p)
        (after content view saver (n + 1) p)
      ∧ Closes view limit (n + 1) (after content view saver (n + 1) p)
        (Playthrough.result content view saver n p) outcome last
      ∧ (run content view (some saver) limit).run p = (outcome, last)
      ∧ (run content.recorded view (some saver.recording) limit).run (p.recorded [])
        = (outcome, last.recorded (saves content view saver (n + 1) p))
      ∧ (saves content view saver (n + 1) p).getLast? = some last.session.snapshot := by
  obtain ⟨n, outcome, last, hall, hcloses, hplain, hrecord⟩ :=
    rounds_cases hview hsaver content limit 0 (Nat.lt_succ_self (view.remaining p.view)) []
  rw [Nat.zero_add] at hcloses
  refine ⟨n, outcome, last, ?_, hcloses.not_goesOn, hcloses, hplain, hrecord, ?_⟩
  . intro k hk
    have hgoesOn := hall k hk
    rw [Nat.zero_add] at hgoesOn
    exact hgoesOn
  . rw [hcloses.session_eq]
    simp [saves, List.range_succ]

end

theorem run_saves_each_turn_inn
    : let inn : Memory Rat := {
        locations := [("inn", [
          ("scenes", .list [.object [("id", .text "hall"), ("optionIds", .list [.text "rest"])]])])]
        options := [("inn", [("rest", [("id", .text "rest"), ("result", .text "You rest."),
          ("effect", .text "time:2")])])] }
      let view : View Rat (Script Rat) :=
        { Script.view with showResult := fun _ => throw .interrupted }
      let saver : Saver Rat Unit := ⟨fun _ => return true⟩
      let p : Playthrough Rat Unit (Script Rat) := {
        session := {
          clock := Clock.new (.int 9) (.int 5) {}
          goods := default
          navigation := { pointer := some ⟨.text "inn", .text "hall"⟩ }
          sources := () }
        view := { picks := [.text "rest"] } }
      ∃ n outcome last, (run inn.content view (some saver) .null).run p = (outcome, last)
        ∧ outcome.isOk = false
        ∧ (run inn.content.recorded view (some saver.recording) .null).run (p.recorded [])
          = (outcome, last.recorded (saves inn.content view saver (n + 1) p))
        ∧ (saves inn.content view saver (n + 1) p).getLast? = some last.session.snapshot := by
  intro inn view saver p
  have hview : view.Finite := { Script.view_finite with result_le := fun _ _ => Nat.le_refl _ }
  have hsaver : saver.Saves := fun _ _ => rfl
  have hstops : ((run inn.content view (some saver) .null).run p).1.isOk = false := by decide +kernel
  obtain ⟨n, outcome, last, _, _, _, hplain, hrecord, hlast⟩ :=
    run_saves_each_turn hview hsaver inn.content .null p
  rw [hplain] at hstops
  exact ⟨n, outcome, last, hplain, hstops, hrecord, hlast⟩

end Playthrough

end Storyworld
