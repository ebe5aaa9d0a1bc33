import Storyworld.Proofs.Course
import Storyworld.Proofs.Playthrough

/-!
This module contains the end of the day. The clock is over, and the session has been told so; the two
flags are set together, by the one notice, and are put back one behind the other when a snapshot is
restored. They come apart just where only one of the two comes to pass.
-/

namespace Storyworld

variable {ρ σ : Type} [Scalar ρ]

/-! ### The clock -/

namespace Clock

/-- A clock takes over an hour that can be reduced to its day; nothing else moves it. -/
def Takes (hour : Value ρ) (c : Clock ρ) : Prop :=
  ∃ h, Hour.normalize? hour c.plan.cycle = .ok (some h)

theorem not_takes_null (c : Clock ρ) : ¬ Takes .null c := by
  rintro ⟨h, hreading⟩
  cases hreading

theorem resume_of_takes {hour : Value ρ} {c : Clock ρ} (h : Takes hour c)
    : ((resume hour).run c).2.ended = false := by
  obtain ⟨x, hx⟩ := id h
  have hgiven : (!hour.isNull) = true := by
    cases hour with
    | null => exact absurd h (not_takes_null c)
    | _ => rfl
  unfold resume restore
  rw [if_pos hgiven]
  simp only [Act.run_bind, Act.run_get, Act.run_lift, hx, Act.run_modify]

theorem resume_of_not_takes {hour : Value ρ} {c : Clock ρ} (h : ¬ Takes hour c)
    : ((resume hour).run c).2 = c := by
  unfold resume restore
  split
  . simp only [Act.run_bind, Act.run_get, Act.run_lift]
    cases hreading : Hour.normalize? hour c.plan.cycle with
    | error e => rfl
    | ok found =>
      cases found with
      | none => rfl
      | some x => exact absurd ⟨x, hreading⟩ h
  . rfl

theorem listeners_resume (hour : Value ρ) (c : Clock ρ)
    : ((resume hour).run c).2.listeners = c.listeners := by
  have hrestore : Act.Keeps (fun d : Clock ρ => d.listeners = c.listeners) (restore hour) := by
    unfold restore
    refine Act.keeps_bind Act.keeps_get fun d => ?_
    refine Act.keeps_bind (Act.keeps_lift _) fun found => ?_
    cases found with
    | none => apply Act.keeps_pure
    | some x => exact Act.keeps_modify fun _ h => h
  have hresume : Act.Keeps (fun d : Clock ρ => d.listeners = c.listeners) (resume hour) := by
    unfold resume
    exact Act.keeps_ite hrestore (Act.keeps_pure _)
  exact hresume c rfl

/-- Whoever listens is told when the day comes to be over, and by nothing else. -/
theorem tick_tells (hours : Value ρ) {c : Clock ρ} (h : c.listeners ≠ [])
    : (∃ e, (tick hours).run c = (.error e, c))
      ∨ ∃ told d, (tick hours).run c = (.ok told, d) ∧ d.listeners = c.listeners
        ∧ d.ended = (told.any (·.2.ended) || c.ended) := by
  have hnotices (change : ClockChange ρ) :
      (c.notices change).any (·.2.ended) = change.ended := by
    obtain ⟨name, names, hnames⟩ := List.exists_cons_of_ne_nil h
    unfold notices
    rw [hnames]
    cases hended : change.ended <;> simp [hended]
  unfold tick
  rw [Act.run_bind, Act.run_get]
  dsimp only
  rw [Act.run_bind, Act.run_lift]
  cases c.time.plus hours with
  | error e => exact .inl ⟨e, rfl⟩
  | ok hour =>
    rcases set_cases hour c with ⟨e, hrun⟩ | hrun | hrun | ⟨x, _, hrun⟩
    . exact .inl ⟨e, hrun⟩
    . exact .inr ⟨_, _, hrun, rfl, rfl⟩
    . exact .inr ⟨_, _, hrun, rfl, by rw [hnotices]; rfl⟩
    . exact .inr ⟨_, _, hrun, rfl, by rw [hnotices]; rfl⟩

end Clock

namespace Session

variable {content : Content ρ σ} {snapshot : Snapshot ρ}

/-- The session knows whether the clock is over, and will be told when it comes to be. -/
structure Attends (s : Session ρ σ) : Prop where
  listens : s.clock.listeners ≠ []
  dayEnded_eq : s.dayEnded = s.clock.ended

theorem keeps_pass_attends (hours : Value ρ) : Act.Keeps Attends (pass (σ := σ) hours) := by
  intro s hs
  unfold pass
  rw [Act.run_bind, run_onClock]
  rcases Clock.tick_tells hours hs.listens with ⟨e, hrun⟩ | ⟨told, d, hrun, hlisteners, hended⟩
  . rw [hrun]
    exact { hs with }
  . rw [hrun]
    dsimp only
    have hlistens : d.listeners ≠ [] := hlisteners ▸ hs.listens
    split
    next htold =>
      rw [htold, Bool.true_or] at hended
      exact ⟨hlistens, hended.symm⟩
    next htold =>
      rw [Bool.eq_false_iff.mpr htold, Bool.false_or] at hended
      exact ⟨hlistens, hs.dayEnded_eq.trans hended.symm⟩

theorem lasting_attends : Lasting content Attends where
  sources _ _ hs := { hs with }
  journal _ _ hs := { hs with }
  note _ _ hs := { hs with }
  look _ hs := { hs with }
  apply _ _ hs := { hs with }
  pass _ := keeps_pass_attends _
  trade _ _ _ := keeps_onGoods _ fun _ _ _ hs => { hs with }
  adjust _ _ := keeps_onGoods _ fun _ _ _ hs => { hs with }
  declare _ _ := keeps_onGoods _ fun _ _ _ hs => { hs with }

theorem lasting_dayEnded : Lasting content fun s => s.dayEnded = true where
  sources _ _ hs := hs
  journal _ _ hs := hs
  note _ _ hs := hs
  look _ hs := hs
  apply _ _ hs := hs
  pass hours := by
    unfold pass
    refine Act.keeps_bind (Act.keeps_frame fun _ _ hs => hs) fun told => ?_
    apply Act.keeps_ite
    . exact Act.keeps_modify fun _ _ => rfl
    . apply Act.keeps_pure
  trade _ _ _ := keeps_onGoods _ fun _ _ _ hs => hs
  adjust _ _ := keeps_onGoods _ fun _ _ _ hs => hs
  declare _ _ := keeps_onGoods _ fun _ _ _ hs => hs

/-! ### Restores -/

/-- A computation puts the flag of the day back where it ends well, and leaves it where it stops. -/
def Reopens (act : Act (Session ρ σ) Unit) : Prop :=
  ∀ s, ((act.run s).1.isOk = true → (act.run s).2.dayEnded = false)
    ∧ ((act.run s).1.isOk = false → (act.run s).2.dayEnded = s.dayEnded)

omit [Scalar ρ] in
theorem Reopens.bind {α : Type} {act : Act (Session ρ σ) α} {f : α → Act (Session ρ σ) Unit}
    (hact : ∀ d, Act.Keeps (fun s => s.dayEnded = d) act) (hf : ∀ a, Reopens (f a))
    : Reopens (act >>= f) := by
  intro s
  have hkept := hact s.dayEnded s rfl
  rw [Act.run_bind]
  rcases hrun : act.run s with ⟨e | a, t⟩
  . rw [hrun] at hkept
    exact ⟨fun h => (by cases h), fun _ => hkept⟩
  . rw [hrun] at hkept
    obtain ⟨hok, hstopped⟩ := hf a t
    exact ⟨hok, fun h => (hstopped h).trans hkept⟩

theorem reopens_reload : Reopens (reload content snapshot) := by
  have hgoods {α : Type} (act : Act (Belongings ρ × σ) α) (d : Bool) :
      Act.Keeps (fun s : Session ρ σ => s.dayEnded = d) (onGoods act) :=
    keeps_onGoods act fun _ _ _ hs => hs
  rw [reload_eq]
  refine .bind (fun d => Act.keeps_frame fun _ _ hs => hs) fun _ => ?_
  refine .bind (hgoods _) fun _ => ?_
  refine .bind (fun d => Act.keeps_frame fun _ _ hs => hs) fun _ => ?_
  refine .bind (hgoods _) fun _ => ?_
  unfold reckon
  refine .bind (hgoods _) fun _ => ?_
  refine .bind (hgoods _) fun _ => ?_
  exact fun s => ⟨fun _ => rfl, fun h => by cases h⟩

/-- Behind the loads only the places are moved. -/
theorem keeps_places {P : Session ρ σ → Prop}
    (h : ∀ navigation sources s, P s → P { s with navigation, sources })
    (f : Atlas ρ σ → Act (Navigation ρ × σ) (Option (Pointer ρ)))
    : Act.Keeps P (do let _ ← navigate content f : Act (Session ρ σ) Unit) := by
  refine Act.keeps_bind (fun s hs => ?_) fun _ => Act.keeps_pure _
  rw [run_navigate]
  exact h _ _ s hs

/-- The clock of a session in which a snapshot has been restored, however far that came. -/
theorem clock_restore (s : Session ρ σ)
    : ((restore content snapshot).run s).2.clock = ((Clock.resume snapshot.time).run s.clock).2 := by
  let Shows (t : Session ρ σ) : Prop := t.clock = ((Clock.resume snapshot.time).run s.clock).2
  have hgoods {α : Type} (act : Act (Belongings ρ × σ) α) : Act.Keeps Shows (onGoods act) :=
    keeps_onGoods act fun _ _ _ hs => hs
  have hreload : Shows ((reload content snapshot).run s).2 := by
    rw [reload_eq]
    refine Act.bind_of_keeps (P := Shows) rfl fun _ => ?_
    refine Act.keeps_bind (hgoods _) fun _ => ?_
    refine Act.keeps_bind (Act.keeps_frame fun _ _ hs => hs) fun _ => ?_
    refine Act.keeps_bind (hgoods _) fun _ => ?_
    unfold reckon
    refine Act.keeps_bind (hgoods _) fun _ => ?_
    refine Act.keeps_bind (hgoods _) fun _ => ?_
    exact Act.keeps_modify fun _ hs => hs
  exact Act.bind_of_keeps (P := Shows) hreload fun _ => keeps_places (fun _ _ _ hs => hs) _

theorem dayEnded_restore (s : Session ρ σ)
    : ((restore content snapshot).run s).2.dayEnded
      = if ((reload content snapshot).run s).1.isOk then false else s.dayEnded := by
  have hmoved {d : Bool} (h : ((reload content snapshot).run s).2.dayEnded = d) :
      ((restore content snapshot).run s).2.dayEnded = d := by
    let Shows (t : Session ρ σ) : Prop := t.dayEnded = d
    exact Act.bind_of_keeps (P := Shows) h fun _ => keeps_places (fun _ _ _ hs => hs) _
  have hreopens : Reopens (reload content snapshot) := reopens_reload
  obtain ⟨hok, hstopped⟩ := hreopens s
  split
  next h => exact hmoved (hok h)
  next h => exact hmoved (hstopped (Bool.eq_false_iff.mpr h))

/-- A snapshot opens the day again for clock and session alike: in a session whose day is over, the
clock takes the hour of the snapshot over just where all of it can be loaded. -/
def Reopened (content : Content ρ σ) (s : Session ρ σ) (snapshot : Snapshot ρ) : Prop :=
  s.dayEnded = true →
    (Clock.Takes snapshot.time s.clock ↔ ((reload content snapshot).run s).1.isOk = true)

theorem dayEnded_restore_iff {s : Session ρ σ} (h : s.dayEnded = s.clock.ended)
    : ((restore content snapshot).run s).2.dayEnded
        = ((restore content snapshot).run s).2.clock.ended
      ↔ Reopened content s snapshot := by
  rw [dayEnded_restore, clock_restore]
  unfold Reopened
  by_cases htakes : Clock.Takes snapshot.time s.clock
  . rw [Clock.resume_of_takes htakes]
    cases ((reload content snapshot).run s).1.isOk <;> simp [htakes]
  . rw [Clock.resume_of_not_takes htakes, ← h]
    cases ((reload content snapshot).run s).1.isOk <;> cases s.dayEnded <;> simp [htakes]

theorem Attends.restore {s : Session ρ σ} (h : Attends s) (hreopened : Reopened content s snapshot)
    : Attends ((restore content snapshot).run s).2 where
  listens := by
    rw [clock_restore, Clock.listeners_resume]
    exact h.listens
  dayEnded_eq := (dayEnded_restore_iff h.dayEnded_eq).mpr hreopened

theorem attends_of_start {sources : σ} {traits : TraitBook ρ} {clock : Clock ρ} {place : Value ρ}
    {s : Session ρ σ} (h : start content sources traits clock place = .ok s)
    (hclock : clock.ended = false) : Attends s := by
  have hsubscribed : (clock.subscribe dayListener).listeners ≠ []
      ∧ (clock.subscribe dayListener).ended = clock.ended := by
    unfold Clock.subscribe
    split
    next hmem =>
      refine ⟨?_, rfl⟩
      intro hnil
      rw [hnil] at hmem
      cases hmem
    next => exact ⟨by simp, rfl⟩
  have hfresh : s.dayEnded = false := by
    unfold start at h
    dsimp only at h
    split at h
    next hrun =>
      obtain rfl := Except.ok.inj h
      exact (congrArg (fun run => run.2.dayEnded) hrun).symm
    next => cases h
  have hclock_eq := (started h).clock_eq
  constructor
  case listens =>
    rw [hclock_eq]
    exact hsubscribed.1
  case dayEnded_eq => rw [hclock_eq, hsubscribed.2, hclock, hfresh]

end Session

/-! ### Playthroughs -/

namespace Playthrough

variable {V : Type}

/-- A playthrough after so many turns, with a save behind each where there is a saver. -/
def advance (content : Content ρ σ) (view : View ρ V) (saver : Option (Saver ρ σ)) :
    Nat → Playthrough ρ σ V → Playthrough ρ σ V
  | 0, p => p
  | n + 1, p => advance content view saver n ((savedTurn content view saver).run p).2

/-- No turn is played behind one that ends the day. -/
theorem rounds_stop (content : Content ρ σ) (view : View ρ V) (saver : Option (Saver ρ σ))
    (limit : Value ρ) (fuel played : Nat) (p : Playthrough ρ σ V)
    : ∃ n, (((rounds content view saver limit (fuel + 1) played).run p).2.session
        = (advance content view saver (n + 1) p).session)
      ∧ ∀ k < n, (advance content view saver (k + 1) p).session.dayEnded = false := by
  induction fuel using Nat.strongRecOn generalizing played p with
  | ind fuel ih =>
    rcases hturn : (savedTurn content view saver).run p with ⟨result, q⟩
    have hadvance (n : Nat) :
        advance content view saver (n + 1) p = advance content view saver n q := by
      rw [advance, hturn]
    rcases goesOn_or_closes view limit (played + 1) result q with hgoesOn | ⟨outcome, last, hcloses⟩
    . cases fuel with
      | zero =>
        refine ⟨0, ?_, by simp⟩
        rw [rounds_of_goesOn hturn hgoesOn, hadvance]
        rfl
      | succ fuel =>
        obtain ⟨n, hlast, hday⟩ := ih fuel (Nat.lt_succ_self fuel) (played + 1) q
        refine ⟨n + 1, ?_, ?_⟩
        . rw [rounds_of_goesOn hturn hgoesOn, hlast, hadvance]
        . rintro (_ | k) hk
          . obtain ⟨_, _, _, hopen, _⟩ := hgoesOn
            rw [hadvance]
            exact hopen
          . rw [hadvance]
            exact hday k (by omega)
    . refine ⟨0, ?_, by simp⟩
      rw [rounds_of_closes hturn hcloses, hadvance]
      exact hcloses.session_eq

end Playthrough

namespace Session

variable {content : Content ρ σ}

/-- The session knows when the day is over. From a clock that is not over its flag is that of the
clock, through all turns and effects and through every restore that opens the day again for both; a
restore that does so for one of them alone sets them apart. Once the day is over it stays so until a
snapshot is restored, and a playthrough plays no turn behind the one that ends it. -/
theorem dayEnded_eq_ended {sources : σ} {traits : TraitBook ρ} {clock : Clock ρ} {place : Value ρ}
    {s₀ s : Session ρ σ} (hstart : start content sources traits clock place = .ok s₀)
    (hclock : clock.ended = false) (hs : Course content (Reopened content) s₀ s)
    : s.dayEnded = s.clock.ended
      ∧ (∀ snapshot, let t := ((restore content snapshot).run s).2
          t.dayEnded = t.clock.ended ↔ Reopened content s snapshot)
      ∧ (s.dayEnded = true → ∀ t, Course content (fun _ _ => False) s t → t.dayEnded = true)
      ∧ ∀ {V : Type} (view : View ρ V) (saver : Option (Saver ρ σ)) (limit : Value ρ) (v : V),
        ∃ n, ((Playthrough.run content view saver limit).run ⟨s, v⟩).2.session
            = (Playthrough.advance content view saver (n + 1) ⟨s, v⟩).session
          ∧ ∀ k < n, (Playthrough.advance content view saver (k + 1) ⟨s, v⟩).session.dayEnded
            = false := by
  have hattends : Attends s := by
    refine lasting_attends.course ?_ (attends_of_start hstart hclock) hs
    intro t snapshot hreopened ht
    exact ht.restore hreopened
  refine ⟨hattends.dayEnded_eq, ?_, ?_, ?_⟩
  . intro snapshot
    exact dayEnded_restore_iff hattends.dayEnded_eq
  . intro hended t ht
    exact lasting_dayEnded.course (fun _ _ h => h.elim) hended ht
  . intro V view saver limit v
    unfold Playthrough.run
    rw [Act.run_bind, Act.run_get]
    exact Playthrough.rounds_stop content view saver limit (view.remaining v) 0 ⟨s, v⟩

/-- A rest at the inn and ten hours more come to the end of the day. A snapshot without an hour opens
the day for the session and not for the clock. -/
theorem dayEnded_eq_ended_inn
    : ∃ s₀ s : Session Rat Unit,
      start inn.content () {} {} (.object [("locationId", .text "inn")]) = .ok s₀
      ∧ Course inn.content (Reopened inn.content) s₀ s
      ∧ s.dayEnded = true ∧ s.clock.ended = true
      ∧ let t := ((restore inn.content { location := .text "inn" }).run s).2
        t.dayEnded = false ∧ t.clock.ended = true := by
  let begun := start inn.content () {} {} (.object [("locationId", .text "inn")])
  let s₀ : Session Rat Unit :=
    begun.toOption.getD { clock := {}, goods := { speed := 0 }, sources := () }
  let rested : Session Rat Unit :=
    (Act.run (turn inn.content Script.view) ⟨s₀, .null, { picks := [.text "rest"] }⟩).2.play
  let s := (((crew inn.content).interpret (.text "time:10") .null).run rested).2
  have hstart : begun = .ok s₀ := Fault.eq_ok_getD (by decide +kernel) _
  have hs : Course inn.content (Reopened inn.content) s₀ s :=
    .effect (.turn .none Script.view .null _) (.text "time:10") .null
  have hended : s.dayEnded = true := by decide +kernel
  obtain ⟨heq, hreopened, _⟩ := dayEnded_eq_ended hstart rfl hs
  have hloads : ((reload inn.content { location := .text "inn" }).run s).1.isOk = true := by
    decide +kernel
  have hopen : ((restore inn.content { location := .text "inn" }).run s).2.dayEnded = false := by
    rw [dayEnded_restore, if_pos hloads]
  have hapart := (hreopened { location := .text "inn" }).not.mpr fun h =>
    Clock.not_takes_null _ ((h hended).mpr hloads)
  rw [hopen] at hapart
  exact ⟨s₀, s, hstart, hs, hended, heq ▸ hended, hopen, by simpa using hapart⟩

end Session

end Storyworld
