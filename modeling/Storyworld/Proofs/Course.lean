import Storyworld.Proofs.Recovery

/-!
This module contains the courses that a session can take: turns and effects move it on, and
snapshots are restored in between. What stops on the way leaves the session as far as it came.
-/

namespace Storyworld

namespace EventLog

variable {ρ : Type} [Scalar ρ]

theorem keeps_load_clean (tokens : Value ρ) : Act.Keeps Clean (load tokens) := by
  unfold load
  refine Act.keeps_bind (Act.keeps_set clean_empty) fun _ => ?_
  refine Act.keeps_forM (fun token => ?_) _
  unfold add
  refine Act.keeps_bind_of_ends (Act.keeps_lift _) (Act.ends_lift fun key hkey => hkey) ?_
  intro key hkey
  -- the key of a value has no blanks around it, so it is noted as a token is
  obtain ⟨_, _, hkey⟩ := Fault.bind_eq_ok.mp hkey
  obtain rfl := Except.ok.inj hkey
  refine Act.keeps_modify fun log h => ?_
  have hnoted := h.noteText token.key
  unfold noteText Value.key at hnoted
  rw [Text.strip_strip] at hnoted
  exact hnoted

end EventLog

namespace Session

variable {ρ σ : Type} [Scalar ρ] {content : Content ρ σ} {P : Session ρ σ → Prop}
  {R : Session ρ σ → Snapshot ρ → Prop}

/-- The sessions that turns, effects and restored snapshots lead to; `R` tells which snapshots are
restored in which sessions. -/
inductive Course (content : Content ρ σ) (R : Session ρ σ → Snapshot ρ → Prop) (s : Session ρ σ) :
    Session ρ σ → Prop where
  | none : Course content R s s
  | turn {t : Session ρ σ} (h : Course content R s t) {V : Type} (view : View ρ V) (npc : Value ρ)
    (v : V) : Course content R s (Act.run (Session.turn content view) ⟨t, npc, v⟩).2.play
  | effect {t : Session ρ σ} (h : Course content R s t) (definition cost : Value ρ) :
    Course content R s (((crew content).interpret definition cost).run t).2
  | restore {t : Session ρ σ} (h : Course content R s t) {snapshot : Snapshot ρ}
    (hsnapshot : R t snapshot) : Course content R s ((restore content snapshot).run t).2

theorem Lasting.course (h : Lasting content P)
    (hrestore : ∀ t snapshot, R t snapshot → P t → P ((restore content snapshot).run t).2)
    {s t : Session ρ σ} (hs : P s) (ht : Course content R s t) : P t := by
  induction ht with
  | none => exact hs
  | turn _ view npc v ih => exact h.turn view ⟨_, npc, v⟩ ih
  | effect _ definition cost ih => exact h.interpret definition cost _ ih
  | restore _ hsnapshot ih => exact hrestore _ _ hsnapshot ih

/-- What is taken over of a snapshot, apart from the places, keeps what each of its parts keeps. -/
theorem keeps_reload {snapshot : Snapshot ρ}
    (hclock : Act.Keeps P (onClock (Clock.resume snapshot.time)))
    (hgoods : ∀ act : Act (Belongings ρ × σ) Unit, Act.Keeps P (onGoods act))
    (hlog : Act.Keeps P
      (Act.within log (fun log s => { s with log }) (EventLog.load snapshot.events)))
    (hopen : ∀ s, P s → P { s with dayEnded := false }) : Act.Keeps P (reload content snapshot) := by
  rw [reload_eq]
  refine Act.keeps_bind hclock fun _ => ?_
  refine Act.keeps_bind (hgoods _) fun _ => ?_
  refine Act.keeps_bind hlog fun _ => ?_
  refine Act.keeps_bind (hgoods _) fun _ => ?_
  unfold reckon
  refine Act.keeps_bind (hgoods _) fun _ => ?_
  refine Act.keeps_bind (hgoods _) fun _ => ?_
  exact Act.keeps_modify hopen

/-- Of all that a snapshot tells only its events come into the log. -/
theorem keeps_restore_log {Q : EventLog → Prop} {snapshot : Snapshot ρ}
    (h : Act.Keeps Q (EventLog.load snapshot.events))
    : Act.Keeps (fun s : Session ρ σ => Q s.log) (restore content snapshot) := by
  unfold restore
  refine Act.keeps_bind ?_ fun _ => ?_
  . apply keeps_reload
    case hclock => exact Act.keeps_frame fun _ _ hs => hs
    case hgoods => exact fun act => keeps_onGoods act fun _ _ _ hs => hs
    case hlog => exact Act.keeps_within h (fun _ hs => hs) fun _ _ _ hlog => hlog
    case hopen => exact fun _ hs => hs
  . refine Act.keeps_bind (fun s hs => ?_) fun _ => Act.keeps_pure _
    exact hs

/-- Of all that a snapshot tells only its place and the ways from there are registered. -/
theorem keeps_restore_registry {T : Registry ρ → Prop}
    (h : ∀ location title background, Act.Keeps T (Registry.ensure location title background))
    (snapshot : Snapshot ρ)
    : Act.Keeps (fun s : Session ρ σ => T s.navigation.registry) (restore content snapshot) := by
  unfold restore
  refine Act.keeps_bind ?_ fun _ => ?_
  . apply keeps_reload
    case hclock => exact Act.keeps_frame fun _ _ hs => hs
    case hgoods => exact fun act => keeps_onGoods act fun _ _ _ hs => hs
    case hlog => exact Act.keeps_frame fun _ _ hs => hs
    case hopen => exact fun _ hs => hs
  . refine Act.keeps_bind (fun s hs => ?_) fun _ => Act.keeps_pure _
    rw [run_navigate, Navigation.run_restore]
    have htravels : Navigation.Travels (atlas content s) fun n => T n.1.registry :=
      .of_registry h
    exact htravels.moveTo _ _ (_, s.sources) hs

/-- A restore that ends well has loaded the log. -/
theorem log_of_restore {snapshot : Snapshot ρ} {s s' : Session ρ σ}
    (h : (restore content snapshot).run s = (.ok (), s'))
    : (EventLog.load snapshot.events).run s.log = (.ok (), s'.log) := by
  obtain ⟨loaded, result, hloaded, hmoved⟩ := restore_eq_ok h
  have hlog : loaded.log = s'.log := congrArg (fun run => run.2.log) hmoved
  rw [reload_eq] at hloaded
  obtain ⟨_, s₁, hclock, hloaded⟩ := Act.run_bind_eq_ok.mp hloaded
  obtain ⟨_, s₂, htraits, hloaded⟩ := Act.run_bind_eq_ok.mp hloaded
  obtain ⟨_, s₃, hevents, hloaded⟩ := Act.run_bind_eq_ok.mp hloaded
  obtain ⟨_, s₄, hinventory, hloaded⟩ := Act.run_bind_eq_ok.mp hloaded
  obtain ⟨_, s₅, hspeed, hloaded⟩ := Act.run_bind_eq_ok.mp hloaded
  obtain ⟨_, s₆, hledger, hloaded⟩ := Act.run_bind_eq_ok.mp hloaded
  -- before and behind the log nothing but other parts of the session is written
  have hbefore : s.log = s₂.log :=
    calc
      s.log = s₁.log := congrArg (fun run => run.2.log) hclock
      _ = s₂.log := congrArg (fun run => run.2.log) htraits
  have hbehind : s₃.log = loaded.log :=
    calc
      s₃.log = s₄.log := congrArg (fun run => run.2.log) hinventory
      _ = s₅.log := congrArg (fun run => run.2.log) hspeed
      _ = s₆.log := congrArg (fun run => run.2.log) hledger
      _ = loaded.log := congrArg (fun run => run.2.log) hloaded
  have hresult := congrArg Prod.fst hevents
  have hloads := congrArg (fun run => run.2.log) hevents
  rw [hbefore, ← hlog, ← hbehind]
  exact Prod.ext hresult hloads

end Session

end Storyworld
