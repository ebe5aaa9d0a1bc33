import Storyworld.Proofs.Decision
import Storyworld.Proofs.Frame
import Storyworld.View.Script

/-!
This module contains the turns of a player whose answers are known beforehand. All picks but the
last leave the session as it is: they are answered from the sources, and change who is talked to.
What the last pick comes to is played once all picks are made, and at most once.
-/

namespace Storyworld

variable {ρ σ : Type} [Scalar ρ]

namespace Session

variable {content : Content ρ σ}

/-- Nothing of a session has changed, apart from what reading the sources changes. -/
def Read (content : Content ρ σ) (s s' : Session ρ σ) : Prop :=
  ∃ sources, content.Reads s.sources sources ∧ s' = { s with sources }

namespace Read

omit [Scalar ρ] in
theorem refl (s : Session ρ σ) : Read content s s := ⟨s.sources, .refl s.sources, rfl⟩

omit [Scalar ρ] in
theorem trans {s s' s'' : Session ρ σ} (h : Read content s s') (h' : Read content s' s'')
    : Read content s s'' := by
  obtain ⟨sources, hreads, rfl⟩ := h
  obtain ⟨sources', hreads', rfl⟩ := h'
  exact ⟨sources', fun R hR hs => hreads' R hR (hreads R hR hs), rfl⟩

end Read

omit [Scalar ρ] in
theorem keeps_onSources_read {α : Type} {act : Act σ α} (s : Session ρ σ)
    (h : ∀ R, content.Keeps R → Act.Keeps R act) : Act.Keeps (Read content s) (onSources act) := by
  rintro _ ⟨sources, hreads, rfl⟩
  exact ⟨_, Content.Reads.keeps h s.sources sources hreads, rfl⟩

theorem looks_read (s : Session ρ σ) : (stage content).Looks (Read content s) where
  content := by
    constructor
    case location => exact fun id => keeps_onSources_read s fun R h => h.location id
    case option? => exact fun location id => keeps_onSources_read s fun R h => h.option? location id
    case npc? => exact fun location id => keeps_onSources_read s fun R h => h.npc? location id
    case npcs => exact fun location => keeps_onSources_read s fun R h => h.npcs location
    case item? => exact fun id => keeps_onSources_read s fun R h => h.item? id
  scale := by
    intro scale hscale hours
    obtain rfl := Option.some.inj hscale
    apply Act.keeps_ask
  pack := by
    refine Act.keeps_bind Act.keeps_get fun here => ?_
    refine Act.keeps_bind (keeps_onSources_read s fun R h => ?_) fun entries => Act.keeps_pure _
    exact Inventory.keeps_entries h.lookup here.goods.inventory

end Session

namespace Turn

/-! ### Picks -/

/-- The name that a pick asks to talk to. -/
def spoken? (pick : Value ρ) : Option String :=
  if pick.isGiven then pick.text?.toOption.bind (behind? talkStart) else none

/-- Who is talked to after these picks: the last one that they ask to talk to. -/
def talkedTo (npc : Value ρ) (picks : List (Value ρ)) : Value ρ :=
  ((picks.filterMap spoken?).getLast?.map called).getD npc

/-- A pick to talk, to look into the pack or to see the travel menu. -/
def Idle (pick : Value ρ) : Prop :=
  pick.isGiven = true ∧ ∃ s, pick.text? = .ok s
    ∧ ((∃ id, behind? talkStart s = some id) ∨ s = packId ∨ s = goId)

theorem talkedTo_append (npc : Value ρ) (picks picks' : List (Value ρ))
    : talkedTo npc (picks ++ picks') = talkedTo (talkedTo npc picks) picks' := by
  unfold talkedTo
  rw [List.filterMap_append, List.getLast?_append]
  cases (picks'.filterMap spoken?).getLast? with
  | none => rfl
  | some id => rfl

theorem person_of (choices : List (Choice ρ)) (npc pick : Value ρ)
    : (Reply.of choices pick).person npc = talkedTo npc [pick] := by
  have hone : talkedTo npc [pick] = ((spoken? pick).map called).getD npc := by
    unfold talkedTo
    rw [List.filterMap_cons]
    cases spoken? pick with
    | none => rfl
    | some id => rfl
  rw [hone]
  unfold Reply.of spoken?
  cases pick.isGiven with
  | false => rfl
  | true =>
    cases pick.text? with
    | error e => rfl
    | ok s =>
      simp only [Bool.not_true, Bool.false_eq_true, ↓reduceIte, Except.toOption, Option.bind_some]
      cases behind? talkStart s with
      | some id => rfl
      | none =>
        dsimp only
        split
        . rfl
        split
        . rfl
        split
        . rfl
        . rfl

theorem idle_of_brings {travels : Record ρ → List (Choice ρ) → Value ρ → Prop}
    {choices : List (Choice ρ)} {pick : Value ρ} (h : (Reply.of choices pick).Brings travels none)
    : Idle pick := by
  unfold Reply.of at h
  split at h
  . cases h
  next hgiven =>
    rw [Bool.not_eq_true, Bool.not_eq_false'] at hgiven
    refine ⟨hgiven, ?_⟩
    cases htext : pick.text? with
    | error e =>
      rw [htext] at h
      cases h
    | ok s =>
      rw [htext] at h
      dsimp only at h
      refine ⟨s, rfl, ?_⟩
      cases htalk : behind? talkStart s with
      | some id => exact .inl ⟨id, rfl⟩
      | none =>
        rw [htalk] at h
        dsimp only at h
        split at h
        next hpack => exact .inr (.inl hpack)
        split at h
        . cases h
        split at h
        next hgo => exact .inr (.inr hgo)
        . cases h

end Turn

/-! ### Idle picks -/

namespace Script

omit [Scalar ρ] in
theorem run_showScene (dto : SceneView ρ) (v : Script ρ)
    : (view.showScene dto).run v = (.ok (v.picks.headD .null),
      { v.write (.scene dto) with picks := v.picks.tail }) := rfl

omit [Scalar ρ] in
/-- Besides scenes nothing that is shown uses up picks of scenes, or brings picks back. -/
theorem view_keeps (picks pathPicks : List (Value ρ))
    : (view : View ρ (Script ρ)).Keeps fun v => v.picks = picks ∧ v.pathPicks <:+ pathPicks where
  path _ _ v hv := ⟨hv.1, (List.tail_suffix v.pathPicks).trans hv.2⟩
  pack _ _ hv := hv
  result _ _ hv := hv

end Script

namespace Turn

variable {content : Content ρ σ} {scene : Scene ρ}
  {seat seat' seat'' last : Seat ρ (Session ρ σ) (Script ρ)}

/-- From one seat to another a scene has been shown, the next pick was one of its choices or was
something else, and this is what has come of it. -/
def Follows (content : Content ρ σ) (scene : Scene ρ)
    (seat seat' : Seat ρ (Session ρ σ) (Script ρ)) (decision? : Option (Decision ρ)) : Prop :=
  ∃ choices dto play, Session.Read content seat.play play
    ∧ ((Menu.choices (stall (Session.stage content) seat.play) scene seat.npc).run seat.play).1
      = .ok choices
    ∧ dto.options = choices.map (fun c => (.text c.id, c.name))
    ∧ (Reply.of choices (seat.view.picks.headD .null)).Brings
      (Travels (Session.stage content) Script.view scene { seat with
        play, view := { seat.view.write (.scene dto) with picks := seat.view.picks.tail } } seat')
      decision?

/-- What is left after a round: of the session only sources have been read, and only picks have been
used up. -/
structure Leaves (content : Content ρ σ) (seat seat' : Seat ρ (Session ρ σ) (Script ρ)) : Prop where
  play : Session.Read content seat.play seat'.play
  picks : seat'.view.picks = seat.view.picks.tail
  paths : seat'.view.pathPicks <:+ seat.view.pathPicks
  npc : seat'.npc = talkedTo seat.npc [seat.view.picks.headD .null]

theorem round_follows {decision? : Option (Decision ρ)}
    (h : (round (Session.stage content) Script.view scene).run seat = (.ok decision?, seat'))
    : Follows content scene seat seat' decision? ∧ Leaves content seat seat' := by
  obtain ⟨choices, dto, answer, play, v, hplay, hchoices, hoptions, -, hshown, hheed⟩ :=
    round_eq_ok (Session.looks_read seat.play) (.refl seat.play) h
  rw [Script.run_showScene] at hshown
  cases hshown
  have hrests := heed_rests (Session.looks_read seat.play)
    (Script.view_keeps seat.view.picks.tail seat.view.pathPicks) scene
    (.of choices (seat.view.picks.headD .null))
    { seat with
      play, view := { seat.view.write (.scene dto) with picks := seat.view.picks.tail } }
    ⟨hplay, rfl, rfl, List.suffix_refl _⟩
  rw [hheed] at hrests
  refine ⟨⟨choices, dto, play, hplay, hchoices, hoptions, heed_brings hheed⟩, ?_⟩
  exact ⟨hrests.play, hrests.view.1, hrests.view.2, hrests.npc.trans (person_of _ _ _)⟩

/-- Between two seats these idle picks have been made, and they have come to nothing but who is
talked to. -/
structure Idles (content : Content ρ σ) (seat last : Seat ρ (Session ρ σ) (Script ρ))
    (made : List (Value ρ)) : Prop where
  idle : ∀ pick ∈ made, Idle pick
  picks : seat.view.picks = made ++ last.view.picks
  paths : last.view.pathPicks <:+ seat.view.pathPicks
  npc : last.npc = talkedTo seat.npc made
  play : Session.Read content seat.play last.play

theorem Idles.trans {made made' : List (Value ρ)} (h : Idles content seat seat' made)
    (h' : Idles content seat' seat'' made') : Idles content seat seat'' (made ++ made') where
  idle := List.forall_mem_append.mpr ⟨h.idle, h'.idle⟩
  picks := by rw [h.picks, h'.picks, List.append_assoc]
  paths := h'.paths.trans h.paths
  npc := by rw [h'.npc, h.npc, talkedTo_append]
  play := h.play.trans h'.play

theorem idles_round
    (h : (round (Session.stage content) Script.view scene).run seat = (.ok none, seat'))
    : ∃ pick, Idles content seat seat' [pick] := by
  obtain ⟨⟨choices, dto, play, _, _, _, hbrings⟩, hleaves⟩ := round_follows h
  have hidle := idle_of_brings hbrings
  cases hpicks : seat.view.picks with
  | nil =>
    rw [hpicks] at hidle
    cases hidle.1
  | cons pick picks =>
    rw [hpicks] at hidle
    refine ⟨pick, by simpa using hidle, ?_, hleaves.paths, ?_, hleaves.play⟩
    . rw [hleaves.picks, hpicks]
      rfl
    . rw [hleaves.npc, hpicks]
      rfl

theorem idles_again (h : Again (Session.stage content) Script.view scene seat last)
    : ∃ made, Idles content seat last made := by
  induction h with
  | refl seat => exact ⟨[], by simp, rfl, List.suffix_refl _, rfl, .refl seat.play⟩
  | head hround hagain ih =>
    obtain ⟨pick, hpick⟩ := idles_round hround
    obtain ⟨made, hmade⟩ := ih
    exact ⟨[pick] ++ made, hpick.trans hmade⟩

/-- A turn acts at most once. Picks to talk, to look into the pack or to see the travel menu are
followed by a scene again, read the sources only and change only who is talked to. What the pick
after them comes to is decided from the menu that it is made from, and is carried out when all picks
are made; to carry it out plays a definition once, or nothing where nothing was picked or where the
exit was. Nothing else in the turn plays anything: the same holds whatever a definition does when it
is played, and a turn that stops with a fault before it is decided plays nothing. -/
theorem run_carries_out_once (content : Content ρ σ) (scene : Scene ρ)
    (seat : Seat ρ (Session ρ σ) (Script ρ))
    : ∃ made last, ∃ ending : Except Fault (Decision ρ), ∃ seat', Idles content seat last made
      ∧ Session.Read content seat.play seat'.play ∧ seat'.npc = talkedTo seat.npc made
      ∧ (∀ decision, ending = .ok decision → Follows content scene last seat' (some decision)
        ∧ seat'.view.picks = last.view.picks.tail)
      ∧ ∀ interpret, (run { Session.stage content with interpret } Script.view scene).run seat
        = (do
          let decision ← Act.lift ending
          onPlay (decision.carryOut interpret)).run seat' := by
  obtain ⟨last, ending, seat', hagain, hround, hrun⟩ :=
    run_cases (Session.stage content) Script.view_finite scene seat
  obtain ⟨made, hmade⟩ := idles_again hagain
  cases ending with
  | error e =>
    obtain ⟨hplay, hnpc⟩ := round_error (Session.looks_read last.play) (.refl last.play) hround
    refine ⟨made, last, .error e, seat', hmade, hmade.play.trans hplay, hnpc.trans hmade.npc,
      ?_, hrun⟩
    rintro _ ⟨⟩
  | ok decision =>
    obtain ⟨hfollows, hleaves⟩ := round_follows hround
    obtain ⟨choices, _, _, _, _, _, hbrings⟩ := id hfollows
    have hnpc : seat'.npc = last.npc := by
      rw [hleaves.npc, ← person_of choices, hbrings.person_eq]
    refine ⟨made, last, .ok decision, seat', hmade, hmade.play.trans hleaves.play,
      hnpc.trans hmade.npc, ?_, hrun⟩
    rintro _ ⟨⟩
    exact ⟨hfollows, hleaves.picks⟩

end Turn

end Storyworld
