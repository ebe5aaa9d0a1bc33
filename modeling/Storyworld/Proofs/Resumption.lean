import Storyworld.Proofs.History
import Storyworld.Proofs.Loading
import Storyworld.Proofs.Restore

/-!
This module contains what becomes of the history of a session that is saved and taken up again.
-/

namespace Storyworld

variable {ρ σ : Type} [Scalar ρ]

namespace Snapshot

theorem parts_eq_ok {s : Snapshot ρ} {parts : Parts ρ} (h : s.parts = .ok parts)
    : parts.pointer = place s.location s.scene
      ∧ (∃ rows, s.history.items = .ok rows ∧ rows.mapM rowPlace = .ok parts.history)
      ∧ s.events.items = .ok parts.events := by
  unfold Snapshot.parts at h
  obtain ⟨rows, hrows, h⟩ := Fault.bind_eq_ok.mp h
  obtain ⟨places, hplaces, h⟩ := Fault.bind_eq_ok.mp h
  obtain ⟨traits, _, h⟩ := Fault.bind_eq_ok.mp h
  obtain ⟨events, hevents, h⟩ := Fault.bind_eq_ok.mp h
  obtain ⟨inventory, _, h⟩ := Fault.bind_eq_ok.mp h
  obtain ⟨world, _, h⟩ := Fault.bind_eq_ok.mp h
  obtain rfl := Except.ok.inj h
  exact ⟨rfl, ⟨rows, hrows, hplaces⟩, hevents⟩

/-- A payload has the parts that were written, under their names. -/
theorem toPayload_eq_ok {s : Snapshot ρ} {payload : Value ρ} (h : s.toPayload = .ok payload)
    : ∃ parts r, s.parts = .ok parts ∧ payload = .object r
      ∧ Record.field r "pointer" = parts.pointer
      ∧ Record.field r "history" = .list parts.history
      ∧ Record.field r "domainEvents" = .list parts.events := by
  obtain ⟨parts, hparts, h⟩ := Fault.bind_eq_ok.mp h
  unfold Parts.payload at h
  obtain ⟨traits, _, h⟩ := Fault.bind_eq_ok.mp h
  obtain ⟨inventory, _, h⟩ := Fault.bind_eq_ok.mp h
  obtain ⟨world, _, h⟩ := Fault.bind_eq_ok.mp h
  obtain rfl := Except.ok.inj h
  refine ⟨parts, _, hparts, rfl, ?_⟩
  -- the time comes last, where it is written
  split
  . exact ⟨rfl, rfl, rfl⟩
  . exact ⟨rfl, rfl, rfl⟩

theorem toPayload_places {s : Snapshot ρ} {history : List (Pointer ρ)}
    (hhistory : s.history = .list (history.map Session.row)) {payload : Value ρ}
    (h : s.toPayload = .ok payload)
    : ∃ r, payload = .object r ∧ Record.field r "pointer" = place s.location s.scene
      ∧ Record.field r "history" = .list (history.map fun q => place q.location q.scene) := by
  obtain ⟨parts, r, hparts, rfl, hplace, hplaces, _⟩ := toPayload_eq_ok h
  obtain ⟨hpointer, ⟨rows, hrows, hmapped⟩, _⟩ := parts_eq_ok hparts
  rw [hhistory] at hrows
  obtain rfl := Except.ok.inj hrows
  rw [mapM_rowPlace, Except.ok.injEq] at hmapped
  exact ⟨r, rfl, hplace.trans hpointer, hplaces.trans (congrArg Value.list hmapped.symm)⟩

theorem ofPayload_places {r : Record ρ} {location scene : Value ρ} {history : List (Pointer ρ)}
    (hpointer : Record.field r "pointer" = place location scene)
    (hp : Pointer.Named ⟨location, scene⟩)
    (hhistory : Record.field r "history" = .list (history.map fun q => place q.location q.scene))
    (hnamed : ∀ q ∈ history, q.Named) {s : Snapshot ρ} (h : ofPayload (.object r) = .ok (some s))
    : s.location = location ∧ s.scene = scene ∧ s.history = .list (history.map Session.row) := by
  obtain ⟨payload, pointer, husable, hreads⟩ := reads_of_ofPayload h
  obtain rfl := Value.object.inj husable.object
  have hplace := husable.place
  rw [hpointer] at hplace
  obtain rfl := Value.object.inj hplace
  obtain ⟨l, hl, hlocation⟩ := hreads.location
  obtain ⟨rows, hrows, hlist⟩ := hreads.history
  have hgiven : scene.given? = .ok scene := given?_scene hp
  obtain ⟨⟨l', hl', _⟩, _⟩ := hp
  obtain rfl : location = .text l' := hl'
  refine ⟨?_, ?_, ?_⟩
  . change (Value.text l' : Value ρ).text? = .ok l at hl
    rw [Value.text?_text, Except.ok.injEq] at hl
    rw [hlocation, hl]
  . exact Except.ok.inj (hreads.scene.symm.trans hgiven)
  . rw [hhistory, historyOf_places hnamed, Except.ok.injEq] at hrows
    rw [hlist, hrows]

end Snapshot

theorem Navigation.Valid.spelled (hspell : ∀ x : ρ, Scalar.spell x ≠ "")
    {f : Value ρ → Except Fault (Value ρ)} {p : Pointer ρ} (h : Valid f (· ≠ "") p)
    : Spelled p := by
  obtain ⟨⟨l, hl, _⟩, hscene⟩ := h.named hspell
  refine ⟨⟨l, hl⟩, hscene.imp_right ?_⟩
  rintro ⟨s, hs, _⟩
  exact ⟨s, hs⟩

namespace Session

variable {content : Content ρ σ} {f : Value ρ → Except Fault (Value ρ)}

theorem returned_places (hspell : ∀ x : ρ, Scalar.spell x ≠ "") {s : Session ρ σ}
    (hvalid : Navigation.AllValid f (· ≠ "") s.navigation) {snapshot snapshot' : Snapshot ρ}
    {payload : Value ρ} (htaken : s.snapshot = some snapshot)
    (hwritten : snapshot.toPayload = .ok payload)
    (hread : Snapshot.ofPayload payload = .ok (some snapshot'))
    : ∃ p, s.navigation.pointer = some p ∧ snapshot'.location = p.location
      ∧ snapshot'.scene = p.scene ∧ historyOf snapshot' = s.navigation.history := by
  obtain ⟨p, hpointer, rfl⟩ := Option.map_eq_some_iff.mp htaken
  have hnamed : ∀ q ∈ s.navigation.history, q.Named := by
    intro q hq
    exact (hvalid q (.inr hq)).named hspell
  obtain ⟨r, rfl, hplace, hplaces⟩ := Snapshot.toPayload_places rfl hwritten
  obtain ⟨hlocation, hscene, hhistory⟩ := Snapshot.ofPayload_places hplace
    ((hvalid p (.inl hpointer)).named hspell) hplaces hnamed hread
  refine ⟨p, hpointer, hlocation, hscene, ?_⟩
  unfold historyOf
  rw [hhistory]
  change (s.navigation.history.map row).filterMap pointerOf? = _
  rw [List.filterMap_map]
  exact List.filterMap_some

/-- A session that is taken up again stands where the time of its clock leads from the place that
was saved. It has the history of the saved one just where that is the place noted last; otherwise
it notes that place, too. -/
theorem history_restored_iff (hspell : ∀ x : ρ, Scalar.spell x ≠ "")
    (hf : Answers f content.location) {sources : σ} {traits : TraitBook ρ} {clock : Clock ρ}
    {place : Value ρ} {s₀ s : Session ρ σ}
    (hstart : start content sources traits clock place = .ok s₀) (hs : Turns content s₀ s)
    {snapshot snapshot' : Snapshot ρ} {payload : Value ρ} (htaken : s.snapshot = some snapshot)
    (hwritten : snapshot.toPayload = .ok payload)
    (hread : Snapshot.ofPayload payload = .ok (some snapshot')) {t t' : Session ρ σ}
    (hrun : (restore content snapshot').run t = (.ok (), t'))
    : ∃ p q, s.navigation.pointer = some p ∧ t'.navigation.pointer = some q
      ∧ q.location = p.location
      ∧ (atlas content t').gate (infoOf f p.location) p.scene = .ok q.scene
      ∧ (t'.navigation.history = s.navigation.history ↔ s.navigation.history.getLast? = some q)
      ∧ (s.navigation.history.getLast? ≠ some q →
        t'.navigation.history = s.navigation.history ++ [q]) := by
  have hvalid := allValid hf hstart hs
  obtain ⟨p, hpointer, hlocation, hscene, hhistory⟩ :=
    returned_places hspell hvalid htaken hwritten hread
  obtain ⟨loaded, result, _, hmoved⟩ := restore_eq_ok hrun
  rw [hlocation, hscene, hhistory] at hmoved
  obtain ⟨v, n, src, hgate, rfl, hstands, hnoted, _⟩ :=
    restore_comes hspell hf (hvalid p (.inl hpointer)) hmoved
  refine ⟨p, ⟨p.location, v⟩, hpointer, hstands, rfl, hgate, ?_⟩
  have hspelled := (hvalid p (.inl hpointer)).gate hgate |>.spelled hspell
  dsimp only
  rw [hnoted]
  rcases Navigation.extend_cases hspelled s.navigation.history with ⟨hlast, heq⟩ | ⟨hlast, heq⟩
  . rw [heq]
    exact ⟨iff_of_true rfl hlast, fun h => absurd hlast h⟩
  . rw [heq]
    refine ⟨iff_of_false ?_ hlast, fun _ => rfl⟩
    simp

theorem history_restored_iff_inn
    : ∃ (s₀ s t t' : Session Rat Unit) (snapshot snapshot' : Snapshot Rat) (payload : Value Rat),
      start inn.content () {} {} (.object [("locationId", .text "inn")]) = .ok s₀
      ∧ Turns inn.content s₀ s ∧ s.snapshot = some snapshot ∧ snapshot.toPayload = .ok payload
      ∧ Snapshot.ofPayload payload = .ok (some snapshot')
      ∧ (restore inn.content snapshot').run t = (.ok (), t')
      ∧ ∃ q, t'.navigation.history = s.navigation.history ++ [q] := by
  let t : Session Rat Unit := { clock := {}, goods := { traits := {}, speed := 0 }, sources := () }
  let begun := start inn.content () {} {} (.object [("locationId", .text "inn")])
  let s₀ : Session Rat Unit := begun.toOption.getD t
  let s : Session Rat Unit :=
    (Act.run (turn inn.content Script.view) ⟨s₀, .null, { picks := [.text "rest"] }⟩).2.play
  have hstart : begun = .ok s₀ := Fault.eq_ok_getD (by decide +kernel) _
  have hturns : Turns inn.content s₀ s := .turn .none Script.view .null _
  have hday : s.navigation.history.getLast?.all (·.scene.same (.text "day")) = true := by
    decide +kernel
  have hresumes : (s.snapshot.any fun snapshot => snapshot.toPayload.toOption.any fun payload =>
      (Snapshot.ofPayload payload).toOption.any fun read => read.any fun snapshot' =>
        ((restore inn.content snapshot').run t).1.isOk
          && ((restore inn.content snapshot').run t).2.navigation.pointer.any
            (·.scene.same (.text "night"))) = true := by decide +kernel
  obtain ⟨snapshot, htaken, hresumes⟩ := (Option.any_eq_true _ _).mp hresumes
  obtain ⟨payload, hwritten, hresumes⟩ := Fault.any_eq_true.mp hresumes
  obtain ⟨read, hread, hresumes⟩ := Fault.any_eq_true.mp hresumes
  obtain ⟨snapshot', rfl, hresumes⟩ := (Option.any_eq_true _ _).mp hresumes
  obtain ⟨hok, hnight⟩ := Bool.and_eq_true_iff.mp hresumes
  have hrun := Fault.eq_ok_getD hok ()
  obtain ⟨p, q, _, hq, _, _, _, hgrows⟩ := history_restored_iff Value.spell_ne_empty
    (Memory.answers inn) hstart hturns htaken hwritten hread (t := t) (Prod.ext hrun rfl)
  refine ⟨s₀, s, t, _, snapshot, snapshot', payload, hstart, hturns, htaken, hwritten, hread,
    Prod.ext hrun rfl, q, hgrows ?_⟩
  intro hlast
  rw [hq] at hnight
  rw [hlast] at hday
  have hnight := Value.same_text_iff.mp hnight
  rw [Value.same_text_iff.mp hday] at hnight
  exact absurd (Value.text.inj hnight) (by decide)

end Session

end Storyworld
