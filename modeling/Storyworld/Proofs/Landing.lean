import Mathlib.Data.List.Nodup
import Storyworld.Proofs.Arrival
import Storyworld.Proofs.Pointer
import Storyworld.Proofs.Repeat

/-!
This module contains on which scene of a location a move and a look land: the one that is meant,
where the hours allow it, else the first that they allow, else the one that is meant. Locations have
scenes here, and no two of the same id.
-/

namespace Storyworld

namespace Atlas

variable {ρ σ : Type}

/-- The hours allow exactly the scenes that pass this test. -/
def Judges (atlas : Atlas ρ σ) (allowed : Record ρ → Bool) : Prop :=
  match atlas.allows with
  | none => ∀ scene, allowed scene = true
  | some allows => ∀ scene, allows scene = .ok (allowed scene)

theorem firstAllowed_eq {allows : Record ρ → Except Fault Bool} {allowed : Record ρ → Bool}
    (h : ∀ scene, allows scene = .ok (allowed scene)) (records : List (Record ρ))
    : firstAllowed allows records = .ok (records.find? allowed) := by
  induction records with
  | nil => rfl
  | cons record records ih =>
    unfold firstAllowed
    rw [h, List.find?_cons]
    cases hallowed : allowed record with
    | true => rfl
    | false => exact ih

variable [Scalar ρ] {info : Record ρ} {allowed : Record ρ → Bool}

/-- A location has scenes, and no two of them have the same id. -/
structure Distinct (info : Record ρ) : Prop where
  inhabited : scenes info ≠ []
  distinct : ((scenes info).map sceneId).Nodup

/-- The scene of a location that a request means: the one that it names, the one that the location
starts with, or its first. -/
def meant (info : Record ρ) (asked : Value ρ) : Option (Record ρ) :=
  ((find? info asked).or (find? info (Record.field info "startSceneId"))).or (scenes info).head?

/-- The scene that stands for one that is meant: the first that is allowed, where this one is not. -/
def granted (allowed : Record ρ → Bool) (info scene : Record ρ) : Record ρ :=
  if allowed scene then scene else ((scenes info).find? allowed).getD scene

theorem granted_mem {scene : Record ρ} (h : scene ∈ scenes info)
    : granted allowed info scene ∈ scenes info := by
  unfold granted
  split
  . exact h
  . cases hfind : (scenes info).find? allowed with
    | none => exact h
    | some other => exact List.mem_of_find?_eq_some hfind

theorem allowed_granted (scene : Record ρ) (h : ∃ other ∈ scenes info, allowed other = true)
    : allowed (granted allowed info scene) = true := by
  unfold granted
  split
  next hscene => exact hscene
  next =>
    obtain ⟨found, hfound⟩ := Option.isSome_iff_exists.mp (List.find?_isSome.mpr h)
    rw [hfound]
    exact List.find?_some hfound

theorem Distinct.find?_sceneId (h : Distinct info) (hspell : ∀ x : ρ, Scalar.spell x ≠ "")
    {scene : Record ρ} (hscene : scene ∈ scenes info)
    : find? info (.text (sceneId scene)) = some scene := by
  have hgiven : (Value.text (sceneId scene) : Value ρ).isGiven = true :=
    Value.isGiven_text.mpr (sceneId_ne_empty hspell hscene)
  have hisSome : (find? info (.text (sceneId scene))).isSome = true := by
    unfold find?
    rw [if_pos hgiven, List.find?_isSome]
    exact ⟨scene, hscene, by simp⟩
  obtain ⟨found, hfound⟩ := Option.isSome_iff_exists.mp hisSome
  obtain ⟨hmem, hid⟩ := mem_of_find? hfound
  rw [hfound, List.inj_on_of_nodup_map h.distinct hmem hscene hid]

theorem Distinct.meant (h : Distinct info) (asked : Value ρ)
    : ∃ scene ∈ scenes info, Atlas.meant info asked = some scene
      ∧ resolve info asked = .text (sceneId scene) := by
  have hfound {v : Value ρ} {scene : Record ρ} (hv : find? info v = some scene) :
      scene ∈ scenes info ∧ (Value.text v.display : Value ρ) = .text (sceneId scene) := by
    obtain ⟨hmem, hid⟩ := mem_of_find? hv
    exact ⟨hmem, by rw [hid]⟩
  unfold Atlas.meant resolve
  cases hasked : find? info asked with
  | some scene =>
    obtain ⟨hmem, hid⟩ := hfound hasked
    exact ⟨scene, hmem, rfl, hid⟩
  | none =>
    cases hstart : find? info (Record.field info "startSceneId") with
    | some scene =>
      have hgiven : (Record.field info "startSceneId").isGiven = true := by
        by_contra hnot
        unfold find? at hstart
        rw [if_neg hnot] at hstart
        cases hstart
      obtain ⟨hmem, hid⟩ := hfound hstart
      exact ⟨scene, hmem, rfl, by simp [hgiven, hstart, hid]⟩
    | none =>
      cases hscenes : scenes info with
      | nil => exact absurd hscenes h.inhabited
      | cons scene rest => exact ⟨scene, List.mem_cons_self, rfl, by simp [hstart]⟩

/-- What is asked for does not change by being written out as a text. -/
theorem find?_given {asked v : Value ρ} (hspell : ∀ x : ρ, Scalar.spell x ≠ "")
    (h : asked.given? = .ok v) : find? info v = find? info asked := by
  unfold Value.given? at h
  split at h
  next hgiven =>
    obtain ⟨s, hs, h⟩ := Fault.map_eq_ok.mp h
    subst h
    have hdisplay := Value.display_of_text? hs
    have hne : s ≠ "" := hdisplay ▸ Value.display_ne_empty hspell hgiven
    unfold find?
    rw [if_pos hgiven, if_pos (Value.isGiven_text.mpr hne), Value.display_text, hdisplay]
  next hgiven =>
    obtain rfl := Except.ok.inj h
    unfold find?
    rw [if_neg hgiven]
    rfl

theorem Distinct.resolve_given (h : Distinct info) (hspell : ∀ x : ρ, Scalar.spell x ≠ "")
    {asked v : Value ρ} {scene : Record ρ} (hmeant : Atlas.meant info asked = some scene)
    (hgiven : asked.given? = .ok v) : resolve info v = .text (sceneId scene) := by
  obtain ⟨other, _, hother, hresolve⟩ := h.meant v
  unfold Atlas.meant at hmeant hother
  rw [find?_given hspell hgiven, hmeant, Option.some.injEq] at hother
  rw [hresolve, hother]

variable {atlas : Atlas ρ σ}

theorem Distinct.eq_of_gate (h : Distinct info) (hspell : ∀ x : ρ, Scalar.spell x ≠ "")
    (hjudges : atlas.Judges allowed) {scene : Record ρ} (hscene : scene ∈ scenes info) {v : Value ρ}
    (hgate : atlas.gate info (.text (sceneId scene)) = .ok v)
    : v = .text (sceneId (granted allowed info scene)) := by
  unfold Judges at hjudges
  cases hallows : atlas.allows with
  | none =>
    rw [hallows] at hjudges
    unfold gate at hgate
    rw [hallows] at hgate
    unfold granted
    rw [if_pos (hjudges scene)]
    exact (Except.ok.inj hgate).symm
  | some allows =>
    rw [hallows] at hjudges
    dsimp only at hjudges
    have hcases := (gate_eq_ok hallows h.inhabited hgate).2
    have hadmits : admits allows (some scene) = .ok (allowed scene) := hjudges scene
    rw [h.find?_sceneId hspell hscene, hadmits] at hcases
    unfold granted
    rcases hcases with ⟨hallowed, rfl⟩ | ⟨hclosed, hother⟩
    . rw [if_pos (Except.ok.inj hallowed)]
    . rw [if_neg (by rw [Except.ok.inj hclosed]; decide)]
      cases hother with
      | all hnone =>
        rw [firstAllowed_eq hjudges, Except.ok.injEq] at hnone
        rw [hnone]
        rfl
      | other first hfirst _ =>
        rw [firstAllowed_eq hjudges, Except.ok.injEq] at hfirst
        rw [hfirst]
        rfl

/-- Where all scenes have a text the hours come to a scene. -/
theorem gives_gate_of_shallow (hinfo : Record.Shallow info) (hjudges : atlas.Judges allowed)
    (id : String) : Fault.Gives (atlas.gate info (.text id)) fun _ => True := by
  refine gives_gate hinfo ?_ rfl trivial fun scene hscene => ?_
  . intro allows hallows scene _
    unfold Judges at hjudges
    rw [hallows] at hjudges
    exact ⟨_, hjudges scene, trivial⟩
  . have hplain := Value.isPlain_field (isPlain_of_mem_scenes hinfo hscene) "id"
    rw [Value.text?_of_isPlain hplain]
    exact ⟨_, rfl, trivial⟩

end Atlas

namespace Navigation

variable {ρ σ : Type} [Scalar ρ] {f : Value ρ → Except Fault (Value ρ)} {atlas : Atlas ρ σ}
  {allowed : Record ρ → Bool}

/-! ### Moves -/

/-- What is told of every location has a text. -/
def Legible (f : Value ρ → Except Fault (Value ρ)) : Prop := ∀ id, Record.Shallow (infoOf f id)

omit [Scalar ρ] in
theorem Legible.tells (h : Legible f) (hf : Answers f atlas.location)
    : atlas.Tells fun location info => info = infoOf f location where
  info location := by
    intro s _
    rw [Atlas.run_info hf]
    exact ⟨_, _, rfl, trivial, rfl⟩
  shallow := by
    rintro location _ rfl
    exact h location

/-- The place of a scene at a location. -/
def placeOf (location : Value ρ) (scene : Record ρ) : Pointer ρ :=
  ⟨location, .text (Atlas.sceneId scene)⟩

/-- What the player sees of a scene of a location. -/
def sceneOf (f : Value ρ → Except Fault (Value ρ)) (location : Value ρ) (scene : Record ρ) :
    Scene ρ :=
  Scene.ofRecord (.text (Atlas.sceneId scene)) location scene
    (Record.field (infoOf f location) "path")

theorem scene_placeOf (hspell : ∀ x : ρ, Scalar.spell x ≠ "") {location : Value ρ}
    (h : Atlas.Distinct (infoOf f location)) {scene : Record ρ}
    (hscene : scene ∈ Atlas.scenes (infoOf f location))
    : Atlas.scene (infoOf f location) (placeOf location scene) = sceneOf f location scene := by
  have hgiven : (Value.text (Atlas.sceneId scene) : Value ρ).isGiven = true :=
    Value.isGiven_text.mpr (Atlas.sceneId_ne_empty hspell hscene)
  unfold Atlas.scene sceneOf placeOf Value.orElse
  dsimp only
  rw [if_pos hgiven, h.find?_sceneId hspell hscene]
  rfl

/-- A move lands on a scene of a location: it comes there and is noted, and made again it changes
nothing more, or it stops where the player stands. -/
structure Lands (f : Value ρ → Except Fault (Value ρ)) (atlas : Atlas ρ σ)
    (n : Navigation ρ × σ) (l : String) (asked : Value ρ) (scene : Record ρ) : Prop where
  declared : scene ∈ Atlas.scenes (infoOf f (.text l))
  comes : ∀ result n' src', (moveTo atlas (.text l) asked).run n = (.ok result, n', src') →
    result = some (placeOf (.text l) scene) ∧ n'.pointer = result
      ∧ n'.history = extend n.1.history (placeOf (.text l) scene)
      ∧ Rests (moveTo atlas (.text l) asked) n' result
  stops : ∀ e n' src', (moveTo atlas (.text l) asked).run n = (.error e, n', src') →
    n'.pointer = n.1.pointer ∧ n'.history = n.1.history
  /-- Nothing but a location without a name, there or on a way from there, stops it. -/
  ends : Legible f → asked.isPlain Value.textDepth = true →
    (((moveTo atlas (.text l) asked).run n).1.isOk = true
      ↔ ∀ name ∈ l :: (sceneOf f (.text l) scene).path, Text.strip name ≠ "")

theorem Sought.eq_placeOf (hspell : ∀ x : ρ, Scalar.spell x ≠ "") (hjudges : atlas.Judges allowed)
    {l : String} {asked : Value ρ} {r : Registry ρ} {p : Pointer ρ} (h : Sought f atlas l asked r p)
    (hdistinct : Atlas.Distinct (infoOf f (.text l))) {scene : Record ρ}
    (hscene : scene ∈ Atlas.scenes (infoOf f (.text l)))
    (hmeant : Atlas.meant (infoOf f (.text l)) asked = some scene)
    : p = placeOf (.text l) (Atlas.granted allowed (infoOf f (.text l)) scene) := by
  obtain ⟨found, hlocate, _⟩ := h.found
  obtain ⟨hlocation, _, _, v, hgiven, hgate⟩ := locate_eq_ok hlocate
  rw [hdistinct.resolve_given hspell hmeant hgiven] at hgate
  have hid := hdistinct.eq_of_gate hspell hjudges hscene hgate
  obtain ⟨location, id⟩ := p
  dsimp only at hlocation hid
  rw [hlocation, hid]
  rfl

/-- A move lands on the scene that is meant, or on the one that the hours put in its place. -/
theorem lands (hspell : ∀ x : ρ, Scalar.spell x ≠ "") (hf : Answers f atlas.location)
    (hjudges : atlas.Judges allowed) (n : Navigation ρ × σ) {l : String} (hl : l ≠ "")
    (asked : Value ρ) (h : Atlas.Distinct (infoOf f (.text l)))
    : ∃ scene ∈ Atlas.scenes (infoOf f (.text l)),
      Atlas.meant (infoOf f (.text l)) asked = some scene
        ∧ Lands f atlas n l asked (Atlas.granted allowed (infoOf f (.text l)) scene) := by
  have hgiven : (Value.text l : Value ρ).isGiven = true := Value.isGiven_text.mpr hl
  obtain ⟨scene, hscene, hmeant, _⟩ := h.meant asked
  have hgranted : Atlas.granted allowed (infoOf f (.text l)) scene
      ∈ Atlas.scenes (infoOf f (.text l)) := Atlas.granted_mem hscene
  have hsought {n' : Navigation ρ} {src' : σ} {result : Option (Pointer ρ)}
      (hrun : (moveTo atlas (.text l) asked).run n = (.ok result, n', src')) :
      ∃ p, result = some p ∧ Sought f atlas l asked n'.registry p := by
    obtain ⟨name, p, hname, hresult, _, hsought, _⟩ := moveTo_eq_ok hf hgiven hrun
    rw [Value.text?_text, Except.ok.injEq] at hname
    exact ⟨p, hresult, hname ▸ hsought⟩
  have hstands : Stands n.1.pointer n.1.history n.1 := ⟨rfl, rfl⟩
  refine ⟨scene, hscene, hmeant, hgranted, ?comes, ?stops, ?ends⟩
  case comes =>
    intro result n' src' hrun
    obtain ⟨p, rfl, hplace⟩ := hsought hrun
    obtain rfl := hplace.eq_placeOf hspell hjudges h hscene hmeant
    rcases moveTo_stands atlas hgiven asked hstands
      with ⟨⟨e, herror⟩, _⟩ | ⟨q, hok, _, hpointer, hhistory⟩
    . rw [hrun] at herror
      cases herror
    . rw [hrun] at hok hpointer hhistory
      cases hok
      exact ⟨rfl, hpointer, hhistory, moveTo_again hf hrun⟩
  case stops =>
    intro e n' src' hrun
    rcases moveTo_stands atlas hgiven asked hstands with ⟨_, hstays⟩ | ⟨q, hok, _⟩
    . rw [hrun] at hstays
      exact hstays
    . rw [hrun] at hok
      cases hok
  case ends =>
    intro hlegible hasked
    rw [List.forall_mem_cons, ← scene_placeOf hspell h hgranted]
    constructor
    . intro hok
      rcases hrun : (moveTo atlas (.text l) asked).run n with ⟨e | result, n', src'⟩
      . rw [hrun] at hok
        cases hok
      . obtain ⟨p, rfl, hplace⟩ := hsought hrun
        obtain rfl := hplace.eq_placeOf hspell hjudges h hscene hmeant
        obtain ⟨found, hlocate, hpath⟩ := hplace.found
        obtain ⟨_, _, hfound, _⟩ := locate_eq_ok hlocate
        rw [← hfound]
        exact ⟨hplace.registered.strip_ne_empty, fun name hname => (hpath name hname).strip_ne_empty⟩
    . rintro ⟨hstrip, hpath⟩
      refine Fault.Gives.isOk (Act.Gives.fst (Q := fun _ => True) ?_)
      refine gives_move (hlegible.tells hf) ⟨l, rfl, hstrip⟩ hasked ?_
      rintro _ v rfl hv
      rw [h.resolve_given hspell hmeant hv]
      obtain ⟨id, hid, _⟩ := Atlas.gives_gate_of_shallow (hlegible (.text l)) hjudges
        (Atlas.sceneId scene)
      obtain rfl := h.eq_of_gate hspell hjudges hscene hid
      exact ⟨_, hid, .text _, hpath⟩

/-! ### Looks -/

/-- A look at a place shows a scene: the pointer moves there without a note in the history, and the
same look once more changes nothing. -/
structure Shows (f : Value ρ → Except Fault (Value ρ)) (atlas : Atlas ρ σ)
    (n : Navigation ρ × σ) (location : Value ρ) (scene : Record ρ) : Prop where
  declared : scene ∈ Atlas.scenes (infoOf f location)
  comes : ∀ result n' src', (current atlas).run n = (.ok result, n', src') →
    result = some (sceneOf f location scene) ∧ n'.pointer = some (placeOf location scene)
      ∧ n'.history = n.1.history ∧ Rests (current atlas) n' result
  ends : Legible f → ((current atlas).run n).1.isOk = true

theorem shows (hspell : ∀ x : ρ, Scalar.spell x ≠ "") (hf : Answers f atlas.location)
    (hjudges : atlas.Judges allowed) {n : Navigation ρ × σ} {l : String} (hl : Text.strip l ≠ "")
    (h : Atlas.Distinct (infoOf f (.text l))) {scene : Record ρ}
    (hscene : scene ∈ Atlas.scenes (infoOf f (.text l)))
    (hpointer : n.1.pointer = some (placeOf (.text l) scene))
    : Shows f atlas n (.text l) (Atlas.granted allowed (infoOf f (.text l)) scene) := by
  have hgranted : Atlas.granted allowed (infoOf f (.text l)) scene
      ∈ Atlas.scenes (infoOf f (.text l)) := Atlas.granted_mem hscene
  obtain ⟨n, src⟩ := n
  refine ⟨hgranted, ?comes, ?ends⟩
  case comes =>
    intro result n' src' hrun
    obtain ⟨v, seen, hgate, hseen, rfl, _, heq⟩ := current_eq_ok hf hpointer hrun
    obtain rfl := h.eq_of_gate hspell hjudges hscene hgate
    refine ⟨?_, by rw [heq]; rfl, by rw [heq], current_again hf hrun⟩
    rw [Atlas.eq_of_read hseen, ← scene_placeOf hspell h hgranted]
    rfl
  case ends =>
    intro hlegible
    obtain ⟨_, ⟨n₁, src₁⟩, happroach, _, rfl⟩ :=
      gives_approach (hlegible.tells hf) ⟨l, rfl, hl⟩ (n, src) trivial
    obtain ⟨_, _, _, heq⟩ := approach_eq_ok hf happroach
    rw [heq] at happroach
    obtain ⟨id, hid, _⟩ := Atlas.gives_gate_of_shallow (hlegible (.text l)) hjudges
      (Atlas.sceneId scene)
    obtain rfl := h.eq_of_gate hspell hjudges hscene hid
    rw [run_current hpointer happroach]
    unfold placeOf
    dsimp only
    rw [hid]
    dsimp only
    rw [Atlas.read_of_shallow (hlegible (.text l)) rfl]
    rfl

/-! ### The law -/

end Navigation

end Storyworld
