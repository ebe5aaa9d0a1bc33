import Storyworld.Proofs.Navigation
import Storyworld.Scalar.Exact

/-!
This module contains the validity of pointers: wherever the calls on a navigation have led, the
pointer and every entry of the history name a scene that their location has, as far as it has any.
-/

namespace Storyworld.Navigation

inductive Call (ρ : Type) where
  | moveTo (location scene : Value ρ)
  | apply (outcome : Value ρ)
  | current

section

variable {ρ σ : Type} [Scalar ρ]

def Call.after (atlas : Atlas ρ σ) (n : Navigation ρ × σ) : Call ρ → Navigation ρ × σ
  | .moveTo location scene => ((Navigation.moveTo atlas location scene).run n).2
  | .apply outcome => ((Navigation.apply atlas outcome).run n).2
  | .current => ((Navigation.current atlas).run n).2

def Call.scene : Call ρ → Value ρ
  | .moveTo _ scene => scene
  | .apply outcome => (destination .null outcome).2
  | .current => .null

/-- A call asks for a scene by this text, which is not empty. -/
def Call.Asks (call : Call ρ) (s : String) : Prop :=
  call.scene.isGiven ∧ call.scene.text? = .ok s ∧ s ≠ ""

/-- The location of a place has a name, and its scene is one of that location's. Where there are
none, it is none, or a text that was asked for. -/
structure Valid (f : Value ρ → Except Fault (Value ρ)) (asked : String → Prop) (p : Pointer ρ) :
    Prop where
  location_text : ∃ l, p.location = .text l ∧ Text.strip l ≠ ""
  declared : Atlas.scenes (infoOf f p.location) ≠ [] →
    ∃ scene ∈ Atlas.scenes (infoOf f p.location), p.scene = .text (Atlas.sceneId scene)
  literal : Atlas.scenes (infoOf f p.location) = [] →
    p.scene = .null ∨ ∃ s, asked s ∧ p.scene = .text s

/-- The pointer and all entries of the history are valid. -/
def AllValid (f : Value ρ → Except Fault (Value ρ)) (asked : String → Prop) (n : Navigation ρ) :
    Prop :=
  ∀ p, n.pointer = some p ∨ p ∈ n.history → Valid f asked p

variable {f : Value ρ → Except Fault (Value ρ)} {asked : String → Prop} {atlas : Atlas ρ σ}

theorem Valid.of_mem {p : Pointer ρ} {scene : Record ρ}
    (hlocation : ∃ l, p.location = .text l ∧ Text.strip l ≠ "")
    (hmem : scene ∈ Atlas.scenes (infoOf f p.location))
    (hscene : p.scene = .text (Atlas.sceneId scene)) : Valid f asked p where
  location_text := hlocation
  declared _ := ⟨scene, hmem, hscene⟩
  literal hnil := by
    rw [hnil] at hmem
    cases hmem

theorem Valid.gate {p : Pointer ρ} (h : Valid f asked p) {v : Value ρ}
    (hgate : atlas.gate (infoOf f p.location) p.scene = .ok v) : Valid f asked ⟨p.location, v⟩ := by
  rcases Atlas.gate_cases hgate with rfl | ⟨scene, hmem, hv⟩
  . exact h
  . exact .of_mem h.location_text hmem hv

theorem Valid.resolve {l : String} (hl : Text.strip l ≠ "") {scene v : Value ρ}
    (hv : scene.given? = .ok v)
    (hasked : Atlas.scenes (infoOf f (.text l)) = [] → scene.isGiven →
      ∀ s, scene.text? = .ok s → s ≠ "" → asked s)
    : Valid f asked ⟨.text l, Atlas.resolve (infoOf f (.text l)) v⟩ := by
  rcases Atlas.resolve_cases (infoOf f (.text l)) v with
    ⟨record, hmem, hresolve⟩ | ⟨hnil, hresolve | ⟨hgiven, hresolve⟩⟩
  . exact .of_mem ⟨l, rfl, hl⟩ hmem hresolve
  . exact ⟨⟨l, rfl, hl⟩, fun hne => absurd hnil hne, fun _ => .inl hresolve⟩
  . refine ⟨⟨l, rfl, hl⟩, fun hne => absurd hnil hne, fun _ => .inr ?_⟩
    unfold Value.given? at hv
    split at hv
    next hscene =>
      cases htext : scene.text? with
      | error e =>
        rw [htext] at hv
        cases hv
      | ok s =>
        rw [htext] at hv
        obtain rfl : .text s = v := Except.ok.inj hv
        rw [Value.display_text] at hresolve
        have hne : s ≠ "" := Value.isGiven_text.mp hgiven
        exact ⟨s, hasked hnil hscene s htext hne, hresolve⟩
    next =>
      obtain rfl : .null = v := Except.ok.inj hv
      cases hgiven

theorem AllValid.arrive {n : Navigation ρ} (h : AllValid f asked n) {p : Pointer ρ}
    (hp : Valid f asked p) : AllValid f asked (arrive p n) := by
  intro q hq
  rcases hq with hq | hq
  . obtain rfl : p = q := Option.some.inj hq
    exact hp
  . rcases mem_extend hq with hq | rfl
    . exact h q (.inr hq)
    . exact hp

theorem AllValid.moveTo (hf : Answers f atlas.location) {location scene : Value ρ}
    (hasked : ∀ l, location.text? = .ok l → Atlas.scenes (infoOf f (.text l)) = [] →
      scene.isGiven → ∀ s, scene.text? = .ok s → s ≠ "" → asked s)
    {n : Navigation ρ} (h : AllValid f asked n) (src : σ)
    : AllValid f asked ((Navigation.moveTo atlas location scene).run (n, src)).2.1 := by
  rcases moveTo_cases hf location scene n src with
    ⟨result, src', hrun, _⟩ | ⟨e, r, src', _, hrun⟩ | ⟨p, r, src', harrival, _, hrun⟩
  . rw [hrun]
    exact h
  . rw [hrun]
    exact h
  . rw [hrun]
    apply AllValid.arrive h
    obtain ⟨l, hl, hlocation, hne⟩ := harrival.location_eq
    obtain ⟨v, hv, hgate⟩ := harrival.scene_eq
    have hresolve : Valid f asked ⟨p.location, Atlas.resolve (infoOf f p.location) v⟩ := by
      rw [hlocation]
      apply Valid.resolve hne hv
      exact hasked l hl
    exact hresolve.gate hgate

theorem AllValid.after (hf : Answers f atlas.location) {call : Call ρ}
    (hcall : ∀ s, call.Asks s → asked s) {n : Navigation ρ × σ} (h : AllValid f asked n.1)
    : AllValid f asked (call.after atlas n).1 := by
  obtain ⟨n, src⟩ := n
  cases call with
  | moveTo location scene =>
    exact h.moveTo hf (fun _ _ _ hgiven s htext hne => hcall s ⟨hgiven, htext, hne⟩) src
  | apply outcome =>
    unfold Call.after
    dsimp only
    obtain ⟨r, src', _, ⟨result, hrun⟩ | ⟨location, scene, hdirected, hrun⟩⟩ :=
      apply_cases hf outcome n src
    . rw [hrun]
      exact h
    . rw [hrun]
      apply AllValid.moveTo hf
      . intro l hl hnil hasked s hs hne
        cases hdirected with
        | entrance name => cases hasked
        | named name scene hgiven htext =>
          rw [Value.text?_text, Except.ok.injEq] at hs
          exact hcall s ⟨hgiven, hs ▸ htext, hne⟩
        | here p name hpointer hfound =>
          -- the location of the pointer has that scene, so it is not without scenes
          obtain ⟨l', hl', _⟩ := (h p (.inl hpointer)).location_text
          rw [hl', Value.text?_text, Except.ok.injEq] at hl
          subst hl
          rw [← hl'] at hnil
          exact absurd hnil (Atlas.find?_isSome_ne_nil hfound)
      . exact h
  | current =>
    unfold Call.after
    dsimp only
    rcases current_cases hf n src with
      ⟨_, hrun⟩ | ⟨p, r, src', hpointer, _, ⟨e, hrun⟩ | ⟨v, hgate, hrun⟩⟩
    . rw [hrun]
      exact h
    . rw [hrun]
      exact h
    . rw [hrun]
      intro q hq
      rcases hq with hq | hq
      . obtain rfl : ⟨p.location, v⟩ = q := Option.some.inj hq
        exact (h p (.inl hpointer)).gate hgate
      . exact h q (.inr hq)

def afterAll (source : Value ρ → Act σ (Value ρ)) (n : Navigation ρ × σ)
    (calls : List (Option (Record ρ → Except Fault Bool) × Call ρ)) : Navigation ρ × σ :=
  calls.foldl (fun n (allows, call) => call.after ⟨source, allows⟩ n) n

theorem AllValid.afterAll {source : Value ρ → Act σ (Value ρ)} (hf : Answers f source)
    (calls : List (Option (Record ρ → Except Fault Bool) × Call ρ))
    (hcalls : ∀ c ∈ calls, ∀ s, c.2.Asks s → asked s) {n : Navigation ρ × σ}
    (h : AllValid f asked n.1) : AllValid f asked (afterAll source n calls).1 := by
  induction calls generalizing n with
  | nil => exact h
  | cons c calls ih =>
    obtain ⟨allows, call⟩ := c
    apply ih
    . intro c hc
      exact hcalls c (List.mem_cons_of_mem _ hc)
    . refine AllValid.after ?_ ?_ h
      . exact hf
      . exact hcalls (allows, call) List.mem_cons_self

/-- However a navigation that starts nowhere is called, its pointer and every entry of its history
name a scene of their location. Where it has none, they name none, or one that a call asked for. -/
theorem pointer_valid {source : Value ρ → Act σ (Value ρ)} (hf : Answers f source)
    (registry : Registry ρ) (src : σ)
    (calls : List (Option (Record ρ → Except Fault Bool) × Call ρ))
    {p : Pointer ρ} (hp : (afterAll source ({ registry }, src) calls).1.pointer = some p
      ∨ p ∈ (afterAll source ({ registry }, src) calls).1.history)
    : (Atlas.scenes (infoOf f p.location) ≠ [] →
        ∃ scene ∈ Atlas.scenes (infoOf f p.location), p.scene = .text (Atlas.sceneId scene))
      ∧ (Atlas.scenes (infoOf f p.location) = [] →
        p.scene = .null ∨ ∃ c ∈ calls, c.2.scene.isGiven ∧ p.scene = .text c.2.scene.display) := by
  have hnone : AllValid f (fun s => ∃ c ∈ calls, c.2.Asks s) ({ registry } : Navigation ρ) := by
    rintro q (hq | hq)
    . cases hq
    . cases hq
  have hvalid := hnone.afterAll (n := ({ registry }, src)) hf calls fun c hc s hs => ⟨c, hc, hs⟩
  obtain ⟨_, hdeclared, hliteral⟩ := hvalid p hp
  refine ⟨hdeclared, fun hnil => (hliteral hnil).imp_right ?_⟩
  rintro ⟨s, ⟨c, hc, hgiven, htext, _⟩, hscene⟩
  refine ⟨c, hc, hgiven, ?_⟩
  rw [hscene, Value.display_of_text? htext]

end

theorem pointer_valid_inn
    : let inn : Record Rat :=
      [("scenes", .list [.object [("id", .text "hall")], .object [("id", .text "cellar")]])]
    let calls : List (Option (Record Rat → Except Fault Bool) × Call Rat) :=
      [(none, .moveTo (.text "inn") (.text "attic")),
        (some fun scene => .ok (Atlas.sceneId scene == "cellar"), .current)]
    let n := (afterAll (fun _ => return .object inn) ({}, ()) calls).1
    ∃ p, n.pointer = some p
      ∧ ∃ scene ∈ Atlas.scenes inn, p.scene = .text (Atlas.sceneId scene) := by
  intro inn calls n
  have hstands : n.pointer.isSome = true := by decide +kernel
  have hscenes : (Atlas.scenes inn).isEmpty = false := by decide +kernel
  obtain ⟨p, hp⟩ := Option.isSome_iff_exists.mp hstands
  have hanswers : Answers (fun _ => .ok (.object inn))
      (fun _ => return .object inn : Value Rat → Act Unit (Value Rat)) := fun _ _ => rfl
  obtain ⟨hdeclared, _⟩ := pointer_valid hanswers [] () calls (.inl hp)
  refine ⟨p, hp, hdeclared ?_⟩
  intro hnil
  change Atlas.scenes inn = [] at hnil
  rw [hnil] at hscenes
  cases hscenes

end Storyworld.Navigation
