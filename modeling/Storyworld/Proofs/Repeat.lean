import Storyworld.Proofs.Gate
import Storyworld.Proofs.History

/-!
This module contains calls on a navigation that are made again. Over a source whose answers do not
change, and while the same scenes are allowed, a call that has ended well ends so again and changes
nothing more.
-/

namespace Storyworld.Navigation

variable {ρ σ : Type} [Scalar ρ] {f : Value ρ → Except Fault (Value ρ)} {atlas : Atlas ρ σ}
  {n n' : Navigation ρ} {src src' : σ}

/-- A computation ends with this value here, and leaves the navigation as it is. -/
def Rests {α : Type} (act : Act (Navigation ρ × σ) α) (n : Navigation ρ) (a : α) : Prop :=
  ∀ src, ∃ src', act.run (n, src) = (.ok a, n, src')

section

omit [Scalar ρ]

variable {α β : Type} {a : α} {b : β}

theorem rests_lift {x : Except Fault α} (h : x = .ok a)
    : Rests (Act.lift x : Act (Navigation ρ × σ) α) n a := by
  intro src
  exact ⟨src, by rw [Act.run_lift, h]⟩

theorem rests_bind {act : Act (Navigation ρ × σ) α} {g : α → Act (Navigation ρ × σ) β}
    (ha : Rests act n a) (hg : Rests (g a) n b) : Rests (act >>= g) n b := by
  intro src
  obtain ⟨src₁, hact⟩ := ha src
  obtain ⟨src₂, hrest⟩ := hg src₁
  exact ⟨src₂, by rw [Act.run_bind, hact]; exact hrest⟩

end

/-! ### Moves -/

/-- A location stands in a registry under a key that it has. -/
def Registered (r : Registry ρ) (location : Value ρ) : Prop :=
  ∃ key, location.key? = .ok key ∧ key ≠ "" ∧ Table.has r key = true

theorem Registered.strip_ne_empty {r : Registry ρ} {l : String}
    (h : Registered r (.text l : Value ρ)) : Text.strip l ≠ "" := by
  obtain ⟨key, hkey, hne, _⟩ := h
  rw [Value.key?_text, Except.ok.injEq] at hkey
  exact hkey ▸ hne

theorem rests_approach (hf : Answers f atlas.location) {location : Value ρ}
    (h : Registered n.registry location)
    : Rests (approach atlas location) n (infoOf f location) := by
  obtain ⟨key, hkey, hne, hhas⟩ := h
  intro src
  exact ⟨_, run_approach_of_has hf hkey hne hhas src⟩

theorem rests_approachAll (hf : Answers f atlas.location) {ids : List String}
    (h : ∀ id ∈ ids, Registered n.registry (.text id : Value ρ))
    : Rests (approachAll atlas ids) n () := by
  induction ids with
  | nil => exact fun src => ⟨src, rfl⟩
  | cons id ids ih =>
    rw [List.forall_mem_cons] at h
    unfold approachAll
    exact rests_bind (rests_approach hf h.1) (ih h.2)

theorem approach_eq_ok (hf : Answers f atlas.location) {location : Value ρ} {info : Record ρ}
    (h : (approach atlas location).run (n, src) = (.ok info, n', src'))
    : info = infoOf f location ∧ Registered n'.registry location
      ∧ n.registry.Extends n'.registry (fun _ => True) ∧ n' = { n with registry := n'.registry } := by
  obtain ⟨src₁, ⟨e, hrun⟩ | ⟨key, r, hrun, hkey, hne, hextends, hhas⟩⟩ :=
    approach_cases hf location n src
  . rw [hrun] at h
    cases h
  . rw [hrun] at h
    cases h
    exact ⟨rfl, ⟨key, hkey, hne, hhas⟩, hextends.mono fun _ _ => trivial, rfl⟩

theorem approachAll_eq_ok (hf : Answers f atlas.location) {ids : List String}
    (h : (approachAll atlas ids).run (n, src) = (.ok (), n', src'))
    : (∀ id ∈ ids, Registered n'.registry (.text id : Value ρ))
      ∧ n.registry.Extends n'.registry (fun _ => True) ∧ n' = { n with registry := n'.registry } := by
  induction ids generalizing n src with
  | nil =>
    cases h
    exact ⟨by simp, .refl _, rfl⟩
  | cons id ids ih =>
    obtain ⟨info, ⟨n₁, src₁⟩, hfirst, hrest⟩ := Act.run_bind_eq_ok.mp h
    obtain ⟨_, ⟨key, hkey, hne, hhas⟩, hextends, heq⟩ := approach_eq_ok hf hfirst
    obtain ⟨hall, hextends', heq'⟩ := ih hrest
    refine ⟨?_, (hextends.trans hextends').mono fun _ _ => trivial, ?_⟩
    . rw [List.forall_mem_cons]
      exact ⟨⟨key, hkey, hne, hextends'.has hhas⟩, hall⟩
    . rw [heq', heq]

/-- A request for a scene of a location leads to this place, and all that is registered on the way
stands in this registry. -/
structure Sought (f : Value ρ → Except Fault (Value ρ)) (atlas : Atlas ρ σ) (l : String)
    (scene : Value ρ) (r : Registry ρ) (p : Pointer ρ) : Prop where
  registered : Registered r (.text l : Value ρ)
  found : ∃ found, locate atlas (infoOf f (.text l)) (.text l) scene = .ok (p, found)
    ∧ ∀ id ∈ found.path, Registered r (.text id : Value ρ)

theorem Sought.location_eq {l : String} {scene : Value ρ} {r : Registry ρ} {p : Pointer ρ}
    (h : Sought f atlas l scene r p) : p.location = .text l := by
  obtain ⟨found, hlocate, _⟩ := h.found
  exact (locate_eq_ok hlocate).1

theorem Sought.rests (hf : Answers f atlas.location) {location scene : Value ρ} {l : String}
    (hl : location.text? = .ok l) {p : Pointer ρ} (h : Sought f atlas l scene n.registry p)
    : Rests (seek atlas location scene) n p := by
  obtain ⟨found, hlocate, hpath⟩ := h.found
  rw [seek_eq]
  refine rests_bind (rests_lift hl) ?_
  refine rests_bind (rests_approach hf h.registered) ?_
  refine rests_bind (rests_lift hlocate) ?_
  exact rests_bind (rests_approachAll hf hpath) fun src => ⟨src, rfl⟩

theorem seek_eq_ok (hf : Answers f atlas.location) {location scene : Value ρ} {p : Pointer ρ}
    (h : (seek atlas location scene).run (n, src) = (.ok p, n', src'))
    : ∃ l, location.text? = .ok l ∧ Sought f atlas l scene n'.registry p
      ∧ n' = { n with registry := n'.registry } := by
  rw [seek_eq] at h
  obtain ⟨l, _, hl, h⟩ := Act.run_bind_eq_ok.mp h
  cases congrArg Prod.snd hl
  obtain ⟨info, ⟨n₁, src₁⟩, happroach, h⟩ := Act.run_bind_eq_ok.mp h
  obtain ⟨rfl, ⟨key, hkey, hne, hhas⟩, hextends, heq⟩ := approach_eq_ok hf happroach
  obtain ⟨⟨q, found⟩, _, hlocate, h⟩ := Act.run_bind_eq_ok.mp h
  cases congrArg Prod.snd hlocate
  obtain ⟨_, ⟨n₂, src₂⟩, hpath, h⟩ := Act.run_bind_eq_ok.mp h
  obtain ⟨hall, hextends', heq'⟩ := approachAll_eq_ok hf hpath
  cases h
  refine ⟨l, congrArg Prod.fst hl, ⟨⟨key, hkey, hne, hextends'.has hhas⟩, found, ?_, hall⟩, ?_⟩
  . exact congrArg Prod.fst hlocate
  . rw [heq', heq]

/-- A move that has ended well has come to a place, and what it has registered stands there. -/
theorem moveTo_eq_ok (hf : Answers f atlas.location) {location scene : Value ρ}
    (hgiven : location.isGiven = true) {result : Option (Pointer ρ)}
    (h : (moveTo atlas location scene).run (n, src) = (.ok result, n', src'))
    : ∃ l p, location.text? = .ok l ∧ result = some p ∧ Spelled p
      ∧ Sought f atlas l scene n'.registry p ∧ n'.pointer = some p
      ∧ n'.history.getLast? = some p := by
  rw [run_moveTo hgiven] at h
  rcases hrun : (seek atlas location scene).run (n, src) with ⟨e | p, n₁, src₁⟩
  . rw [hrun] at h
    cases h
  . rw [hrun] at h
    cases h
    obtain ⟨l, hl, hsought, _⟩ := seek_eq_ok hf hrun
    have hp := spelled_of_seek hrun
    exact ⟨l, p, hl, rfl, hp, hsought, rfl, getLast?_extend hp _⟩

theorem arrive_self {p : Pointer ρ} (hp : Spelled p) (hpointer : n.pointer = some p)
    (hlast : n.history.getLast? = some p) : arrive p n = n := by
  unfold arrive
  rcases extend_cases hp n.history with ⟨_, heq⟩ | ⟨hne, _⟩
  . rw [heq, ← hpointer]
  . exact absurd hlast hne

theorem rests_moveTo (hf : Answers f atlas.location) {location scene : Value ρ} {l : String}
    (hgiven : location.isGiven = true) (hl : location.text? = .ok l) {p : Pointer ρ}
    (hp : Spelled p) (h : Sought f atlas l scene n.registry p) (hpointer : n.pointer = some p)
    (hlast : n.history.getLast? = some p) : Rests (moveTo atlas location scene) n (some p) := by
  intro src
  obtain ⟨src', hseek⟩ := h.rests hf hl src
  refine ⟨src', ?_⟩
  rw [run_moveTo hgiven, hseek]
  dsimp only
  rw [arrive_self hp hpointer hlast]

theorem moveTo_again (hf : Answers f atlas.location) {location scene : Value ρ}
    {result : Option (Pointer ρ)}
    (h : (moveTo atlas location scene).run (n, src) = (.ok result, n', src'))
    : Rests (moveTo atlas location scene) n' result := by
  by_cases hgiven : location.isGiven = true
  . obtain ⟨l, p, hl, rfl, hp, hsought, hpointer, hlast⟩ := moveTo_eq_ok hf hgiven h
    exact rests_moveTo hf hgiven hl hp hsought hpointer hlast
  . have hstays (src : σ) :
        (moveTo atlas location scene).run (n, src) = (.ok n.pointer, n, src) := by
      unfold moveTo
      rw [if_neg hgiven]
      rfl
    rw [hstays] at h
    cases h
    exact fun src => ⟨src, hstays src⟩

/-! ### Looks -/

/-- A look that has ended well shows the scene that the time has put in its place, and the location
of the player is registered. -/
theorem current_eq_ok (hf : Answers f atlas.location) {p : Pointer ρ}
    (hpointer : n.pointer = some p) {result : Option (Scene ρ)}
    (h : (current atlas).run (n, src) = (.ok result, n', src'))
    : ∃ v scene, atlas.gate (infoOf f p.location) p.scene = .ok v
      ∧ Atlas.read (infoOf f p.location) ⟨p.location, v⟩ = .ok scene ∧ result = some scene
      ∧ Registered n'.registry p.location
      ∧ n' = { n with registry := n'.registry, pointer := some ⟨p.location, v⟩ } := by
  obtain ⟨src₁, ⟨e, happroach⟩ | ⟨key, r, happroach, hkey, hne, _, hhas⟩⟩ :=
    approach_cases hf p.location n src
  . unfold current at h
    simp only [Act.run_bind, Act.run_get, hpointer, happroach] at h
    cases h
  . rw [run_current hpointer happroach] at h
    cases hgate : atlas.gate (infoOf f p.location) p.scene with
    | error e =>
      rw [hgate] at h
      cases h
    | ok v =>
      rw [hgate] at h
      dsimp only at h
      rw [Prod.mk.injEq, Prod.mk.injEq] at h
      obtain ⟨hread, rfl, _⟩ := h
      obtain ⟨scene, hscene, rfl⟩ := Fault.map_eq_ok.mp hread
      exact ⟨v, scene, rfl, hscene, rfl, ⟨key, hkey, hne, hhas⟩, rfl⟩

theorem current_again (hf : Answers f atlas.location) {result : Option (Scene ρ)}
    (h : (current atlas).run (n, src) = (.ok result, n', src'))
    : Rests (current atlas) n' result := by
  rcases Option.eq_none_or_eq_some n.pointer with hpointer | ⟨p, hpointer⟩
  . rw [run_current_none hpointer] at h
    cases h
    exact fun src => ⟨src, run_current_none hpointer src⟩
  . obtain ⟨v, scene, hgate, hscene, rfl, ⟨key, hkey, hne, hhas⟩, heq⟩ :=
      current_eq_ok hf hpointer h
    have hcomes : n'.pointer = some ⟨p.location, v⟩ := by rw [heq]
    -- the scene that the time has put in place of another one stays
    have hstays := Atlas.gate_gate hgate (Atlas.search_of_read hscene)
    intro src
    have hagain := run_current hcomes (run_approach_of_has hf hkey hne hhas src)
    dsimp only at hagain
    rw [hstays] at hagain
    dsimp only at hagain
    rw [hscene, ← hcomes] at hagain
    exact ⟨_, hagain⟩

/-! ### Outcomes -/

/-- A jump to a location of this name, without a scene of it. -/
def enter (atlas : Atlas ρ σ) (name : String) : Act (Navigation ρ × σ) (Option (Pointer ρ)) := do
  match (← get).1.pointer with
  | none => moveTo atlas (.text name) .null
  | some p =>
    if p.location.same (.text name) then return some p
    if !(← Act.onSecond (hasScenes atlas name)) then
      if ← isLocalScene atlas p name then
        return ← moveTo atlas p.location (.text name)
    moveTo atlas (.text name) .null

/-- A jump to a location and a scene of it, as far as they are given. -/
def follow (atlas : Atlas ρ σ) (location scene : Value ρ) :
    Act (Navigation ρ × σ) (Option (Pointer ρ)) := do
  if !location.isGiven then return (← get).1.pointer
  let name ← Act.lift location.text?
  if scene.isGiven then moveTo atlas (.text name) (.text (← Act.lift scene.text?))
  else enter atlas name

def here (n : Navigation ρ) : Value ρ := (n.pointer.map Pointer.location).getD .null

theorem run_apply (outcome : Value ρ) (n : Navigation ρ) (src : σ)
    : (apply atlas outcome).run (n, src)
      = (follow atlas (destination (here n) outcome).1 (destination (here n) outcome).2).run
          (n, src) := by
  obtain ⟨pointer, history, registry⟩ := n
  unfold apply follow enter here
  simp only [Act.run_bind, Act.run_get]
  rcases destination ((pointer.map Pointer.location).getD .null) outcome with ⟨location, scene⟩
  dsimp only
  cases location.isGiven with
  | false => rfl
  | true =>
    simp only [Bool.not_true, Bool.false_eq_true, if_false, Act.run_bind, Act.run_lift]
    cases location.text? with
    | error e => rfl
    | ok name =>
      cases scene.isGiven with
      | true => rfl
      | false =>
        cases pointer with
        | none => rfl
        | some p => rfl

/-- The place that an outcome leads to is named by it, or is the one that the player is at. -/
theorem destination_fst (outcome : Value ρ)
    : (∀ here, (destination here outcome).1 = here)
      ∨ ∃ location, ∀ here, (destination here outcome).1 = location := by
  have hfirst (v w : Value ρ) : (∀ here, firstGiven [v, w, here] = here)
      ∨ ∃ location, ∀ here, firstGiven [v, w, here] = location := by
    unfold firstGiven firstGiven firstGiven Value.orElse
    by_cases hv : v.isGiven = true
    . exact .inr ⟨v, by simp [hv]⟩
    . by_cases hw : w.isGiven = true
      . exact .inr ⟨w, by simp [hv, hw]⟩
      . exact .inl (by simp [hv, hw])
  cases outcome with
  | object r =>
    unfold destination
    dsimp only
    split
    . exact hfirst _ _
    . exact hfirst _ _
  | text s => exact .inr ⟨(destination .null (.text s)).1, fun _ => rfl⟩
  | _ => exact .inr ⟨_, fun _ => rfl⟩

theorem isLocalScene_eq_ok (hf : Answers f atlas.location) {p : Pointer ρ} {name : String}
    {isLocal : Bool} (h : (isLocalScene atlas p name).run (n, src) = (.ok isLocal, n', src'))
    : Registered n'.registry p.location ∧ n' = { n with registry := n'.registry }
      ∧ ∃ found, Atlas.search (infoOf f p.location) (.text name) = .ok found
        ∧ found.isSome = isLocal := by
  unfold isLocalScene at h
  obtain ⟨info, ⟨n₁, src₁⟩, happroach, h⟩ := Act.run_bind_eq_ok.mp h
  obtain ⟨rfl, hregistered, _, heq⟩ := approach_eq_ok hf happroach
  obtain ⟨found, _, hsearch, h⟩ := Act.run_bind_eq_ok.mp h
  cases congrArg Prod.snd hsearch
  cases h
  exact ⟨hregistered, heq, found, congrArg Prod.fst hsearch, rfl⟩

theorem rests_isLocalScene (hf : Answers f atlas.location) {p : Pointer ρ} {name : String}
    (hregistered : Registered n.registry p.location) {found : Option (Record ρ)}
    (hsearch : Atlas.search (infoOf f p.location) (.text name) = .ok found)
    : Rests (isLocalScene atlas p name) n found.isSome := by
  unfold isLocalScene
  refine rests_bind (rests_approach hf hregistered) ?_
  exact rests_bind (rests_lift hsearch) fun src => ⟨src, rfl⟩

theorem rests_enter_same {name : String} {p : Pointer ρ} (hpointer : n.pointer = some p)
    (hlocation : p.location = .text name) : Rests (enter atlas name) n (some p) := by
  intro src
  refine ⟨src, ?_⟩
  unfold enter
  simp only [Act.run_bind, Act.run_get, hpointer, hlocation, Value.same_text_iff, if_true,
    Act.run_pure]

/-- A location without scenes whose name is the id of a scene here means that scene, also once the
player has come to it. -/
theorem rests_enter_local (hf : Answers f atlas.location) {name l : String} {p : Pointer ρ}
    {found : Option (Record ρ)} (hscenes : Atlas.scenes (infoOf f (.text name)) = [])
    (hsearch : Atlas.search (infoOf f (.text l)) (.text name) = .ok found)
    (hfound : found.isSome = true) (hp : Spelled p) (h : Sought f atlas l (.text name) n.registry p)
    (hpointer : n.pointer = some p) (hlast : n.history.getLast? = some p)
    : Rests (enter atlas name) n (some p) := by
  have hlocation := h.location_eq
  by_cases hsame : l = name
  . subst hsame
    exact rests_enter_same hpointer hlocation
  have hgiven : (Value.text l : Value ρ).isGiven = true :=
    Value.isGiven_text.mpr (Text.ne_empty_of_strip h.registered.strip_ne_empty)
  have hlocal := rests_isLocalScene hf (p := p) (hlocation ▸ h.registered) (hlocation ▸ hsearch)
  have hmove := rests_moveTo hf hgiven (Value.text?_text l) hp h hpointer hlast
  intro src
  obtain ⟨src₁, hfirst⟩ := hlocal ((atlas.location (.text name)).run src).2
  obtain ⟨src₂, hsecond⟩ := hmove src₁
  refine ⟨src₂, ?_⟩
  have hdiffer : ¬ (Value.text l : Value ρ).same (.text name) = true := by
    rw [Value.same_text_iff, Value.text.injEq]
    exact hsame
  unfold enter
  simp only [Act.run_bind, Act.run_get, hpointer, hlocation, hdiffer, Bool.false_eq_true, if_false,
    Act.run_onSecond, run_hasScenes hf, hscenes, List.isEmpty_nil, Bool.not_true, Bool.not_false, if_true, hfirst,
    hfound, hsecond]

/-- A location is at the name of a jump, or it is the one that the player was at before. -/
def Toward (n : Navigation ρ) (name : String) (location : Value ρ) : Prop :=
  location = .text name
    ∨ ∃ p l, n.pointer = some p ∧ p.location.text? = .ok l ∧ location = .text l

theorem rests_enter_of_moveTo (hf : Answers f atlas.location) {name : String} (hname : name ≠ "")
    {result : Option (Pointer ρ)}
    (h : (moveTo atlas (.text name) .null).run (n, src) = (.ok result, n', src'))
    : Rests (enter atlas name) n' result
      ∧ ∃ p, result = some p ∧ n'.pointer = some p ∧ p.location = .text name := by
  obtain ⟨l, p, hl, rfl, _, hsought, hpointer, _⟩ :=
    moveTo_eq_ok hf (Value.isGiven_text.mpr hname) h
  have hlocation : p.location = .text name := by
    rw [Value.text?_text, Except.ok.injEq] at hl
    rw [hsought.location_eq, hl]
  exact ⟨rests_enter_same hpointer hlocation, p, rfl, hpointer, hlocation⟩

theorem enter_again (hf : Answers f atlas.location) {name : String} (hname : name ≠ "")
    (hhere : ∀ p l, n.pointer = some p → p.location.text? = .ok l →
      infoOf f p.location = infoOf f (.text l))
    {result : Option (Pointer ρ)}
    (h : (enter atlas name).run (n, src) = (.ok result, n', src'))
    : Rests (enter atlas name) n' result
      ∧ ∃ p, result = some p ∧ n'.pointer = some p ∧ Toward n name p.location := by
  have hmoved {m : Navigation ρ} {s : σ}
      (h : (moveTo atlas (.text name) .null).run (m, s) = (.ok result, n', src')) :
      Rests (enter atlas name) n' result
        ∧ ∃ p, result = some p ∧ n'.pointer = some p ∧ Toward n name p.location := by
    obtain ⟨hrests, p, hresult, hpointer, hlocation⟩ := rests_enter_of_moveTo hf hname h
    exact ⟨hrests, p, hresult, hpointer, .inl hlocation⟩
  unfold enter at h
  simp only [Act.run_bind, Act.run_get] at h
  rcases Option.eq_none_or_eq_some n.pointer with hpointer | ⟨p, hpointer⟩
  . rw [hpointer] at h
    exact hmoved h
  rw [hpointer] at h
  dsimp only at h
  by_cases hsame : p.location.same (.text name) = true
  . rw [if_pos hsame] at h
    cases h
    have hlocation := Value.same_text_iff.mp hsame
    exact ⟨rests_enter_same hpointer hlocation, p, rfl, hpointer, .inl hlocation⟩
  rw [if_neg hsame, Act.run_bind, Act.run_onSecond, run_hasScenes hf] at h
  dsimp only at h
  by_cases hscenes : Atlas.scenes (infoOf f (.text name)) = []
  . simp only [hscenes, List.isEmpty_nil, Bool.not_true, Bool.not_false, if_true] at h
    obtain ⟨isLocal, ⟨n₁, src₁⟩, hlocal, h⟩ := Act.run_bind_eq_ok.mp h
    obtain ⟨⟨key, hkey, hne, _⟩, _, found, hsearch, rfl⟩ := isLocalScene_eq_ok hf hlocal
    cases hfound : found.isSome with
    | false =>
      rw [hfound] at h
      exact hmoved h
    | true =>
      rw [hfound, if_pos rfl] at h
      have hgiven : p.location.isGiven = true := by
        obtain ⟨_, _, hkey⟩ := Fault.bind_eq_ok.mp hkey
        exact Value.isGiven_of_key (Except.ok.inj hkey ▸ hne)
      obtain ⟨l, q, hl, rfl, hq, hsought, hpointer', hlast⟩ := moveTo_eq_ok hf hgiven h
      rw [hhere p l hpointer hl] at hsearch
      exact ⟨rests_enter_local hf hscenes hsearch hfound hq hsought hpointer' hlast, q, rfl,
        hpointer', .inr ⟨p, l, hpointer, hl, hsought.location_eq⟩⟩
  . rw [List.isEmpty_eq_false_iff.mpr hscenes] at h
    exact hmoved h

theorem follow_text {location scene : Value ρ} {name : String} (hgiven : location.isGiven = true)
    (htext : location.text? = .ok name) (hname : name ≠ "")
    : follow atlas location scene = follow atlas (.text name) scene := by
  unfold follow
  rw [hgiven, htext, Value.isGiven_text.mpr hname, Value.text?_text]

theorem follow_again (hspell : ∀ x : ρ, Scalar.spell x ≠ "") (hf : Answers f atlas.location)
    {location scene : Value ρ} (hgiven : location.isGiven = true)
    (hhere : ∀ p l, n.pointer = some p → p.location.text? = .ok l →
      infoOf f p.location = infoOf f (.text l))
    {result : Option (Pointer ρ)}
    (h : (follow atlas location scene).run (n, src) = (.ok result, n', src'))
    : ∃ name, location.text? = .ok name ∧ Rests (follow atlas (.text name) scene) n' result
      ∧ ∃ p, result = some p ∧ n'.pointer = some p ∧ Toward n name p.location := by
  unfold follow at h
  simp only [hgiven, Bool.not_true, Bool.false_eq_true, if_false] at h
  obtain ⟨name, _, htext, h⟩ := Act.run_bind_eq_ok.mp h
  cases congrArg Prod.snd htext
  replace htext : location.text? = .ok name := congrArg Prod.fst htext
  have hname : name ≠ "" := Value.display_of_text? htext ▸ Value.display_ne_empty hspell hgiven
  refine ⟨name, htext, ?_⟩
  unfold follow
  simp only [Value.isGiven_text.mpr hname, Bool.not_true, Bool.false_eq_true, if_false]
  cases hasked : scene.isGiven with
  | false =>
    rw [hasked] at h
    obtain ⟨hrests, hplace⟩ := enter_again hf hname hhere h
    exact ⟨rests_bind (rests_lift (Value.text?_text name)) hrests, hplace⟩
  | true =>
    rw [hasked, if_pos rfl] at h
    obtain ⟨id, _, hid, h⟩ := Act.run_bind_eq_ok.mp h
    cases congrArg Prod.snd hid
    replace hid : scene.text? = .ok id := congrArg Prod.fst hid
    obtain ⟨l, p, hl, hresult, _, hsought, hpointer, _⟩ :=
      moveTo_eq_ok hf (Value.isGiven_text.mpr hname) h
    rw [Value.text?_text, Except.ok.injEq] at hl
    refine ⟨?_, p, hresult, hpointer, .inl (by rw [hsought.location_eq, hl])⟩
    refine rests_bind (rests_lift (Value.text?_text name)) ?_
    exact rests_bind (rests_lift hid) (moveTo_again hf h)

/-- An outcome that has been applied, and is applied again while the same scenes are allowed, leads
to the same place and changes nothing more. What is known of the location of the player depends on
the text of its id alone. -/
theorem apply_again (hspell : ∀ x : ρ, Scalar.spell x ≠ "") (hf : Answers f atlas.location)
    (outcome : Value ρ)
    (hhere : ∀ p l, n.pointer = some p → p.location.text? = .ok l →
      infoOf f p.location = infoOf f (.text l))
    {result : Option (Pointer ρ)}
    (h : (apply atlas outcome).run (n, src) = (.ok result, n', src'))
    : result = n'.pointer ∧ Rests (apply atlas outcome) n' result := by
  rw [run_apply] at h
  cases hgiven : (destination (here n) outcome).1.isGiven with
  | false =>
    have hstays (s : σ) : (apply atlas outcome).run (n, s) = (.ok n.pointer, n, s) := by
      rw [run_apply]
      unfold follow
      rw [hgiven]
      rfl
    rw [← run_apply, hstays] at h
    cases h
    exact ⟨rfl, fun s => ⟨s, hstays s⟩⟩
  | true =>
    obtain ⟨name, htext, hrests, p, hresult, hpointer, htoward⟩ :=
      follow_again hspell hf hgiven hhere h
    refine ⟨by rw [hresult, hpointer], fun s => ?_⟩
    -- where the outcome leads to the place of the player, that is of the same name now
    have hsame : follow atlas (destination (here n') outcome).1 (destination (here n') outcome).2
        = follow atlas (.text name) (destination (here n) outcome).2 := by
      rw [destination_snd (here n'), ← destination_snd (here n)]
      rcases destination_fst outcome with hfst | ⟨location, hfst⟩
      . rw [hfst] at hgiven htext
        rw [hfst]
        have hhere' : here n' = .text name := by
          unfold here
          rw [hpointer]
          rcases htoward with hlocation | ⟨q, l, hq, hl, hlocation⟩
          . exact hlocation
          . unfold here at htext
            rw [hq] at htext
            cases hl.symm.trans htext
            exact hlocation
        rw [hhere']
      . rw [hfst] at hgiven htext
        rw [hfst]
        have hname : name ≠ "" :=
          Value.display_of_text? htext ▸ Value.display_ne_empty hspell hgiven
        exact follow_text hgiven htext hname
    rw [run_apply, hsame]
    exact hrests s

theorem apply_again_buy
    : let market : Memory Rat := { locations := [("market",
        [("scenes", .list [.object [("id", .text "hall")], .object [("id", .text "buy")]])])] }
      let atlas : Atlas Rat Unit := { location := market.content.location }
      let p : Pointer Rat := ⟨.text "market", .text "hall"⟩
      let (result, n', _) :=
        (apply atlas (.text "go:buy")).run ({ pointer := some p, history := [p] }, ())
      result = .ok n'.pointer ∧ Rests (apply atlas (.text "go:buy")) n' n'.pointer
        ∧ n'.pointer.any (·.same ⟨.text "market", .text "buy"⟩) = true := by
  intro market atlas p
  have hcomes : ((apply atlas (.text "go:buy")).run
      ({ pointer := some p, history := [p] }, ())).1.isOk = true := by decide +kernel
  have hplace : ((apply atlas (.text "go:buy")).run
      ({ pointer := some p, history := [p] }, ())).2.1.pointer.any
        (·.same ⟨.text "market", .text "buy"⟩) = true := by decide +kernel
  rcases hrun : (apply atlas (.text "go:buy")).run ({ pointer := some p, history := [p] }, ())
    with ⟨e | result, n', u⟩
  . rw [hrun] at hcomes
    cases hcomes
  . rw [hrun] at hplace
    obtain ⟨rfl, hrests⟩ := apply_again Value.spell_ne_empty (Memory.answers market)
      (.text "go:buy") (by
        rintro q l ⟨rfl⟩ ⟨rfl⟩
        rfl) hrun
    exact ⟨rfl, hrests, hplace⟩

end Storyworld.Navigation
