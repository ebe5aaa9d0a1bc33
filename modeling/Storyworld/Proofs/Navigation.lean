import Storyworld.Content.Memory
import Storyworld.Navigation
import Storyworld.Proofs.Act
import Storyworld.Proofs.Value

/-!
This module contains what the moves of a player do over a source of locations whose answers do not
change: which scene a move can come to, and what it registers.
-/

namespace Storyworld

/-- A source of locations that answers by the id alone. -/
def Answers {ρ σ : Type} (f : Value ρ → Except Fault (Value ρ))
    (source : Value ρ → Act σ (Value ρ)) : Prop :=
  ∀ id s, ((source id).run s).1 = f id

theorem Memory.answers {ρ σ : Type} [Scalar ρ] (m : Memory ρ)
    : Answers (fun id => do return .object ((Table.get? m.locations (← id.text?)).getD []))
      (m.content : Content ρ σ).location := by
  intro id s
  unfold content
  dsimp only
  rw [Act.run_bind, Act.run_lift]
  cases id.text? with
  | error e => rfl
  | ok s => rfl

def infoOf {ρ : Type} (f : Value ρ → Except Fault (Value ρ)) (location : Value ρ) : Record ρ :=
  match f location with
  | .ok v => v.recordD
  | .error _ => []

/-- The second registry has what the first one has, and of other locations at most those given. -/
structure Registry.Extends {ρ : Type} (r r' : Registry ρ) (more : String → Prop) : Prop where
  old : ∀ key view, Table.get? r key = some view → Table.get? r' key = some view
  new : ∀ key, Table.has r' key = true → Table.has r key = true ∨ more key

namespace Registry.Extends

variable {ρ : Type} {r r' r'' : Registry ρ} {more more' : String → Prop}

theorem refl (r : Registry ρ) : r.Extends r more where
  old _ _ h := h
  new _ h := .inl h

theorem trans (h : r.Extends r' more) (h' : r'.Extends r'' more')
    : r.Extends r'' fun key => more key ∨ more' key where
  old key view hget := h'.old key view (h.old key view hget)
  new key hhas := by
    rcases h'.new key hhas with hhas' | hmore'
    . rcases h.new key hhas' with hhas | hmore
      . exact .inl hhas
      . exact .inr (.inl hmore)
    . exact .inr (.inr hmore')

theorem mono (h : r.Extends r' more) (hmore : ∀ key, more key → more' key)
    : r.Extends r' more' where
  old := h.old
  new key hhas := (h.new key hhas).imp_right (hmore key)

theorem has (h : r.Extends r' more) {key : String} (hhas : Table.has r key = true)
    : Table.has r' key = true := by
  unfold Table.has at hhas ⊢
  cases hget : Table.get? r key with
  | none => simp [hget] at hhas
  | some view => simp [h.old key view hget]

end Registry.Extends

namespace Atlas

variable {ρ σ : Type} {f : Value ρ → Except Fault (Value ρ)} {atlas : Atlas ρ σ}

theorem run_info (h : Answers f atlas.location) (location : Value ρ) (s : σ)
    : (atlas.info location).run s
      = (.ok (infoOf f location), ((atlas.location location).run s).2) := by
  have hanswer := h location s
  unfold info infoOf
  simp only [Act.run_bind, Act.run_attempt, hanswer]
  cases f location with
  | error e => rfl
  | ok v => rfl

theorem mem_of_firstAllowed {allows : Record ρ → Except Fault Bool} {records : List (Record ρ)}
    {scene : Record ρ} (h : firstAllowed allows records = .ok (some scene))
    : scene ∈ records ∧ allows scene = .ok true := by
  induction records with
  | nil => simp [firstAllowed, pure, Except.pure] at h
  | cons record records ih =>
    unfold firstAllowed at h
    obtain ⟨allowed, hallows, h⟩ := Fault.bind_eq_ok.mp h
    cases allowed with
    | true =>
      simp only [if_true, pure, Except.pure, Except.ok.injEq, Option.some.injEq] at h
      subst h
      exact ⟨List.mem_cons_self, hallows⟩
    | false =>
      simp only [Bool.false_eq_true, if_false] at h
      obtain ⟨hmem, hallowed⟩ := ih h
      exact ⟨List.mem_cons_of_mem record hmem, hallowed⟩

variable [Scalar ρ]

theorem find?_isSome_ne_nil {info : Record ρ} {id : Value ρ} (h : (find? info id).isSome)
    : scenes info ≠ [] := by
  intro hnil
  simp [find?, hnil] at h

theorem mem_of_find? {info : Record ρ} {id : Value ρ} {scene : Record ρ}
    (h : find? info id = some scene) : scene ∈ scenes info ∧ sceneId scene = id.display := by
  unfold find? at h
  split at h
  . refine ⟨List.mem_of_find?_eq_some h, ?_⟩
    simpa using List.find?_some h
  . simp at h

theorem resolve_cases (info : Record ρ) (id : Value ρ)
    : (∃ scene ∈ scenes info, resolve info id = .text (sceneId scene))
      ∨ (scenes info = []
        ∧ (resolve info id = .null ∨ (id.isGiven ∧ resolve info id = .text id.display))) := by
  have hfound {v : Value ρ} (h : (find? info v).isSome) :
      ∃ scene ∈ scenes info, Value.text v.display = (.text (sceneId scene) : Value ρ) := by
    obtain ⟨scene, hscene⟩ := Option.isSome_iff_exists.mp h
    obtain ⟨hmem, hid⟩ := mem_of_find? hscene
    exact ⟨scene, hmem, by rw [hid]⟩
  unfold resolve
  by_cases hasked : (find? info id).isSome
  . left
    rw [if_pos hasked]
    exact hfound hasked
  . rw [if_neg hasked]
    split
    next hstart =>
      left
      apply hfound
      simp only [Bool.and_eq_true] at hstart
      exact hstart.2
    next =>
      cases hscenes : scenes info with
      | cons scene rest =>
        left
        exact ⟨scene, List.mem_cons_self, rfl⟩
      | nil =>
        right
        refine ⟨rfl, ?_⟩
        by_cases hgiven : id.isGiven
        . right
          exact ⟨hgiven, by simp [hgiven]⟩
        . left
          simp [hgiven]

theorem eq_of_search {info : Record ρ} {id : Value ρ} {found : Option (Record ρ)}
    (h : search info id = .ok found) : found = find? info id := by
  obtain ⟨_, _, h⟩ := Fault.bind_eq_ok.mp h
  exact (Except.ok.inj h).symm

theorem eq_of_settle {info : Record ρ} {id v : Value ρ} (h : settle info id = .ok v)
    : v = resolve info id := by
  unfold settle at h
  obtain ⟨found, _, h⟩ := Fault.bind_eq_ok.mp h
  split at h
  . obtain ⟨started, _, h⟩ := Fault.bind_eq_ok.mp h
    split at h
    . obtain ⟨_, _, h⟩ := Fault.bind_eq_ok.mp h
      exact (Except.ok.inj h).symm
    . exact (Except.ok.inj h).symm
  . exact (Except.ok.inj h).symm

theorem eq_of_read {info : Record ρ} {p : Pointer ρ} {s : Scene ρ} (h : read info p = .ok s)
    : s = scene info p := by
  obtain ⟨found, hfound, h⟩ := Fault.bind_eq_ok.mp h
  obtain ⟨_, _, h⟩ := Fault.bind_eq_ok.mp h
  rw [eq_of_search hfound] at h
  exact (Except.ok.inj h).symm

theorem search_of_read {info : Record ρ} {p : Pointer ρ} {s : Scene ρ} (h : read info p = .ok s)
    : search info p.scene = .ok (find? info p.scene) := by
  obtain ⟨found, hfound, _⟩ := Fault.bind_eq_ok.mp h
  rw [← eq_of_search hfound]
  exact hfound

theorem gate_of_allows {allows : Record ρ → Except Fault Bool} (h : atlas.allows = some allows)
    {info : Record ρ} (hscenes : scenes info ≠ []) (id : Value ρ)
    : atlas.gate info id = do
      if ← admits allows (← search info id) then return id
      match ← firstAllowed allows (scenes info) with
      | some scene => return .text (← (Record.field scene "id").text?)
      | none => return id := by
  have hsome : ¬ (scenes info).isEmpty = true := by simpa using hscenes
  unfold gate
  rw [h]
  exact if_neg hsome

/-- What the time does to a scene that it does not leave as it is. -/
inductive Closed (allows : Record ρ → Except Fault Bool) (info : Record ρ) (id : Value ρ) :
    Value ρ → Prop where
  | all (h : firstAllowed allows (scenes info) = .ok none) : Closed allows info id id
  | other (scene : Record ρ) (h : firstAllowed allows (scenes info) = .ok (some scene))
    (hname : (Record.field scene "id").text? = .ok (sceneId scene)) :
    Closed allows info id (.text (sceneId scene))

theorem gate_eq_ok {allows : Record ρ → Except Fault Bool} (h : atlas.allows = some allows)
    {info : Record ρ} (hscenes : scenes info ≠ []) {id v : Value ρ}
    (hgate : atlas.gate info id = .ok v)
    : search info id = .ok (find? info id)
      ∧ ((admits allows (find? info id) = .ok true ∧ v = id)
        ∨ (admits allows (find? info id) = .ok false ∧ Closed allows info id v)) := by
  rw [gate_of_allows h hscenes] at hgate
  obtain ⟨found, hfound, hgate⟩ := Fault.bind_eq_ok.mp hgate
  obtain rfl := eq_of_search hfound
  obtain ⟨fine, hfine, hgate⟩ := Fault.bind_eq_ok.mp hgate
  refine ⟨hfound, ?_⟩
  cases fine with
  | true => exact .inl ⟨hfine, (Except.ok.inj hgate).symm⟩
  | false =>
    refine .inr ⟨hfine, ?_⟩
    obtain ⟨first, hfirst, hgate⟩ := Fault.bind_eq_ok.mp hgate
    cases first with
    | none =>
      obtain rfl := Except.ok.inj hgate
      exact .all hfirst
    | some scene =>
      obtain ⟨name, hname, hgate⟩ := Fault.bind_eq_ok.mp hgate
      obtain rfl := Except.ok.inj hgate
      obtain rfl := Value.display_of_text? hname
      exact .other scene hfirst hname

/-- The time leaves a scene as it is, or puts one of the location's in its place. -/
theorem gate_cases {info : Record ρ} {id v : Value ρ} (h : atlas.gate info id = .ok v)
    : v = id ∨ ∃ scene ∈ scenes info, v = .text (sceneId scene) := by
  cases hallows : atlas.allows with
  | none =>
    unfold gate at h
    rw [hallows] at h
    left
    exact (Except.ok.inj h).symm
  | some allows =>
    by_cases hscenes : scenes info = []
    . unfold gate at h
      simp only [hallows, hscenes, List.isEmpty_nil, if_true] at h
      left
      exact (Except.ok.inj h).symm
    . obtain ⟨_, ⟨_, hv⟩ | ⟨_, hclosed⟩⟩ := gate_eq_ok hallows hscenes h
      . exact .inl hv
      . cases hclosed with
        | all => exact .inl rfl
        | other scene hfirst _ =>
          obtain ⟨hmem, _⟩ := mem_of_firstAllowed hfirst
          exact .inr ⟨scene, hmem, rfl⟩

theorem text_of_gate {info : Record ρ} {id v : Value ρ}
    (h : atlas.gate info (resolve info id) = .ok v) : v = .null ∨ ∃ s, v = .text s := by
  rcases gate_cases h with rfl | ⟨scene, _, hv⟩
  . rcases resolve_cases info id with ⟨scene, _, hresolve⟩ | ⟨_, hresolve | ⟨_, hresolve⟩⟩
    . exact .inr ⟨_, hresolve⟩
    . exact .inl hresolve
    . exact .inr ⟨_, hresolve⟩
  . exact .inr ⟨_, hv⟩

end Atlas

/-! ### What is registered -/

namespace Registry

variable {ρ : Type}

theorem extends_set {r : Registry ρ} {key : String} (hnew : Table.get? r key = none)
    (view : LocationView ρ) : r.Extends (Table.set r key view) (· = key) where
  old other found hget := by
    have hne : key ≠ other := by
      intro heq
      rw [heq, hget] at hnew
      cases hnew
    rw [Table.get?_set_of_ne r view hne, hget]
  new other hhas := by
    by_cases heq : key = other
    . exact .inr heq.symm
    . unfold Table.has at hhas
      rw [Table.get?_set_of_ne r view heq] at hhas
      exact .inl hhas

variable [Scalar ρ]

theorem run_ensure_of_has {r : Registry ρ} {location : Value ρ} {key : String}
    (hkey : location.key? = .ok key) (hne : key ≠ "") (hhas : Table.has r key = true)
    (title background : Value ρ)
    : ∃ view, (ensure location title background).run r = (.ok view, r) := by
  unfold Table.has at hhas
  obtain ⟨view, hget⟩ := Option.isSome_iff_exists.mp hhas
  refine ⟨view, ?_⟩
  unfold ensure
  simp [hkey, hne, hget]

theorem ensure_cases (location title background : Value ρ) (r : Registry ρ)
    : (∃ e, (ensure location title background).run r = (.error e, r))
      ∨ ∃ key view r', (ensure location title background).run r = (.ok view, r')
        ∧ location.key? = .ok key ∧ key ≠ "" ∧ r.Extends r' (· = key)
        ∧ Table.has r' key = true := by
  cases hkey : location.key? with
  | error e =>
    left
    refine ⟨e, ?_⟩
    unfold ensure
    simp [hkey]
  | ok key =>
    by_cases hblank : key = ""
    . left
      refine ⟨.locationRequired, ?_⟩
      unfold ensure
      simp [hkey, hblank]
    . cases hget : Table.get? r key with
      | some view =>
        right
        have hhas : Table.has r key = true := by simp [Table.has, hget]
        obtain ⟨view, hrun⟩ := run_ensure_of_has hkey hblank hhas title background
        exact ⟨key, view, r, hrun, rfl, hblank, .refl r, hhas⟩
      | none =>
        cases hname : (title.orElse (.text key)).text? with
        | error e =>
          left
          refine ⟨e, ?_⟩
          unfold ensure
          simp [hkey, hblank, hget, hname]
        | ok name =>
          right
          refine ⟨key, ⟨key, name, background⟩, Table.set r key ⟨key, name, background⟩, ?_, rfl,
            hblank, extends_set hget _, ?_⟩
          . unfold ensure
            simp [hkey, hblank, hget, hname]
            rfl
          . simp [Table.has]

end Registry

namespace Navigation

variable {ρ σ : Type} [Scalar ρ] {f : Value ρ → Except Fault (Value ρ)} {atlas : Atlas ρ σ}

theorem approach_cases (h : Answers f atlas.location) (location : Value ρ) (n : Navigation ρ)
    (src : σ)
    : ∃ src', (∃ e, (approach atlas location).run (n, src) = (.error e, n, src'))
      ∨ ∃ key r, (approach atlas location).run (n, src)
          = (.ok (infoOf f location), { n with registry := r }, src')
        ∧ location.key? = .ok key ∧ key ≠ "" ∧ n.registry.Extends r (· = key)
        ∧ Table.has r key = true := by
  refine ⟨((atlas.location location).run src).2, ?_⟩
  unfold approach
  simp only [Act.run_bind, Act.run_onSecond, Atlas.run_info h, Act.run_onFirst, Act.run_within,
    Act.run_pure]
  generalize (Record.field (infoOf f location) "name").orElse _ = name
  generalize name.orElse location = title
  generalize Record.field (infoOf f location) "background" = background
  rcases Registry.ensure_cases location title background n.registry with
    ⟨e, hrun⟩ | ⟨key, view, r, hrun, hkey, hne, hextends, hhas⟩
  . left
    exact ⟨e, by rw [hrun]⟩
  . right
    exact ⟨key, r, by rw [hrun], hkey, hne, hextends, hhas⟩

theorem run_approach_of_has (h : Answers f atlas.location) {location : Value ρ} {key : String}
    {n : Navigation ρ} (hkey : location.key? = .ok key) (hne : key ≠ "")
    (hhas : Table.has n.registry key = true) (src : σ)
    : (approach atlas location).run (n, src)
      = (.ok (infoOf f location), n, ((atlas.location location).run src).2) := by
  unfold approach
  simp only [Act.run_bind, Act.run_onSecond, Atlas.run_info h, Act.run_onFirst, Act.run_within,
    Act.run_pure]
  generalize (Record.field (infoOf f location) "name").orElse _ = name
  generalize name.orElse location = title
  generalize Record.field (infoOf f location) "background" = background
  obtain ⟨view, hrun⟩ := Registry.run_ensure_of_has hkey hne hhas title background
  rw [hrun]

theorem approachAll_cases (h : Answers f atlas.location) (ids : List String) (n : Navigation ρ)
    (src : σ)
    : ∃ r src', n.registry.Extends r (fun key => ∃ id ∈ ids, Text.strip id = key)
      ∧ ((∃ e, (approachAll atlas ids).run (n, src) = (.error e, { n with registry := r }, src'))
        ∨ (approachAll atlas ids).run (n, src) = (.ok (), { n with registry := r }, src')
          ∧ ∀ id ∈ ids, Table.has r (Text.strip id) = true) := by
  induction ids generalizing n src with
  | nil => exact ⟨n.registry, src, .refl _, .inr ⟨rfl, by simp⟩⟩
  | cons id ids ih =>
    unfold approachAll
    rw [Act.run_bind]
    obtain ⟨src₁, ⟨e, hrun⟩ | ⟨key, r₁, hrun, hkey, _, hextends, hhas⟩⟩ :=
      approach_cases h (.text id) n src
    . refine ⟨n.registry, src₁, .refl _, .inl ⟨e, ?_⟩⟩
      rw [hrun]
    . rw [hrun]
      rw [Value.key?_text, Except.ok.injEq] at hkey
      obtain ⟨r₂, src₂, hextends', hrest⟩ := ih { n with registry := r₁ } src₁
      refine ⟨r₂, src₂, (hextends.trans hextends').mono ?_, ?_⟩
      . intro other hother
        rcases hother with rfl | ⟨id', hmem, hid'⟩
        . exact ⟨id, List.mem_cons_self, hkey⟩
        . exact ⟨id', List.mem_cons_of_mem id hmem, hid'⟩
      . refine hrest.imp_right fun ⟨hok, hall⟩ => ⟨hok, ?_⟩
        intro id' hmem
        rcases List.mem_cons.mp hmem with rfl | hmem
        . rw [hkey]
          exact hextends'.has hhas
        . exact hall id' hmem

/-! ### Moves -/

def pathOf (f : Value ρ → Except Fault (Value ρ)) (p : Pointer ρ) : List String :=
  (Atlas.scene (infoOf f p.location) p).path

/-- A place is near where its location stands under a key, or its path leads there. -/
def Near (f : Value ρ → Except Fault (Value ρ)) (p : Pointer ρ) (key : String) : Prop :=
  p.location.key? = .ok key ∨ ∃ id ∈ pathOf f p, Text.strip id = key

/-- What is known of the place that a move has led to, and of the registry then. -/
structure Arrival (f : Value ρ → Except Fault (Value ρ)) (atlas : Atlas ρ σ)
    (location scene : Value ρ) (r : Registry ρ) (p : Pointer ρ) : Prop where
  location_eq : ∃ l, location.text? = .ok l ∧ p.location = .text l ∧ Text.strip l ≠ ""
  scene_eq : ∃ v, scene.given? = .ok v
    ∧ atlas.gate (infoOf f p.location) (Atlas.resolve (infoOf f p.location) v) = .ok p.scene
  readable : Atlas.read (infoOf f p.location) p = .ok (Atlas.scene (infoOf f p.location) p)
  registered : ∀ key, Near f p key → Table.has r key = true

theorem Arrival.scene_text {location scene : Value ρ} {r : Registry ρ} {p : Pointer ρ}
    (h : Arrival f atlas location scene r p) : p.scene = .null ∨ ∃ s, p.scene = .text s := by
  obtain ⟨v, _, hgate⟩ := h.scene_eq
  exact Atlas.text_of_gate hgate

theorem mem_extend {history : List (Pointer ρ)} {p q : Pointer ρ} (h : q ∈ extend history p)
    : q ∈ history ∨ q = p := by
  unfold extend at h
  split at h
  . split at h
    . exact .inl h
    . simpa using h
  . right
    simpa using h

theorem mem_extend_of_mem {history : List (Pointer ρ)} {p q : Pointer ρ} (h : q ∈ history)
    : q ∈ extend history p := by
  unfold extend
  split
  . split
    . exact h
    . exact List.mem_append_left _ h
  next hlast =>
    rw [List.getLast?_eq_none_iff] at hlast
    rw [hlast] at h
    cases h

/-- Where a place is spelled by texts, to be the same is to be equal. -/
theorem same_iff_eq {p q : Pointer ρ} (hlocation : ∃ l, q.location = .text l)
    (hscene : q.scene = .null ∨ ∃ s, q.scene = .text s) : p.same q = true ↔ p = q := by
  obtain ⟨location, scene⟩ := q
  obtain ⟨l, rfl⟩ := hlocation
  obtain ⟨location', scene'⟩ := p
  unfold Pointer.same
  rw [Bool.and_eq_true, Pointer.mk.injEq]
  rcases hscene with rfl | ⟨s, rfl⟩
  . rw [Value.same_text_iff, Value.same_null_iff]
  . rw [Value.same_text_iff, Value.same_text_iff]

theorem mem_extend_self {history : List (Pointer ρ)} {p : Pointer ρ}
    (hlocation : ∃ l, p.location = .text l) (hscene : p.scene = .null ∨ ∃ s, p.scene = .text s)
    : p ∈ extend history p := by
  unfold extend
  split
  next last hlast =>
    split
    next hsame =>
      -- nothing was noted, as the last place is this one
      rw [same_iff_eq hlocation hscene] at hsame
      exact hsame ▸ List.mem_of_getLast? hlast
    next => simp
  next => simp

/-- The place at a location that a request for a scene leads to, and what is known of it. -/
def locate (atlas : Atlas ρ σ) (info : Record ρ) (location scene : Value ρ) :
    Except Fault (Pointer ρ × Scene ρ) := do
  let scene ← Atlas.settle info (← scene.given?)
  let p : Pointer ρ := ⟨location, ← atlas.gate info scene⟩
  return (p, ← Atlas.read info p)

theorem locate_eq_ok {info : Record ρ} {location scene : Value ρ} {p : Pointer ρ}
    {found : Scene ρ} (h : locate atlas info location scene = .ok (p, found))
    : p.location = location ∧ Atlas.read info p = .ok found ∧ found = Atlas.scene info p
      ∧ ∃ v, scene.given? = .ok v ∧ atlas.gate info (Atlas.resolve info v) = .ok p.scene := by
  unfold locate at h
  obtain ⟨v, hgiven, h⟩ := Fault.bind_eq_ok.mp h
  obtain ⟨settled, hsettle, h⟩ := Fault.bind_eq_ok.mp h
  obtain ⟨id, hgate, h⟩ := Fault.bind_eq_ok.mp h
  obtain ⟨found', hread, h⟩ := Fault.bind_eq_ok.mp h
  cases h
  obtain rfl := Atlas.eq_of_settle hsettle
  exact ⟨rfl, hread, Atlas.eq_of_read hread, v, hgiven, hgate⟩

theorem seek_eq (location scene : Value ρ) : seek atlas location scene = (do
    let location := .text (← Act.lift location.text?)
    let info ← approach atlas location
    let (p, found) ← Act.lift (locate atlas info location scene)
    approachAll atlas found.path
    return p) := by
  unfold seek locate
  simp only [Act.lift_bind, Act.lift_pure, bind_assoc, pure_bind]

theorem seek_cases (h : Answers f atlas.location) (location scene : Value ρ) (n : Navigation ρ)
    (src : σ)
    : ∃ r src', (n.registry.Extends r (fun _ => True) ∧ ∃ e,
        (seek atlas location scene).run (n, src) = (.error e, { n with registry := r }, src'))
      ∨ ∃ p, Arrival f atlas location scene r p ∧ n.registry.Extends r (Near f p)
        ∧ (seek atlas location scene).run (n, src) = (.ok p, { n with registry := r }, src') := by
  rw [seek_eq, Act.run_bind, Act.run_lift]
  cases htext : location.text? with
  | error e => exact ⟨n.registry, src, .inl ⟨.refl _, e, rfl⟩⟩
  | ok l =>
    dsimp only
    rw [Act.run_bind]
    obtain ⟨src₁, ⟨e, hrun⟩ | ⟨key, r₁, hrun, hkey, hne, hextends, hhas⟩⟩ :=
      approach_cases h (.text l) n src
    . rw [hrun]
      exact ⟨n.registry, src₁, .inl ⟨.refl _, e, rfl⟩⟩
    . rw [hrun]
      dsimp only
      rw [Act.run_bind, Act.run_lift]
      cases hlocate : locate atlas (infoOf f (.text l)) (.text l) scene with
      | error e => exact ⟨r₁, src₁, .inl ⟨hextends.mono fun _ _ => trivial, e, rfl⟩⟩
      | ok place =>
        obtain ⟨⟨location', id⟩, found⟩ := place
        obtain ⟨hlocation, hread, hfound, hscene⟩ := locate_eq_ok hlocate
        dsimp only at hlocation hscene ⊢
        subst hlocation hfound
        obtain ⟨r₂, src₂, hpath, hall⟩ :=
          approachAll_cases h (pathOf f ⟨.text l, id⟩) { n with registry := r₁ } src₁
        have hboth := hextends.trans hpath
        rw [Act.run_bind]
        refine ⟨r₂, src₂, hall.imp ?_ ?_⟩
        . rintro ⟨e, hall⟩
          refine ⟨hboth.mono fun _ _ => trivial, e, ?_⟩
          unfold pathOf at hall
          rw [hall]
        . rintro ⟨hall, hregistered⟩
          have hstrip : Text.strip l = key := by
            rw [Value.key?_text] at hkey
            exact Except.ok.inj hkey
          refine ⟨⟨.text l, id⟩, ⟨⟨l, htext, rfl, hstrip ▸ hne⟩, hscene, hread, ?_⟩, ?_, ?_⟩
          . intro other hother
            rcases hother with hother | ⟨id', hmem, rfl⟩
            . rw [hkey, Except.ok.injEq] at hother
              rw [← hother]
              exact hpath.has hhas
            . exact hregistered id' hmem
          . apply hboth.mono
            rintro other (rfl | hother)
            . exact .inl hkey
            . exact .inr hother
          . unfold pathOf at hall
            rw [hall]
            rfl

theorem moveTo_cases (h : Answers f atlas.location) (location scene : Value ρ) (n : Navigation ρ)
    (src : σ)
    : (∃ result src', (moveTo atlas location scene).run (n, src) = (result, n, src')
        ∧ (location.isGiven → ∃ e, result = .error e))
      ∨ (∃ e r src', n.registry.Extends r (fun _ => True)
        ∧ (moveTo atlas location scene).run (n, src) = (.error e, { n with registry := r }, src'))
      ∨ ∃ p r src', Arrival f atlas location scene r p ∧ n.registry.Extends r (Near f p)
        ∧ (moveTo atlas location scene).run (n, src)
          = (.ok (some p), arrive p { n with registry := r }, src') := by
  unfold moveTo
  split
  next hgiven =>
    right
    rw [Act.run_bind]
    obtain ⟨r, src', ⟨hextends, e, hrun⟩ | ⟨p, harrival, hextends, hrun⟩⟩ :=
      seek_cases h location scene n src
    . left
      rw [hrun]
      exact ⟨e, r, src', hextends, rfl⟩
    . right
      rw [hrun]
      exact ⟨p, r, src', harrival, hextends, rfl⟩
  next hgiven => exact .inl ⟨.ok n.pointer, src, rfl, fun h => absurd h hgiven⟩

inductive Directed (f : Value ρ → Except Fault (Value ρ)) (n : Navigation ρ) (outcome : Value ρ) :
    Value ρ → Value ρ → Prop where
  | entrance (name : String) : Directed f n outcome (.text name) .null
  | named (name scene : String) (hgiven : (destination .null outcome).2.isGiven)
    (htext : (destination .null outcome).2.text? = .ok scene) :
    Directed f n outcome (.text name) (.text scene)
  | here (p : Pointer ρ) (name : String) (hpointer : n.pointer = some p)
    (hfound : (Atlas.find? (infoOf f p.location) (.text name)).isSome) :
    Directed f n outcome p.location (.text name)

theorem destination_snd (here outcome : Value ρ)
    : (destination here outcome).2 = (destination .null outcome).2 := by
  unfold destination
  cases outcome with
  | object r =>
    dsimp only
    split
    . rfl
    . rfl
  | _ => rfl

theorem run_hasScenes (h : Answers f atlas.location) (name : String) (src : σ)
    : (hasScenes atlas name).run src
      = (.ok (!(Atlas.scenes (infoOf f (.text name))).isEmpty),
        ((atlas.location (.text name)).run src).2) := by
  unfold hasScenes
  simp only [Act.run_bind, Atlas.run_info h, Act.run_pure]

theorem isLocalScene_cases (h : Answers f atlas.location) (p : Pointer ρ) (name : String)
    (n : Navigation ρ) (src : σ)
    : ∃ r src', n.registry.Extends r (fun key => p.location.key? = .ok key)
      ∧ ((∃ e, (isLocalScene atlas p name).run (n, src) = (.error e, { n with registry := r }, src'))
        ∨ (isLocalScene atlas p name).run (n, src)
          = (.ok (Atlas.find? (infoOf f p.location) (.text name)).isSome,
            { n with registry := r }, src')) := by
  unfold isLocalScene
  rw [Act.run_bind]
  obtain ⟨src', ⟨e, hrun⟩ | ⟨key, r, hrun, hkey, _, hextends, _⟩⟩ :=
    approach_cases h p.location n src
  . rw [hrun]
    exact ⟨n.registry, src', .refl _, .inl ⟨e, rfl⟩⟩
  . rw [hrun]
    refine ⟨r, src', hextends.mono ?_, ?_⟩
    . rintro other rfl
      exact hkey
    . simp only [Act.run_bind, Act.run_lift]
      cases hsearch : Atlas.search (infoOf f p.location) (.text name) with
      | error e => exact .inl ⟨e, rfl⟩
      | ok found =>
        obtain rfl := Atlas.eq_of_search hsearch
        exact .inr rfl

/-- An outcome leaves the player in place, or is a move; of the locations at most the one that the
player is at is registered before it. -/
theorem apply_cases (h : Answers f atlas.location) (outcome : Value ρ) (n : Navigation ρ)
    (src : σ)
    : ∃ r src', n.registry.Extends r
        (fun key => ∃ p, n.pointer = some p ∧ p.location.key? = .ok key)
      ∧ ((∃ result, (apply atlas outcome).run (n, src) = (result, { n with registry := r }, src'))
        ∨ ∃ location scene, Directed f n outcome location scene
          ∧ (apply atlas outcome).run (n, src)
            = (moveTo atlas location scene).run ({ n with registry := r }, src')) := by
  obtain ⟨pointer, history, registry⟩ := n
  unfold apply
  simp only [Act.run_bind, Act.run_get]
  generalize (pointer.map Pointer.location).getD .null = here
  have hscene := destination_snd here outcome
  rcases hdestination : destination here outcome with ⟨location, scene⟩
  rw [hdestination] at hscene
  dsimp only at hscene ⊢
  cases hgiven : location.isGiven with
  | false => exact ⟨registry, src, .refl _, .inl ⟨_, rfl⟩⟩
  | true =>
    simp only [Bool.not_true, Bool.false_eq_true, if_false, Act.run_bind, Act.run_lift]
    cases hname : location.text? with
    | error e => exact ⟨registry, src, .refl _, .inl ⟨_, rfl⟩⟩
    | ok name =>
      dsimp only
      cases hasked : scene.isGiven with
      | true =>
        simp only [if_true, Act.run_bind, Act.run_lift]
        cases htext : scene.text? with
        | error e => exact ⟨registry, src, .refl _, .inl ⟨_, rfl⟩⟩
        | ok id =>
          refine ⟨registry, src, .refl _, .inr ⟨.text name, .text id, ?_, rfl⟩⟩
          apply Directed.named
          . rw [← hscene]
            exact hasked
          . rw [← hscene]
            exact htext
      | false =>
        simp only [Bool.false_eq_true, if_false]
        cases pointer with
        | none => exact ⟨registry, src, .refl _, .inr ⟨.text name, .null, .entrance name, rfl⟩⟩
        | some p =>
          dsimp only
          by_cases hstay : p.location.same (.text name)
          . refine ⟨registry, src, .refl _, .inl ⟨.ok (some p), ?_⟩⟩
            simp [hstay]
          . simp only [hstay, Bool.false_eq_true, if_false, Act.run_bind, Act.run_onSecond,
              run_hasScenes h, Bool.not_not]
            generalize ((atlas.location (.text name)).run src).2 = src₁
            cases hempty : (Atlas.scenes (infoOf f (.text name))).isEmpty with
            | false =>
              exact ⟨registry, src₁, .refl _, .inr ⟨.text name, .null, .entrance name, rfl⟩⟩
            | true =>
              simp only [if_true, Act.run_bind]
              obtain ⟨r, src₂, hextends, ⟨e, hrun⟩ | hrun⟩ :=
                isLocalScene_cases h p name ⟨some p, history, registry⟩ src₁
              . rw [hrun]
                refine ⟨r, src₂, hextends.mono ?_, .inl ⟨_, rfl⟩⟩
                intro key hkey
                exact ⟨p, rfl, hkey⟩
              . rw [hrun]
                refine ⟨r, src₂, hextends.mono ?_, .inr ?_⟩
                . intro key hkey
                  exact ⟨p, rfl, hkey⟩
                . cases hfound : (Atlas.find? (infoOf f p.location) (.text name)).isSome with
                  | true => exact ⟨p.location, .text name, .here p name rfl hfound, rfl⟩
                  | false => exact ⟨.text name, .null, .entrance name, rfl⟩

theorem run_current {n : Navigation ρ} {p : Pointer ρ} (hpointer : n.pointer = some p)
    {info : Record ρ} {r : Registry ρ} {src src' : σ}
    (happroach : (approach atlas p.location).run (n, src)
      = (.ok info, { n with registry := r }, src'))
    : (current atlas).run (n, src) =
      match atlas.gate info p.scene with
      | .error e => (.error e, { n with registry := r }, src')
      | .ok v => ((Atlas.read info ⟨p.location, v⟩).map some,
        { n with registry := r, pointer := some ⟨p.location, v⟩ }, src') := by
  obtain ⟨pointer, history, registry⟩ := n
  dsimp only at hpointer
  subst hpointer
  unfold current
  simp only [Act.run_bind, Act.run_get, happroach, Act.run_lift]
  cases hgate : atlas.gate info p.scene with
  | error e => rfl
  | ok v =>
    by_cases hsame : v.same p.scene
    . -- the pointer stays, and setting it to what it is changes nothing
      have hv : v = p.scene := by
        rcases Atlas.gate_cases hgate with hv | ⟨scene, _, rfl⟩
        . exact hv
        . exact (Value.eq_of_same_text hsame).symm
      subst hv
      simp only [hsame, Bool.not_true, Bool.false_eq_true, if_false, Act.run_bind, Act.run_lift]
      cases Atlas.read info ⟨p.location, p.scene⟩ with
      | error e => rfl
      | ok scene => rfl
    . simp only [hsame, Bool.not_false, if_true, Act.run_bind, Act.run_onFirst, Act.run_modify,
        Act.run_lift]
      cases Atlas.read info ⟨p.location, v⟩ with
      | error e => rfl
      | ok scene => rfl

theorem run_current_none {n : Navigation ρ} (hpointer : n.pointer = none) (src : σ)
    : (current atlas).run (n, src) = (.ok none, n, src) := by
  unfold current
  simp [hpointer]

theorem current_cases (h : Answers f atlas.location) (n : Navigation ρ) (src : σ)
    : (n.pointer = none ∧ (current atlas).run (n, src) = (.ok none, n, src))
      ∨ ∃ p r src', n.pointer = some p
        ∧ n.registry.Extends r (fun key => p.location.key? = .ok key)
        ∧ ((∃ e, (current atlas).run (n, src) = (.error e, { n with registry := r }, src'))
          ∨ ∃ v, atlas.gate (infoOf f p.location) p.scene = .ok v
            ∧ (current atlas).run (n, src)
              = ((Atlas.read (infoOf f p.location) ⟨p.location, v⟩).map some,
                { n with registry := r, pointer := some ⟨p.location, v⟩ }, src')) := by
  rcases Option.eq_none_or_eq_some n.pointer with hpointer | ⟨p, hpointer⟩
  . exact .inl ⟨hpointer, run_current_none hpointer src⟩
  . right
    obtain ⟨src', ⟨e, happroach⟩ | ⟨key, r, happroach, hkey, _, hextends, _⟩⟩ :=
      approach_cases h p.location n src
    . refine ⟨p, n.registry, src', hpointer, .refl _, .inl ⟨e, ?_⟩⟩
      unfold current
      simp only [Act.run_bind, Act.run_get, hpointer, happroach]
      rw [← hpointer]
    . have hcurrent := run_current hpointer happroach
      refine ⟨p, r, src', hpointer, hextends.mono fun other hother => hother ▸ hkey, ?_⟩
      cases hgate : atlas.gate (infoOf f p.location) p.scene with
      | error e =>
        rw [hgate] at hcurrent
        exact .inl ⟨e, hcurrent⟩
      | ok v =>
        rw [hgate] at hcurrent
        exact .inr ⟨v, rfl, hcurrent⟩

/-! ### What registering and moving keep -/

/-- A property that is kept while locations are asked for and registered. -/
structure Surveys (atlas : Atlas ρ σ) (Q : Navigation ρ × σ → Prop) : Prop where
  info : ∀ location, Act.Keeps Q (Act.onSecond (atlas.info location))
  ensure : ∀ location title background, Act.Keeps Q (Act.onFirst (Act.within registry
    (fun r n => { n with registry := r }) (Registry.ensure location title background)))

namespace Surveys

variable {Q : Navigation ρ × σ → Prop}

theorem approach (h : Surveys atlas Q) (location : Value ρ)
    : Act.Keeps Q (approach atlas location) := by
  unfold Navigation.approach
  refine Act.keeps_bind (h.info location) fun info => ?_
  refine Act.keeps_bind (h.ensure _ _ _) fun _ => ?_
  apply Act.keeps_pure

theorem approachAll (h : Surveys atlas Q) (ids : List String)
    : Act.Keeps Q (approachAll atlas ids) := by
  induction ids with
  | nil => apply Act.keeps_pure
  | cons id ids ih =>
    unfold Navigation.approachAll
    exact Act.keeps_bind (h.approach _) fun _ => ih

theorem seek (h : Surveys atlas Q) (location scene : Value ρ)
    : Act.Keeps Q (seek atlas location scene) := by
  unfold Navigation.seek
  refine Act.keeps_bind (Act.keeps_lift _) fun l => ?_
  refine Act.keeps_bind (h.approach _) fun info => ?_
  refine Act.keeps_bind (Act.keeps_lift _) fun scene => ?_
  refine Act.keeps_bind (Act.keeps_lift _) fun scene => ?_
  refine Act.keeps_bind (Act.keeps_lift _) fun id => ?_
  refine Act.keeps_bind (Act.keeps_lift _) fun found => ?_
  refine Act.keeps_bind (h.approachAll _) fun _ => ?_
  apply Act.keeps_pure

theorem hasScenes (h : Surveys atlas Q) (name : String)
    : Act.Keeps Q (Act.onSecond (hasScenes atlas name)) := by
  intro n hn
  have hinfo := h.info (.text name) n hn
  unfold Navigation.hasScenes
  rw [Act.run_onSecond, Act.run_bind_pure_snd]
  exact hinfo

theorem isLocalScene (h : Surveys atlas Q) (p : Pointer ρ) (name : String)
    : Act.Keeps Q (isLocalScene atlas p name) := by
  unfold Navigation.isLocalScene
  refine Act.keeps_bind (h.approach _) fun info => ?_
  refine Act.keeps_bind (Act.keeps_lift _) fun found => ?_
  apply Act.keeps_pure

end Surveys

/-- A property that is kept, too, when the pointer moves and the place is noted. -/
structure Travels (atlas : Atlas ρ σ) (Q : Navigation ρ × σ → Prop) : Prop
    extends Surveys atlas Q where
  place : ∀ (pointer : Navigation ρ → Option (Pointer ρ)) (history : Navigation ρ → List (Pointer ρ)),
    Act.Keeps Q (Act.onFirst (modify fun n => ⟨pointer n, history n, n.registry⟩))

namespace Travels

variable {Q : Navigation ρ × σ → Prop}

theorem of_registry {T : Registry ρ → Prop}
    (hensure : ∀ location title background, Act.Keeps T (Registry.ensure location title background))
    : Travels atlas fun n => T n.1.registry where
  info _ := Act.keeps_onSecond (P := fun n : Navigation ρ => T n.registry)
  ensure location title background :=
    Act.keeps_onFirst (P := fun n : Navigation ρ => T n.registry)
      (Act.keeps_within (hensure location title background) (fun _ hn => hn) fun _ _ _ hr => hr)
  place _ _ _ hn := hn

theorem moveTo (h : Travels atlas Q) (location scene : Value ρ)
    : Act.Keeps Q (moveTo atlas location scene) := by
  unfold Navigation.moveTo
  split
  . refine Act.keeps_bind (h.seek location scene) fun p => ?_
    refine Act.keeps_bind (h.place (fun _ => some p) fun n => extend n.history p) fun _ => ?_
    apply Act.keeps_pure
  . refine Act.keeps_bind Act.keeps_get fun n => ?_
    apply Act.keeps_pure

theorem apply (h : Travels atlas Q) (outcome : Value ρ) : Act.Keeps Q (apply atlas outcome) := by
  unfold Navigation.apply
  refine Act.keeps_bind Act.keeps_get fun n => ?_
  dsimp only
  split
  . apply Act.keeps_pure
  refine Act.keeps_bind (Act.keeps_lift _) fun name => ?_
  split
  . exact Act.keeps_bind (Act.keeps_lift _) fun id => h.moveTo _ _
  split
  . exact h.moveTo _ _
  next p _ =>
    split
    . apply Act.keeps_pure
    refine Act.keeps_bind (h.hasScenes name) fun scenes => ?_
    split
    . refine Act.keeps_bind (h.isLocalScene p name) fun isLocal => ?_
      exact Act.keeps_ite (h.moveTo _ _) (h.moveTo _ _)
    . exact h.moveTo _ _

theorem current (h : Travels atlas Q) : Act.Keeps Q (current atlas) := by
  unfold Navigation.current
  refine Act.keeps_bind Act.keeps_get fun n => ?_
  split
  . apply Act.keeps_pure
  next p _ =>
    refine Act.keeps_bind (h.approach _) fun info => ?_
    refine Act.keeps_bind (Act.keeps_lift _) fun scene => ?_
    have hread : Act.Keeps Q (do
        return some (← Act.lift (Atlas.read info { p with scene })) :
        Act (Navigation ρ × σ) (Option (Scene ρ))) :=
      Act.keeps_bind (Act.keeps_lift _) fun _ => Act.keeps_pure _
    split
    . refine Act.keeps_bind (h.place (fun _ => some { p with scene }) Navigation.history)
        fun _ => hread
    . exact hread

end Travels

end Navigation

end Storyworld
