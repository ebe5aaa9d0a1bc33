import Storyworld.Proofs.Session

/-!
This module contains how sources of a story stand in for others. Where two sources answer alike, and
what they keep stays related, sessions over them go alike: all answers and outcomes are the same, and
so is all that the sessions hold besides the sources.
-/

namespace Storyworld

namespace Act

variable {σ τ σ' τ' α β : Type}

/-- From related states two computations have the same outcome, and they end in related states. -/
def Mirrors (R : σ → τ → Prop) (act : Act σ α) (act' : Act τ α) : Prop :=
  ∀ s t, R s t → (act.run s).1 = (act'.run t).1 ∧ R (act.run s).2 (act'.run t).2

section

variable {R : σ → τ → Prop} {T : σ' → τ' → Prop}

theorem mirrors_pure (a : α) : Mirrors R (pure a) (pure a) := fun _ _ h => ⟨rfl, h⟩

theorem mirrors_throw (e : Fault) : Mirrors R (throw e : Act σ α) (throw e) := fun _ _ h => ⟨rfl, h⟩

theorem mirrors_lift (x : Except Fault α) : Mirrors R (lift x) (lift x) := fun _ _ h => ⟨rfl, h⟩

theorem mirrors_ask {f : σ → Except Fault α} {g : τ → Except Fault α}
    (h : ∀ s t, R s t → f s = g t) : Mirrors R (ask f) (ask g) :=
  fun s t hst => ⟨h s t hst, hst⟩

theorem mirrors_modify {f : σ → σ} {g : τ → τ} (h : ∀ s t, R s t → R (f s) (g t))
    : Mirrors R (modify f : Act σ PUnit) (modify g) :=
  fun s t hst => ⟨rfl, h s t hst⟩

theorem mirrors_bind {act : Act σ α} {act' : Act τ α} {f : α → Act σ β} {f' : α → Act τ β}
    (ha : Mirrors R act act') (hf : ∀ a, Mirrors R (f a) (f' a))
    : Mirrors R (act >>= f) (act' >>= f') := by
  intro s t hst
  obtain ⟨hresult, hstate⟩ := ha s t hst
  rw [run_bind, run_bind]
  rcases hs : act.run s with ⟨e | a, s'⟩
  . rcases ht : act'.run t with ⟨e' | a', t'⟩
    . rw [hs, ht] at hresult hstate
      exact ⟨by rw [Except.error.inj hresult], hstate⟩
    . rw [hs, ht] at hresult
      cases hresult
  . rcases ht : act'.run t with ⟨e' | a', t'⟩
    . rw [hs, ht] at hresult
      cases hresult
    . rw [hs, ht] at hresult hstate
      obtain rfl : a = a' := Except.ok.inj hresult
      exact hf a s' t' hstate

theorem mirrors_get_bind {f : σ → Act σ α} {f' : τ → Act τ α}
    (h : ∀ s t, R s t → Mirrors R (f s) (f' t)) : Mirrors R (get >>= f) (get >>= f') :=
  fun s t hst => h s t hst s t hst

theorem mirrors_map {act : Act σ α} {act' : Act τ α} (f : α → β) (ha : Mirrors R act act')
    : Mirrors R (f <$> act) (f <$> act') := by
  intro s t hst
  obtain ⟨hresult, hstate⟩ := ha s t hst
  rw [run_map, run_map, hresult]
  exact ⟨rfl, hstate⟩

theorem mirrors_attempt {act : Act σ α} {act' : Act τ α} (ha : Mirrors R act act')
    : Mirrors R (attempt act) (attempt act') :=
  fun s t hst => ⟨congrArg Except.ok (ha s t hst).1, (ha s t hst).2⟩

theorem mirrors_within {part : σ → σ'} {put : σ' → σ → σ} {part' : τ → τ'} {put' : τ' → τ → τ}
    {act : Act σ' α} {act' : Act τ' α} (ha : Mirrors T act act')
    (hpart : ∀ s t, R s t → T (part s) (part' t))
    (hput : ∀ s t s' t', R s t → T s' t' → R (put s' s) (put' t' t))
    : Mirrors R (within part put act) (within part' put' act') := by
  intro s t hst
  obtain ⟨hresult, hstate⟩ := ha _ _ (hpart s t hst)
  exact ⟨hresult, hput s t _ _ hst hstate⟩

/-- A part that is the same in related states may be computed on in the same way. -/
theorem mirrors_part {part : σ → σ'} {put : σ' → σ → σ} {part' : τ → σ'} {put' : σ' → τ → τ}
    (act : Act σ' α) (hpart : ∀ s t, R s t → part s = part' t)
    (hput : ∀ s t a, R s t → R (put a s) (put' a t))
    : Mirrors R (within part put act) (within part' put' act) := by
  intro s t hst
  rw [run_within, run_within, hpart s t hst]
  exact ⟨rfl, hput s t _ hst⟩

theorem mirrors_ite {c : Prop} [Decidable c] {act₁ act₂ : Act σ α} {act₁' act₂' : Act τ α}
    (ht : Mirrors R act₁ act₁') (he : Mirrors R act₂ act₂')
    : Mirrors R (if c then act₁ else act₂) (if c then act₁' else act₂') := by
  split
  . exact ht
  . exact he

end

/-- Pairs of the same thing and of related ones. -/
inductive Beside {A : Type} (R : σ → τ → Prop) : A × σ → A × τ → Prop where
  | intro (a : A) {s : σ} {t : τ} (h : R s t) : Beside R (a, s) (a, t)

section

variable {A : Type} {R : σ → τ → Prop}

theorem mirrors_onFirst (act : Act A α) : Mirrors (Beside R) (onFirst act) (onFirst act) := by
  refine mirrors_part act ?_ ?_
  . rintro _ _ ⟨a, h⟩
    rfl
  . rintro _ _ a' ⟨a, h⟩
    exact .intro a' h

theorem mirrors_onSecond {act : Act σ α} {act' : Act τ α} (ha : Mirrors R act act')
    : Mirrors (Beside (A := A) R) (onSecond act) (onSecond act') := by
  refine mirrors_within ha ?_ ?_
  . rintro _ _ ⟨a, h⟩
    exact h
  . rintro _ _ s' t' ⟨a, h⟩ h'
    exact .intro a h'

end

end Act

variable {ρ σ τ S S' V : Type}

/-- Sources that answer alike wherever what they keep is related. -/
structure Content.Mirrors (R : σ → τ → Prop) (content : Content ρ σ) (content' : Content ρ τ) :
    Prop where
  location : ∀ id, Act.Mirrors R (content.location id) (content'.location id)
  option? : ∀ location id, Act.Mirrors R (content.option? location id) (content'.option? location id)
  npc? : ∀ location id, Act.Mirrors R (content.npc? location id) (content'.npc? location id)
  npcs : ∀ location, Act.Mirrors R (content.npcs location) (content'.npcs location)
  item? : ∀ id, Act.Mirrors R (content.item? id) (content'.item? id)

namespace Content.Mirrors

variable {R : σ → τ → Prop} {content : Content ρ σ} {content' : Content ρ τ}

theorem within (h : content.Mirrors R content') {T : S → S' → Prop} {part : S → σ}
    {put : σ → S → S} {part' : S' → τ} {put' : τ → S' → S'}
    (hpart : ∀ s t, T s t → R (part s) (part' t))
    (hput : ∀ s t a b, T s t → R a b → T (put a s) (put' b t))
    : (content.within part put).Mirrors T (content'.within part' put') where
  location id := Act.mirrors_within (h.location id) hpart hput
  option? location id := Act.mirrors_within (h.option? location id) hpart hput
  npc? location id := Act.mirrors_within (h.npc? location id) hpart hput
  npcs location := Act.mirrors_within (h.npcs location) hpart hput
  item? id := Act.mirrors_within (h.item? id) hpart hput

theorem options (h : content.Mirrors R content') (location : String) (ids : List String)
    : Act.Mirrors R (content.options location ids) (content'.options location ids) := by
  induction ids with
  | nil => apply Act.mirrors_pure
  | cons id ids ih =>
    unfold Content.options
    refine Act.mirrors_bind (h.option? location id) fun found => ?_
    exact Act.mirrors_bind ih fun rest => Act.mirrors_pure _

theorem optionsOf [Scalar ρ] (h : content.Mirrors R content') (location npc : String)
    : Act.Mirrors R (content.optionsOf location npc) (content'.optionsOf location npc) := by
  unfold Content.optionsOf
  refine Act.mirrors_bind (h.npc? location npc) fun row => ?_
  cases row with
  | none => apply Act.mirrors_pure
  | some row => apply Act.mirrors_lift

theorem lookup (h : content.Mirrors R content') (id : String)
    : Act.Mirrors R (content.lookup id) (content'.lookup id) := by
  unfold Content.lookup
  refine Act.mirrors_bind (Act.mirrors_attempt (h.item? id)) fun found => ?_
  split
  . apply Act.mirrors_pure
  . apply Act.mirrors_pure

end Content.Mirrors

namespace Menu

variable {R : σ → τ → Prop} {content : Content ρ σ} {content' : Content ρ τ}

theorem mirrors_people (h : content.Mirrors R content') (location : String) (ids : List String)
    : Act.Mirrors R (people content location ids) (people content' location ids) := by
  induction ids with
  | nil => apply Act.mirrors_pure
  | cons id ids ih =>
    unfold people
    refine Act.mirrors_bind (h.npc? location id) fun found => ?_
    exact Act.mirrors_bind ih fun rest => Act.mirrors_pure _

variable [Scalar ρ] (scope : Scope ρ) (registry : Registry ρ)

theorem mirrors_sceneNpcs (h : content.Mirrors R content') (scene : Scene ρ)
    : Act.Mirrors R (sceneNpcs content scene) (sceneNpcs content' scene) := by
  unfold sceneNpcs
  apply Act.mirrors_ite
  . exact Act.mirrors_bind (h.npcs scene.location) fun rows => Act.mirrors_pure _
  . exact mirrors_people h scene.location scene.npcs

theorem mirrors_optionChoices (h : content.Mirrors R content') (env : Env ρ) (location : String)
    (ids : List String)
    : Act.Mirrors R (optionChoices ⟨content, scope, registry⟩ env location ids)
      (optionChoices ⟨content', scope, registry⟩ env location ids) := by
  unfold optionChoices
  exact Act.mirrors_bind (h.options location ids) fun rows => Act.mirrors_lift _

theorem mirrors_choices (h : content.Mirrors R content') (scene : Scene ρ) (npc : Value ρ)
    : Act.Mirrors R (choices ⟨content, scope, registry⟩ scene npc)
      (choices ⟨content', scope, registry⟩ scene npc) := by
  have hoptions (location : String) (ids : List String) :=
    mirrors_optionChoices scope registry h (envOf scene npc) location ids
  unfold choices entries
  refine Act.mirrors_bind ?_ fun entries => Act.mirrors_pure _
  refine Act.mirrors_bind (mirrors_sceneNpcs h scene) fun people => ?_
  refine Act.mirrors_bind (Act.mirrors_lift _) fun talks => ?_
  dsimp only
  split
  . refine Act.mirrors_bind (Act.mirrors_lift _) fun id => ?_
    refine Act.mirrors_bind (h.optionsOf scene.location id) fun ids => ?_
    refine Act.mirrors_bind (hoptions scene.location ids) fun offered => ?_
    exact Act.mirrors_bind (hoptions scene.location scene.options) fun own => Act.mirrors_pure _
  . refine Act.mirrors_bind (Act.mirrors_pure _) fun offered => ?_
    exact Act.mirrors_bind (hoptions scene.location scene.options) fun own => Act.mirrors_pure _

theorem mirrors_pathChoices (h : content.Mirrors R content') (scene : Scene ρ) (npc : Value ρ)
    (base : Record ρ)
    : Act.Mirrors R (pathChoices ⟨content, scope, registry⟩ scene npc base)
      (pathChoices ⟨content', scope, registry⟩ scene npc base) := by
  have hone (id : String) :
      Act.Mirrors R (pathChoice ⟨content, scope, registry⟩ scene (envOf scene npc) base id)
        (pathChoice ⟨content', scope, registry⟩ scene (envOf scene npc) base id) := by
    unfold pathChoice
    dsimp only
    cases Table.get? registry id with
    | none => apply Act.mirrors_pure
    | some view =>
      refine Act.mirrors_bind (h.option? scene.location _) fun row => ?_
      refine Act.mirrors_bind (Act.mirrors_lift _) fun isOpen => ?_
      apply Act.mirrors_ite
      . apply Act.mirrors_pure
      . exact Act.mirrors_bind (Act.mirrors_lift _) fun name => Act.mirrors_pure _
  unfold pathChoices
  induction scene.path with
  | nil => apply Act.mirrors_pure
  | cons id ids ih =>
    unfold pathChoicesTo
    refine Act.mirrors_bind (hone id) fun choice => ?_
    exact Act.mirrors_bind ih fun rest => Act.mirrors_pure _

theorem mirrors_sceneView (h : content.Mirrors R content') (scene : Scene ρ) (npc : Value ρ)
    (choices : List (Choice ρ))
    : Act.Mirrors R (sceneView ⟨content, scope, registry⟩ scene npc choices)
      (sceneView ⟨content', scope, registry⟩ scene npc choices) := by
  unfold sceneView npcPanel
  refine Act.mirrors_bind ?_ fun panel => Act.mirrors_pure _
  apply Act.mirrors_ite
  . apply Act.mirrors_pure
  . refine Act.mirrors_bind (Act.mirrors_lift _) fun id => ?_
    refine Act.mirrors_bind (h.npc? scene.location id) fun row => ?_
    cases row with
    | none => apply Act.mirrors_pure
    | some row =>
      apply Act.mirrors_map
      apply Act.mirrors_lift

end Menu

/-! ### Turns -/

/-- Stages on which related plays go alike. -/
structure Stage.Mirrors (R : S → S' → Prop) (stage : Stage ρ S) (stage' : Stage ρ S') : Prop where
  content : stage.content.Mirrors R stage'.content
  scope : ∀ s t, R s t → stage.scope s = stage'.scope t
  registry : ∀ s t, R s t → stage.registry s = stage'.registry t
  interpret : ∀ definition cost,
    Act.Mirrors R (stage.interpret definition cost) (stage'.interpret definition cost)
  scaled : ∀ hours,
    Act.Mirrors R (Turn.scaledTime stage hours) (Turn.scaledTime stage' hours)
  pack : Act.Mirrors R stage.pack stage'.pack

namespace Turn

/-- The same player in related plays. -/
inductive Seat.Alike (R : S → S' → Prop) : Seat ρ S V → Seat ρ S' V → Prop where
  | intro {play : S} {play' : S'} (h : R play play') (npc : Value ρ) (view : V) :
    Alike R ⟨play, npc, view⟩ ⟨play', npc, view⟩

variable {R : S → S' → Prop} {stage : Stage ρ S} {stage' : Stage ρ S'} {α : Type}

theorem Seat.Alike.play {seat : Seat ρ S V} {seat' : Seat ρ S' V} (h : Seat.Alike R seat seat')
    : R seat.play seat'.play := by
  cases h
  assumption

theorem mirrors_onPlay {act : Act S α} {act' : Act S' α} (h : Act.Mirrors R act act')
    : Act.Mirrors (Seat.Alike R) (onPlay act : Act (Seat ρ S V) α) (onPlay act') := by
  refine Act.mirrors_within h ?_ ?_
  . rintro _ _ ⟨hplay, npc, view⟩
    exact hplay
  . rintro _ _ _ _ ⟨_, npc, view⟩ hplay
    exact .intro hplay npc view

theorem mirrors_onView (act : Act V α)
    : Act.Mirrors (Seat.Alike R) (onView act : Act (Seat ρ S V) α)
      (onView act : Act (Seat ρ S' V) α) := by
  refine Act.mirrors_part act ?_ ?_
  . rintro _ _ ⟨hplay, npc, view⟩
    rfl
  . rintro _ _ view' ⟨hplay, npc, view⟩
    exact .intro hplay npc view'

variable [Scalar ρ]

theorem mirrors_leave (h : stage.Mirrors R stage') (choice : Choice ρ)
    : Act.Mirrors R (leave stage choice) (leave stage' choice) := by
  unfold leave
  refine Act.mirrors_bind (Act.mirrors_lift _) fun location => ?_
  refine Act.mirrors_bind (h.scaled _) fun time => ?_
  exact Act.mirrors_bind (h.interpret _ time) fun result => Act.mirrors_pure _

theorem mirrors_travel (h : stage.Mirrors R stage') (view : View ρ V) (scene : Scene ρ)
    (base : Record ρ)
    : Act.Mirrors (Seat.Alike R) (travel stage view scene base) (travel stage' view scene base) := by
  unfold travel
  apply Act.mirrors_get_bind
  rintro _ _ ⟨hplay, npc, v⟩
  dsimp only
  refine Act.mirrors_bind (mirrors_onPlay ?_) fun choices => ?_
  . unfold stall
    rw [h.scope _ _ hplay, h.registry _ _ hplay]
    exact Menu.mirrors_pathChoices _ _ h.content scene npc base
  . refine Act.mirrors_bind (mirrors_onView _) fun picked => ?_
    apply Act.mirrors_ite
    . apply Act.mirrors_pure
    . cases choices.find? fun c => isId picked c.id with
      | none => apply Act.mirrors_pure
      | some choice =>
        apply Act.mirrors_map
        exact mirrors_onPlay (mirrors_leave h choice)

theorem mirrors_act (h : stage.Mirrors R stage') (view : View ρ V) (picked : String)
    (details : Record ρ)
    : Act.Mirrors (Seat.Alike R) (act stage view picked details) (act stage' view picked details) := by
  unfold act
  dsimp only
  split
  . refine Act.mirrors_bind (mirrors_onView _) fun _ => ?_
    exact Act.mirrors_bind (mirrors_onPlay (h.interpret _ _)) fun result => Act.mirrors_pure _
  . exact Act.mirrors_bind (mirrors_onPlay (h.interpret _ _)) fun result => Act.mirrors_pure _

theorem mirrors_present (h : stage.Mirrors R stage') (view : View ρ V) (scene : Scene ρ)
    : Act.Mirrors (Seat.Alike R) (present stage view scene) (present stage' view scene) := by
  unfold present
  apply Act.mirrors_get_bind
  rintro _ _ ⟨hplay, npc, v⟩
  unfold stall
  dsimp only
  rw [h.scope _ _ hplay, h.registry _ _ hplay]
  refine Act.mirrors_bind (mirrors_onPlay ?_) fun choices => ?_
  . exact Menu.mirrors_choices _ _ h.content scene npc
  . refine Act.mirrors_bind (mirrors_onPlay ?_) fun dto => ?_
    . exact Menu.mirrors_sceneView _ _ h.content scene npc choices
    . exact Act.mirrors_bind (mirrors_onView _) fun answer => Act.mirrors_pure _

theorem mirrors_rounds (h : stage.Mirrors R stage') (view : View ρ V) (scene : Scene ρ) (fuel : Nat)
    : Act.Mirrors (Seat.Alike R) (rounds stage view scene fuel) (rounds stage' view scene fuel) := by
  induction fuel with
  | zero => apply Act.mirrors_pure
  | succ fuel ih =>
    unfold rounds
    refine Act.mirrors_bind (mirrors_present h view scene) fun shown => ?_
    obtain ⟨choices, answer⟩ := shown
    dsimp only
    apply Act.mirrors_ite
    . apply Act.mirrors_pure
    . refine Act.mirrors_bind (Act.mirrors_lift _) fun picked => ?_
      cases behind? talkStart picked with
      | some npc =>
        refine Act.mirrors_bind (Act.mirrors_modify ?_) fun _ => ih
        rintro _ _ ⟨hplay, _, v⟩
        exact .intro hplay _ v
      | none =>
        dsimp only
        apply Act.mirrors_ite
        . refine Act.mirrors_bind (mirrors_onPlay h.pack) fun dto => ?_
          exact Act.mirrors_bind (mirrors_onView _) fun _ => ih
        . apply Act.mirrors_ite
          . apply Act.mirrors_pure
          . apply Act.mirrors_ite
            . refine Act.mirrors_bind (mirrors_travel h view scene _) fun result => ?_
              cases result with
              | none => exact ih
              | some result => apply Act.mirrors_pure
            . apply mirrors_act h

theorem mirrors_run (h : stage.Mirrors R stage') (view : View ρ V) (scene : Scene ρ)
    : Act.Mirrors (Seat.Alike R) (run stage view scene) (run stage' view scene) := by
  unfold run
  apply Act.mirrors_get_bind
  rintro _ _ ⟨hplay, npc, v⟩
  exact mirrors_rounds h view scene _

end Turn

/-! ### Navigation -/

namespace Navigation

open Act (Beside)

variable {R : σ → τ → Prop} {source : Value ρ → Act σ (Value ρ)}
  {source' : Value ρ → Act τ (Value ρ)} {allows : Option (Record ρ → Except Fault Bool)}

theorem mirrors_info (h : ∀ id, Act.Mirrors R (source id) (source' id)) (location : Value ρ)
    : Act.Mirrors R (Atlas.info ⟨source, allows⟩ location) (Atlas.info ⟨source', allows⟩ location) := by
  unfold Atlas.info
  refine Act.mirrors_bind (Act.mirrors_attempt (h location)) fun found => ?_
  cases found with
  | error e => apply Act.mirrors_pure
  | ok v => apply Act.mirrors_pure

variable [Scalar ρ]

theorem mirrors_approach (h : ∀ id, Act.Mirrors R (source id) (source' id)) (location : Value ρ)
    : Act.Mirrors (Beside R) (approach ⟨source, allows⟩ location)
      (approach ⟨source', allows⟩ location) := by
  unfold approach
  refine Act.mirrors_bind (Act.mirrors_onSecond (mirrors_info h location)) fun info => ?_
  exact Act.mirrors_bind (Act.mirrors_onFirst _) fun _ => Act.mirrors_pure _

theorem mirrors_moveTo (h : ∀ id, Act.Mirrors R (source id) (source' id)) (location scene : Value ρ)
    : Act.Mirrors (Beside R) (moveTo ⟨source, allows⟩ location scene)
      (moveTo ⟨source', allows⟩ location scene) := by
  have hall (ids : List String) :
      Act.Mirrors (Beside R) (approachAll ⟨source, allows⟩ ids)
        (approachAll ⟨source', allows⟩ ids) := by
    induction ids with
    | nil => apply Act.mirrors_pure
    | cons id ids ih =>
      unfold approachAll
      exact Act.mirrors_bind (mirrors_approach h _) fun _ => ih
  unfold moveTo seek
  split
  . refine Act.mirrors_bind ?_ fun p => ?_
    . refine Act.mirrors_bind (Act.mirrors_lift _) fun name => ?_
      refine Act.mirrors_bind (mirrors_approach h _) fun info => ?_
      refine Act.mirrors_bind (Act.mirrors_lift _) fun asked => ?_
      refine Act.mirrors_bind (Act.mirrors_lift _) fun settled => ?_
      refine Act.mirrors_bind (Act.mirrors_lift _) fun gated => ?_
      refine Act.mirrors_bind (Act.mirrors_lift _) fun found => ?_
      exact Act.mirrors_bind (hall _) fun _ => Act.mirrors_pure _
    . exact Act.mirrors_bind (Act.mirrors_onFirst _) fun _ => Act.mirrors_pure _
  . apply Act.mirrors_get_bind
    rintro _ _ ⟨n, _⟩
    apply Act.mirrors_pure

theorem mirrors_current (h : ∀ id, Act.Mirrors R (source id) (source' id))
    : Act.Mirrors (Beside R) (current ⟨source, allows⟩) (current ⟨source', allows⟩) := by
  unfold current
  apply Act.mirrors_get_bind
  rintro _ _ ⟨n, _⟩
  cases n.pointer with
  | none => apply Act.mirrors_pure
  | some p =>
    refine Act.mirrors_bind (mirrors_approach h _) fun info => ?_
    refine Act.mirrors_bind (Act.mirrors_lift _) fun scene => ?_
    dsimp only
    split
    . refine Act.mirrors_bind (Act.mirrors_onFirst _) fun _ => ?_
      exact Act.mirrors_bind (Act.mirrors_lift _) fun scene => Act.mirrors_pure _
    . exact Act.mirrors_bind (Act.mirrors_lift _) fun scene => Act.mirrors_pure _

theorem mirrors_apply (h : ∀ id, Act.Mirrors R (source id) (source' id)) (outcome : Value ρ)
    : Act.Mirrors (Beside R) (apply ⟨source, allows⟩ outcome) (apply ⟨source', allows⟩ outcome) := by
  unfold apply
  apply Act.mirrors_get_bind
  rintro _ _ ⟨n, _⟩
  dsimp only
  split
  . apply Act.mirrors_pure
  refine Act.mirrors_bind (Act.mirrors_lift _) fun name => ?_
  split
  . exact Act.mirrors_bind (Act.mirrors_lift _) fun id => mirrors_moveTo h _ _
  cases n.pointer with
  | none => exact mirrors_moveTo h _ _
  | some p =>
    dsimp only
    split
    . apply Act.mirrors_pure
    refine Act.mirrors_bind (Act.mirrors_onSecond ?_) fun scenes => ?_
    . exact Act.mirrors_bind (mirrors_info h _) fun info => Act.mirrors_pure _
    split
    . refine Act.mirrors_bind ?_ fun isLocal => ?_
      . refine Act.mirrors_bind (mirrors_approach h _) fun info => ?_
        exact Act.mirrors_bind (Act.mirrors_lift _) fun found => Act.mirrors_pure _
      . exact Act.mirrors_ite (mirrors_moveTo h _ _) (mirrors_moveTo h _ _)
    . exact mirrors_moveTo h _ _

theorem mirrors_start (h : ∀ id, Act.Mirrors R (source id) (source' id)) (place : Value ρ)
    : Act.Mirrors (Beside R) (start ⟨source, allows⟩ place) (start ⟨source', allows⟩ place) := by
  have hmove (location scene : Value ρ) :
      Act.Mirrors (Beside R) (moveTo ⟨source, allows⟩ location scene)
        (moveTo ⟨source', allows⟩ location scene) := mirrors_moveTo h location scene
  unfold start
  cases place with
  | pointer location scene => exact Act.mirrors_bind (hmove _ _) fun _ => Act.mirrors_pure _
  | object r =>
    dsimp only
    split
    . exact Act.mirrors_bind (hmove _ _) fun _ => Act.mirrors_pure _
    . apply Act.mirrors_pure
  | _ => apply Act.mirrors_pure

end Navigation

/-! ### Belongings -/

section

variable {R : σ → τ → Prop} {lookup : ItemLookup ρ σ} {lookup' : ItemLookup ρ τ}

variable [Scalar ρ]

theorem ItemLookup.mirrors_record (h : ∀ id, Act.Mirrors R (lookup id) (lookup' id)) (id : String)
    : Act.Mirrors R (lookup.record id) (lookup'.record id) := by
  unfold ItemLookup.record
  refine Act.mirrors_bind (Act.mirrors_attempt (h id)) fun found => ?_
  cases found with
  | error e => apply Act.mirrors_pure
  | ok v => apply Act.mirrors_pure

theorem Inventory.mirrors_entries (h : ∀ id, Act.Mirrors R (lookup id) (lookup' id))
    (inv : Inventory) : Act.Mirrors R (inv.entries lookup) (inv.entries lookup') := by
  unfold Inventory.entries
  induction inv.counts with
  | nil => apply Act.mirrors_pure
  | cons row rows ih =>
    obtain ⟨id, quantity⟩ := row
    unfold Inventory.entriesOf
    refine Act.mirrors_bind (ItemLookup.mirrors_record h id) fun row => ?_
    refine Act.mirrors_bind (Act.mirrors_lift _) fun entry => ?_
    exact Act.mirrors_bind ih fun rest => Act.mirrors_pure _

namespace Belongings

open Act (Beside)

theorem mirrors_hear (h : ∀ id, Act.Mirrors R (lookup id) (lookup' id)) (listener : String)
    (change : InventoryChange)
    : Act.Mirrors (Beside R) (hear lookup listener change) (hear lookup' listener change) := by
  have hshift (delta : Int) (rows : List (String × Value ρ)) :
      Act.Mirrors (Beside R) (shiftTraits delta rows : Act (Belongings ρ × σ) Unit)
        (shiftTraits delta rows) := by
    induction rows with
    | nil => apply Act.mirrors_pure
    | cons row rows ih =>
      obtain ⟨name, v⟩ := row
      cases v with
      | num n =>
        unfold shiftTraits
        refine Act.mirrors_bind (Act.mirrors_lift _) fun x => ?_
        refine Act.mirrors_bind (Act.mirrors_lift _) fun y => ?_
        dsimp only
        split
        . exact Act.mirrors_bind (Act.mirrors_onFirst _) fun _ => ih
        split
        . exact Act.mirrors_bind (Act.mirrors_onFirst _) fun _ => ih
        . exact ih
      | _ => exact ih
  unfold hear
  split
  . unfold recomputeSpeed Travel.speed
    apply Act.mirrors_get_bind
    rintro _ _ ⟨goods, _⟩
    refine Act.mirrors_bind (Act.mirrors_onSecond ?_) fun speed => Act.mirrors_onFirst _
    exact Act.mirrors_bind (Inventory.mirrors_entries h _) fun entries => Act.mirrors_pure _
  split
  . refine Act.mirrors_bind (Act.mirrors_onSecond ?_) fun row => hshift _ _
    exact ItemLookup.mirrors_record h _
  . apply Act.mirrors_pure

theorem mirrors_tell (h : ∀ id, Act.Mirrors R (lookup id) (lookup' id))
    (notices : List (String × InventoryChange))
    : Act.Mirrors (Beside R) (tell lookup notices) (tell lookup' notices) := by
  induction notices with
  | nil => apply Act.mirrors_pure
  | cons notice rest ih =>
    obtain ⟨listener, change⟩ := notice
    unfold tell Inventory.deliver
    exact Act.mirrors_bind (Act.mirrors_attempt (mirrors_hear h listener change)) fun _ => ih

theorem mirrors_handlePayload (h : ∀ id, Act.Mirrors R (lookup id) (lookup' id)) (verb : ItemVerb)
    (here : Except Fault (Value ρ)) (payload : Payload ρ)
    : Act.Mirrors (Beside R) (handlePayload lookup verb here payload)
      (handlePayload lookup' verb here payload) := by
  have hreceive (id qty : Value ρ) :
      Act.Mirrors (Beside R) (receive lookup id qty) (receive lookup' id qty) := by
    unfold receive
    refine Act.mirrors_bind (Act.mirrors_onFirst _) fun (amount, notices) => ?_
    exact Act.mirrors_bind (mirrors_tell h notices) fun _ => Act.mirrors_pure _
  have hsurrender (id qty : Value ρ) :
      Act.Mirrors (Beside R) (surrender lookup id qty) (surrender lookup' id qty) := by
    unfold surrender
    refine Act.mirrors_bind (Act.mirrors_onFirst _) fun (amount, notices) => ?_
    exact Act.mirrors_bind (mirrors_tell h notices) fun _ => Act.mirrors_pure _
  cases payload with
  | event e =>
    change Act.Mirrors (Beside R) (handle lookup verb here e) (handle lookup' verb here e)
    unfold handle
    cases e.args with
    | nil => apply Act.mirrors_pure
    | cons item args =>
      dsimp only
      split
      . cases verb with
        | take =>
          refine Act.mirrors_bind (Act.mirrors_lift _) fun location => ?_
          apply Act.mirrors_ite
          . refine Act.mirrors_bind (Act.mirrors_lift _) fun qty => ?_
            refine Act.mirrors_bind (Act.mirrors_onFirst _) fun taken => ?_
            apply Act.mirrors_ite
            . refine Act.mirrors_bind (Act.mirrors_lift _) fun whole => ?_
              exact Act.mirrors_bind (hreceive _ _) fun _ => Act.mirrors_pure _
            . apply Act.mirrors_pure
          . apply Act.mirrors_pure
        | drop =>
          refine Act.mirrors_bind (Act.mirrors_lift _) fun location => ?_
          apply Act.mirrors_ite
          . refine Act.mirrors_bind (Act.mirrors_lift _) fun qty => ?_
            refine Act.mirrors_bind (hsurrender _ _) fun dropped => ?_
            apply Act.mirrors_ite
            . exact Act.mirrors_onFirst _
            . apply Act.mirrors_pure
          . apply Act.mirrors_pure
        | gain =>
          refine Act.mirrors_bind (Act.mirrors_lift _) fun qty => ?_
          exact Act.mirrors_bind (hreceive _ _) fun _ => Act.mirrors_pure _
        | lose =>
          refine Act.mirrors_bind (Act.mirrors_lift _) fun qty => ?_
          exact Act.mirrors_bind (hsurrender _ _) fun _ => Act.mirrors_pure _
      . apply Act.mirrors_pure
  | value v => apply Act.mirrors_throw
  | hours x => apply Act.mirrors_throw

end Belongings

end

/-! ### Sessions -/

namespace Session

/-- The same session over other sources. -/
def withSources (s : Session ρ σ) (sources : τ) : Session ρ τ := {
  clock := s.clock
  goods := s.goods
  log := s.log
  navigation := s.navigation
  dayEnded := s.dayEnded
  journal := s.journal
  sources }

/-- Sessions that are the same but for their sources, which are related. -/
inductive Mirrored (R : σ → τ → Prop) (s : Session ρ σ) : Session ρ τ → Prop where
  | intro {sources : τ} (h : R s.sources sources) : Mirrored R s (s.withSources sources)

variable {R : σ → τ → Prop} {content : Content ρ σ} {content' : Content ρ τ} {α : Type}

section

open Act (Beside)

theorem mirrors_onSources {act : Act σ α} {act' : Act τ α} (h : Act.Mirrors R act act')
    : Act.Mirrors (Mirrored R) (onSources act : Act (Session ρ σ) α) (onSources act') := by
  refine Act.mirrors_within h ?_ ?_
  . rintro s _ ⟨hsources⟩
    exact hsources
  . rintro s _ sources sources' ⟨_⟩ hsources
    exact .intro hsources

theorem mirrors_onGoods {act : Act (Belongings ρ × σ) α} {act' : Act (Belongings ρ × τ) α}
    (h : Act.Mirrors (Beside R) act act')
    : Act.Mirrors (Mirrored R) (onGoods act : Act (Session ρ σ) α) (onGoods act') := by
  refine Act.mirrors_within h ?_ ?_
  . rintro s _ ⟨hsources⟩
    exact .intro s.goods hsources
  . rintro s _ _ _ ⟨_⟩ ⟨goods, hsources⟩
    exact .intro hsources

theorem mirrors_onClock (act : Act (Clock ρ) α)
    : Act.Mirrors (Mirrored R) (onClock act : Act (Session ρ σ) α) (onClock act) := by
  refine Act.mirrors_part act ?_ ?_
  . rintro s _ ⟨hsources⟩
    rfl
  . rintro s _ clock ⟨hsources⟩
    exact .intro hsources

variable [Scalar ρ]

theorem mirrors_navigate {act : Atlas ρ σ → Act (Navigation ρ × σ) α}
    {act' : Atlas ρ τ → Act (Navigation ρ × τ) α}
    (h : ∀ allows, Act.Mirrors (Beside R) (act ⟨content.location, allows⟩)
      (act' ⟨content'.location, allows⟩))
    : Act.Mirrors (Mirrored R) (navigate content act) (navigate content' act') := by
  unfold navigate
  apply Act.mirrors_get_bind
  rintro s _ ⟨hsources⟩
  refine Act.mirrors_within (h (some (Atlas.openAt s.clock))) ?_ ?_
  . rintro s _ ⟨hsources⟩
    exact .intro s.navigation hsources
  . rintro s _ _ _ ⟨_⟩ ⟨navigation, hsources⟩
    exact .intro hsources

theorem mirrors_pass (hours : Value ρ)
    : Act.Mirrors (Mirrored R) (pass hours : Act (Session ρ σ) Unit) (pass hours) := by
  unfold pass
  refine Act.mirrors_bind (mirrors_onClock _) fun told => ?_
  apply Act.mirrors_ite
  . apply Act.mirrors_modify
    rintro s _ ⟨hsources⟩
    exact .intro hsources
  . apply Act.mirrors_pure

end

variable [Scalar ρ]

theorem mirrors_perform (h : content.Mirrors R content') (duty : Duty) (payload : Payload ρ)
    : Act.Mirrors (Mirrored R) (perform content duty payload) (perform content' duty payload) := by
  cases duty with
  | travel =>
    cases payload with
    | value v =>
      refine Act.mirrors_bind (mirrors_navigate fun _ => ?_) fun _ => Act.mirrors_pure _
      exact Navigation.mirrors_apply h.location v
    | hours _ => apply Act.mirrors_pure
    | event _ => apply Act.mirrors_pure
  | time =>
    cases payload with
    | value _ => apply Act.mirrors_pure
    | hours hours => exact Act.mirrors_ite (mirrors_pass _) (Act.mirrors_pure _)
    | event _ => apply Act.mirrors_pure
  | items verb =>
    apply Act.mirrors_get_bind
    rintro s _ ⟨hsources⟩
    exact mirrors_onGoods (Belongings.mirrors_handlePayload h.lookup verb _ payload)

theorem mirrors_publish (h : content.Mirrors R content') (topic : String) (payload : Payload ρ)
    : Act.Mirrors (Mirrored R) (publish content topic payload) (publish content' topic payload) := by
  have hdeliver (rows : List (Subscription Duty)) (s : Session ρ σ) (t : Session ρ τ)
      (hst : Mirrored R s t) :
      Mirrored R
        (rows.foldl (Bus.deliver (fun _ s => s) fun duty => perform content duty payload) s)
        (rows.foldl (Bus.deliver (fun _ s => s) fun duty => perform content' duty payload) t) := by
    induction rows generalizing s t with
    | nil => exact hst
    | cons row rows ih =>
      apply ih
      obtain ⟨hresult, hstate⟩ := mirrors_perform h row.handler payload s t hst
      unfold Bus.deliver
      split
      next hs =>
        rw [hs] at hresult hstate
        split
        next ht =>
          rw [ht] at hstate
          exact hstate
        next ht =>
          rw [ht] at hresult
          cases hresult
      next hs =>
        rw [hs] at hresult hstate
        split
        next ht =>
          rw [ht] at hresult
          cases hresult
        next ht =>
          rw [ht] at hstate
          exact hstate
  apply Act.mirrors_modify
  rintro s _ ⟨hsources⟩
  exact hdeliver _ _ _ (.intro hsources)

theorem mirrors_interpret (h : content.Mirrors R content') (definition cost : Value ρ)
    : Act.Mirrors (Mirrored R) ((crew content).interpret definition cost)
      ((crew content').interpret definition cost) := by
  have hpublish (topic : String) (payload : Payload ρ) := mirrors_publish h topic payload
  have hone (effect : Effect ρ) :
      Act.Mirrors (Mirrored R) ((crew content).perform effect) ((crew content').perform effect) := by
    cases effect with
    | go location scene => exact Act.mirrors_bind (hpublish _ _) fun _ => Act.mirrors_pure _
    | trait name delta =>
      refine Act.mirrors_bind ?_ fun _ => Act.mirrors_pure _
      exact Act.mirrors_bind (mirrors_onGoods (Act.mirrors_onFirst _)) fun _ => Act.mirrors_pure _
    | event token args =>
      refine Act.mirrors_bind (Act.mirrors_modify ?_) fun _ => ?_
      . rintro s _ ⟨hsources⟩
        exact .intro hsources
      . refine Act.mirrors_bind (hpublish _ _) fun _ => ?_
        exact Act.mirrors_bind (hpublish _ _) fun _ => Act.mirrors_pure _
    | time hours =>
      unfold Crew.perform
      dsimp only
      split
      . exact Act.mirrors_bind (hpublish _ _) fun _ => Act.mirrors_pure _
      . apply Act.mirrors_pure
  have hall (last : Value ρ) (effects : List (Effect ρ)) :
      Act.Mirrors (Mirrored R) ((crew content).performAll last effects)
        ((crew content').performAll last effects) := by
    induction effects generalizing last with
    | nil => apply Act.mirrors_pure
    | cons effect effects ih =>
      unfold Crew.performAll
      refine Act.mirrors_bind (Act.mirrors_attempt (hone effect)) fun outcome => ?_
      cases outcome with
      | error e => exact ih _
      | ok v => exact ih _
  exact Act.mirrors_bind (Act.mirrors_lift _) fun effects => hall _ _

theorem mirrors_stage (h : content.Mirrors R content')
    : (stage content).Mirrors (Mirrored R) (stage content') where
  content := by
    refine h.within ?_ ?_
    . rintro s _ ⟨hsources⟩
      exact hsources
    . rintro s _ sources sources' ⟨_⟩ hsources
      exact .intro hsources
  scope := by
    rintro s _ ⟨hsources⟩
    rfl
  registry := by
    rintro s _ ⟨hsources⟩
    rfl
  interpret := mirrors_interpret h
  scaled hours := by
    refine Act.mirrors_bind (Act.mirrors_attempt (Act.mirrors_ask ?_)) fun outcome => ?_
    . rintro s _ ⟨hsources⟩
      rfl
    . cases outcome with
      | error e => apply Act.mirrors_pure
      | ok v => apply Act.mirrors_pure
  pack := by
    apply Act.mirrors_get_bind
    rintro s _ ⟨hsources⟩
    refine Act.mirrors_bind (mirrors_onSources ?_) fun entries => Act.mirrors_pure _
    exact Inventory.mirrors_entries h.lookup _

/-- Turns over sources that answer alike go alike. -/
theorem mirrors_turn (h : content.Mirrors R content') (view : View ρ V)
    : Act.Mirrors (Turn.Seat.Alike (Mirrored R)) (turn content view) (turn content' view) := by
  unfold turn scene?
  refine Act.mirrors_bind (Turn.mirrors_onPlay (mirrors_navigate fun _ => ?_)) fun found => ?_
  . exact Navigation.mirrors_current h.location
  cases found with
  | none => apply Act.mirrors_pure
  | some scene =>
    refine Act.mirrors_bind (Turn.mirrors_onPlay (mirrors_onGoods (Act.mirrors_onFirst _)))
      fun _ => ?_
    apply Act.mirrors_get_bind
    rintro ⟨s, npc, v⟩ _ ⟨⟨hsources⟩⟩
    refine Act.mirrors_bind (Act.mirrors_lift _) fun time => ?_
    refine Act.mirrors_bind (Turn.mirrors_onView _) fun _ => ?_
    refine Act.mirrors_bind (Turn.mirrors_run (mirrors_stage h) view scene) fun result => ?_
    refine Act.mirrors_bind (Turn.mirrors_onPlay (mirrors_navigate fun _ => ?_))
      fun _ => Act.mirrors_pure _
    exact Navigation.mirrors_apply h.location result

end Session

end Storyworld
