import Storyworld.Ledger
import Storyworld.Proofs.Navigation
import Storyworld.Proofs.Plain
import Storyworld.Proofs.Turn

/-!
This module contains playable stories: their records are plain, and neither a path nor an effect
leads to a location whose name is blank. Whatever a turn makes of such a story can be made.
-/

namespace Storyworld

/-! ### Playable stories -/

section

variable {ρ : Type} [Scalar ρ]

/-- A jump that leads to a location with a name. -/
def Effect.isGrounded : Effect ρ → Bool
  | .go location _ => Text.strip location != ""
  | _ => true

/-- An effect that jumps to no location without a name. -/
def Effect.Grounded (definition : Value ρ) : Prop :=
  ∀ effect ∈ Effect.ofValue definition, effect.isGrounded = true

/-- A path on which every location has a name; a name that is empty is passed over. -/
def Value.Walkable (path : Value ρ) : Prop :=
  ∀ v ∈ path.listD, v.display = "" ∨ Text.strip v.display ≠ ""

/-- A scene that can be entered: its path can be walked, and there are scalars for its hours and for
the quantities of its items. -/
structure Record.Enterable (scene : Record ρ) : Prop where
  path : (Record.field scene "path").Walkable
  start : (Record.field scene "from").fitsScalar = true
  finish : (Record.field scene "to").fitsScalar = true
  items : ∀ item ∈ (Scene.ofRecord .null .null scene .null).items,
    (Ledger.declared item).fitsScalar = true

/-- A location whose path can be walked and whose scenes can be entered. -/
structure Record.Walkable (info : Record ρ) : Prop where
  plain : Record.Plain info
  path : (Record.field info "path").Walkable
  scenes : ∀ scene ∈ Atlas.scenes info, Record.Enterable scene

/-- An option that can be read and played. -/
structure Record.Playable (row : Record ρ) : Prop where
  plain : Record.Plain row
  time : (Record.field row "time").fitsScalar = true
  grounded : Effect.Grounded (Menu.effectOf row)

/-- An item that can be carried: there are scalars for its speed and for what it does to traits. -/
structure Record.Portable (row : Record ρ) : Prop where
  plain : Record.Plain row
  speed : (Record.field row "speed").fitsScalar = true
  traits : ∀ m ∈ (Record.field row "traits").recordD, m.2.fitsScalar = true

structure Memory.Playable (m : Memory ρ) : Prop where
  locations : ∀ entry ∈ m.locations, Record.Walkable entry.2
  options : ∀ entry ∈ m.options, ∀ row ∈ entry.2, Record.Playable row.2
  npcs : ∀ entry ∈ m.npcs, ∀ row ∈ entry.2, Record.Plain row.2
  items : ∀ entry ∈ m.items, Record.Portable entry.2

instance (v : Value ρ) : Decidable v.Plain := inferInstanceAs (Decidable (_ = true))

instance (r : Record ρ) : Decidable (Record.Plain r) := inferInstanceAs (Decidable (∀ m ∈ r, _))

instance (definition : Value ρ) : Decidable (Effect.Grounded definition) :=
  inferInstanceAs (Decidable (∀ effect ∈ Effect.ofValue definition, _))

instance (path : Value ρ) : Decidable path.Walkable :=
  inferInstanceAs (Decidable (∀ v ∈ path.listD, _))

instance (scene : Record ρ) : Decidable (Record.Enterable scene) :=
  decidable_of_iff ((Record.field scene "path").Walkable
    ∧ (Record.field scene "from").fitsScalar = true ∧ (Record.field scene "to").fitsScalar = true
    ∧ ∀ item ∈ (Scene.ofRecord .null .null scene .null).items,
      (Ledger.declared item).fitsScalar = true)
    ⟨fun h => ⟨h.1, h.2.1, h.2.2.1, h.2.2.2⟩, fun h => ⟨h.path, h.start, h.finish, h.items⟩⟩

instance (info : Record ρ) : Decidable (Record.Walkable info) :=
  decidable_of_iff (Record.Plain info ∧ (Record.field info "path").Walkable
    ∧ ∀ scene ∈ Atlas.scenes info, Record.Enterable scene)
    ⟨fun h => ⟨h.1, h.2.1, h.2.2⟩, fun h => ⟨h.plain, h.path, h.scenes⟩⟩

instance (row : Record ρ) : Decidable (Record.Playable row) :=
  decidable_of_iff (Record.Plain row ∧ (Record.field row "time").fitsScalar = true
    ∧ Effect.Grounded (Menu.effectOf row))
    ⟨fun h => ⟨h.1, h.2.1, h.2.2⟩, fun h => ⟨h.plain, h.time, h.grounded⟩⟩

instance (row : Record ρ) : Decidable (Record.Portable row) :=
  decidable_of_iff (Record.Plain row ∧ (Record.field row "speed").fitsScalar = true
    ∧ ∀ m ∈ (Record.field row "traits").recordD, m.2.fitsScalar = true)
    ⟨fun h => ⟨h.1, h.2.1, h.2.2⟩, fun h => ⟨h.plain, h.speed, h.traits⟩⟩

instance (m : Memory ρ) : Decidable m.Playable :=
  decidable_of_iff ((∀ entry ∈ m.locations, Record.Walkable entry.2)
    ∧ (∀ entry ∈ m.options, ∀ row ∈ entry.2, Record.Playable row.2)
    ∧ (∀ entry ∈ m.npcs, ∀ row ∈ entry.2, Record.Plain row.2)
    ∧ ∀ entry ∈ m.items, Record.Portable entry.2)
    ⟨fun h => ⟨h.1, h.2.1, h.2.2.1, h.2.2.2⟩, fun h => ⟨h.locations, h.options, h.npcs, h.items⟩⟩

/-- The sources of a story, as far as a turn asks them, answer with what can be read and played. -/
structure Content.Serves {S : Type} (P : S → Prop) (content : Content ρ S) : Prop where
  option? : ∀ location id, Act.Gives P (content.option? location id) fun row? =>
    ∀ row ∈ row?, Record.Playable row
  npc? : ∀ location id, Act.Gives P (content.npc? location id) fun row? =>
    ∀ row ∈ row?, Record.Plain row
  npcs : ∀ location, Act.Gives P (content.npcs location) fun rows => ∀ row ∈ rows, Record.Plain row
  item? : ∀ id, Act.Gives P (content.item? id) fun row? => ∀ row ∈ row?, Record.Portable row

theorem Record.portable_nil : Record.Portable ([] : Record ρ) where
  plain := Record.plain_nil
  speed := rfl
  traits _ h := by cases h

/-- The id and the name of an item are not measured. -/
theorem Record.Portable.set {row : Record ρ} (h : Record.Portable row) {name : String}
    (hname : name = "id" ∨ name = "name") {v : Value ρ} (hv : v.Plain)
    : Record.Portable (Table.set row name v) := by
  have hfield {other : String} (hne : name ≠ other) :
      Record.field (Table.set row name v) other = Record.field row other := by
    unfold Record.field
    rw [Table.get?_set_of_ne row v hne]
  have hspeed : name ≠ "speed" := by rcases hname with rfl | rfl <;> decide
  have htraits : name ≠ "traits" := by rcases hname with rfl | rfl <;> decide
  refine ⟨h.plain.set name hv, ?_, ?_⟩
  . rw [hfield hspeed]
    exact h.speed
  . rw [hfield htraits]
    exact h.traits

theorem Record.playable_nil : Record.Playable ([] : Record ρ) where
  plain := Record.plain_nil
  time := rfl
  grounded _ h := by cases h

theorem Memory.Playable.serves {m : Memory ρ} (h : m.Playable) {S : Type} {P : S → Prop}
    : (m.content : Content ρ S).Serves P where
  option? location id := by
    apply Act.gives_pure
    intro row hrow
    obtain ⟨rows, hrows, hid⟩ := Option.bind_eq_some_iff.mp hrow
    exact h.options _ (Table.mem_of_get? hrows) _ (Table.mem_of_get? hid)
  npc? location id := by
    apply Act.gives_pure
    intro row hrow
    obtain ⟨rows, hrows, hid⟩ := Option.bind_eq_some_iff.mp hrow
    exact h.npcs _ (Table.mem_of_get? hrows) _ (Table.mem_of_get? hid)
  npcs location := by
    apply Act.gives_pure
    intro row hrow
    obtain ⟨entry, hentry, rfl⟩ := List.mem_map.mp hrow
    cases hrows : Table.get? m.npcs location with
    | none =>
      rw [hrows] at hentry
      cases hentry
    | some rows =>
      rw [hrows] at hentry
      exact h.npcs _ (Table.mem_of_get? hrows) entry hentry
  item? id := by
    apply Act.gives_pure
    intro row hrow
    obtain ⟨found, hfound, rfl⟩ := Option.map_eq_some_iff.mp hrow
    have hportable := h.items _ (Table.mem_of_get? hfound)
    have hname : ((Record.field found "name").orElse (.text id)).Plain :=
      (hportable.plain.field "name").orElse (.text id)
    exact (hportable.set (.inl rfl) (.text id)).set (.inr rfl) hname

theorem Content.Serves.within {S T : Type} {P : S → Prop} {R : T → Prop} {part : S → T}
    {put : T → S → S} {content : Content ρ T} (h : content.Serves R)
    (hpart : ∀ s, P s → R (part s)) (hput : ∀ s t, P s → R t → P (put t s))
    : (content.within part put).Serves P where
  option? location id := Act.gives_within (h.option? location id) hpart hput
  npc? location id := Act.gives_within (h.npc? location id) hpart hput
  npcs location := Act.gives_within (h.npcs location) hpart hput
  item? id := Act.gives_within (h.item? id) hpart hput

end

/-! ### Menus -/

namespace Menu

variable {ρ S : Type} [Scalar ρ] {P : S → Prop}

/-- A choice whose effect can be read and played. -/
structure Sound (details : Record ρ) : Prop where
  time : (Record.field details "time").fitsScalar = true
  effect : (effectOf details).Plain
  grounded : Effect.Grounded (effectOf details)

theorem sound_nil : Sound ([] : Record ρ) where
  time := rfl
  effect := .null
  grounded _ h := by cases h

theorem sound_of_playable {row : Record ρ} (h : Record.Playable row) : Sound row where
  time := h.time
  effect := (h.plain.field "effects").orNull (h.plain.field "effect")
  grounded := h.grounded

theorem gives_text? {v : Value ρ} (h : v.Plain) : Fault.Gives v.text? fun _ => True :=
  ⟨_, h.text?, trivial⟩

theorem gives_label {row : Record ρ} (h : Record.Plain row) (fallback : String)
    : Fault.Gives (label row fallback) fun _ => True :=
  gives_text? ((((h.field "name").orElse (h.field "title")).orElse (h.field "label")).orElse
    (.text _))

theorem gives_rowId {row : Record ρ} (h : Record.Plain row)
    : Fault.Gives (rowId row) fun _ => True :=
  gives_text? ((h.field "id").orElse (.text _))

/-- Requirements that can be told of decide, whatever they ask. -/
theorem gives_open? (stall : Stall ρ S) (env : Env ρ) {row : Record ρ} (h : Record.Plain row)
    : Fault.Gives (open? stall env row) fun _ => True := by
  unfold open? Requirement.passes
  split
  . exact Fault.gives_pure trivial
  . rw [(h.field "requirements").checkDepth]
    exact ⟨true, rfl, trivial⟩

theorem gives_talkChoice (stall : Stall ρ S) (env : Env ρ) {row : Record ρ} (h : Record.Plain row)
    : Fault.Gives (talkChoice stall env row) fun c? => ∀ c ∈ c?, Sound c.details := by
  unfold talkChoice
  refine (gives_rowId h).bind fun id _ => ?_
  split
  . exact Fault.gives_pure (by simp)
  . refine (gives_open? stall env h).bind fun isOpen _ => ?_
    split
    . exact Fault.gives_pure (by simp)
    . refine (gives_text? ((h.field "name").orElse (.text id))).bind fun name _ => ?_
      apply Fault.gives_pure
      rintro c ⟨⟩
      exact ⟨rfl, .null, fun _ h => by cases h⟩

theorem gives_optionChoice (stall : Stall ρ S) (env : Env ρ) {row : Record ρ}
    (h : Record.Playable row)
    : Fault.Gives (optionChoice stall env row) fun c? => ∀ c ∈ c?, Sound c.details := by
  unfold optionChoice
  refine (gives_rowId h.plain).bind fun id _ => ?_
  split
  . exact Fault.gives_pure (by simp)
  . refine (gives_open? stall env h.plain).bind fun isOpen _ => ?_
    split
    . exact Fault.gives_pure (by simp)
    . refine (gives_label h.plain id).bind fun name _ => ?_
      apply Fault.gives_pure
      rintro c ⟨⟩
      exact sound_of_playable h

variable {stall : Stall ρ S}

theorem gives_options {content : Content ρ S} (h : content.Serves P) (location : String)
    (ids : List String)
    : Act.Gives P (content.options location ids) fun rows => ∀ row ∈ rows, Record.Playable row := by
  induction ids with
  | nil => exact Act.gives_pure (by simp)
  | cons id ids ih =>
    unfold Content.options
    refine (h.option? location id).bind fun found hfound => ?_
    refine ih.bind fun rest hrest => ?_
    apply Act.gives_pure
    simpa [or_imp, forall_and] using ⟨hfound, hrest⟩

theorem gives_people {content : Content ρ S} (h : content.Serves P) (location : String)
    (ids : List String)
    : Act.Gives P (people content location ids) fun rows => ∀ row ∈ rows, Record.Plain row := by
  induction ids with
  | nil => exact Act.gives_pure (by simp)
  | cons id ids ih =>
    unfold people
    refine (h.npc? location id).bind fun found hfound => ?_
    refine ih.bind fun rest hrest => ?_
    apply Act.gives_pure
    simpa [or_imp, forall_and] using ⟨hfound, hrest⟩

theorem gives_sceneNpcs {content : Content ρ S} (h : content.Serves P) (scene : Scene ρ)
    : Act.Gives P (sceneNpcs content scene) fun rows => ∀ row ∈ rows, Record.Plain row := by
  unfold sceneNpcs
  split
  . refine (h.npcs scene.location).bind fun rows hrows => ?_
    apply Act.gives_pure
    intro row hrow
    exact hrows row (List.mem_of_mem_filter hrow)
  . exact gives_people h scene.location scene.npcs

theorem gives_optionsOf {content : Content ρ S} (h : content.Serves P) (location npc : String)
    : Act.Gives P (content.optionsOf location npc) fun _ => True := by
  unfold Content.optionsOf
  refine (h.npc? location npc).bind fun row? hrow => ?_
  cases row? with
  | none => exact Act.gives_pure trivial
  | some row =>
    apply Act.gives_lift
    have hplain := (hrow row rfl).field "options"
    have htexts := Fault.gives_mapM fun v hv => gives_text? (hplain.of_mem_listD hv)
    exact htexts.mono fun _ _ => trivial

theorem gives_optionChoices (h : stall.content.Serves P) (env : Env ρ) (location : String)
    (ids : List String)
    : Act.Gives P (optionChoices stall env location ids) fun cs => ∀ c ∈ cs, Sound c.details := by
  unfold optionChoices
  refine (gives_options h location ids).bind fun rows hrows => ?_
  apply Act.gives_lift
  exact Fault.gives_filterMapM fun row hrow => gives_optionChoice stall env (hrows row hrow)

theorem gives_entries (h : stall.content.Serves P) (scene : Scene ρ) {npc : Value ρ}
    (hnpc : npc.Plain)
    : Act.Gives P (entries stall scene npc) fun cs => ∀ c ∈ cs, Sound c.details := by
  unfold entries
  refine (gives_sceneNpcs h scene).bind fun people hpeople => ?_
  refine (Act.gives_lift (Fault.gives_filterMapM fun row hrow =>
    gives_talkChoice stall (envOf scene npc) (hpeople row hrow))).bind fun talks htalks => ?_
  -- what follows after the options of a person is the same with and without one
  have hall (offered : List (Choice ρ)) (hoffered : ∀ c ∈ offered, Sound c.details) :
      Act.Gives P (do
        let own ← optionChoices stall (envOf scene npc) scene.location scene.options
        return talks ++ offered ++ own ++ [⟨packId, "Inventory", []⟩, ⟨exitId, "Exit", []⟩])
        fun cs => ∀ c ∈ cs, Sound c.details := by
    refine (gives_optionChoices h _ scene.location scene.options).bind fun own hown => ?_
    apply Act.gives_pure
    intro c hc
    simp only [List.mem_append, List.mem_cons, List.not_mem_nil, or_false] at hc
    rcases hc with ((hc | hc) | hc) | rfl | rfl
    . exact htalks c hc
    . exact hoffered c hc
    . exact hown c hc
    . exact sound_nil
    . exact sound_nil
  dsimp only
  split
  . refine (Act.gives_lift (gives_text? hnpc)).bind fun id _ => ?_
    refine (gives_optionsOf h scene.location id).bind fun ids _ => ?_
    refine (gives_optionChoices h _ scene.location ids).bind fun offered hoffered => ?_
    exact hall offered hoffered
  . exact hall [] (by simp)

omit [Scalar ρ] in
theorem mem_of_mem_distinct {choices : List (Choice ρ)} {c : Choice ρ} (h : c ∈ distinct choices)
    : c ∈ choices := by
  have hfold (rest seen : List (Choice ρ)) (h : c ∈ rest.foldl
      (fun seen c => if seen.any (·.id == c.id) then seen else seen ++ [c]) seen) :
      c ∈ seen ∨ c ∈ rest := by
    induction rest generalizing seen with
    | nil => exact .inl h
    | cons d rest ih =>
      rcases ih _ h with hseen | hrest
      . dsimp only at hseen
        split at hseen
        . exact .inl hseen
        . rw [List.mem_append, List.mem_singleton] at hseen
          rcases hseen with hseen | rfl
          . exact .inl hseen
          . exact .inr List.mem_cons_self
      . exact .inr (List.mem_cons_of_mem d hrest)
  simpa using hfold choices [] h

theorem gives_choices (h : stall.content.Serves P) (scene : Scene ρ) {npc : Value ρ}
    (hnpc : npc.Plain)
    : Act.Gives P (choices stall scene npc) fun cs => ∀ c ∈ cs, Sound c.details := by
  unfold choices
  refine (gives_entries h scene hnpc).bind fun cs hcs => ?_
  exact Act.gives_pure fun c hc => hcs c (mem_of_mem_distinct hc)

theorem gives_panelOf {npc : Value ρ} (hnpc : npc.Plain) {row : Record ρ} (h : Record.Plain row)
    : Fault.Gives (panelOf npc row) fun _ => True := by
  have hline : Fault.Gives (openingLine row) fun _ => True := by
    have hdialogue := h.field "dialogue"
    unfold openingLine
    split
    . exact Fault.gives_pure trivial
    next line lines heq =>
      rw [heq] at hdialogue
      exact gives_text? (hdialogue.of_mem_listD (x := line) List.mem_cons_self)
    next d heq =>
      rw [heq] at hdialogue
      have hplain := Record.plain_recordD hdialogue
      have hopening := (hplain.field "opening").orElse (hplain.field "greeting")
      exact gives_text? (hopening.orElse (.text _))
    . exact Fault.gives_pure trivial
  unfold panelOf
  refine (gives_text? ((h.field "name").orElse hnpc)).bind fun name _ => ?_
  refine (gives_text? ((h.field "description").orElse (.text _))).bind fun description _ => ?_
  exact hline.bind fun line _ => Fault.gives_pure trivial

theorem gives_sceneView (h : stall.content.Serves P) (scene : Scene ρ) {npc : Value ρ}
    (hnpc : npc.Plain) (choices : List (Choice ρ))
    : Act.Gives P (sceneView stall scene npc choices) fun _ => True := by
  unfold sceneView npcPanel
  refine Act.Gives.bind (Q := fun _ => True) ?_ fun panel _ => Act.gives_pure trivial
  split
  . exact Act.gives_pure trivial
  . refine (Act.gives_lift (gives_text? hnpc)).bind fun id _ => ?_
    refine (h.npc? scene.location id).bind fun row? hrow => ?_
    cases row? with
    | none => exact Act.gives_pure trivial
    | some row =>
      exact (Act.gives_lift (gives_panelOf hnpc (hrow row rfl))).map fun _ _ => trivial

end Menu

/-! ### Ways -/

section

variable {ρ : Type} [Scalar ρ]

/-- The location that a jump by a token leads to. -/
def Effect.wayTo (token : String) : String := (Text.cut (Text.cut token).2).1

theorem Effect.ofToken_go {token : String} (h : (Text.cut token).1 = "go")
    : (Effect.ofToken token : List (Effect ρ))
      = jump (wayTo token) (nonempty? (Text.cut (Text.cut (Text.cut token).2).2).1) := by
  have hne : token ≠ "" := by
    rintro rfl
    revert h
    decide
  unfold Effect.ofToken
  rw [if_neg hne]
  dsimp only
  rw [if_pos h]
  rfl

theorem Effect.compile_text (s : String)
    : compile (.text s : Value ρ) .null = .ok (ofToken (Text.strip s)) := rfl

/-- A token that jumps names its location, or names none at all. -/
theorem Effect.named_of_grounded {s : String} (h : Effect.Grounded (.text s : Value ρ))
    (hgo : (Text.cut (Text.strip s)).1 = "go")
    : wayTo (Text.strip s) = "" ∨ Text.strip (wayTo (Text.strip s)) ≠ "" := by
  by_cases hempty : wayTo (Text.strip s) = ""
  . exact .inl hempty
  . right
    unfold Effect.Grounded Effect.ofValue at h
    rw [ofToken_go hgo] at h
    unfold jump at h
    rw [if_neg hempty] at h
    simpa [isGrounded] using h _ List.mem_cons_self

/-- The token of a way to a location without blanks around its name jumps nowhere else. -/
theorem Effect.grounded_way {location : String} (htrim : Text.strip location = location)
    : Effect.Grounded (.text (goId ++ ":" ++ location) : Value ρ) := by
  have hgo : goId ++ ":" = "go:" := by decide
  have hstrip : Text.strip (goId ++ ":" ++ location) = goId ++ ":" ++ location := by
    rw [hgo]
    exact Text.strip_append (by decide +kernel) htrim
  have hcut : Text.cut (goId ++ ":" ++ location) = ("go", location) :=
    Text.cut_append_colon (by decide) location
  unfold Effect.Grounded Effect.ofValue
  rw [hstrip, ofToken_go (by rw [hcut])]
  unfold wayTo jump
  rw [hcut]
  dsimp only
  split
  . simp
  next hsome =>
    intro effect heffect
    obtain rfl := List.mem_singleton.mp heffect
    simpa [isGrounded] using Text.strip_cut_ne_empty htrim hsome

/-- No outcome, or a jump to a location with a name. -/
def Value.IsJump (v : Value ρ) : Prop :=
  v = .null ∨ ∃ location scene, v = .target (.text location) (.ofText? scene)
    ∧ Text.strip location ≠ ""

/-- What a turn ends with: nothing, a jump to a location with a name, or an answer. -/
def Value.IsOutcome (v : Value ρ) : Prop :=
  v.IsJump ∨ ∃ s, v = .text s ∧ Effect.Grounded (.text s : Value ρ)

omit [Scalar ρ] in
theorem Value.IsJump.orNull {v w : Value ρ} (hv : v.IsJump) (hw : w.IsJump)
    : (v.orNull w).IsJump := by
  unfold Value.orNull
  split
  . exact hw
  . exact hv

/-- What an action comes to where it does not stop: a jump to its target, the others to nothing. -/
def Effect.outcome : Effect ρ → Value ρ
  | .go location scene => .target (.text location) (.ofText? scene)
  | _ => .null

omit [Scalar ρ] in
theorem Effect.isJump_outcome {effect : Effect ρ} (h : effect.isGrounded = true)
    : effect.outcome.IsJump := by
  cases effect with
  | go location scene => exact .inr ⟨location, scene, rfl, by simpa [isGrounded] using h⟩
  | _ => exact .inl rfl

theorem Crew.ends_perform {σ : Type} (crew : Crew ρ σ) (effect : Effect ρ)
    : Act.Ends (· = effect.outcome) (crew.perform effect) := by
  unfold Crew.perform
  cases effect with
  | go location scene => exact Act.ends_bind fun _ => Act.ends_pure rfl
  | trait name delta =>
    dsimp only
    cases crew.adjust with
    | none => exact Act.ends_pure rfl
    | some adjust => exact Act.ends_bind fun _ => Act.ends_pure rfl
  | event token args =>
    have hpublished (payload : Payload ρ) : Act.Ends (· = .null) (do
        crew.announce (Topic.effect token) payload
        crew.announce token payload
        return (.null : Value ρ)) :=
      Act.ends_bind fun _ => Act.ends_bind fun _ => Act.ends_pure rfl
    dsimp only
    cases crew.note with
    | none => exact hpublished _
    | some note => exact Act.ends_bind fun _ => hpublished _
  | time hours =>
    dsimp only
    split
    . exact Act.ends_bind fun _ => Act.ends_pure rfl
    . exact Act.ends_pure rfl

/-- Actions are passed over where they stop, so playing some always ends well. -/
theorem Crew.gives_performAll {σ : Type} (crew : Crew ρ σ) {last : Value ρ} (hlast : last.IsJump)
    {effects : List (Effect ρ)} (h : ∀ effect ∈ effects, effect.isGrounded = true) (s : σ)
    : Fault.Gives ((crew.performAll last effects).run s).1 Value.IsJump := by
  induction effects generalizing last s with
  | nil => exact ⟨last, rfl, hlast⟩
  | cons effect effects ih =>
    rw [List.forall_mem_cons] at h
    unfold Crew.performAll
    rw [Act.run_bind, Act.run_attempt]
    cases houtcome : ((crew.perform effect).run s).1 with
    | error e => exact ih hlast h.2 _
    | ok v =>
      obtain rfl := crew.ends_perform effect s v houtcome
      exact ih ((Effect.isJump_outcome h.1).orNull hlast) h.2 _

theorem Effect.gives_compile {definition cost : Value ρ} (hplain : definition.Plain)
    (hgrounded : Effect.Grounded definition) (hcost : ∃ x, cost.finite? = .ok x)
    : Fault.Gives (Effect.compile definition cost) fun effects =>
      ∀ effect ∈ effects, effect.isGrounded = true := by
  obtain ⟨x, hx⟩ := hcost
  unfold Effect.compile
  rw [hx, Effect.read_of_plain hplain]
  refine ⟨_, rfl, ?_⟩
  intro effect heffect
  rcases List.mem_append.mp heffect with htime | hown
  . cases x with
    | none => cases htime
    | some hours =>
      dsimp only at htime
      split at htime
      . obtain rfl := List.mem_singleton.mp htime
        rfl
      . cases htime
  . exact hgrounded effect hown

end

end Storyworld
