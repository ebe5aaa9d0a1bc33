import Storyworld.Proofs.Rounds

/-!
This module contains moves in playable stories: whatever can be told of a location can be read, and
a move to a location with a name comes to a place there.
-/

namespace Storyworld

variable {ρ σ : Type} [Scalar ρ]

/-- A scene from which every way leads to a location with a name, and whose items can be read. -/
structure Scene.Passable (scene : Scene ρ) : Prop where
  path : ∀ name ∈ scene.path, Text.strip name ≠ ""
  items : ∀ item ∈ scene.items, Record.Plain item ∧ (Ledger.declared item).fitsScalar = true

theorem Scene.mem_names {v : Value ρ} {name : String} (h : name ∈ names v)
    : ∃ item ∈ v.listD, item.display = name ∧ name ≠ "" := by
  have hfold (items : List (Value ρ)) (seen : List String) (h : name ∈ items.foldl (fun seen item =>
      if item.isNull || item.display == "" || seen.contains item.display then seen
      else seen ++ [item.display]) seen) :
      name ∈ seen ∨ ∃ item ∈ items, item.display = name ∧ name ≠ "" := by
    induction items generalizing seen with
    | nil => exact .inl h
    | cons item items ih =>
      rcases ih _ h with hseen | ⟨other, hmem, hother⟩
      . dsimp only at hseen
        split at hseen
        . exact .inl hseen
        next hnew =>
          rw [List.mem_append, List.mem_singleton] at hseen
          rcases hseen with hseen | rfl
          . exact .inl hseen
          . refine .inr ⟨item, List.mem_cons_self, rfl, ?_⟩
            simp only [Bool.or_eq_true, beq_iff_eq, not_or] at hnew
            exact hnew.1.2
      . exact .inr ⟨other, List.mem_cons_of_mem _ hmem, hother⟩
  rcases hfold v.listD [] h with hnil | hitem
  . cases hnil
  . exact hitem

theorem Record.enterable_nil : Record.Enterable ([] : Record ρ) where
  path _ hv := by cases hv
  start := rfl
  finish := rfl
  items _ hitem := by cases hitem

theorem Record.walkable_nil : Record.Walkable ([] : Record ρ) where
  plain := Record.plain_nil
  path _ hv := by cases hv
  scenes _ hscene := by cases hscene

/-! ### What is told of a location -/

namespace Atlas

variable {info : Record ρ}

theorem isPlain_of_mem_scenes {d : Nat} (h : ∀ m ∈ info, m.2.isPlain d = true) {scene : Record ρ}
    (hscene : scene ∈ scenes info) : ∀ m ∈ scene, m.2.isPlain d = true := by
  obtain ⟨v, hv, hrecord⟩ := List.mem_filterMap.mp hscene
  obtain ⟨hrecord, _⟩ := Option.filter_eq_some_iff.mp hrecord
  have hplain := Value.isPlain_of_mem_listD (Value.isPlain_field h "scenes") hv
  intro m hm
  apply Value.isPlain_of_member hplain
  unfold Value.recordD
  rw [hrecord]
  exact hm

theorem mem_of_mem_lookedAt {id : String} {scene : Record ρ} {records : List (Record ρ)}
    (h : scene ∈ lookedAt id records) : scene ∈ records := by
  induction records with
  | nil => cases h
  | cons record records ih =>
    unfold lookedAt at h
    split at h
    . obtain rfl := List.mem_singleton.mp h
      exact List.mem_cons_self
    . rcases List.mem_cons.mp h with rfl | h
      . exact List.mem_cons_self
      . exact List.mem_cons_of_mem _ (ih h)

theorem search_of_shallow (h : Record.Shallow info) {id : Value ρ}
    (hid : id.isPlain Value.textDepth = true) : search info id = .ok (find? info id) := by
  have hcompared : ∀ v ∈ compared info id, v.isPlain Value.textDepth = true := by
    intro v hv
    unfold compared at hv
    split at hv
    . rcases List.mem_cons.mp hv with rfl | hv
      . exact hid
      . obtain ⟨scene, hscene, rfl⟩ := List.mem_map.mp hv
        exact Value.isPlain_field (isPlain_of_mem_scenes h (mem_of_mem_lookedAt hscene)) "id"
    . cases hv
  unfold search
  rw [Value.checkAll_eq_ok hcompared]
  rfl

theorem settle_of_shallow (h : Record.Shallow info) {id : Value ρ}
    (hid : id.isPlain Value.textDepth = true) : settle info id = .ok (resolve info id) := by
  have hfirst : ∀ v ∈ (scenes info).take 1 |>.map fun s => Record.field s "id",
      v.isPlain Value.textDepth = true := by
    intro v hv
    obtain ⟨scene, hscene, rfl⟩ := List.mem_map.mp hv
    exact Value.isPlain_field (isPlain_of_mem_scenes h (List.mem_of_mem_take hscene)) "id"
  unfold settle
  rw [search_of_shallow h hid, search_of_shallow h (h.field "startSceneId"),
    Value.checkAll_eq_ok hfirst]
  cases find? info id with
  | some _ => rfl
  | none =>
    cases find? info (Record.field info "startSceneId") with
    | some _ => rfl
    | none => rfl

theorem found_of_plain {d : Nat} (h : ∀ m ∈ info, m.2.isPlain d = true) (id : Value ρ)
    : ∀ m ∈ (find? info id).getD [], m.2.isPlain d = true := by
  cases hfind : find? info id with
  | none =>
    intro m hm
    cases hm
  | some record => exact isPlain_of_mem_scenes h (mem_of_find? hfind).1

theorem read_of_shallow (h : Record.Shallow info) {p : Pointer ρ}
    (hp : p.scene.isPlain Value.textDepth = true) : read info p = .ok (scene info p) := by
  have hwritten : ∀ v ∈ Scene.written ((find? info p.scene).getD []) (Record.field info "path"),
      v.isPlain Value.textDepth = true := by
    have hrecord (name : String) := Value.isPlain_field (found_of_plain h p.scene) name
    intro v hv
    unfold Scene.written at hv
    simp only [List.mem_append] at hv
    rcases hv with ((hv | hv) | hv) | hv
    . exact Value.isPlain_of_mem_listD (hrecord _) hv
    . exact Value.isPlain_of_mem_listD (hrecord _) hv
    . exact Value.isPlain_of_mem_listD (hrecord _) hv
    . split at hv
      . exact Value.isPlain_of_mem_listD (hrecord _) hv
      . exact Value.isPlain_of_mem_listD (h.field _) hv
  unfold read
  rw [search_of_shallow h hp]
  dsimp only [bind, Except.bind]
  unfold Scene.read
  rw [Value.checkAll_eq_ok hwritten]
  rfl

theorem plain_resolve (info : Record ρ) (id : Value ρ) : (resolve info id).Plain := by
  rcases resolve_cases info id with ⟨scene, _, hresolve⟩ | ⟨_, hresolve | ⟨_, hresolve⟩⟩
  . rw [hresolve]
    exact .text _
  . rw [hresolve]
    exact .null
  . rw [hresolve]
    exact .text _

theorem passable_scene (h : Record.Walkable info) (p : Pointer ρ) : (scene info p).Passable := by
  have hrecord := found_of_plain h.plain p.scene
  have henterable : Record.Enterable ((find? info p.scene).getD []) := by
    cases hfind : find? info p.scene with
    | none => exact Record.enterable_nil
    | some record => exact h.scenes record (mem_of_find? hfind).1
  unfold scene
  generalize (find? info p.scene).getD [] = record at hrecord henterable ⊢
  constructor
  . intro name hname
    obtain ⟨item, hitem, rfl, hne⟩ := Scene.mem_names hname
    split at hitem
    . exact (henterable.path item hitem).resolve_left hne
    . exact (h.path item hitem).resolve_left hne
  . intro item hitem
    refine ⟨?_, henterable.items item hitem⟩
    obtain ⟨v, hv, hrecord'⟩ := List.mem_filterMap.mp hitem
    have hitems : (((Table.get? record "inventory").orElse fun _ =>
        Table.get? record "items").getD .null).Plain := by
      cases hinventory : Table.get? record "inventory" with
      | some v => exact hrecord _ (Table.mem_of_get? hinventory)
      | none => exact Value.isPlain_field hrecord "items"
    have hplain := Record.plain_recordD (hitems.of_mem_listD hv)
    unfold Value.recordD at hplain
    rwa [hrecord'] at hplain

/-- What is told of a location has a property, and all of it has a text. -/
structure Tells (atlas : Atlas ρ σ) (Q : Value ρ → Record ρ → Prop) : Prop where
  info : ∀ location, Act.Gives (fun _ => True) (atlas.info location) (Q location)
  shallow : ∀ location info, Q location info → Record.Shallow info

/-- The locations of an atlas can be read, and so can whether their scenes may be played now. -/
structure Serves (atlas : Atlas ρ σ) : Prop where
  location : ∀ id, Act.Ends (fun v => Record.Walkable v.recordD) (atlas.location id)
  allows : ∀ allows, atlas.allows = some allows → ∀ scene, Record.Plain scene →
    Record.Enterable scene → Fault.Gives (allows scene) fun _ => True

variable {atlas : Atlas ρ σ}

theorem Serves.tells (h : atlas.Serves) : atlas.Tells fun _ => Record.Walkable where
  info location := by
    unfold Atlas.info
    refine (Act.gives_attempt fun _ _ => trivial).bind fun outcome houtcome => ?_
    cases outcome with
    | error e => exact Act.gives_pure Record.walkable_nil
    | ok v =>
      obtain ⟨s, hs⟩ := houtcome
      exact Act.gives_pure (h.location location s v hs)
  shallow _ _ hinfo := hinfo.plain.shallow

omit [Scalar ρ] in
theorem gives_firstAllowed {allows : Record ρ → Except Fault Bool} {records : List (Record ρ)}
    (h : ∀ scene ∈ records, Fault.Gives (allows scene) fun _ => True)
    : Fault.Gives (firstAllowed allows records) fun scene? =>
      ∀ scene ∈ scene?, scene ∈ records := by
  induction records with
  | nil => exact Fault.gives_pure (by simp)
  | cons record records ih =>
    rw [List.forall_mem_cons] at h
    unfold firstAllowed
    refine h.1.bind fun allowed _ => ?_
    split
    . exact Fault.gives_pure (by simp)
    . exact (ih h.2).mono fun _ hfound scene hscene => List.mem_cons_of_mem _ (hfound scene hscene)

/-- Where the hours can be asked about all scenes and the ids of the scenes have a text, the hours
come to one of these ids, or leave the one that they are asked about. -/
theorem gives_gate {P : Value ρ → Prop} {id : Value ρ} (hinfo : Record.Shallow info)
    (hopen : ∀ allows, atlas.allows = some allows → ∀ scene ∈ scenes info,
      Fault.Gives (allows scene) fun _ => True)
    (hid : id.isPlain Value.textDepth = true) (hstays : P id)
    (hname : ∀ scene ∈ scenes info, Fault.Gives (Record.field scene "id").text? fun name =>
      P (.text name))
    : Fault.Gives (atlas.gate info id) P := by
  cases hallows : atlas.allows with
  | none =>
    unfold gate
    rw [hallows]
    exact ⟨id, rfl, hstays⟩
  | some allows =>
    by_cases hscenes : scenes info = []
    . unfold gate
      simp only [hallows, hscenes, List.isEmpty_nil, if_true]
      exact ⟨id, rfl, hstays⟩
    . have hadmits : Fault.Gives (admits allows (find? info id)) fun _ => True := by
        unfold admits
        split
        next scene hfind => exact hopen allows hallows scene (mem_of_find? hfind).1
        next => exact ⟨true, rfl, trivial⟩
      rw [gate_of_allows hallows hscenes, search_of_shallow hinfo hid]
      refine hadmits.bind fun admitted _ => ?_
      split
      . exact Fault.gives_pure hstays
      . refine (gives_firstAllowed (hopen allows hallows)).bind fun scene? hscene => ?_
        cases scene? with
        | none => exact Fault.gives_pure hstays
        | some scene =>
          exact (hname scene (hscene scene rfl)).bind fun name hname => Fault.gives_pure hname

theorem Serves.gives_gate (h : atlas.Serves) (hinfo : Record.Walkable info) {id : Value ρ}
    (hid : id.Plain) : Fault.Gives (atlas.gate info id) Value.Plain := by
  refine Atlas.gives_gate hinfo.plain.shallow ?_ hid.isPlain hid fun scene hscene => ?_
  . intro allows hallows scene hscene
    exact h.allows allows hallows scene (isPlain_of_mem_scenes hinfo.plain hscene)
      (hinfo.scenes scene hscene)
  . have hplain : (Record.field scene "id").Plain :=
      Value.isPlain_field (isPlain_of_mem_scenes hinfo.plain hscene) "id"
    exact (Menu.gives_text? hplain).mono fun name _ => .text name

end Atlas

/-! ### The registry -/

omit [Scalar ρ] in
theorem Registry.trim_nil : Trim ([] : Registry ρ) := by
  intro key h
  cases h

theorem Registry.trim_ensure (location title background : Value ρ)
    : Act.Keeps Trim (ensure location title background) := by
  intro r hr
  rcases ensure_cases location title background r with
    ⟨e, hrun⟩ | ⟨key, view, r', hrun, hkey, hne, hextends, _⟩
  . rw [hrun]
    exact hr
  . rw [hrun]
    intro other hother
    rcases hextends.new other hother with hhas | rfl
    . exact hr other hhas
    . refine ⟨hne, ?_⟩
      obtain ⟨_, _, hkey⟩ := Fault.bind_eq_ok.mp hkey
      rw [← Except.ok.inj hkey]
      exact Text.strip_strip _

namespace Navigation

variable {atlas : Atlas ρ σ}

theorem travels_trim : Travels atlas fun n => n.1.registry.Trim :=
  .of_registry Registry.trim_ensure

end Navigation

/-! ### Moves -/

theorem Registry.gives_ensure {location : String} (hlocation : Text.strip location ≠ "")
    {title : Value ρ} (htitle : title.isPlain Value.textDepth = true) (background : Value ρ)
    : Act.Gives (fun _ => True) (ensure (.text location) title background) fun _ => True := by
  unfold ensure
  have hkey : Fault.Gives (Value.text location : Value ρ).key? (· = Text.strip location) :=
    ⟨_, Value.key?_text location, rfl⟩
  refine (Act.gives_lift hkey).bind fun key heq => ?_
  rw [heq, if_neg hlocation]
  refine Act.gives_get.bind fun registry _ => ?_
  split
  . exact Act.gives_pure trivial
  . rw [Value.text?_of_isPlain (Value.isPlain_orElse htitle rfl)]
    refine (Act.gives_lift ⟨_, rfl, trivial⟩).bind fun name (_ : True) => ?_
    intro s _
    exact ⟨_, _, rfl, trivial, trivial⟩

namespace Navigation

variable {atlas : Atlas ρ σ} {Q : Value ρ → Record ρ → Prop}

/-- A location with a name. -/
def Named (location : Value ρ) : Prop := ∃ l, location = .text l ∧ Text.strip l ≠ ""

theorem gives_approach (h : atlas.Tells Q) {location : Value ρ} (hlocation : Named location)
    : Act.Gives (fun _ => True) (approach atlas location) (Q location) := by
  obtain ⟨l, rfl, hl⟩ := hlocation
  unfold approach
  refine (Act.gives_part (h.info (.text l))).bind fun info hinfo => ?_
  have hshallow := h.shallow _ info hinfo
  have htitle : (((Record.field info "name").orElse (Record.field info "title")).orElse
      (.text l)).isPlain Value.textDepth = true :=
    Value.isPlain_orElse (Value.isPlain_orElse (hshallow.field _) (hshallow.field _)) rfl
  refine (Act.gives_part (Act.gives_part (Registry.gives_ensure hl htitle _))).bind fun _ _ => ?_
  exact Act.gives_pure hinfo

theorem gives_approachAll (h : atlas.Tells Q) {ids : List String}
    (hids : ∀ id ∈ ids, Text.strip id ≠ "")
    : Act.Gives (fun _ => True) (approachAll atlas ids) fun _ => True := by
  induction ids with
  | nil => exact Act.gives_pure trivial
  | cons id ids ih =>
    rw [List.forall_mem_cons] at hids
    unfold approachAll
    exact (gives_approach h ⟨id, rfl, hids.1⟩).bind fun _ _ => ih hids.2

/-- A move ends well where the time comes to a scene, and where every way from there leads to a
location with a name. -/
theorem gives_move (h : atlas.Tells Q) {location scene : Value ρ} (hlocation : Named location)
    (hscene : scene.isPlain Value.textDepth = true)
    (hgate : ∀ info asked, Q location info → scene.given? = .ok asked →
      Fault.Gives (atlas.gate info (Atlas.resolve info asked)) fun id =>
        id.Plain ∧ ∀ name ∈ (Atlas.scene info ⟨location, id⟩).path, Text.strip name ≠ "")
    : Act.Gives (fun _ => True) (moveTo atlas location scene) fun _ => True := by
  have hgiven : Fault.Gives scene.given? fun asked => scene.given? = .ok asked ∧ asked.Plain := by
    unfold Value.given?
    split
    . rw [Value.text?_of_isPlain hscene]
      exact ⟨_, rfl, rfl, .text _⟩
    . exact ⟨_, rfl, rfl, .null⟩
  obtain ⟨l, rfl, hl⟩ := hlocation
  have hseek : Act.Gives (fun _ => True) (seek atlas (.text l) scene) fun _ => True := by
    unfold seek
    refine (Act.gives_lift (Value.gives_text l)).bind fun name heq => ?_
    subst heq
    refine (gives_approach h ⟨name, rfl, hl⟩).bind fun info hinfo => ?_
    have hshallow := h.shallow _ info hinfo
    refine (Act.gives_lift hgiven).bind fun asked ⟨hasked, hplain⟩ => ?_
    rw [Atlas.settle_of_shallow hshallow hplain.isPlain, Act.lift_ok, pure_bind]
    refine (Act.gives_lift (hgate info asked hinfo hasked)).bind fun id ⟨hid, hpath⟩ => ?_
    dsimp only
    rw [Atlas.read_of_shallow hshallow hid.isPlain, Act.lift_ok, pure_bind]
    exact (gives_approachAll h hpath).bind fun _ _ => Act.gives_pure trivial
  unfold moveTo
  rw [if_pos (Value.isGiven_text.mpr (Text.ne_empty_of_strip hl))]
  refine hseek.bind fun p _ => ?_
  intro n _
  exact ⟨_, _, rfl, trivial, trivial⟩

theorem gives_moveTo (h : atlas.Serves) {location scene : Value ρ} (hlocation : Named location)
    (hscene : scene.Plain)
    : Act.Gives (fun _ => True) (moveTo atlas location scene) fun _ => True := by
  refine gives_move h.tells hlocation hscene.isPlain fun info asked hinfo _ => ?_
  exact (h.gives_gate hinfo (Atlas.plain_resolve info asked)).mono fun id hid =>
    ⟨hid, (Atlas.passable_scene hinfo _).path⟩

theorem gives_hasScenes (h : atlas.Serves) (name : String)
    : Act.Gives (fun _ => True) (hasScenes atlas name) fun _ => True := by
  unfold hasScenes
  exact (h.tells.info _).bind fun info _ => Act.gives_pure trivial

theorem gives_isLocalScene (h : atlas.Serves) {p : Pointer ρ} (hp : Named p.location)
    (name : String) : Act.Gives (fun _ => True) (isLocalScene atlas p name) fun _ => True := by
  unfold isLocalScene
  refine (gives_approach h.tells hp).bind fun info hinfo => ?_
  rw [Atlas.search_of_shallow hinfo.plain.shallow rfl]
  exact (Act.gives_lift ⟨_, rfl, trivial⟩).bind fun found (_ : True) => Act.gives_pure trivial

/-- An outcome leads nowhere, or to a location with a name. -/
theorem destination_of_outcome {outcome : Value ρ} (h : outcome.IsOutcome) (here : Value ρ)
    : ((destination here outcome).1.isGiven = true → Named (destination here outcome).1)
      ∧ (destination here outcome).2.Plain := by
  rcases h with (rfl | ⟨location, scene, rfl, hlocation⟩) | ⟨s, rfl, hgrounded⟩
  . exact ⟨nofun, .null⟩
  . refine ⟨fun _ => ⟨location, rfl, hlocation⟩, ?_⟩
    cases scene with
    | none => exact .null
    | some scene => exact .text scene
  . unfold destination
    dsimp only
    split
    next hgo =>
      refine ⟨fun hgiven => ⟨_, rfl, ?_⟩, .text _⟩
      exact (Effect.named_of_grounded hgrounded hgo.1).resolve_left (Value.isGiven_text.mp hgiven)
    next => exact ⟨nofun, .null⟩

/-- Where the player stands can be read. -/
def Placed (n : Navigation ρ) : Prop :=
  ∀ p, n.pointer = some p → Named p.location ∧ p.scene.Plain

theorem gives_apply (h : atlas.Serves) {outcome : Value ρ} (houtcome : outcome.IsOutcome)
    {n : Navigation ρ × σ} (hn : n.1.Placed)
    : Fault.Gives ((apply atlas outcome).run n).1 fun _ => True := by
  unfold apply
  rw [Act.run_bind, Act.run_get]
  dsimp only
  obtain ⟨hlocation, hscene⟩ := destination_of_outcome houtcome
    ((n.1.pointer.map Pointer.location).getD .null)
  generalize destination _ outcome = target at hlocation hscene ⊢
  obtain ⟨location, scene⟩ := target
  dsimp only at hlocation hscene ⊢
  unfold Placed at hn
  generalize n.1.pointer = pointer at hn ⊢
  apply Act.Gives.fst
  split
  . exact Act.gives_pure trivial
  next hgiven =>
    obtain ⟨l, rfl, hl⟩ := hlocation (by simpa using hgiven)
    refine (Act.gives_lift (Value.gives_text l)).bind fun name heq => ?_
    subst heq
    split
    . refine (Act.gives_lift (Menu.gives_text? hscene)).bind fun id _ => ?_
      exact gives_moveTo h ⟨name, rfl, hl⟩ (.text id)
    . cases pointer with
      | none => exact gives_moveTo h ⟨name, rfl, hl⟩ .null
      | some p =>
        obtain ⟨hp, _⟩ := hn p rfl
        dsimp only
        split
        . exact Act.gives_pure trivial
        . refine (Act.gives_part (gives_hasScenes h name)).bind fun hasScenes _ => ?_
          split
          . refine (gives_isLocalScene h hp name).bind fun isLocal _ => ?_
            split
            . exact gives_moveTo h hp (.text name)
            . exact gives_moveTo h ⟨name, rfl, hl⟩ .null
          . exact gives_moveTo h ⟨name, rfl, hl⟩ .null

theorem gives_current (h : atlas.Serves) {n : Navigation ρ × σ} (hn : n.1.Placed)
    : Fault.Gives ((current atlas).run n).1 fun scene? => ∀ scene ∈ scene?, scene.Passable := by
  unfold current
  rw [Act.run_bind, Act.run_get]
  dsimp only
  unfold Placed at hn
  generalize n.1.pointer = pointer at hn ⊢
  apply Act.Gives.fst
  cases pointer with
  | none => exact Act.gives_pure (by simp)
  | some p =>
    obtain ⟨hp, hscene⟩ := hn p rfl
    refine (gives_approach h.tells hp).bind fun info hinfo => ?_
    refine (Act.gives_lift (h.gives_gate hinfo hscene)).bind fun id hid => ?_
    have hread : Act.Gives (fun _ => True) (do
        return some (← Act.lift (Atlas.read info { p with scene := id })) :
        Act (Navigation ρ × σ) (Option (Scene ρ))) fun scene? =>
        ∀ scene ∈ scene?, scene.Passable := by
      rw [Atlas.read_of_shallow hinfo.plain.shallow hid.isPlain]
      have hpassable := Atlas.passable_scene hinfo { p with scene := id }
      refine (Act.gives_lift ⟨_, rfl, hpassable⟩).bind fun scene hscene => ?_
      apply Act.gives_pure
      rintro _ ⟨⟩
      exact hscene
    split
    . refine (Act.gives_part (Act.gives_modify fun _ _ => trivial)).bind fun _ _ => hread
    . exact hread

end Navigation

end Storyworld
