import Storyworld.Proofs.Arrival
import Storyworld.Proofs.Filed
import Storyworld.Proofs.Validation

/-!
This module contains what the checks of a story establish: where nothing is found, all that the
scenes refer to is there, and every location can be moved to. What is checked of the scene that a
location starts with is its id without blanks around; the move looks for the id as it is written.
-/

namespace Storyworld

theorem Fault.eq_nil_of_mapM {α β : Type} {f : α → Except Fault (List β)} {as : List α}
    {found : List (List β)} (h : as.mapM f = .ok found) (hfound : found.flatten = [])
    : ∀ a ∈ as, f a = .ok [] := by
  induction as generalizing found with
  | nil => simp
  | cons a as ih =>
    rw [List.mapM_cons] at h
    obtain ⟨first, hfirst, h⟩ := Fault.bind_eq_ok.mp h
    obtain ⟨rest, hrest, h⟩ := Fault.bind_eq_ok.mp h
    obtain rfl := Except.ok.inj h
    rw [List.flatten_cons, List.append_eq_nil_iff] at hfound
    rw [List.forall_mem_cons]
    exact ⟨hfound.1 ▸ hfirst, ih hrest hfound.2⟩

variable {ρ : Type} [Scalar ρ]

namespace Scenario

/-! ### What the checks establish -/

theorem mem_of_unknownAmong {names : List String} {finding : String → Finding} {vs : List (Value ρ)}
    (h : unknownAmong names finding vs = []) : ∀ v ∈ vs, v.display ∈ names := by
  intro v hv
  have hnone := List.filterMap_eq_nil_iff.mp h v hv
  by_contra hmem
  rw [if_neg (by simpa using hmem)] at hnone
  cases hnone

theorem mem_of_itemsOr {v : Value ρ} {items : List (Value ρ)} (h : v.itemsOr = .ok items)
    : ∀ item ∈ v.listD, item ∈ items := by
  intro item hitem
  unfold Value.itemsOr at h
  cases v with
  | list xs =>
    have hgiven : (Value.list xs).isGiven = true := by
      cases xs with
      | nil => cases hitem
      | cons x xs => rfl
    rw [if_pos hgiven] at h
    obtain rfl := Except.ok.inj h
    exact hitem
  | _ => cases hitem

/-- All that a scene refers to is known. -/
structure SceneSound (known : Known) (scene : Record ρ) : Prop where
  named : declaredId scene ≠ ""
  path : ∀ v ∈ (Record.field scene "path").listD, v.display ∈ known.locations
  options : ∀ v ∈ (Record.field scene "optionIds").listD, v.display ∈ known.options
  npcs : ∀ v ∈ (Record.field scene "npcIds").listD, v.display ∈ known.npcs

/-- A location has scenes that refer to what is known, and it starts with one that is declared. -/
structure LocationSound (known : Known) (info : Record ρ) : Prop where
  inhabited : Atlas.scenes info ≠ []
  scenes : ∀ scene ∈ Atlas.scenes info, SceneSound known scene
  start : (Record.field info "startSceneId").isGiven = true →
    ∃ scene ∈ Atlas.scenes info, declaredId scene = (Record.field info "startSceneId").display
  path : ∀ v ∈ (Record.field info "path").listD, v.display ∈ known.locations

theorem sound_of_sceneFindings {known : Known} {spot : Spot} {scene : Record ρ}
    (hid : declaredId scene ≠ "") (h : sceneFindings known spot scene = .ok [])
    : SceneSound known scene := by
  obtain ⟨low, _, h⟩ := Fault.bind_eq_ok.mp h
  obtain ⟨high, _, h⟩ := Fault.bind_eq_ok.mp h
  obtain ⟨options, hoptions, h⟩ := Fault.bind_eq_ok.mp h
  obtain ⟨npcs, hnpcs, h⟩ := Fault.bind_eq_ok.mp h
  have hnone := Except.ok.inj h
  simp only [List.append_eq_nil_iff] at hnone
  obtain ⟨⟨⟨_, hpath⟩, hunknown⟩, hunknown'⟩ := hnone
  constructor
  . exact hid
  . intro v hv
    unfold pathFindings at hpath
    split at hpath
    next hfield =>
      rw [hfield] at hv
      cases hv
    next ds hfield =>
      rw [hfield] at hv
      exact mem_of_unknownAmong hpath v hv
    next => cases hpath
  . exact fun v hv => mem_of_unknownAmong hunknown v (mem_of_itemsOr hoptions v hv)
  . exact fun v hv => mem_of_unknownAmong hunknown' v (mem_of_itemsOr hnpcs v hv)

/-- Where nothing is found, all values are scenes, and the ids that they declare come to be seen. -/
theorem sound_of_scenesFindings {known : Known} {location : String} {i : Nat}
    {seen declared : List String} {vs : List (Value ρ)}
    (h : scenesFindings known location i seen vs = .ok ([], declared))
    : (∀ v ∈ vs, ∃ scene, v = .object scene ∧ SceneSound known scene)
      ∧ declared = seen ++ vs.map fun v => declaredId v.recordD := by
  induction vs generalizing i seen with
  | nil =>
    cases h
    simp
  | cons v vs ih =>
    cases v with
    | object scene =>
      rw [scenesFindings] at h
      dsimp only at h
      split at h
      . obtain ⟨later, _, h⟩ := Fault.bind_eq_ok.mp h
        cases h
      next hid =>
        obtain ⟨found, hscene, h⟩ := Fault.bind_eq_ok.mp h
        obtain ⟨⟨later, declared'⟩, hlater, h⟩ := Fault.bind_eq_ok.mp h
        obtain ⟨hnone, rfl⟩ := Prod.mk.inj (Except.ok.inj h)
        simp only [List.append_eq_nil_iff] at hnone
        obtain ⟨⟨_, rfl⟩, rfl⟩ := hnone
        obtain ⟨hscenes, hdeclared⟩ := ih hlater
        refine ⟨?_, ?_⟩
        . rw [List.forall_mem_cons]
          exact ⟨⟨scene, rfl, sound_of_sceneFindings hid hscene⟩, hscenes⟩
        . rw [hdeclared, List.append_assoc, List.singleton_append, List.map_cons]
          rfl
    | _ =>
      unfold scenesFindings at h
      dsimp only at h
      obtain ⟨later, _, h⟩ := Fault.bind_eq_ok.mp h
      cases h

theorem scenes_eq {info : Record ρ} {vs : List (Value ρ)} {known : Known}
    (hscenes : Record.field info "scenes" = .list vs)
    (h : ∀ v ∈ vs, ∃ scene, v = .object scene ∧ SceneSound known scene)
    : Atlas.scenes info = vs.map Value.recordD := by
  unfold Atlas.scenes
  rw [hscenes]
  change vs.filterMap _ = _
  clear hscenes
  induction vs with
  | nil => rfl
  | cons v vs ih =>
    rw [List.forall_mem_cons] at h
    obtain ⟨⟨scene, rfl, hsound⟩, h⟩ := h
    have hgiven : (Record.field scene "id").isGiven = true := Value.isGiven_of_key hsound.named
    rw [List.map_cons, ← ih h, List.filterMap_cons_some]
    exact Option.filter_eq_some_iff.mpr ⟨rfl, hgiven⟩

theorem sound_of_partsFindings {locations : List String} {id : String} {info : Record ρ}
    {v : Value ρ} {vs : List (Value ρ)} {options npcs : Table (Record ρ)}
    (hscenes : Record.field info "scenes" = .list (v :: vs))
    (h : partsFindings locations id info (v :: vs) options npcs = .ok [])
    : LocationSound ⟨locations, Table.names options, Table.names npcs⟩ info := by
  obtain ⟨⟨found, declared⟩, hfound, h⟩ := Fault.bind_eq_ok.mp h
  obtain ⟨ways, hways, h⟩ := Fault.bind_eq_ok.mp h
  obtain ⟨ofOptions, _, h⟩ := Fault.bind_eq_ok.mp h
  obtain ⟨ofNpcs, _, h⟩ := Fault.bind_eq_ok.mp h
  have hnone := Except.ok.inj h
  simp only [List.append_eq_nil_iff] at hnone
  obtain ⟨⟨⟨⟨rfl, hstart⟩, hunknown⟩, _⟩, _⟩ := hnone
  obtain ⟨hsound, hdeclared⟩ := sound_of_scenesFindings hfound
  have heq := scenes_eq hscenes hsound
  constructor
  . rw [heq]
    exact List.cons_ne_nil _ _
  . rw [heq, List.forall_mem_map]
    intro v hv
    obtain ⟨scene, rfl, hscene⟩ := hsound v hv
    exact hscene
  . intro hgiven
    unfold startFindings at hstart
    rw [if_pos hgiven] at hstart
    have hmem := mem_of_unknownAmong hstart _ List.mem_cons_self
    rw [hdeclared, List.nil_append] at hmem
    obtain ⟨v, hv, hid⟩ := List.mem_map.mp hmem
    rw [heq]
    exact ⟨v.recordD, List.mem_map_of_mem hv, hid⟩
  . exact fun v hv => mem_of_unknownAmong hunknown v (mem_of_itemsOr hways v hv)

/-- What the files hold for a location in which nothing is found. -/
structure Checked (files : Files) (root : Path) (id : String) (info : Record ρ)
    (options npcs : Table (Record ρ)) : Prop where
  named : Text.strip id ≠ ""
  told : toldOf files root (.text id) = .ok info
  optionsOf_eq : optionsOf files root id = .ok options
  peopleOf_eq : peopleOf files root id = .ok npcs
  sound : LocationSound ⟨locationIds files (locationsIn root), Table.names options, Table.names npcs⟩
    info

variable {files : Files} {root : Path}

theorem checked_of_locationFindings {id : String}
    (h : locationFindings (ρ := ρ) files.json (locationsIn root) (locationIds files (locationsIn root)) id
      = .ok [])
    : ∃ (info : Record ρ) (options npcs : Table (Record ρ)), Checked files root id info options npcs := by
  rw [locationFindings_eq] at h
  obtain ⟨info, hinfo, h⟩ := Fault.bind_eq_ok.mp h
  split at h
  next v vs hscenes =>
    obtain ⟨options, hoptions, h⟩ := Fault.bind_eq_ok.mp h
    obtain ⟨npcs, hnpcs, h⟩ := Fault.bind_eq_ok.mp h
    have htold : toldOf files root (.text id) = .ok info :=
      Fault.bind_eq_ok.mpr ⟨(), (Value.Plain.text id).checkDepth, hinfo⟩
    refine ⟨info, options, npcs, ?_, htold, hoptions, hnpcs, sound_of_partsFindings hscenes h⟩
    -- a location without a name has no file, and so no scenes
    intro hid
    have hkey : (Value.text id : Value ρ).key = "" := (Value.key_text id).trans hid
    unfold location locationFile? at hinfo
    rw [hkey, if_pos (.inl rfl)] at hinfo
    obtain rfl := Except.ok.inj hinfo
    cases hscenes
  next => cases h

/-- Every location of a story in which nothing is found is one in which nothing is found. -/
theorem checked_of_findings (h : findings ρ files root = .ok []) {id : String}
    (hid : id ∈ locationIds files (locationsIn root))
    : ∃ (info : Record ρ) (options npcs : Table (Record ρ)), Checked files root id info options npcs := by
  apply checked_of_locationFindings
  unfold findings at h
  dsimp only at h
  obtain ⟨_, _, h⟩ := Fault.bind_eq_ok.mp h
  split at h
  . cases h
  split at h
  . cases h
  obtain ⟨found, hfound, h⟩ := Fault.bind_eq_ok.mp h
  exact Fault.eq_nil_of_mapM hfound (Except.ok.inj h) id hid

/-! ### What comes of it -/

/-- All that a path of a sound location leads to is a location of the story, whichever scene of it,
or none, is looked at. -/
theorem LocationSound.path_mem {known : Known} {info : Record ρ} (h : LocationSound known info)
    {scene : Record ρ} (hscene : scene = [] ∨ scene ∈ Atlas.scenes info) (id location : Value ρ)
    : ∀ name ∈ (Scene.ofRecord id location scene (Record.field info "path")).path,
      name ∈ known.locations := by
  intro name hname
  obtain ⟨v, hv, rfl, _⟩ := Scene.mem_names hname
  split at hv
  . rcases hscene with rfl | hscene
    . cases hv
    . exact (h.scenes scene hscene).path v hv
  . exact h.path v hv

theorem LocationSound.way_mem {known : Known} {info : Record ρ} (h : LocationSound known info)
    (p : Pointer ρ) : ∀ name ∈ (Atlas.scene info p).path, name ∈ known.locations := by
  unfold Atlas.scene
  apply h.path_mem
  cases hfind : Atlas.find? info p.scene with
  | none => exact .inl rfl
  | some scene => exact .inr (Atlas.mem_of_find? hfind).1

theorem tells_filed {σ : Type} (allows : Option (Record ρ → Except Fault Bool))
    : (⟨(filed files root : Content ρ σ).location, allows⟩ : Atlas ρ σ).Tells
      fun id info => info = infoOf (answerOf files root) id where
  info location s _ := by
    rw [Atlas.run_info (answers_filed files root)]
    exact ⟨_, _, rfl, trivial, rfl⟩
  shallow location info hinfo := by
    rw [hinfo]
    exact shallow_infoOf_answerOf files root location

/-- Where nothing is found, a move to a location without a scene comes to the one it starts with. -/
theorem moveTo_checked {σ : Type} (h : findings ρ files root = .ok []) {id : String} {info : Record ρ}
    {options npcs : Table (Record ρ)} (hchecked : Checked files root id info options npcs)
    (n : Navigation ρ) (src : σ)
    : ∃ r src', (Navigation.moveTo ⟨(filed files root : Content ρ σ).location, none⟩ (.text id)
        .null).run (n, src)
      = (.ok (some ⟨.text id, Atlas.resolve info .null⟩),
        Navigation.arrive ⟨.text id, Atlas.resolve info .null⟩ { n with registry := r }, src') := by
  have hinfo := infoOf_answerOf hchecked.told
  have hgives : Act.Gives (fun _ => True)
      (Navigation.moveTo ⟨(filed files root : Content ρ σ).location, none⟩ (.text id) .null)
      fun _ => True := by
    refine Navigation.gives_move (tells_filed none) ⟨id, rfl, hchecked.named⟩ rfl ?_
    intro told asked htold _
    obtain rfl : info = told := (htold.trans hinfo).symm
    refine ⟨_, rfl, Atlas.plain_resolve info asked, fun name hname => ?_⟩
    have hmem := hchecked.sound.way_mem _ name hname
    obtain ⟨_, _, _, hother⟩ := checked_of_findings h hmem
    exact hother.named
  obtain ⟨_, _, hrun, _⟩ := hgives (n, src) trivial
  have hanswers : Answers (answerOf files root)
      (Atlas.location ⟨(filed files root : Content ρ σ).location, none⟩) := answers_filed files root
  rcases Navigation.moveTo_cases hanswers (.text id) .null n src with
    ⟨result, src', hcase, hstopped⟩ | ⟨e, r, src', _, hcase⟩ | ⟨p, r, src', harrival, _, hcase⟩
  . obtain ⟨e, rfl⟩ := hstopped (Value.isGiven_text.mpr (Text.ne_empty_of_strip hchecked.named))
    rw [hcase] at hrun
    cases hrun
  . rw [hcase] at hrun
    cases hrun
  . obtain ⟨l, htext, hlocation, _⟩ := harrival.location_eq
    rw [Value.text?_text] at htext
    obtain rfl := Except.ok.inj htext
    obtain ⟨v, hgiven, hgate⟩ := harrival.scene_eq
    obtain rfl : Value.null = v := Except.ok.inj hgiven
    rw [hlocation, hinfo] at hgate
    have hplace : p = ⟨.text id, Atlas.resolve info .null⟩ := by
      obtain ⟨location, scene⟩ := p
      dsimp only at hlocation hgate
      rw [hlocation, ← Except.ok.inj hgate]
    rw [← hplace]
    exact ⟨r, src', hcase⟩

theorem resolve_start {info : Record ρ} (hgiven : (Record.field info "startSceneId").isGiven = true)
    (h : ∃ scene ∈ Atlas.scenes info,
      Atlas.sceneId scene = (Record.field info "startSceneId").display)
    : Atlas.resolve info .null = .text (Record.field info "startSceneId").display := by
  have hfound : (Atlas.find? info (Record.field info "startSceneId")).isSome = true := by
    unfold Atlas.find?
    rw [if_pos hgiven, List.find?_isSome]
    simpa using h
  unfold Atlas.resolve
  dsimp only
  rw [if_neg (by simp [Atlas.find?, Value.isGiven]), hgiven, hfound]
  rfl

theorem resolve_first {info : Record ρ} (hscenes : Atlas.scenes info ≠ [])
    (h : (Record.field info "startSceneId").isGiven = true → ∀ scene ∈ Atlas.scenes info,
      Atlas.sceneId scene ≠ (Record.field info "startSceneId").display)
    : ∃ scene, (Atlas.scenes info).head? = some scene
      ∧ Atlas.resolve info .null = .text (Atlas.sceneId scene) := by
  have hnone : Atlas.find? info (Record.field info "startSceneId") = none := by
    unfold Atlas.find?
    split
    next hgiven =>
      rw [List.find?_eq_none]
      simpa using h hgiven
    next => rfl
  unfold Atlas.resolve
  dsimp only
  rw [if_neg (by simp [Atlas.find?, Value.isGiven]), hnone]
  cases hfirst : Atlas.scenes info with
  | nil => exact absurd hfirst hscenes
  | cons scene rest => exact ⟨scene, rfl, by simp⟩

/-- A location is told of and entered as its records declare. -/
structure Resolved (files : Files) (root : Path) (c : Catalogue ρ) (id : String) (info : Record ρ) :
    Prop where
  told : (((Catalogue.content root).location (.text id)).run c).1 = .ok (.object info)
  /-- A move without a scene, at no time of day, comes to the scene to start with. -/
  lands : ∀ n : Navigation ρ, ∃ n' c',
    (Navigation.moveTo ⟨(Catalogue.content root).location, none⟩ (.text id) .null).run (n, c)
      = (.ok (some ⟨.text id, Atlas.resolve info .null⟩), n', c')
    ∧ n'.pointer = some ⟨.text id, Atlas.resolve info .null⟩
  /-- The scene to start with is that of a record, but for blanks around the id of the record. -/
  declared : (Record.field info "startSceneId").isGiven = true →
    ∃ scene ∈ Atlas.scenes info, declaredId scene = (Record.field info "startSceneId").display
  /-- It is come to where a record has that very id. -/
  start : (Record.field info "startSceneId").isGiven = true →
    (∃ scene ∈ Atlas.scenes info, Atlas.sceneId scene = (Record.field info "startSceneId").display) →
    Atlas.resolve info .null = .text (Record.field info "startSceneId").display
  /-- Where no record has that very id, the first scene is come to. -/
  first : ((Record.field info "startSceneId").isGiven = true →
      ∀ scene ∈ Atlas.scenes info,
        Atlas.sceneId scene ≠ (Record.field info "startSceneId").display) →
    ∃ scene, (Atlas.scenes info).head? = some scene
      ∧ Atlas.resolve info .null = .text (Atlas.sceneId scene)
  options : ∀ scene ∈ Atlas.scenes info, ∀ (sceneId : Value ρ),
    ∀ option ∈ (Scene.ofRecord sceneId (.text id) scene (Record.field info "path")).options,
      ∃ row, (((Catalogue.content root).option? id option).run c).1 = .ok (some row)
  npcs : ∀ scene ∈ Atlas.scenes info, ∀ (sceneId : Value ρ),
    ∀ npc ∈ (Scene.ofRecord sceneId (.text id) scene (Record.field info "path")).npcs,
      ∃ row, (((Catalogue.content root).npc? id npc).run c).1 = .ok (some row)
  path : ∀ scene ∈ Atlas.scenes info, ∀ (sceneId : Value ρ),
    ∀ place ∈ (Scene.ofRecord sceneId (.text id) scene (Record.field info "path")).path,
      place ∈ locationIds files (locationsIn root)
        ∧ ∃ info', (((Catalogue.content root).location (.text place)).run c).1 = .ok (.object info')
          ∧ Atlas.scenes info' ≠ []

/-- A story in which nothing is found resolves as it is declared, but for the scene that a location
starts with: that one is come to only if a record has its id as it is written. -/
theorem accepted_resolves (h : findings ρ files root = .ok []) {c : Catalogue ρ}
    (hc : c.Coherent files root) {id : String} (hid : id ∈ locationIds files (locationsIn root))
    : ∃ info, Resolved files root c id info := by
  obtain ⟨info, options, npcs, hchecked⟩ := checked_of_findings h hid
  have hmirrors := Catalogue.mirrors_filed (ρ := ρ) (σ := Unit) files root
  have htold {place : String} {info : Record ρ} (h : toldOf files root (.text place) = .ok info) :
      (((Catalogue.content root).location (.text place)).run c).1 = .ok (.object info) := by
    rw [(hmirrors.location (.text place) c () hc).1, run_filed_location h]
  refine ⟨info, ?_⟩
  constructor
  case told => exact htold hchecked.told
  case lands =>
    intro n
    obtain ⟨r, _, hrun⟩ := moveTo_checked h hchecked n ()
    obtain ⟨hresult, hstate⟩ := Navigation.mirrors_moveTo hmirrors.location
      (.text id) .null (n, c) (n, ()) (.intro n hc)
    rw [hrun] at hresult hstate
    rcases hmove : (Navigation.moveTo ⟨(Catalogue.content root).location, none⟩ (.text id) .null).run
      (n, c) with ⟨result, n', c'⟩
    rw [hmove] at hresult hstate
    cases hstate
    obtain rfl : result = _ := hresult
    exact ⟨_, _, rfl, rfl⟩
  case declared => exact hchecked.sound.start
  case start => exact resolve_start
  case first => exact resolve_first hchecked.sound.inhabited
  case options =>
    intro scene hscene sceneId option hoption
    obtain ⟨v, hv, rfl, _⟩ := Scene.mem_names hoption
    have hmem := (hchecked.sound.scenes scene hscene).options v hv
    rw [← Table.has_iff_mem_names] at hmem
    obtain ⟨row, hrow⟩ := Option.isSome_iff_exists.mp hmem
    refine ⟨row, ?_⟩
    rw [(hmirrors.option? id _ c () hc).1, run_filed_option? hchecked.optionsOf_eq, hrow]
  case npcs =>
    intro scene hscene sceneId npc hnpc
    obtain ⟨v, hv, rfl, _⟩ := Scene.mem_names hnpc
    have hmem := (hchecked.sound.scenes scene hscene).npcs v hv
    rw [← Table.has_iff_mem_names] at hmem
    obtain ⟨row, hrow⟩ := Option.isSome_iff_exists.mp hmem
    refine ⟨row, ?_⟩
    rw [(hmirrors.npc? id _ c () hc).1, run_filed_npc? hchecked.peopleOf_eq, hrow]
  case path =>
    intro scene hscene sceneId place hplace
    have hmem := hchecked.sound.path_mem (.inr hscene) sceneId (.text id) place hplace
    obtain ⟨info', _, _, hplace⟩ := checked_of_findings h hmem
    exact ⟨hmem, info', htold hplace.told, hplace.sound.inhabited⟩

/-- An inn that starts with a scene whose record has blanks around the id. -/
def innFiles : Files :=
  let info := "\x7b\"scenes\":[\x7b\"id\":\"hall\",\"optionIds\":[\"up\"],\"npcIds\":[\"keeper\"]\x7d,"
    ++ "\x7b\"id\":\" cellar \"\x7d],\"path\":[\"inn\"],\"startSceneId\":\"cellar\"\x7d"
  let options := "\x7b\"up\":\x7b\"name\":\"Up\",\"effect\":\"go:inn:hall\"\x7d\x7d"
  let npcs := "[\x7b\"id\":\"keeper\",\"options\":[\"up\"]\x7d]"
  ⟨[(["scenario", "locations", "inn", "info.json"], .file info.toUTF8),
    (["scenario", "locations", "inn", "options.json"], .file options.toUTF8),
    (["scenario", "locations", "inn", "npc.json"], .file npcs.toUTF8)]⟩

theorem findings_innFiles : findings Rat innFiles ["scenario"] = .ok [] :=
  Fault.eq_ok_of_toOption (by decide +kernel)

theorem locationIds_innFiles : locationIds innFiles (locationsIn ["scenario"]) = ["inn"] := by
  decide +kernel

theorem accepted_resolves_inn
    : findings Rat innFiles ["scenario"] = .ok []
      ∧ (Catalogue.ofFiles innFiles : Catalogue Rat).Coherent innFiles ["scenario"]
      ∧ "inn" ∈ locationIds innFiles (locationsIn ["scenario"])
      ∧ ∃ info, Resolved innFiles ["scenario"] (Catalogue.ofFiles innFiles : Catalogue Rat) "inn" info
        ∧ (Record.field info "startSceneId").display = "cellar"
        ∧ (Atlas.resolve info .null).display = "hall" := by
  have hcoherent := Catalogue.coherent_ofFiles (ρ := Rat) innFiles ["scenario"]
  have hinn : "inn" ∈ locationIds innFiles (locationsIn ["scenario"]) := by
    simp [locationIds_innFiles]
  obtain ⟨info, hresolved⟩ := accepted_resolves findings_innFiles hcoherent hinn
  have htold : ((((Catalogue.content ["scenario"]).location (.text "inn")).run
      (Catalogue.ofFiles innFiles : Catalogue Rat)).1.toOption.map fun v =>
        ((Record.field v.recordD "startSceneId").display, (Atlas.resolve v.recordD .null).display))
      = some ("cellar", "hall") := by
    decide +kernel
  rw [hresolved.told] at htold
  obtain ⟨hstart, hfirst⟩ := Prod.mk.inj (Option.some.inj htold)
  exact ⟨findings_innFiles, hcoherent, hinn, info, hresolved, hstart, hfirst⟩

end Scenario

end Storyworld
