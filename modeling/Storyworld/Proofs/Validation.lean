import Storyworld.Proofs.Act
import Storyworld.Proofs.Plain
import Storyworld.Proofs.Requirement
import Storyworld.Scenario.Validation

/-!
This module contains when the checks of a story come to their end. Most of what does not fit is
reported; the checks stop at hours that no scalar can hold, at numbers that stand where ids are
listed, and at requirements and effects that are nested too deep.
-/

namespace Storyworld

namespace Value

variable {ρ : Type} [Scalar ρ]

/-- Whether a value can be gone through item by item; what does not count as given has no items. -/
def isListable : Value ρ → Bool
  | .num n => n.isZero
  | .target .. => false
  | .pointer .. => false
  | _ => true

theorem isOk_itemsOr {v : Value ρ} : v.itemsOr.isOk = true ↔ v.isListable = true := by
  have hgiven (items : List (Value ρ)) :
      (if v.isGiven then .ok items else .ok [] : Except Fault (List (Value ρ))).isOk = true := by
    split <;> rfl
  unfold itemsOr
  cases v with
  | null => exact iff_of_true rfl rfl
  | num n =>
    cases hzero : n.isZero <;> simp [isGiven, isListable, items, hzero]
  | text s => exact iff_of_true (hgiven _) rfl
  | list xs => exact iff_of_true (hgiven _) rfl
  | object ms => exact iff_of_true (hgiven _) rfl
  | target l s => exact iff_of_false (by simp [isGiven, items]) (by simp [isListable])
  | pointer l s => exact iff_of_false (by simp [isGiven, items]) (by simp [isListable])

end Value

namespace Scenario

variable {ρ : Type} [Scalar ρ]

/-- The hours of a scene can be held by scalars, and its lists can be gone through. -/
structure SceneLegible (scene : Record ρ) : Prop where
  start : (Record.field scene "from").fitsScalar = true
  finish : (Record.field scene "to").fitsScalar = true
  options : (Record.field scene "optionIds").isListable = true
  npcs : (Record.field scene "npcIds").isListable = true

/-- The requirements of a row are nested too deep neither to be read nor to be searched. -/
structure RequirementLegible (row : Record ρ) : Prop where
  reading : Requirement.fits Requirement.roomLimit (Record.field row "requirements") = true
  search : (Requirement.ofValue (Record.field row "requirements")).height + Requirement.searchRoom
    ≤ Requirement.roomLimit

/-- Neither the requirements nor the effect of an option are nested too deep. -/
structure OptionLegible (row : Record ρ) : Prop where
  requirements : RequirementLegible row
  effect : Effect.fits Effect.roomLimit (Menu.effectOf row) = true

/-- The options of a person can be gone through, and the requirements are not nested too deep. -/
structure NpcLegible (row : Record ρ) : Prop where
  options : (Record.field row "options").isListable = true
  requirements : RequirementLegible row

/-- All parts of a location with scenes can be checked. -/
structure PartsLegible (info : Record ρ) (scenes : List (Value ρ)) (options npcs : Table (Record ρ)) :
    Prop where
  scenes : ∀ scene, .object scene ∈ scenes → declaredId scene ≠ "" → SceneLegible scene
  path : (Record.field info "path").isListable = true
  options : ∀ row ∈ options, OptionLegible row.2
  npcs : ∀ row ∈ npcs, NpcLegible row.2

/-- The files of a location can be read, and all its parts can be checked; of a location without
scenes nothing but these is looked for. -/
def LocationLegible (read : Reading ρ (Except Fault)) (base : Path) (id : String) : Prop :=
  ∃ info, location read base (.text id) = .ok info
    ∧ ∀ scene scenes, Record.field info "scenes" = .list (scene :: scenes) →
      ∃ optionTable npcTable, options read base (.text id) = .ok optionTable
        ∧ npcs read base (.text id) = .ok npcTable
        ∧ PartsLegible info (scene :: scenes) optionTable npcTable

theorem isOk_boundFindings (spot : Spot) {scene : Record ρ} {bound : String}
    : (boundFindings spot scene bound).isOk = true
      ↔ (Record.field scene bound).fitsScalar = true := by
  unfold boundFindings
  cases Record.field scene bound with
  | null => exact iff_of_true rfl rfl
  | _ =>
    rw [← Value.real?_isOk_iff]
    exact Fault.isOk_bind fun x _ => rfl

theorem isOk_sceneFindings {known : Known} {spot : Spot} {scene : Record ρ}
    : (sceneFindings known spot scene).isOk = true ↔ SceneLegible scene := by
  have hall : (sceneFindings known spot scene).isOk = true
      ↔ (Record.field scene "from").fitsScalar = true ∧ (Record.field scene "to").fitsScalar = true
        ∧ (Record.field scene "optionIds").isListable = true
        ∧ (Record.field scene "npcIds").isListable = true := by
    rw [← isOk_boundFindings spot, ← isOk_boundFindings spot, ← Value.isOk_itemsOr, ← Value.isOk_itemsOr]
    exact Fault.isOk_bind_iff fun low _ => Fault.isOk_bind_iff fun high _ =>
      Fault.isOk_bind_iff fun options _ => Fault.isOk_bind fun npcs _ => rfl
  rw [hall]
  exact ⟨fun ⟨hstart, hfinish, hoptions, hnpcs⟩ => ⟨hstart, hfinish, hoptions, hnpcs⟩,
    fun h => ⟨h.start, h.finish, h.options, h.npcs⟩⟩

theorem isOk_scenesFindings {known : Known} {location : String} {i : Nat} {seen : List String}
    {vs : List (Value ρ)}
    : (scenesFindings known location i seen vs).isOk = true
      ↔ ∀ scene, .object scene ∈ vs → declaredId scene ≠ "" → SceneLegible scene := by
  induction vs generalizing i seen with
  | nil => exact iff_of_true rfl (by simp)
  | cons v vs ih =>
    have hlater (i : Nat) (seen : List String) (f : List Finding × List String →
        Except Fault (List Finding × List String)) (hf : ∀ found, (f found).isOk = true) :
        (scenesFindings known location i seen vs >>= f).isOk = true
          ↔ ∀ scene, .object scene ∈ vs → declaredId scene ≠ "" → SceneLegible scene := by
      rw [Fault.isOk_bind fun found _ => hf found]
      exact ih
    cases v with
    | object scene =>
      rw [scenesFindings]
      dsimp only
      by_cases hid : declaredId scene = ""
      . rw [if_pos hid, hlater _ _ _ fun _ => rfl]
        constructor
        . intro h other hother hdeclared
          rcases List.mem_cons.mp hother with heq | hother
          . cases heq
            exact absurd hid hdeclared
          . exact h other hother hdeclared
        . intro h other hother
          exact h other (List.mem_cons_of_mem _ hother)
      . rw [if_neg hid, Fault.isOk_bind_iff fun found _ => hlater _ _ _ fun _ => rfl,
          isOk_sceneFindings]
        constructor
        . rintro ⟨hscene, h⟩ other hother hdeclared
          rcases List.mem_cons.mp hother with heq | hother
          . cases heq
            exact hscene
          . exact h other hother hdeclared
        . intro h
          exact ⟨h scene List.mem_cons_self hid, fun other hother =>
            h other (List.mem_cons_of_mem _ hother)⟩
    | _ =>
      unfold scenesFindings
      dsimp only
      rw [hlater _ _ _ fun _ => rfl]
      simp

theorem isOk_requirementFindings (spot : Spot) {row : Record ρ}
    : (requirementFindings spot row).isOk = true ↔ RequirementLegible row := by
  unfold requirementFindings Requirement.read
  split
  next hfits =>
    change (Requirement.unknownTokens _ >>= _).isOk = true ↔ _
    rw [Fault.isOk_bind fun tokens _ => rfl, Requirement.isOk_unknownTokens]
    exact ⟨fun hsearch => ⟨hfits, hsearch⟩, fun h => h.search⟩
  next hfits => exact iff_of_false Bool.false_ne_true fun h => hfits h.reading

theorem isOk_optionFindings {location : String} {option : String × Record ρ}
    : (optionFindings location option).isOk = true ↔ OptionLegible option.2 := by
  have heffect : (Effect.isRecognised (Menu.effectOf option.2)).isOk = true
      ↔ Effect.fits Effect.roomLimit (Menu.effectOf option.2) = true := by
    unfold Effect.isRecognised Effect.read
    split
    next hfits => exact iff_of_true rfl hfits
    next hfits => exact iff_of_false Bool.false_ne_true hfits
  have hboth : (optionFindings location option).isOk = true
      ↔ RequirementLegible option.2 ∧ Effect.fits Effect.roomLimit (Menu.effectOf option.2) = true := by
    rw [← heffect, ← isOk_requirementFindings (.option location option.1)]
    refine Fault.isOk_bind_iff fun found _ => Fault.isOk_bind fun recognised _ => ?_
    split <;> rfl
  rw [hboth]
  exact ⟨fun ⟨hrequirements, heffect⟩ => ⟨hrequirements, heffect⟩, fun h => ⟨h.1, h.2⟩⟩

theorem isOk_npcFindings {known : Known} {location : String} {npc : String × Record ρ}
    : (npcFindings known location npc).isOk = true ↔ NpcLegible npc.2 := by
  have hboth : (npcFindings known location npc).isOk = true
      ↔ (Record.field npc.2 "options").isListable = true ∧ RequirementLegible npc.2 := by
    rw [← Value.isOk_itemsOr, ← isOk_requirementFindings (.npc location npc.1)]
    exact Fault.isOk_bind_iff fun options _ => Fault.isOk_bind fun found _ => rfl
  rw [hboth]
  exact ⟨fun ⟨hoptions, hrequirements⟩ => ⟨hoptions, hrequirements⟩, fun h => ⟨h.1, h.2⟩⟩

/-- What is wrong with a location that has scenes, once its files are read. -/
def partsFindings (locations : List String) (id : String) (info : Record ρ) (scenes : List (Value ρ))
    (options npcs : Table (Record ρ)) : Except Fault (List Finding) := do
  let known : Known := ⟨locations, Table.names options, Table.names npcs⟩
  let (found, declared) ← scenesFindings known id 0 [] scenes
  let ways ← (Record.field info "path").itemsOr
  let ofOptions ← (options.mergeSort fun a b => (Text.order a.1 b.1).isLE).mapM (optionFindings id)
  let ofNpcs ← npcs.mapM (npcFindings known id)
  return found ++ startFindings id declared (Record.field info "startSceneId")
    ++ unknownAmong locations (.unknownDestination (.location id)) ways
    ++ ofOptions.flatten ++ ofNpcs.flatten

theorem locationFindings_eq (read : Reading ρ (Except Fault)) (base : Path) (locations : List String)
    (id : String)
    : locationFindings read base locations id = (do
      let info ← location read base (.text id)
      match Record.field info "scenes" with
      | .list (scene :: scenes) =>
        partsFindings locations id info (scene :: scenes) (← options read base (.text id))
          (← npcs read base (.text id))
      | _ => return [.noScenes id]) := rfl

theorem isOk_partsFindings {locations : List String} {id : String} {info : Record ρ}
    {scenes : List (Value ρ)} {options npcs : Table (Record ρ)}
    : (partsFindings locations id info scenes options npcs).isOk = true
      ↔ PartsLegible info scenes options npcs := by
  have hoptions : ((options.mergeSort fun a b => (Text.order a.1 b.1).isLE).mapM
      (optionFindings id)).isOk = true ↔ ∀ row ∈ options, OptionLegible row.2 := by
    simp only [Fault.isOk_mapM, List.mem_mergeSort, isOk_optionFindings]
  have hnpcs (known : Known) : (npcs.mapM (npcFindings known id)).isOk = true
      ↔ ∀ row ∈ npcs, NpcLegible row.2 := by
    simp only [Fault.isOk_mapM, isOk_npcFindings]
  have hall : (partsFindings locations id info scenes options npcs).isOk = true
      ↔ (∀ scene, .object scene ∈ scenes → declaredId scene ≠ "" → SceneLegible scene)
        ∧ (Record.field info "path").isListable = true
        ∧ (∀ row ∈ options, OptionLegible row.2) ∧ ∀ row ∈ npcs, NpcLegible row.2 := by
    unfold partsFindings
    dsimp only
    rw [← isOk_scenesFindings, ← Value.isOk_itemsOr, ← hoptions, ← hnpcs]
    exact Fault.isOk_bind_iff fun found _ => Fault.isOk_bind_iff fun ways _ =>
      Fault.isOk_bind_iff fun ofOptions _ => Fault.isOk_bind fun ofNpcs _ => rfl
  rw [hall]
  exact ⟨fun ⟨hscenes, hpath, hoptions, hnpcs⟩ => ⟨hscenes, hpath, hoptions, hnpcs⟩,
    fun h => ⟨h.1, h.2, h.3, h.4⟩⟩

theorem isOk_locationFindings {read : Reading ρ (Except Fault)} {base : Path}
    {locations : List String} {id : String}
    : (locationFindings read base locations id).isOk = true ↔ LocationLegible read base id := by
  rw [locationFindings_eq]
  unfold LocationLegible
  cases location read base (.text id) with
  | error e => exact iff_of_false Bool.false_ne_true fun ⟨_, h, _⟩ => by cases h
  | ok info =>
    simp only [Except.ok.injEq, exists_eq_left']
    dsimp only [bind, Except.bind]
    split
    next first rest hscenes =>
      simp only [hscenes, Value.list.injEq, List.cons.injEq, and_imp]
      cases options read base (.text id) with
      | error e => simp
      | ok optionTable =>
        cases npcs read base (.text id) with
        | error e => simp
        | ok npcTable => simp [isOk_partsFindings]
    next hnone => exact iff_of_true rfl fun scene scenes h => absurd h (hnone scene scenes)

example
    : let info := "\x7b\"scenes\":[\x7b\"id\":\"hall\",\"optionIds\":5\x7d]\x7d"
      let files : Files := ⟨[(["scenario", "locations", "inn", "info.json"], .file info.toUTF8)]⟩
      (findings Rat files ["scenario"]).isOk = false := by
  decide +kernel

end Scenario

end Storyworld
