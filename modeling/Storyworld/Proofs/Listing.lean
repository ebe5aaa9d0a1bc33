import Storyworld.Proofs.Filed

/-!
This module contains the exact list of a menu. The people of a scene, the options of the one talked to, the
options of the scene, the pack and the exit stand in this order, as far as requirements let through, and of
entries with one id the first one stays.
-/

namespace Storyworld

variable {ρ σ : Type}

/-! ### Ids that come twice -/

namespace Menu

/-- A menu lists each id of a list once, in the order in which they come first, and under it the entry
that is the first one. -/
structure Firsts (all menu : List (Choice ρ)) : Prop where
  nodup : (menu.map Choice.id).Nodup
  ids_eq : menu.map Choice.id = (all.map Choice.id).eraseDups
  find?_eq : ∀ id, menu.find? (·.id == id) = all.find? (·.id == id)

/-- Puts an entry behind those that were seen, unless its id was seen. -/
def putNew (seen : List (Choice ρ)) (c : Choice ρ) : List (Choice ρ) :=
  if seen.any (·.id == c.id) then seen else seen ++ [c]

theorem any_id_iff {seen : List (Choice ρ)} {c : Choice ρ}
    : seen.any (·.id == c.id) = true ↔ c.id ∈ seen.map Choice.id := by
  simp only [List.any_eq_true, beq_iff_eq, List.mem_map]

theorem nodup_foldl_putNew (seen rest : List (Choice ρ)) (h : (seen.map Choice.id).Nodup)
    : ((rest.foldl putNew seen).map Choice.id).Nodup := by
  induction rest generalizing seen with
  | nil => exact h
  | cons c rest ih =>
    refine ih (putNew seen c) ?_
    unfold putNew
    split
    next => exact h
    next hnew =>
      rw [List.map_append, List.map_singleton, ← List.concat_eq_append, List.nodup_concat]
      exact ⟨fun hmem => hnew (any_id_iff.mpr hmem), h⟩

theorem map_id_foldl_putNew (seen rest : List (Choice ρ))
    : (rest.foldl putNew seen).map Choice.id
      = seen.map Choice.id ++ ((rest.map Choice.id).removeAll (seen.map Choice.id)).eraseDups := by
  induction rest generalizing seen with
  | nil => simp [List.removeAll]
  | cons c rest ih =>
    rw [List.foldl_cons, ih, List.map_cons, List.cons_removeAll]
    by_cases hseen : seen.any (·.id == c.id) = true
    . have hput : putNew seen c = seen := if_pos hseen
      have hmem := any_id_iff.mp hseen
      rw [hput, if_neg (by simpa using hmem)]
    . have hput : putNew seen c = seen ++ [c] := if_neg hseen
      have hnew : c.id ∉ seen.map Choice.id := fun hmem => hseen (any_id_iff.mpr hmem)
      have hremove : (rest.map Choice.id).removeAll (seen.map Choice.id ++ [c.id])
          = ((rest.map Choice.id).removeAll (seen.map Choice.id)).filter fun id => !(id == c.id) := by
        unfold List.removeAll
        rw [List.filter_filter]
        congr 1
        funext id
        rw [Bool.eq_iff_iff]
        simp [and_comm]
      rw [hput, if_pos (by simpa using hnew), List.eraseDups_cons, List.map_append, List.map_singleton,
        hremove, List.append_assoc, List.singleton_append]

theorem find?_foldl_putNew (seen rest : List (Choice ρ)) (id : String)
    : (rest.foldl putNew seen).find? (·.id == id) = (seen ++ rest).find? (·.id == id) := by
  induction rest generalizing seen with
  | nil => rw [List.append_nil, List.foldl_nil]
  | cons c rest ih =>
    rw [List.foldl_cons, ih]
    unfold putNew
    split
    next hseen =>
      rw [List.find?_append, List.find?_append, List.find?_cons]
      split
      -- the one that was seen is found first
      next hid =>
        obtain ⟨d, hd, hsame⟩ := List.any_eq_true.mp hseen
        have hfound : (seen.find? (·.id == id)).isSome = true := by
          rw [List.find?_isSome]
          exact ⟨d, hd, by rw [beq_iff_eq.mp hsame, hid]⟩
        rw [Option.or_of_isSome hfound, Option.or_of_isSome hfound]
      next => rfl
    next => rw [List.append_assoc, List.singleton_append]

theorem firsts_distinct (all : List (Choice ρ)) : Firsts all (distinct all) where
  nodup := nodup_foldl_putNew [] all List.nodup_nil
  ids_eq := (map_id_foldl_putNew [] all).trans (by simp [List.removeAll])
  find?_eq := find?_foldl_putNew [] all

end Menu

/-! ### What the sources have -/

/-- What the sources of a story have of a location. -/
structure Shelf (ρ : Type) where
  option? : String → Option (Record ρ) := fun _ => none
  npc? : String → Option (Record ρ) := fun _ => none
  npcs : List (Record ρ) := []

/-- Whatever they keep in between, the sources answer with this of a location. -/
structure Content.Stocks (P : σ → Prop) (content : Content ρ σ) (location : String)
    (shelf : Shelf ρ) : Prop where
  option? : ∀ id, Act.Gives P (content.option? location id) (· = shelf.option? id)
  npc? : ∀ id, Act.Gives P (content.npc? location id) (· = shelf.npc? id)
  npcs : Act.Gives P (content.npcs location) (· = shelf.npcs)

variable [Scalar ρ]

namespace Shelf

/-- The people of a scene: those that it names, or all of its location that have an id. -/
def people (shelf : Shelf ρ) (scene : Scene ρ) : List (Record ρ) :=
  if scene.npcs.isEmpty then shelf.npcs.filter fun row => (Record.field row "id").isGiven
  else scene.npcs.filterMap shelf.npc?

/-- The options of the person talked to, where the scene does not name others only. -/
def spoken (shelf : Shelf ρ) (scene : Scene ρ) (npc : Value ρ) : List (Value ρ) :=
  if Menu.speaks scene npc then
    ((shelf.npc? npc.display).map fun row => (Record.field row "options").listD).getD []
  else []

/-- The records of those options; an option without one is left out. -/
def spokenRows (shelf : Shelf ρ) (scene : Scene ρ) (npc : Value ρ) : List (Record ρ) :=
  ((shelf.spoken scene npc).map Value.display).filterMap shelf.option?

/-- The records of the options of a scene. -/
def ownRows (shelf : Shelf ρ) (scene : Scene ρ) : List (Record ρ) :=
  scene.options.filterMap shelf.option?

end Shelf

namespace Menu

def idOf (row : Record ρ) : String := ((Record.field row "id").orElse (.text "")).display

/-- Whether requirements let a record through. -/
def isOpen (stall : Stall ρ σ) (env : Env ρ) (row : Record ρ) : Bool :=
  (open? stall env row).toOption.getD false

/-- What goes into a menu: it has an id, and requirements let it through. -/
def eligible (stall : Stall ρ σ) (env : Env ρ) (row : Record ρ) : Bool :=
  idOf row != "" && isOpen stall env row

/-- The entry of somebody, with a mark where it is the one talked to. -/
def talkEntry (env : Env ρ) (row : Record ρ) : Choice ρ :=
  let name := "Talk: " ++ ((Record.field row "name").orElse (.text (idOf row))).display
  ⟨talkStart ++ idOf row, if isCurrent env.npc (idOf row) then name ++ talkMark else name,
    [("npc", .object row)]⟩

def optionEntry (row : Record ρ) : Choice ρ :=
  ⟨idOf row, ((((Record.field row "name").orElse (Record.field row "title")).orElse
    (Record.field row "label")).orElse (.text (idOf row))).display, row⟩

/-- The entries of those records that are kept, group by group, then the pack and the exit. -/
def listed (shelf : Shelf ρ) (scene : Scene ρ) (npc : Value ρ) (keep : Record ρ → Bool) :
    List (Choice ρ) :=
  ((shelf.people scene).filter keep).map (talkEntry (envOf scene npc))
    ++ ((shelf.spokenRows scene npc).filter keep).map optionEntry
    ++ ((shelf.ownRows scene).filter keep).map optionEntry
    ++ [⟨packId, "Inventory", []⟩, ⟨exitId, "Exit", []⟩]

/-- What menus read of a record has a text. -/
def Legible (row : Record ρ) : Prop :=
  ∀ name ∈ ["id", "name", "title", "label", "requirements"], (Record.field row name).checkDepth = .ok ()

/-- All that a menu reads has a text. -/
structure Clear (shelf : Shelf ρ) (scene : Scene ρ) (npc : Value ρ) : Prop where
  active : npc.checkDepth = .ok ()
  people : ∀ row ∈ shelf.people scene, Legible row
  spoken : ∀ v ∈ shelf.spoken scene npc, v.checkDepth = .ok ()
  spokenRows : ∀ row ∈ shelf.spokenRows scene npc, Legible row
  ownRows : ∀ row ∈ shelf.ownRows scene, Legible row

end Menu

theorem Value.text?_of_checkDepth {v : Value ρ} (h : v.checkDepth = .ok ()) : v.text? = .ok v.display := by
  unfold text?
  rw [h]
  rfl

theorem Value.checkDepth_orElse {v w : Value ρ} (hv : v.checkDepth = .ok ()) (hw : w.checkDepth = .ok ())
    : (v.orElse w).checkDepth = .ok () := by
  unfold orElse
  split
  . exact hv
  . exact hw

theorem Fault.filterMapM_eq_ok {α β : Type} {f : α → Except Fault (Option β)} {keep : α → Bool} {g : α → β}
    {as : List α} (h : ∀ a ∈ as, f a = .ok (if keep a then some (g a) else none))
    : as.filterMapM f = .ok ((as.filter keep).map g) := by
  induction as with
  | nil => rfl
  | cons a as ih =>
    obtain ⟨ha, has⟩ := List.forall_mem_cons.mp h
    rw [List.filterMapM_cons, ha, ih has]
    cases hkeep : keep a with
    | true =>
      rw [List.filter_cons_of_pos hkeep]
      rfl
    | false =>
      rw [List.filter_cons_of_neg (by rw [hkeep]; exact Bool.false_ne_true)]
      rfl

namespace Menu.Legible

variable {row : Record ρ} (h : Legible row)

include h

theorem rowId_eq : rowId row = .ok (idOf row) :=
  Value.text?_of_checkDepth (Value.checkDepth_orElse (h "id" (by decide)) rfl)

theorem open?_eq (stall : Stall ρ σ) (env : Env ρ) : open? stall env row = .ok (isOpen stall env row) := by
  unfold isOpen
  have hopen : ∃ b, open? stall env row = .ok b := by
    unfold open? Requirement.passes
    split
    . exact ⟨_, rfl⟩
    . rw [h "requirements" (by decide)]
      exact ⟨true, rfl⟩
  obtain ⟨b, hb⟩ := hopen
  rw [hb]
  rfl

/-- What is made of a record where it has an id and requirements let it through. -/
theorem guard_eq (stall : Stall ρ σ) (env : Env ρ) {entry : Except Fault (Option (Choice ρ))} {c : Choice ρ}
    (hentry : entry = .ok (some c))
    : (if idOf row = "" then pure none else do
        let isOpen ← open? stall env row
        if !isOpen then pure none else entry)
      = Except.ok (if eligible stall env row then some c else none) := by
  unfold eligible
  rw [h.open?_eq, hentry]
  by_cases hid : idOf row = ""
  . rw [if_pos hid, hid]
    rfl
  . rw [if_neg hid, bne_iff_ne.mpr hid]
    cases isOpen stall env row <;> rfl

theorem talkChoice_eq (stall : Stall ρ σ) (env : Env ρ)
    : talkChoice stall env row
      = .ok (if eligible stall env row then some (talkEntry env row) else none) := by
  have hname : ((Record.field row "name").orElse (.text (idOf row))).text?
      = .ok ((Record.field row "name").orElse (.text (idOf row))).display :=
    Value.text?_of_checkDepth (Value.checkDepth_orElse (h "name" (by decide)) rfl)
  unfold talkChoice
  rw [h.rowId_eq]
  refine h.guard_eq stall env ?_
  rw [hname]
  rfl

theorem optionChoice_eq (stall : Stall ρ σ) (env : Env ρ)
    : optionChoice stall env row
      = .ok (if eligible stall env row then some (optionEntry row) else none) := by
  have hlabel : label row (idOf row) = .ok ((((Record.field row "name").orElse
      (Record.field row "title")).orElse (Record.field row "label")).orElse (.text (idOf row))).display :=
    Value.text?_of_checkDepth (Value.checkDepth_orElse (Value.checkDepth_orElse (Value.checkDepth_orElse
      (h "name" (by decide)) (h "title" (by decide))) (h "label" (by decide))) rfl)
  unfold optionChoice
  rw [h.rowId_eq]
  refine h.guard_eq stall env ?_
  rw [hlabel]
  rfl

end Menu.Legible

/-! ### Sources in memory and in files -/

omit [Scalar ρ] in
instance (row : Record ρ) : Decidable (Record.Shallow row) :=
  inferInstanceAs (Decidable (∀ m ∈ row, m.2.isPlain Value.textDepth = true))

namespace Shelf

/-- The options and the people of a location, each under an id. -/
def ofTables (options people : Table (Record ρ)) : Shelf ρ where
  option? := Table.get? options
  npc? := Table.get? people
  npcs := people.map Prod.snd

theorem clear_ofTables {options people : Table (Record ρ)} (hoptions : ∀ e ∈ options, Record.Shallow e.2)
    (hpeople : ∀ e ∈ people, Record.Shallow e.2) {npc : Value ρ} (hnpc : npc.checkDepth = .ok ())
    (scene : Scene ρ) : Menu.Clear (ofTables options people) scene npc := by
  have hlegible {row : Record ρ} (h : Record.Shallow row) : Menu.Legible row :=
    fun name _ => Value.checkDepth_of_isPlain (h.field name)
  have hoption {ids : List String} {row : Record ρ}
      (h : row ∈ ids.filterMap (ofTables options people).option?) : Record.Shallow row := by
    obtain ⟨id, _, hid⟩ := List.mem_filterMap.mp h
    exact hoptions _ (Table.mem_of_get? hid)
  have hperson {row : Record ρ} (h : row ∈ (ofTables options people).people scene) :
      Record.Shallow row := by
    unfold Shelf.people at h
    split at h
    . obtain ⟨e, he, rfl⟩ := List.mem_map.mp (List.mem_of_mem_filter h)
      exact hpeople e he
    . obtain ⟨id, _, hid⟩ := List.mem_filterMap.mp h
      exact hpeople _ (Table.mem_of_get? hid)
  refine ⟨hnpc, fun row h => hlegible (hperson h), fun v hv => ?_, fun row h => hlegible (hoption h),
    fun row h => hlegible (hoption h)⟩
  unfold spoken at hv
  split at hv
  . cases hrow : (ofTables options people).npc? npc.display with
    | none =>
      rw [hrow] at hv
      cases hv
    | some row =>
      rw [hrow] at hv
      have hshallow := hpeople _ (Table.mem_of_get? hrow)
      exact Value.checkDepth_of_isPlain (Value.isPlain_of_mem_listD (hshallow.field "options") hv)
  . cases hv

end Shelf

theorem Memory.stocks {P : σ → Prop} (m : Memory ρ) (location : String)
    : (m.content : Content ρ σ).Stocks P location
      (.ofTables ((Table.get? m.options location).getD []) ((Table.get? m.npcs location).getD [])) where
  option? _ := Act.gives_pure (Table.bind_get? _ _)
  npc? _ := Act.gives_pure (Table.bind_get? _ _)
  npcs := Act.gives_pure rfl

namespace Scenario

variable {files : Files} {root : Path} {id : String} {rows : Table (Record ρ)}

omit [Scalar ρ] in
theorem shallow_of_record? {v : Value ρ} {row : Record ρ} (h : v.isPlain Value.textDepth = true)
    (hrow : v.record? = some row) : Record.Shallow row := by
  have hsame : v.recordD = row := congrArg (Option.getD · []) hrow
  rw [← hsame]
  exact Record.shallow_recordD h

theorem shallow_optionsOf (h : optionsOf files root id = .ok rows) : ∀ e ∈ rows, Record.Shallow e.2 := by
  unfold optionsOf options at h
  split at h
  . obtain rfl := Except.ok.inj h
    exact List.forall_mem_nil _
  . obtain ⟨v, hjson, h⟩ := Fault.bind_eq_ok.mp h
    obtain rfl := Except.ok.inj h
    intro e he
    obtain ⟨m, hm, hrow⟩ := List.mem_filterMap.mp he
    obtain ⟨row, hrecord, rfl⟩ := Option.map_eq_some_iff.mp hrow
    have hplain := Value.isPlain_of_member (Files.isPlain_json rfl hjson) hm
    exact (shallow_of_record? hplain hrecord).set "id" rfl

theorem shallow_peopleOf (h : peopleOf files root id = .ok rows) : ∀ e ∈ rows, Record.Shallow e.2 := by
  unfold peopleOf npcs at h
  split at h
  . obtain rfl := Except.ok.inj h
    exact List.forall_mem_nil _
  . obtain ⟨v, hjson, h⟩ := Fault.bind_eq_ok.mp h
    obtain rfl := Except.ok.inj h
    refine Memory.shallow_npcTable fun row hrow => ?_
    obtain ⟨w, hw, hrecord⟩ := List.mem_filterMap.mp hrow
    have hplain := Value.isPlain_of_mem_listD (Files.isPlain_json rfl hjson) hw
    exact shallow_of_record? hplain hrecord

end Scenario

/-- The sources over files answer with what the files hold, where both files can be looked up. -/
theorem Catalogue.stocks {files : Files} {root : Path} {location : String}
    {options people : Table (Record ρ)} (hoptions : Scenario.optionsOf files root location = .ok options)
    (hpeople : Scenario.peopleOf files root location = .ok people)
    : (content root : Content ρ (Catalogue ρ)).Stocks (Coherent files root) location
      (.ofTables options people) := by
  have hmirrors := mirrors_filed (ρ := ρ) (σ := Unit) files root
  have hgives {α : Type} {act : Act (Catalogue ρ) α} {act' : Act Unit α} {a : α}
      (h : Act.Mirrors (fun c _ => Coherent files root c) act act') (hact : act'.run () = (.ok a, ())) :
      Act.Gives (Coherent files root) act (· = a) := by
    intro c hc
    obtain ⟨hrun, hkept⟩ := h c () hc
    rw [hact] at hrun
    exact ⟨a, _, Prod.ext hrun rfl, hkept, rfl⟩
  refine ⟨fun id => hgives (hmirrors.option? location id) (Scenario.run_filed_option? hoptions id ()),
    fun id => hgives (hmirrors.npc? location id) (Scenario.run_filed_npc? hpeople id ()),
    hgives (hmirrors.npcs location) ?_⟩
  unfold Scenario.filed
  dsimp only
  rw [hpeople]
  rfl

/-! ### What is listed -/

namespace Content.Stocks

variable {P : σ → Prop} {content : Content ρ σ} {location : String} {shelf : Shelf ρ}

omit [Scalar ρ] in
theorem gives_options (h : content.Stocks P location shelf) (ids : List String)
    : Act.Gives P (content.options location ids) (· = ids.filterMap shelf.option?) := by
  induction ids with
  | nil => exact Act.gives_pure rfl
  | cons id ids ih =>
    unfold Content.options
    refine (h.option? id).bind fun found hfound => ih.bind fun rest hrest => Act.gives_pure ?_
    rw [hfound, hrest, List.filterMap_cons]
    cases shelf.option? id <;> rfl

omit [Scalar ρ] in
theorem gives_people (h : content.Stocks P location shelf) (ids : List String)
    : Act.Gives P (Menu.people content location ids) (· = ids.filterMap shelf.npc?) := by
  induction ids with
  | nil => exact Act.gives_pure rfl
  | cons id ids ih =>
    unfold Menu.people
    refine (h.npc? id).bind fun found hfound => ih.bind fun rest hrest => Act.gives_pure ?_
    rw [hfound, hrest, List.filterMap_cons]
    cases shelf.npc? id <;> rfl

variable {scene : Scene ρ}

theorem gives_sceneNpcs (h : content.Stocks P scene.location shelf)
    : Act.Gives P (Menu.sceneNpcs content scene) (· = shelf.people scene) := by
  unfold Menu.sceneNpcs Shelf.people
  split
  . exact h.npcs.bind fun rows hrows => Act.gives_pure (by rw [hrows])
  . exact h.gives_people scene.npcs

theorem gives_optionsOf (h : content.Stocks P location shelf) {npc : String}
    (htexts : ∀ row ∈ shelf.npc? npc, ∀ v ∈ (Record.field row "options").listD, v.checkDepth = .ok ())
    : Act.Gives P (content.optionsOf location npc)
      (· = (((shelf.npc? npc).map fun row => (Record.field row "options").listD).getD []).map
        Value.display) := by
  unfold Content.optionsOf
  refine (h.npc? npc).bind fun found hfound => ?_
  subst hfound
  cases hnpc : shelf.npc? npc with
  | none => exact Act.gives_pure rfl
  | some row =>
    refine Act.gives_lift ⟨_, Fault.mapM_eq_ok fun v hv => ?_, rfl⟩
    exact Value.text?_of_checkDepth (htexts row hnpc v hv)

end Content.Stocks

namespace Menu

variable {P : σ → Prop} {stall : Stall ρ σ} {scene : Scene ρ} {npc : Value ρ} {shelf : Shelf ρ}

theorem gives_optionRows (h : stall.content.Stocks P scene.location shelf) (env : Env ρ) {ids : List String}
    (hlegible : ∀ row ∈ ids.filterMap shelf.option?, Legible row)
    : Act.Gives P (optionChoices stall env scene.location ids)
      (· = ((ids.filterMap shelf.option?).filter (eligible stall env)).map optionEntry) := by
  unfold optionChoices
  refine (h.gives_options ids).bind fun rows hrows => Act.gives_lift ⟨_, ?_, rfl⟩
  rw [hrows]
  exact Fault.filterMapM_eq_ok fun row hrow => (hlegible row hrow).optionChoice_eq stall env

theorem gives_spoken (h : stall.content.Stocks P scene.location shelf)
    (hclear : ∀ v ∈ shelf.spoken scene npc, v.checkDepth = .ok ()) (hspeaks : speaks scene npc = true)
    : Act.Gives P (stall.content.optionsOf scene.location npc.display)
      (· = (shelf.spoken scene npc).map Value.display) := by
  have hspoken : shelf.spoken scene npc
      = ((shelf.npc? npc.display).map fun row => (Record.field row "options").listD).getD [] :=
    if_pos hspeaks
  rw [hspoken] at hclear ⊢
  refine h.gives_optionsOf fun row hrow v hv => hclear v ?_
  rw [Option.mem_def.mp hrow]
  exact hv

theorem gives_listed (h : stall.content.Stocks P scene.location shelf) (hclear : Clear shelf scene npc)
    : Act.Gives P (entries stall scene npc)
      (· = listed shelf scene npc (eligible stall (envOf scene npc))) := by
  unfold entries listed
  refine h.gives_sceneNpcs.bind fun people hpeople => ?_
  have htalks : Fault.Gives (people.filterMapM (talkChoice stall (envOf scene npc)))
      (· = ((shelf.people scene).filter (eligible stall (envOf scene npc))).map
        (talkEntry (envOf scene npc))) := by
    refine ⟨_, ?_, rfl⟩
    rw [hpeople]
    exact Fault.filterMapM_eq_ok fun row hrow => (hclear.people row hrow).talkChoice_eq stall _
  refine (Act.gives_lift htalks).bind fun talks htalks => ?_
  rw [← htalks]
  -- what follows after the options of a person is the same with and without one
  have hall (offered : List (Choice ρ)) (hoffered : offered
      = ((shelf.spokenRows scene npc).filter (eligible stall (envOf scene npc))).map optionEntry) :
      Act.Gives P (do
        let own ← optionChoices stall (envOf scene npc) scene.location scene.options
        return talks ++ offered ++ own ++ [⟨packId, "Inventory", []⟩, ⟨exitId, "Exit", []⟩])
        (· = talks
          ++ ((shelf.spokenRows scene npc).filter (eligible stall (envOf scene npc))).map optionEntry
          ++ ((shelf.ownRows scene).filter (eligible stall (envOf scene npc))).map optionEntry
          ++ [⟨packId, "Inventory", []⟩, ⟨exitId, "Exit", []⟩]) := by
    refine (gives_optionRows h (envOf scene npc) hclear.ownRows).bind fun own hown => Act.gives_pure ?_
    rw [hoffered, hown]
    rfl
  dsimp only
  split
  next hspeaks =>
    refine (Act.gives_lift ⟨_, Value.text?_of_checkDepth hclear.active, rfl⟩).bind fun id hid => ?_
    subst hid
    refine (gives_spoken h hclear.spoken hspeaks).bind fun ids hids => ?_
    subst hids
    exact (gives_optionRows h (envOf scene npc) hclear.spokenRows).bind hall
  next hspeaks =>
    have hspoken : shelf.spokenRows scene npc = [] := by
      unfold Shelf.spokenRows Shelf.spoken
      rw [if_neg hspeaks]
      rfl
    refine hall [] ?_
    rw [hspoken]
    rfl

end Menu

end Storyworld
