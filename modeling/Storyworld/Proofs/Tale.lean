import Storyworld.Proofs.Filed

/-!
This module contains stories that are told in two ways: from memory, and from the files that hold
them. Both ways tell the records of one tale. They part where the path of a file cannot be looked up,
which memory never notices, and where an item has a title and no name, which memory does not use.
-/

namespace Storyworld

/-! ### Requests -/

namespace Content

/-- What the sources of a story are asked for. -/
inductive Request where
  | location (id : String)
  | option (location id : String)
  | options (location : String) (ids : List String)
  | npc (location id : String)
  | npcs (location : String)
  | optionsOf (location npc : String)
  | item (id : String)
deriving DecidableEq, Repr

inductive Reply (ρ : Type) where
  | value (v : Value ρ)
  | record (row : Option (Record ρ))
  | records (rows : List (Record ρ))
  | names (ids : List String)

namespace Request

/-- The location or the item that a request is about. -/
def about : Request → String
  | .location name => name
  | .option place _ => place
  | .options place _ => place
  | .npc place _ => place
  | .npcs place => place
  | .optionsOf place _ => place
  | .item name => name

/-- The source that has to look something up; nothing is looked up for no options. -/
def source? : Request → Option Source
  | .location _ => some .locations
  | .option .. => some .options
  | .options _ [] => none
  | .options _ (_ :: _) => some .options
  | .npc .. => some .npcs
  | .npcs _ => some .npcs
  | .optionsOf .. => some .npcs
  | .item _ => some .items

end Request

variable {ρ σ τ : Type} [Scalar ρ]

def reply (content : Content ρ σ) : Request → Act σ (Reply ρ)
  | .location id => .value <$> content.location (.text id)
  | .option location id => .record <$> content.option? location id
  | .options location ids => .records <$> content.options location ids
  | .npc location id => .record <$> content.npc? location id
  | .npcs location => .records <$> content.npcs location
  | .optionsOf location npc => .names <$> content.optionsOf location npc
  | .item id => .record <$> content.item? id

/-- What the sources keep after they were asked all this. -/
def asked (content : Content ρ σ) (requests : List Request) (s : σ) : σ :=
  requests.foldl (fun s request => ((content.reply request).run s).2) s

namespace Mirrors

variable {R : σ → τ → Prop} {content : Content ρ σ} {content' : Content ρ τ}

theorem reply (h : content.Mirrors R content') (request : Request)
    : Act.Mirrors R (content.reply request) (content'.reply request) := by
  cases request with
  | location id => exact Act.mirrors_map _ (h.location (.text id))
  | option location id => exact Act.mirrors_map _ (h.option? location id)
  | options location ids => exact Act.mirrors_map _ (h.options location ids)
  | npc location id => exact Act.mirrors_map _ (h.npc? location id)
  | npcs location => exact Act.mirrors_map _ (h.npcs location)
  | optionsOf location npc => exact Act.mirrors_map _ (h.optionsOf location npc)
  | item id => exact Act.mirrors_map _ (h.item? id)

theorem asked (h : content.Mirrors R content') (requests : List Request) {s : σ} {t : τ}
    (hst : R s t) : R (content.asked requests s) (content'.asked requests t) := by
  induction requests generalizing s t with
  | nil => exact hst
  | cons request requests ih => exact ih (h.reply request s t hst).2

end Mirrors

end Content

open Content (Request Reply)

/-! ### Names -/

/-- A name for a location or an item: it is not empty, there are no blanks around it, and it names
something that lies in a folder. -/
structure Scenario.IsName (name : String) : Prop where
  ne_empty : name ≠ ""
  trim : Text.strip name = name
  slash : Scenario.hasSlash name = false
  here : name ≠ "."
  up : name ≠ ".."

instance (name : String) : Decidable (Scenario.IsName name) :=
  decidable_of_iff
    (name ≠ "" ∧ Text.strip name = name ∧ Scenario.hasSlash name = false ∧ name ≠ "." ∧ name ≠ "..")
    ⟨fun h => ⟨h.1, h.2.1, h.2.2.1, h.2.2.2.1, h.2.2.2.2⟩,
      fun h => ⟨h.ne_empty, h.trim, h.slash, h.here, h.up⟩⟩

namespace Source

/-- The file from which a source tells of a location or an item. -/
def fileOf (source : Source) (root : Path) (name : String) : Path :=
  match source with
  | .locations => Scenario.locationsIn root ++ [name, Scenario.infoFile]
  | .options => Scenario.locationsIn root ++ [name, Scenario.optionsFile]
  | .npcs => Scenario.locationsIn root ++ [name, Scenario.npcFile]
  | .items => Scenario.itemsIn root ++ [name ++ ".json"]

variable {ρ : Type} [Scalar ρ]

theorem file?_text {name : String} (h : Scenario.IsName name) (source : Source) (root : Path)
    : (⟨source, root, .text name⟩ : Query ρ).file? = some (source.fileOf root name) := by
  have hlocation (base : Path) (file : String) :
      Scenario.locationFile? base (.text name : Value ρ) file = some (base ++ [name, file]) := by
    unfold Scenario.locationFile?
    dsimp only
    rw [Value.key_text, h.trim, if_neg]
    simp [h.ne_empty, h.slash, h.here, h.up]
  unfold Query.file? fileOf
  cases source with
  | locations => exact hlocation _ _
  | options => exact hlocation _ _
  | npcs => exact hlocation _ _
  | items =>
    unfold Scenario.itemFile?
    dsimp only
    rw [Value.key_text, h.trim, if_neg]
    . rfl
    . simp [h.ne_empty, h.slash]

/-- The file lies below the place to which the root leads. -/
theorem resolve_fileOf {name : String} (h : Scenario.IsName name) (source : Source)
    (root : Path) : (source.fileOf root name).resolve = source.fileOf root.resolve name := by
  have hdown {file : String} (hfile : Scenario.hasSlash file = false ∧ file ≠ "..") :
      Path.Down file := .of_hasSlash hfile.1 hfile.2
  have hname : Path.Down name := hdown ⟨h.slash, h.up⟩
  have hlocations : Path.Down "locations" := hdown (by decide +kernel)
  have hfile (file : String) (hfile : Path.Down file) :
      (root ++ ["locations"] ++ [name, file]).resolve
        = root.resolve ++ ["locations"] ++ [name, file] := by
    rw [List.append_assoc, List.append_assoc]
    exact Path.resolve_append root (by simp [hlocations, hname, hfile])
  cases source with
  | locations => exact hfile Scenario.infoFile (hdown (by decide +kernel))
  | options => exact hfile Scenario.optionsFile (hdown (by decide +kernel))
  | npcs => exact hfile Scenario.npcFile (hdown (by decide +kernel))
  | items =>
    unfold fileOf Scenario.itemsIn
    dsimp only
    rw [List.append_assoc, List.append_assoc]
    refine Path.resolve_append root ?_
    have hitems : Path.Down "items" := hdown (by decide +kernel)
    simp [hitems, Path.Down.json h.slash]

end Source

/-- Stops where a path cannot be looked up. -/
def Files.checkPath (files : Files) (p : Path) : Except Fault Unit := do
  p.refuse
  files.checkLength p.resolve p.resolve.fullSize

theorem Files.json_eq {ρ : Type} [Scalar ρ] (files : Files) (p : Path) (default : Value ρ)
    : files.json p default = (do
        files.checkPath p
        match files.bytes? p.resolve with
        | some bytes => return (← Files.decode? bytes).getD default
        | none => return default) := by
  unfold json checkPath
  cases p.refuse <;> rfl

/-- Stops where the file that a request needs cannot be looked up. -/
def Content.Request.reach (files : Files) (root : Path) (request : Request) : Except Fault Unit :=
  request.source?.elim (.ok ()) fun source =>
    files.checkPath (source.fileOf root request.about)

/-! ### Records -/

theorem Value.membersOr_object {ρ : Type} [Scalar ρ] (ms : Record ρ)
    : (Value.object ms).membersOr = .ok ms := by
  unfold Value.membersOr
  cases ms <;> rfl

namespace Memory

variable {ρ : Type}

/-- The record of an option under its id. -/
def stamp (e : String × Record ρ) : String × Record ρ := (e.1, Table.set e.2 "id" (.text e.1))

theorem names_stamp (rows : Table (Record ρ)) : Table.names (rows.map stamp) = Table.names rows := by
  unfold Table.names stamp
  rw [List.map_map]
  rfl

theorem readOptions_eq_ok {rows : Table (Record ρ)} (hnodup : (Table.names rows).Nodup)
    : Memory.readOptions (.object (Table.mapEntries .object rows)) = .ok (rows.map stamp) := by
  have hrows : (Table.mapEntries Value.object rows).mapM
      (fun m : String × Value ρ => do return (m.1, ← Memory.recordUnder m.1 m.2))
      = .ok (rows.map stamp) :=
    Fault.mapM_map_eq_ok fun e _ => rfl
  refine (congrArg (Table.ofList <$> ·) hrows).trans (congrArg Except.ok ?_)
  apply Table.ofList_eq_self
  rw [names_stamp]
  exact hnodup

theorem optionTable_object (rows : Table (Record ρ))
    : Scenario.optionTable (.object (Table.mapEntries .object rows)) = rows.map stamp := by
  unfold Scenario.optionTable Table.mapEntries
  rw [Value.recordD_object, List.filterMap_map, ← List.filterMap_eq_map]
  rfl

variable [Scalar ρ]

theorem readNpcs_eq_ok {rows : List (Record ρ)} (h : ∀ row ∈ rows, Record.Shallow row)
    : Memory.readNpcs (.list (rows.map .object)) = .ok (Memory.npcTable rows) := by
  have hrows : (rows.map Value.object).mapM (fun v : Value ρ => do
      let row ← (v.record?.map Except.ok).getD (.error Fault.missingPart)
      (Memory.npcId row).checkDepth
      return row) = .ok (rows.map id) := by
    apply Fault.mapM_map_eq_ok
    intro row hrow
    have hid : (Memory.npcId row).isPlain Value.textDepth = true :=
      Value.isPlain_orElse ((h row hrow).field "id") ((h row hrow).field "name")
    change ((Memory.npcId row).checkDepth >>= fun _ => Except.ok row) = .ok row
    rw [Value.checkDepth_of_isPlain hid]
    rfl
  rw [List.map_id] at hrows
  exact congrArg (· >>= fun rows => Except.ok (Memory.npcTable rows)) hrows

theorem npcTable_list (rows : List (Record ρ))
    : Scenario.npcTable (.list (rows.map .object)) = Memory.npcTable rows := by
  have hrows : (rows.map Value.object).filterMap Value.record? = rows := by
    rw [List.filterMap_map]
    exact List.filterMap_some
  exact congrArg Memory.npcTable hrows

/-- Members that are read one by one, each name once, come in as a table. -/
theorem entries_eq_ok {α β : Type} {read : String → Value ρ → Except Fault β} {write : α → Value ρ}
    {g : α → β} {t : Table α} (hnodup : (Table.names t).Nodup)
    (h : ∀ e ∈ t, read e.1 (write e.2) = .ok (g e.2))
    : Memory.entries read (.object (Table.mapEntries write t)) = .ok (Table.mapEntries g t) := by
  have hentries : (Table.mapEntries write t).mapM
      (fun m : String × Value ρ => do return (m.1, ← read m.1 m.2)) = .ok (Table.mapEntries g t) := by
    apply Fault.mapM_map_eq_ok
    intro e he
    rw [h e he]
    rfl
  unfold Memory.entries
  rw [Value.membersOr_object]
  refine (congrArg (Table.ofList <$> ·) hentries).trans (congrArg Except.ok ?_)
  apply Table.ofList_eq_self
  rw [Table.names_mapEntries]
  exact hnodup

end Memory

/-! ### Tales -/

/-- The records of a story. -/
structure Tale (ρ : Type) where
  locations : Table (Record ρ) := []
  options : Table (Table (Record ρ)) := []
  npcs : Table (List (Record ρ)) := []
  items : Table (Record ρ) := []

namespace Tale

variable {ρ : Type}

/-- What a source is given of a tale. -/
def values (tale : Tale ρ) : Source → Table (Value ρ)
  | .locations => Table.mapEntries .object tale.locations
  | .options => Table.mapEntries (fun rows => .object (Table.mapEntries .object rows)) tale.options
  | .npcs => Table.mapEntries (fun rows => .list (rows.map .object)) tale.npcs
  | .items => Table.mapEntries .object tale.items

/-- The options of a location, each under its id. -/
def optionsAt (tale : Tale ρ) (location : String) : Table (Record ρ) :=
  ((Table.get? tale.options location).getD []).map Memory.stamp

/-- Each name comes once, and it is one for a location or an item. -/
structure Orderly (tale : Tale ρ) : Prop where
  nodup : ∀ source, (Table.names (tale.values source)).Nodup
  nodup_options : ∀ e ∈ tale.options, (Table.names e.2).Nodup
  named : ∀ source, ∀ name ∈ Table.names (tale.values source), Scenario.IsName name

variable [Scalar ρ]

/-- The files hold what a tale has under a name, and there are none for other names. -/
def Held (tale : Tale ρ) (files : Files) (root : Path) : Prop :=
  ∀ source name, Scenario.IsName name →
    match Table.get? (tale.values source) name with
    | some v => files.json (source.fileOf root name) (Query.default ⟨source, root, .text name⟩) = .ok v
    | none => files.bytes? (source.fileOf root name).resolve = none

/-- The people of a location, each under an id. -/
def npcsAt (tale : Tale ρ) (location : String) : Table (Record ρ) :=
  Memory.npcTable ((Table.get? tale.npcs location).getD [])

/-- What is told where the items are told in this way. -/
def reply (tell : String → Record ρ → Record ρ) (tale : Tale ρ) : Request → Reply ρ
  | .location id => .value (.object ((Table.get? tale.locations id).getD []))
  | .option location id => .record (Table.get? (tale.optionsAt location) id)
  | .options location ids => .records (ids.filterMap (Table.get? (tale.optionsAt location)))
  | .npc location id => .record (Table.get? (tale.npcsAt location) id)
  | .npcs location => .records ((tale.npcsAt location).map Prod.snd)
  | .optionsOf location npc =>
    .names (((Table.get? (tale.npcsAt location) npc).map fun row =>
      (Record.field row "options").listD.map Value.display).getD [])
  | .item id => .record ((Table.get? tale.items id).map (tell id))

/-- No title stands in for the missing name of an item that is asked for. -/
def Titled (tale : Tale ρ) : Request → Prop
  | .item id => ∀ row, Table.get? tale.items id = some row →
    (Record.field row "name").isGiven = true ∨ (Record.field row "title").isGiven = false
      ∨ Record.field row "title" = .text id
  | _ => True

/-- The two ways to tell of an item come to the same just where no title stands in for its name. -/
theorem itemRecord_eq_iff {id : String} {row : Record ρ}
    : Scenario.itemRecord id row = Memory.itemRecord id row
      ↔ (Record.field row "name").isGiven = true ∨ (Record.field row "title").isGiven = false
        ∨ Record.field row "title" = .text id := by
  have hname {v w : Value ρ} :
      Table.set (Table.set row "id" (.text id)) "name" v
          = Table.set (Table.set row "id" (.text id)) "name" w ↔ v = w := by
    constructor
    . intro h
      have hget := congrArg (Table.get? · "name") h
      simpa only [Table.get?_set_self, Option.some.injEq] using hget
    . rintro rfl
      rfl
  unfold Scenario.itemRecord Memory.itemRecord
  rw [hname]
  unfold Value.orElse
  by_cases hn : (Record.field row "name").isGiven = true
  . simp [hn]
  . by_cases ht : (Record.field row "title").isGiven = true
    . simp [hn, ht]
    . simp [hn, ht]

theorem reply_eq_iff (tale : Tale ρ) (request : Request)
    : tale.reply Scenario.itemRecord request = tale.reply Memory.itemRecord request
      ↔ tale.Titled request := by
  cases request with
  | item id =>
    unfold reply Titled
    cases hrow : Table.get? tale.items id with
    | none => simp [hrow]
    | some row => simp [hrow, itemRecord_eq_iff]
  | _ => exact iff_of_true rfl trivial

/-! ### Telling -/

/-- Sources tell what a tale has under a name, wherever the source in question can be reached. -/
structure Tells (tell : String → Record ρ → Record ρ) (tale : Tale ρ) (name : String)
    (reach : Source → Except Fault Unit) {σ : Type} (content : Content ρ σ) : Prop where
  location : ∀ s, (content.location (.text name)).run s
    = ((reach .locations).map fun _ => .object ((Table.get? tale.locations name).getD []), s)
  option? : ∀ id s, (content.option? name id).run s
    = ((reach .options).map fun _ => Table.get? (tale.optionsAt name) id, s)
  npc? : ∀ id s, (content.npc? name id).run s
    = ((reach .npcs).map fun _ => Table.get? (tale.npcsAt name) id, s)
  npcs : ∀ s, (content.npcs name).run s
    = ((reach .npcs).map fun _ => (tale.npcsAt name).map Prod.snd, s)
  item? : ∀ s, (content.item? name).run s
    = ((reach .items).map fun _ => (Table.get? tale.items name).map (tell name), s)

/-- The people of a tale are nested less deep than texts can be. -/
def Shallow (tale : Tale ρ) : Prop := ∀ e ∈ tale.npcs, ∀ row ∈ e.2, Record.Shallow row

theorem Shallow.npcsAt {tale : Tale ρ} (h : tale.Shallow) {location : String}
    {e : String × Record ρ} (he : e ∈ tale.npcsAt location) : Record.Shallow e.2 := by
  refine Memory.shallow_npcTable (fun row hrow => ?_) e he
  cases hrows : Table.get? tale.npcs location with
  | none =>
    rw [hrows] at hrow
    cases hrow
  | some rows =>
    rw [hrows] at hrow
    exact h _ (Table.mem_of_get? hrows) row hrow

namespace Tells

variable {tell : String → Record ρ → Record ρ} {tale : Tale ρ} {name : String}
  {reach : Source → Except Fault Unit} {σ : Type} {content : Content ρ σ}

theorem run_options (h : Tells tell tale name reach content) (hreach : reach .options = .ok ())
    (ids : List String) (s : σ)
    : (content.options name ids).run s
      = (.ok (ids.filterMap (Table.get? (tale.optionsAt name))), s) := by
  induction ids with
  | nil => rfl
  | cons id ids ih =>
    unfold Content.options
    rw [Act.run_bind, h.option?, hreach]
    dsimp only [Except.map]
    rw [Act.run_bind, ih, List.filterMap_cons]
    cases Table.get? (tale.optionsAt name) id <;> rfl

/-- The first option tells already whether the options are reached. -/
theorem run_options_cons (h : Tells tell tale name reach content) (id : String) (ids : List String)
    (s : σ)
    : (content.options name (id :: ids)).run s
      = ((reach .options).map fun _ => (id :: ids).filterMap (Table.get? (tale.optionsAt name)), s)
    := by
  cases hreach : reach .options with
  | ok _ => exact h.run_options hreach (id :: ids) s
  | error e =>
    unfold Content.options
    rw [Act.run_bind, h.option?, hreach]
    rfl

theorem run_optionsOf (h : Tells tell tale name reach content) (hshallow : tale.Shallow)
    (npc : String) (s : σ)
    : (content.optionsOf name npc).run s
      = ((reach .npcs).map fun _ => ((Table.get? (tale.npcsAt name) npc).map fun row =>
          (Record.field row "options").listD.map Value.display).getD [], s) := by
  unfold Content.optionsOf
  rw [Act.run_bind, h.npc?]
  cases reach .npcs with
  | error e => rfl
  | ok _ =>
    dsimp only [Except.map]
    cases hrow : Table.get? (tale.npcsAt name) npc with
    | none => rfl
    | some row =>
      have hrow := (hshallow.npcsAt (Table.mem_of_get? hrow)).field "options"
      have htexts : (Record.field row "options").listD.mapM Value.text?
          = .ok ((Record.field row "options").listD.map Value.display) := by
        have hread : ∀ v ∈ (Record.field row "options").listD, (id v).text? = .ok v.display :=
          fun v hv => Value.text?_of_isPlain (Value.isPlain_of_mem_listD hrow hv)
        have hmap := Fault.mapM_map_eq_ok hread
        rwa [List.map_id] at hmap
      dsimp only
      rw [Act.run_lift, htexts]
      rfl

/-- A request is replied to with what the tale has, where the source that it needs is reached. -/
theorem run_reply {request : Request} (h : Tells tell tale request.about reach content)
    (hshallow : tale.Shallow) (s : σ)
    : (content.reply request).run s
      = ((request.source?.elim (.ok ()) reach).map fun _ => tale.reply tell request, s) := by
  have hreply {α : Type} {act : Act σ α} {a : α} {source : Source}
      (hact : act.run s = ((reach source).map fun _ => a, s)) (wrap : α → Reply ρ) :
      (wrap <$> act).run s = ((reach source).map fun _ => wrap a, s) := by
    rw [Act.run_map, hact]
    cases reach source <;> rfl
  cases request with
  | location name => exact hreply (h.location s) .value
  | option location id => exact hreply (h.option? id s) .record
  | npc location id => exact hreply (h.npc? id s) .record
  | npcs location => exact hreply (h.npcs s) .records
  | optionsOf location npc => exact hreply (h.run_optionsOf hshallow npc s) .names
  | item name => exact hreply (h.item? s) .record
  | options location ids =>
    cases ids with
    | nil => rfl
    | cons id ids => exact hreply (h.run_options_cons id ids s) .records

end Tells

/-! ### From memory -/

/-- The story in memory that a tale makes. -/
def memory (tale : Tale ρ) : Memory ρ where
  locations := tale.locations
  options := Table.mapEntries (fun rows => rows.map Memory.stamp) tale.options
  npcs := Table.mapEntries Memory.npcTable tale.npcs
  items := tale.items

/-- A tale makes a story in memory. -/
theorem read_values {tale : Tale ρ} (horderly : tale.Orderly) (hshallow : tale.Shallow)
    : Memory.read (.object (tale.values .locations)) (.object (tale.values .options))
        (.object (tale.values .npcs)) (.object (tale.values .items)) = .ok tale.memory := by
  have hlocations : (Table.names tale.locations).Nodup := by
    simpa [values] using horderly.nodup .locations
  have hoptions : (Table.names tale.options).Nodup := by
    simpa [values] using horderly.nodup .options
  have hnpcs : (Table.names tale.npcs).Nodup := by
    simpa [values] using horderly.nodup .npcs
  have hitems : (Table.names tale.items).Nodup := by
    simpa [values] using horderly.nodup .items
  have hrecords {t : Table (Record ρ)} (h : (Table.names t).Nodup) :
      Memory.entries (fun _ v => v.toRecord) (.object (Table.mapEntries .object t)) = .ok t := by
    have hread : Memory.entries (fun _ v => v.toRecord) (.object (Table.mapEntries .object t))
        = .ok (Table.mapEntries (fun r => r) t) := Memory.entries_eq_ok h fun e _ => rfl
    exact hread.trans (congrArg Except.ok (List.map_id t))
  have hrows : Memory.entries (fun _ v => Memory.readOptions v) (.object
        (Table.mapEntries (fun rows => .object (Table.mapEntries .object rows)) tale.options))
      = .ok (Table.mapEntries (fun rows => rows.map Memory.stamp) tale.options) :=
    Memory.entries_eq_ok hoptions fun e he => Memory.readOptions_eq_ok (horderly.nodup_options e he)
  have hpeople : Memory.entries (fun _ v => Memory.readNpcs v) (.object
        (Table.mapEntries (fun rows => .list (rows.map .object)) tale.npcs))
      = .ok (Table.mapEntries Memory.npcTable tale.npcs) :=
    Memory.entries_eq_ok hnpcs fun e he => Memory.readNpcs_eq_ok (hshallow e he)
  unfold Memory.read values
  dsimp only
  rw [hrecords hlocations, hrows, hpeople, hrecords hitems]
  rfl

theorem optionsAt_memory (tale : Tale ρ) (location : String)
    : (Table.get? tale.memory.options location).getD [] = tale.optionsAt location := by
  unfold optionsAt memory
  dsimp only
  rw [Table.get?_mapEntries]
  cases Table.get? tale.options location <;> rfl

theorem npcsAt_memory (tale : Tale ρ) (location : String)
    : (Table.get? tale.memory.npcs location).getD [] = tale.npcsAt location := by
  unfold npcsAt memory
  dsimp only
  rw [Table.get?_mapEntries]
  cases Table.get? tale.npcs location <;> rfl

theorem tells_memory (tale : Tale ρ) (name : String) {σ : Type}
    : Tells Memory.itemRecord tale name (fun _ => .ok ()) (tale.memory.content : Content ρ σ) where
  location s := by
    unfold Memory.content
    dsimp only
    rw [Value.text?_text]
    rfl
  option? id s := by
    rw [← optionsAt_memory, ← Table.bind_get?]
    rfl
  npc? id s := by
    rw [← npcsAt_memory, ← Table.bind_get?]
    rfl
  npcs s := by
    rw [← npcsAt_memory]
    rfl
  item? s := rfl

/-! ### From files -/

variable {tale : Tale ρ} {files : Files} {root : Path}

/-- A file gives what the tale has, where its path can be looked up. -/
theorem Held.json_eq (h : tale.Held files root) (source : Source) {name : String}
    (hname : Scenario.IsName name)
    : files.json (source.fileOf root name) (Query.default ⟨source, root, .text name⟩)
      = (files.checkPath (source.fileOf root name)).map fun _ =>
          (Table.get? (tale.values source) name).getD (Query.default ⟨source, root, .text name⟩) := by
  have hheld := h source name hname
  cases hget : Table.get? (tale.values source) name with
  | none =>
    rw [hget] at hheld
    dsimp only at hheld
    rw [Files.json_eq, hheld]
    cases files.checkPath (source.fileOf root name) <;> rfl
  | some v =>
    rw [hget] at hheld
    dsimp only at hheld
    rw [hheld]
    rw [Files.json_eq] at hheld
    obtain ⟨_, hcheck, _⟩ := Fault.bind_eq_ok.mp hheld
    rw [hcheck]
    rfl

theorem Held.shallow (h : tale.Held files root) (horderly : tale.Orderly) : tale.Shallow := by
  rintro ⟨name, rows⟩ he row hrow
  have hget : Table.get? (tale.values .npcs) name = some (.list (rows.map .object)) := by
    apply Table.get?_of_mem (horderly.nodup .npcs)
    exact List.mem_map.mpr ⟨(name, rows), he, rfl⟩
  have hname : Scenario.IsName name := by
    apply horderly.named .npcs
    exact List.mem_map.mpr ⟨_, Table.mem_of_get? hget, rfl⟩
  have hheld := h .npcs name hname
  rw [hget] at hheld
  have hplain := Files.isPlain_json rfl hheld
  have hobject := Value.isPlain_of_mem hplain (List.mem_map_of_mem (f := Value.object) hrow)
  exact Record.shallow_recordD hobject

/-- What a source looks up in the file of a name. -/
theorem Held.lookup_eq (h : tale.Held files root) {name : String} (hname : Scenario.IsName name)
    (source : Source) {α : Type} (tell : Value ρ → α)
    : Query.lookup files.json tell ⟨source, root, .text name⟩
      = (files.checkPath (source.fileOf root name)).map fun _ =>
          tell ((Table.get? (tale.values source) name).getD
            (Query.default ⟨source, root, .text name⟩)) := by
  unfold Query.lookup
  rw [Source.file?_text hname]
  dsimp only
  rw [h.json_eq source hname]
  cases files.checkPath (source.fileOf root name) <;> rfl

theorem Held.toldOf_eq (h : tale.Held files root) {name : String} (hname : Scenario.IsName name)
    : Scenario.toldOf files root (.text name)
      = (files.checkPath (Source.locations.fileOf root name)).map fun _ =>
          (Table.get? tale.locations name).getD [] := by
  unfold Scenario.toldOf
  rw [(Value.Plain.text name).checkDepth, Query.location_eq, h.lookup_eq hname, values,
    Table.get?_mapEntries]
  cases Table.get? tale.locations name <;> rfl

theorem Held.optionsOf_eq (h : tale.Held files root) {name : String}
    (hname : Scenario.IsName name)
    : Scenario.optionsOf files root name
      = (files.checkPath (Source.options.fileOf root name)).map fun _ => tale.optionsAt name := by
  unfold Scenario.optionsOf
  rw [Query.options_eq, h.lookup_eq hname, values, Table.get?_mapEntries, optionsAt]
  cases Table.get? tale.options name with
  | none => rfl
  | some rows => exact congrArg (Except.map · _) (funext fun _ => Memory.optionTable_object rows)

theorem Held.peopleOf_eq (h : tale.Held files root) {name : String}
    (hname : Scenario.IsName name)
    : Scenario.peopleOf files root name
      = (files.checkPath (Source.npcs.fileOf root name)).map fun _ => tale.npcsAt name := by
  unfold Scenario.peopleOf
  rw [Query.npcs_eq, h.lookup_eq hname, values, Table.get?_mapEntries, npcsAt]
  cases Table.get? tale.npcs name with
  | none => rfl
  | some rows => exact congrArg (Except.map · _) (funext fun _ => Memory.npcTable_list rows)

/-- The sources that look all up in the files tell what the tale has, where they reach the file. -/
theorem Held.tells (h : tale.Held files root) {name : String} (hname : Scenario.IsName name)
    {σ : Type}
    : Tells Scenario.itemRecord tale name (fun source => files.checkPath (source.fileOf root name))
        (Scenario.filed files root : Content ρ σ) where
  location s := by
    unfold Scenario.filed
    dsimp only
    rw [Act.run_map, Act.run_lift, h.toldOf_eq hname]
    cases files.checkPath (Source.locations.fileOf root name) <;> rfl
  option? id s := by
    unfold Scenario.filed
    dsimp only
    rw [h.optionsOf_eq hname, Act.run_bind, Act.run_lift]
    cases files.checkPath (Source.options.fileOf root name) <;> rfl
  npc? id s := by
    unfold Scenario.filed
    dsimp only
    rw [h.peopleOf_eq hname, Act.run_bind, Act.run_lift]
    cases files.checkPath (Source.npcs.fileOf root name) <;> rfl
  npcs s := by
    unfold Scenario.filed
    dsimp only
    rw [h.peopleOf_eq hname, Act.run_bind, Act.run_lift]
    cases files.checkPath (Source.npcs.fileOf root name) <;> rfl
  item? s := by
    unfold Scenario.filed
    dsimp only
    rw [Act.run_lift, Query.item?_eq, h.lookup_eq hname, values, Table.get?_mapEntries,
      Value.key_text, hname.trim]
    cases Table.get? tale.items name <;> rfl

/-- The sources over the files reply with what the tale has, whatever they were asked before, where
they reach the file. -/
theorem Held.catalogue_reply (h : tale.Held files root) (hshallow : tale.Shallow)
    (before : List Request) {request : Request} (hname : Scenario.IsName request.about)
    : (((Catalogue.content root).reply request).run
        ((Catalogue.content root).asked before (Catalogue.ofFiles files : Catalogue ρ))).1
      = (request.reach files root).map fun _ => tale.reply Scenario.itemRecord request := by
  have hmirrors := Catalogue.mirrors_filed (ρ := ρ) (σ := Unit) files root
  have hasked := hmirrors.asked before (t := ()) (Catalogue.coherent_ofFiles files root)
  have hreply := (hmirrors.reply request _ () hasked).1
  rw [(h.tells hname).run_reply hshallow] at hreply
  exact hreply

/-! ### Both ways -/

/-- Whatever was asked before, memory replies to every request, and the sources over the files reply
alike just where they reach the file and no title stands in for the missing name of an item. -/
theorem replies_agree_iff (horderly : tale.Orderly) (hheld : tale.Held files root) {σ : Type}
    : ∃ m : Memory ρ, Memory.read (.object (tale.values .locations)) (.object (tale.values .options))
        (.object (tale.values .npcs)) (.object (tale.values .items)) = .ok m
      ∧ ∀ (before : List Request) (request : Request) (s : σ), Scenario.IsName request.about →
        ∃ told, (m.content.reply request).run s = (.ok told, s)
          ∧ ((((Catalogue.content root).reply request).run
              ((Catalogue.content root).asked before (Catalogue.ofFiles files))).1 = .ok told
            ↔ (request.reach files root).isOk = true ∧ tale.Titled request) := by
  have hshallow := hheld.shallow horderly
  refine ⟨tale.memory, read_values horderly hshallow, fun before request s hname => ?_⟩
  refine ⟨tale.reply Memory.itemRecord request, ?_, ?_⟩
  . rw [(tells_memory tale request.about).run_reply hshallow]
    cases request.source? <;> rfl
  . rw [hheld.catalogue_reply hshallow before hname, ← reply_eq_iff]
    cases request.reach files root with
    | error e => simp [Except.map]
    | ok _ => simp [Except.map]

/-- An inn with somebody in it, an apple that has a title and no name, and a rope that has a name. -/
def inn : Tale Rat where
  locations := [("inn", [("title", .text "Inn")])]
  options := [("inn", [("nap", [("name", .text "Nap")])])]
  npcs := [("inn", [[("name", .text "Ada")]])]
  items := [("apple", [("title", .text "Apple")]), ("rope", [("name", .text "Rope")])]

def innFiles : Files :=
  ⟨[(["scenario", "locations", "inn", "info.json"], .file "\x7b\"title\":\"Inn\"\x7d".toUTF8),
    (["scenario", "locations", "inn", "options.json"],
      .file "\x7b\"nap\":\x7b\"name\":\"Nap\"\x7d\x7d".toUTF8),
    (["scenario", "locations", "inn", "npc.json"], .file "[\x7b\"name\":\"Ada\"\x7d]".toUTF8),
    (["scenario", "items", "apple.json"], .file "\x7b\"title\":\"Apple\"\x7d".toUTF8),
    (["scenario", "items", "rope.json"], .file "\x7b\"name\":\"Rope\"\x7d".toUTF8)]⟩

/-- A test that one value alone passes. -/
def Singles (test : Value Rat → Bool) (v : Value Rat) : Prop := ∀ w, test w = true → w = v

def isText (s : String) : Value Rat → Bool
  | .text t => t == s
  | _ => false

def isOnly (test : Value Rat → Bool) : Value Rat → Bool
  | .list [v] => test v
  | _ => false

def isMember (name : String) (test : Value Rat → Bool) : Value Rat → Bool
  | .object [(k, v)] => k == name && test v
  | _ => false

theorem singles_text (s : String) : Singles (isText s) (.text s) := by
  intro w hw
  unfold isText at hw
  split at hw
  . rw [beq_iff_eq.mp hw]
  . cases hw

theorem Singles.only {test : Value Rat → Bool} {v : Value Rat} (h : Singles test v)
    : Singles (isOnly test) (.list [v]) := by
  intro w hw
  unfold isOnly at hw
  split at hw
  . rw [h _ hw]
  . cases hw

theorem Singles.member {test : Value Rat → Bool} {v : Value Rat} (h : Singles test v)
    (name : String) : Singles (isMember name test) (.object [(name, v)]) := by
  intro w hw
  unfold isMember at hw
  split at hw
  . rw [Bool.and_eq_true, beq_iff_eq] at hw
    rw [hw.1, h _ hw.2]
  . cases hw

theorem Singles.eq_ok {test : Value Rat → Bool} {v : Value Rat} (h : Singles test v)
    {x : Except Fault (Value Rat)} (hx : x.toOption.any test = true) : x = .ok v := by
  obtain ⟨w, rfl, hw⟩ := Fault.any_eq_true.mp hx
  rw [h w hw]

theorem orderly_inn : inn.Orderly where
  nodup source := by cases source <;> decide +kernel
  nodup_options := by decide +kernel
  named source := by cases source <;> decide +kernel

theorem held_inn : inn.Held innFiles ["scenario"] := by
  intro source name hname
  have hroot : Path.resolve ["scenario"] = ["scenario"] := by decide +kernel
  rw [Source.resolve_fileOf hname, hroot]
  by_cases hitems : source = .items
  . subst hitems
    by_cases happle : name = "apple"
    . subst happle
      exact ((singles_text "Apple").member "title").eq_ok (by decide +kernel)
    by_cases hrope : name = "rope"
    . subst hrope
      exact ((singles_text "Rope").member "name").eq_ok (by decide +kernel)
    have hother {other : String} (h : other ≠ name) : other ++ ".json" ≠ name ++ ".json" := by
      rwa [Ne, String.append_left_inj]
    have happle' : "apple.json" ≠ name ++ ".json" := hother (Ne.symm happle)
    have hrope' : "rope.json" ≠ name ++ ".json" := hother (Ne.symm hrope)
    have hnone : Table.get? (inn.values .items) name = none := by
      simp [inn, values, Table.mapEntries, Table.get?_cons, Ne.symm happle, Ne.symm hrope]
    rw [hnone]
    simp [innFiles, Files.bytes?, Files.get?, Source.fileOf, Scenario.itemsIn, happle', hrope']
  by_cases hinn : name = "inn"
  . subst hinn
    cases source with
    | locations => exact ((singles_text "Inn").member "title").eq_ok (by decide +kernel)
    | options => exact (((singles_text "Nap").member "name").member "nap").eq_ok (by decide +kernel)
    | npcs => exact ((singles_text "Ada").member "name").only.eq_ok (by decide +kernel)
    | items => exact absurd rfl hitems
  . have hnone : Table.get? (inn.values source) name = none := by
      cases source <;>
        simp [inn, values, Table.mapEntries, Table.get?_cons, Ne.symm hinn] at hitems ⊢
    rw [hnone]
    cases source <;>
      simp [innFiles, Files.bytes?, Files.get?, Source.fileOf, Scenario.locationsIn, Ne.symm hinn]
        at hitems ⊢

theorem replies_agree_iff_inn
    : inn.Orderly ∧ inn.Held innFiles ["scenario"]
      ∧ ∃ m : Memory Rat, Memory.read (.object (inn.values .locations)) (.object (inn.values .options))
          (.object (inn.values .npcs)) (.object (inn.values .items)) = .ok m
        ∧ let fromMemory request := (((m.content : Content Rat Unit).reply request).run ()).1
          let fromFiles request := (((Catalogue.content ["scenario"]).reply request).run
            ((Catalogue.content ["scenario"]).asked [.item "apple"]
              (Catalogue.ofFiles innFiles : Catalogue Rat))).1
          fromFiles (.npcs "inn") = fromMemory (.npcs "inn")
            ∧ fromFiles (.item "rope") = fromMemory (.item "rope")
            ∧ fromFiles (.item "apple") ≠ fromMemory (.item "apple")
            ∧ fromFiles (.location "a\x00b") ≠ fromMemory (.location "a\x00b") := by
  obtain ⟨m, hread, hreplies⟩ := replies_agree_iff (σ := Unit) orderly_inn held_inn
  refine ⟨orderly_inn, held_inn, m, hread, ?_⟩
  intro fromMemory fromFiles
  have hagree (request : Request) (hname : Scenario.IsName request.about) :
      fromFiles request = fromMemory request
        ↔ (request.reach innFiles ["scenario"]).isOk = true ∧ inn.Titled request := by
    obtain ⟨told, hmemory, hiff⟩ := hreplies [.item "apple"] request () hname
    dsimp only [fromMemory]
    rw [hmemory]
    exact hiff
  rw [hagree (.npcs "inn") (by decide +kernel), hagree (.item "rope") (by decide +kernel),
    ne_eq, ne_eq, hagree (.item "apple") (by decide +kernel),
    hagree (.location "a\x00b") (by decide +kernel)]
  refine ⟨⟨by decide +kernel, trivial⟩, ⟨by decide +kernel, ?_⟩, ?_, ?_⟩
  . intro row hrow
    obtain rfl := Option.some.inj hrow
    exact .inl (by decide +kernel)
  . rintro ⟨_, htitled⟩
    rcases htitled _ rfl with hname | htitle | htitle
    . exact absurd hname (by decide +kernel)
    . exact absurd htitle (by decide +kernel)
    . exact absurd (Value.text.inj htitle) (by decide)
  . rintro ⟨hreach, _⟩
    exact absurd hreach (by decide +kernel)

end Tale

end Storyworld
