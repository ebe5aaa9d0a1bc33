import Storyworld.Proofs.Reader
import Storyworld.Proofs.Value
import Storyworld.Save

/-!
This module contains the loading of saves: a file and a slot that hold one text give one answer, and
the answer is a snapshot or none unless the text is nested too deep or a part of its payload cannot
be read.
-/

namespace Storyworld

variable {ρ : Type}

namespace Value

variable [Scalar ρ]

/-- Whether there is a scalar for a whole number; what is none needs none. -/
def wholeFits : Value ρ → Bool
  | .num (.int i) => (Scalar.ofInt? i : Option ρ).isSome
  | _ => true

theorem isPlain_of_itemsOr {d : Nat} {v : Value ρ} (h : v.isPlain d = true) {items : List (Value ρ)}
    (hitems : v.itemsOr = .ok items) : ∀ item ∈ items, item.isPlain d = true := by
  intro item hitem
  unfold itemsOr at hitems
  split at hitems
  next =>
    cases v with
    | list xs =>
      cases hitems
      exact isPlain_of_mem h hitem
    | text s =>
      cases hitems
      obtain ⟨c, _, rfl⟩ := List.mem_map.mp hitem
      rfl
    | object ms =>
      cases hitems
      obtain ⟨m, _, rfl⟩ := List.mem_map.mp hitem
      rfl
    | _ => cases hitems
  next =>
    cases hitems
    cases hitem

/-- Only numbers have no items, and of those zero counts as not given. -/
theorem itemsOr_isOk_iff {d : Nat} {v : Value ρ} (h : v.isPlain d = true)
    : v.itemsOr.isOk = true ↔ ∀ n, v = .num n → n.isZero = true := by
  have hgiven (items : List (Value ρ)) :
      (if v.isGiven then .ok items else .ok [] : Except Fault (List (Value ρ))).isOk = true := by
    split <;> rfl
  unfold itemsOr
  cases v with
  | null => simp [isGiven]
  | num n =>
    have hitems : (num n).items = .error (.notIterable (num n).kindName) := rfl
    rw [hitems]
    cases hzero : n.isZero <;> simp [isGiven, hzero]
  | text s => simp [items, hgiven]
  | list xs => simp [items, hgiven]
  | object ms => simp [items, hgiven]
  | target l s => cases h
  | pointer l s => cases h

end Value

namespace Snapshot

variable [Scalar ρ]

theorem finite?_isOk_iff {v : Value ρ} : (finite? v).isOk = true ↔ v.wholeFits = true := by
  cases v with
  | num n =>
    cases n with
    | flag b => exact Iff.rfl
    | int i =>
      change ((Number.toReal.ofInt i : Except Fault ρ) >>= _).isOk = true
        ↔ (Scalar.ofInt? i).isSome = true
      unfold Number.toReal.ofInt
      cases (Scalar.ofInt? i : Option ρ) <;> rfl
    | real x => exact Iff.rfl
  | _ => exact Iff.rfl

theorem of_finite? {v : Value ρ} {x : ρ} (h : finite? v = .ok (some x))
    : Scalar.isFinite x = true ∧ (v = .real x ∨ ∃ i, v = .int i) := by
  have hread {n : Number ρ}
      (h : (do return some (← n.toReal) |>.filter Scalar.isFinite) = .ok (some x)) :
      Scalar.isFinite x = true ∧ n.toReal = .ok x := by
    obtain ⟨y, hy, hsome⟩ := Fault.bind_eq_ok.mp h
    obtain ⟨hsame, hx⟩ := Option.filter_eq_some_iff.mp (Except.ok.inj hsome)
    cases hsame
    exact ⟨hx, hy⟩
  unfold finite? at h
  cases v with
  | num n =>
    cases n with
    | flag b => cases h
    | int i => exact ⟨(hread h).1, .inr ⟨i, rfl⟩⟩
    | real y =>
      obtain ⟨hx, hy⟩ := hread h
      cases hy
      exact ⟨hx, .inl rfl⟩
  | _ => cases h

theorem isFinite_of_finite? {n : Number ρ} {x : ρ} (h : finite? (.num n) = .ok (some x))
    : n.isFinite = true := by
  obtain ⟨hx, heq | ⟨i, heq⟩⟩ := of_finite? h
  . cases heq
    exact hx
  . cases heq
    rfl

theorem truncate_isOk {n : Number ρ} (h : n.isFinite = true) : n.truncate.isOk = true := by
  unfold Number.isFinite at h
  unfold Number.truncate
  cases hextent : n.extent with
  | finite q => rfl
  | _ =>
    rw [hextent] at h
    cases h

theorem numbers_isOk_iff {f : Number ρ → ρ → Except Fault (Value ρ)}
    (hf : ∀ n x, finite? (.num n) = .ok (some x) → (f n x).isOk = true) {ms : Record ρ}
    : (numbers f ms).isOk = true ↔ ∀ m ∈ ms, m.2.wholeFits = true := by
  induction ms with
  | nil => simp [numbers, pure, Except.pure]
  | cons m ms ih =>
    obtain ⟨name, v⟩ := m
    unfold numbers
    rw [List.forall_mem_cons, ← finite?_isOk_iff, ← ih]
    apply Fault.isOk_bind_iff
    intro found hfound
    split
    next n x =>
      have hn := hf n x hfound
      rw [Fault.isOk_bind_iff fun _ _ => Fault.isOk_bind fun _ _ => rfl, and_iff_right hn]
    next => rfl

theorem countsOf_isOk_iff {r : Record ρ}
    : (countsOf r).isOk = true ↔ ∀ m ∈ r, m.2.wholeFits = true :=
  numbers_isOk_iff fun _ _ h => Fault.isOk_map.mpr (truncate_isOk (isFinite_of_finite? h))

theorem traitsOf_isOk_iff {r : Record ρ}
    : (traitsOf r).isOk = true ↔ ∀ m ∈ r, m.2.wholeFits = true :=
  numbers_isOk_iff fun _ _ _ => rfl

theorem timeOf_isOk_iff {v : Value ρ} : (timeOf v).isOk = true ↔ v.wholeFits = true := by
  rw [← finite?_isOk_iff]
  exact Fault.isOk_bind fun _ _ => rfl

theorem versionOf_isOk_iff {v : Value ρ} : (versionOf v).isOk = true ↔ v.wholeFits = true := by
  rw [← finite?_isOk_iff]
  apply Fault.isOk_bind
  intro found hfound
  split
  next => rfl
  next x =>
    split
    . rfl
    . exact truncate_isOk (of_finite? hfound).1

/-- The payload and the pointer of a value that a snapshot is read from. -/
structure Usable (v : Value ρ) (payload pointer : Record ρ) : Prop where
  object : v = .object payload
  place : Record.field payload "pointer" = .object pointer
  given : (Record.field pointer "locationId").isGiven = true

/-- What can be read of a payload: its history is no number but zero, and there are scalars for the
whole numbers in its other parts. -/
structure Legible (payload : Record ρ) : Prop where
  history : ∀ n, Record.field payload "history" = .num n → n.isZero = true
  time : (Record.field payload "time").wholeFits = true
  traits : ∀ m ∈ (Record.field payload "traits").recordD, m.2.wholeFits = true
  inventory : ∀ m ∈ (Record.field payload "inventory").recordD, m.2.wholeFits = true
  version : (Record.field payload "version").wholeFits = true

theorem given?_isOk {v : Value ρ} (h : v.isPlain Value.textDepth = true)
    : v.given?.isOk = true := by
  unfold Value.given?
  split
  . rw [Value.text?_of_isPlain h]
    rfl
  . rfl

theorem rowOf?_isOk {v : Value ρ} (h : v.isPlain Value.textDepth = true)
    : (rowOf? v).isOk = true := by
  unfold rowOf?
  split
  next r =>
    have hfield (name : String) : (Record.field r name).isPlain Value.textDepth = true :=
      Value.isPlain_field (fun _ hm => Value.isPlain_of_member h hm) name
    dsimp only
    split
    . rw [Value.text?_of_isPlain (hfield _)]
      have hscene := given?_isOk (hfield "sceneId")
      exact (Fault.isOk_bind fun _ _ => (Fault.isOk_bind fun _ _ => rfl).mpr hscene).mpr rfl
    . rfl
  next => rfl

theorem historyOf_isOk_iff {v : Value ρ} (h : v.isPlain Value.textDepth = true)
    : (historyOf v).isOk = true ↔ ∀ n, v = .num n → n.isZero = true := by
  rw [← Value.itemsOr_isOk_iff h]
  apply Fault.isOk_bind
  intro items hitems
  have hrows : Fault.Gives (items.filterMapM rowOf?) fun rows => ∀ row ∈ rows, True := by
    apply Fault.gives_filterMapM
    intro item hitem
    have hrow := rowOf?_isOk (Value.isPlain_of_itemsOr h hitems item hitem)
    exact ⟨_, Fault.eq_ok_getD hrow none, fun _ _ => trivial⟩
  exact hrows.isOk

theorem eventsOf_isOk {v : Value ρ} (h : v.isPlain Value.textDepth = true)
    : (eventsOf v).isOk = true := by
  have htokens : Fault.Gives (v.listD.mapM Value.text?) fun tokens => ∀ token ∈ tokens, True := by
    apply Fault.gives_mapM
    intro token htoken
    exact ⟨_, Value.text?_of_isPlain (Value.isPlain_of_mem_listD h htoken), trivial⟩
  exact (Fault.isOk_bind fun _ _ => rfl).mpr htokens.isOk

theorem read_isOk_iff {payload pointer : Record ρ}
    (hpayload : (Value.object payload).isPlain Value.textDepth = true)
    (hpointer : (Value.object pointer).isPlain Value.textDepth = true)
    : (read payload pointer).isOk = true ↔ Legible payload := by
  have hpart (name : String) : (Record.field payload name).isPlain Value.textDepth = true :=
    Value.isPlain_field (fun _ hm => Value.isPlain_of_member hpayload hm) name
  have hplace (name : String) : (Record.field pointer name).isPlain Value.textDepth = true :=
    Value.isPlain_field (fun _ hm => Value.isPlain_of_member hpointer hm) name
  have hlocation : (Record.field pointer "locationId").text?.isOk = true := by
    rw [Value.text?_of_isPlain (hplace _)]
    rfl
  have hscene := given?_isOk (hplace "sceneId")
  have hevents := eventsOf_isOk (hpart "domainEvents")
  -- the parts are read one behind the other, none in the light of another
  have hparts : (read payload pointer).isOk = true ↔
      (historyOf (Record.field payload "history")).isOk = true
      ∧ (Record.field pointer "locationId").text?.isOk = true
      ∧ (Record.field pointer "sceneId").given?.isOk = true
      ∧ (timeOf (Record.field payload "time")).isOk = true
      ∧ (traitsOf (Record.field payload "traits").recordD).isOk = true
      ∧ (eventsOf (Record.field payload "domainEvents")).isOk = true
      ∧ (countsOf (Record.field payload "inventory").recordD).isOk = true
      ∧ (versionOf (Record.field payload "version")).isOk = true := by
    unfold read
    iterate 7
      apply Fault.isOk_bind_iff
      intro _ _
    exact Fault.isOk_bind fun _ _ => rfl
  rw [hparts, historyOf_isOk_iff (hpart _), timeOf_isOk_iff, traitsOf_isOk_iff, countsOf_isOk_iff,
    versionOf_isOk_iff]
  constructor
  . rintro ⟨hhistory, _, _, htime, htraits, _, hinventory, hversion⟩
    exact ⟨hhistory, htime, htraits, hinventory, hversion⟩
  . rintro ⟨hhistory, htime, htraits, hinventory, hversion⟩
    exact ⟨hhistory, hlocation, hscene, htime, htraits, hevents, hinventory, hversion⟩

theorem ofPayload_cases (v : Value ρ)
    : (∃ payload pointer, Usable v payload pointer ∧ ofPayload v = some <$> read payload pointer)
      ∨ (∀ payload pointer, ¬ Usable v payload pointer) ∧ ofPayload v = .ok none := by
  by_cases hany : ∃ payload pointer, Usable v payload pointer
  . left
    obtain ⟨payload, pointer, husable⟩ := hany
    refine ⟨payload, pointer, husable, ?_⟩
    unfold ofPayload
    rw [husable.object]
    dsimp only
    rw [husable.place]
    dsimp only
    rw [if_pos husable.given]
  . right
    refine ⟨fun payload pointer husable => hany ⟨payload, pointer, husable⟩, ?_⟩
    unfold ofPayload
    split
    next payload =>
      split
      next pointer hplace => exact if_neg fun hgiven => hany ⟨payload, pointer, rfl, hplace, hgiven⟩
      next => rfl
    next => rfl

/-- The parts of a snapshot are read from the members of a payload, each from its own. -/
structure Reads (payload pointer : Record ρ) (s : Snapshot ρ) : Prop where
  location : ∃ l, (Record.field pointer "locationId").text? = .ok l ∧ s.location = .text l
  scene : (Record.field pointer "sceneId").given? = .ok s.scene
  history : ∃ rows, historyOf (Record.field payload "history") = .ok rows ∧ s.history = .list rows
  time : timeOf (Record.field payload "time") = .ok s.time
  traits : ∃ ms, traitsOf (Record.field payload "traits").recordD = .ok ms ∧ s.traits = .object ms
  events : ∃ tokens, eventsOf (Record.field payload "domainEvents") = .ok tokens
    ∧ s.events = .list tokens
  inventory : ∃ ms, countsOf (Record.field payload "inventory").recordD = .ok ms
    ∧ s.inventory = .object ms
  world : s.world = .object (Record.field payload "world").recordD
  version : ∃ i, versionOf (Record.field payload "version") = .ok i ∧ s.version = .int i

theorem reads_of_ofPayload {v : Value ρ} {s : Snapshot ρ} (h : ofPayload v = .ok (some s))
    : ∃ payload pointer, Usable v payload pointer ∧ Reads payload pointer s := by
  obtain ⟨payload, pointer, husable, hread⟩ :
      ∃ payload pointer, Usable v payload pointer ∧ read payload pointer = .ok s := by
    rcases ofPayload_cases v with ⟨payload, pointer, husable, heq⟩ | ⟨_, heq⟩
    . rw [heq] at h
      obtain ⟨taken, hread, hsome⟩ := Fault.map_eq_ok.mp h
      cases hsome
      exact ⟨payload, pointer, husable, hread⟩
    . rw [heq] at h
      cases h
  refine ⟨payload, pointer, husable, ?_⟩
  unfold read at hread
  obtain ⟨rows, hrows, hread⟩ := Fault.bind_eq_ok.mp hread
  obtain ⟨l, hl, hread⟩ := Fault.bind_eq_ok.mp hread
  obtain ⟨scene, hscene, hread⟩ := Fault.bind_eq_ok.mp hread
  obtain ⟨time, htime, hread⟩ := Fault.bind_eq_ok.mp hread
  obtain ⟨traits, htraits, hread⟩ := Fault.bind_eq_ok.mp hread
  obtain ⟨events, hevents, hread⟩ := Fault.bind_eq_ok.mp hread
  obtain ⟨inventory, hinventory, hread⟩ := Fault.bind_eq_ok.mp hread
  obtain ⟨version, hversion, hread⟩ := Fault.bind_eq_ok.mp hread
  obtain rfl := Except.ok.inj hread
  exact ⟨⟨l, hl, rfl⟩, hscene, ⟨rows, hrows, rfl⟩, htime, ⟨traits, htraits, rfl⟩,
    ⟨events, hevents, rfl⟩, ⟨inventory, hinventory, rfl⟩, rfl, ⟨version, hversion, rfl⟩⟩

/-- Whether a snapshot can be read of a value, should there be one. -/
def Loadable (v : Value ρ) : Prop := ∀ payload pointer, Usable v payload pointer → Legible payload

theorem ofPayload_isOk_iff {v : Value ρ} (h : v.isPlain Value.textDepth = true)
    : (ofPayload v).isOk = true ↔ Loadable v := by
  rcases ofPayload_cases v with ⟨payload, pointer, husable, heq⟩ | ⟨hnone, heq⟩
  . obtain rfl := husable.object
    have hplace : (Value.object pointer).isPlain Value.textDepth = true := by
      rw [← husable.place]
      exact Value.isPlain_field (fun _ hm => Value.isPlain_of_member h hm) "pointer"
    rw [heq, Fault.isOk_map, read_isOk_iff h hplace]
    constructor
    . intro hlegible payload' pointer' husable'
      cases husable'.object
      exact hlegible
    . intro hall
      exact hall payload pointer husable
  . rw [heq]
    exact iff_of_true rfl fun payload pointer husable => absurd husable (hnone payload pointer)

theorem ofPayload_isOk_iff_of_read {s : String} {v : Value ρ} (h : Json.read s = .ok (some v))
    : (ofPayload v).isOk = true ↔ Loadable v :=
  ofPayload_isOk_iff (Value.isPlain_mono (by decide) (Json.read_isPlain h))

variable (ρ) in
/-- The snapshot that a text writes, none where it writes none. -/
def ofText (t : String) : Except Fault (Option (Snapshot ρ)) := do
  match ← Json.read (Text.ofPlain t) with
  | none => return none
  | some payload => ofPayload payload

theorem ofText_isOk_iff (t : String)
    : (ofText ρ t).isOk = true ↔
      (Json.read (Text.ofPlain t) : Except Fault (Option (Value ρ))).isOk = true
      ∧ ∀ v : Value ρ, Json.read (Text.ofPlain t) = .ok (some v) → Loadable v := by
  apply Fault.isOk_bind_iff
  intro found hread
  rw [hread]
  cases found with
  | none => exact iff_of_true rfl fun v hv => by cases hv
  | some payload =>
    simp only [Except.ok.injEq, Option.some.injEq, forall_eq']
    exact ofPayload_isOk_iff_of_read hread

end Snapshot

namespace Store

/-- A place that holds a text: a file that can be looked up and has its bytes, or a slot. -/
inductive Holds (disk : Disk) (t : String) : Store → Prop
  | file {p : Path} (hcheck : SaveFile.check disk.files p = .ok ())
      (hread : disk.files.read? p = some t.toUTF8) : Holds disk t (.file p)
  | slot {name : String} {rows : Table SlotRow} {row : SlotRow}
      (hname : Slots.storable name = .ok ()) (hrows : disk.slots.rows = some rows)
      (hrow : Table.get? rows name = some row) (htext : row.text = Text.ofPlain t) :
      Holds disk t (.slot name)

theorem isThere_of_read? {files : Files} {p : Path} (hcheck : SaveFile.check files p = .ok ())
    {bytes : ByteArray} (hread : files.read? p = some bytes)
    : SaveFile.isThere files p = .ok true := by
  have hhas : files.has p = true := by
    unfold Files.has
    rw [hread]
    exact Bool.or_true _
  obtain ⟨_, hrefuse, hlength⟩ := Fault.bind_eq_ok.mp hcheck
  unfold SaveFile.isThere
  rw [hrefuse, hlength, hhas]
  rfl

variable [Scalar ρ] {store : Store} {disk : Disk} {t : String}

theorem decode?_toUTF8 (t : String)
    : (Files.decode? t.toUTF8 : Except Fault (Option (Value ρ))) = Json.read (Text.ofPlain t) := by
  have ht : String.fromUTF8? t.toUTF8 = some t := by
    unfold String.fromUTF8?
    exact dif_pos t.isValidUTF8
  unfold Files.decode?
  rw [ht]

theorem load_of_holds (h : store.Holds disk t) : store.load disk = Snapshot.ofText ρ t := by
  cases h with
  | file hcheck hread =>
    change SaveFile.load _ _ = _
    unfold SaveFile.load Snapshot.ofText
    rw [isThere_of_read? hcheck hread, hread, ← decode?_toUTF8]
    rfl
  | slot hname hrows hrow htext =>
    change Slots.load _ _ = _
    unfold Slots.load Snapshot.ofText
    rw [hrows, ← htext]
    dsimp only
    rw [hname, hrow]
    rfl

/-- Whether a payload has a number other than zero for its history, beside a pointer that names a
location. -/
def hasNumberHistory (v : Value Rat) : Bool :=
  match Record.field v.recordD "pointer", Record.field v.recordD "history" with
  | .object pointer, .num n => (Record.field pointer "locationId").isGiven && !n.isZero
  | _, _ => false

theorem not_loadable_of_hasNumberHistory {v : Value Rat} (h : hasNumberHistory v = true)
    : ¬ Snapshot.Loadable v := by
  intro hloadable
  cases v with
  | object payload =>
    unfold hasNumberHistory at h
    rw [Value.recordD_object] at h
    split at h
    next pointer n hpointer hhistory =>
      rw [Bool.and_eq_true, Bool.not_eq_true'] at h
      have hzero := (hloadable payload pointer ⟨rfl, hpointer, h.1⟩).history n hhistory
      rw [h.2] at hzero
      cases hzero
    next => cases h
  | _ => cases h

variable (ρ) in
/-- A file and a slot that hold one text give one answer. It is a snapshot or none unless too many
brackets are open in the text or a part of its payload cannot be read. -/
theorem load_isOk_iff (h : store.Holds disk t)
    : store.load disk = Snapshot.ofText ρ t
      ∧ ((store.load disk : Except Fault (Option (Snapshot ρ))).isOk = true ↔
        (Json.read (Text.ofPlain t) : Except Fault (Option (Value ρ))).isOk = true
        ∧ ∀ v : Value ρ, Json.read (Text.ofPlain t) = .ok (some v) → Snapshot.Loadable v)
      ∧ ∀ (s : String) (v : Value ρ), Json.read s = .ok (some v) →
        ((Snapshot.ofPayload v).isOk = true ↔ Snapshot.Loadable v) := by
  have hload := load_of_holds (ρ := ρ) h
  refine ⟨hload, ?_, fun s v => Snapshot.ofPayload_isOk_iff_of_read⟩
  rw [hload]
  exact Snapshot.ofText_isOk_iff t

theorem load_isOk_iff_five
    : let t := "\x7b\"pointer\":\x7b\"locationId\":\"inn\"\x7d,\"history\":5\x7d"
      let disk : Disk := {
        files := ⟨[(["save"], .file t.toUTF8)]⟩
        slots := ⟨some [("slot1", ⟨Text.ofPlain t, 1⟩)]⟩ }
      ∀ store ∈ [Store.file ["save"], Store.slot "slot1"], store.Holds disk t
        ∧ (store.load disk : Except Fault (Option (Snapshot Rat))).isOk = false := by
  intro t disk
  have hspoilt : ((Json.read (Text.ofPlain t) : Except Fault (Option (Value Rat))).toOption.any
      fun found => found.any hasNumberHistory) = true := by decide +kernel
  obtain ⟨found, hread, hfound⟩ := Fault.any_eq_true.mp hspoilt
  obtain ⟨v, rfl, hv⟩ := (Option.any_eq_true _ _).mp hfound
  have hcheck : SaveFile.check disk.files ["save"] = .ok () := by rfl
  have hname : Slots.storable "slot1" = .ok () := by rfl
  intro store hstore
  have hholds : store.Holds disk t := by
    simp only [List.mem_cons, List.not_mem_nil, or_false] at hstore
    obtain rfl | rfl := hstore
    . exact .file hcheck rfl
    . exact .slot hname rfl rfl rfl
  obtain ⟨_, hok, _⟩ := load_isOk_iff Rat hholds
  refine ⟨hholds, Bool.eq_false_iff.mpr fun h => ?_⟩
  exact not_loadable_of_hasNumberHistory hv ((hok.mp h).2 v hread)

end Store

end Storyworld
