import Mathlib.Data.Set.List
import Storyworld.Proofs.Pace

/-!
This module contains the snapshots that are read from payloads. Whoever wrote a payload, the snapshot
that is read from it is tidy, and what is tidy comes back from its own payload as it is.
-/

namespace Storyworld

namespace Snapshot

/-- A location with a name, and one of its scenes with a name or none. -/
structure Station where
  location : String
  scene : Option String
  location_ne : location ≠ ""
  scene_ne : ∀ s ∈ scene, s ≠ ""

variable {ρ : Type} [Scalar ρ]

def Station.pointer (q : Station) : Pointer ρ := ⟨.text q.location, Value.ofText? q.scene⟩

omit [Scalar ρ] in
theorem Station.named (q : Station) : (q.pointer : Pointer ρ).Named := by
  obtain ⟨location, scene, hlocation, hscene⟩ := q
  refine ⟨⟨location, rfl, hlocation⟩, ?_⟩
  cases scene with
  | none => exact .inl rfl
  | some s => exact .inr ⟨s, rfl, hscene s rfl⟩

/-- The parts of a snapshot, each of the kind that it is meant to be: places with names, finite numbers,
tokens that are not blank, and counts that are whole numbers with a scalar. -/
structure Tidy (ρ : Type) [Scalar ρ] where
  here : Station
  history : List Station
  time : Option ρ
  traits : Table ρ
  tokens : List String
  counts : Table Int
  world : Record ρ
  time_finite : ∀ x ∈ time, Scalar.isFinite x = true
  traits_finite : ∀ e ∈ traits, Scalar.isFinite e.2 = true
  tokens_ne : ∀ token ∈ tokens, Text.strip token ≠ ""
  counts_fit : ∀ e ∈ counts, (Scalar.ofInt? e.2 : Option ρ).isSome = true

namespace Tidy

def timeValue (t : Tidy ρ) : Value ρ := (t.time.map .real).getD .null

def snapshot (t : Tidy ρ) (version : Int) : Snapshot ρ where
  location := .text t.here.location
  scene := Value.ofText? t.here.scene
  history := .list ((t.history.map Station.pointer).map Session.row)
  time := t.timeValue
  traits := .object (Table.mapEntries .real t.traits)
  events := .list (t.tokens.map .text)
  inventory := .object (Table.mapEntries .int t.counts)
  world := .object t.world
  version := .int version

/-! ### A tidy snapshot through its payload -/

/-- The members of its payload; the time has one where it is told. -/
def record (t : Tidy ρ) : Record ρ :=
  [("version", .int formatVersion), ("pointer", place (.text t.here.location) (Value.ofText? t.here.scene)),
    ("history", .list ((t.history.map Station.pointer).map fun q => place q.location q.scene)),
    ("traits", .object (Table.mapEntries .real t.traits)), ("domainEvents", .list (t.tokens.map .text)),
    ("inventory", .object (Table.mapEntries .int t.counts)), ("world", .object t.world)]
    ++ if t.timeValue.isNull then [] else [("time", t.timeValue)]

theorem toPayload_snapshot (t : Tidy ρ) (version : Int)
    : (t.snapshot version).toPayload = .ok (.object t.record) := by
  have hparts : (t.snapshot version).parts = .ok {
      pointer := place (.text t.here.location) (Value.ofText? t.here.scene)
      history := (t.history.map Station.pointer).map fun q => place q.location q.scene
      traits := (Table.mapEntries .real t.traits).map fun e => (.text e.1, e.2)
      events := t.tokens.map .text
      inventory := (Table.mapEntries .int t.counts).map fun e => (.text e.1, e.2)
      world := t.world.map fun e => (.text e.1, e.2)
      time := t.timeValue } := by
    unfold Snapshot.parts snapshot
    simp only [Value.items, Value.toMapping, bind, Except.bind, mapM_rowPlace]
    rfl
  unfold Snapshot.toPayload
  rw [hparts]
  simp only [bind, Except.bind]
  unfold Parts.payload record
  simp only [Value.membersOf_text, bind, Except.bind]
  split
  . rfl
  . rfl

theorem field_time (t : Tidy ρ) : Record.field t.record "time" = t.timeValue := by
  unfold record timeValue
  cases t.time with
  | none => rfl
  | some x => rfl

theorem timeOf_timeValue (t : Tidy ρ) : timeOf t.timeValue = .ok t.timeValue := by
  have hfinite := t.time_finite
  unfold timeValue
  cases htime : t.time with
  | none => rfl
  | some x =>
    rw [htime] at hfinite
    have hread : finite? (.real x) = .ok (some x) := by
      change Except.ok ((some x).filter Scalar.isFinite) = _
      rw [Option.filter_some, if_pos (hfinite x rfl)]
    unfold timeOf
    rw [Option.map_some, Option.getD_some, hread]
    rfl

theorem traitsOf_traits (t : Tidy ρ)
    : traitsOf (Table.mapEntries .real t.traits) = .ok (Table.mapEntries .real t.traits) := by
  apply numbers_mapEntries .real fun x => x
  . intro name x hx
    change Except.ok ((some x).filter Scalar.isFinite) = _
    rw [Option.filter_some, if_pos (t.traits_finite (name, x) hx)]
  . intro _ _ _
    rfl

theorem truncate_int (i : Int) : (Number.int i : Number ρ).truncate = .ok i := by
  unfold Number.truncate Rat.truncate
  simp [Number.extent]

theorem finite?_int (hwhole : Scalar.KeepsWholes ρ) {i : Int} {x : ρ} (h : Scalar.ofInt? i = some x)
    : finite? (.int i) = .ok (some x) := by
  have hread : (Number.int i).toReal = .ok x := by
    change Number.toReal.ofInt i = .ok x
    unfold Number.toReal.ofInt
    rw [h]
    rfl
  unfold finite?
  dsimp only
  rw [hread]
  change Except.ok ((some x).filter Scalar.isFinite) = _
  rw [Option.filter_some, if_pos (hwhole.finite i x h)]

theorem countsOf_counts (hwhole : Scalar.KeepsWholes ρ) (t : Tidy ρ)
    : countsOf (Table.mapEntries .int t.counts : Record ρ) = .ok (Table.mapEntries .int t.counts) := by
  apply numbers_mapEntries .int fun i => (Scalar.ofInt? i : Option ρ).getD Scalar.zero
  . intro name i hi
    obtain ⟨x, hx⟩ := Option.isSome_iff_exists.mp (t.counts_fit (name, i) hi)
    rw [finite?_int hwhole hx, hx]
    rfl
  . intro _ i _
    rw [truncate_int]
    rfl

theorem versionOf_formatVersion (hunits : Scalar.KeepsUnits ρ)
    : versionOf (.int formatVersion : Value ρ) = .ok formatVersion := by
  obtain ⟨x, hx, hextent⟩ := hunits.whole_one
  unfold versionOf
  rw [formatVersion, finite?_int hunits.toKeepsWholes hx]
  simp only [bind, Except.bind, Number.isZero, Number.same, Number.extent, hextent, Extent.same]
  unfold Number.truncate
  simp [Number.extent, hextent, Rat.truncate]

theorem ofPayload_record (hunits : Scalar.KeepsUnits ρ) (t : Tidy ρ)
    : ofPayload (.object t.record) = .ok (some (t.snapshot formatVersion)) := by
  have hgiven : (Value.text t.here.location : Value ρ).isGiven = true :=
    Value.isGiven_text.mpr t.here.location_ne
  have hscene : (Value.ofText? t.here.scene : Value ρ).given? = .ok (Value.ofText? t.here.scene) :=
    given?_scene (p := t.here.pointer) t.here.named
  have hnamed (q : Pointer ρ) (hq : q ∈ t.history.map Station.pointer) : q.Named := by
    obtain ⟨station, _, rfl⟩ := List.mem_map.mp hq
    exact station.named
  have hplaces := historyOf_places hnamed
  have htime : timeOf (Record.field t.record "time") = .ok t.timeValue := by
    rw [t.field_time]
    exact t.timeOf_timeValue
  have hread : read t.record [("locationId", .text t.here.location),
      ("sceneId", Value.ofText? t.here.scene)] = .ok (t.snapshot formatVersion) := by
    unfold read
    dsimp only
    rw [htime]
    unfold place at hplaces
    simp only [record, place, List.cons_append, Record.field, Table.get?, String.reduceEq, if_false,
      if_true, Option.getD_some, Value.text?_text, bind, Except.bind, hplaces, hscene,
      Value.recordD_object, t.traitsOf_traits, eventsOf_tokens t.tokens_ne,
      t.countsOf_counts hunits.toKeepsWholes, versionOf_formatVersion hunits]
    rfl
  unfold ofPayload
  dsimp only
  have hpointer : Record.field t.record "pointer"
      = .object [("locationId", .text t.here.location), ("sceneId", Value.ofText? t.here.scene)] := rfl
  rw [hpointer]
  dsimp only
  rw [hread]
  exact if_pos hgiven

end Tidy

/-! ### What is read is tidy -/

theorem exists_map_eq {α β : Type} {f : α → β} {Q : α → Prop} {bs : List β}
    (h : ∀ b ∈ bs, ∃ a, Q a ∧ f a = b) : ∃ as : List α, as.map f = bs ∧ ∀ a ∈ as, Q a := by
  have hmem : bs ∈ Set.range (List.map fun a : Subtype Q => f a.1) := by
    rw [Set.range_list_map]
    intro b hb
    obtain ⟨a, ha, rfl⟩ := h b hb
    exact ⟨⟨a, ha⟩, rfl⟩
  obtain ⟨as, rfl⟩ := hmem
  refine ⟨as.map Subtype.val, by simp, fun a ha => ?_⟩
  obtain ⟨⟨a, hQ⟩, _, rfl⟩ := List.mem_map.mp ha
  exact hQ

omit [Scalar ρ] in
theorem exists_mapEntries_eq {α : Type} {f : α → Value ρ} {Q : α → Prop} {r : Record ρ}
    (h : ∀ m ∈ r, ∃ a, Q a ∧ f a = m.2)
    : ∃ t : Table α, Table.mapEntries f t = r ∧ ∀ e ∈ t, Q e.2 :=
  exists_map_eq fun m hm => by
    obtain ⟨a, ha, hfa⟩ := h m hm
    exact ⟨(m.1, a), ha, by rw [hfa]⟩

theorem exists_station (hspell : ∀ x : ρ, Scalar.spell x ≠ "") {location scene given : Value ρ}
    (hgiven : location.isGiven = true) {l : String} (hl : location.text? = .ok l)
    (hscene : scene.given? = .ok given)
    : ∃ q : Station, q.pointer = (⟨.text l, given⟩ : Pointer ρ) := by
  have hne {v : Value ρ} {s : String} (hv : v.isGiven = true) (hs : v.text? = .ok s) : s ≠ "" :=
    Value.display_of_text? hs ▸ Value.display_ne_empty hspell hv
  unfold Value.given? at hscene
  split at hscene
  next hv =>
    obtain ⟨s, hs, rfl⟩ := Fault.map_eq_ok.mp hscene
    exact ⟨⟨l, some s, hne hgiven hl, by simpa using hne hv hs⟩, rfl⟩
  next =>
    cases hscene
    exact ⟨⟨l, none, hne hgiven hl, by simp⟩, rfl⟩

theorem station_of_rowOf? (hspell : ∀ x : ρ, Scalar.spell x ≠ "") {v row : Value ρ}
    (h : rowOf? v = .ok (some row)) : ∃ q : Station, Session.row q.pointer = row := by
  unfold rowOf? at h
  split at h
  next r =>
    dsimp only at h
    split at h
    next hgiven =>
      obtain ⟨l, hl, hrow⟩ := Fault.bind_eq_ok.mp h
      obtain ⟨scene, hscene, heq⟩ := Fault.bind_eq_ok.mp hrow
      cases heq
      obtain ⟨q, hq⟩ := exists_station hspell hgiven hl hscene
      exact ⟨q, by rw [hq]; rfl⟩
    next => cases h
  next => cases h

theorem exists_history (hspell : ∀ x : ρ, Scalar.spell x ≠ "") {v : Value ρ} {rows : List (Value ρ)}
    (h : historyOf v = .ok rows)
    : ∃ history : List Station, (history.map Station.pointer).map Session.row = rows := by
  obtain ⟨items, _, hitems⟩ := Fault.bind_eq_ok.mp h
  have hrows (row : Value ρ) (hrow : row ∈ rows) :
      ∃ q : Station, True ∧ Session.row q.pointer = row := by
    obtain ⟨item, _, hitem⟩ := Fault.of_mem_filterMapM hitems hrow
    obtain ⟨q, hq⟩ := station_of_rowOf? hspell hitem
    exact ⟨q, trivial, hq⟩
  obtain ⟨history, hhistory, _⟩ := exists_map_eq hrows
  exact ⟨history, by rw [List.map_map]; exact hhistory⟩

theorem exists_tokens {v : Value ρ} {events : List (Value ρ)} (h : eventsOf v = .ok events)
    : ∃ tokens : List String, tokens.map .text = events
      ∧ ∀ token ∈ tokens, Text.strip token ≠ "" := by
  obtain ⟨texts, _, heq⟩ := Fault.bind_eq_ok.mp h
  refine ⟨_, Except.ok.inj heq, fun token htoken => ?_⟩
  simpa using (List.mem_filter.mp htoken).2

theorem exists_time {v t : Value ρ} (h : timeOf v = .ok t)
    : ∃ time : Option ρ, (time.map .real).getD .null = t
      ∧ ∀ x ∈ time, Scalar.isFinite x = true := by
  obtain ⟨time, hread, heq⟩ := Fault.bind_eq_ok.mp h
  refine ⟨time, Except.ok.inj heq, fun x hx => ?_⟩
  cases hx
  exact (of_finite? hread).1

/-- Every snapshot that is read from a payload is tidy. -/
theorem exists_tidy (hwhole : Scalar.KeepsWholes ρ) (hspell : ∀ x : ρ, Scalar.spell x ≠ "")
    {v : Value ρ} {s : Snapshot ρ} (h : ofPayload v = .ok (some s))
    : ∃ (t : Tidy ρ) (version : Int), s = t.snapshot version := by
  obtain ⟨payload, pointer, husable, hreads⟩ := reads_of_ofPayload h
  obtain ⟨l, hl, hlocation⟩ := hreads.location
  obtain ⟨here, hhere⟩ := exists_station hspell husable.given hl hreads.scene
  obtain ⟨rows, hrows, hhistory⟩ := hreads.history
  obtain ⟨history, rfl⟩ := exists_history hspell hrows
  obtain ⟨time, htime, hfinite⟩ := exists_time hreads.time
  obtain ⟨events, hevents, heq⟩ := hreads.events
  obtain ⟨tokens, rfl, hne⟩ := exists_tokens hevents
  obtain ⟨numbers, hnumbers, htraits⟩ := hreads.traits
  obtain ⟨traits, rfl, hreal⟩ := exists_mapEntries_eq
    (of_numbers (fun v => ∃ x : ρ, Scalar.isFinite x = true ∧ .real x = v) (by
      intro n x v hx hv
      cases hv
      exact ⟨x, (of_finite? hx).1, rfl⟩) hnumbers)
  obtain ⟨wholes, hwholes, hinventory⟩ := hreads.inventory
  obtain ⟨counts, rfl, hfit⟩ := exists_mapEntries_eq
    (of_numbers (fun v => ∃ i, (Scalar.ofInt? i : Option ρ).isSome = true ∧ .int i = v) (by
      intro n x v hx hv
      obtain ⟨i, hi, rfl⟩ := Fault.map_eq_ok.mp hv
      exact ⟨i, ofInt?_isSome_of_truncate hwhole hx hi, rfl⟩) hwholes)
  obtain ⟨version, _, hversion⟩ := hreads.version
  refine ⟨{
    here, history, time, traits, tokens, counts
    world := (Record.field payload "world").recordD
    time_finite := hfinite
    traits_finite := hreal
    tokens_ne := hne
    counts_fit := hfit }, version, ?_⟩
  have hplace : (.text here.location : Value ρ) = .text l := congrArg Pointer.location hhere
  have hscene : (Value.ofText? here.scene : Value ρ) = s.scene := congrArg Pointer.scene hhere
  rw [← hplace] at hlocation
  have hworld := hreads.world
  cases s
  dsimp only at *
  subst hlocation hscene hhistory htime htraits heq hinventory hworld hversion
  rfl

/-- What is read from a payload is tidy, and it is read again from the payload that it is written as;
only the version is the one that is written now. -/
theorem ofPayload_tidy (hunits : Scalar.KeepsUnits ρ) (hspell : ∀ x : ρ, Scalar.spell x ≠ "")
    {v : Value ρ} {s : Snapshot ρ} (h : ofPayload v = .ok (some s))
    : (∃ payload, s.toPayload = .ok payload
        ∧ ofPayload payload = .ok (some { s with version := .int formatVersion }))
      ∧ ∃ (t : Tidy ρ) (version : Int), s = t.snapshot version := by
  obtain ⟨t, version, rfl⟩ := exists_tidy hunits.toKeepsWholes hspell h
  exact ⟨⟨_, t.toPayload_snapshot version, t.ofPayload_record hunits⟩, t, version, rfl⟩

theorem ofPayload_tidy_mixed
    : let v : Value Rat := .object [("version", .int 3),
        ("pointer", .object [("locationId", .int 5), ("sceneId", .text "")]),
        ("history", .list [.object [("locationId", .text "inn")], .int 3]), ("time", .text "late"),
        ("traits", .object [("wit", .int 2), ("luck", .flag true)]),
        ("domainEvents", .list [.text " ", .int 7]), ("inventory", .object [("rope", .real 2.5)])]
      ∃ s, ofPayload v = .ok (some s)
        ∧ (∃ payload, s.toPayload = .ok payload
          ∧ ofPayload payload = .ok (some { s with version := .int formatVersion }))
        ∧ ∃ (t : Tidy Rat) (version : Int), s = t.snapshot version := by
  intro v
  have hsome : (ofPayload v).toOption.any Option.isSome = true := by decide +kernel
  obtain ⟨found, hread, hfound⟩ := Fault.any_eq_true.mp hsome
  obtain ⟨s, rfl⟩ := Option.isSome_iff_exists.mp hfound
  exact ⟨s, hread, ofPayload_tidy Rat.keepsUnits Value.spell_ne_empty hread⟩

end Snapshot

end Storyworld
