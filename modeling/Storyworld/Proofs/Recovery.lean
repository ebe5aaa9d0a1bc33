import Storyworld.Proofs.Loading
import Storyworld.Proofs.Restore

/-!
This module contains restores that stop. The parts of a session are taken over one behind the other
and nothing is put back, so where a later part cannot be taken over the earlier ones stay as the
snapshot has them.
-/

namespace Storyworld

/-- Scalars have room for the whole parts of their own, and none for a whole number is infinite. -/
structure Scalar.KeepsWholes (ρ : Type) [Scalar ρ] : Prop where
  finite : ∀ i (x : ρ), ofInt? i = some x → isFinite x = true
  whole : ∀ (x : ρ) q, extent x = .finite q → (ofInt? (Rat.truncate q) : Option ρ).isSome = true

theorem Rat.keepsWholes : Scalar.KeepsWholes Rat where
  finite _ _ _ := rfl
  whole _ _ _ := rfl

variable {ρ : Type} [Scalar ρ]

namespace Ledger

/-- There are scalars for the quantities that are loaded. -/
def Loadable (payload : Value ρ) : Prop :=
  ∀ layer ∈ ["defaults", "added", "removed"],
    ∀ place ∈ (Record.field payload.recordD layer).recordD,
      ∀ item ∈ place.2.recordD, item.2.fitsScalar = true

theorem quantity_isOk_iff {v : Value ρ} {default : Int}
    : (quantity v default).isOk = true ↔ v.fitsScalar = true := by
  rw [← Value.real?_isOk_iff]
  apply Fault.isOk_bind
  intro found _
  split
  next => rfl
  next => split <;> rfl

theorem passes_loadItems (location : String) (items : Record ρ)
    : Act.Passes (loadItems location items) (∀ item ∈ items, item.2.fitsScalar = true) := by
  induction items with
  | nil => exact fun _ => by simp [loadItems]
  | cons item items ih =>
    unfold loadItems
    rw [List.forall_mem_cons]
    refine Act.passes_bind (Act.passes_lift quantity_isOk_iff) fun n => ?_
    exact Act.passes_then (Act.passes_modify _) fun _ => ih

theorem passes_loadLayer (layer : Record ρ)
    : Act.Passes (loadLayer layer)
      (∀ place ∈ layer, ∀ item ∈ place.2.recordD, item.2.fitsScalar = true) := by
  induction layer with
  | nil => exact fun _ => by simp [loadLayer]
  | cons place layer ih =>
    unfold loadLayer
    rw [List.forall_mem_cons]
    exact Act.passes_bind (passes_loadItems place.1 place.2.recordD) fun _ => ih

theorem passes_load (payload : Value ρ) : Act.Passes (load payload) (Loadable payload) := by
  have hlayer {part : Ledger ρ → Layer ρ} {put : Layer ρ → Ledger ρ → Ledger ρ} (name : String) :
      Act.Passes (Act.within part put (loadLayer (Record.field payload.recordD name).recordD)) _ :=
    Act.passes_within (passes_loadLayer _)
  unfold load
  refine Act.passes_then (Act.passes_set _) fun _ => ?_
  apply (Act.passes_bind (hlayer "defaults") fun _ => Act.passes_bind (hlayer "added") fun _ =>
    hlayer "removed").congr
  unfold Loadable
  simp

end Ledger

/-! ### Loads that cannot stop -/

namespace TraitBook

theorem passes_change (name : String) {f : Number ρ → Except Fault (Number ρ)}
    (hf : ∀ n, (f n).isOk = true) : Act.Passes (change name f) True := by
  intro book
  refine iff_true_intro ?_
  unfold change
  rw [Act.run_bind, Act.run_get]
  dsimp only
  cases book.find? name with
  | none => rfl
  | some t =>
    have hvalue := Fault.eq_ok_getD (hf t.value) t.value
    dsimp only
    rw [Act.run_bind, Act.run_lift, hvalue]
    rfl

theorem passes_entries (ms : Record ρ)
    : Act.Passes (load.entries ms) (∀ m ∈ ms, m.2.fitsScalar = true) := by
  induction ms with
  | nil => exact fun _ => by simp [load.entries]
  | cons m ms ih =>
    unfold load.entries
    rw [List.forall_mem_cons]
    refine Act.passes_bind (Act.passes_lift Value.real?_isOk_iff) fun found => ?_
    cases found with
    | none => exact ih
    | some x =>
      have hupdate : Act.Passes (update m.1 (.real x)) True := passes_change m.1 fun _ => rfl
      exact Act.passes_then hupdate fun _ => ih

end TraitBook

theorem EventLog.passes_load (tokens : Value ρ)
    : Act.Passes (load tokens) (∀ token ∈ tokens.listD, token.key?.isOk = true) := by
  have hadd (token : Value ρ) : Act.Passes (add token) (token.key?.isOk = true) := by
    unfold add
    apply (Act.passes_bind (Act.passes_lift Iff.rfl) fun key => Act.passes_modify _).congr
    simp
  unfold load
  exact Act.passes_then (Act.passes_set _) fun _ => Act.passes_forM hadd _

namespace Inventory

theorem passes_entries (ms : Record ρ)
    : Act.Passes (load.entries ms) (∀ m ∈ ms, (m.2.count 0).isOk = true) := by
  induction ms with
  | nil => exact fun _ => by simp [load.entries]
  | cons m ms ih =>
    unfold load.entries
    rw [List.forall_mem_cons]
    refine Act.passes_bind (Act.passes_lift Iff.rfl) fun amount => ?_
    dsimp only
    split
    . exact Act.passes_then (Act.passes_modify _) fun _ => ih
    . exact ih

theorem passes_load (counts : Value ρ)
    : Act.Passes (load counts) (∀ m ∈ counts.recordD, (m.2.count 0).isOk = true) := by
  unfold load
  exact Act.passes_then (Act.passes_modify _) fun _ => passes_entries _

end Inventory

namespace Snapshot

/-- What is known of the parts of a snapshot that was read from a payload: of its numbers only those
are left that can be loaded. -/
structure Sifted (s : Snapshot ρ) : Prop where
  traits : ∃ ms, s.traits = .object ms ∧ ∀ m ∈ ms, m.2.fitsScalar = true
  events : ∀ token ∈ s.events.listD, token.key?.isOk = true
  inventory : ∀ m ∈ s.inventory.recordD, (m.2.count 0).isOk = true

theorem of_numbers (Q : Value ρ → Prop) {f : Number ρ → ρ → Except Fault (Value ρ)}
    (hf : ∀ n x v, finite? (.num n) = .ok (some x) → f n x = .ok v → Q v) {ms r : Record ρ}
    (h : numbers f ms = .ok r) : ∀ m ∈ r, Q m.2 := by
  induction ms generalizing r with
  | nil =>
    cases h
    simp
  | cons m ms ih =>
    obtain ⟨name, v⟩ := m
    unfold numbers at h
    obtain ⟨found, hfound, hnumber⟩ := Fault.bind_eq_ok.mp h
    split at hnumber
    next n x =>
      obtain ⟨w, hw, htail⟩ := Fault.bind_eq_ok.mp hnumber
      obtain ⟨rest, hrest, heq⟩ := Fault.bind_eq_ok.mp htail
      cases heq
      exact List.forall_mem_cons.mpr ⟨hf n x w hfound hw, ih hrest⟩
    next => exact ih hnumber

theorem ofInt?_isSome_of_truncate (hwhole : Scalar.KeepsWholes ρ) {n : Number ρ} {x : ρ}
    (h : finite? (.num n) = .ok (some x)) {i : Int} (hi : n.truncate = .ok i)
    : (Scalar.ofInt? i : Option ρ).isSome = true := by
  obtain ⟨_, heq | ⟨j, heq⟩⟩ := of_finite? h
  . cases heq
    unfold Number.truncate at hi
    split at hi
    next q hq =>
      cases hi
      exact hwhole.whole x q hq
    next => cases hi
    next => cases hi
  . cases heq
    have hj : i = j := by
      unfold Number.truncate Rat.truncate at hi
      simpa [Number.extent] using hi.symm
    have hfits : (Value.int j : Value ρ).wholeFits = true := by
      rw [← finite?_isOk_iff, h]
      rfl
    rw [hj]
    exact hfits

theorem count_isOk (hwhole : Scalar.KeepsWholes ρ) {i : Int}
    (h : (Scalar.ofInt? i : Option ρ).isSome = true) (default : Nat)
    : ((Value.int i : Value ρ).count default).isOk = true := by
  obtain ⟨y, hy⟩ := Option.isSome_iff_exists.mp h
  have hread : (Value.int i : Value ρ).toReal = .ok y := by
    change Number.toReal.ofInt i = .ok y
    unfold Number.toReal.ofInt
    rw [hy]
    rfl
  have hcount := Fault.eq_ok_getD (truncate_isOk (n := .real y) (hwhole.finite i y hy)) 0
  unfold Value.count Value.toWhole
  rw [hread]
  simp only [bind, Except.bind]
  rw [hcount]
  rfl

theorem sifted_of_ofPayload (hwhole : Scalar.KeepsWholes ρ) {v : Value ρ} {s : Snapshot ρ}
    (h : ofPayload v = .ok (some s)) : Sifted s := by
  obtain ⟨payload, pointer, _, hreads⟩ := reads_of_ofPayload h
  constructor
  case traits =>
    obtain ⟨traits, htraits, heq⟩ := hreads.traits
    refine ⟨traits, heq, of_numbers (fun v => v.fitsScalar = true) ?_ htraits⟩
    intro n x v _ hv
    cases hv
    rfl
  case events =>
    obtain ⟨events, hevents, heq⟩ := hreads.events
    obtain ⟨tokens, _, htokens⟩ := Fault.bind_eq_ok.mp hevents
    cases htokens
    rw [heq]
    intro token htoken
    obtain ⟨s, _, rfl⟩ := List.mem_map.mp htoken
    rw [Value.key?_text]
    rfl
  case inventory =>
    obtain ⟨counts, hcounts, heq⟩ := hreads.inventory
    rw [heq]
    refine of_numbers (fun v => (v.count 0).isOk = true) ?_ hcounts
    intro n x v hfound hv
    obtain ⟨i, hi, rfl⟩ := Fault.map_eq_ok.mp hv
    exact count_isOk hwhole (ofInt?_isSome_of_truncate hwhole hfound hi) 0

end Snapshot

/-! ### Taking over -/

/-- Puts the clock to the hour of a snapshot, if it tells one. -/
def Clock.resume (hour : Value ρ) : Act (Clock ρ) Unit :=
  if !hour.isNull then restore hour else return ()

theorem Clock.eq_of_resume {hour : Value ρ} {c : Clock ρ}
    (h : ((resume hour).run c).1.isOk = false) : ((resume hour).run c).2 = c := by
  unfold resume at h ⊢
  split at h
  next hgiven =>
    rw [if_pos hgiven]
    unfold restore at h ⊢
    simp only [Act.run_bind, Act.run_get, Act.run_lift] at h ⊢
    cases hhour : Hour.normalize? hour c.plan.cycle with
    | error e => rfl
    | ok found =>
      rw [hhour] at h
      cases found <;> cases h
  next => cases h

theorem Belongings.run_recomputeSpeed {σ : Type} (lookup : ItemLookup ρ σ) (b : Belongings ρ)
    (src : σ)
    : (recomputeSpeed lookup).run (b, src)
      = match (Travel.speed lookup b.inventory).run src with
        | (.ok speed, src') => (.ok (), { b with speed }, src')
        | (.error e, src') => (.error e, b, src') := by
  unfold recomputeSpeed
  simp only [Act.run_bind, Act.run_get, Act.run_onSecond]
  rcases (Travel.speed lookup b.inventory).run src with ⟨e | speed, src'⟩
  . rfl
  . rfl

namespace Session

variable {σ : Type}

/-- What a session has taken over of a snapshot: its hour, traits, events and inventory. -/
structure Resumed (snapshot : Snapshot ρ) (s t : Session ρ σ) : Prop where
  clock : (Clock.resume snapshot.time).run s.clock = (.ok (), t.clock)
  traits : (TraitBook.load snapshot.traits).run s.goods.traits = (.ok (), t.goods.traits)
  log : (EventLog.load snapshot.events).run s.log = (.ok (), t.log)
  inventory : (Inventory.load snapshot.inventory).run s.goods.inventory
    = (.ok (), t.goods.inventory)

omit [Scalar ρ] in
/-- Two sessions have the same hour, traits, events and inventory. -/
structure Alike (s t : Session ρ σ) : Prop where
  clock : t.clock = s.clock
  traits : t.goods.traits = s.goods.traits
  log : t.log = s.log
  inventory : t.goods.inventory = s.goods.inventory

omit [Scalar ρ] in
theorem Alike.trans {s t u : Session ρ σ} (h : Alike s t) (h' : Alike t u) : Alike s u where
  clock := h'.clock.trans h.clock
  traits := h'.traits.trans h.traits
  log := h'.log.trans h.log
  inventory := h'.inventory.trans h.inventory

theorem Resumed.alike {snapshot : Snapshot ρ} {s t u : Session ρ σ} (h : Resumed snapshot s t)
    (halike : Alike t u) : Resumed snapshot s u := by
  constructor
  case clock =>
    rw [halike.clock]
    exact h.clock
  case traits =>
    rw [halike.traits]
    exact h.traits
  case log =>
    rw [halike.log]
    exact h.log
  case inventory =>
    rw [halike.inventory]
    exact h.inventory

variable {content : Content ρ σ} {snapshot : Snapshot ρ}

/-- What a restore does next: it computes the pace and loads the account of the items. -/
def reckon (content : Content ρ σ) (snapshot : Snapshot ρ) : Act (Session ρ σ) Unit := do
  onGoods (Belongings.recomputeSpeed content.lookup)
  onGoods (Belongings.onLedger (Ledger.load snapshot.world))
  modify fun s => { s with dayEnded := false }

theorem reload_eq : reload content snapshot = (do
    onClock (Clock.resume snapshot.time)
    onGoods (Belongings.onTraits (TraitBook.load snapshot.traits))
    Act.within log (fun log s => { s with log }) (EventLog.load snapshot.events)
    onGoods (Belongings.onInventory (Inventory.load snapshot.inventory))
    reckon content snapshot) := by
  unfold reload Clock.resume
  split
  . rfl
  . rfl

theorem run_reload_of_stopped {s : Session ρ σ} {e : Fault} {c : Clock ρ}
    (h : (Clock.resume snapshot.time).run s.clock = (.error e, c))
    : (reload content snapshot).run s = (.error e, s) := by
  have hsame := congrArg Prod.snd h
  rw [Clock.eq_of_resume (by rw [h]; rfl)] at hsame
  rw [reload_eq, Act.run_bind, run_onClock, h, ← hsame]

theorem run_reload {s : Session ρ σ} {c : Clock ρ} {b : TraitBook ρ} {l : EventLog} {i : Inventory}
    (hclock : (Clock.resume snapshot.time).run s.clock = (.ok (), c))
    (htraits : (TraitBook.load snapshot.traits).run s.goods.traits = (.ok (), b))
    (hlog : (EventLog.load snapshot.events).run s.log = (.ok (), l))
    (hinventory : (Inventory.load snapshot.inventory).run s.goods.inventory = (.ok (), i))
    : (reload content snapshot).run s
      = (reckon content snapshot).run
        { s with clock := c, log := l, goods := { s.goods with traits := b, inventory := i } } := by
  rw [reload_eq]
  simp only [Act.run_bind, run_onClock, hclock, run_onTraits, htraits, Act.run_within, hlog,
    run_onInventory, hinventory]

variable (content) in
theorem reload_resumes {s : Session ρ σ} (hsifted : snapshot.Sifted)
    (hresume : ((Clock.resume snapshot.time).run s.clock).1.isOk = true)
    : ∃ loaded : Session ρ σ, Resumed snapshot s loaded ∧ loaded.navigation = s.navigation
      ∧ loaded.sources = s.sources ∧ loaded.goods.ledger = s.goods.ledger
      ∧ loaded.goods.speed = s.goods.speed
      ∧ (reload content snapshot).run s = (reckon content snapshot).run loaded := by
  have hends {τ : Type} {act : Act τ Unit} {x : τ} (h : (act.run x).1.isOk = true) :
      act.run x = (.ok (), (act.run x).2) := Prod.ext (Fault.eq_ok_getD h ()) rfl
  obtain ⟨⟨ms, hms, hfits⟩, hevents, hinventory⟩ := hsifted
  have htraits : ((TraitBook.load snapshot.traits).run s.goods.traits).1.isOk = true := by
    rw [hms]
    unfold TraitBook.load
    split
    . exact (TraitBook.passes_entries ms _).mpr hfits
    . rfl
  have hlog := (EventLog.passes_load snapshot.events s.log).mpr hevents
  have hcounts := (Inventory.passes_load snapshot.inventory s.goods.inventory).mpr hinventory
  refine ⟨_, ?_, ?_, ?_, ?_, ?_,
    run_reload (hends hresume) (hends htraits) (hends hlog) (hends hcounts)⟩
  . exact ⟨hends hresume, hends htraits, hends hlog, hends hcounts⟩
  . rfl
  . rfl
  . rfl
  . rfl

theorem reckon_cases {s t : Session ρ σ} {result : Except Fault Unit}
    (h : (reckon content snapshot).run s = (result, t))
    : Alike s t ∧ t.navigation = s.navigation
      ∧ t.sources = ((Travel.speed content.lookup s.goods.inventory).run s.sources).2
      ∧ (t.goods.ledger = if ((Travel.speed content.lookup s.goods.inventory).run s.sources).1.isOk
        then ((Ledger.load snapshot.world).run s.goods.ledger).2 else s.goods.ledger)
      ∧ (result.isOk = true ↔
        ((Travel.speed content.lookup s.goods.inventory).run s.sources).1.isOk = true
        ∧ Ledger.Loadable snapshot.world) := by
  have hloadable := Ledger.passes_load snapshot.world s.goods.ledger
  unfold reckon at h
  rw [Act.run_bind, run_onGoods, Belongings.run_recomputeSpeed] at h
  rcases hspeed : (Travel.speed content.lookup s.goods.inventory).run s.sources with
    ⟨e | speed, sources⟩
  . rw [hspeed] at h
    cases h
    exact ⟨⟨rfl, rfl, rfl, rfl⟩, rfl, rfl, rfl, by simp⟩
  . rw [hspeed] at h
    dsimp only at h
    rw [Act.run_bind, run_onLedger] at h
    rcases hledger : (Ledger.load snapshot.world).run s.goods.ledger with ⟨e | _, ledger⟩
    . rw [hledger] at h hloadable
      cases h
      exact ⟨⟨rfl, rfl, rfl, rfl⟩, rfl, rfl, rfl, by simp [← hloadable]⟩
    . rw [hledger] at h hloadable
      cases h
      exact ⟨⟨rfl, rfl, rfl, rfl⟩, rfl, rfl, rfl, by simp [← hloadable]⟩

/-! ### Places -/

/-- The move that ends a restore: from the last place of the history to the one of the snapshot. -/
def move (content : Content ρ σ) (snapshot : Snapshot ρ) (clock : Clock ρ) (registry : Registry ρ)
    (sources : σ) : Except Fault (Option (Pointer ρ)) × Navigation ρ × σ :=
  (Navigation.moveTo ⟨content.location, some (Atlas.openAt clock)⟩ snapshot.location
    snapshot.scene).run (⟨(historyOf snapshot).getLast?, historyOf snapshot, registry⟩, sources)

theorem settle_cases {s t : Session ρ σ} {result : Except Fault Unit}
    (h : Act.run (do
      let _ ← navigate content fun atlas => Navigation.restore atlas
        (.pointer snapshot.location snapshot.scene)
        (.list ((historyOf snapshot).map Pointer.toValue))) s = (result, t))
    {moved} (hmove : move content snapshot s.clock s.navigation.registry s.sources = moved)
    : Alike s t ∧ t.goods.ledger = s.goods.ledger ∧ t.navigation = moved.2.1
      ∧ result.isOk = moved.1.isOk := by
  rw [Act.run_bind, run_navigate, Navigation.run_restore] at h
  unfold move at hmove
  unfold atlas at h
  rw [hmove] at h
  rcases moved with ⟨e | p, n, src⟩
  . cases h
    exact ⟨⟨rfl, rfl, rfl, rfl⟩, rfl, rfl, rfl⟩
  . cases h
    exact ⟨⟨rfl, rfl, rfl, rfl⟩, rfl, rfl, rfl⟩

theorem moveTo_stays {atlas : Atlas ρ σ} {location scene : Value ρ} {n : Navigation ρ} {src : σ}
    (h : ((Navigation.moveTo atlas location scene).run (n, src)).1.isOk = false)
    : ((Navigation.moveTo atlas location scene).run (n, src)).2.1.history = n.history
      ∧ ((Navigation.moveTo atlas location scene).run (n, src)).2.1.pointer = n.pointer := by
  have hsurveys : Navigation.Surveys atlas fun m =>
      m.1.history = n.history ∧ m.1.pointer = n.pointer := by
    constructor
    case info => exact fun _ _ hm => hm
    case ensure => exact fun _ _ _ _ hm => hm
  have hseek := hsurveys.seek location scene (n, src) ⟨rfl, rfl⟩
  unfold Navigation.moveTo at h ⊢
  split at h
  next hgiven =>
    rw [if_pos hgiven]
    rw [Act.run_bind] at h ⊢
    rcases hrun : (Navigation.seek atlas location scene).run (n, src) with ⟨e | p, m⟩
    . rw [hrun] at hseek
      exact hseek
    . rw [hrun] at h
      cases h
  next => cases h

theorem approach_blank {atlas : Atlas ρ σ} {l : String} (hblank : Text.strip l = "")
    (n : Navigation ρ × σ)
    : ((Navigation.approach atlas (.text l)).run n).1 = .error .locationRequired := by
  have hinfo : ∃ info, ((atlas.info (.text l)).run n.2).1 = .ok info := by
    unfold Atlas.info
    rw [Act.run_bind, Act.run_attempt]
    rcases (atlas.location (.text l)).run n.2 with ⟨e | v, src⟩
    . exact ⟨_, rfl⟩
    . exact ⟨_, rfl⟩
  have hensure (title background : Value ρ) (r : Registry ρ) :
      ((Registry.ensure (.text l) title background).run r).1 = .error .locationRequired := by
    unfold Registry.ensure
    rw [Act.run_bind, Act.run_lift, Value.key?_text, hblank]
    rfl
  obtain ⟨info, hinfo⟩ := hinfo
  unfold Navigation.approach
  rw [Act.run_bind, Act.run_onSecond, hinfo]
  dsimp only
  apply Act.fst_run_bind_of_error
  rw [Act.run_onFirst, Act.run_within, hensure]

/-- A name of blanks alone counts as given, and no location can be registered under it. -/
theorem moveTo_blank {atlas : Atlas ρ σ} {l : String} (hl : l ≠ "") (hblank : Text.strip l = "")
    (scene : Value ρ) (n : Navigation ρ × σ)
    : ((Navigation.moveTo atlas (.text l) scene).run n).1 = .error .locationRequired := by
  unfold Navigation.moveTo
  rw [if_pos (Value.isGiven_text.mpr hl)]
  apply Act.fst_run_bind_of_error
  unfold Navigation.seek
  rw [Act.run_bind, Act.run_lift, Value.text?_text]
  exact Act.fst_run_bind_of_error (approach_blank hblank n) _

/-- A restore that stops at the clock changes nothing. Any other one takes over the hour, the
traits, the events and the inventory, whether it ends well or stops behind them. It ends well where
the speed can be computed, the account be loaded and the place be entered. Behind the speed the
account is replaced, by as much of the snapshot as can be read; where only the place cannot be
entered, pointer and history are those of the snapshot too. No session can be restored to a blank
place. -/
theorem restore_isOk_iff (hwhole : Scalar.KeepsWholes ρ) {v : Value ρ}
    (hread : Snapshot.ofPayload v = .ok (some snapshot)) {s t : Session ρ σ}
    {result : Except Fault Unit} (hrun : (restore content snapshot).run s = (result, t))
    {speed} (hspeed : (Travel.speed content.lookup t.goods.inventory).run s.sources = speed)
    {moved} (hmove : move content snapshot t.clock s.navigation.registry speed.2 = moved)
    : (((Clock.resume snapshot.time).run s.clock).1.isOk = false → result.isOk = false ∧ t = s)
      ∧ (((Clock.resume snapshot.time).run s.clock).1.isOk = true → Resumed snapshot s t
        ∧ (t.goods.ledger = if speed.1.isOk then ((Ledger.load snapshot.world).run s.goods.ledger).2
          else s.goods.ledger)
        ∧ (result.isOk = true ↔
          speed.1.isOk = true ∧ Ledger.Loadable snapshot.world ∧ moved.1.isOk = true)
        ∧ (¬ (speed.1.isOk = true ∧ Ledger.Loadable snapshot.world) → t.navigation = s.navigation)
        ∧ (speed.1.isOk = true → Ledger.Loadable snapshot.world → moved.1.isOk = false →
          t.navigation.history = historyOf snapshot
          ∧ t.navigation.pointer = (historyOf snapshot).getLast?))
      ∧ ∀ l, snapshot.location = .text l → l ≠ "" → Text.strip l = "" →
        moved.1 = .error .locationRequired := by
  have hblank (l : String) (hlocation : snapshot.location = .text l) (hl : l ≠ "")
      (hstrip : Text.strip l = "") : moved.1 = .error .locationRequired := by
    rw [← hmove]
    unfold move
    rw [hlocation]
    exact moveTo_blank hl hstrip _ _
  unfold restore at hrun
  rw [Act.run_bind] at hrun
  rcases hresume : (Clock.resume snapshot.time).run s.clock with ⟨e | _, c⟩
  . rw [run_reload_of_stopped hresume] at hrun
    cases hrun
    exact ⟨fun _ => ⟨rfl, rfl⟩, fun h => (by cases h), hblank⟩
  . refine ⟨fun h => (by cases h), fun _ => ?_, hblank⟩
    obtain ⟨loaded, hresumed, hnavigation, hsources, hledger, _, hreload⟩ := reload_resumes content
      (Snapshot.sifted_of_ofPayload hwhole hread) (by rw [hresume]; rfl)
    rw [hreload] at hrun
    rcases hreckon : (reckon content snapshot).run loaded with ⟨e | _, reckoned⟩
    . obtain ⟨halike, hplaces, hsrc, haccount, hok⟩ := reckon_cases hreckon
      rw [hreckon] at hrun
      cases hrun
      rw [← halike.inventory, hsources, hspeed] at haccount hok
      rw [hledger] at haccount
      refine ⟨hresumed.alike halike, haccount, ?_, fun _ => hplaces.trans hnavigation, ?_⟩
      . refine iff_of_false (by simp) fun h => ?_
        exact absurd (hok.mpr ⟨h.1, h.2.1⟩) (by simp)
      . intro hpace hworld
        exact absurd (hok.mpr ⟨hpace, hworld⟩) (by simp)
    . obtain ⟨halike, hplaces, hsrc, haccount, hok⟩ := reckon_cases hreckon
      rw [hreckon] at hrun
      dsimp only at hrun
      obtain ⟨halike', hkept, hmoved, hresult⟩ := settle_cases hrun rfl
      have hboth := halike.trans halike'
      rw [← hboth.inventory, hsources, hspeed] at haccount hok hsrc
      rw [hledger, ← hkept] at haccount
      rw [← halike'.clock, hplaces, hnavigation, hsrc, hmove] at hmoved hresult
      have hreached := hok.mp rfl
      refine ⟨hresumed.alike hboth, haccount, ?_, fun h => absurd hreached h, ?_⟩
      . rw [hresult]
        simp [hreached]
      . intro _ _ hstopped
        rw [hmoved, ← hmove]
        rw [← hmove] at hstopped
        exact moveTo_stays hstopped

theorem restore_isOk_iff_blank
    : let payload : Value Rat := .object [
        ("pointer", .object [("locationId", .text " ")]), ("time", .int 15)]
      ∃ (s t : Session Rat Unit) (snapshot : Snapshot Rat) (result : Except Fault Unit),
        start inn.content () {} {} (.object [("locationId", .text "inn")]) = .ok s
        ∧ Snapshot.ofPayload payload = .ok (some snapshot)
        ∧ (restore inn.content snapshot).run s = (result, t) ∧ result.isOk = false
        ∧ s.clock.time.same (.int 9) = true ∧ t.clock.time.same (.int 15) = true
        ∧ s.navigation.history.length = 1 ∧ t.navigation.history = []
        ∧ t.navigation.pointer = none := by
  intro payload
  let begun := Session.start inn.content () {} {} (.object [("locationId", .text "inn")])
  let s : Session Rat Unit :=
    begun.toOption.getD { clock := {}, goods := { speed := 0 }, sources := () }
  have hstart : begun = .ok s := Fault.eq_ok_getD (by decide +kernel) _
  let read := Snapshot.ofPayload payload
  let snapshot : Snapshot Rat := (read.toOption.getD none).getD { location := .null }
  have hread : read = .ok (some snapshot) := by rfl
  rcases hrun : (restore inn.content snapshot).run s with ⟨result, t⟩
  obtain ⟨_, hresumes, hblank⟩ := restore_isOk_iff Rat.keepsWholes hread hrun rfl rfl
  obtain ⟨hresumed, _, hok, _, hplaces⟩ := hresumes (by decide +kernel)
  have hmoved := hblank " " rfl (by decide) (by decide)
  have hclock : t.clock = ((Clock.resume snapshot.time).run s.clock).2 :=
    (congrArg Prod.snd hresumed.clock).symm
  have hinventory : t.goods.inventory
      = ((Inventory.load snapshot.inventory).run s.goods.inventory).2 :=
    (congrArg Prod.snd hresumed.inventory).symm
  have hstopped : result.isOk = false := by
    rw [Bool.eq_false_iff]
    intro h
    have hmoves := (hok.mp h).2.2
    rw [hmoved] at hmoves
    cases hmoves
  have hspeed : ((Travel.speed inn.content.lookup t.goods.inventory).run s.sources).1.isOk
      = true := by
    rw [hinventory]
    decide +kernel
  have hworld := (Ledger.passes_load snapshot.world {}).mp (by decide +kernel)
  have hhour : t.clock.time.same (.int 15) = true := by
    rw [hclock]
    decide +kernel
  obtain ⟨hhistory, hpointer⟩ := hplaces hspeed hworld (by rw [hmoved]; rfl)
  have hnone : historyOf snapshot = [] := by rfl
  rw [hnone] at hhistory hpointer
  exact ⟨s, t, snapshot, result, hstart, hread, hrun, hstopped, by decide +kernel, hhour,
    by decide +kernel, hhistory, hpointer⟩

end Session

end Storyworld
