import Mathlib.Tactic.GCongr
import Mathlib.Tactic.Linarith
import Mathlib.Tactic.Positivity
import Storyworld.Proofs.Course
import Storyworld.Proofs.Restore
import Storyworld.Proofs.Speed

/-!
This module contains the speed of travel over a game. It is computed when the counts change and when a
snapshot has been loaded, out of entries that are built whole; an item whose entry cannot be built
keeps the old speed in place.
-/

namespace Storyworld

/-- Zero and one are among the scalars, and the whole parts of scalars are. -/
structure Scalar.KeepsUnits (ρ : Type) [Scalar ρ] : Prop extends Scalar.KeepsWholes ρ where
  zero : extent (Scalar.zero : ρ) = .finite 0
  one : extent (Travel.baseSpeed : ρ) = .finite 1
  whole_one : ∃ x : ρ, ofInt? 1 = some x ∧ extent x = .finite 1

/-- Finite scalars are divided without rounding. -/
def Scalar.DividesExactly (ρ : Type) [Scalar ρ] : Prop :=
  ∀ (x y : ρ) p q, extent x = .finite p → extent y = .finite q → q ≠ 0 →
    extent (div x y) = .finite (p / q)

theorem Rat.keepsUnits : Scalar.KeepsUnits Rat where
  toKeepsWholes := Rat.keepsWholes
  zero := by decide +kernel
  one := by decide +kernel
  whole_one := ⟨1, rfl, rfl⟩

theorem Rat.fitsScalar (v : Value Rat) : v.fitsScalar = true := by
  cases v with
  | num n => exact Value.fitsScalar_of_toReal (Number.toReal_eq_rat n)
  | _ => rfl

theorem Rat.dividesExactly : Scalar.DividesExactly Rat := by
  intro x y p q hx hy _
  obtain rfl := Extent.finite.inj hx
  obtain rfl := Extent.finite.inj hy
  rfl

variable {ρ σ : Type} [Scalar ρ]

theorem Scalar.KeepsUnits.toReal_one (h : Scalar.KeepsUnits ρ)
    : ∃ x : ρ, (Number.int 1).toReal = .ok x ∧ Scalar.extent x = .finite 1 := by
  obtain ⟨x, hx, hextent⟩ := h.whole_one
  refine ⟨x, ?_, hextent⟩
  change ((Scalar.ofInt? 1).map Except.ok).getD _ = _
  rw [hx]
  rfl

theorem Scalar.lt_iff {x y : ρ} {p q : Rat} (hx : extent x = .finite p) (hy : extent y = .finite q)
    : lt x y = true ↔ p < q := by
  simp [lt, hx, hy, Extent.lt]

theorem Scalar.le_iff {x y : ρ} {p q : Rat} (hx : extent x = .finite p) (hy : extent y = .finite q)
    : le x y = true ↔ p ≤ q := by
  simp [le, hx, hy, Extent.le, Extent.lt, Extent.same, le_iff_lt_or_eq]

/-! ### What keeps the speed -/

namespace Belongings

variable {lookup : ItemLookup ρ σ} {look : String → Value ρ}

/-- The counts are in order, and those who listen to them are there. The speed is one that was computed
once, and it is that of what is carried, where this gives one. -/
structure Paced (look : String → Value ρ) (b : Belongings ρ) : Prop where
  listeners : b.inventory.listeners = [speedListener, traitListener]
  stocked : Inventory.Stocked b.inventory.counts
  computed : ∃ counts, Travel.speedOf look counts = .ok b.speed
  paced : ∀ v, Travel.speedOf look b.inventory.counts = .ok v → b.speed = v

/-- The belongings hold an inventory, and their speed is computed from its counts; where that fails it
is still the speed from before. -/
structure Follows (look : String → Value ρ) (inv : Inventory) (speed : ρ) (b : Belongings ρ) : Prop where
  inventory : b.inventory = inv
  speed : Travel.speedOf look inv.counts = .ok b.speed
    ∨ (Travel.speedOf look inv.counts).isOk = false ∧ b.speed = speed

theorem follows_recomputeSpeed (hlook : lookup.Shows look) (b : Belongings ρ) (src : σ)
    : Follows look b.inventory b.speed ((recomputeSpeed lookup).run (b, src)).2.1 := by
  obtain ⟨src', ⟨e, hspeed, hrun⟩ | ⟨v, hspeed, hrun⟩⟩ := recomputeSpeed_cases hlook b src
  . rw [hrun]
    exact ⟨rfl, .inr ⟨by rw [hspeed]; rfl, rfl⟩⟩
  . rw [hrun]
    exact ⟨rfl, .inl hspeed⟩

theorem Follows.paced {inv : Inventory} {speed : ρ} {b : Belongings ρ} (h : Follows look inv speed b)
    (hlisteners : inv.listeners = [speedListener, traitListener])
    (hstocked : Inventory.Stocked inv.counts)
    (hcomputed : ∃ counts, Travel.speedOf look counts = .ok speed) : Paced look b := by
  obtain ⟨rfl, hspeed⟩ := h
  rcases hspeed with hspeed | ⟨hstopped, rfl⟩
  . exact ⟨hlisteners, hstocked, ⟨_, hspeed⟩, fun v hv => Except.ok.inj (hspeed.symm.trans hv)⟩
  . refine ⟨hlisteners, hstocked, hcomputed, fun v hv => ?_⟩
    rw [hv] at hstopped
    cases hstopped

theorem keeps_onTraits_paced {α : Type} (act : Act (TraitBook ρ) α)
    : Act.Keeps (fun b : Belongings ρ × σ => Paced look b.1) (onTraits act) :=
  Act.keeps_onFirst (Act.keeps_frame fun _ _ hb =>
    ⟨hb.listeners, hb.stocked, hb.computed, hb.paced⟩)

theorem keeps_onLedger_paced {α : Type} (act : Act (Ledger ρ) α)
    : Act.Keeps (fun b : Belongings ρ × σ => Paced look b.1) (onLedger act) :=
  Act.keeps_onFirst (Act.keeps_frame fun _ _ hb =>
    ⟨hb.listeners, hb.stocked, hb.computed, hb.paced⟩)

theorem keeps_trade_paced (hlook : lookup.Shows look)
    {act : Act Inventory (Nat × List (String × InventoryChange))} (hact : Inventory.Trades act)
    : Act.Keeps (fun b : Belongings ρ × σ => Paced look b.1) (do
      let (amount, notices) ← onInventory act
      tell lookup notices
      return amount) := by
  refine keeps_trade_of (fun b h => h.listeners) ?_ ?_ ?_ hact
  . intro b counts src h hstocked
    exact (follows_recomputeSpeed hlook _ src).paced h.listeners (hstocked h.stocked) h.computed
  . exact fun name amount => keeps_onTraits_paced _
  . exact fun name amount => keeps_onTraits_paced _

theorem bears_paced (hlook : lookup.Shows look)
    : Bears lookup (fun b : Belongings ρ × σ => Paced look b.1) where
  receive id qty := keeps_trade_paced hlook (Inventory.trades_add id qty)
  surrender id qty := keeps_trade_paced hlook (Inventory.trades_remove id qty)
  add _ _ _ := keeps_onLedger_paced _
  remove _ _ _ := keeps_onLedger_paced _

end Belongings

namespace Inventory

/-- An item is carried. -/
def Holds (inv : Inventory) (id : String) : Prop := 0 < inv.count id

theorem Stocked.holds_iff {inv : Inventory} (h : Stocked inv.counts) {id : String}
    : inv.Holds id ↔ id ∈ Table.names inv.counts := by
  rw [← Table.has_iff_mem_names]
  unfold Holds count Table.has
  cases hcount : Table.get? inv.counts id with
  | none => simp
  | some n => simpa using h.positive id n (Table.mem_of_get? hcount)

theorem keeps_load_entries {listeners : List String} (ms : List (String × Value ρ))
    : Act.Keeps (fun inv => inv.listeners = listeners ∧ Stocked inv.counts) (load.entries ms) := by
  induction ms with
  | nil => apply Act.keeps_pure
  | cons m ms ih =>
    unfold load.entries
    refine Act.keeps_bind (Act.keeps_lift _) fun amount => ?_
    dsimp only
    split
    next hne =>
      refine Act.keeps_bind (Act.keeps_modify fun inv h => ?_) fun _ => ih
      exact ⟨h.1, h.2.set m.1 (Nat.pos_of_ne_zero hne)⟩
    next => exact ih

/-- Whatever is loaded, the counts are in order then, and the listeners are the same. -/
theorem stocked_load (counts : Value ρ) (inv : Inventory)
    : ((load counts).run inv).2.listeners = inv.listeners
      ∧ Stocked ((load counts).run inv).2.counts := by
  unfold load
  rw [Act.run_bind, Act.run_modify]
  exact keeps_load_entries counts.recordD _ ⟨rfl, List.nodup_nil, by simp⟩

end Inventory

namespace Session

variable {content : Content ρ σ} {look : String → Value ρ}

theorem lasting_paced (hlook : ItemLookup.Shows look content.lookup)
    : Lasting content fun s => Belongings.Paced look s.goods := by
  apply Lasting.of_goods
  case htrade =>
    intro verb here payload
    exact (Belongings.bears_paced hlook).handlePayload verb _ payload
  case hadjust => exact fun name delta => Belongings.keeps_onTraits_paced _
  case hdeclare => exact fun location items => Belongings.keeps_onLedger_paced _

theorem follows_reckon (hlook : ItemLookup.Shows look content.lookup) (snapshot : Snapshot ρ)
    (s : Session ρ σ)
    : Belongings.Follows look s.goods.inventory s.goods.speed
      ((reckon content snapshot).run s).2.goods := by
  unfold reckon
  refine Act.bind_of_keeps
    (P := fun t : Session ρ σ => Belongings.Follows look s.goods.inventory s.goods.speed t.goods)
    (Belongings.follows_recomputeSpeed hlook s.goods s.sources) fun _ => ?_
  refine Act.keeps_bind ?_ fun _ => Act.keeps_modify fun _ hs => hs
  exact keeps_goods (Act.keeps_onFirst (Act.keeps_frame fun _ _ hb => ⟨hb.inventory, hb.speed⟩))

/-- A restore leaves the goods as they are where the hour of the snapshot cannot be read. Else the counts
are those of the snapshot, and the speed follows from them. -/
theorem restore_goods (hwhole : Scalar.KeepsWholes ρ) (hlook : ItemLookup.Shows look content.lookup)
    {payload : Value ρ} {snapshot : Snapshot ρ}
    (hread : Snapshot.ofPayload payload = .ok (some snapshot)) (s : Session ρ σ)
    : (((Clock.resume snapshot.time).run s.clock).1.isOk = false
        ∧ ((restore content snapshot).run s).2.goods = s.goods)
      ∨ ∃ inv, (Inventory.load snapshot.inventory).run s.goods.inventory = (.ok (), inv)
        ∧ Belongings.Follows look inv s.goods.speed ((restore content snapshot).run s).2.goods := by
  have hmove (Q : Belongings ρ → Prop) : Act.Keeps (fun s : Session ρ σ => Q s.goods) (do
      let _ ← navigate content fun atlas => Navigation.restore atlas
        (.pointer snapshot.location snapshot.scene)
        (.list ((historyOf snapshot).map Pointer.toValue))) := by
    refine Act.keeps_bind (fun s hs => ?_) fun _ => Act.keeps_pure _
    exact hs
  unfold restore
  rcases hresume : (Clock.resume snapshot.time).run s.clock with ⟨e | _, c⟩
  . refine .inl ⟨rfl, ?_⟩
    rw [Act.run_bind, run_reload_of_stopped hresume]
  . obtain ⟨loaded, hresumed, _, _, _, hspeed, hreload⟩ := reload_resumes content
      (Snapshot.sifted_of_ofPayload hwhole hread) (by rw [hresume]; rfl)
    have hfollows := follows_reckon hlook snapshot loaded
    rw [← hreload, hspeed] at hfollows
    exact .inr ⟨_, hresumed.inventory, Act.bind_of_keeps hfollows fun _ => hmove _⟩

theorem paced_restore (hwhole : Scalar.KeepsWholes ρ) (hlook : ItemLookup.Shows look content.lookup)
    {payload : Value ρ} {snapshot : Snapshot ρ}
    (hread : Snapshot.ofPayload payload = .ok (some snapshot)) {s : Session ρ σ}
    (h : Belongings.Paced look s.goods)
    : Belongings.Paced look ((restore content snapshot).run s).2.goods := by
  rcases restore_goods hwhole hlook hread s with ⟨_, hsame⟩ | ⟨inv, hload, hfollows⟩
  . rw [hsame]
    exact h
  . obtain ⟨hlisteners, hstocked⟩ := Inventory.stocked_load snapshot.inventory s.goods.inventory
    rw [hload] at hlisteners hstocked
    exact hfollows.paced (hlisteners.trans h.listeners) hstocked h.computed

/-- The sessions that turns and effects lead to, payloads that are restored, and items that come in and
go out by hand. -/
inductive Handled (content : Content ρ σ) (s : Session ρ σ) : Session ρ σ → Prop where
  | none : Handled content s s
  | course {t u : Session ρ σ} (h : Handled content s t)
    (hu : Course content (fun _ snapshot => ∃ payload, Snapshot.ofPayload payload = .ok (some snapshot))
      t u) : Handled content s u
  | receive {t : Session ρ σ} (h : Handled content s t) (id qty : Value ρ) :
    Handled content s ((onGoods (Belongings.receive content.lookup id qty)).run t).2
  | surrender {t : Session ρ σ} (h : Handled content s t) (id qty : Value ρ) :
    Handled content s ((onGoods (Belongings.surrender content.lookup id qty)).run t).2

/-- Sessions that come about in a game. -/
def Played (content : Content ρ σ) (s : Session ρ σ) : Prop :=
  ∃ sources traits clock place s₀, start content sources traits clock place = .ok s₀
    ∧ Handled content s₀ s

theorem paced_start {sources : σ} {traits : TraitBook ρ} {clock : Clock ρ} {place : Value ρ}
    {s : Session ρ σ} (h : start content sources traits clock place = .ok s)
    : Belongings.Paced look s.goods := by
  rw [(started h).goods_eq]
  refine ⟨rfl, ⟨List.nodup_nil, by simp⟩, ⟨[], rfl⟩, fun v hv => ?_⟩
  exact Except.ok.inj hv

theorem paced_handled (hwhole : Scalar.KeepsWholes ρ) (hlook : ItemLookup.Shows look content.lookup)
    {s t : Session ρ σ} (hs : Belongings.Paced look s.goods) (ht : Handled content s t)
    : Belongings.Paced look t.goods := by
  induction ht with
  | none => exact hs
  | course _ hu ih =>
    refine (lasting_paced hlook).course ?_ ih hu
    rintro t snapshot ⟨payload, hread⟩ ht
    exact paced_restore hwhole hlook hread ht
  | receive _ id qty ih =>
    exact keeps_goods ((Belongings.bears_paced hlook).receive id qty) _ ih
  | surrender _ id qty ih =>
    exact keeps_goods ((Belongings.bears_paced hlook).surrender id qty) _ ih

theorem Played.paced (hwhole : Scalar.KeepsWholes ρ) (hlook : ItemLookup.Shows look content.lookup)
    {s : Session ρ σ} (h : Played content s) : Belongings.Paced look s.goods := by
  obtain ⟨_, _, _, _, _, hstart, hs⟩ := h
  exact paced_handled hwhole hlook (paced_start hstart) hs

end Session

/-! ### The current speed -/

namespace Belongings

variable {look : String → Value ρ}

/-- The speed is the greatest one of one and the finite speeds of what is carried. -/
def Current (look : String → Value ρ) (b : Belongings ρ) : Prop :=
  ∃ q, Scalar.extent b.speed = .finite q
    ∧ IsGreatest (insert 1 (Travel.speedsOf look b.inventory.Holds)) q

theorem Paced.current (hunits : Scalar.KeepsUnits ρ) {b : Belongings ρ} (h : Paced look b)
    (hok : (Travel.speedOf look b.inventory.counts).isOk = true) : Current look b := by
  have hspeed := Fault.eq_ok_getD hok b.speed
  obtain ⟨q, hq, hgreatest⟩ := Travel.isGreatest_speedOf hunits.one hspeed
  rw [← h.paced _ hspeed] at hq
  have hholds : b.inventory.Holds = (· ∈ Table.names b.inventory.counts) :=
    funext fun id => propext h.stocked.holds_iff
  exact ⟨q, hq, hholds ▸ hgreatest⟩

/-- Whatever else it is, the speed is one, or that of an item that is faster. -/
theorem Paced.speed_mem (hunits : Scalar.KeepsUnits ρ) {b : Belongings ρ} (h : Paced look b)
    : ∃ q, Scalar.extent b.speed = .finite q ∧ 1 ≤ q
      ∧ (q = 1 ∨ q ∈ Travel.speedsOf look fun _ => True) := by
  obtain ⟨counts, hspeed⟩ := h.computed
  obtain ⟨q, hq, hmem, hupper⟩ := Travel.isGreatest_speedOf hunits.one hspeed
  refine ⟨q, hq, hupper (Set.mem_insert 1 _), hmem.imp_right fun hmem => ?_⟩
  exact Travel.speedsOf_mono (fun _ _ => trivial) hmem

/-- Who carries more is not slower. -/
theorem Current.le_of_holds {b b' : Belongings ρ} (h : Current look b) (h' : Current look b')
    (hholds : ∀ id, b.inventory.Holds id → b'.inventory.Holds id) {q q' : Rat}
    (hq : Scalar.extent b.speed = .finite q) (hq' : Scalar.extent b'.speed = .finite q') : q ≤ q' := by
  obtain ⟨r, hr, hmem, _⟩ := h
  obtain ⟨r', hr', _, hupper⟩ := h'
  obtain rfl := Extent.finite.inj (hq.symm.trans hr)
  obtain rfl := Extent.finite.inj (hq'.symm.trans hr')
  exact hupper (Set.insert_subset_insert (Travel.speedsOf_mono hholds) hmem)

theorem Paced.current_of_slow (hunits : Scalar.KeepsUnits ρ) {b : Belongings ρ} (h : Paced look b)
    (hslow : ∀ q ∈ Travel.speedsOf look fun _ => True, q ≤ 1) : Current look b := by
  obtain ⟨q, hq, hle, hmem⟩ := h.speed_mem hunits
  have hone : q = 1 := hmem.elim id fun hmem => le_antisymm (hslow q hmem) hle
  refine ⟨q, hq, .inl hone, ?_⟩
  rintro r (rfl | hr)
  . exact hle
  . exact (hslow r (Travel.speedsOf_mono (fun _ _ => trivial) hr)).trans hle

end Belongings

/-! ### A pack that is loaded -/

namespace Inventory

theorem count_one (hunits : Scalar.KeepsUnits ρ) (default : Nat)
    : (Value.int 1 : Value ρ).count default = .ok 1 := by
  obtain ⟨x, hx, hextent⟩ := hunits.toReal_one
  have hread : (Value.int 1 : Value ρ).toReal = .ok x := hx
  unfold Value.count Value.toWhole Number.truncate
  rw [hread]
  simp only [bind, Except.bind, Number.extent, hextent]
  rfl

/-- One of each item. -/
def onePerId (ids : List String) : Record ρ := ids.map fun id => (id, .int 1)

theorem load_onePerId (hunits : Scalar.KeepsUnits ρ) (ids : List String) (inv : Inventory)
    : ∃ inv', (load (.object (onePerId (ρ := ρ) ids))).run inv = (.ok (), inv')
      ∧ ∀ id ∈ ids, id ∈ Table.names inv'.counts := by
  have hentries (inv : Inventory) : ∃ inv',
      (load.entries (onePerId (ρ := ρ) ids)).run inv = (.ok (), inv')
        ∧ ∀ id, id ∈ Table.names inv.counts ∨ id ∈ ids → id ∈ Table.names inv'.counts := by
    induction ids generalizing inv with
    | nil => exact ⟨inv, rfl, by simp⟩
    | cons id ids ih =>
      obtain ⟨inv', hrun, hnames⟩ := ih { inv with counts := Table.set inv.counts id 1 }
      refine ⟨inv', ?_, fun other hother => hnames other ?_⟩
      . unfold onePerId at hrun ⊢
        rw [List.map_cons]
        unfold load.entries
        rw [Act.run_bind, Act.run_lift, count_one hunits]
        exact hrun
      . rw [List.mem_cons, ← or_assoc] at hother
        refine hother.imp_left fun hother => ?_
        rw [← Table.has_iff_mem_names] at hother ⊢
        unfold Table.has at hother ⊢
        rw [Table.get?_set]
        split
        . rfl
        next hne => exact hother.resolve_right fun heq => hne heq.symm
  obtain ⟨inv', hrun, hnames⟩ := hentries { inv with counts := [] }
  refine ⟨inv', ?_, fun id hid => hnames id (.inr hid)⟩
  unfold load
  rw [Act.run_bind, Act.run_modify]
  exact hrun

end Inventory

namespace Snapshot

/-- The payload of a game in which one of each item is carried. -/
def packed (ids : List String) : Value ρ :=
  .object [("pointer", .object [("locationId", .text "inn")]),
    ("inventory", .object (Inventory.onePerId ids))]

theorem countsOf_onePerId (hunits : Scalar.KeepsUnits ρ) (ids : List String)
    : countsOf (Inventory.onePerId (ρ := ρ) ids) = .ok (Inventory.onePerId ids) := by
  obtain ⟨x, hx, hextent⟩ := hunits.toReal_one
  have hfinite : finite? (.int 1 : Value ρ) = .ok (some x) := by
    change (do return some (← (Number.int 1).toReal) |>.filter Scalar.isFinite) = _
    rw [hx]
    simp [Scalar.isFinite, hextent, Extent.isFinite, bind, Except.bind, pure, Except.pure]
  unfold countsOf Inventory.onePerId
  induction ids with
  | nil => rfl
  | cons id ids ih =>
    rw [List.map_cons]
    unfold numbers
    rw [hfinite, ih]
    rfl

theorem ofPayload_packed (hunits : Scalar.KeepsUnits ρ) (ids : List String)
    : ∃ snapshot : Snapshot ρ, ofPayload (packed ids) = .ok (some snapshot)
      ∧ snapshot.time = .null ∧ snapshot.inventory = .object (Inventory.onePerId ids) := by
  have hgiven : ofPayload (packed (ρ := ρ) ids) = some <$> read
      [("pointer", .object [("locationId", .text "inn")]),
        ("inventory", .object (Inventory.onePerId ids))] [("locationId", .text "inn")] := by
    unfold ofPayload packed
    exact if_pos (Value.isGiven_text.mpr (by decide))
  have hread : read (ρ := ρ) [("pointer", .object [("locationId", .text "inn")]),
      ("inventory", .object (Inventory.onePerId ids))] [("locationId", .text "inn")]
      = (do return {
        location := .text "inn"
        inventory := .object (← countsOf (Inventory.onePerId ids)) }) := by
    unfold read
    rfl
  rw [hread, countsOf_onePerId hunits] at hgiven
  exact ⟨_, hgiven, rfl, rfl⟩

end Snapshot

namespace Session

variable {content : Content ρ σ} {look : String → Value ρ}

/-- Where one of two items cannot be entered, a payload that has both leaves the speed as it is. -/
theorem handled_packed (hunits : Scalar.KeepsUnits ρ) (hlook : ItemLookup.Shows look content.lookup)
    (s : Session ρ σ) {id : String}
    (hstopped : ¬ Inventory.Legible id (ItemLookup.named id (look id))) (other : String)
    : ∃ t, Handled content s t ∧ t.goods.speed = s.goods.speed
      ∧ other ∈ Table.names t.goods.inventory.counts := by
  obtain ⟨snapshot, hread, htime, hinventory⟩ := Snapshot.ofPayload_packed hunits [id, other]
  refine ⟨((restore content snapshot).run s).2, .course .none (.restore .none ⟨_, hread⟩), ?_⟩
  rcases restore_goods hunits.toKeepsWholes hlook hread s with
    ⟨hclock, _⟩ | ⟨inv, hload, hfollows⟩
  . rw [htime] at hclock
    cases hclock
  . obtain ⟨inv', hload', hnames⟩ :=
      Inventory.load_onePerId hunits [id, other] s.goods.inventory
    rw [hinventory, hload'] at hload
    obtain rfl : inv' = inv := congrArg Prod.snd hload
    rcases hfollows.speed with hspeed | ⟨_, hspeed⟩
    . have hok := Travel.isOk_speedOf.mp (by rw [hspeed]; rfl) id (hnames id (by simp))
      exact absurd hok.2 hstopped
    . refine ⟨hspeed, ?_⟩
      rw [hfollows.inventory]
      exact hnames other (by simp)

end Session

/-! ### Travel times -/

namespace Travel

/-- Travel takes time, and not more than it would take on foot. -/
theorem hours_of_speed (hunits : Scalar.KeepsUnits ρ) (hdivides : Scalar.DividesExactly ρ) {speed : ρ}
    {q : Rat} (hspeed : Scalar.extent speed = .finite q) (hq : 1 ≤ q) {time : Value ρ} {h : ρ}
    (htime : time.finite? = .ok (some h)) (hpos : Scalar.lt Scalar.zero h = true)
    : ∃ p, Scalar.extent h = .finite p ∧ 0 < p
      ∧ hours speed time kindTravel = .ok (.real (Scalar.div h speed))
      ∧ Scalar.extent (Scalar.div h speed) = .finite (p / q) := by
  obtain ⟨read, _, hread⟩ := Fault.bind_eq_ok.mp htime
  obtain ⟨_, hfinite⟩ := Option.filter_eq_some_iff.mp (Except.ok.inj hread)
  cases hh : Scalar.extent h with
  | finite p =>
    refine ⟨p, rfl, ?_, ?_, hdivides h speed p q hh hspeed (by linarith)⟩
    . exact (Scalar.lt_iff hunits.zero hh).mp hpos
    . unfold hours
      rw [htime]
      simp [bind, Except.bind, pure, Except.pure, hpos]
  | infinite negative => simp [Scalar.isFinite, hh, Extent.isFinite] at hfinite
  | undefined => simp [Scalar.isFinite, hh, Extent.isFinite] at hfinite

end Travel

namespace Session

variable {content : Content ρ σ} {look : String → Value ρ}

theorem Played.current (hunits : Scalar.KeepsUnits ρ) (hlook : ItemLookup.Shows look content.lookup)
    (hspeeds : ∀ id, (Record.field (ItemLookup.named id (look id)) "speed").fitsScalar = true)
    {s : Session ρ σ} (h : Played content s)
    (hlegible : ∀ id, s.goods.inventory.Holds id →
      Inventory.Legible id (ItemLookup.named id (look id))) : Belongings.Current look s.goods := by
  have hpaced := h.paced hunits.toKeepsWholes hlook
  apply hpaced.current hunits
  rw [Travel.isOk_speedOf]
  exact fun id hid => ⟨hspeeds id, hlegible id (hpaced.stocked.holds_iff.mpr hid)⟩

/-- Where one entry cannot be built and the speed is always current, no item is faster than walking. -/
theorem slow_of_current (hunits : Scalar.KeepsUnits ρ)
    (hlook : ItemLookup.Shows look content.lookup) {s₀ : Session ρ σ}
    (hpaced : Belongings.Paced look s₀.goods) (hspeed : s₀.goods.speed = Travel.baseSpeed)
    (hall : ∀ s, Handled content s₀ s → Belongings.Current look s.goods) {id : String}
    (hstopped : ¬ Inventory.Legible id (ItemLookup.named id (look id)))
    : ∀ q ∈ Travel.speedsOf look fun _ => True, q ≤ 1 := by
  rintro q ⟨other, _, hother⟩
  obtain ⟨t, ht, hsame, hmem⟩ := handled_packed hunits hlook s₀ hstopped other
  obtain ⟨p, hp, _, hupper⟩ := hall t ht
  rw [hsame, hspeed, hunits.one] at hp
  obtain rfl := Extent.finite.inj hp
  have hholds := (paced_handled hunits.toKeepsWholes hlook hpaced ht).stocked.holds_iff.mpr hmem
  exact hupper (.inr ⟨other, hholds, hother⟩)

/-- A story with boots that make travel twice as fast. -/
def bootMaker : Memory Rat where
  items := [("boots", [("speed", .int 2)])]

end Session

end Storyworld
