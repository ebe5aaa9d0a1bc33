import Mathlib.Order.Bounds.Basic
import Storyworld.Proofs.Inventory
import Storyworld.Proofs.Plain

/-!
This module contains the speed that is computed of counts: it is the greatest one of one and the finite
speeds of the items. There is none unless the entries of all items can be built, with all that they
show.
-/

namespace Storyworld

variable {ρ : Type} [Scalar ρ]

/-! ### Entries -/

namespace Inventory

/-- An entry can be built from a record, once the speed can be read. -/
structure Legible (id : String) (row : Record ρ) : Prop where
  traits : ∀ m ∈ (Record.field row "traits").recordD, m.2.fitsScalar = true
  name : ((Record.field row "name").orElse (.text id)).text?.isOk = true
  description : ((Record.field row "description").orElse (.text "")).text?.isOk = true

def speedIn (row : Record ρ) : Except Fault (Option ρ) :=
  match Record.field row "speed" with
  | .num n => some <$> n.toReal
  | _ => .ok none

theorem entryOf_eq (id : String) (quantity : Nat) (row : Record ρ)
    : entryOf id quantity row = do
      let speed ← speedIn row
      let traits ← numbers (Record.field row "traits").recordD
      let name ← ((Record.field row "name").orElse (.text id)).text?
      let description ← ((Record.field row "description").orElse (.text "")).text?
      return { id, name, quantity, description, speed, traits } := by
  unfold entryOf speedIn
  cases Record.field row "speed" <;> rfl

theorem isOk_numbers {ms : List (String × Value ρ)}
    : (numbers ms).isOk = true ↔ ∀ m ∈ ms, m.2.fitsScalar = true := by
  fun_induction numbers ms with
  | case1 => simp
  | case2 name n ms ih =>
    rw [List.forall_mem_cons, ← ih]
    exact Fault.isOk_bind_iff fun x _ => Fault.isOk_bind fun rest _ => rfl
  | case3 m ms hm ih =>
    obtain ⟨name, v⟩ := m
    rw [List.forall_mem_cons, ← ih, and_iff_right]
    cases v with
    | num n => exact absurd rfl (hm name n)
    | _ => rfl

theorem isOk_entryOf {id : String} {quantity : Nat} {row : Record ρ}
    : (entryOf id quantity row).isOk = true
      ↔ (Record.field row "speed").fitsScalar = true ∧ Legible id row := by
  have hspeed : (speedIn row).isOk = true ↔ (Record.field row "speed").fitsScalar = true := by
    unfold speedIn
    cases Record.field row "speed" with
    | num n => exact Fault.isOk_map
    | _ => exact iff_of_true rfl rfl
  have hall : (entryOf id quantity row).isOk = true
      ↔ (Record.field row "speed").fitsScalar = true
        ∧ (∀ m ∈ (Record.field row "traits").recordD, m.2.fitsScalar = true)
        ∧ ((Record.field row "name").orElse (.text id)).text?.isOk = true
        ∧ ((Record.field row "description").orElse (.text "")).text?.isOk = true := by
    rw [entryOf_eq, ← hspeed, ← isOk_numbers]
    exact Fault.isOk_bind_iff fun speed _ => Fault.isOk_bind_iff fun traits _ =>
      Fault.isOk_bind_iff fun name _ => Fault.isOk_bind fun description _ => rfl
  rw [hall]
  exact and_congr_right fun _ => ⟨fun ⟨ht, hn, hd⟩ => ⟨ht, hn, hd⟩, fun h => ⟨h.1, h.2, h.3⟩⟩

theorem speed_of_entryOf {id : String} {quantity : Nat} {row : Record ρ} {e : ItemEntry ρ}
    (h : entryOf id quantity row = .ok e) (x : ρ)
    : e.speed = some x ↔ ∃ n, Record.field row "speed" = .num n ∧ n.toReal = .ok x := by
  rw [entryOf_eq] at h
  obtain ⟨speed, hspeed, h⟩ := Fault.bind_eq_ok.mp h
  obtain ⟨traits, _, h⟩ := Fault.bind_eq_ok.mp h
  obtain ⟨name, _, h⟩ := Fault.bind_eq_ok.mp h
  obtain ⟨description, _, h⟩ := Fault.bind_eq_ok.mp h
  obtain rfl := Except.ok.inj h
  unfold speedIn at hspeed
  split at hspeed
  next n hn =>
    obtain ⟨y, hy, rfl⟩ := Fault.map_eq_ok.mp hspeed
    simp [hn, hy, eq_comm]
  next hnone =>
    obtain rfl := Except.ok.inj hspeed
    simp only [reduceCtorEq, false_iff, not_exists, not_and]
    exact fun n hn => absurd hn (hnone n)

end Inventory

/-! ### The greatest speed -/

namespace Travel

/-- The exact values of finite speeds of entries. -/
def entrySpeeds (entries : List (ItemEntry ρ)) : Set Rat :=
  {q | ∃ e ∈ entries, ∃ x, e.speed = some x ∧ Scalar.extent x = .finite q}

theorem entrySpeeds_cons (e : ItemEntry ρ) (entries : List (ItemEntry ρ))
    : entrySpeeds (e :: entries) = entrySpeeds [e] ∪ entrySpeeds entries := by
  ext q
  simp [entrySpeeds]

/-- An entry leaves the greater one of the speed so far and its own, if that is finite. -/
theorem isGreatest_faster {v : ρ} {q : Rat} (hv : Scalar.extent v = .finite q) (e : ItemEntry ρ)
    : ∃ r, Scalar.extent (faster v e) = .finite r ∧ IsGreatest (insert q (entrySpeeds [e])) r := by
  unfold faster
  cases hspeed : e.speed with
  | none => exact ⟨q, hv, by simp [entrySpeeds, hspeed]⟩
  | some x =>
    cases hx : Scalar.extent x with
    | finite p =>
      have hspeeds : entrySpeeds [e] = {p} := by
        ext r
        simp [entrySpeeds, hspeed, hx, eq_comm]
      have hlt : (Scalar.isFinite x && Scalar.lt v x) = decide (q < p) := by
        simp [Scalar.isFinite, Scalar.lt, hx, hv, Extent.isFinite, Extent.lt]
      rw [hspeeds]
      dsimp only
      rw [hlt]
      by_cases hfaster : q < p
      . exact ⟨p, by simp [hfaster, hx], by simp, by simp [upperBounds, hfaster.le]⟩
      . exact ⟨q, by simp [hfaster, hv], by simp, by simpa [upperBounds] using hfaster⟩
    | _ =>
      refine ⟨q, ?_, ?_⟩
      . simp [Scalar.isFinite, hx, Extent.isFinite, hv]
      . simp [entrySpeeds, hspeed, hx]

theorem isGreatest_foldl {v : ρ} {q : Rat} (hv : Scalar.extent v = .finite q)
    (entries : List (ItemEntry ρ))
    : ∃ r, Scalar.extent (entries.foldl faster v) = .finite r
      ∧ IsGreatest (insert q (entrySpeeds entries)) r := by
  induction entries generalizing v q with
  | nil => exact ⟨q, hv, by simp [entrySpeeds]⟩
  | cons e entries ih =>
    obtain ⟨p, hp, hfirst⟩ := isGreatest_faster hv e
    obtain ⟨r, hr, hrest⟩ := ih hp
    refine ⟨r, hr, ?_⟩
    rw [entrySpeeds_cons, ← Set.insert_union]
    have hle : p ≤ r := hrest.2 (Set.mem_insert p _)
    constructor
    . rcases hrest.1 with rfl | hmem
      . exact .inl hfirst.1
      . exact .inr hmem
    . rintro x (hx | hx)
      . exact (hfirst.2 hx).trans hle
      . exact hrest.2 (Set.mem_insert_of_mem p hx)

/-- The exact values of the finite speeds of items. -/
def speedsOf (look : String → Value ρ) (held : String → Prop) : Set Rat :=
  {q | ∃ id, held id ∧ ∃ n x, Record.field (ItemLookup.named id (look id)) "speed" = .num n
    ∧ n.toReal = .ok x ∧ Scalar.extent x = .finite q}

theorem speedsOf_mono {look : String → Value ρ} {held held' : String → Prop}
    (h : ∀ id, held id → held' id) : speedsOf look held ⊆ speedsOf look held' :=
  fun _ ⟨id, hheld, hspeed⟩ => ⟨id, h id hheld, hspeed⟩

theorem entrySpeeds_eq {look : String → Value ρ} {counts : Table Nat}
    {entries : List (ItemEntry ρ)}
    (h : counts.mapM (fun (id, quantity) =>
      Inventory.entryOf id quantity (ItemLookup.named id (look id))) = .ok entries)
    : entrySpeeds entries = speedsOf look (· ∈ Table.names counts) := by
  induction counts generalizing entries with
  | nil =>
    obtain rfl := Except.ok.inj h
    simp [entrySpeeds, speedsOf, Table.names]
  | cons count counts ih =>
    obtain ⟨id, quantity⟩ := count
    rw [List.mapM_cons] at h
    obtain ⟨e, he, h⟩ := Fault.bind_eq_ok.mp h
    obtain ⟨rest, hrest, h⟩ := Fault.bind_eq_ok.mp h
    obtain rfl := Except.ok.inj h
    rw [entrySpeeds_cons, ih hrest]
    ext q
    simp only [Set.mem_union, entrySpeeds, speedsOf, Set.mem_ofPred_eq, Table.names, List.map_cons,
      List.mem_cons, or_and_right, exists_or, exists_eq_left, List.not_mem_nil, or_false,
      Inventory.speed_of_entryOf he]
    refine or_congr_left ?_
    constructor
    . rintro ⟨x, ⟨n, hn, hx⟩, hq⟩
      exact ⟨n, x, hn, hx, hq⟩
    . rintro ⟨n, x, hn, hx, hq⟩
      exact ⟨x, ⟨n, hn, hx⟩, hq⟩

/-- The speed that is computed is the greatest one of one and the finite speeds of the items. -/
theorem isGreatest_speedOf (hone : Scalar.extent (baseSpeed : ρ) = .finite 1)
    {look : String → Value ρ} {counts : Table Nat} {v : ρ} (h : speedOf look counts = .ok v)
    : ∃ q, Scalar.extent v = .finite q
      ∧ IsGreatest (insert 1 (speedsOf look (· ∈ Table.names counts))) q := by
  obtain ⟨entries, hentries, h⟩ := Fault.bind_eq_ok.mp h
  obtain rfl := Except.ok.inj h
  rw [← entrySpeeds_eq hentries]
  exact isGreatest_foldl hone entries

theorem isOk_speedOf {look : String → Value ρ} {counts : Table Nat}
    : (speedOf look counts).isOk = true
      ↔ ∀ id ∈ Table.names counts,
        (Record.field (ItemLookup.named id (look id)) "speed").fitsScalar = true
          ∧ Inventory.Legible id (ItemLookup.named id (look id)) := by
  unfold speedOf
  rw [Fault.isOk_bind fun _ _ => rfl, Fault.isOk_mapM]
  simp only [Inventory.isOk_entryOf, Table.names, List.forall_mem_map]

end Travel

end Storyworld
