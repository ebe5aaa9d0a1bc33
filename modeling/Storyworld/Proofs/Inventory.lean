import Storyworld.Belongings
import Storyworld.Proofs.Value

/-!
This module contains what is carried: counts stay above zero with every item once, loading them
gives them back in their order, and the travel speed follows from them.
-/

namespace Storyworld

namespace Inventory

/-- Every item is there once, and of each there is one at least. -/
structure Stocked (counts : Table Nat) : Prop where
  nodup : (Table.names counts).Nodup
  positive : ∀ id n, (id, n) ∈ counts → 0 < n

theorem Stocked.set {counts : Table Nat} (h : Stocked counts) (id : String) {n : Nat} (hn : 0 < n)
    : Stocked (Table.set counts id n) where
  nodup := Table.nodup_names_set h.nodup
  positive other m hmem := by
    rcases Table.mem_set hmem with hmem | heq
    . exact h.positive other m hmem
    . cases heq
      exact hn

theorem Stocked.erase {counts : Table Nat} (h : Stocked counts) (id : String)
    : Stocked (Table.erase counts id) where
  nodup := Table.nodup_names_erase h.nodup
  positive other m hmem := h.positive other m (List.mem_of_mem_filter hmem)

/-- A trade leaves the counts as they are and tells nobody, or it changes them and tells all. -/
def Trades (act : Act Inventory (Nat × List (String × InventoryChange))) : Prop :=
  ∀ inv, (∃ result, act.run inv = (result, inv)
      ∧ ∀ amount notices, result = .ok (amount, notices) → notices = [])
    ∨ ∃ amount change counts, act.run inv = (.ok (amount, inv.notices change), { inv with counts })
      ∧ (Stocked inv.counts → Stocked counts)

section

variable {ρ : Type} [Scalar ρ]

theorem trades_add (id qty : Value ρ) : Trades (add id qty) := by
  intro inv
  unfold add
  simp only [Act.run_bind, Act.run_lift]
  cases id.key? with
  | error e => exact .inl ⟨.error e, rfl, by simp⟩
  | ok key =>
    dsimp only
    cases qty.count 1 with
    | error e => exact .inl ⟨.error e, rfl, by simp⟩
    | ok amount =>
      dsimp only
      by_cases hnone : key = "" ∨ amount = 0
      . left
        rw [if_pos hnone]
        refine ⟨.ok (0, []), rfl, ?_⟩
        intro amount notices h
        cases h
        rfl
      . right
        rw [if_neg hnone]
        rw [not_or] at hnone
        refine ⟨amount, _, Table.set inv.counts key (inv.count key + amount), rfl, ?_⟩
        intro h
        apply h.set
        have := Nat.pos_of_ne_zero hnone.2
        omega

theorem trades_remove (id qty : Value ρ) : Trades (remove id qty) := by
  intro inv
  unfold remove
  simp only [Act.run_bind, Act.run_get, Act.run_lift]
  cases id.key? with
  | error e => exact .inl ⟨.error e, rfl, by simp⟩
  | ok key =>
    dsimp only
    cases qty.count 1 with
    | error e => exact .inl ⟨.error e, rfl, by simp⟩
    | ok wanted =>
      dsimp only
      by_cases hnone : min (inv.count key) wanted = 0
      . left
        rw [if_pos hnone]
        refine ⟨.ok (0, []), rfl, ?_⟩
        intro amount notices h
        cases h
        rfl
      . right
        rw [if_neg hnone]
        refine ⟨min (inv.count key) wanted, _, _, rfl, ?_⟩
        intro h
        split
        . exact h.erase key
        . apply h.set
          omega

/-- What everyone who hears of changes keeps is kept when they are told. -/
theorem keeps_deliver {σ : Type} {P : σ → Prop} {hear : String → InventoryChange → Act σ Unit}
    (h : ∀ listener change, Act.Keeps P (hear listener change))
    (notices : List (String × InventoryChange)) : Act.Keeps P (deliver hear notices) := by
  induction notices with
  | nil => apply Act.keeps_pure
  | cons notice notices ih =>
    unfold deliver
    exact Act.keeps_bind (Act.keeps_attempt (h notice.1 notice.2)) fun _ => ih

/-- Whoever fails at a notice is passed over. -/
theorem deliver_ends {σ : Type} (hear : String → InventoryChange → Act σ Unit)
    (notices : List (String × InventoryChange)) (s : σ) : ((deliver hear notices).run s).1 = .ok () := by
  induction notices generalizing s with
  | nil => rfl
  | cons notice notices ih =>
    unfold deliver
    rw [Act.run_bind, Act.run_attempt]
    exact ih _

end

theorem count_int (n default : Nat) : (Value.int n : Value Rat).count default = .ok n := by
  unfold Value.count Value.toWhole
  simp [Value.unlessUnreadable, Number.truncate, Rat.truncate, bind, Except.bind, pure, Except.pure]

theorem run_load_entries {t : Table Nat} (inv : Inventory)
    (h : Stocked (inv.counts ++ t))
    : (load.entries (Table.mapEntries (fun n : Nat => (.int n : Value Rat)) t)).run inv
      = (.ok (), { inv with counts := inv.counts ++ t }) := by
  induction t generalizing inv with
  | nil => simp [Table.mapEntries, load.entries]
  | cons e t ih =>
    obtain ⟨id, n⟩ := e
    have hn : n ≠ 0 := (h.positive id n (by simp)).ne'
    -- an item that is loaded already would come twice
    have hid : id ∉ Table.names inv.counts := Table.not_mem_names_of_nodup h.nodup
    have hrest := ih { inv with counts := inv.counts ++ [(id, n)] } (by simpa using h)
    unfold Table.mapEntries at hrest ⊢
    rw [List.map_cons]
    unfold load.entries
    simp only [Act.run_bind, Act.run_lift, count_int]
    simp only [hn, ne_eq, not_false_eq_true, if_true, Act.run_bind, Act.run_modify,
      Table.set_of_not_mem hid, hrest]
    simp

theorem run_load {counts : Table Nat} (h : Stocked counts) (inv : Inventory)
    : (load (.object (Table.mapEntries (fun n : Nat => (.int n : Value Rat)) counts))).run inv
      = (.ok (), { inv with counts }) := by
  unfold load
  rw [Act.run_bind, Act.run_modify]
  exact run_load_entries { inv with counts := [] } h

end Inventory

/-! ### The speed of travel -/

section

variable {ρ σ : Type} [Scalar ρ] {lookup : ItemLookup ρ σ} {P : σ → Prop}

theorem ItemLookup.keeps_record (h : ∀ id, Act.Keeps P (lookup id)) (id : String)
    : Act.Keeps P (lookup.record id) := by
  unfold record
  refine Act.keeps_bind (Act.keeps_attempt (h id)) fun found => ?_
  cases found with
  | error e => apply Act.keeps_pure
  | ok v => apply Act.keeps_pure

theorem Inventory.keeps_entries (h : ∀ id, Act.Keeps P (lookup id)) (inv : Inventory)
    : Act.Keeps P (inv.entries lookup) := by
  have hentries (counts : Table Nat) : Act.Keeps P (entriesOf lookup counts) := by
    induction counts with
    | nil => apply Act.keeps_pure
    | cons e counts ih =>
      unfold entriesOf
      refine Act.keeps_bind (ItemLookup.keeps_record h e.1) fun row => ?_
      refine Act.keeps_bind (Act.keeps_lift _) fun entry => ?_
      exact Act.keeps_bind ih fun rest => Act.keeps_pure _
  exact hentries inv.counts

theorem Travel.keeps_speed (h : ∀ id, Act.Keeps P (lookup id)) (inv : Inventory)
    : Act.Keeps P (speed lookup inv) := by
  unfold speed
  exact Act.keeps_bind (Inventory.keeps_entries h inv) fun entries => Act.keeps_pure _

end

section

variable {ρ σ : Type} [Scalar ρ]

def ItemLookup.Shows (look : String → Value ρ) (lookup : ItemLookup ρ σ) : Prop :=
  ∀ id, Act.Yields (.ok (look id)) (lookup id)

def Travel.speedOf (look : String → Value ρ) (counts : Table Nat) : Except Fault ρ := do
  let entries ← counts.mapM fun (id, quantity) =>
    Inventory.entryOf id quantity (ItemLookup.named id (look id))
  return entries.foldl faster baseSpeed

theorem Travel.yields_speed {look : String → Value ρ} {lookup : ItemLookup ρ σ}
    (h : lookup.Shows look) (inv : Inventory)
    : Act.Yields (speedOf look inv.counts) (speed lookup inv) := by
  have hrecord (id : String)
      : Act.Yields (.ok (ItemLookup.named id (look id))) (lookup.record id) := by
    intro s
    unfold ItemLookup.record
    rw [Act.run_bind, Act.run_attempt, h id s]
    rfl
  have hentries (counts : Table Nat) : Act.Yields
      (counts.mapM fun (id, quantity) =>
        Inventory.entryOf id quantity (ItemLookup.named id (look id)))
      (Inventory.entriesOf lookup counts) := by
    induction counts with
    | nil => exact fun _ => rfl
    | cons e counts ih =>
      obtain ⟨id, quantity⟩ := e
      unfold Inventory.entriesOf
      rw [List.mapM_cons]
      change Act.Yields (Except.ok (ItemLookup.named id (look id)) >>= fun row =>
        Inventory.entryOf id quantity row >>= fun entry => _ >>= fun rest => pure (entry :: rest)) _
      refine Act.yields_bind (hrecord id) fun row => ?_
      refine Act.yields_bind (fun _ => rfl) fun entry => ?_
      exact Act.yields_bind ih fun rest _ => rfl
  unfold speed speedOf Inventory.entries
  exact Act.yields_bind (hentries inv.counts) fun entries _ => rfl

end

end Storyworld
