import Mathlib.Algebra.BigOperators.Finprod
import Storyworld.Proofs.Inventory
import Storyworld.Proofs.Ledger

/-!
This module contains what the operations on the account and on the counts do to the quantity of an
item at a location, over exact numbers and where all quantities are whole.
-/

namespace Storyworld

namespace Layer

/-- Every quantity is a whole number that is not below zero. -/
def Whole (layer : Layer Rat) : Prop :=
  ∀ place item, ∃ n : Nat, (layer.quantity place item).rat = n

theorem whole_nil : Whole [] := by
  intro place item
  exact ⟨0, by simp [quantity]⟩

theorem Whole.nonneg {layer : Layer Rat} (h : layer.Whole) (place item : String)
    : 0 ≤ (layer.quantity place item).rat := by
  obtain ⟨n, hn⟩ := h place item
  rw [hn]
  exact Nat.cast_nonneg n

theorem quantity_put (layer : Layer Rat) (place item : String) (n : Number Rat) (p i : String)
    : (layer.put place item n).quantity p i
      = if p = place ∧ i = item then n.clampBelow else layer.quantity p i := by
  unfold quantity put
  rw [Table.get?_set]
  by_cases hp : place = p
  . subst hp
    rw [if_pos rfl, Option.bind_some, Table.get?_set]
    by_cases hi : item = i
    . subst hi
      simp
    . rw [if_neg hi, if_neg fun h => hi h.2.symm]
      cases Table.get? layer place <;> rfl
  . rw [if_neg hp, if_neg fun h => hp h.1.symm]

/-- Writing a quantity to a layer changes no other one. -/
theorem rat_put {layer : Layer Rat} {place item : String} {n : Number Rat} {change : Rat}
    (hn : n.rat = (layer.quantity place item).rat + change) (h : 0 ≤ n.rat) (p i : String)
    : ((layer.put place item n).quantity p i).rat
      = (layer.quantity p i).rat + if p = place ∧ i = item then change else 0 := by
  rw [quantity_put]
  split
  next heq => rw [heq.1, heq.2, rat_clampBelow, max_eq_right h, hn]
  next => rw [add_zero]

/-- Writing so much more of an item to a layer changes its quantity by that, and nothing else. -/
theorem Whole.rat_put {layer : Layer Rat} (h : layer.Whole) {place item : String} {n : Number Rat}
    {k : Nat} (hn : n.rat = (layer.quantity place item).rat + k) (p i : String)
    : ((layer.put place item n).quantity p i).rat
      = (layer.quantity p i).rat + if p = place ∧ i = item then (k : Rat) else 0 := by
  have hnonneg : 0 ≤ n.rat := by
    have := h.nonneg place item
    rw [hn]
    positivity
  exact Layer.rat_put hn hnonneg p i

theorem Whole.put {layer : Layer Rat} (h : layer.Whole) (place item : String) {n : Number Rat}
    {k : Nat} (hn : n.rat = (layer.quantity place item).rat + k)
    : (layer.put place item n).Whole := by
  intro p i
  rw [h.rat_put hn]
  obtain ⟨m, hm⟩ := h p i
  split
  . exact ⟨m + k, by rw [hm, Nat.cast_add]⟩
  . exact ⟨m, by rw [hm, add_zero]⟩

/-- An item is at no more locations than the layer names. -/
theorem finite_support (layer : Layer Rat) (item : String)
    : (Function.support fun place => (layer.quantity place item).rat).Finite := by
  apply (List.finite_toSet (Table.names layer)).subset
  intro place h
  cases hget : Table.get? layer place with
  | none => simp [quantity, hget] at h
  | some items => exact List.mem_map.mpr ⟨_, Table.mem_of_get? hget, rfl⟩

end Layer

namespace Ledger

/-- How much of an item has come to a location since its scenes declared it. -/
def moved (l : Ledger Rat) (place item : String) : Rat :=
  (l.added.quantity place item).rat - (l.removed.quantity place item).rat

/-- How much of an item lies at a location. -/
def stock (l : Ledger Rat) (place item : String) : Rat :=
  (l.defaults.quantity place item).rat + (l.added.quantity place item).rat
    - (l.removed.quantity place item).rat

theorem stock_eq (l : Ledger Rat) (place item : String)
    : l.stock place item = (l.defaults.quantity place item).rat + l.moved place item :=
  add_sub_assoc _ _ _

theorem net_eq_ok (l : Ledger Rat) (place item : String)
    : ∃ n, l.net place item = .ok n ∧ n.rat = l.stock place item := by
  obtain ⟨sum, hsum, hsumrat, _⟩ :=
    Number.add_eq_ok (l.defaults.quantity place item) (l.added.quantity place item)
  obtain ⟨n, hn, hrat, _⟩ := Number.sub_eq_ok sum (l.removed.quantity place item)
  refine ⟨n, ?_, by rw [hrat, hsumrat]; rfl⟩
  unfold net balance
  rw [hsum]
  exact hn

theorem finite_moved (l : Ledger Rat) (item : String)
    : (Function.support fun place => l.moved place item).Finite :=
  ((l.added.finite_support item).union (l.removed.finite_support item)).subset
    (Function.support_sub _ _)

theorem finite_stock (l : Ledger Rat) (item : String)
    : (Function.support fun place => l.stock place item).Finite := by
  simp only [stock_eq]
  exact ((l.defaults.finite_support item).union (l.finite_moved item)).subset
    (Function.support_add _ _)

/-- All layers count in whole numbers, and nowhere has more gone than was there. -/
structure Whole (l : Ledger Rat) : Prop where
  defaults : l.defaults.Whole
  added : l.added.Whole
  removed : l.removed.Whole
  stock_nonneg : ∀ place item, 0 ≤ l.stock place item

theorem whole_empty : Whole {} where
  defaults := Layer.whole_nil
  added := Layer.whole_nil
  removed := Layer.whole_nil
  stock_nonneg place item := by simp [stock, Layer.quantity]

theorem Whole.stock_eq_nat {l : Ledger Rat} (h : l.Whole) (place item : String)
    : ∃ n : Nat, l.stock place item = n := by
  obtain ⟨d, hd⟩ := h.defaults place item
  obtain ⟨a, ha⟩ := h.added place item
  obtain ⟨r, hr⟩ := h.removed place item
  have hnonneg := h.stock_nonneg place item
  unfold stock at hnonneg ⊢
  rw [hd, ha, hr] at hnonneg ⊢
  have hle : r ≤ d + a := by
    rw [sub_nonneg] at hnonneg
    exact_mod_cast hnonneg
  exact ⟨d + a - r, by rw [Nat.cast_sub hle, Nat.cast_add]⟩

/-! ### Adding and removing -/

/-- So much more of an item has come to a location, and nothing else has changed. -/
structure Shifts (place item : String) (amount : Int) (l l' : Ledger Rat) : Prop where
  defaults : l'.defaults = l.defaults
  moved : ∀ p i, l'.moved p i = l.moved p i + if p = place ∧ i = item then (amount : Rat) else 0
  whole : l'.Whole

theorem Whole.shifts_zero {l : Ledger Rat} (h : l.Whole) (place item : String)
    : l.Shifts place item 0 l where
  defaults := rfl
  moved p i := by simp
  whole := h

theorem Whole.shifts_added {l : Ledger Rat} (h : l.Whole) {place item : String} {n : Number Rat}
    {k : Nat} (hn : n.rat = (l.added.quantity place item).rat + k)
    : l.Shifts place item k { l with added := l.added.put place item n } := by
  have hmoved (p i : String) : ({ l with added := l.added.put place item n } : Ledger Rat).moved p i
      = l.moved p i + if p = place ∧ i = item then (k : Rat) else 0 := by
    unfold moved
    rw [h.added.rat_put hn]
    ring
  refine ⟨rfl, by simpa using hmoved,
    { h with added := h.added.put place item hn, stock_nonneg := ?_ }⟩
  intro p i
  have hstock := h.stock_nonneg p i
  rw [stock_eq] at hstock ⊢
  rw [hmoved, ← add_assoc]
  split
  . positivity
  . simpa using hstock

theorem Whole.shifts_removed {l : Ledger Rat} (h : l.Whole) {place item : String} {n : Number Rat}
    {k : Nat} (hn : n.rat = (l.removed.quantity place item).rat + k) (hk : k ≤ l.stock place item)
    : l.Shifts place item (-k) { l with removed := l.removed.put place item n } := by
  have hmoved (p i : String)
      : ({ l with removed := l.removed.put place item n } : Ledger Rat).moved p i
      = l.moved p i + if p = place ∧ i = item then (-(k : Rat)) else 0 := by
    unfold moved
    rw [h.removed.rat_put hn]
    split <;> ring
  refine ⟨rfl, by simpa using hmoved,
    { h with removed := h.removed.put place item hn, stock_nonneg := ?_ }⟩
  intro p i
  have hstock := h.stock_nonneg p i
  rw [stock_eq] at hstock ⊢
  rw [hmoved, ← add_assoc]
  split
  next heq =>
    rw [← heq.1, ← heq.2, stock_eq] at hk
    linarith
  next => simpa using hstock

theorem quantity_nat (n : Nat) (default : Int)
    : ∃ m, quantity (.int n : Value Rat) default = .ok m ∧ m.rat = n
      ∧ m.isZero = decide (n = 0) := by
  refine ⟨_, quantity_num (.int n) default, ?_⟩
  simp [Number.isZero]

theorem names_eq_ok {location item : Value Rat} {place id : String}
    (hplace : location.text? = .ok place) (hid : item.text? = .ok id)
    : names location item = .ok (place, id) := by
  unfold names
  rw [hplace, hid]
  rfl

variable {location item : Value Rat} {place id : String}

section

variable (hlocation : location.isGiven = true) (hplace : location.text? = .ok place)
  (hitem : item.isGiven = true) (hid : item.text? = .ok id)

include hlocation hplace hitem hid

theorem run_add_nat (l : Ledger Rat) (n : Nat)
    : ∃ total, total.rat = (l.added.quantity place id).rat + n
      ∧ (add location item (.int n)).run l
        = (.ok (), if n = 0 then l else { l with added := l.added.put place id total }) := by
  obtain ⟨m, hquantity, hm, hzero⟩ := quantity_nat n 1
  obtain ⟨total, htotal, hrat, _⟩ := Number.add_eq_ok (l.added.quantity place id) m
  refine ⟨total, by rw [hrat, hm], ?_⟩
  unfold add
  rw [hlocation, hitem, hquantity]
  simp only [Bool.and_true, if_true, Act.run_bind, Act.run_lift, hzero]
  by_cases hn : n = 0
  . simp [hn]
  . simp [hn, names_eq_ok hplace hid, htotal]

/-- What is taken away is so much as lies there, and at most as much as was asked for. -/
theorem run_remove_of_quantity {qty : Value Rat} {amount : Number Rat}
    (hquantity : quantity qty 1 = .ok amount) (l : Ledger Rat)
    : ∃ taken total, taken.rat = max 0 (min (l.stock place id) amount.rat)
      ∧ total.rat = (l.removed.quantity place id).rat + taken.rat
      ∧ (remove location item qty).run l = (.ok taken,
        if 0 < taken.rat then { l with removed := l.removed.put place id total } else l) := by
  unfold remove
  rw [hlocation, hitem, hquantity]
  simp only [Bool.and_true, if_true, Act.run_bind, Act.run_lift]
  by_cases hzero : amount.rat = 0
  . have hisZero : amount.isZero = true := by simp [Number.isZero, hzero]
    refine ⟨.int 0, l.removed.quantity place id, ?_, by simp, by simp [hisZero]⟩
    rw [Number.rat_int, Int.cast_zero, hzero, max_eq_left (min_le_right _ _)]
  . have hisZero : amount.isZero = false := by simp [Number.isZero, hzero]
    obtain ⟨net, hnet, hnetrat⟩ := net_eq_ok l place id
    obtain ⟨total, htotal, hrat, _⟩ :=
      Number.add_eq_ok (l.removed.quantity place id) (net.min amount).clampBelow
    refine ⟨(net.min amount).clampBelow, total, ?_, hrat, ?_⟩
    . rw [Layer.rat_clampBelow, Number.rat_min, hnetrat]
    . simp only [hisZero, Bool.false_eq_true, if_false, Act.run_bind, Act.run_get,
        Act.run_lift, names_eq_ok hplace hid, hnet, Number.lt_eq_rat, Number.rat_int, Int.cast_zero,
        decide_eq_true_eq]
      split
      . simp [htotal, Except.map]
      . rfl

theorem run_remove_nat (l : Ledger Rat) (n : Nat)
    : ∃ taken total, taken.rat = max 0 (min (l.stock place id) n)
      ∧ total.rat = (l.removed.quantity place id).rat + taken.rat
      ∧ (remove location item (.int n)).run l = (.ok taken,
        if 0 < taken.rat then { l with removed := l.removed.put place id total } else l) := by
  obtain ⟨amount, hquantity, hamount, _⟩ := quantity_nat n 1
  rw [← hamount]
  exact run_remove_of_quantity hlocation hplace hitem hid hquantity l

theorem run_add {l : Ledger Rat} (hl : l.Whole) (n : Nat)
    : ∃ l', (add location item (.int n)).run l = (.ok (), l') ∧ l.Shifts place id n l' := by
  obtain ⟨total, hrat, hrun⟩ := run_add_nat hlocation hplace hitem hid l n
  refine ⟨_, hrun, ?_⟩
  split
  next hn =>
    subst hn
    exact hl.shifts_zero place id
  next => exact hl.shifts_added hrat

theorem run_remove {l : Ledger Rat} (hl : l.Whole) (n : Nat)
    : ∃ taken l', ∃ k : Nat, (remove location item (.int n)).run l = (.ok taken, l')
      ∧ taken.rat = k ∧ l.Shifts place id (-k) l' := by
  obtain ⟨taken, total, htaken, hrat, hrun⟩ := run_remove_nat hlocation hplace hitem hid l n
  obtain ⟨s, hs⟩ := hl.stock_eq_nat place id
  replace htaken : taken.rat = (min s n : Nat) := by
    rw [htaken, hs, ← Nat.cast_min]
    exact max_eq_right (Nat.cast_nonneg _)
  refine ⟨taken, _, min s n, hrun, htaken, ?_⟩
  split
  next =>
    rw [htaken] at hrat
    refine hl.shifts_removed hrat ?_
    rw [hs]
    exact_mod_cast Nat.min_le_left s n
  next hnone =>
    rw [htaken, Nat.cast_pos, not_lt, Nat.le_zero] at hnone
    rw [hnone]
    exact hl.shifts_zero place id

end

/-! ### Declaring -/

/-- How much of an item a row of a scene's inventory declares. -/
def offered (item : String) (row : Record Rat) : Rat :=
  match (Record.field row "id").text?, quantity (declared row) 1 with
  | .ok id, .ok n => if item = id then max 0 n.rat else 0
  | _, _ => 0

/-- The largest quantity of an item that the rows of a scene's inventory declare. -/
def offers (item : String) (rows : List (Record Rat)) : Rat :=
  (rows.map (offered item)).foldr max 0

/-- A row is about an item that can be named, and its quantity is whole. -/
def Countable (row : Record Rat) : Prop :=
  (∃ id, (Record.field row "id").text? = .ok id)
    ∧ ∃ i : Int, quantity (declared row) 1 = .ok (.int i)

/-- At one location the quantities declared of items have risen to what is offered, and nothing else
has changed. -/
structure Raises (place : String) (offer : String → Rat) (l l' : Ledger Rat) : Prop where
  moved : ∀ p i, l'.moved p i = l.moved p i
  defaults : ∀ p i, (l'.defaults.quantity p i).rat
    = max (l.defaults.quantity p i).rat (if p = place then offer i else 0)
  whole : l'.Whole

theorem Raises.zero {l : Ledger Rat} (h : l.Whole) (place : String)
    : l.Raises place (fun _ => 0) l where
  moved _ _ := rfl
  defaults p i := by simpa using h.defaults.nonneg p i
  whole := h

theorem Raises.trans {place : String} {offer offer' : String → Rat} {l l' l'' : Ledger Rat}
    (h : l.Raises place offer l') (h' : l'.Raises place offer' l'')
    : l.Raises place (fun i => max (offer i) (offer' i)) l'' where
  moved p i := by rw [h'.moved, h.moved]
  defaults p i := by
    rw [h'.defaults, h.defaults, max_assoc]
    split <;> simp
  whole := h'.whole

theorem offered_eq {row : Record Rat} {id : String} {q : Int}
    (hid : (Record.field row "id").text? = .ok id) (hq : quantity (declared row) 1 = .ok (.int q))
    (item : String) : offered item row = if item = id then max 0 (q : Rat) else 0 := by
  unfold offered
  rw [hid, hq]
  simp

theorem run_raise {row : Record Rat} {id : String} {n : Number Rat}
    (hid : (Record.field row "id").text? = .ok id) (hn : quantity (declared row) 1 = .ok n)
    (place : String) (l : Ledger Rat)
    : (raise place row).run l = (.ok (), if (l.defaults.quantity place id).rat < max 0 n.rat
      then { l with defaults := l.defaults.put place id n.clampBelow } else l) := by
  unfold raise
  rw [hid, hn]
  simp only [Act.run_bind, Act.run_lift, Act.run_get, Number.lt_eq_rat, Layer.rat_clampBelow,
    decide_eq_true_eq]
  split
  . rfl
  . rfl

theorem raises_raise {l : Ledger Rat} (hl : l.Whole) {row : Record Rat} (h : Countable row)
    (place : String)
    : ∃ l', (raise place row).run l = (.ok (), l')
      ∧ l.Raises place (fun i => offered i row) l' := by
  obtain ⟨⟨id, hid⟩, q, hq⟩ := h
  obtain ⟨d, hd⟩ := hl.defaults place id
  have hnat : max 0 (q : Rat) = q.toNat := by
    rw [max_comm]
    exact_mod_cast (Int.toNat_eq_max q).symm
  have hoffer (p i : String) : (if p = place then offered i row else 0)
      = if p = place ∧ i = id then (q.toNat : Rat) else 0 := by
    rw [offered_eq hid hq, hnat, ite_and]
  rw [run_raise hid hq, Number.rat_int, hnat, hd]
  refine ⟨_, rfl, ?_⟩
  split
  next hlt =>
    have hclamp : (Number.int q).clampBelow.rat = q.toNat := by
      rw [Layer.rat_clampBelow, Number.rat_int, hnat]
    -- what is declared anew is so much more than what was declared
    have hrise : (Number.int q).clampBelow.rat
        = (l.defaults.quantity place id).rat + (q.toNat - d : Nat) := by
      rw [hclamp, hd, Nat.cast_sub (by exact_mod_cast hlt.le)]
      ring
    have hdefaults (p i : String) :
        ((l.defaults.put place id (Number.int q).clampBelow).quantity p i).rat
          = max (l.defaults.quantity p i).rat (if p = place then offered i row else 0) := by
      rw [hoffer, Layer.quantity_put]
      split
      next h =>
        rw [h.1, h.2, hd, max_eq_right hlt.le, Layer.rat_clampBelow, hclamp]
        exact max_eq_right (Nat.cast_nonneg _)
      next => rw [max_eq_left (hl.defaults.nonneg p i)]
    refine ⟨fun _ _ => rfl, hdefaults,
      { hl with defaults := hl.defaults.put place id hrise, stock_nonneg := ?_ }⟩
    intro p i
    have hstock := hl.stock_nonneg p i
    rw [stock_eq] at hstock ⊢
    change 0 ≤ _ + l.moved p i
    rw [hdefaults]
    have := le_max_left (l.defaults.quantity p i).rat (if p = place then offered i row else 0)
    linarith
  next hle =>
    refine ⟨fun _ _ => rfl, fun p i => ?_, hl⟩
    rw [hoffer, max_eq_left]
    split
    next h =>
      rw [h.1, h.2, hd]
      exact not_lt.mp hle
    next => exact hl.defaults.nonneg p i

theorem run_raise_self {l : Ledger Rat} {row : Record Rat} (h : Countable row) {place : String}
    (hle : ∀ i, offered i row ≤ (l.defaults.quantity place i).rat)
    : (raise place row).run l = (.ok (), l) := by
  obtain ⟨⟨id, hid⟩, q, hq⟩ := h
  have := hle id
  rw [offered_eq hid hq, if_pos rfl] at this
  rw [run_raise hid hq, Number.rat_int, if_neg (not_lt.mpr this)]

/-- The rows of a scene's inventory that are about an item. -/
def records (items : Value Rat) : List (Record Rat) :=
  sceneItems ((iterable items).toOption.getD [])

theorem run_applyScene {location : Value Rat} {place : String} (hlocation : location.isGiven = true)
    (hplace : location.text? = .ok place) (items : Value Rat) (l : Ledger Rat)
    : ((applyScene location items).run l).2 = (((records items).forM (raise place)).run l).2 := by
  unfold applyScene records
  rw [if_pos hlocation]
  cases iterable items with
  | error e => rfl
  | ok xs =>
    rw [hplace]
    rfl

theorem run_applyScene_of_not {location : Value Rat} (hlocation : ¬location.isGiven = true)
    (items : Value Rat) (l : Ledger Rat) : (applyScene location items).run l = (.ok (), l) := by
  unfold applyScene
  rw [if_neg hlocation]
  rfl

theorem raises_forM {l : Ledger Rat} (hl : l.Whole) {rows : List (Record Rat)}
    (h : ∀ row ∈ rows, Countable row) (place : String)
    : ∃ l', (rows.forM (raise place)).run l = (.ok (), l')
      ∧ l.Raises place (fun i => offers i rows) l' := by
  induction rows generalizing l with
  | nil => exact ⟨l, rfl, .zero hl place⟩
  | cons row rows ih =>
    obtain ⟨l₁, hfirst, hraise⟩ := raises_raise hl (h row List.mem_cons_self) place
    obtain ⟨l₂, hrest, hraises⟩ := ih hraise.whole fun r hr => h r (List.mem_cons_of_mem _ hr)
    refine ⟨l₂, ?_, hraise.trans hraises⟩
    unfold List.forM
    rw [Act.run_bind, hfirst]
    exact hrest

/-- Declaring again what has been declared changes nothing. -/
theorem run_forM_self {l : Ledger Rat} {rows : List (Record Rat)} (h : ∀ row ∈ rows, Countable row)
    {place : String} (hle : ∀ i, offers i rows ≤ (l.defaults.quantity place i).rat)
    : (rows.forM (raise place)).run l = (.ok (), l) := by
  induction rows with
  | nil => rfl
  | cons row rows ih =>
    have hfirst := run_raise_self (h row List.mem_cons_self) fun i =>
      (le_max_left _ _).trans (hle i)
    have hrest := ih (fun r hr => h r (List.mem_cons_of_mem _ hr)) fun i =>
      (le_max_right _ _).trans (hle i)
    unfold List.forM
    rw [Act.run_bind, hfirst]
    exact hrest

end Ledger

namespace Inventory

variable {item : Value Rat} {id : String}

theorem run_add (hkey : item.key? = .ok id) (hne : id ≠ "") (n : Nat) (inv : Inventory)
    : ∃ notices counts, (add item (.int n)).run inv = (.ok (n, notices), { inv with counts })
      ∧ ∀ i, ({ inv with counts } : Inventory).count i = inv.count i + if i = id then n else 0 := by
  unfold add
  simp only [Act.run_bind, Act.run_lift, hkey, count_int, hne, false_or]
  by_cases hn : n = 0
  . subst hn
    exact ⟨[], inv.counts, by simp, by simp⟩
  . refine ⟨_, _, by simp only [hn, if_false]; rfl, fun i => ?_⟩
    unfold count
    rw [Table.get?_set]
    by_cases hi : id = i
    . subst hi
      simp
    . simp [hi, Ne.symm hi]

theorem run_remove (hkey : item.key? = .ok id) (n : Nat) (inv : Inventory)
    : ∃ notices counts,
      (remove item (.int n)).run inv = (.ok (min (inv.count id) n, notices), { inv with counts })
      ∧ ∀ i, ({ inv with counts } : Inventory).count i
        = inv.count i - if i = id then min (inv.count id) n else 0 := by
  unfold remove
  simp only [Act.run_bind, Act.run_lift, Act.run_get, hkey, count_int]
  by_cases hnone : min (inv.count id) n = 0
  . rw [hnone]
    exact ⟨[], inv.counts, by simp, by simp⟩
  . refine ⟨_, _, by simp only [hnone, if_false]; rfl, fun i => ?_⟩
    unfold count at hnone ⊢
    by_cases hi : i = id
    . subst hi
      split
      next hleft =>
        rw [Table.get?_erase, if_pos rfl]
        simpa using hleft.symm
      next => simp
    . split
      next => simp [Table.get?_erase, Ne.symm hi]
      next => simp [Table.get?_set, Ne.symm hi]

end Inventory

end Storyworld
