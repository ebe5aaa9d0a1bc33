import Storyworld.Proofs.Transfer

/-!
This module contains the laws of the account over exact numbers: declaring what lies at a location is
a join, removing takes exactly what it says, and what is listed of a location is what is counted.
-/

namespace Storyworld.Ledger

/-- Every value stands for some quantity. -/
theorem exists_quantity (v : Value Rat) (default : Int) : ∃ n, quantity v default = .ok n := by
  obtain ⟨x?, hx⟩ := v.exists_real?
  unfold quantity
  rw [hx]
  cases x? with
  | none => exact ⟨_, rfl⟩
  | some x => exact ⟨_, rfl⟩

/-! ### Declaring -/

/-- What is declared is raised to an offer, and nothing else is changed; an offer that is there
already changes nothing at all. -/
structure Joins {α : Type} (offer : String → String → Rat) (act : Act (Ledger Rat) α) : Prop where
  added : ∀ l, (act.run l).2.added = l.added
  removed : ∀ l, (act.run l).2.removed = l.removed
  defaults : ∀ l, (∀ p i, 0 ≤ (l.defaults.quantity p i).rat) → ∀ p i,
    ((act.run l).2.defaults.quantity p i).rat = max (l.defaults.quantity p i).rat (offer p i)
  idle : ∀ l, (∀ p i, offer p i ≤ (l.defaults.quantity p i).rat) → (act.run l).2 = l

theorem joins_idle {α : Type} {act : Act (Ledger Rat) α} (h : ∀ l, (act.run l).2 = l)
    : Joins (fun _ _ => 0) act where
  added l := by rw [h]
  removed l := by rw [h]
  defaults l hl p i := by rw [h, max_eq_left (hl p i)]
  idle l _ := h l

theorem joins_raise {row : Record Rat} {id : String} (hid : (Record.field row "id").text? = .ok id)
    {n : Number Rat} (hn : quantity (declared row) 1 = .ok n) (place : String)
    : Joins (fun p i => if p = place ∧ i = id then max 0 n.rat else 0) (raise place row) where
  added l := by
    rw [run_raise hid hn]
    split <;> rfl
  removed l := by
    rw [run_raise hid hn]
    split <;> rfl
  defaults l hl p i := by
    rw [run_raise hid hn]
    by_cases hlt : (l.defaults.quantity place id).rat < max 0 n.rat
    . rw [if_pos hlt]
      dsimp only
      rw [Layer.quantity_put]
      split
      next h =>
        rw [h.1, h.2, Layer.rat_clampBelow, Layer.rat_clampBelow, max_eq_right hlt.le]
        exact max_eq_right (le_max_left _ _)
      next => rw [max_eq_left (hl p i)]
    . rw [if_neg hlt]
      split
      next h => rw [h.1, h.2, max_eq_left (not_lt.mp hlt)]
      next => rw [max_eq_left (hl p i)]
  idle l hl := by
    have hle := hl place id
    rw [if_pos ⟨rfl, rfl⟩] at hle
    rw [run_raise hid hn, if_neg (not_lt.mpr hle)]

theorem Joins.bind {offer offer' : String → String → Rat} {act act' : Act (Ledger Rat) PUnit}
    (h : Joins offer act) (hok : ∀ l, (act.run l).1 = .ok ⟨⟩) (h' : Joins offer' act')
    : Joins (fun p i => max (offer p i) (offer' p i)) (act >>= fun _ => act') := by
  have hrun (l : Ledger Rat) : (act >>= fun _ => act').run l = act'.run (act.run l).2 := by
    rw [Act.run_bind]
    rcases hact : act.run l with ⟨_ | _, t⟩
    . have := hok l
      rw [hact] at this
      cases this
    . rfl
  constructor
  case added => exact fun l => by rw [hrun, h'.added, h.added]
  case removed => exact fun l => by rw [hrun, h'.removed, h.removed]
  case defaults =>
    intro l hl p i
    have hraised (p i : String) : 0 ≤ ((act.run l).2.defaults.quantity p i).rat := by
      rw [h.defaults l hl]
      exact le_max_of_le_left (hl p i)
    rw [hrun, h'.defaults _ hraised, h.defaults l hl, max_assoc]
  case idle =>
    intro l hl
    have hfirst := h.idle l fun p i => (le_max_left _ _).trans (hl p i)
    rw [hrun, hfirst]
    exact h'.idle l fun p i => (le_max_right _ _).trans (hl p i)

theorem exists_joins_forM (place : String) (rows : List (Record Rat))
    : ∃ offer, Joins offer (rows.forM (raise place)) := by
  induction rows with
  | nil => exact ⟨_, joins_idle fun _ => rfl⟩
  | cons row rows ih =>
    obtain ⟨offer, hrest⟩ := ih
    obtain ⟨n, hn⟩ := exists_quantity (declared row) 1
    unfold List.forM
    cases hid : (Record.field row "id").text? with
    | error e =>
      -- a row whose item cannot be named ends it, whatever comes behind
      refine ⟨_, joins_idle fun l => ?_⟩
      unfold raise
      rw [hn, hid]
      rfl
    | ok id =>
      refine ⟨_, (joins_raise hid hn place).bind (fun l => ?_) hrest⟩
      rw [run_raise hid hn]

/-- The inventory of a scene is an offer, whatever is in it and whatever has been declared before. -/
theorem exists_joins (location items : Value Rat) : ∃ offer, Joins offer (applyScene location items) := by
  by_cases hlocation : location.isGiven = true
  . unfold applyScene
    rw [if_pos hlocation]
    cases iterable items with
    | error e => exact ⟨_, joins_idle fun _ => rfl⟩
    | ok xs =>
      cases location.text? with
      | error e =>
        refine ⟨_, joins_idle fun l => ?_⟩
        cases hrows : sceneItems xs with
        | nil => simp [Act.run_bind, hrows]
        | cons row rows => simp [Act.run_bind, hrows]
      | ok place => exact exists_joins_forM place (sceneItems xs)
  . refine ⟨_, joins_idle fun l => ?_⟩
    rw [run_applyScene_of_not hlocation]

section

variable {offer offer' : String → String → Rat} {act act' : Act (Ledger Rat) Unit} {l : Ledger Rat}

theorem Joins.lies (h : Joins offer act) (hl : l.Settled) (p i : String)
    : (act.run l).2.lies p i
      = max 0 (max (l.defaults.quantity p i).rat (offer p i) + l.moved p i) := by
  rw [lies_eq, stock_eq, h.defaults l hl.defaults.quantity_nonneg]
  unfold moved
  rw [h.added, h.removed]

theorem Joins.lies_comm (h : Joins offer act) (h' : Joins offer' act') (hl : l.Settled)
    (hact : Act.Keeps Settled act) (hact' : Act.Keeps Settled act') (p i : String)
    : (act'.run (act.run l).2).2.lies p i = (act.run (act'.run l).2).2.lies p i := by
  have hmoved : (act.run l).2.moved p i = (act'.run l).2.moved p i := by
    unfold moved
    rw [h.added, h.removed, h'.added, h'.removed]
  rw [h'.lies (hact l hl), h.lies (hact' l hl), hmoved,
    h.defaults l hl.defaults.quantity_nonneg, h'.defaults l hl.defaults.quantity_nonneg,
    max_right_comm]

theorem Joins.run_again (h : Joins offer act) (hl : l.Settled)
    : (act.run (act.run l).2).2 = (act.run l).2 := by
  apply h.idle
  intro p i
  rw [h.defaults l hl.defaults.quantity_nonneg]
  exact le_max_right _ _

theorem Joins.le_lies (h : Joins offer act) (hl : l.Settled) (p i : String)
    : l.lies p i ≤ (act.run l).2.lies p i := by
  rw [h.lies hl, lies_eq, stock_eq]
  gcongr
  exact le_max_left _ _

end

/-! ### Removing -/

section

variable {location item : Value Rat} {place id : String} {l : Ledger Rat}

/-- So much of an item is taken from a location as is there and asked for, and no other count is
touched. -/
structure Removes (place id : String) (asked taken : Rat) (l l' : Ledger Rat) : Prop where
  nonneg : 0 ≤ taken
  le_asked : taken ≤ max 0 asked
  le_lies : taken ≤ l.lies place id
  lies : ∀ p i, l'.lies p i = l.lies p i - if p = place ∧ i = id then taken else 0

theorem Settled.run_remove_any (hplace : location.text? = .ok place) (hid : item.text? = .ok id)
    (hl : l.Settled) (qty : Value Rat)
    : ∃ asked taken l', quantity qty 1 = .ok asked
      ∧ (Ledger.remove location item qty).run l = (.ok taken, l')
      ∧ l.Removes place id asked.rat taken.rat l' := by
  obtain ⟨asked, hasked⟩ := exists_quantity qty 1
  by_cases hgiven : location.isGiven = true ∧ item.isGiven = true
  . obtain ⟨hlocation, hitem⟩ := hgiven
    obtain ⟨taken, l', hrun, htaken, hchanges⟩ :=
      hl.run_remove_of_quantity hlocation hplace hitem hid hasked
    refine ⟨asked, taken, l', hasked, hrun, ?_⟩
    have hnonneg : 0 ≤ taken.rat := htaken ▸ le_max_left _ _
    have hle : taken.rat ≤ l.lies place id := by
      rw [htaken, lies_eq]
      gcongr
      exact min_le_left _ _
    refine ⟨hnonneg, ?_, hle, fun p i => ?_⟩
    . rw [htaken]
      gcongr
      exact min_le_right _ _
    . split
      next heq =>
        rw [heq.1, heq.2]
        exact hchanges.lies_sub hnonneg hle
      next hne => rw [lies_eq, lies_eq, hchanges, if_neg hne, add_zero, sub_zero]
  . refine ⟨asked, .int 0, l, hasked, ?_, ?_⟩
    . unfold Ledger.remove
      rw [if_neg (by simpa using hgiven)]
      rfl
    . rw [Number.rat_int, Int.cast_zero]
      exact ⟨le_rfl, le_max_left _ _, l.lies_nonneg place id, fun p i => by simp⟩

end

/-! ### Listing -/

/-- Enters the quantities of a layer into rows. -/
def fill (put : Number Rat → LedgerRow Rat → LedgerRow Rat) (items : Table (Number Rat))
    (rows : Table (LedgerRow Rat)) : Table (LedgerRow Rat) :=
  items.foldl (fun rows e => Table.set rows e.1 (put e.2 ((Table.get? rows e.1).getD {}))) rows

theorem nodup_fill (put : Number Rat → LedgerRow Rat → LedgerRow Rat) (items : Table (Number Rat))
    {rows : Table (LedgerRow Rat)} (h : (Table.names rows).Nodup)
    : (Table.names (fill put items rows)).Nodup := by
  unfold fill
  induction items generalizing rows with
  | nil => exact h
  | cons e items ih => exact ih (Table.nodup_names_set h)

theorem get?_fill (put : Number Rat → LedgerRow Rat → LedgerRow Rat) {items : Table (Number Rat)}
    (h : (Table.names items).Nodup) (rows : Table (LedgerRow Rat)) (item : String)
    : Table.get? (fill put items rows) item
      = match Table.get? items item with
        | some n => some (put n ((Table.get? rows item).getD {}))
        | none => Table.get? rows item := by
  unfold fill
  induction items generalizing rows with
  | nil => rfl
  | cons e items ih =>
    obtain ⟨name, n⟩ := e
    unfold Table.names at h
    rw [List.map_cons, List.nodup_cons] at h
    rw [List.foldl_cons, ih h.2, Table.get?_set, Table.get?_cons]
    by_cases hname : name = item
    . subst hname
      have hnone : Table.get? items name = none := by
        by_contra hsome
        exact h.1 (Table.has_iff_mem_names.mp (Option.isSome_iff_ne_none.mpr hsome))
      rw [hnone, if_pos rfl, if_pos rfl]
    . rw [if_neg hname, if_neg hname]

theorem nodup_items {layer : Layer Rat} (h : layer.Settled) (place : String)
    : (Table.names ((Table.get? layer place).getD [])).Nodup := by
  cases hitems : Table.get? layer place with
  | none => exact List.nodup_nil
  | some items => exact (h.items place items (Table.mem_of_get? hitems)).2

theorem rows_eq (l : Ledger Rat) (place : String)
    : l.rows place = fill (fun n r => { r with removed := n }) ((Table.get? l.removed place).getD [])
      (fill (fun n r => { r with added := n }) ((Table.get? l.added place).getD [])
        (fill (fun n r => { r with defaults := n }) ((Table.get? l.defaults place).getD []) [])) :=
  rfl

/-- The row of an item has what the layers say of it, where there is one; else they say nothing. -/
theorem get?_rows {l : Ledger Rat} (hl : l.Settled) (place item : String)
    : (Table.get? (l.rows place) item).getD {} = ⟨l.defaults.quantity place item,
      l.added.quantity place item, l.removed.quantity place item⟩ := by
  rw [rows_eq, get?_fill _ (nodup_items hl.removed place), get?_fill _ (nodup_items hl.added place),
    get?_fill _ (nodup_items hl.defaults place)]
  unfold Layer.quantity
  rw [Table.bind_get?, Table.bind_get?, Table.bind_get?]
  cases Table.get? ((Table.get? l.removed place).getD []) item with
  | none =>
    cases Table.get? ((Table.get? l.added place).getD []) item with
    | none => cases Table.get? ((Table.get? l.defaults place).getD []) item <;> rfl
    | some a => cases Table.get? ((Table.get? l.defaults place).getD []) item <;> rfl
  | some r =>
    cases Table.get? ((Table.get? l.added place).getD []) item with
    | none => cases Table.get? ((Table.get? l.defaults place).getD []) item <;> rfl
    | some a => cases Table.get? ((Table.get? l.defaults place).getD []) item <;> rfl

theorem nodup_rows (l : Ledger Rat) (place : String) : (Table.names (l.rows place)).Nodup := by
  have hempty : (Table.names ([] : Table (LedgerRow Rat))).Nodup := List.nodup_nil
  rw [rows_eq]
  exact nodup_fill _ _ (nodup_fill _ _ (nodup_fill _ _ hempty))

/-- A location is listed by what is counted there: every item of the list with its count, and of
every other item there is nothing. -/
theorem Settled.snapshot_eq_ok {l : Ledger Rat} (hl : l.Settled) (place : String)
    : ∃ rows, l.snapshot place = .ok rows
      ∧ (∀ item row net, (item, row, net) ∈ rows → l.count place item = .ok net)
      ∧ ∀ item, item ∉ rows.map Prod.fst → l.count place item = .ok (.int 0) := by
  let counted (item : String) := (l.count place item).toOption.getD (.int 0)
  have hcounted (item : String) : l.count place item = .ok (counted item) := by
    obtain ⟨n, hn, _⟩ := count_eq_ok l place item
    unfold counted
    rw [hn]
    rfl
  have hrow : ∀ e ∈ l.rows place, (do
      return (e.1, e.2, Number.clampBelow (← balance e.2.defaults e.2.added e.2.removed)))
      = (.ok (e.1, e.2, counted e.1) : Except Fault _) := by
    rintro ⟨item, row⟩ hmem
    have hget := get?_rows hl place item
    rw [Table.get?_of_mem (nodup_rows l place) hmem, Option.getD_some] at hget
    have hcount := hcounted item
    unfold count net at hcount
    rw [hget]
    obtain ⟨n, hn, hclamp⟩ := Fault.map_eq_ok.mp hcount
    rw [hn, ← hclamp]
    rfl
  refine ⟨(l.rows place).map fun e => (e.1, e.2, counted e.1), Fault.mapM_eq_ok hrow, ?_, ?_⟩
  . intro item row net hmem
    obtain ⟨e, _, heq⟩ := List.mem_map.mp hmem
    cases heq
    exact hcounted e.1
  . intro item hitem
    have hnone : Table.get? (l.rows place) item = none := by
      by_contra hsome
      have hname := Table.has_iff_mem_names.mp (Option.isSome_iff_ne_none.mpr hsome)
      apply hitem
      simpa [Table.names] using hname
    have hget := get?_rows hl place item
    rw [hnone, Option.getD_none] at hget
    obtain ⟨hdefaults, hadded, hremoved⟩ := LedgerRow.mk.inj hget
    unfold count net
    rw [← hdefaults, ← hadded, ← hremoved]
    rfl

/-! ### The laws -/

/-- The laws of an account that scenes, saves and trades have made. Two inventories are declared in
either order with the same counts, one declared twice is as if declared once, and no count gets less
by it. What is removed is as much as is there and asked for, and exactly that is missing afterwards.
What is listed of a location is what is counted. -/
theorem account_law {l : Ledger Rat} (hl : l.Arises)
    : (∀ location items location' items' p i,
        ((applyScene location' items').run ((applyScene location items).run l).2).2.lies p i
          = ((applyScene location items).run ((applyScene location' items').run l).2).2.lies p i)
      ∧ (∀ location items,
        ((applyScene location items).run ((applyScene location items).run l).2).2
          = ((applyScene location items).run l).2)
      ∧ (∀ location items, let l' := ((applyScene location items).run l).2
        l'.added = l.added ∧ l'.removed = l.removed ∧ ∀ p i, l.lies p i ≤ l'.lies p i)
      ∧ (∀ location item qty : Value Rat, ∀ place id, location.text? = .ok place →
        item.text? = .ok id → ∃ asked taken l', quantity qty 1 = .ok asked
          ∧ (Ledger.remove location item qty).run l = (.ok taken, l')
          ∧ l.Removes place id asked.rat taken.rat l')
      ∧ ∀ place, ∃ rows, l.snapshot place = .ok rows
        ∧ (∀ item row net, (item, row, net) ∈ rows → l.count place item = .ok net)
        ∧ ∀ item, item ∉ rows.map Prod.fst → l.count place item = .ok (.int 0) := by
  have hsettled := hl.settled
  refine ⟨?comm, ?again, ?rises, ?removes, ?lists⟩
  case comm =>
    intro location items location' items' p i
    obtain ⟨offer, hjoins⟩ := exists_joins location items
    obtain ⟨offer', hjoins'⟩ := exists_joins location' items'
    exact hjoins.lies_comm hjoins' hsettled (keeps_applyScene location items)
      (keeps_applyScene location' items') p i
  case again =>
    intro location items
    obtain ⟨offer, hjoins⟩ := exists_joins location items
    exact hjoins.run_again hsettled
  case rises =>
    intro location items
    obtain ⟨offer, hjoins⟩ := exists_joins location items
    exact ⟨hjoins.added l, hjoins.removed l, hjoins.le_lies hsettled⟩
  case removes =>
    intro location item qty place id hplace hid
    exact hsettled.run_remove_any hplace hid qty
  case lists => exact hsettled.snapshot_eq_ok

/-- A save has one and a half apples at the inn, and five pears gone from there that never were. Of
two apples that are asked for one and a half are taken; of seven pears that a scene declares two
are there, however often it does. -/
theorem account_law_apple
    : let save : Value Rat := .object [("defaults", .object [("inn", .object [("apple", .real (3 / 2))])]),
        ("removed", .object [("inn", .object [("pear", .int 5)])])]
      let l : Ledger Rat := ((load save).run {}).2
      let pears : Value Rat := .list [.object [("id", .text "pear"), ("count", .text "7")]]
      let seeded := ((applyScene (.text "inn") pears).run l).2
      l.Removes "inn" "apple" 2 (3 / 2) ((Ledger.remove (.text "inn") (.text "apple") (.int 2)).run l).2
        ∧ seeded.lies "inn" "pear" = 2
        ∧ ((applyScene (.text "inn") pears).run seeded).2 = seeded := by
  intro save l pears seeded
  obtain ⟨_, hagain, _, hremoves, _⟩ := account_law (.load .empty save : l.Arises)
  obtain ⟨asked, taken, l', hasked, hrun, hremoves⟩ := hremoves (.text "inn") (.text "apple") (.int 2)
    "inn" "apple" (Value.text?_text _) (Value.text?_text _)
  have htwo : (quantity (.int 2 : Value Rat) 1).toOption.map Number.rat = some 2 := by decide +kernel
  have htaken : ((Ledger.remove (.text "inn") (.text "apple") (.int 2)).run l).1.toOption.map
      Number.rat = some (3 / 2) := by decide +kernel
  rw [hasked] at htwo
  rw [hrun] at htaken ⊢
  rw [Option.some.inj htwo, Option.some.inj htaken] at hremoves
  exact ⟨hremoves, by decide +kernel, hagain (.text "inn") pears⟩

end Storyworld.Ledger
