import Mathlib.Data.Rat.Floor
import Storyworld.Proofs.Accounts

/-!
This module contains what taking and dropping transfer between a location and the player. The account
of a location counts in fractions too and takes ids as they are written; what is carried is counted
in whole numbers, under ids without blanks around.
-/

namespace Storyworld

theorem Number.truncate_of_nonneg {n : Number Rat} (h : 0 ≤ n.rat)
    : n.truncate = .ok (⌊n.rat⌋₊ : Int) := by
  unfold truncate
  rw [extent_eq_rat]
  dsimp only
  rw [Int.natCast_floor_eq_floor h, Rat.floor_def', Rat.truncate,
    Int.tdiv_eq_ediv_of_nonneg (Rat.num_nonneg.mpr h)]

/-! ### Accounts -/

namespace Layer

theorem Settled.quantity_nonneg {layer : Layer Rat} (h : layer.Settled) (place item : String)
    : 0 ≤ (layer.quantity place item).rat := by
  unfold quantity
  cases hitems : Table.get? layer place with
  | none => simp
  | some items =>
    rw [Option.bind_some]
    cases hn : Table.get? items item with
    | none => simp
    | some n => exact h.nonneg place items (Table.mem_of_get? hitems) item n (Table.mem_of_get? hn)

end Layer

namespace Ledger

/-- Accounts as scenes, saves and trades make them. -/
inductive Arises : Ledger Rat → Prop where
  | empty : Arises {}
  | declare {l : Ledger Rat} (h : Arises l) (location items : Value Rat) :
    Arises ((applyScene location items).run l).2
  | load {l : Ledger Rat} (h : Arises l) (payload : Value Rat) : Arises ((load payload).run l).2
  | add {l : Ledger Rat} (h : Arises l) (location item qty : Value Rat) :
    Arises ((Ledger.add location item qty).run l).2
  | remove {l : Ledger Rat} (h : Arises l) (location item qty : Value Rat) :
    Arises ((Ledger.remove location item qty).run l).2

theorem keeps_loadLayer (ms : List (String × Value Rat))
    : Act.Keeps Layer.Settled (loadLayer ms) := by
  have hitems (location : String) (items : List (String × Value Rat)) :
      Act.Keeps Layer.Settled (loadItems location items) := by
    induction items with
    | nil => apply Act.keeps_pure
    | cons m items ih =>
      unfold loadItems
      refine Act.keeps_bind (Act.keeps_lift _) fun n => ?_
      refine Act.keeps_bind (Act.keeps_modify fun layer h => h.put location _ n) fun _ => ih
  induction ms with
  | nil => apply Act.keeps_pure
  | cons m ms ih =>
    unfold loadLayer
    exact Act.keeps_bind (hitems _ _) fun _ => ih

theorem keeps_load (payload : Value Rat) : Act.Keeps Settled (load payload) := by
  unfold load
  refine Act.keeps_bind (Act.keeps_set settled_empty) fun _ => ?_
  refine Act.keeps_bind ?defaults fun _ => ?_
  case defaults =>
    exact Act.keeps_within (keeps_loadLayer _) (fun l hl => hl.defaults)
      fun l t hl ht => { hl with defaults := ht }
  refine Act.keeps_bind ?added fun _ => ?_
  case added =>
    exact Act.keeps_within (keeps_loadLayer _) (fun l hl => hl.added)
      fun l t hl ht => { hl with added := ht }
  exact Act.keeps_within (keeps_loadLayer _) (fun l hl => hl.removed)
    fun l t hl ht => { hl with removed := ht }

theorem Arises.settled {l : Ledger Rat} (h : Arises l) : l.Settled := by
  induction h with
  | empty => exact settled_empty
  | declare _ location items ih => exact keeps_applyScene location items _ ih
  | load _ payload ih => exact keeps_load payload _ ih
  | add _ location item qty ih => exact keeps_add location item qty _ ih
  | remove _ location item qty ih => exact keeps_remove location item qty _ ih

theorem count_eq_ok (l : Ledger Rat) (place item : String)
    : ∃ n, l.count place item = .ok n ∧ n.rat = max 0 (l.stock place item) := by
  obtain ⟨net, hnet, hrat⟩ := net_eq_ok l place item
  refine ⟨net.clampBelow, ?_, by rw [Layer.rat_clampBelow, hrat]⟩
  unfold count
  rw [hnet]
  rfl

/-- How much of an item is said to lie at a location. -/
def lies (l : Ledger Rat) (place item : String) : Rat :=
  ((l.count place item).toOption.getD (.int 0)).rat

theorem lies_eq (l : Ledger Rat) (place item : String)
    : l.lies place item = max 0 (l.stock place item) := by
  obtain ⟨n, hn, hrat⟩ := count_eq_ok l place item
  unfold lies
  rw [hn]
  exact hrat

theorem lies_nonneg (l : Ledger Rat) (place item : String) : 0 ≤ l.lies place item := by
  rw [lies_eq]
  exact le_max_left _ _

section

variable {location item : Value Rat} {place id : String} {l : Ledger Rat}

/-- Of one item there is so much more at one place, as far as the layers go; all else is as it was. -/
def Changes (place id : String) (change : Rat) (l l' : Ledger Rat) : Prop :=
  ∀ p i, l'.stock p i = l.stock p i + if p = place ∧ i = id then change else 0

theorem changes_zero (place id : String) (l : Ledger Rat) : l.Changes place id 0 l := by
  intro p i
  simp

theorem Changes.lies {change : Rat} {l' : Ledger Rat} (h : l.Changes place id change l')
    : l'.lies place id = max 0 (l.stock place id + change) := by
  rw [lies_eq, h, if_pos ⟨rfl, rfl⟩]

/-- Where no more goes than is said to lie there, that much less is said to lie there afterwards. -/
theorem Changes.lies_sub {taken : Rat} {l' : Ledger Rat} (h : l.Changes place id (-taken) l')
    (hnonneg : 0 ≤ taken) (hle : taken ≤ l.lies place id)
    : l'.lies place id = l.lies place id - taken := by
  rw [h.lies, lies_eq]
  rw [lies_eq] at hle
  rcases le_total (l.stock place id) 0 with hstock | hstock
  . rw [max_eq_left hstock] at hle ⊢
    rw [le_antisymm hle hnonneg, neg_zero, add_zero, max_eq_left hstock, sub_zero]
  . rw [max_eq_right hstock] at hle ⊢
    rw [← sub_eq_add_neg, max_eq_right (sub_nonneg.mpr hle)]

theorem Settled.run_add (hlocation : location.isGiven = true) (hplace : location.text? = .ok place)
    (hitem : item.isGiven = true) (hid : item.text? = .ok id) (hl : l.Settled) (n : Nat)
    : ∃ l', (Ledger.add location item (.int n)).run l = (.ok (), l') ∧ l.Changes place id n l' := by
  obtain ⟨total, hrat, hrun⟩ := run_add_nat hlocation hplace hitem hid l n
  have hnonneg : 0 ≤ total.rat := by
    have := hl.added.quantity_nonneg place id
    rw [hrat]
    positivity
  refine ⟨_, hrun, ?_⟩
  split
  next hn =>
    rw [hn, Nat.cast_zero]
    exact changes_zero place id l
  next =>
    intro p i
    unfold stock
    rw [Layer.rat_put hrat hnonneg]
    ring

theorem Settled.run_remove_of_quantity (hlocation : location.isGiven = true)
    (hplace : location.text? = .ok place) (hitem : item.isGiven = true)
    (hid : item.text? = .ok id) (hl : l.Settled) {qty : Value Rat} {amount : Number Rat}
    (hquantity : quantity qty 1 = .ok amount)
    : ∃ taken l', (Ledger.remove location item qty).run l = (.ok taken, l')
      ∧ taken.rat = max 0 (min (l.stock place id) amount.rat)
      ∧ l.Changes place id (-taken.rat) l' := by
  obtain ⟨taken, total, htaken, hrat, hrun⟩ :=
    Ledger.run_remove_of_quantity hlocation hplace hitem hid hquantity l
  have hsome : 0 ≤ taken.rat := htaken ▸ le_max_left _ _
  have hnonneg : 0 ≤ total.rat := by
    have := hl.removed.quantity_nonneg place id
    rw [hrat]
    positivity
  refine ⟨taken, _, hrun, htaken, ?_⟩
  split
  next =>
    intro p i
    unfold stock
    rw [Layer.rat_put hrat hnonneg]
    split
    . ring
    . ring
  next hnone =>
    rw [le_antisymm (not_lt.mp hnone) hsome, neg_zero]
    exact changes_zero place id l

/-- What is taken away is so much as is said to lie there, and at most as much as was asked for. -/
theorem Settled.run_remove (hlocation : location.isGiven = true)
    (hplace : location.text? = .ok place) (hitem : item.isGiven = true)
    (hid : item.text? = .ok id) (hl : l.Settled) (n : Nat)
    : ∃ taken l', (Ledger.remove location item (.int n)).run l = (.ok taken, l')
      ∧ taken.rat = min (l.lies place id) n ∧ l.Changes place id (-taken.rat) l' := by
  obtain ⟨amount, hquantity, hamount, _⟩ := quantity_nat n 1
  obtain ⟨taken, l', hrun, htaken, hchanges⟩ :=
    hl.run_remove_of_quantity hlocation hplace hitem hid hquantity
  refine ⟨taken, l', hrun, ?_, hchanges⟩
  have hn : (0 : Rat) ≤ n := Nat.cast_nonneg n
  rw [htaken, hamount, max_min_distrib_left, max_eq_right hn, lies_eq]

end

end Ledger

/-! ### Transfers -/

namespace Belongings

/-- So much of an item is taken from a location: the player has the whole part of that, under the id
without blanks around, if anything is left of it. -/
structure Takes (place id : String) (taken : Rat) (b b' : Belongings Rat) : Prop where
  lies : b.ledger.Changes place id (-taken) b'.ledger
  carried : ∀ i, b'.inventory.count i
    = b.inventory.count i + if i = Text.strip id ∧ i ≠ "" then ⌊taken⌋₊ else 0

/-- So many of an item, under the id without blanks around, are put down at a location, under the id
as it is written. -/
structure Drops (place id : String) (dropped : Nat) (b b' : Belongings Rat) : Prop where
  lies : b.ledger.Changes place id dropped b'.ledger
  carried : ∀ i, b'.inventory.count i
    = b.inventory.count i - if i = Text.strip id then dropped else 0

/-- The player has so much more of an item as less of it is said to lie at a location. -/
def Exact (place id : String) (b b' : Belongings Rat) : Prop :=
  (b'.inventory.count id : Rat) - b.inventory.count id
    = b.ledger.lies place id - b'.ledger.lies place id

section

variable {place id : String} {b b' : Belongings Rat}

theorem Takes.exact_iff {taken : Rat} (h : Takes place id taken b b') (hnonneg : 0 ≤ taken)
    (hle : taken ≤ b.ledger.lies place id) (hne : taken = 0 ∨ id ≠ "")
    : Exact place id b b' ↔ taken = 0 ∨ Text.strip id = id ∧ ∃ k : Nat, taken = k := by
  unfold Exact
  rw [h.lies.lies_sub hnonneg hle, h.carried, sub_sub_cancel, Nat.cast_add, add_sub_cancel_left]
  by_cases hid : id = Text.strip id ∧ id ≠ ""
  . rw [if_pos hid]
    constructor
    . intro heq
      exact .inr ⟨hid.1.symm, _, heq.symm⟩
    . rintro (rfl | ⟨_, k, rfl⟩)
      . simp
      . simp
  . rw [if_neg hid, Nat.cast_zero]
    constructor
    . intro heq
      exact .inl heq.symm
    . rintro (rfl | ⟨hstrip, _⟩)
      . rfl
      . rcases hne with rfl | hne
        . rfl
        . exact absurd ⟨hstrip.symm, hne⟩ hid

theorem Drops.exact_iff {dropped : Nat} (h : Drops place id dropped b b')
    (hle : dropped ≤ b.inventory.count (Text.strip id))
    : Exact place id b b' ↔ dropped = 0 ∨ (Text.strip id = id ∧ 0 ≤ b.ledger.stock place id)
      ∨ (Text.strip id ≠ id ∧ b.ledger.stock place id + dropped ≤ 0) := by
  unfold Exact
  rw [h.lies.lies, h.carried, Ledger.lies_eq]
  generalize b.ledger.stock place id = stock
  have hdropped : (0 : Rat) ≤ dropped := Nat.cast_nonneg dropped
  rcases Nat.eq_zero_or_pos dropped with rfl | hpos
  . simp
  have hsome : (0 : Rat) < dropped := Nat.cast_pos.mpr hpos
  by_cases hid : Text.strip id = id
  . rw [hid] at hle
    rw [if_pos hid.symm, Nat.cast_sub hle]
    simp only [hid, hpos.ne', ne_eq, not_true_eq_false, false_and, true_and, or_false, false_or]
    rcases le_or_gt 0 stock with hstock | hstock
    . rw [max_eq_right hstock, max_eq_right (by linarith)]
      simp only [hstock, iff_true]
      ring
    . -- what was missing of the account is made up first
      have hless : max 0 (stock + dropped) < dropped := max_lt hsome (by linarith)
      rw [max_eq_left hstock.le]
      constructor
      . intro heq
        linarith
      . intro hstock'
        linarith
  . simp only [hid, Ne.symm hid, hpos.ne', if_false, Nat.sub_zero, sub_self, ne_eq,
      not_false_eq_true, false_and, true_and, false_or]
    rw [eq_comm, sub_eq_zero]
    rcases le_or_gt (stock + dropped) 0 with hsum | hsum
    . rw [max_eq_left hsum, max_eq_left (by linarith)]
      simp [hsum]
    . have hmore : max 0 stock < stock + dropped := max_lt hsum (by linarith)
      rw [max_eq_right hsum.le]
      simp only [hmore.ne, hsum.not_ge]

end

section

variable {σ : Type} (lookup : ItemLookup Rat σ) {here item : Value Rat} {place id : String}
  {b : Belongings Rat}

/-- Nothing comes in of an item without an id. -/
theorem run_receive_key {key : String} (hkey : item.key? = .ok key) (n : Nat)
    (b : Belongings Rat) (src : σ)
    : ∃ m b' src', (receive lookup item (.int n)).run (b, src) = (.ok m, b', src')
      ∧ b'.ledger = b.ledger
      ∧ ∀ i, b'.inventory.count i = b.inventory.count i + if i = key ∧ i ≠ "" then n else 0 := by
  by_cases hne : key = ""
  . subst hne
    refine ⟨0, b, src, ?_, rfl, fun i => by simp⟩
    unfold receive onInventory Inventory.add
    simp only [Act.run_bind, Act.run_onFirst, Act.run_within, Act.run_lift, hkey,
      Inventory.count_int, true_or, if_true]
    rfl
  . obtain ⟨b', src', hrun, hledger, hcount⟩ := run_receive lookup hkey hne n b src
    refine ⟨n, b', src', hrun, hledger, fun i => ?_⟩
    rw [hcount]
    by_cases hi : i = key
    . simp [hi, hne]
    . simp [hi]

theorem run_take (hhere : here.isGiven = true) (hplace : here.text? = .ok place)
    (hitem : item.isGiven = true) (hid : item.text? = .ok id) (hb : b.ledger.Settled) (n : Nat)
    (src : σ)
    : ∃ b' src', (take lookup here item n).run (b, src) = (.ok (), b', src')
      ∧ Takes place id (min (b.ledger.lies place id) n) b b' := by
  obtain ⟨taken, l', hremove, htaken, hchanges⟩ := hb.run_remove hhere hplace hitem hid n
  have hnonneg : 0 ≤ taken.rat := by
    rw [htaken]
    exact le_min (b.ledger.lies_nonneg place id) (Nat.cast_nonneg n)
  rw [← htaken]
  unfold take onLedger
  simp only [Act.run_bind, Act.run_onFirst, Act.run_within, hremove, Number.lt_eq_rat,
    Number.rat_int, Int.cast_zero]
  by_cases hsome : 0 < taken.rat
  . obtain ⟨m, b', src', hreceive, hledger, hcount⟩ := run_receive_key lookup
      (Value.key?_of_text? hitem hid) ⌊taken.rat⌋₊ { b with ledger := l' } src
    simp only [hsome, decide_true, if_true, Act.run_bind, Act.run_lift,
      Number.truncate_of_nonneg hnonneg, hreceive, Act.run_pure]
    refine ⟨b', src', rfl, ?_, hcount⟩
    rw [hledger]
    exact hchanges
  . have hnone : taken.rat = 0 := le_antisymm (not_lt.mp hsome) hnonneg
    simp only [hsome, decide_false, Bool.false_eq_true, if_false, Act.run_pure]
    exact ⟨{ b with ledger := l' }, src, rfl, hchanges, fun i => by simp [hnone]⟩

theorem run_drop (hhere : here.isGiven = true) (hplace : here.text? = .ok place)
    (hitem : item.isGiven = true) (hid : item.text? = .ok id) (hb : b.ledger.Settled) (n : Nat)
    (src : σ)
    : ∃ b' src', (drop lookup here item n).run (b, src) = (.ok (), b', src')
      ∧ Drops place id (min (b.inventory.count (Text.strip id)) n) b b' := by
  obtain ⟨b₁, src₁, hsurrender, hledger, hcount⟩ :=
    run_surrender lookup (Value.key?_of_text? hitem hid) n b src
  generalize min (b.inventory.count (Text.strip id)) n = dropped at *
  unfold drop onLedger
  rw [Act.run_bind, hsurrender]
  dsimp only
  rcases Nat.eq_zero_or_pos dropped with rfl | hpos
  . refine ⟨b₁, src₁, rfl, ?_, hcount⟩
    rw [hledger, Nat.cast_zero]
    exact Ledger.changes_zero place id b.ledger
  . obtain ⟨l', hadd, hchanges⟩ :=
      Ledger.Settled.run_add hhere hplace hitem hid (hledger ▸ hb) dropped
    simp only [hpos, if_true, Act.run_onFirst, Act.run_within, hadd]
    refine ⟨{ b₁ with ledger := l' }, src₁, rfl, ?_, hcount⟩
    rw [← hledger]
    exact hchanges

/-- How much of an item a taking event takes at a place. -/
def takable (here : Value Rat) (place id : String) (b : Belongings Rat) (e : DomainEvent Rat) :
    Rat :=
  if here.isGiven then min (b.ledger.lies place id) (asked e id) else 0

/-- How many of an item a dropping event puts down. -/
def droppable (here : Value Rat) (id : String) (b : Belongings Rat) (e : DomainEvent Rat) : Nat :=
  if here.isGiven then min (b.inventory.count (Text.strip id)) (asked e id) else 0

theorem takable_nonneg (here : Value Rat) (place id : String) (b : Belongings Rat)
    (e : DomainEvent Rat) : 0 ≤ takable here place id b e := by
  unfold takable
  split
  . exact le_min (b.ledger.lies_nonneg place id) (Nat.cast_nonneg _)
  . exact le_rfl

theorem takable_le (here : Value Rat) (place id : String) (b : Belongings Rat) (e : DomainEvent Rat)
    : takable here place id b e ≤ b.ledger.lies place id := by
  unfold takable
  split
  . exact min_le_left _ _
  . exact b.ledger.lies_nonneg place id

theorem droppable_le (here : Value Rat) (id : String) (b : Belongings Rat) (e : DomainEvent Rat)
    : droppable here id b e ≤ b.inventory.count (Text.strip id) := by
  unfold droppable
  split
  . exact min_le_left _ _
  . exact Nat.zero_le _

theorem takes_zero (place id : String) (b : Belongings Rat) : Takes place id 0 b b where
  lies := by simpa using Ledger.changes_zero place id b.ledger
  carried i := by simp

theorem drops_zero (place id : String) (b : Belongings Rat) : Drops place id 0 b b where
  lies := by simpa using Ledger.changes_zero place id b.ledger
  carried i := by simp

/-- An event about an item is handed on where the player is somewhere, and else nothing is moved. -/
theorem handle_cases {verb : ItemVerb} {trade : Value Rat → Nat → Act (Belongings Rat × σ) Unit}
    (htrade : verb = .take ∧ trade = take lookup here ∨ verb = .drop ∧ trade = drop lookup here)
    {e : DomainEvent Rat} (he : ∀ item ∈ e.args.head?, item.text? = .ok id) (s : Belongings Rat × σ)
    : ((handle lookup verb (.ok here) e).run s = (.ok (), s)
        ∧ (here.isGiven = true → asked e id = 0))
      ∨ ∃ item, here.isGiven = true ∧ item.isGiven = true ∧ item.text? = .ok id
        ∧ (handle lookup verb (.ok here) e).run s = (trade item (asked e id)).run s := by
  by_cases hidle : ∀ item ∈ e.args.head?, item.isGiven = false
  . exact .inl ⟨run_handle_of_not lookup hidle verb _ s, fun _ => asked_of_not hidle id⟩
  . obtain ⟨item, args, hargs, hitem⟩ := exists_item_of_not hidle
    have hid := he item (by rw [hargs]; rfl)
    obtain ⟨n, hn⟩ := eventQuantity_ok e.args
    have hasked : asked e id = n := by
      rw [asked_eq hargs hitem hid hn, if_pos rfl]
    unfold handle
    rw [hargs] at hn ⊢
    by_cases hhere : here.isGiven = true
    . refine .inr ⟨item, hhere, hitem, hid, ?_⟩
      rcases htrade with ⟨rfl, rfl⟩ | ⟨rfl, rfl⟩
      . simp [hitem, hhere, hn, hasked]
      . simp [hitem, hhere, hn, hasked]
    . refine .inl ⟨?_, fun h => absurd h hhere⟩
      rcases htrade with ⟨rfl, rfl⟩ | ⟨rfl, rfl⟩
      . simp [hitem, hhere]
      . simp [hitem, hhere]

theorem run_handle_take (hb : b.ledger.Settled) (hplace : here.text? = .ok place)
    {e : DomainEvent Rat} (he : ∀ item ∈ e.args.head?, item.text? = .ok id) (src : σ)
    : ∃ b' src', (handle lookup .take (.ok here) e).run (b, src) = (.ok (), b', src')
      ∧ Takes place id (takable here place id b e) b b' := by
  unfold takable
  rcases handle_cases lookup (.inl ⟨rfl, rfl⟩) he (b, src) with
    ⟨hrun, hnone⟩ | ⟨item, hhere, hitem, hid, hrun⟩
  . refine ⟨b, src, hrun, ?_⟩
    split
    next hhere =>
      rw [hnone hhere, Nat.cast_zero, min_eq_right (b.ledger.lies_nonneg place id)]
      exact takes_zero place id b
    next => exact takes_zero place id b
  . rw [hrun, if_pos hhere]
    exact run_take lookup hhere hplace hitem hid hb (asked e id) src

theorem run_handle_drop (hb : b.ledger.Settled) (hplace : here.text? = .ok place)
    {e : DomainEvent Rat} (he : ∀ item ∈ e.args.head?, item.text? = .ok id) (src : σ)
    : ∃ b' src', (handle lookup .drop (.ok here) e).run (b, src) = (.ok (), b', src')
      ∧ Drops place id (droppable here id b e) b b' := by
  unfold droppable
  rcases handle_cases lookup (.inr ⟨rfl, rfl⟩) he (b, src) with
    ⟨hrun, hnone⟩ | ⟨item, hhere, hitem, hid, hrun⟩
  . refine ⟨b, src, hrun, ?_⟩
    split
    next hhere =>
      rw [hnone hhere, Nat.min_zero]
      exact drops_zero place id b
    next => exact drops_zero place id b
  . rw [hrun, if_pos hhere]
    exact run_drop lookup hhere hplace hitem hid hb (asked e id) src

/-- Nothing is taken of an item without an id. -/
theorem takable_eq_zero {e : DomainEvent Rat}
    (he : ∀ item ∈ e.args.head?, item.text? = .ok "") : takable here place "" b e = 0 := by
  have hidle : asked e "" = 0 := by
    apply asked_of_not
    intro item hitem
    by_contra hgiven
    exact Value.display_ne_empty Value.spell_ne_empty (by simpa using hgiven)
      (Value.display_of_text? (he item hitem))
  unfold takable
  rw [hidle, Nat.cast_zero, min_eq_right (b.ledger.lies_nonneg place ""), ite_self]

end

end Belongings

end Storyworld
