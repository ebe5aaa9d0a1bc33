import Storyworld.Proofs.Belongings

/-!
This module contains what those who listen to an inventory are told. Whoever counts the changes that a
listener hears of knows the counts, whatever the other listeners do, as long as none of them trades.
-/

namespace Storyworld

namespace Inventory

/-! ### Listeners -/

/-- A state with an inventory in it, and what its listeners do when they hear of a change. They may
stop, and change all but the inventory. -/
structure Audience (σ : Type) where
  inventory : σ → Inventory
  replace : Inventory → σ → σ
  hear : String → InventoryChange → Act σ Unit
  inventory_replace : ∀ inv s, inventory (replace inv s) = inv
  replace_inventory : ∀ s, replace (inventory s) s = s
  inventory_hear : ∀ listener change s, inventory ((hear listener change).run s).2 = inventory s

variable {ρ σ : Type} [Scalar ρ]

/-- The same listeners, while it is noted which of them hears of what. -/
def Audience.noted (a : Audience σ) : Audience (σ × List (String × InventoryChange)) where
  inventory s := a.inventory s.1
  replace inv s := (a.replace inv s.1, s.2)
  hear listener change := do
    Act.onSecond (modify (· ++ [(listener, change)]))
    Act.onFirst (a.hear listener change)
  inventory_replace inv s := a.inventory_replace inv s.1
  replace_inventory s := by rw [a.replace_inventory]
  inventory_hear listener change s := a.inventory_hear listener change s.1

theorem Audience.inventory_deliver (a : Audience σ) (notices : List (String × InventoryChange)) (s : σ)
    : a.inventory ((deliver a.hear notices).run s).2 = a.inventory s :=
  keeps_deliver (P := fun t => a.inventory t = a.inventory s)
    (fun listener change t ht => (a.inventory_hear listener change t).trans ht) notices s rfl

theorem Audience.run_deliver_noted (a : Audience σ) (notices log : List (String × InventoryChange))
    (s : σ)
    : (deliver a.noted.hear notices).run (s, log)
      = (.ok (), ((deliver a.hear notices).run s).2, log ++ notices) := by
  induction notices generalizing s log with
  | nil => simp [deliver]
  | cons notice notices ih =>
    obtain ⟨listener, change⟩ := notice
    have hhear : (a.noted.hear listener change).run (s, log)
        = (((a.hear listener change).run s).1, ((a.hear listener change).run s).2,
          log ++ [(listener, change)]) := rfl
    unfold deliver
    rw [Act.run_bind, Act.run_bind, Act.run_attempt, Act.run_attempt, hhear]
    dsimp only
    rw [ih, List.append_assoc]
    rfl

/-! ### Trades -/

inductive Flow where
  | add
  | remove

/-- Something that comes in or goes out, as it is asked for. -/
structure Trade (ρ : Type) where
  flow : Flow
  id : Value ρ
  qty : Value ρ := .int 1

namespace Trade

def act (t : Trade ρ) : Act Inventory (Nat × List (String × InventoryChange)) :=
  match t.flow with
  | .add => add t.id t.qty
  | .remove => remove t.id t.qty

/-- By how much a trade changes the count of an item, where so many are asked for and held. -/
def delta (t : Trade ρ) (key : String) (amount held : Nat) : Int :=
  match t.flow with
  | .add => if key = "" then 0 else amount
  | .remove => -(min held amount : Nat)

def play (a : Audience σ) (t : Trade ρ) : Act σ Nat := do
  let (amount, notices) ← Act.within a.inventory a.replace t.act
  deliver a.hear notices
  return amount

/-- Who hears of what when a trade is played. -/
def told (a : Audience σ) (t : Trade ρ) (s : σ) : List (String × InventoryChange) :=
  ((t.play a.noted).run (s, [])).2.2

end Trade

/-- The count of one item is changed, and nothing else is. -/
structure Moves (inv : Inventory) (key : String) (delta : Int) (inv' : Inventory) : Prop where
  listeners : inv'.listeners = inv.listeners
  count : ∀ id, (inv'.count id : Int) = inv.count id + if id = key then delta else 0
  stocked : Stocked inv.counts → Stocked inv'.counts
  same : delta = 0 → inv' = inv

theorem moves_zero (inv : Inventory) (key : String) : Moves inv key 0 inv where
  listeners := rfl
  count id := by simp
  stocked h := h
  same _ := rfl

theorem moves_set {inv : Inventory} {key : String} {n : Nat} (hn : 0 < n) {delta : Int}
    (hdelta : (n : Int) = inv.count key + delta) (hne : delta ≠ 0)
    : Moves inv key delta { inv with counts := Table.set inv.counts key n } where
  listeners := rfl
  count id := by
    unfold count at hdelta ⊢
    dsimp only
    rw [Table.get?_set]
    split
    next h =>
      subst h
      simpa using hdelta
    next h => simp [Ne.symm h]
  stocked h := h.set key hn
  same h := absurd h hne

theorem moves_erase {inv : Inventory} {key : String} (hheld : inv.count key ≠ 0)
    : Moves inv key (-(inv.count key : Int)) { inv with counts := Table.erase inv.counts key } where
  listeners := rfl
  count id := by
    unfold count
    dsimp only
    rw [Table.get?_erase]
    split
    next h => simp [h]
    next h => simp [Ne.symm h]
  stocked h := h.erase key
  same h := by omega

theorem run_add_moves {id qty : Value ρ} {key : String} {amount : Nat} (hkey : id.key? = .ok key)
    (hamount : qty.count 1 = .ok amount) (inv : Inventory)
    : let delta : Int := if key = "" then 0 else amount
      ∃ inv', Moves inv key delta inv'
        ∧ (add id qty).run inv = (.ok (delta.natAbs,
          if delta = 0 then [] else inv.notices ⟨key, delta, inv'.count key⟩), inv') := by
  unfold add
  simp only [Act.run_bind, Act.run_lift, hkey, hamount]
  by_cases hnone : key = "" ∨ amount = 0
  . have hdelta : (if key = "" then 0 else (amount : Int)) = 0 := by
      rcases hnone with hkey | hamount
      . rw [if_pos hkey]
      . rw [hamount]
        simp
    rw [hdelta, if_pos hnone]
    exact ⟨inv, moves_zero inv key, by simp⟩
  . rw [if_neg hnone]
    rw [not_or] at hnone
    have hne : (amount : Int) ≠ 0 := by exact_mod_cast hnone.2
    rw [if_neg hnone.1]
    refine ⟨_, moves_set (n := inv.count key + amount) (by omega) (by push_cast; rfl) hne, ?_⟩
    rw [if_neg hne]
    simp [count, Except.map]

theorem run_remove_moves {id qty : Value ρ} {key : String} {amount : Nat} (hkey : id.key? = .ok key)
    (hamount : qty.count 1 = .ok amount) (inv : Inventory)
    : let delta : Int := -(min (inv.count key) amount : Nat)
      ∃ inv', Moves inv key delta inv'
        ∧ (remove id qty).run inv = (.ok (delta.natAbs,
          if delta = 0 then [] else inv.notices ⟨key, delta, inv'.count key⟩), inv') := by
  unfold remove
  simp only [Act.run_bind, Act.run_lift, Act.run_get, hkey, hamount]
  by_cases hnone : min (inv.count key) amount = 0
  . rw [hnone]
    exact ⟨inv, moves_zero inv key, by simp⟩
  . have hne : -((min (inv.count key) amount : Nat) : Int) ≠ 0 := by omega
    rw [if_neg hnone]
    by_cases hleft : inv.count key - min (inv.count key) amount = 0
    . have hall : min (inv.count key) amount = inv.count key := by omega
      rw [hall] at hnone hne ⊢
      refine ⟨_, moves_erase hnone, ?_⟩
      rw [if_neg hne]
      simp [count, Table.get?_erase, Except.map]
    . refine ⟨_, moves_set (Nat.pos_of_ne_zero hleft) (by omega) hne, ?_⟩
      rw [if_neg hne, if_neg hleft, Int.natAbs_neg, Int.natAbs_natCast]
      simp [count, Except.map]

theorem run_act {t : Trade ρ} {key : String} {amount : Nat} (hkey : t.id.key? = .ok key)
    (hamount : t.qty.count 1 = .ok amount) (inv : Inventory)
    : let delta := t.delta key amount (inv.count key)
      ∃ inv', Moves inv key delta inv'
        ∧ t.act.run inv = (.ok (delta.natAbs,
          if delta = 0 then [] else inv.notices ⟨key, delta, inv'.count key⟩), inv') := by
  obtain ⟨flow, id, qty⟩ := t
  cases flow with
  | add => exact run_add_moves hkey hamount inv
  | remove => exact run_remove_moves hkey hamount inv

theorem run_act_stopped {t : Trade ρ} (h : ¬ (t.id.key?.isOk = true ∧ (t.qty.count 1).isOk = true))
    (inv : Inventory) : ∃ e, t.act.run inv = (.error e, inv) := by
  obtain ⟨flow, id, qty⟩ := t
  dsimp only at h
  have hrun (f : String → Nat → Act Inventory (Nat × List (String × InventoryChange)))
      : ∃ e, (do f (← Act.lift id.key?) (← Act.lift (qty.count 1))).run inv = (.error e, inv) := by
    rw [Act.run_bind, Act.run_lift]
    cases hkey : id.key? with
    | error e => exact ⟨e, rfl⟩
    | ok key =>
      dsimp only
      rw [Act.run_bind, Act.run_lift]
      cases hcount : qty.count 1 with
      | error e => exact ⟨e, rfl⟩
      | ok amount => simp [hkey, hcount] at h
  cases flow with
  | add => exact hrun _
  | remove => exact hrun _

/-! ### What is told of a trade -/

/-- A trade that cannot be read changes nothing and is told to nobody. Any other one changes the count
of one item, by as much as it says, and everyone who listens hears of that once. -/
structure Accounts (a : Audience σ) (t : Trade ρ) (s : σ) : Prop where
  noted : (((t.play a.noted).run (s, [])).1, ((t.play a.noted).run (s, [])).2.1) = (t.play a).run s
  isOk_iff : ((t.play a).run s).1.isOk = true ↔ t.id.key?.isOk = true ∧ (t.qty.count 1).isOk = true
  stops : ((t.play a).run s).1.isOk = false → ((t.play a).run s).2 = s ∧ t.told a s = []
  moves : ∀ key amount, t.id.key? = .ok key → t.qty.count 1 = .ok amount →
    let delta := t.delta key amount ((a.inventory s).count key)
    let inv' := a.inventory ((t.play a).run s).2
    Text.strip key = key ∧ ((t.play a).run s).1 = .ok delta.natAbs
      ∧ Moves (a.inventory s) key delta inv'
      ∧ (delta = 0 → ((t.play a).run s).2 = s ∧ t.told a s = [])
      ∧ (delta ≠ 0 →
        t.told a s = (a.inventory s).listeners.map (·, ⟨key, delta, inv'.count key⟩))

theorem run_play_of_stopped {a : Audience σ} {t : Trade ρ} {s : σ} {e : Fault}
    (h : t.act.run (a.inventory s) = (.error e, a.inventory s)) : (t.play a).run s = (.error e, s) := by
  unfold Trade.play
  rw [Act.run_bind, Act.run_within, h, a.replace_inventory]

theorem run_play {a : Audience σ} {t : Trade ρ} {s : σ} {inv : Inventory} {amount : Nat}
    {notices : List (String × InventoryChange)}
    (h : t.act.run (a.inventory s) = (.ok (amount, notices), inv))
    : (t.play a).run s = (.ok amount, ((deliver a.hear notices).run (a.replace inv s)).2) := by
  unfold Trade.play
  rw [Act.run_bind, Act.run_within, h]
  dsimp only
  rw [Act.run_bind, ← Prod.eta ((deliver a.hear notices).run _), deliver_ends]
  rfl

theorem run_play_noted {a : Audience σ} {t : Trade ρ} {s : σ} {inv : Inventory} {amount : Nat}
    {notices : List (String × InventoryChange)}
    (h : t.act.run (a.inventory s) = (.ok (amount, notices), inv))
    : (t.play a.noted).run (s, [])
      = (.ok amount, ((deliver a.hear notices).run (a.replace inv s)).2, notices) := by
  have hplay := run_play (a := a.noted) (s := (s, [])) h
  rw [hplay]
  exact congrArg (Except.ok amount, ·.2) (a.run_deliver_noted notices [] (a.replace inv s))

theorem strip_of_key? {v : Value ρ} {key : String} (h : v.key? = .ok key) : Text.strip key = key := by
  obtain ⟨_, _, heq⟩ := Fault.bind_eq_ok.mp h
  cases heq
  exact Text.strip_strip _

theorem accounts_of_read {a : Audience σ} {t : Trade ρ} {s : σ} {key : String} {amount : Nat}
    (hkey : t.id.key? = .ok key) (hamount : t.qty.count 1 = .ok amount) : Accounts a t s := by
  obtain ⟨inv', hmoves, hact⟩ := run_act hkey hamount (a.inventory s)
  have hplay := run_play hact
  have hnoted := run_play_noted hact
  have hfinal : a.inventory ((t.play a).run s).2 = inv' := by
    rw [hplay, a.inventory_deliver, a.inventory_replace]
  constructor
  case noted => rw [hplay, hnoted]
  case isOk_iff =>
    rw [hplay, hkey, hamount]
    exact iff_of_true rfl ⟨rfl, rfl⟩
  case stops =>
    intro hstopped
    rw [hplay] at hstopped
    cases hstopped
  case moves =>
    intro key' amount' hkey' hamount'
    cases hkey.symm.trans hkey'
    cases hamount.symm.trans hamount'
    dsimp only
    unfold Trade.told
    rw [hfinal, hnoted]
    refine ⟨strip_of_key? hkey, by rw [hplay], hmoves, fun hzero => ?_, fun hne => if_neg hne⟩
    rw [hplay, if_pos hzero, hmoves.same hzero, a.replace_inventory]
    exact ⟨rfl, rfl⟩

theorem accounts (a : Audience σ) (t : Trade ρ) (s : σ) : Accounts a t s := by
  by_cases hread : t.id.key?.isOk = true ∧ (t.qty.count 1).isOk = true
  . exact accounts_of_read (Fault.eq_ok_getD hread.1 "") (Fault.eq_ok_getD hread.2 0)
  . obtain ⟨e, hact⟩ := run_act_stopped hread (a.inventory s)
    have hplay := run_play_of_stopped hact
    have hnoted : (t.play a.noted).run (s, []) = (.error e, s, []) :=
      run_play_of_stopped (a := a.noted) hact
    constructor
    case noted => rw [hplay, hnoted]
    case isOk_iff =>
      rw [hplay]
      exact iff_of_false Bool.false_ne_true hread
    case stops =>
      intro _
      rw [hplay]
      unfold Trade.told
      rw [hnoted]
      exact ⟨rfl, rfl⟩
    case moves =>
      intro key amount hkey hamount
      exact absurd ⟨by rw [hkey]; rfl, by rw [hamount]; rfl⟩ hread

/-! ### Sequences of calls -/

/-- What is asked of an inventory. -/
inductive Call (ρ : Type) where
  | trade (t : Trade ρ)
  | subscribe (listener : String)

namespace Call

def after (a : Audience σ) (s : σ) : Call ρ → σ
  | .trade t => ((t.play a).run s).2
  | .subscribe listener => a.replace ((a.inventory s).subscribe listener) s

def told (a : Audience σ) (s : σ) : Call ρ → List (String × InventoryChange)
  | .trade t => t.told a s
  | .subscribe _ => []

end Call

/-- Who hears of what, call by call. -/
def heard (a : Audience σ) (s : σ) : List (Call ρ) → List (List (String × InventoryChange))
  | [] => []
  | call :: calls => call.told a s :: heard a (call.after a s) calls

/-- By how much an item changes as one listener hears it, who has a place in the order of all. -/
def deltaAt (place : Nat) (id : String) (told : List (String × InventoryChange)) : Int :=
  match told[place]? with
  | some (_, change) => if change.item = id then change.delta else 0
  | none => 0

/-- A trade is told to nobody and leaves the inventory as it is, or it changes the count of one item and
is told to all. -/
theorem Trade.told_cases (a : Audience σ) (t : Trade ρ) (s : σ)
    : (t.told a s = [] ∧ a.inventory ((t.play a).run s).2 = a.inventory s)
      ∨ ∃ key delta, t.told a s = (a.inventory s).listeners.map
          (·, ⟨key, delta, (a.inventory ((t.play a).run s).2).count key⟩)
        ∧ Moves (a.inventory s) key delta (a.inventory ((t.play a).run s).2) := by
  obtain ⟨_, hok, hstops, hmoves⟩ := accounts a t s
  by_cases hread : ((t.play a).run s).1.isOk = true
  . obtain ⟨hkey, hamount⟩ := hok.mp hread
    obtain ⟨key, hkey⟩ : ∃ key, t.id.key? = .ok key := ⟨_, Fault.eq_ok_getD hkey ""⟩
    obtain ⟨amount, hamount⟩ : ∃ n, t.qty.count 1 = .ok n := ⟨_, Fault.eq_ok_getD hamount 0⟩
    obtain ⟨_, _, hmove, hzero, hne⟩ := hmoves key amount hkey hamount
    by_cases hdelta : t.delta key amount ((a.inventory s).count key) = 0
    . obtain ⟨hsame, htold⟩ := hzero hdelta
      exact .inl ⟨htold, by rw [hsame]⟩
    . exact .inr ⟨_, _, hne hdelta, hmove⟩
  . obtain ⟨hsame, htold⟩ := hstops (by simpa using hread)
    exact .inl ⟨htold, by rw [hsame]⟩

theorem Call.length_listeners_le (a : Audience σ) (s : σ) (c : Call ρ)
    : (a.inventory s).listeners.length ≤ (a.inventory (c.after a s)).listeners.length := by
  cases c with
  | subscribe listener =>
    unfold Call.after
    rw [a.inventory_replace]
    simp [Inventory.subscribe]
  | trade t =>
    unfold Call.after
    rcases t.told_cases a s with ⟨_, hsame⟩ | ⟨_, _, _, hmove⟩
    . rw [hsame]
    . rw [hmove.listeners]

/-- A listener hears by how much a call changes a count. -/
theorem Call.count_after (a : Audience σ) (s : σ) (c : Call ρ) {place : Nat}
    (hplace : place < (a.inventory s).listeners.length) (id : String)
    : ((a.inventory (c.after a s)).count id : Int)
      = (a.inventory s).count id + deltaAt place id (c.told a s) := by
  cases c with
  | subscribe listener =>
    unfold Call.after Call.told
    rw [a.inventory_replace]
    simp [Inventory.subscribe, count, deltaAt]
  | trade t =>
    unfold Call.after Call.told
    dsimp only
    rcases t.told_cases a s with ⟨htold, hsame⟩ | ⟨key, delta, htold, hmove⟩
    . rw [htold, hsame]
      simp [deltaAt]
    . rw [htold, hmove.count id]
      simp [deltaAt, hplace, eq_comm]

theorem Call.stocked (a : Audience σ) (s : σ) (c : Call ρ) (h : Stocked (a.inventory s).counts)
    : Stocked (a.inventory (c.after a s)).counts := by
  cases c with
  | subscribe listener =>
    unfold Call.after
    rw [a.inventory_replace]
    exact h
  | trade t =>
    rcases t.told_cases a s with ⟨_, hsame⟩ | ⟨_, _, _, hmove⟩
    . unfold Call.after
      rw [hsame]
      exact h
    . exact hmove.stocked h

theorem stocked_after (a : Audience σ) {s : σ} (h : Stocked (a.inventory s).counts)
    (calls : List (Call ρ)) : Stocked (a.inventory (calls.foldl (Call.after a) s)).counts := by
  induction calls generalizing s with
  | nil => exact h
  | cons c calls ih => exact ih (c.stocked a s h)

/-- Whoever adds up what a listener hears of an item knows by how much its count changes. -/
theorem sum_deltaAt (a : Audience σ) (s : σ) (calls : List (Call ρ)) {place : Nat}
    (hplace : place < (a.inventory s).listeners.length) (id : String)
    : ((heard a s calls).map (deltaAt place id)).sum
      = (a.inventory (calls.foldl (Call.after a) s)).count id - (a.inventory s).count id := by
  induction calls generalizing s with
  | nil => simp [heard]
  | cons c calls ih =>
    unfold heard
    rw [List.map_cons, List.sum_cons, ih _ (hplace.trans_le (c.length_listeners_le a s)),
      List.foldl_cons, c.count_after a s hplace id]
    ring

/-- After any calls every count is above zero; every trade that follows is accounted for; and from then on
what a listener hears of an item adds up to the change of its count. -/
theorem accounts_after (a : Audience σ) {s : σ} (h : Stocked (a.inventory s).counts)
    (calls : List (Call ρ))
    : let s' := calls.foldl (Call.after a) s
      Stocked (a.inventory s').counts
      ∧ (∀ t : Trade ρ, Accounts a t s')
      ∧ ∀ (later : List (Call ρ)) (place : Nat), place < (a.inventory s').listeners.length →
        ∀ id, ((heard a s' later).map (deltaAt place id)).sum
          = (a.inventory (later.foldl (Call.after a) s')).count id - (a.inventory s').count id :=
  ⟨stocked_after a h calls, fun t => accounts a t _,
    fun later _ hplace id => sum_deltaAt a _ later hplace id⟩

/-- One listener that always fails, and one that keeps what it hears. -/
def diary : Audience (Inventory × List InventoryChange) where
  inventory := Prod.fst
  replace inv s := (inv, s.2)
  hear listener change :=
    if listener = "broken" then throw (.collaborator "broken") else Act.onSecond (modify (· ++ [change]))
  inventory_replace _ _ := rfl
  replace_inventory _ := rfl
  inventory_hear listener change s := by
    split
    . rfl
    . rfl

theorem accounts_after_rope
    : let rope (flow : Flow) (n : Int) : Call Rat := .trade ⟨flow, .text " rope ", .int n⟩
      let calls := [.subscribe "broken", .subscribe "diary", rope .add 3]
      let s := calls.foldl (Call.after diary) ({}, [])
      Stocked (diary.inventory s).counts
        ∧ (∀ t : Trade Rat, Accounts diary t s)
        ∧ ((heard diary s [rope .remove 5, rope .add 2]).map (deltaAt 1 "rope")).sum
          = ([rope .remove 5, rope .add 2].foldl (Call.after diary) s).1.count "rope"
            - s.1.count "rope" := by
  intro rope calls s
  have hempty : Stocked (diary.inventory ({}, [])).counts := ⟨List.nodup_nil, by intro _ _ h; cases h⟩
  obtain ⟨hstocked, haccounts, hsum⟩ := accounts_after diary hempty calls
  exact ⟨hstocked, haccounts, hsum _ 1 (by decide +kernel) "rope"⟩

end Inventory

namespace Belongings

variable {ρ σ : Type} [Scalar ρ]

/-- Those who listen to the inventory of the player compute the speed and shift the traits. -/
def audience (lookup : ItemLookup ρ σ) : Inventory.Audience (Belongings ρ × σ) where
  inventory s := s.1.inventory
  replace inventory s := ({ s.1 with inventory }, s.2)
  hear := hear lookup
  inventory_replace _ _ := rfl
  replace_inventory _ := rfl
  inventory_hear listener change s := by
    have hchange (name : String) (f : Number ρ → Except Fault (Number ρ)) :
        Act.Keeps (fun t : Belongings ρ × σ => t.1.inventory = s.1.inventory)
          (onTraits (TraitBook.change name f)) :=
      Act.keeps_onFirst (P := fun b : Belongings ρ => b.inventory = s.1.inventory) (Act.keeps_frame fun _ _ h => h)
    exact keeps_hear (fun _ _ _ h => h) (fun _ _ _ h => h) hchange listener change s rfl

theorem onInventory_eq {α : Type} (lookup : ItemLookup ρ σ) (act : Act Inventory α)
    : onInventory act = Act.within (audience lookup).inventory (audience lookup).replace act :=
  Act.ext fun _ => rfl

theorem receive_eq_play (lookup : ItemLookup ρ σ) (id qty : Value ρ)
    : receive lookup id qty = (⟨.add, id, qty⟩ : Inventory.Trade ρ).play (audience lookup) := by
  unfold receive
  rw [onInventory_eq lookup]
  rfl

theorem surrender_eq_play (lookup : ItemLookup ρ σ) (id qty : Value ρ)
    : surrender lookup id qty = (⟨.remove, id, qty⟩ : Inventory.Trade ρ).play (audience lookup) := by
  unfold surrender
  rw [onInventory_eq lookup]
  rfl

end Belongings

end Storyworld
