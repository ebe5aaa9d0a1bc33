import Storyworld.Proofs.Belongings
import Storyworld.Proofs.Stock

/-!
This module contains the account of items over whole runs: scenes declare what lies at locations and
items change hands in any order, and what is carried together with what lies about is what was
declared and gained, less what was lost.
-/

namespace Storyworld

/-! ### Which verb a topic reaches -/

namespace ItemVerb

theorem prefix_of_covers {verb : ItemVerb} {topic : String}
    (h : Topic.covers verb.topic topic = true) : (verb.name ++ ":").toList <+: topic.toList := by
  unfold Topic.covers ItemVerb.topic at h
  rw [Bool.or_eq_true] at h
  rcases h with h | h
  . rw [← beq_iff_eq.mp h]
    exact ⟨['*'], by cases verb <;> decide⟩
  . cases verb <;> exact List.isPrefixOf_iff_prefix.mp h

theorem eq_of_covers {verb verb' : ItemVerb} {topic : String}
    (h : Topic.covers verb.topic topic = true) (h' : Topic.covers verb'.topic topic = true)
    : verb = verb' := by
  -- of two beginnings of one topic, one begins the other
  have hprefix := List.prefix_or_prefix_of_prefix (prefix_of_covers h) (prefix_of_covers h')
  revert hprefix
  cases verb <;> cases verb' <;> decide

/-- The verb whose handler a topic reaches. -/
def reached? (topic : String) : Option ItemVerb :=
  all.find? fun verb => Topic.covers verb.topic topic

theorem reached?_eq_some {verb : ItemVerb} {topic : String}
    (h : Topic.covers verb.topic topic = true) : reached? topic = some verb := by
  cases hfound : reached? topic with
  | none =>
    have := List.find?_eq_none.mp hfound verb (by cases verb <;> decide)
    exact absurd h this
  | some verb' =>
    have := List.find?_some hfound
    rw [eq_of_covers this h]

theorem covers_eq (verb : ItemVerb) (topic : String)
    : Topic.covers verb.topic topic = decide (reached? topic = some verb) := by
  cases hcovers : Topic.covers verb.topic topic with
  | true => rw [reached?_eq_some hcovers, decide_eq_true rfl]
  | false =>
    rw [eq_comm, decide_eq_false_iff_not]
    intro h
    have := List.find?_some h
    rw [hcovers] at this
    cases this

theorem reached_register (topic : String)
    : ((register id {}).reached topic).map Subscription.handler = (reached? topic).toList := by
  have htopics : (register id {}).topics
      = all.map fun verb => (verb.topic, [⟨40, all.idxOf verb, verb⟩]) := rfl
  unfold Bus.reached
  rw [htopics, List.flatMap_map]
  simp only [covers_eq]
  cases reached? topic with
  | none => simp [all]
  | some verb => cases verb <;> simp [all]

end ItemVerb

namespace Belongings

variable {σ : Type} (lookup : ItemLookup Rat σ)

/-! ### What an event moves -/

/-- What the player has of an item together with all that has come to the locations since their
scenes declared it. -/
noncomputable def owned (b : Belongings Rat) (item : String) : Rat :=
  b.inventory.count item + ∑ᶠ place, b.ledger.moved place item

/-- What the player has of an item together with all that lies at the locations. -/
noncomputable def total (b : Belongings Rat) (item : String) : Rat :=
  b.inventory.count item + ∑ᶠ place, b.ledger.stock place item

theorem total_eq (b : Belongings Rat) (item : String)
    : b.total item = b.owned item + ∑ᶠ place, (b.ledger.defaults.quantity place item).rat := by
  unfold total owned
  simp only [Ledger.stock_eq]
  rw [finsum_add_distrib (b.ledger.defaults.finite_support item) (b.ledger.finite_moved item)]
  ring

/-- So much more of an item is carried, and so much more of it has come to a location. -/
structure Shifts (place item : String) (carried laid : Int) (b b' : Belongings Rat) : Prop where
  count : ∀ i, (b'.inventory.count i : Rat)
    = b.inventory.count i + if i = item then (carried : Rat) else 0
  ledger : b.ledger.Shifts place item laid b'.ledger

theorem Shifts.owned {place item : String} {carried laid : Int} {b b' : Belongings Rat}
    (h : b.Shifts place item carried laid b') (i : String)
    : b'.owned i = b.owned i + if i = item then ((carried + laid : Int) : Rat) else 0 := by
  have hfinite : (Function.support fun p =>
      if p = place ∧ i = item then (laid : Rat) else 0).Finite := by
    apply (Set.finite_singleton place).subset
    intro p hp
    by_contra hne
    exact hp (if_neg fun h => hne h.1)
  have hsum : (∑ᶠ p, if p = place ∧ i = item then (laid : Rat) else 0)
      = if i = item then (laid : Rat) else 0 := by
    rw [finsum_eq_single _ place fun p hp => if_neg fun h => hp h.1]
    simp
  unfold Belongings.owned
  simp only [h.count, h.ledger.moved]
  rw [finsum_add_distrib (b.ledger.finite_moved i) hfinite, hsum]
  split
  . push_cast
    ring
  . ring

theorem shifts_zero {b : Belongings Rat} (h : b.ledger.Whole) (place item : String)
    : b.Shifts place item 0 0 b where
  count i := by simp
  ledger := h.shifts_zero place item

/-- Those who are told of a change touch neither what is carried nor what lies about. -/
theorem run_tell (notices : List (String × InventoryChange)) (b : Belongings Rat) (src : σ)
    : ∃ b' src', (tell lookup notices).run (b, src) = (.ok (), b', src')
      ∧ b'.inventory = b.inventory ∧ b'.ledger = b.ledger := by
  let P (b' : Belongings Rat) : Prop := b'.inventory = b.inventory ∧ b'.ledger = b.ledger
  have hchange (name : String) (f : Number Rat → Except Fault (Number Rat)) :
      Act.Keeps (fun p : Belongings Rat × σ => P p.1) (onTraits (TraitBook.change name f)) :=
    Act.keeps_onFirst (Act.keeps_frame fun _ _ hb => hb)
  have hkeeps : Act.Keeps (fun p => P p.1) (tell lookup notices) :=
    keeps_tell (keeps_hear (fun _ _ _ hb => hb) (fun _ _ _ hb => hb) hchange) notices
  have hsame := hkeeps (b, src) ⟨rfl, rfl⟩
  exact ⟨_, _, Prod.ext (Inventory.deliver_ends _ notices _) rfl, hsame⟩

theorem run_receive {item : Value Rat} {id : String} (hkey : item.key? = .ok id) (hne : id ≠ "")
    (n : Nat) (b : Belongings Rat) (src : σ)
    : ∃ b' src', (receive lookup item (.int n)).run (b, src) = (.ok n, b', src')
      ∧ b'.ledger = b.ledger
      ∧ ∀ i, b'.inventory.count i = b.inventory.count i + if i = id then n else 0 := by
  obtain ⟨notices, counts, hadd, hcount⟩ := Inventory.run_add hkey hne n b.inventory
  obtain ⟨b', src', htell, hinventory, hledger⟩ :=
    run_tell lookup notices { b with inventory := { b.inventory with counts } } src
  refine ⟨b', src', ?_, hledger, fun i => by rw [hinventory, hcount]⟩
  unfold receive onInventory
  simp only [Act.run_bind, Act.run_onFirst, Act.run_within, hadd, htell]
  rfl

theorem run_surrender {item : Value Rat} {id : String} (hkey : item.key? = .ok id)
    (n : Nat) (b : Belongings Rat) (src : σ)
    : ∃ b' src',
      (surrender lookup item (.int n)).run (b, src) = (.ok (min (b.inventory.count id) n), b', src')
      ∧ b'.ledger = b.ledger
      ∧ ∀ i, b'.inventory.count i
        = b.inventory.count i - if i = id then min (b.inventory.count id) n else 0 := by
  obtain ⟨notices, counts, hremove, hcount⟩ := Inventory.run_remove hkey n b.inventory
  obtain ⟨b', src', htell, hinventory, hledger⟩ :=
    run_tell lookup notices { b with inventory := { b.inventory with counts } } src
  refine ⟨b', src', ?_, hledger, fun i => by rw [hinventory, hcount]⟩
  unfold surrender onInventory
  simp only [Act.run_bind, Act.run_onFirst, Act.run_within, hremove, htell]
  rfl

section

variable {here item : Value Rat} {place id : String} {b : Belongings Rat}

theorem shifts_receive (hkey : item.key? = .ok id) (hne : id ≠ "") (hb : b.ledger.Whole)
    (place : String) (n : Nat) (src : σ)
    : b.Shifts place id n 0 ((receive lookup item (.int n)).run (b, src)).2.1 := by
  obtain ⟨b', src', hrun, hledger, hcount⟩ := run_receive lookup hkey hne n b src
  rw [hrun]
  refine ⟨fun i => ?_, ?_⟩
  . rw [hcount]
    split <;> simp
  . rw [hledger]
    exact hb.shifts_zero place id

theorem shifts_surrender (hkey : item.key? = .ok id) (hb : b.ledger.Whole) (place : String)
    (n : Nat) (src : σ)
    : b.Shifts place id (-(min (b.inventory.count id) n : Nat)) 0
      ((surrender lookup item (.int n)).run (b, src)).2.1 := by
  obtain ⟨b', src', hrun, hledger, hcount⟩ := run_surrender lookup hkey n b src
  rw [hrun]
  refine ⟨fun i => ?_, ?_⟩
  . rw [hcount]
    split
    next hi =>
      rw [hi, Nat.cast_sub (Nat.min_le_left _ _)]
      push_cast
      ring
    next => simp
  . rw [hledger]
    exact hb.shifts_zero place id

theorem shifts_take (hhere : here.isGiven = true) (hplace : here.text? = .ok place)
    (hitem : item.isGiven = true) (hid : item.text? = .ok id) (hkey : item.key? = .ok id)
    (hne : id ≠ "") (hb : b.ledger.Whole) (n : Nat) (src : σ)
    : ∃ k : Nat, b.Shifts place id k (-k) ((take lookup here item n).run (b, src)).2.1 := by
  obtain ⟨taken, l', k, hremove, htaken, hshift⟩ := Ledger.run_remove hhere hplace hitem hid hb n
  refine ⟨k, ?_⟩
  unfold take onLedger
  simp only [Act.run_bind, Act.run_onFirst, Act.run_within, hremove, Number.lt_eq_rat, htaken]
  by_cases hk : k = 0
  . subst hk
    exact ⟨fun i => by simp, hshift⟩
  . obtain ⟨b', src', hreceive, hledger, hcount⟩ :=
      run_receive lookup hkey hne k { b with ledger := l' } src
    have hpos : 0 < k := by omega
    simp only [Number.rat_int, Int.cast_zero, Nat.cast_pos, hpos, decide_true, if_true,
      Act.run_bind, Act.run_lift, Number.truncate_eq_ok htaken, hreceive, Act.run_pure]
    refine ⟨fun i => ?_, by rwa [hledger]⟩
    rw [hcount]
    split <;> simp

theorem shifts_drop (hhere : here.isGiven = true) (hplace : here.text? = .ok place)
    (hitem : item.isGiven = true) (hid : item.text? = .ok id) (hkey : item.key? = .ok id)
    (hb : b.ledger.Whole) (n : Nat) (src : σ)
    : ∃ k : Nat, b.Shifts place id (-k) k ((drop lookup here item n).run (b, src)).2.1 := by
  have hshift := shifts_surrender lookup hkey hb place n src
  obtain ⟨b', src', hrun, hledger, hcount⟩ := run_surrender lookup hkey n b src
  generalize min (b.inventory.count id) n = k at *
  refine ⟨k, ?_⟩
  rw [hrun] at hshift
  unfold drop onLedger
  rw [Act.run_bind, hrun]
  by_cases hk : k = 0
  . subst hk
    simpa using hshift
  . obtain ⟨l', hadd, hadded⟩ := Ledger.run_add hhere hplace hitem hid (hledger ▸ hb) k
    have hpos : 0 < k := by omega
    simp only [hpos, if_true, Act.run_onFirst, Act.run_within, hadd]
    exact ⟨hshift.count, hledger ▸ hadded⟩

/-- How many of an item an event asks for. -/
def asked (e : DomainEvent Rat) (item : String) : Nat :=
  match e.args with
  | [] => 0
  | v :: _ =>
    if v.isGiven ∧ v.text?.toOption = some item then (eventQuantity e.args).toOption.getD 0 else 0

/-- An event names its item without blanks around. -/
def Trim (e : DomainEvent Rat) : Prop :=
  ∀ item ∈ e.args.head?, ∃ id, item.text? = .ok id ∧ Text.strip id = id

theorem eventQuantity_ok (args : List (Value Rat)) : ∃ n, eventQuantity args = .ok n := by
  unfold eventQuantity
  split
  next => exact Value.exists_count _ 1
  next => exact ⟨1, rfl⟩

section

variable {e : DomainEvent Rat}

theorem asked_of_not (h : ∀ item ∈ e.args.head?, item.isGiven = false) (i : String)
    : asked e i = 0 := by
  unfold asked
  split
  next => rfl
  next hargs => simp [h _ (by rw [hargs]; rfl)]

theorem exists_item_of_not (h : ¬∀ item ∈ e.args.head?, item.isGiven = false)
    : ∃ item args, e.args = item :: args ∧ item.isGiven = true := by
  cases hargs : e.args with
  | nil => simp [hargs] at h
  | cons item args => exact ⟨item, args, rfl, by simpa [hargs] using h⟩

theorem asked_eq {args : List (Value Rat)} (hargs : e.args = item :: args)
    (hitem : item.isGiven = true) (hid : item.text? = .ok id) {n : Nat}
    (hn : eventQuantity e.args = .ok n) (i : String) : asked e i = if i = id then n else 0 := by
  unfold asked
  rw [hargs] at hn ⊢
  simp [hitem, hid, hn, Except.toOption, eq_comm]

theorem run_handle_of_not (h : ∀ item ∈ e.args.head?, item.isGiven = false) (verb : ItemVerb)
    (here : Except Fault (Value Rat)) (s : Belongings Rat × σ)
    : (handle lookup verb here e).run s = (.ok (), s) := by
  unfold handle
  split
  next => rfl
  next hargs =>
    rw [h _ (by rw [hargs]; rfl)]
    rfl

/-- What a handler does to the account: taking and dropping move, gaining adds what is asked for,
and losing removes as much of that as is carried. -/
theorem shifts_handle (verb : ItemVerb) (hplace : here.text? = .ok place) (he : Trim e)
    (hb : b.ledger.Whole) (src : σ)
    : ∃ id carried laid,
      b.Shifts place id carried laid ((handle lookup verb (.ok here) e).run (b, src)).2.1
      ∧ ∀ i, (if i = id then carried + laid else 0)
        = (if verb = .gain then (asked e i : Int) else 0)
          - if verb = .lose then (min (b.inventory.count i) (asked e i) : Nat) else 0 := by
  by_cases hidle : ∀ item ∈ e.args.head?, item.isGiven = false
  . rw [run_handle_of_not lookup hidle]
    exact ⟨"", 0, 0, shifts_zero hb place "", fun i => by simp [asked_of_not hidle]⟩
  . obtain ⟨item, args, hargs, hitem⟩ := exists_item_of_not hidle
    obtain ⟨id, hid, htrim⟩ := he item (by rw [hargs]; rfl)
    obtain ⟨n, hn⟩ := eventQuantity_ok e.args
    have hasked := asked_eq hargs hitem hid hn
    have hkey : item.key? = .ok id := by
      rw [Value.key?_of_text? hitem hid, htrim]
    have hne : id ≠ "" := by
      rw [← Value.display_of_text? hid]
      exact Value.display_ne_empty Value.spell_ne_empty hitem
    unfold handle
    rw [hargs] at hn ⊢
    simp only [hitem, if_true]
    cases verb with
    | take =>
      refine ⟨id, ?_⟩
      by_cases hhere : here.isGiven = true
      . obtain ⟨k, hshift⟩ := shifts_take lookup hhere hplace hitem hid hkey hne hb n src
        refine ⟨k, -k, ?_, fun i => by simp⟩
        simpa [hhere, hn] using hshift
      . exact ⟨0, 0, by simpa [hhere] using shifts_zero hb place id, fun i => by simp⟩
    | drop =>
      refine ⟨id, ?_⟩
      by_cases hhere : here.isGiven = true
      . obtain ⟨k, hshift⟩ := shifts_drop lookup hhere hplace hitem hid hkey hb n src
        refine ⟨-k, k, ?_, fun i => by simp⟩
        simpa [hhere, hn] using hshift
      . exact ⟨0, 0, by simpa [hhere] using shifts_zero hb place id, fun i => by simp⟩
    | gain =>
      refine ⟨id, n, 0, ?_, fun i => by simp [hasked]⟩
      simpa [hn] using shifts_receive lookup hkey hne hb place n src
    | lose =>
      refine ⟨id, _, 0, by simpa [hn] using shifts_surrender lookup hkey hb place n src, ?_⟩
      intro i
      rw [hasked]
      split
      next hi => simp [hi]
      next => simp

end

end

/-! ### Runs -/

/-- What happens to belongings: a scene declares what lies at a location, or an event is published
while the player stands somewhere. -/
inductive Step where
  | declare (location items : Value Rat)
  | publish (here : Value Rat) (topic : String) (e : DomainEvent Rat)

namespace Step

def after : Step → Belongings Rat × σ → Belongings Rat × σ
  | .declare location items, s => ((onLedger (Ledger.applyScene location items)).run s).2
  | .publish here topic e, s =>
    Bus.publish (fun _ => ItemVerb.register id {}) (fun _ s => s)
      (fun verb payload => handlePayload lookup verb (.ok here) payload) topic (.event e) s

/-- Locations and items can be named, an event names its item without blanks around, and declared
quantities are whole. -/
def Exact : Step → Prop
  | .declare location items =>
    (∃ place, location.text? = .ok place) ∧ ∀ row ∈ Ledger.records items, Ledger.Countable row
  | .publish here _ e => (∃ place, here.text? = .ok place) ∧ Trim e

/-- How much of an item a step declares at a location. -/
def offer (place item : String) : Step → Rat
  | .declare location items =>
    if location.isGiven ∧ location.text?.toOption = some place then
      Ledger.offers item (Ledger.records items)
    else 0
  | .publish .. => 0

/-- How much of an item a step asks a verb for. -/
def asks (verb : ItemVerb) (item : String) : Step → Nat
  | .declare .. => 0
  | .publish _ topic e => if Topic.covers verb.topic topic then asked e item else 0

theorem after_declare (location items : Value Rat) (b : Belongings Rat) (src : σ)
    : (Step.declare location items).after lookup (b, src)
      = ({ b with ledger := ((Ledger.applyScene location items).run b.ledger).2 }, src) :=
  rfl

/-- Declaring again what has been declared changes nothing. -/
theorem after_declare_self {location items : Value Rat} (h : (Step.declare location items).Exact)
    {s : Belongings Rat × σ} (hle : ∀ place item, (Step.declare location items).offer place item
      ≤ (s.1.ledger.defaults.quantity place item).rat)
    : (Step.declare location items).after lookup s = s := by
  obtain ⟨b, src⟩ := s
  obtain ⟨⟨place, hplace⟩, hrows⟩ := h
  by_cases hgiven : location.isGiven = true
  . have hself := Ledger.run_forM_self hrows fun item => by
      simpa [Step.offer, hgiven, hplace, Except.toOption] using hle place item
    rw [after_declare, Ledger.run_applyScene hgiven hplace, hself]
  . rw [after_declare, Ledger.run_applyScene_of_not hgiven]

theorem after_publish (here : Value Rat) (topic : String) (e : DomainEvent Rat)
    (s : Belongings Rat × σ)
    : (Step.publish here topic e).after lookup s = match ItemVerb.reached? topic with
      | none => s
      | some verb => ((handle lookup verb (.ok here) e).run s).2 := by
  have hdeliver (rows : List (Subscription ItemVerb)) :
      rows.foldl (Bus.deliver (fun _ s => s) fun verb =>
          handlePayload lookup verb (.ok here) (.event e)) s
        = (rows.map Subscription.handler).foldl
          (fun s verb => ((handle lookup verb (.ok here) e).run s).2) s := by
    rw [List.foldl_map]
    congr 1
    funext s row
    unfold Bus.deliver handlePayload
    rcases (handle lookup row.handler (.ok here) e).run s with ⟨_ | _, t⟩ <;> rfl
  refine (hdeliver _).trans ?_
  rw [ItemVerb.reached_register]
  cases ItemVerb.reached? topic <;> rfl

end Step

/-- What the account of all items becomes: so much has been offered of the items at the locations,
so much gained and so much lost. -/
structure Balances (offer : String → String → Rat) (gained lost : String → Nat)
    (b b' : Belongings Rat) : Prop where
  whole : b'.ledger.Whole
  defaults : ∀ place item, (b'.ledger.defaults.quantity place item).rat
    = max (b.ledger.defaults.quantity place item).rat (offer place item)
  owned : ∀ item, b'.owned item = b.owned item + gained item - lost item

theorem Step.balances {step : Step} (h : step.Exact) {s : Belongings Rat × σ}
    (hs : s.1.ledger.Whole)
    : s.1.Balances (fun place item => step.offer place item) (fun item => step.asks .gain item)
      (fun item => min (s.1.inventory.count item) (step.asks .lose item))
      (step.after lookup s).1 := by
  obtain ⟨b, src⟩ := s
  cases step with
  | declare location items =>
    obtain ⟨⟨place, hplace⟩, hrows⟩ := h
    by_cases hgiven : location.isGiven = true
    . obtain ⟨l', hrun, hraises⟩ := Ledger.raises_forM hs hrows place
      rw [Step.after_declare, Ledger.run_applyScene hgiven hplace, hrun]
      constructor
      case whole => exact hraises.whole
      case defaults =>
        intro p i
        have := hraises.defaults p i
        simpa [Step.offer, hgiven, hplace, Except.toOption, eq_comm] using this
      case owned =>
        intro i
        simp [Belongings.owned, Step.asks, hraises.moved]
    . rw [Step.after_declare, Ledger.run_applyScene_of_not hgiven]
      constructor
      case whole => exact hs
      case defaults =>
        intro p i
        simpa [Step.offer, hgiven] using hs.defaults.nonneg p i
      case owned => simp [Step.asks]
  | publish here topic e =>
    obtain ⟨⟨place, hplace⟩, he⟩ := h
    rw [Step.after_publish]
    cases hreached : ItemVerb.reached? topic with
    | none =>
      constructor
      case whole => exact hs
      case defaults =>
        intro p i
        simpa [Step.offer] using hs.defaults.nonneg p i
      case owned => simp [Step.asks, ItemVerb.covers_eq, hreached]
    | some verb =>
      obtain ⟨id, carried, laid, hshift, hamount⟩ := shifts_handle lookup verb hplace he hs src
      constructor
      case whole => exact hshift.ledger.whole
      case defaults =>
        intro p i
        simpa [hshift.ledger.defaults, Step.offer] using hs.defaults.nonneg p i
      case owned =>
        intro i
        dsimp only
        rw [hshift.owned, ← Int.cast_zero, ← apply_ite, hamount]
        cases verb <;> simp [Step.asks, ItemVerb.covers_eq, hreached, sub_eq_add_neg]

def afterAll (steps : List Step) (s : Belongings Rat × σ) : Belongings Rat × σ :=
  steps.foldl (fun s step => step.after lookup s) s

/-- The largest quantity of an item that any step declares at a location. -/
def largest (steps : List Step) (place item : String) : Rat :=
  (steps.map (Step.offer place item)).foldr max 0

/-- How much of an item the steps gain. -/
def gained (steps : List Step) (item : String) : Nat := (steps.map (Step.asks .gain item)).sum

/-- How much of an item is lost in a run: what is asked for, as far as it is carried then. -/
def lost : List Step → Belongings Rat × σ → String → Nat
  | [], _, _ => 0
  | step :: steps, s, item =>
    min (s.1.inventory.count item) (step.asks .lose item) + lost steps (step.after lookup s) item

theorem offer_le_largest {steps : List Step} {step : Step} (h : step ∈ steps) (place item : String)
    : step.offer place item ≤ largest steps place item := by
  unfold largest
  induction steps with
  | nil => cases h
  | cons step' steps ih =>
    rcases List.mem_cons.mp h with rfl | hmem
    . exact le_max_left _ _
    . exact (ih hmem).trans (le_max_right _ _)

theorem largest_nonneg (steps : List Step) (place item : String)
    : 0 ≤ largest steps place item := by
  unfold largest
  induction steps with
  | nil => exact le_refl _
  | cons step steps ih => exact ih.trans (le_max_right _ _)

theorem balances_afterAll {steps : List Step} (h : ∀ step ∈ steps, step.Exact)
    {s : Belongings Rat × σ} (hs : s.1.ledger.Whole)
    : s.1.Balances (largest steps) (gained steps) (lost lookup steps s)
      (afterAll lookup steps s).1 := by
  induction steps generalizing s with
  | nil =>
    constructor
    case whole => exact hs
    case defaults => exact fun p i => (max_eq_left (hs.defaults.nonneg p i)).symm
    case owned => simp [afterAll, gained, lost]
  | cons step steps ih =>
    have hstep := Step.balances lookup (h step List.mem_cons_self) hs
    have hrest := ih (fun t ht => h t (List.mem_cons_of_mem _ ht)) hstep.whole
    constructor
    case whole => exact hrest.whole
    case defaults =>
      intro p i
      calc (((afterAll lookup steps (step.after lookup s)).1.ledger.defaults).quantity p i).rat
        _ = max (max (s.1.ledger.defaults.quantity p i).rat (step.offer p i))
              (largest steps p i) := by rw [hrest.defaults, hstep.defaults]
        _ = max (s.1.ledger.defaults.quantity p i).rat (largest (step :: steps) p i) :=
          max_assoc _ _ _
    case owned =>
      intro i
      have hgained : gained (step :: steps) i = step.asks .gain i + gained steps i := by
        simp [gained]
      change (afterAll lookup steps (step.after lookup s)).1.owned i = _
      rw [hrest.owned, hstep.owned, hgained, lost]
      push_cast
      ring

/-- The account of all items over whole runs, from nothing carried and nothing declared. -/
theorem accounts_balance (listeners : List String) (traits : TraitBook Rat) (speed : Rat) (src : σ)
    (steps : List Step) (h : ∀ step ∈ steps, step.Exact)
    : let start : Belongings Rat × σ := ({ inventory := { listeners }, traits, speed }, src)
      let s := afterAll lookup steps start
      (∀ item, s.1.total item
        = (∑ᶠ place, largest steps place item) + gained steps item - lost lookup steps start item)
      ∧ (∀ item, (Function.support fun place => s.1.ledger.stock place item).Finite
        ∧ (Function.support fun place => largest steps place item).Finite)
      ∧ (∀ place item, 0 ≤ s.1.ledger.stock place item)
      ∧ (∀ here topic e, (Step.publish here topic e).Exact →
        Topic.covers ItemVerb.take.topic topic ∨ Topic.covers ItemVerb.drop.topic topic →
        ∀ item, ((Step.publish here topic e).after lookup s).1.total item = s.1.total item)
      ∧ ∀ location items, Step.declare location items ∈ steps →
        (Step.declare location items).after lookup s = s := by
  intro start s
  have hbalances := balances_afterAll lookup h (s := start) Ledger.whole_empty
  have hdefaults (place item : String) :
      (s.1.ledger.defaults.quantity place item).rat = largest steps place item := by
    rw [hbalances.defaults]
    exact max_eq_right (largest_nonneg steps place item)
  have hstart (item : String) : start.1.owned item = 0 := by
    simp [start, owned, Ledger.moved, Layer.quantity, Inventory.count]
  refine ⟨fun item => ?_, fun item => ?_, hbalances.whole.stock_nonneg, ?_, ?_⟩
  case refine_1 =>
    rw [total_eq, hbalances.owned, hstart]
    simp only [hdefaults]
    ring
  case refine_2 =>
    refine ⟨s.1.ledger.finite_stock item, ?_⟩
    have := s.1.ledger.defaults.finite_support item
    simpa only [hdefaults] using this
  case refine_3 =>
    intro here topic e hexact hcovers item
    have hstep := Step.balances lookup hexact hbalances.whole
    -- a topic that reaches taking or dropping reaches neither gaining nor losing
    have hreached : ItemVerb.reached? topic = some .take
        ∨ ItemVerb.reached? topic = some .drop := by
      simpa only [ItemVerb.covers_eq, decide_eq_true_eq] using hcovers
    have hgain : (Step.publish here topic e).asks .gain item = 0 := by
      rcases hreached with hreached | hreached <;> simp [Step.asks, ItemVerb.covers_eq, hreached]
    have hlose : (Step.publish here topic e).asks .lose item = 0 := by
      rcases hreached with hreached | hreached <;> simp [Step.asks, ItemVerb.covers_eq, hreached]
    have hsame (place item : String) :
        (((Step.publish here topic e).after lookup s).1.ledger.defaults.quantity place item).rat
          = (s.1.ledger.defaults.quantity place item).rat := by
      rw [hstep.defaults]
      exact max_eq_left (hbalances.whole.defaults.nonneg place item)
    rw [total_eq, total_eq, hstep.owned, hgain, hlose]
    simp only [hsame]
    simp [s]
  case refine_4 =>
    intro location items hmem
    apply Step.after_declare_self lookup (h _ hmem)
    intro place item
    rw [hdefaults]
    exact offer_le_largest hmem place item

/-- An inn with two apples, of which one is taken; more are lost than are carried. -/
def appleSteps : List Step :=
  let apples : Value Rat := .object [("id", .text "apple"), ("quantity", .int 2)]
  [.declare (.text "inn") (.list [apples]),
    .publish (.text "inn") "take:apple" ⟨"take:apple", "take", [.text "apple"]⟩,
    .publish (.text "inn") "lose:apple:5" ⟨"lose:apple:5", "lose", [.text "apple", .text "5"]⟩]

theorem accounts_balance_apple
    : let lookup : ItemLookup Rat Unit := fun _ => pure .null
      let start : Belongings Rat × Unit := ({ inventory := {}, traits := {}, speed := 1 }, ())
      (∀ step ∈ appleSteps, step.Exact)
      ∧ largest appleSteps "inn" "apple" = 2 ∧ gained appleSteps "apple" = 0
      ∧ lost lookup appleSteps start "apple" = 1
      ∧ (afterAll lookup appleSteps start).1.total "apple"
        = (∑ᶠ place, largest appleSteps place "apple") + (0 : Nat) - (1 : Nat) := by
  intro lookup start
  have hexact : ∀ step ∈ appleSteps, step.Exact := by
    have hinn : ∃ place, (Value.text "inn" : Value Rat).text? = .ok place := ⟨"inn", by simp⟩
    have hcountable : Ledger.Countable [("id", .text "apple"), ("quantity", .int 2)] := by
      refine ⟨⟨"apple", by simp [Record.field, Table.get?]⟩, 2, ?_⟩
      exact (Ledger.quantity_num (.int 2) 1).trans (by simp)
    have htrim {token head : String} {args : List (Value Rat)} :
        Trim ⟨token, head, .text "apple" :: args⟩ := by
      rintro _ ⟨⟩
      exact ⟨"apple", by simp, by decide +kernel⟩
    intro step hstep
    simp only [appleSteps, List.mem_cons, List.not_mem_nil, or_false] at hstep
    rcases hstep with rfl | rfl | rfl
    . refine ⟨hinn, fun row hrow => ?_⟩
      obtain rfl := List.mem_singleton.mp hrow
      exact hcountable
    . exact ⟨hinn, htrim⟩
    . exact ⟨hinn, htrim⟩
  have hgained : gained appleSteps "apple" = 0 := by decide +kernel
  have hlost : lost lookup appleSteps start "apple" = 1 := by decide +kernel
  refine ⟨hexact, by decide +kernel, hgained, hlost, ?_⟩
  rw [← hgained, ← hlost]
  exact (accounts_balance lookup [] {} 1 () appleSteps hexact).1 "apple"

end Belongings

end Storyworld
