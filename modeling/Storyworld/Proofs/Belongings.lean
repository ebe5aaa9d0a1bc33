import Storyworld.Proofs.Inventory
import Storyworld.Proofs.Ledger
import Storyworld.Proofs.Trait

/-!
This module contains what trades keep of the belongings: the counts, the account and the traits stay
well-formed, and whenever something comes in or goes out the travel speed follows.
-/

namespace Storyworld.Belongings

/-! ### What items that change hands keep -/

section

variable {ρ σ : Type} [Scalar ρ] {lookup : ItemLookup ρ σ} {P : Belongings ρ × σ → Prop}

theorem keeps_shiftTraits
    (hincrease : ∀ name amount, Act.Keeps P (onTraits (TraitBook.increase name (.real amount))))
    (hdecrease : ∀ name amount, Act.Keeps P (onTraits (TraitBook.decrease name (.real amount))))
    (delta : Int) (ms : List (String × Value ρ)) : Act.Keeps P (shiftTraits delta ms) := by
  induction ms with
  | nil => apply Act.keeps_pure
  | cons m ms ih =>
    obtain ⟨name, v⟩ := m
    cases v with
    | num n =>
      unfold shiftTraits
      refine Act.keeps_bind (Act.keeps_lift _) fun x => ?_
      refine Act.keeps_bind (Act.keeps_lift _) fun y => ?_
      dsimp only
      split
      . exact Act.keeps_bind (hincrease name _) fun _ => ih
      . split
        . exact Act.keeps_bind (hdecrease name _) fun _ => ih
        . exact ih
    | _ => exact ih

theorem keeps_hear (hlookup : ∀ id b, Act.Keeps (fun src => P (b, src)) (lookup id))
    (hspeed : ∀ speed b src, P (b, src) → P ({ b with speed }, src))
    (hchange : ∀ name f, Act.Keeps P (onTraits (TraitBook.change name f)))
    (listener : String) (change : InventoryChange) : Act.Keeps P (hear lookup listener change) := by
  apply Act.keeps_ite
  . refine Act.keeps_bind Act.keeps_get fun s => ?_
    refine Act.keeps_bind (Act.keeps_second fun b => ?_) fun speed => ?_
    . exact Travel.keeps_speed (fun id => hlookup id b) _
    . exact fun s hs => hspeed speed s.1 s.2 hs
  . apply Act.keeps_ite
    . refine Act.keeps_bind (Act.keeps_second fun b => ?_) fun row => ?_
      . exact ItemLookup.keeps_record (fun id => hlookup id b) _
      . exact keeps_shiftTraits (fun _ _ => hchange _ _) (fun _ _ => hchange _ _) _ _
    . apply Act.keeps_pure

theorem keeps_tell (h : ∀ listener change, Act.Keeps P (hear lookup listener change))
    (notices : List (String × InventoryChange)) : Act.Keeps P (tell lookup notices) :=
  Inventory.keeps_deliver h notices

/-- A property that is kept when items come in and go out, and when either is put to account. -/
structure Bears (lookup : ItemLookup ρ σ) (P : Belongings ρ × σ → Prop) : Prop where
  receive : ∀ id qty, Act.Keeps P (receive lookup id qty)
  surrender : ∀ id qty, Act.Keeps P (surrender lookup id qty)
  add : ∀ location item qty, Act.Keeps P (onLedger (Ledger.add location item qty))
  remove : ∀ location item qty, Act.Keeps P (onLedger (Ledger.remove location item qty))

theorem Bears.take (h : Bears lookup P) (location item : Value ρ) (qty : Nat)
    : Act.Keeps P (take lookup location item qty) := by
  unfold Belongings.take
  refine Act.keeps_bind (h.remove location item _) fun taken => ?_
  apply Act.keeps_ite
  . refine Act.keeps_bind (Act.keeps_lift _) fun whole => ?_
    refine Act.keeps_bind (h.receive item _) fun _ => ?_
    apply Act.keeps_pure
  . apply Act.keeps_pure

theorem Bears.drop (h : Bears lookup P) (location item : Value ρ) (qty : Nat)
    : Act.Keeps P (drop lookup location item qty) := by
  unfold Belongings.drop
  refine Act.keeps_bind (h.surrender item _) fun dropped => ?_
  apply Act.keeps_ite
  . exact h.add location item _
  . apply Act.keeps_pure

theorem Bears.handlePayload (h : Bears lookup P) (verb : ItemVerb) (here : Except Fault (Value ρ))
    (payload : Payload ρ) : Act.Keeps P (handlePayload lookup verb here payload) := by
  cases payload with
  | value v => apply Act.keeps_throw
  | hours x => apply Act.keeps_throw
  | event e =>
    change Act.Keeps _ (handle lookup verb here e)
    unfold handle
    cases e.args with
    | nil => apply Act.keeps_pure
    | cons item args =>
      apply Act.keeps_ite
      . cases verb with
        | take =>
          refine Act.keeps_bind (Act.keeps_lift _) fun location => ?_
          apply Act.keeps_ite
          . refine Act.keeps_bind (Act.keeps_lift _) fun qty => ?_
            exact h.take location item qty
          . apply Act.keeps_pure
        | drop =>
          refine Act.keeps_bind (Act.keeps_lift _) fun location => ?_
          apply Act.keeps_ite
          . refine Act.keeps_bind (Act.keeps_lift _) fun qty => ?_
            exact h.drop location item qty
          . apply Act.keeps_pure
        | gain =>
          refine Act.keeps_bind (Act.keeps_lift _) fun qty => ?_
          refine Act.keeps_bind (h.receive item _) fun _ => ?_
          apply Act.keeps_pure
        | lose =>
          refine Act.keeps_bind (Act.keeps_lift _) fun qty => ?_
          refine Act.keeps_bind (h.surrender item _) fun _ => ?_
          apply Act.keeps_pure
      . apply Act.keeps_pure

theorem recomputeSpeed_cases {look : String → Value ρ} (hlook : lookup.Shows look) (b : Belongings ρ)
    (src : σ)
    : ∃ src', (∃ e, Travel.speedOf look b.inventory.counts = .error e
        ∧ (recomputeSpeed lookup).run (b, src) = (.error e, b, src'))
      ∨ ∃ v, Travel.speedOf look b.inventory.counts = .ok v
        ∧ (recomputeSpeed lookup).run (b, src) = (.ok (), { b with speed := v }, src') := by
  have hspeed := Travel.yields_speed hlook b.inventory src
  unfold recomputeSpeed
  simp only [Act.run_bind, Act.run_get, Act.run_onSecond]
  rcases hrun : (Travel.speed lookup b.inventory).run src with ⟨e | v, src'⟩
  . rw [hrun] at hspeed
    exact ⟨src', .inl ⟨e, hspeed.symm, rfl⟩⟩
  . rw [hrun] at hspeed
    exact ⟨src', .inr ⟨v, hspeed.symm, rfl⟩⟩

/-- A trade leaves the belongings as they are, or it changes the counts; then the speed is computed
first, and the traits are shifted after that. -/
theorem keeps_trade_of {Q : Belongings ρ → Prop}
    (hlisteners : ∀ b, Q b → b.inventory.listeners = [speedListener, traitListener])
    (hspeed : ∀ b counts src, Q b →
      (Inventory.Stocked b.inventory.counts → Inventory.Stocked counts) →
      Q ((recomputeSpeed lookup).run
        ({ b with inventory := { b.inventory with counts } }, src)).2.1)
    (hincrease : ∀ name amount, Act.Keeps (fun b : Belongings ρ × σ => Q b.1)
      (onTraits (TraitBook.increase name (.real amount))))
    (hdecrease : ∀ name amount, Act.Keeps (fun b : Belongings ρ × σ => Q b.1)
      (onTraits (TraitBook.decrease name (.real amount))))
    {act : Act Inventory (Nat × List (String × InventoryChange))} (hact : Inventory.Trades act)
    : Act.Keeps (fun b : Belongings ρ × σ => Q b.1) (do
      let (amount, notices) ← onInventory act
      tell lookup notices
      return amount) := by
  have htraits (change : InventoryChange) : Act.Keeps (fun b : Belongings ρ × σ => Q b.1)
      (tell lookup [(traitListener, change)]) := by
    have hne : traitListener ≠ speedListener := by decide
    unfold tell Inventory.deliver
    refine Act.keeps_bind (Act.keeps_attempt ?_) fun _ => Act.keeps_pure _
    unfold hear
    rw [if_neg hne, if_pos rfl]
    refine Act.keeps_bind Act.keeps_onSecond fun row => ?_
    exact keeps_shiftTraits hincrease hdecrease _ _
  rintro ⟨b, src⟩ h
  unfold onInventory
  rw [Act.run_bind, Act.run_onFirst, Act.run_within]
  rcases hact b.inventory with ⟨result, hrun, hnobody⟩ | ⟨amount, change, counts, hrun, hstocked⟩
  . rw [hrun]
    rcases result with e | ⟨amount, notices⟩
    . exact h
    . obtain rfl := hnobody amount notices rfl
      exact h
  . rw [hrun]
    have hnotices : b.inventory.notices change = [(speedListener, change), (traitListener, change)] := by
      unfold Inventory.notices
      rw [hlisteners b h]
      rfl
    dsimp only
    rw [Act.run_bind_pure_snd, hnotices]
    unfold tell Inventory.deliver
    rw [Act.run_bind, Act.run_attempt]
    exact htraits change _ (hspeed b counts src h hstocked)

end

/-! ### Well-formed belongings -/

/-- The parts of the belongings are well-formed, and those who listen to the inventory are there. -/
structure Kept (names : List String) (b : Belongings Rat) : Prop where
  listeners : b.inventory.listeners = [speedListener, traitListener]
  stocked : Inventory.Stocked b.inventory.counts
  clamped : b.traits.Clamped names
  settled : b.ledger.Settled

/-- The belongings are kept, and the speed is that of what is carried, where this gives one. -/
structure Sound (look : String → Value Rat) (names : List String) (b : Belongings Rat) : Prop
    extends Kept names b where
  paced : ∀ v, Travel.speedOf look b.inventory.counts = .ok v → b.speed = v

variable {σ : Type} {look : String → Value Rat} {names : List String} {lookup : ItemLookup Rat σ}

theorem keeps_onTraits {α : Type} {act : Act (TraitBook Rat) α}
    (h : Act.Keeps (TraitBook.Clamped names) act)
    : Act.Keeps (fun b : Belongings Rat × σ => Sound look names b.1) (onTraits act) := by
  have hwithin : Act.Keeps (Sound look names)
      (Act.within traits (fun traits b => { b with traits }) act) :=
    Act.keeps_within h (fun _ hb => hb.clamped) fun _ _ hb ht => { hb with clamped := ht }
  exact Act.keeps_within hwithin (fun _ hb => hb) fun _ _ _ hb => hb

theorem keeps_onLedger {α : Type} {act : Act (Ledger Rat) α} (h : Act.Keeps Ledger.Settled act)
    : Act.Keeps (fun b : Belongings Rat × σ => Sound look names b.1) (onLedger act) := by
  have hwithin : Act.Keeps (Sound look names)
      (Act.within ledger (fun ledger b => { b with ledger }) act) :=
    Act.keeps_within h (fun _ hb => hb.settled) fun _ _ hb hl => { hb with settled := hl }
  exact Act.keeps_within hwithin (fun _ hb => hb) fun _ _ _ hb => hb

theorem sound_recomputeSpeed (hlook : lookup.Shows look) {b : Belongings Rat} (h : Kept names b)
    (src : σ) : Sound look names ((recomputeSpeed lookup).run (b, src)).2.1 := by
  obtain ⟨src', ⟨e, hspeed, hrun⟩ | ⟨v, hspeed, hrun⟩⟩ := recomputeSpeed_cases hlook b src
  . rw [hrun]
    refine ⟨h, fun v hv => ?_⟩
    rw [hspeed] at hv
    cases hv
  . rw [hrun]
    refine ⟨{ h with }, fun w hw => ?_⟩
    change Travel.speedOf look b.inventory.counts = .ok w at hw
    rw [hspeed] at hw
    exact Except.ok.inj hw

theorem keeps_trade (hlook : lookup.Shows look)
    {act : Act Inventory (Nat × List (String × InventoryChange))} (hact : Inventory.Trades act)
    : Act.Keeps (fun b : Belongings Rat × σ => Sound look names b.1) (do
      let (amount, notices) ← onInventory act
      tell lookup notices
      return amount) := by
  refine keeps_trade_of (fun b h => h.listeners) ?_ ?_ ?_ hact
  . intro b counts src h hstocked
    have hkept : Kept names { b with inventory := { b.inventory with counts } } :=
      { h.toKept with stocked := hstocked h.stocked }
    exact sound_recomputeSpeed hlook hkept src
  . exact fun name amount => keeps_onTraits (TraitBook.keeps_increase name amount)
  . exact fun name amount => keeps_onTraits (TraitBook.keeps_decrease name amount)

theorem keeps_receive (hlook : lookup.Shows look) (id qty : Value Rat)
    : Act.Keeps (fun b : Belongings Rat × σ => Sound look names b.1) (receive lookup id qty) :=
  keeps_trade hlook (Inventory.trades_add id qty)

theorem keeps_surrender (hlook : lookup.Shows look) (id qty : Value Rat)
    : Act.Keeps (fun b : Belongings Rat × σ => Sound look names b.1) (surrender lookup id qty) :=
  keeps_trade hlook (Inventory.trades_remove id qty)

theorem keeps_handlePayload (hlook : lookup.Shows look) (verb : ItemVerb)
    (here : Except Fault (Value Rat)) (payload : Payload Rat)
    : Act.Keeps (fun b : Belongings Rat × σ => Sound look names b.1)
      (handlePayload lookup verb here payload) := by
  apply Bears.handlePayload
  constructor
  case receive => exact keeps_receive hlook
  case surrender => exact keeps_surrender hlook
  case add => exact fun location item qty => keeps_onLedger (Ledger.keeps_add location item qty)
  case remove =>
    exact fun location item qty => keeps_onLedger (Ledger.keeps_remove location item qty)

end Storyworld.Belongings
