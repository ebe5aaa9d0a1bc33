import Storyworld.Proofs.Exact
import Storyworld.Proofs.Value
import Storyworld.Session

/-!
This module contains the way of a snapshot through its payload. Where the places have names and the
numbers are no truth values, what is read is what was written, with scalars for its numbers.
-/

namespace Storyworld

def Pointer.Named {ρ : Type} (p : Pointer ρ) : Prop :=
  (∃ l, p.location = .text l ∧ l ≠ "") ∧ (p.scene = .null ∨ ∃ s, p.scene = .text s ∧ s ≠ "")

section

variable {ρ : Type} [Scalar ρ]

namespace Value

theorem membersOf_text (ms : Record ρ)
    : membersOf (ms.map fun (k, v) => (.text k, v)) = .ok (.object ms) := by
  unfold membersOf
  refine (congrArg (object <$> ·) (Fault.mapM_map_eq_ok (g := id) ?_)).trans ?_
  . intro _ _
    rfl
  . rw [List.map_id]
    rfl

theorem itemsOr_list (items : List (Value ρ)) : (Value.list items).itemsOr = .ok items := by
  unfold itemsOr
  cases items with
  | nil => rfl
  | cons v items => rfl

end Value

namespace Snapshot

omit [Scalar ρ] in
theorem mapM_rowPlace (history : List (Pointer ρ))
    : (history.map Session.row).mapM rowPlace
      = .ok (history.map fun q => place q.location q.scene) :=
  Fault.mapM_map_eq_ok fun _ _ => rfl

theorem given?_scene {p : Pointer ρ} (h : p.Named) : p.scene.given? = .ok p.scene := by
  rcases h.2 with hnull | ⟨s, hs, hne⟩
  . rw [hnull]
    rfl
  . rw [hs]
    exact Value.given?_text hne

theorem rowOf?_place {q : Pointer ρ} (h : q.Named)
    : rowOf? (place q.location q.scene) = .ok (some (Session.row q)) := by
  have hscene := given?_scene h
  obtain ⟨⟨l, hl, hne⟩, _⟩ := h
  have hgiven : (Value.text l : Value ρ).isGiven = true := Value.isGiven_text.mpr hne
  unfold rowOf? place Session.row
  simp only [Record.field, Table.get?, if_true, Option.getD_some]
  simp [hl, hgiven, hscene, bind, Except.bind, pure, Except.pure]

theorem historyOf_places {history : List (Pointer ρ)} (h : ∀ q ∈ history, q.Named)
    : historyOf (.list (history.map fun q => place q.location q.scene))
      = .ok (history.map Session.row) := by
  have hrows : (history.map fun q => place q.location q.scene).filterMapM rowOf?
      = .ok (history.map Session.row) := by
    induction history with
    | nil => rfl
    | cons q history ih =>
      rw [List.map_cons, List.filterMapM_cons, rowOf?_place (h q List.mem_cons_self),
        ih fun q hq => h q (List.mem_cons_of_mem _ hq)]
      rfl
  unfold historyOf
  rw [Value.itemsOr_list]
  exact hrows

theorem eventsOf_tokens {tokens : List String} (h : ∀ token ∈ tokens, Text.strip token ≠ "")
    : eventsOf (.list (tokens.map .text) : Value ρ) = .ok (tokens.map .text) := by
  have htexts : (tokens.map (.text : String → Value ρ)).mapM Value.text? = .ok (tokens.map id) :=
    Fault.mapM_map_eq_ok fun token _ => Value.text?_text token
  have hkept : tokens.filter (fun token => Text.strip token != "") = tokens := by
    rw [List.filter_eq_self]
    intro token htoken
    simpa using h token htoken
  have hlist : (.list (tokens.map .text) : Value ρ).listD = tokens.map .text := rfl
  unfold eventsOf
  rw [hlist, htexts, List.map_id]
  simp only [bind, Except.bind, hkept]
  rfl

/-- The numbers of a record are read one by one. -/
theorem numbers_mapEntries {α : Type} (number : α → Number ρ) (scalar : α → ρ) {read : α → Value ρ}
    {f : Number ρ → ρ → Except Fault (Value ρ)} {t : Table α}
    (hfinite : ∀ name a, (name, a) ∈ t → finite? (.num (number a)) = .ok (some (scalar a)))
    (hf : ∀ name a, (name, a) ∈ t → f (number a) (scalar a) = .ok (read a))
    : numbers f (Table.mapEntries (fun a => .num (number a)) t) = .ok (Table.mapEntries read t) := by
  induction t with
  | nil => rfl
  | cons e t ih =>
    obtain ⟨name, a⟩ := e
    have hrest := ih (fun name a h => hfinite name a (List.mem_cons_of_mem _ h))
      fun name a h => hf name a (List.mem_cons_of_mem _ h)
    unfold Table.mapEntries at hrest ⊢
    rw [List.map_cons, List.map_cons]
    unfold numbers
    rw [hfinite name a List.mem_cons_self, hrest]
    simp only [bind, Except.bind, hf name a List.mem_cons_self]
    rfl

end Snapshot

end

namespace Snapshot

theorem finite?_num {n : Number Rat} (h : ∀ b, n ≠ .flag b)
    : finite? (.num n) = .ok (some n.rat) := by
  cases n with
  | flag b => exact absurd rfl (h b)
  | int i => rfl
  | real x => rfl

theorem traitsOf_mapEntries {t : Table (Number Rat)}
    (h : ∀ name n, (name, n) ∈ t → ∀ b, n ≠ .flag b)
    : traitsOf (Table.mapEntries .num t) = .ok (Table.mapEntries (fun n => .real n.rat) t) :=
  numbers_mapEntries id Number.rat (fun name n hn => finite?_num (h name n hn)) fun _ _ _ => rfl

theorem countsOf_mapEntries (t : Table Nat)
    : countsOf (Table.mapEntries (fun n : Nat => (.int n : Value Rat)) t)
      = .ok (Table.mapEntries (fun n : Nat => .int n) t) := by
  apply numbers_mapEntries (fun n : Nat => .int n) fun n => (n : Rat)
  . intro _ n _
    apply finite?_num
    intro b hb
    cases hb
  . intro _ n _
    have htruncate : (Number.int n : Number Rat).truncate = .ok (n : Int) := by
      unfold Number.truncate Rat.truncate
      simp
    rw [htruncate]
    rfl

def written (place : Value Rat) (history : List (Value Rat)) (traits : Record Rat)
    (events : List (Value Rat)) (inventory world : Record Rat) (time : Value Rat) : Record Rat :=
  [("version", .int formatVersion), ("pointer", place), ("history", .list history),
    ("traits", .object traits), ("domainEvents", .list events), ("inventory", .object inventory),
    ("world", .object world), ("time", time)]

theorem toPayload_eq (location scene : Value Rat) (history : List (Pointer Rat)) (time : Number Rat)
    (traits : Record Rat) (events : List (Value Rat)) (inventory world : Record Rat)
    : toPayload {
        location, scene
        history := .list (history.map Session.row)
        time := .num time
        traits := .object traits
        events := .list events
        inventory := .object inventory
        world := .object world }
      = .ok (.object (written (place location scene)
        (history.map fun q => place q.location q.scene) traits events inventory world
        (.num time))) := by
  have hparts : parts {
        location, scene
        history := .list (history.map Session.row)
        time := .num time
        traits := .object traits
        events := .list events
        inventory := .object inventory
        world := .object world }
      = .ok {
        pointer := place location scene
        history := history.map fun q => place q.location q.scene
        traits := traits.map fun (k, v) => (.text k, v)
        events
        inventory := inventory.map fun (k, v) => (.text k, v)
        world := world.map fun (k, v) => (.text k, v)
        time := .num time } := by
    unfold parts
    simp only [Value.items, Value.toMapping, bind, Except.bind, mapM_rowPlace]
    rfl
  unfold toPayload
  rw [hparts]
  simp only [bind, Except.bind]
  unfold Parts.payload
  simp only [Value.membersOf_text, bind, Except.bind]
  rfl

theorem read_written {p : Pointer Rat} (hp : p.Named) {history : List (Pointer Rat)}
    (hhistory : ∀ q ∈ history, q.Named) {time : Number Rat} (hhour : ∀ b, time ≠ .flag b)
    {traits : Table (Number Rat)} (htraits : ∀ name n, (name, n) ∈ traits → ∀ b, n ≠ .flag b)
    {tokens : List String} (htokens : ∀ token ∈ tokens, Text.strip token ≠ "") (counts : Table Nat)
    (world : Record Rat)
    : ofPayload (.object (written (place p.location p.scene)
        (history.map fun q => place q.location q.scene) (Table.mapEntries .num traits)
        (tokens.map .text) (Table.mapEntries (fun n : Nat => .int n) counts) world (.num time)))
      = .ok (some {
        location := p.location
        scene := p.scene
        history := .list (history.map Session.row)
        time := .real time.rat
        traits := .object (Table.mapEntries (fun n => .real n.rat) traits)
        events := .list (tokens.map .text)
        inventory := .object (Table.mapEntries (fun n : Nat => .int n) counts)
        world := .object world }) := by
  have hscene := given?_scene hp
  obtain ⟨⟨l, hl, hne⟩, _⟩ := hp
  have hgiven : (Value.text l : Value Rat).isGiven = true := Value.isGiven_text.mpr hne
  -- the one part that is a number of its own and not of the session
  have hversion : versionOf (.int formatVersion : Value Rat) = .ok 1 := by decide +kernel
  have htime : timeOf (.num time) = .ok (.real time.rat) := by
    unfold timeOf
    rw [finite?_num hhour]
    rfl
  unfold ofPayload written
  simp only [Record.field, Table.get?, String.reduceEq, if_false, if_true, Option.getD_some, place]
  rw [hl, if_pos hgiven]
  unfold read
  simp only [Record.field, Table.get?, String.reduceEq, if_false, if_true, Option.getD_some,
    Value.text?_text]
  have hplaces := historyOf_places hhistory
  unfold place at hplaces
  simp only [bind, Except.bind, hplaces, hscene, htime, Value.recordD_object,
    traitsOf_mapEntries htraits, eventsOf_tokens htokens, countsOf_mapEntries, hversion]
  rfl

end Snapshot

namespace Session

variable {σ : Type}

/-- The snapshot of a session at a place and an hour as it comes back through a payload. -/
def returned (s : Session Rat σ) (p : Pointer Rat) (time : Number Rat) : Snapshot Rat where
  location := p.location
  scene := p.scene
  history := .list (s.navigation.history.map row)
  time := .real time.rat
  traits := .object (Table.mapEntries (fun n => .real n.rat) s.goods.traits.snapshot)
  events := .list (s.log.tokens.map .text)
  inventory := .object (Table.mapEntries (fun n : Nat => .int n) s.goods.inventory.counts)
  world := .object s.goods.ledger.toRecord

theorem ofPayload_snapshot {s : Session Rat σ} {p : Pointer Rat} {time : Number Rat}
    (hpointer : s.navigation.pointer = some p) (hp : p.Named)
    (hhistory : ∀ q ∈ s.navigation.history, q.Named)
    (htime : s.clock.time = .num time) (hhour : ∀ b, time ≠ .flag b)
    (htraits : ∀ name n, (name, n) ∈ s.goods.traits.snapshot → ∀ b, n ≠ .flag b)
    (htokens : ∀ token ∈ s.log.tokens, Text.strip token ≠ "")
    : ∃ snapshot payload, s.snapshot = some snapshot ∧ snapshot.toPayload = .ok payload
      ∧ Snapshot.ofPayload payload = .ok (some (s.returned p time)) := by
  unfold snapshot
  rw [hpointer, htime]
  exact ⟨_, _, rfl, Snapshot.toPayload_eq ..,
    Snapshot.read_written hp hhistory hhour htraits htokens ..⟩

end Session

end Storyworld
