import Mathlib.Data.List.Induction
import Storyworld.Bus
import Storyworld.Proofs.Act
import Storyworld.Proofs.Table

/-!
This module contains what a publication calls: the handlers of all live subscriptions that the topic
reaches, in the order of their priority and of their subscription. Whom it calls is settled when it
starts, whatever the handlers do to the bus while they are called.
-/

namespace Storyworld

/-- A topic covers itself and, where it ends in a star, all that start as it does before it. -/
theorem Topic.covers_iff {subscribed published : String}
    : Topic.covers subscribed published = true
      ↔ subscribed = published
        ∨ ∃ start rest, subscribed = start ++ "*" ∧ published = start ++ rest := by
  unfold Topic.covers
  rw [Bool.or_eq_true, beq_iff_eq]
  apply or_congr_right
  constructor
  . intro h
    split at h
    next start hreverse =>
      rw [List.isPrefixOf_iff_prefix] at h
      obtain ⟨rest, hrest⟩ := h
      rw [List.reverse_eq_iff, List.reverse_cons] at hreverse
      refine ⟨.ofList start.reverse, .ofList rest, ?_, ?_⟩
      . apply String.toList_inj.mp
        rw [hreverse, String.toList_append, String.toList_ofList]
        rfl
      . apply String.toList_inj.mp
        rw [← hrest, String.toList_append, String.toList_ofList, String.toList_ofList]
    next => cases h
  . rintro ⟨start, rest, rfl, rfl⟩
    have hreverse : (start ++ "*").toList.reverse = '*' :: start.toList.reverse := by
      rw [String.toList_append, List.reverse_append]
      rfl
    rw [hreverse, String.toList_append]
    simp

namespace Bus

variable {η : Type}

/-- A change to the subscriptions of a bus. -/
inductive Command (η : Type) where
  | subscribe (topic : String) (handler : η) (priority : Int)
  | unsubscribe (topic : String) (handler : η)
  | clear

/-- The subscription that a command makes, with its topic, where there have been so many before. The
empty topic cannot be subscribed to. -/
def Command.made (earlier : Nat) : Command η → List (String × Subscription η)
  | .subscribe topic handler priority =>
    if topic = "" then [] else [(topic, ⟨priority, earlier, handler⟩)]
  | .unsubscribe .. => []
  | .clear => []

variable [DecidableEq η]

def Command.after (bus : Bus η) : Command η → Bus η
  | .subscribe topic handler priority => bus.subscribe topic handler priority
  | .unsubscribe topic handler => bus.unsubscribe topic handler
  | .clear => bus.clear

/-- Whether a command removes the subscriptions of a handler to a topic. -/
def Command.removes (topic : String) (handler : η) : Command η → Bool
  | .subscribe .. => false
  | .unsubscribe other handler' => other == topic && handler' == handler
  | .clear => true

/-- The subscriptions that commands make and no later one removes, each with its topic and numbered
in the order in which they are made. -/
def live (earlier : Nat) : List (Command η) → List (String × Subscription η)
  | [] => []
  | command :: later =>
    (command.made earlier).filter (fun entry => !later.any (·.removes entry.1 entry.2.handler))
      ++ live (earlier + (command.made earlier).length) later

/-- How many subscriptions commands make. -/
def count (commands : List (Command η)) : Nat := (commands.flatMap (·.made 0)).length

omit [DecidableEq η] in
theorem Command.length_made (c : Command η) (earlier : Nat)
    : (c.made earlier).length = (c.made 0).length := by
  cases c with
  | subscribe topic handler priority =>
    simp only [made]
    split <;> rfl
  | _ => rfl

theorem live_concat (commands : List (Command η)) (c : Command η) (earlier : Nat)
    : live earlier (commands ++ [c])
      = (live earlier commands).filter (fun entry => !c.removes entry.1 entry.2.handler)
        ++ c.made (earlier + count commands) := by
  induction commands generalizing earlier with
  | nil => simp [live, count]
  | cons command commands ih =>
    have hcount : earlier + (command.made earlier).length + count commands
        = earlier + count (command :: commands) := by
      rw [command.length_made]
      simp [count, Nat.add_assoc]
    rw [List.cons_append]
    unfold live
    rw [ih, hcount, List.filter_append, List.filter_filter, List.append_assoc]
    simp only [List.any_append, List.any_cons, List.any_nil, Bool.or_false, Bool.not_or,
      Bool.and_comm]

omit [DecidableEq η] in
theorem order_made {c : Command η} {earlier : Nat} {entry : String × Subscription η}
    (h : entry ∈ c.made earlier) : c.made earlier = [entry] ∧ entry.2.order = earlier := by
  cases c with
  | subscribe topic handler priority =>
    by_cases htopic : topic = ""
    . simp [Command.made, htopic] at h
    . simp only [Command.made, htopic, if_false, List.mem_singleton] at h ⊢
      rw [h]
      exact ⟨rfl, rfl⟩
  | unsubscribe _ _ => cases h
  | clear => cases h

theorem le_order_of_mem_live {commands : List (Command η)} {earlier : Nat}
    {entry : String × Subscription η} (h : entry ∈ live earlier commands)
    : earlier ≤ entry.2.order := by
  induction commands generalizing earlier with
  | nil => cases h
  | cons command commands ih =>
    unfold live at h
    rcases List.mem_append.mp h with h | h
    . exact Nat.le_of_eq (order_made (List.mem_of_mem_filter h)).2.symm
    . exact Nat.le_trans (Nat.le_add_right _ _) (ih h)

theorem pairwise_live (commands : List (Command η)) (earlier : Nat)
    : (live earlier commands).Pairwise fun a b => a.2.order < b.2.order := by
  induction commands generalizing earlier with
  | nil => exact .nil
  | cons command commands ih =>
    unfold live
    rw [List.pairwise_append]
    refine ⟨?_, ih _, ?_⟩
    . apply List.Pairwise.filter
      cases hmade : command.made earlier with
      | nil => exact .nil
      | cons entry rest =>
        rw [(order_made (hmade ▸ List.mem_cons_self)).1] at hmade
        cases hmade
        exact List.pairwise_singleton _ _
    . intro a ha b hb
      obtain ⟨hmade, horder⟩ := order_made (List.mem_of_mem_filter ha)
      have hle := le_order_of_mem_live hb
      rw [hmade, List.length_singleton] at hle
      omega

/-! ### The subscriptions of a bus -/

section

omit [DecidableEq η]

/-- All subscriptions of a table, each with its topic. -/
def entries (topics : Table (List (Subscription η))) : List (String × Subscription η) :=
  topics.flatMap fun (topic, rows) => rows.map (topic, ·)

theorem filter_others (topic : String) (rows : List (Subscription η))
    : (rows.map (topic, ·)).filter (·.1 != topic) = [] := by simp

/-- The subscriptions to one topic, apart from those to others. -/
theorem entries_split {topics : Table (List (Subscription η))} (h : (Table.names topics).Nodup)
    (topic : String)
    : (entries topics).Perm ((entries topics).filter (·.1 != topic)
      ++ ((Table.get? topics topic).getD []).map (topic, ·)) := by
  induction topics with
  | nil => exact .refl _
  | cons row topics ih =>
    obtain ⟨key, rows⟩ := row
    unfold Table.names at h
    rw [List.map_cons, List.nodup_cons] at h
    have hrest := ih h.2
    have hcons : entries ((key, rows) :: topics) = rows.map (key, ·) ++ entries topics := rfl
    rw [hcons, List.filter_append, Table.get?_cons]
    by_cases hkey : key = topic
    . subst hkey
      have hnone : Table.get? topics key = none := by
        by_contra hsome
        exact h.1 (Table.has_iff_mem_names.mp (Option.isSome_iff_ne_none.mpr hsome))
      rw [hnone, Option.getD_none, List.map_nil, List.append_nil] at hrest
      rw [filter_others, if_pos rfl, List.nil_append]
      exact List.perm_append_comm.trans (hrest.append_right _)
    . have hown : (rows.map (key, ·)).filter (·.1 != topic) = rows.map (key, ·) := by
        simp [hkey]
      rw [hown, if_neg hkey, List.append_assoc]
      exact hrest.append_left _

theorem entries_set_others (topics : Table (List (Subscription η))) (topic : String)
    (rows : List (Subscription η))
    : (entries (Table.set topics topic rows)).filter (·.1 != topic)
      = (entries topics).filter (·.1 != topic) := by
  unfold entries
  induction topics with
  | nil => simp [Table.set, filter_others]
  | cons row topics ih =>
    obtain ⟨key, others⟩ := row
    unfold Table.set
    by_cases hkey : key = topic
    . rw [if_pos hkey, List.flatMap_cons, List.flatMap_cons, List.filter_append,
        List.filter_append, hkey, filter_others, filter_others]
    . rw [if_neg hkey, List.flatMap_cons, List.flatMap_cons, List.filter_append,
        List.filter_append, ih]

theorem entries_set {topics : Table (List (Subscription η))} (h : (Table.names topics).Nodup)
    (topic : String) (rows : List (Subscription η))
    : (entries (Table.set topics topic rows)).Perm
      ((entries topics).filter (·.1 != topic) ++ rows.map (topic, ·)) := by
  have hnames : (Table.names (Table.set topics topic rows)).Nodup := Table.nodup_names_set h
  have hsplit := entries_split hnames topic
  rw [entries_set_others, Table.get?_set_self, Option.getD_some] at hsplit
  exact hsplit

/-- A bus after so many subscriptions holds those given, in some order. -/
structure Holds (bus : Bus η) (made : Nat) (subscriptions : List (String × Subscription η)) :
    Prop where
  names : (Table.names bus.topics).Nodup
  next_eq : bus.next = made
  entries_perm : (entries bus.topics).Perm subscriptions

end

theorem Holds.after {bus : Bus η} {made : Nat} {subscriptions : List (String × Subscription η)}
    (h : Holds bus made subscriptions) (c : Command η)
    : Holds (c.after bus) (made + (c.made 0).length)
      (subscriptions.filter (fun entry => !c.removes entry.1 entry.2.handler) ++ c.made made) := by
  obtain ⟨hnames, rfl, hperm⟩ := h
  cases c with
  | subscribe topic handler priority =>
    have hkept : subscriptions.filter (fun entry =>
        !(Command.subscribe topic handler priority).removes entry.1 entry.2.handler)
        = subscriptions := by simp [Command.removes]
    rw [hkept]
    by_cases htopic : topic = ""
    . simpa [Command.after, subscribe, Command.made, htopic] using ⟨hnames, rfl, hperm⟩
    . simp only [Command.after, subscribe, Command.made, htopic, if_false]
      refine ⟨Table.nodup_names_set hnames, rfl, (entries_set hnames topic _).trans ?_⟩
      rw [List.map_append, ← List.append_assoc]
      exact ((entries_split hnames topic).symm.trans hperm).append_right _
  | unsubscribe topic handler =>
    -- of the rows of the topic those of the handler go, and all other rows stay
    have hkept : (subscriptions.filter fun entry =>
        !(Command.unsubscribe topic handler).removes entry.1 entry.2.handler).Perm
        ((entries bus.topics).filter (·.1 != topic)
          ++ (((Table.get? bus.topics topic).getD []).filter (·.handler != handler)).map
            (topic, ·)) := by
      refine (hperm.symm.filter _).trans (((entries_split hnames topic).filter _).trans ?_)
      rw [List.filter_append, List.filter_filter, List.filter_map]
      apply List.Perm.of_eq
      congr 1
      . apply List.filter_congr
        intro entry _
        by_cases hkey : entry.1 = topic
        . simp [hkey]
        . simp [Command.removes, hkey, Ne.symm hkey]
      . congr 1
        apply List.filter_congr
        intro row _
        simp [Command.removes, bne, eq_comm]
    simp only [Command.after, unsubscribe, Command.made, List.append_nil, List.length_nil]
    cases hget : Table.get? bus.topics topic with
    | none =>
      have hsplit := entries_split hnames topic
      rw [hget] at hkept hsplit
      exact ⟨hnames, rfl, hsplit.trans hkept.symm⟩
    | some rows =>
      rw [hget] at hkept
      exact ⟨Table.nodup_names_set hnames, rfl, (entries_set hnames topic _).trans hkept.symm⟩
  | clear =>
    refine ⟨List.nodup_nil, rfl, ?_⟩
    simp [Command.removes, Command.made, entries, Command.after, clear]

theorem holds_live (commands : List (Command η))
    : Holds (commands.foldl Command.after {}) (count commands) (live 0 commands) := by
  induction commands using List.reverseRecOn with
  | nil => exact ⟨List.nodup_nil, rfl, .refl _⟩
  | append_singleton commands c ih =>
    have hcount : count (commands ++ [c]) = count commands + (c.made 0).length := by
      simp [count]
    rw [List.foldl_append, live_concat, hcount, Nat.zero_add]
    exact ih.after c

/-! ### Who is called -/

section

omit [DecidableEq η]

theorem pairwise_before (rows : List (Subscription η))
    : (rows.mergeSort before).Pairwise fun a b => before a b = true := by
  apply List.pairwise_mergeSort
  . intro a b c hab hbc
    simp only [before, Bool.or_eq_true, Bool.and_eq_true, decide_eq_true_eq, beq_iff_eq,
      Nat.ble_eq] at hab hbc ⊢
    omega
  . intro a b
    simp only [before, Bool.or_eq_true, Bool.and_eq_true, decide_eq_true_eq, beq_iff_eq,
      Nat.ble_eq]
    omega

theorem reached_perm (bus : Bus η) (topic : String)
    : (bus.reached topic).Perm
      (((entries bus.topics).filter fun entry => Topic.covers entry.1 topic).map Prod.snd) := by
  refine (List.mergeSort_perm _ _).trans (.of_eq ?_)
  unfold entries
  induction bus.topics with
  | nil => rfl
  | cons row topics ih =>
    obtain ⟨key, rows⟩ := row
    rw [List.flatMap_cons, List.flatMap_cons, List.filter_append, List.map_append, ih]
    congr 1
    dsimp only
    cases hcovers : Topic.covers key topic with
    | true => simp [List.filter_map, Function.comp_def, hcovers]
    | false => simp [List.filter_map, Function.comp_def, hcovers]

end

variable {ρ σ : Type}

/-- Handlers that do what they do, while it is noted which of them are called with what. -/
def noted (call : η → Payload ρ → Act σ Unit) (handler : η) (payload : Payload ρ)
    : Act (σ × List (η × Payload ρ)) Unit := do
  Act.onSecond (modify (· ++ [(handler, payload)]))
  Act.onFirst (call handler payload)

omit [DecidableEq η] in
theorem foldl_noted (modifyBus : (Bus η → Bus η) → σ → σ) (call : η → Payload ρ → Act σ Unit)
    (payload : Payload ρ) (rows : List (Subscription η)) (s : σ) (calls : List (η × Payload ρ))
    : rows.foldl (deliver (fun f s => (modifyBus f s.1, s.2))
        fun handler => noted call handler payload) (s, calls)
      = (rows.foldl (deliver modifyBus fun handler => call handler payload) s,
        calls ++ rows.map fun row => (row.handler, payload)) := by
  induction rows generalizing s calls with
  | nil => simp
  | cons row rows ih =>
    have hrow : deliver (fun f s => (modifyBus f s.1, s.2))
        (fun handler => noted call handler payload) (s, calls) row
        = (deliver modifyBus (fun handler => call handler payload) s row,
          calls ++ [(row.handler, payload)]) := by
      unfold deliver noted
      simp only [Act.run_bind, Act.run_onSecond, Act.run_modify, Act.run_onFirst]
      rcases (call row.handler payload).run s with ⟨_ | _, _⟩
      . rfl
      . rfl
    rw [List.foldl_cons, List.foldl_cons, hrow, ih, List.map_cons, List.append_assoc]
    rfl

/-- A publication calls the live subscriptions whose topic is the published one, or ends in a star
with the published one starting as it does before the star: each once, those of lower priority first
and among equals the earlier ones. These calls are settled when it starts, whatever the handlers do:
they may stop, change the subscriptions, and publish in turn. -/
theorem publish_calls_live (commands : List (Command η)) (failures : List Fault) (topic : String)
    (payload : Payload ρ)
    : ∃ calls : List (Subscription η),
      (∀ row, row ∈ calls ↔ ∃ key, (key, row) ∈ live 0 commands
        ∧ (key = topic ∨ ∃ start rest, key = start ++ "*" ∧ topic = start ++ rest))
      ∧ calls.Pairwise (fun a b =>
        a.priority < b.priority ∨ a.priority = b.priority ∧ a.order < b.order)
      ∧ ∀ (τ : Type) (call : η → Payload ρ → Act (Bus η × τ) Unit) (rest : τ),
        let s := ({ commands.foldl Command.after {} with failures }, rest)
        let played := publish (fun s => s.1.1) (fun f s => ((f s.1.1, s.1.2), s.2)) (noted call)
          topic payload (s, [])
        played.2 = calls.map (fun row => (row.handler, payload))
          ∧ played.1 = publish Prod.fst (fun f s => (f s.1, s.2)) call topic payload s := by
  obtain ⟨_, _, hperm⟩ := holds_live commands
  have hreached := reached_perm (commands.foldl Command.after {}) topic
  refine ⟨(commands.foldl Command.after {}).reached topic, ?_, ?_, ?_⟩
  . intro row
    simp only [hreached.mem_iff, List.mem_map, List.mem_filter, hperm.mem_iff, Prod.exists,
      exists_eq_right, Topic.covers_iff]
  . -- no two subscriptions have the same number
    have horders : ((commands.foldl Command.after {}).reached topic).Pairwise
        fun a b => a.order ≠ b.order := by
      refine (hreached.pairwise_iff fun h => h.symm).mpr ?_
      refine List.Pairwise.map Prod.snd (fun _ _ h => h) (List.Pairwise.filter _ ?_)
      refine (hperm.pairwise_iff fun h => h.symm).mpr ?_
      exact (pairwise_live commands 0).imp Nat.ne_of_lt
    refine ((pairwise_before _).and horders).imp ?_
    rintro a b ⟨hbefore, hne⟩
    simp only [before, Bool.or_eq_true, Bool.and_eq_true, decide_eq_true_eq, beq_iff_eq,
      Nat.ble_eq] at hbefore
    omega
  . intro τ call rest
    have hplayed := foldl_noted (fun f (s : Bus η × τ) => (f s.1, s.2)) call payload
      ((commands.foldl Command.after {}).reached topic)
      (forget { commands.foldl Command.after {} with failures }, rest) []
    exact ⟨congrArg Prod.snd hplayed, congrArg Prod.fst hplayed⟩

end Bus

end Storyworld
