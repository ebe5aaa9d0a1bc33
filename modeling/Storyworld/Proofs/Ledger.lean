import Storyworld.Ledger
import Storyworld.Proofs.Value

/-!
This module contains the account of the items over exact numbers: its layers hold nothing below
zero and no location twice, and loading gives back layers that are the same.
-/

namespace Storyworld

namespace Layer

/-- Every location is there once with its items, every item of it once, and none is below zero. -/
structure Settled (layer : Layer Rat) : Prop where
  nodup : (Table.names layer).Nodup
  items : ∀ location items, (location, items) ∈ layer → items ≠ [] ∧ (Table.names items).Nodup
  nonneg : ∀ location items, (location, items) ∈ layer → ∀ item n, (item, n) ∈ items → 0 ≤ n.rat

theorem rat_clampBelow (n : Number Rat) : n.clampBelow.rat = max 0 n.rat := by
  unfold Number.clampBelow Number.max
  simp only [Number.lt_eq_rat, Number.rat_int, decide_eq_true_eq, Int.cast_zero]
  split
  next hpos => rw [max_eq_right hpos.le]
  next hneg => rw [max_eq_left (not_lt.mp hneg), Number.rat_int, Int.cast_zero]

theorem settled_nil : Settled [] where
  nodup := List.nodup_nil
  items _ _ h := by cases h
  nonneg _ _ h := by cases h

theorem Settled.put {layer : Layer Rat} (h : Settled layer) (location item : String)
    (n : Number Rat) : Settled (put layer location item n) := by
  -- the items that stay are those of the location before, if it was there
  have hold : ∀ e ∈ (Table.get? layer location).getD [],
      ∃ items, (location, items) ∈ layer ∧ e ∈ items := by
    intro e he
    cases hget : Table.get? layer location with
    | none =>
      rw [hget] at he
      cases he
    | some items =>
      rw [hget] at he
      exact ⟨items, Table.mem_of_get? hget, he⟩
  have hnames : (Table.names ((Table.get? layer location).getD [])).Nodup := by
    cases hget : Table.get? layer location with
    | none => exact List.nodup_nil
    | some items => exact (h.items location items (Table.mem_of_get? hget)).2
  unfold Layer.put
  constructor
  case nodup => exact Table.nodup_names_set h.nodup
  case items =>
    intro other items hmem
    rcases Table.mem_set hmem with hmem | heq
    . exact h.items other items hmem
    . cases heq
      exact ⟨Table.set_ne_nil, Table.nodup_names_set hnames⟩
  case nonneg =>
    intro other items hmem id m hm
    rcases Table.mem_set hmem with hmem | heq
    . exact h.nonneg other items hmem id m hm
    . cases heq
      rcases Table.mem_set hm with hm | heq
      . obtain ⟨items, hitems, hm⟩ := hold (id, m) hm
        exact h.nonneg location items hitems id m hm
      . cases heq
        rw [rat_clampBelow]
        exact le_max_left _ _

end Layer

namespace Ledger

structure Settled (l : Ledger Rat) : Prop where
  defaults : l.defaults.Settled
  added : l.added.Settled
  removed : l.removed.Settled

theorem settled_empty : Settled {} := ⟨Layer.settled_nil, Layer.settled_nil, Layer.settled_nil⟩

theorem keeps_add (location item qty : Value Rat) : Act.Keeps Settled (add location item qty) := by
  unfold add
  apply Act.keeps_ite
  . refine Act.keeps_bind (Act.keeps_lift _) fun amount => ?_
    apply Act.keeps_ite
    . refine Act.keeps_get_bind fun l hl => ?_
      refine Act.keeps_bind (Act.keeps_lift _) fun (place, id) => ?_
      refine Act.keeps_bind (Act.keeps_lift _) fun total => ?_
      exact Act.keeps_set { hl with added := hl.added.put place id total }
    . apply Act.keeps_pure
  . apply Act.keeps_pure

theorem keeps_remove (location item qty : Value Rat)
    : Act.Keeps Settled (remove location item qty) := by
  unfold remove
  apply Act.keeps_ite
  . refine Act.keeps_bind (Act.keeps_lift _) fun amount => ?_
    apply Act.keeps_ite
    . apply Act.keeps_pure
    . refine Act.keeps_get_bind fun l hl => ?_
      refine Act.keeps_bind (Act.keeps_lift _) fun (place, id) => ?_
      refine Act.keeps_bind (Act.keeps_lift _) fun net => ?_
      dsimp only
      split
      . refine Act.keeps_bind (Act.keeps_lift _) fun total => ?_
        refine Act.keeps_bind ?_ fun _ => Act.keeps_pure _
        exact Act.keeps_set { hl with removed := hl.removed.put place id total }
      . apply Act.keeps_pure
  . apply Act.keeps_pure

theorem keeps_applyScene (location items : Value Rat)
    : Act.Keeps Settled (applyScene location items) := by
  have hraise (place : String) (item : Record Rat) : Act.Keeps Settled (raise place item) := by
    unfold raise
    refine Act.keeps_bind (Act.keeps_lift _) fun qty => ?_
    refine Act.keeps_bind (Act.keeps_lift _) fun id => ?_
    refine Act.keeps_get_bind fun l hl => ?_
    apply Act.keeps_ite
    . exact Act.keeps_set { hl with defaults := hl.defaults.put place id _ }
    . apply Act.keeps_pure
  unfold applyScene
  apply Act.keeps_ite
  . refine Act.keeps_bind (Act.keeps_lift _) fun items => ?_
    apply Act.keeps_forM
    intro item
    refine Act.keeps_bind (Act.keeps_lift _) fun place => ?_
    exact hraise place item
  . apply Act.keeps_pure

/-! ### Loading -/

def reloaded (n : Number Rat) : Number Rat :=
  Number.clampBelow (if n.rat.den = 1 then .int n.rat.num else .real n.rat)

theorem rat_reloaded {n : Number Rat} (h : 0 ≤ n.rat) : (reloaded n).rat = n.rat := by
  unfold reloaded
  rw [Layer.rat_clampBelow]
  split
  next hden =>
    rw [Number.rat_int, Rat.coe_int_num_of_den_eq_one hden]
    exact max_eq_right h
  next => exact max_eq_right h

theorem quantity_num (n : Number Rat) (default : Int)
    : quantity (.num n) default
      = .ok (if n.rat.den = 1 then .int n.rat.num else .real n.rat) := by
  unfold quantity
  rw [Value.real?_num]
  rfl

/-- A layer with the items of one more location behind it, if there are any. -/
def stacked (layer : Layer Rat) (location : String) (items : Table (Number Rat)) : Layer Rat :=
  if items = [] then layer else layer ++ [(location, items)]

theorem put_stacked {layer : Layer Rat} {location item : String} {items : Table (Number Rat)}
    (hlocation : location ∉ Table.names layer) (hitem : item ∉ Table.names items) (n : Number Rat)
    : (stacked layer location items).put location item n
      = stacked layer location (items ++ [(item, n.clampBelow)]) := by
  unfold stacked Layer.put
  by_cases hnil : items = []
  . have hget : Table.get? layer location = none := by
      have := Table.get?_append_of_not_mem (u := []) hlocation
      simpa using this
    simp [hnil, hget, Table.set, Table.set_of_not_mem hlocation]
  . rw [if_neg hnil, if_neg (by simp), Table.get?_append_of_not_mem hlocation,
      Table.set_append_of_not_mem hlocation]
    simp [Table.get?_cons, Table.set, Table.set_of_not_mem hitem]

theorem run_loadItems {layer : Layer Rat} {location : String}
    (hlocation : location ∉ Table.names layer) (items : Table (Number Rat))
    (done : Table (Number Rat)) (hnodup : (Table.names (done ++ items)).Nodup)
    : (loadItems location (Table.mapEntries .num items)).run (stacked layer location done)
      = (.ok (), stacked layer location (done ++ Table.mapEntries reloaded items)) := by
  induction items generalizing done with
  | nil => simp [Table.mapEntries, loadItems]
  | cons e items ih =>
    obtain ⟨item, n⟩ := e
    have hitem : item ∉ Table.names done := Table.not_mem_names_of_nodup hnodup
    -- what is loaded already stands under the location, which is the last one of the layer
    have hrest := ih (done ++ [(item, reloaded n)]) (by simpa [Table.names] using hnodup)
    unfold Table.mapEntries at hrest ⊢
    rw [List.map_cons, List.map_cons]
    unfold loadItems
    rw [Act.run_bind, Act.run_lift, quantity_num]
    dsimp only
    rw [Act.run_bind, Act.run_modify]
    dsimp only
    rw [put_stacked hlocation hitem]
    rw [List.append_cons done (item, reloaded n)]
    exact hrest

theorem run_loadLayer {t : Layer Rat} (acc : Layer Rat) (hnodup : (Table.names (acc ++ t)).Nodup)
    (hitems : ∀ location items, (location, items) ∈ t → items ≠ [] ∧ (Table.names items).Nodup)
    : (loadLayer (Table.mapEntries (fun items => .object (Table.mapEntries .num items)) t)).run acc
      = (.ok (), acc ++ Table.mapEntries (Table.mapEntries reloaded) t) := by
  induction t generalizing acc with
  | nil => simp [Table.mapEntries, loadLayer]
  | cons e t ih =>
    obtain ⟨location, items⟩ := e
    have hlocation : location ∉ Table.names acc := Table.not_mem_names_of_nodup hnodup
    obtain ⟨hne, hnames⟩ := hitems location items List.mem_cons_self
    have hloaded := run_loadItems hlocation items [] (by simpa using hnames)
    have hstacked : stacked acc location (Table.mapEntries reloaded items)
        = acc ++ [(location, Table.mapEntries reloaded items)] := by
      unfold stacked
      rw [if_neg]
      simpa [Table.mapEntries] using hne
    rw [List.nil_append, hstacked] at hloaded
    have hrest := ih (acc ++ [(location, Table.mapEntries reloaded items)])
      (by simpa [Table.names] using hnodup)
      fun location items h => hitems location items (List.mem_cons_of_mem _ h)
    have hstart : stacked acc location [] = acc := rfl
    rw [hstart] at hloaded
    unfold Table.mapEntries at hrest hloaded ⊢
    rw [List.map_cons, List.map_cons]
    unfold loadLayer
    rw [Act.run_bind, Value.recordD_object]
    dsimp only
    rw [hloaded]
    dsimp only
    rw [hrest]
    simp

def reload (layer : Layer Rat) : Layer Rat := Table.mapEntries (Table.mapEntries reloaded) layer

theorem same_reload {layer : Layer Rat} (h : layer.Settled)
    : (reload layer).toValue.same layer.toValue = true := by
  unfold reload Layer.toValue
  rw [Table.mapEntries_mapEntries]
  apply Value.same_mapEntries h.nodup
  intro location items hmem
  rw [Table.mapEntries_mapEntries]
  apply Value.same_mapEntries (h.items location items hmem).2
  intro item n hn
  rw [Value.same_num, rat_reloaded (h.nonneg location items hmem item n hn)]
  simp

theorem run_load {l : Ledger Rat} (h : Settled l) (old : Ledger Rat)
    : (load (.object l.toRecord)).run old
      = (.ok (), ⟨reload l.defaults, reload l.added, reload l.removed⟩) := by
  have hlayer {layer : Layer Rat} (h : layer.Settled) :
      (loadLayer layer.toValue.recordD).run [] = (.ok (), reload layer) :=
    run_loadLayer [] h.nodup h.items
  have hdefaults := hlayer h.defaults
  have hadded := hlayer h.added
  have hremoved := hlayer h.removed
  have hfields : Record.field l.toRecord "defaults" = l.defaults.toValue
      ∧ Record.field l.toRecord "added" = l.added.toValue
      ∧ Record.field l.toRecord "removed" = l.removed.toValue := ⟨rfl, rfl, rfl⟩
  obtain ⟨hfirst, hsecond, hthird⟩ := hfields
  unfold load
  simp only [Act.run_bind, Act.run_set, Act.run_within, Value.recordD_object, hfirst, hsecond,
    hthird, hdefaults, hadded, hremoved]

end Ledger

end Storyworld
