import Storyworld.Proofs.Value
import Storyworld.Trait

/-!
This module contains the traits over exact numbers: changes keep their names and keep their values
between zero and ten, and loading sets the values that are named.
-/

namespace Storyworld

/-- A number of the range of a trait, and no truth value. -/
structure Trait.InRange (n : Number Rat) : Prop where
  flag : ∀ b, n ≠ .flag b
  nonneg : 0 ≤ n.rat
  le_ten : n.rat ≤ 10

theorem Trait.rat_clamp (n : Number Rat) : (clamp n).rat = max 0 (min 10 n.rat) := by
  unfold clamp Number.clampBelow Number.max Number.min
  simp only [Number.lt_eq_rat, Number.rat_int, decide_eq_true_eq, Int.cast_ofNat, Int.cast_zero]
  by_cases hten : n.rat < 10
  . rw [if_pos hten, min_eq_right hten.le]
    split
    next hpos => rw [max_eq_right hpos.le]
    next hneg => rw [max_eq_left (not_lt.mp hneg), Number.rat_int, Int.cast_zero]
  . rw [if_neg hten, min_eq_left (not_lt.mp hten)]
    simp

theorem Trait.clamp_inRange {n : Number Rat} (h : ∀ b, n ≠ .flag b) : InRange (clamp n) where
  flag b := by
    unfold clamp Number.clampBelow Number.max Number.min
    split
    . split
      . exact h b
      . simp
    . simp
  nonneg := by
    rw [rat_clamp]
    exact le_max_left _ _
  le_ten := by
    rw [rat_clamp]
    simp

theorem Trait.rat_clamp_of_inRange {n m : Number Rat} (h : InRange n) (hm : m.rat = n.rat)
    : (clamp m).rat = n.rat := by
  rw [rat_clamp, hm, min_eq_right h.le_ten, max_eq_right h.nonneg]

namespace TraitBook

def values (book : TraitBook Rat) : Table (Number Rat) := book.traits.map fun t => (t.name, t.value)

/-- The book has these names, and its values are in range. -/
structure Clamped (names : List String) (book : TraitBook Rat) : Prop where
  names_eq : Table.names book.values = names
  inRange : ∀ name n, (name, n) ∈ book.values → Trait.InRange n

theorem get?_values (book : TraitBook Rat) (name : String)
    : Table.get? book.values name = (book.find? name).map Trait.value := by
  unfold values find?
  induction book.traits with
  | nil => rfl
  | cons t ts ih =>
    rw [List.map_cons, Table.get?_cons, ih, List.find?_cons]
    by_cases hname : t.name = name
    . simp [hname]
    . simp [hname, beq_false_of_ne hname]

theorem values_replace {traits : List (Trait Rat)} {t : Trait Rat}
    (h : ∃ u ∈ traits, u.name = t.name)
    : (replace traits t).map (fun t => (t.name, t.value))
      = Table.set (traits.map fun t => (t.name, t.value)) t.name t.value := by
  induction traits with
  | nil =>
    obtain ⟨u, hu, _⟩ := h
    cases hu
  | cons u us ih =>
    unfold replace
    rw [List.map_cons, Table.set]
    by_cases hname : u.name = t.name
    . simp [hname]
    . have hrest : ∃ v ∈ us, v.name = t.name := by
        obtain ⟨v, hv, hvname⟩ := h
        rcases List.mem_cons.mp hv with rfl | hv
        . exact absurd hvname hname
        . exact ⟨v, hv, hvname⟩
      simp [hname, ih hrest]

theorem change_cases (name : String) (f : Number Rat → Except Fault (Number Rat))
    (book : TraitBook Rat)
    : (Table.get? book.values name = none ∧ (change name f).run book = (.ok false, book))
      ∨ (∃ old e, f old = .error e ∧ (change name f).run book = (.error e, book))
      ∨ ∃ old n book', Table.get? book.values name = some old ∧ f old = .ok n
        ∧ (change name f).run book = (.ok true, book')
        ∧ book'.values = Table.set book.values name (Trait.clamp n) := by
  rw [get?_values]
  unfold change
  simp only [Act.run_bind, Act.run_get]
  cases hfind : book.find? name with
  | none => exact .inl ⟨rfl, rfl⟩
  | some t =>
    right
    simp only [Act.run_bind, Act.run_lift]
    cases hf : f t.value with
    | error e => exact .inl ⟨t.value, e, hf, rfl⟩
    | ok n =>
      right
      refine ⟨t.value, n, _, rfl, hf, rfl, ?_⟩
      have hname : t.name = name := by simpa using List.find?_some hfind
      subst hname
      exact values_replace ⟨t, List.mem_of_find?_eq_some hfind, rfl⟩

variable {names : List String}

theorem keeps_change (name : String) {f : Number Rat → Except Fault (Number Rat)}
    (hf : ∀ old n, f old = .ok n → ∀ b, n ≠ .flag b)
    : Act.Keeps (Clamped names) (change name f) := by
  intro book h
  rcases change_cases name f book with
    ⟨_, hrun⟩ | ⟨_, _, _, hrun⟩ | ⟨old, n, book', hold, hn, hrun, hvalues⟩
  . rw [hrun]
    exact h
  . rw [hrun]
    exact h
  . rw [hrun]
    constructor
    . have hhas : Table.has book.values name = true := by
        unfold Table.has
        rw [hold]
        rfl
      rw [hvalues, Table.names_set_of_has _ _ _ hhas]
      exact h.names_eq
    . intro other m hmem
      rw [hvalues] at hmem
      rcases Table.mem_set hmem with hmem | heq
      . exact h.inRange other m hmem
      . cases heq
        exact Trait.clamp_inRange (hf old n hn)

theorem keeps_increase (name : String) (x : Rat)
    : Act.Keeps (Clamped names) (increase name (.real x)) := by
  apply keeps_change
  intro old n hn
  obtain ⟨sum, hsum, _, hflag⟩ := Number.add_eq_ok old (.real x)
  obtain rfl : sum = n := Except.ok.inj (hsum.symm.trans hn)
  exact hflag

theorem keeps_decrease (name : String) (x : Rat)
    : Act.Keeps (Clamped names) (decrease name (.real x)) := by
  apply keeps_change
  intro old n hn
  obtain ⟨difference, hdifference, _, hflag⟩ := Number.sub_eq_ok old (.real x)
  obtain rfl : difference = n := Except.ok.inj (hdifference.symm.trans hn)
  exact hflag

theorem run_update (name : String) (x : Rat) (book : TraitBook Rat)
    : ∃ found book', (update name (.real x)).run book = (.ok found, book')
      ∧ Table.names book'.values = Table.names book.values
      ∧ ∀ other, Table.get? book'.values other =
        if name = other then (Table.get? book.values other).map fun _ => Trait.clamp (.real x)
        else Table.get? book.values other := by
  unfold update
  rcases change_cases name (fun _ => Value.operand (.real x)) book with
    ⟨hnone, hrun⟩ | ⟨_, _, he, _⟩ | ⟨old, n, book', hold, hn, hrun, hvalues⟩
  . refine ⟨false, book, hrun, rfl, ?_⟩
    intro other
    split
    next heq =>
      subst heq
      rw [hnone]
      rfl
    next => rfl
  . cases he
  . obtain rfl : Number.real x = n := Except.ok.inj hn
    refine ⟨true, book', hrun, ?_, ?_⟩
    . rw [hvalues]
      apply Table.names_set_of_has
      unfold Table.has
      rw [hold]
      rfl
    . intro other
      rw [hvalues, Table.get?_set]
      split
      next heq =>
        subst heq
        rw [hold]
        rfl
      next => rfl

theorem run_entries {t : Table (Number Rat)} (hnodup : (Table.names t).Nodup)
    (book : TraitBook Rat)
    : ∃ book', (load.entries (Table.mapEntries (fun n => .real n.rat) t)).run book = (.ok (), book')
      ∧ Table.names book'.values = Table.names book.values
      ∧ ∀ name, Table.get? book'.values name =
        match Table.get? t name with
        | some n => (Table.get? book.values name).map fun _ => Trait.clamp (.real n.rat)
        | none => Table.get? book.values name := by
  induction t generalizing book with
  | nil => exact ⟨book, rfl, rfl, fun _ => rfl⟩
  | cons e t ih =>
    obtain ⟨k, n⟩ := e
    unfold Table.names at hnodup
    rw [List.map_cons, List.nodup_cons] at hnodup
    obtain ⟨found, book₁, hupdate, hnames₁, hvalues₁⟩ := run_update k n.rat book
    obtain ⟨book₂, hrest, hnames₂, hvalues₂⟩ := ih hnodup.2 book₁
    refine ⟨book₂, ?_, hnames₂.trans hnames₁, ?_⟩
    . unfold Table.mapEntries at hrest ⊢
      rw [List.map_cons]
      unfold load.entries
      simp only [Act.run_bind, Act.run_lift, Value.real?_num, Number.rat_real, hupdate, hrest]
    . intro name
      rw [hvalues₂, hvalues₁, Table.get?_cons]
      by_cases hname : k = name
      . subst hname
        have hmissing : Table.get? t k = none := by
          rw [← Option.not_isSome_iff_eq_none]
          intro hhas
          exact hnodup.1 (Table.has_iff_mem_names.mp hhas)
        simp [hmissing]
      . simp [hname]

theorem run_load {t : Table (Number Rat)} (hnodup : (Table.names t).Nodup) (book : TraitBook Rat)
    : ∃ book', (load (.object (Table.mapEntries (fun n => .real n.rat) t))).run book
        = (.ok (), book')
      ∧ Table.names book'.values = Table.names book.values
      ∧ ∀ name, Table.get? book'.values name =
        match Table.get? t name with
        | some n => (Table.get? book.values name).map fun _ => Trait.clamp (.real n.rat)
        | none => Table.get? book.values name := by
  have hload : load (.object (Table.mapEntries (fun n => (.real n.rat : Value Rat)) t))
      = load.entries (Table.mapEntries (fun n => .real n.rat) t) := by
    cases t with
    | nil => rfl
    | cons e t => rfl
  rw [hload]
  exact run_entries hnodup book

theorem names_values (book : TraitBook Rat)
    : Table.names book.values = book.traits.map Trait.name := by
  unfold Table.names values
  rw [List.map_map]
  rfl

theorem snapshot_eq_values {book : TraitBook Rat} (h : (Table.names book.values).Nodup)
    : book.snapshot = book.values :=
  Table.ofList_eq_self h

theorem same_of_load {book : TraitBook Rat} (h : Clamped names book) (hnodup : names.Nodup)
    {old : TraitBook Rat} (hold : (Table.names old.values).Perm names)
    : ∃ new, (load (.object (Table.mapEntries (fun n => .real n.rat) book.snapshot))).run old
        = (.ok (), new)
      ∧ (Value.object (Table.mapEntries .num new.snapshot)).same
        (.object (Table.mapEntries .num book.snapshot)) = true := by
  have hbook : (Table.names book.values).Nodup := by
    rw [h.names_eq]
    exact hnodup
  rw [snapshot_eq_values hbook]
  obtain ⟨new, hrun, hnames, hvalues⟩ := run_load hbook old
  refine ⟨new, hrun, ?_⟩
  have hperm : (Table.names new.values).Perm (Table.names book.values) := by
    rw [hnames, h.names_eq]
    exact hold
  have hnew : (Table.names new.values).Nodup := hperm.nodup_iff.mpr hbook
  rw [snapshot_eq_values hnew]
  apply Value.same_object
  . have := hperm.length_eq
    simpa [Table.names, Table.mapEntries] using this
  . intro name v hmem
    obtain ⟨m, hm, rfl⟩ := Table.mem_mapEntries hmem
    -- the other book has a trait of this name, whose value was in range when it was loaded
    have hhas : Table.has book.values name = true := by
      rw [Table.has_iff_mem_names, ← hperm.mem_iff]
      exact List.mem_map.mpr ⟨(name, m), hm, rfl⟩
    obtain ⟨n, hn⟩ := Option.isSome_iff_exists.mp hhas
    have hmember := Table.mem_of_get? hn
    refine ⟨.num n, ?_, ?_⟩
    . apply Table.get?_of_mem
      . rw [Table.names_mapEntries]
        exact hbook
      . exact List.mem_map.mpr ⟨(name, n), hmember, rfl⟩
    . have hloaded := hvalues name
      rw [Table.get?_of_mem hnew hm, hn] at hloaded
      obtain ⟨_, _, hclamp⟩ := Option.map_eq_some_iff.mp hloaded.symm
      have hinRange := h.inRange name n hmember
      rw [Value.same_num, ← hclamp, Trait.rat_clamp_of_inRange hinRange (Number.rat_real _)]
      simp

end TraitBook

end Storyworld
