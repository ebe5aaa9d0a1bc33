import Mathlib.Data.List.Nodup
import Storyworld.Table

/-!
This module contains the tables in which every name comes once: setting and erasing keep them so,
and a table that is filled from the entries of one is that one again.
-/

namespace Storyworld.Table

universe u v

variable {α : Type u} {β : Type v} {t : Table α} {name : String} {a : α}

theorem has_iff_mem_names : has t name = true ↔ name ∈ names t := by
  unfold has names
  induction t with
  | nil => simp
  | cons e t ih =>
    obtain ⟨k, b⟩ := e
    rw [get?_cons, List.map_cons, List.mem_cons, ← ih]
    by_cases hk : k = name
    . simp [hk]
    . simp [hk, Ne.symm hk]

/-- What is looked up in a table that may be missing is looked up in an empty one then. -/
theorem bind_get? (t? : Option (Table α)) (name : String)
    : t?.bind (get? · name) = get? (t?.getD []) name := by
  cases t? <;> rfl

theorem mem_of_get? (h : get? t name = some a) : (name, a) ∈ t := by
  induction t with
  | nil => cases h
  | cons e t ih =>
    obtain ⟨k, b⟩ := e
    rw [get?_cons] at h
    split at h
    next hk =>
      rw [hk, Option.some.inj h]
      exact List.mem_cons_self
    next => exact List.mem_cons_of_mem _ (ih h)

theorem get?_of_mem (hnodup : (names t).Nodup) (h : (name, a) ∈ t) : get? t name = some a := by
  induction t with
  | nil => cases h
  | cons e t ih =>
    obtain ⟨k, b⟩ := e
    unfold names at hnodup
    rw [List.map_cons, List.nodup_cons] at hnodup
    rw [get?_cons]
    rcases List.mem_cons.mp h with heq | hmem
    . cases heq
      simp
    . have hne : k ≠ name := by
        intro hk
        apply hnodup.1
        rw [hk]
        exact List.mem_map.mpr ⟨(name, a), hmem, rfl⟩
      rw [if_neg hne]
      exact ih hnodup.2 hmem

theorem set_of_not_mem (h : name ∉ names t) : set t name a = t ++ [(name, a)] := by
  induction t with
  | nil => rfl
  | cons e t ih =>
    obtain ⟨k, b⟩ := e
    unfold names at h
    rw [List.map_cons, List.mem_cons, not_or] at h
    unfold set
    rw [if_neg (Ne.symm h.1), ih h.2]
    rfl

theorem mem_set {e : String × α} (h : e ∈ set t name a) : e ∈ t ∨ e = (name, a) := by
  induction t with
  | nil =>
    right
    simpa [set] using h
  | cons f t ih =>
    obtain ⟨k, b⟩ := f
    unfold set at h
    split at h
    next hk =>
      rcases List.mem_cons.mp h with h | h
      . right
        rw [h, hk]
      . exact .inl (List.mem_cons_of_mem _ h)
    next =>
      rcases List.mem_cons.mp h with h | h
      . left
        rw [h]
        exact List.mem_cons_self
      . exact (ih h).imp_left (List.mem_cons_of_mem _)

theorem forall_mem_set {P : α → Prop} (h : ∀ e ∈ t, P e.2) (ha : P a) : ∀ e ∈ set t name a, P e.2 := by
  intro e he
  rcases mem_set he with he | rfl
  . exact h e he
  . exact ha

theorem get?_append_of_not_mem {u : Table α} (h : name ∉ names t)
    : get? (t ++ u) name = get? u name := by
  induction t with
  | nil => rfl
  | cons e t ih =>
    obtain ⟨k, b⟩ := e
    unfold names at h
    rw [List.map_cons, List.mem_cons, not_or] at h
    rw [List.cons_append, get?_cons, if_neg (Ne.symm h.1)]
    exact ih h.2

theorem set_append_of_not_mem {u : Table α} (h : name ∉ names t)
    : set (t ++ u) name a = t ++ set u name a := by
  induction t with
  | nil => rfl
  | cons e t ih =>
    obtain ⟨k, b⟩ := e
    unfold names at h
    rw [List.map_cons, List.mem_cons, not_or] at h
    rw [List.cons_append, set, if_neg (Ne.symm h.1), ih h.2]
    rfl

theorem set_ne_nil : set t name a ≠ [] := by
  cases t with
  | nil => simp [set]
  | cons e t =>
    unfold set
    split
    . simp
    . simp

theorem nodup_names_set (h : (names t).Nodup) : (names (set t name a)).Nodup := by
  by_cases hname : name ∈ names t
  . rw [names_set_of_has t name a (has_iff_mem_names.mpr hname)]
    exact h
  . rw [set_of_not_mem hname]
    unfold names at h hname ⊢
    rw [List.map_append, List.nodup_append]
    refine ⟨h, by simp, ?_⟩
    rintro k hk k' hk' rfl
    obtain rfl : k = name := by simpa using hk'
    exact hname hk

theorem get?_erase (t : Table α) (name other : String)
    : get? (erase t name) other = if name = other then none else get? t other := by
  unfold erase
  induction t with
  | nil => simp
  | cons e t ih =>
    obtain ⟨k, b⟩ := e
    by_cases hk : k = name
    . subst hk
      rw [List.filter_cons_of_neg (by simp), ih, get?_cons]
      split <;> rfl
    . rw [List.filter_cons_of_pos (by simp [hk]), get?_cons, ih, get?_cons]
      by_cases hother : k = other
      . rw [if_pos hother, if_pos hother, if_neg fun h => hk (hother.trans h.symm)]
      . rw [if_neg hother, if_neg hother]

theorem nodup_names_erase (h : (names t).Nodup) : (names (erase t name)).Nodup :=
  (List.filter_sublist.map Prod.fst).nodup h

theorem not_mem_names_of_nodup {u : Table α} (h : (names (t ++ (name, a) :: u)).Nodup)
    : name ∉ names t := by
  unfold names at h ⊢
  rw [List.map_append, List.nodup_append] at h
  intro hname
  exact h.2.2 name hname name (by simp) rfl

theorem foldl_set (t : Table α) {acc : Table α} (h : (names (acc ++ t)).Nodup)
    : t.foldl (fun acc e => set acc e.1 e.2) acc = acc ++ t := by
  induction t generalizing acc with
  | nil => simp
  | cons e t ih =>
    obtain ⟨k, a⟩ := e
    rw [List.foldl_cons, set_of_not_mem (not_mem_names_of_nodup h), ih]
    . simp
    . simpa using h

theorem ofList_eq_self (h : (names t).Nodup) : ofList t = t := by
  unfold ofList
  rw [foldl_set t (by simpa using h), List.nil_append]

theorem mem_foldl_set {e : String × α} {entries : List (String × α)} {acc : Table α}
    (h : e ∈ entries.foldl (fun acc e => set acc e.1 e.2) acc) : e ∈ acc ∨ e ∈ entries := by
  induction entries generalizing acc with
  | nil => exact .inl h
  | cons f entries ih =>
    rcases ih h with h | h
    . rcases mem_set h with h | rfl
      . exact .inl h
      . exact .inr List.mem_cons_self
    . exact .inr (List.mem_cons_of_mem f h)

theorem mem_of_mem_ofList {e : String × α} {entries : List (String × α)} (h : e ∈ ofList entries)
    : e ∈ entries :=
  (mem_foldl_set h).resolve_left List.not_mem_nil

@[simp]
theorem names_mapEntries (f : α → β) (t : Table α) : names (mapEntries f t) = names t := by
  simp [names, mapEntries]

theorem mapEntries_mapEntries {γ : Type _} (g : β → γ) (f : α → β) (t : Table α)
    : mapEntries g (mapEntries f t) = mapEntries (fun a => g (f a)) t := by
  simp [mapEntries]

theorem get?_mapEntries (f : α → β) (t : Table α) (name : String)
    : get? (mapEntries f t) name = (get? t name).map f := by
  induction t with
  | nil => rfl
  | cons e t ih =>
    obtain ⟨k, a⟩ := e
    unfold mapEntries at ih ⊢
    rw [List.map_cons, get?_cons, get?_cons, ih]
    split <;> rfl

theorem mem_mapEntries {f : α → β} {b : β} (h : (name, b) ∈ mapEntries f t)
    : ∃ a, (name, a) ∈ t ∧ f a = b := by
  unfold mapEntries at h
  rw [List.mem_map] at h
  obtain ⟨⟨k, a⟩, hmem, heq⟩ := h
  cases heq
  exact ⟨a, hmem, rfl⟩

end Storyworld.Table
