/-!
This module contains tables: lists of named entries in the order in which the names came in. Setting
a name that is there keeps its place.
-/

namespace Storyworld

abbrev Table (α : Type u) := List (String × α)

namespace Table

variable {α : Type u} {β : Type v}

/-- The entry of a name; the first one, should a list hold the name twice. -/
def get? (t : Table α) (name : String) : Option α :=
  match t with
  | [] => none
  | (k, a) :: t => if k = name then some a else get? t name

/-- Gives a name an entry: in its place, or at the end. -/
def set (t : Table α) (name : String) (a : α) : Table α :=
  match t with
  | [] => [(name, a)]
  | (k, b) :: t => if k = name then (k, a) :: t else (k, b) :: set t name a

def erase (t : Table α) (name : String) : Table α := t.filter fun e => e.1 != name

def has (t : Table α) (name : String) : Bool := (get? t name).isSome

def names (t : Table α) : List String := t.map Prod.fst

def ofList (entries : List (String × α)) : Table α :=
  entries.foldl (fun t e => set t e.1 e.2) []

def mapEntries (f : α → β) (t : Table α) : Table β := t.map fun e => (e.1, f e.2)

@[simp] theorem get?_nil (name : String) : get? ([] : Table α) name = none := rfl

theorem get?_cons (k : String) (a : α) (t : Table α) (name : String) :
    get? ((k, a) :: t) name = if k = name then some a else get? t name := rfl

@[simp] theorem get?_set_self (t : Table α) (name : String) (a : α) :
    get? (set t name a) name = some a := by
  induction t with
  | nil => simp [set, get?]
  | cons e t ih =>
    obtain ⟨k, b⟩ := e
    by_cases h : k = name
    . simp [set, get?, h]
    . simp [set, get?, h, ih]

theorem get?_set_of_ne (t : Table α) {name other : String} (a : α) (h : name ≠ other) :
    get? (set t name a) other = get? t other := by
  induction t with
  | nil => simp [set, get?, h]
  | cons e t ih =>
    obtain ⟨k, b⟩ := e
    by_cases hk : k = name
    . subst hk
      simp [set, get?, h]
    . simp [set, get?, hk, ih]

theorem get?_set (t : Table α) (name other : String) (a : α) :
    get? (set t name a) other = if name = other then some a else get? t other := by
  by_cases h : name = other
  . subst h
    simp
  . simp [h, get?_set_of_ne t a h]

@[simp] theorem names_set_of_has (t : Table α) (name : String) (a : α) (h : has t name = true) :
    names (set t name a) = names t := by
  induction t with
  | nil => simp [has] at h
  | cons e t ih =>
    obtain ⟨k, b⟩ := e
    by_cases hk : k = name
    . simp [set, hk, names]
    . simp only [set, hk, if_false, names, List.map_cons, List.cons.injEq, true_and]
      exact ih (by simpa [has, get?, hk] using h)

end Table

end Storyworld
