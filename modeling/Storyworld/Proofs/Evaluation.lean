import Storyworld.Proofs.Value
import Storyworld.Expr

/-!
This module contains the outcomes of expressions of leaves, truths and connectives: what each kind of
expression comes out as by what its parts do, that more room changes no outcome, and that there is one
where there is room for every part and every leaf answers.
-/

namespace Storyworld

variable {α β ρ : Type}

/-! ### Questions in a row -/

/-- Questions are asked one after the other until one is answered by `last`. -/
inductive Until (Says : β → Bool → Prop) (last : Bool) : List β → Bool → Prop where
  | none : Until Says last [] !last
  | found {x : β} {xs : List β} (h : Says x last) : Until Says last (x :: xs) last
  | next {x : β} {xs : List β} {b : Bool} (h : Says x !last) (hrest : Until Says last xs b) :
    Until Says last (x :: xs) b

namespace Until

variable {Says Says' : β → Bool → Prop} {last b : Bool} {x : β} {xs : List β}

theorem nil_iff : Until Says last [] b ↔ b = !last := by
  constructor
  . rintro ⟨⟩
    rfl
  . rintro rfl
    exact .none

theorem cons_iff
    : Until Says last (x :: xs) b ↔ Says x last ∧ b = last ∨ Says x (!last) ∧ Until Says last xs b := by
  constructor
  . intro h
    cases h with
    | found h => exact .inl ⟨h, rfl⟩
    | next h hrest => exact .inr ⟨h, hrest⟩
  . rintro (⟨h, rfl⟩ | ⟨h, hrest⟩)
    . exact .found h
    . exact .next h hrest

theorem mono (h : Until Says last xs b) (himp : ∀ x ∈ xs, ∀ c, Says x c → Says' x c)
    : Until Says' last xs b := by
  induction h with
  | none => exact .none
  | found h => exact .found (himp _ List.mem_cons_self _ h)
  | next h _ ih =>
    rw [List.forall_mem_cons] at himp
    exact .next (himp.1 _ h) (ih himp.2)

theorem total (h : ∀ x ∈ xs, ∃ c, Says x c) : ∃ b, Until Says last xs b := by
  induction xs with
  | nil => exact ⟨_, .none⟩
  | cons x xs ih =>
    rw [List.forall_mem_cons] at h
    obtain ⟨⟨c, hc⟩, hxs⟩ := h
    by_cases hlast : c = last
    . subst hlast
      exact ⟨c, .found hc⟩
    . obtain ⟨b, hb⟩ := ih hxs
      rw [Bool.eq_not.mpr hlast] at hc
      exact ⟨b, .next hc hb⟩

theorem map_iff {γ : Type} {f : γ → β} {xs : List γ}
    : Until Says last (xs.map f) b ↔ Until (fun x => Says (f x)) last xs b := by
  induction xs with
  | nil => rw [List.map_nil, nil_iff, nil_iff]
  | cons x xs ih => rw [List.map_cons, cons_iff, cons_iff, ih]

/-- The last answer is given just when it is the true one to some question. -/
theorem eq_last_iff (h : Until Says last xs b) {T : β → Prop}
    (hT : ∀ x ∈ xs, ∀ c, Says x c → (T x ↔ c = true))
    : b = last ↔ ∃ x ∈ xs, (T x ↔ last = true) := by
  induction h with
  | none => simp
  | found h => exact iff_of_true rfl ⟨_, List.mem_cons_self, hT _ List.mem_cons_self _ h⟩
  | next h _ ih =>
    rw [List.forall_mem_cons] at hT
    have hx := hT.1 _ h
    rw [ih hT.2, List.exists_mem_cons_iff]
    cases last <;> simp_all

theorem all_iff (h : Until Says false xs b) {T : β → Prop}
    (hT : ∀ x ∈ xs, ∀ c, Says x c → (T x ↔ c = true)) : b = true ↔ ∀ x ∈ xs, T x := by
  have := h.eq_last_iff hT
  rw [← Bool.not_eq_false, this]
  simp

theorem any_iff (h : Until Says true xs b) {T : β → Prop}
    (hT : ∀ x ∈ xs, ∀ c, Says x c → (T x ↔ c = true)) : b = true ↔ ∃ x ∈ xs, T x := by
  have := h.eq_last_iff hT
  simpa using this

end Until

variable [Scalar ρ]

/-- An outcome that counts as true or as false. -/
def CountsAs (x : Except Fault (Value ρ)) (b : Bool) : Prop := Fault.Gives x (·.isGiven = b)

section

variable {x : Except Fault (Value ρ)} {b : Bool}

theorem isGiven_flag (b : Bool) : (Value.flag b : Value ρ).isGiven = b := by
  cases b <;> rfl

theorem countsAs_throw {e : Fault} : ¬CountsAs (throw e : Except Fault (Value ρ)) b := by
  rintro ⟨v, hv, _⟩
  cases hv

theorem countsAs_flag {c : Bool} : CountsAs (pure (.flag c) : Except Fault (Value ρ)) b ↔ c = b := by
  constructor
  . rintro ⟨v, hv, rfl⟩
    cases hv
    exact (isGiven_flag c).symm
  . rintro rfl
    exact ⟨_, rfl, isGiven_flag c⟩

theorem countsAs_bind_flag {γ : Type} {y : Except Fault γ} {f : γ → Bool}
    : CountsAs (do return .flag (f (← y)) : Except Fault (Value ρ)) b ↔ ∃ a, y = .ok a ∧ f a = b := by
  cases y with
  | error e =>
    refine iff_of_false countsAs_throw ?_
    rintro ⟨a, ha, _⟩
    cases ha
  | ok a =>
    refine countsAs_flag.trans ?_
    simp

theorem Fault.pure_eq_ok {c : Bool} : (pure c : Except Fault Bool) = .ok b ↔ b = c := by
  constructor
  . rintro ⟨⟩
    rfl
  . rintro rfl
    rfl

theorem bind_ite_eq_ok {y z : Except Fault Bool}
    : (do if (← x).isGiven then y else z) = .ok b
      ↔ CountsAs x true ∧ y = .ok b ∨ CountsAs x false ∧ z = .ok b := by
  unfold CountsAs Fault.Gives
  cases x with
  | error e => simp [bind, Except.bind]
  | ok v => cases hv : v.isGiven <;> simp [bind, Except.bind, hv]

end

namespace Expr

theorem allWithin_eq_map (room : Nat) (es : List (Expr α))
    : allWithin room es = es.map (within room) := by
  induction es with
  | nil => rfl
  | cons e es ih =>
    unfold allWithin
    rw [ih]
    rfl

theorem unlessShort_eq (room taken : Nat) (e : Expr (Option α))
    : unlessShort room taken e = if room < taken then .leaf none else e := by
  unfold unlessShort
  simp only [Nat.blt_eq]

theorem evaluateAll_eq_ok {g : α → Except Fault (Value ρ)} {es : List (Expr α)} {b : Bool}
    : evaluateAll g es = .ok b ↔ Until (fun e => CountsAs (e.evaluate g)) false es b := by
  induction es with
  | nil =>
    unfold evaluateAll
    rw [Fault.pure_eq_ok, Until.nil_iff, Bool.not_false]
  | cons e es ih =>
    unfold evaluateAll
    rw [bind_ite_eq_ok, Fault.pure_eq_ok, ih, Until.cons_iff, Bool.not_false, or_comm]

theorem evaluateAny_eq_ok {g : α → Except Fault (Value ρ)} {es : List (Expr α)} {b : Bool}
    : evaluateAny g es = .ok b ↔ Until (fun e => CountsAs (e.evaluate g)) true es b := by
  induction es with
  | nil =>
    unfold evaluateAny
    rw [Fault.pure_eq_ok, Until.nil_iff, Bool.not_true]
  | cons e es ih =>
    unfold evaluateAny
    rw [bind_ite_eq_ok, Fault.pure_eq_ok, ih, Until.cons_iff, Bool.not_true]

/-- The answers of leaves; what there is no room for stops. -/
def orStop (leaf : α → Except Fault (Value ρ)) : Option α → Except Fault (Value ρ)
  | some a => leaf a
  | none => throw (.tooDeep "")

/-- With so much room an expression comes out true or false. -/
def Comes (leaf : α → Except Fault (Value ρ)) (room : Nat) (e : Expr α) (b : Bool) : Prop :=
  CountsAs (e.evaluateWithin room leaf (throw (.tooDeep ""))) b

variable {leaf : α → Except Fault (Value ρ)} {room : Nat} {b : Bool}

theorem comes_iff {e : Expr α} {rest : Expr (Option α)} {short : Prop} [Decidable short]
    (h : e.within room = if short then .leaf none else rest)
    : e.Comes leaf room b ↔ ¬short ∧ CountsAs (rest.evaluate (orStop leaf)) b := by
  have hcomes : e.Comes leaf room b ↔ CountsAs ((e.within room).evaluate (orStop leaf)) b := Iff.rfl
  rw [hcomes, h]
  split
  next hshort =>
    refine iff_of_false ?_ fun h => h.1 hshort
    unfold evaluate
    exact countsAs_throw
  next hlong => exact (and_iff_right hlong).symm

theorem comes_leaf {a : α}
    : (Expr.leaf a).Comes leaf room b ↔ leafRoom ≤ room ∧ CountsAs (leaf a) b := by
  rw [comes_iff (by unfold within; exact unlessShort_eq _ _ _), Nat.not_lt]
  unfold evaluate
  rfl

theorem comes_always {c : Bool}
    : (Expr.always c).Comes leaf room b ↔ leafRoom ≤ room ∧ c = b := by
  rw [comes_iff (by unfold within; exact unlessShort_eq _ _ _), Nat.not_lt]
  unfold evaluate
  rw [countsAs_flag]

theorem comes_negate {e : Expr α}
    : e.negate.Comes leaf room b ↔ 0 < room ∧ e.Comes leaf (room - 1) !b := by
  rw [comes_iff (by unfold within; rfl), Nat.pos_iff_ne_zero]
  conv_lhs => unfold evaluate
  rw [countsAs_bind_flag]
  simp only [Bool.not_eq_eq_eq_not]
  rfl

theorem comes_all {es : List (Expr α)}
    : (Expr.all es).Comes leaf room b
      ↔ itemsRoom ≤ room ∧ Until (Comes leaf (room - itemsRoom)) false es b := by
  rw [comes_iff (by unfold within; rfl), Nat.not_lt, allWithin_eq_map]
  conv_lhs => unfold evaluate
  rw [countsAs_bind_flag]
  simp only [exists_eq_right]
  rw [evaluateAll_eq_ok, Until.map_iff]
  rfl

theorem comes_any {es : List (Expr α)}
    : (Expr.any es).Comes leaf room b
      ↔ itemsRoom ≤ room
        ∧ if es = [] then b = true else Until (Comes leaf (room - itemsRoom)) true es b := by
  rw [comes_iff (by unfold within; rfl), Nat.not_lt, allWithin_eq_map]
  conv_lhs => unfold evaluate
  by_cases hnil : es = []
  . rw [if_pos hnil, if_pos (by simp [hnil]), countsAs_flag, eq_comm (b := b)]
  . rw [if_neg hnil, if_neg (by simp [hnil]), countsAs_bind_flag]
    simp only [exists_eq_right]
    rw [evaluateAny_eq_ok, Until.map_iff]
    rfl

/-- An expression of leaves, truths and connectives. -/
inductive Logical : Expr α → Prop where
  | leaf (a : α) : Logical (.leaf a)
  | always (b : Bool) : Logical (.always b)
  | negate {e : Expr α} (h : Logical e) : Logical e.negate
  | all {es : List (Expr α)} (h : ∀ e ∈ es, Logical e) : Logical (.all es)
  | any {es : List (Expr α)} (h : ∀ e ∈ es, Logical e) : Logical (.any es)

theorem mem_leavesList {es : List (Expr α)} {a : α}
    : a ∈ leavesList es ↔ ∃ e ∈ es, a ∈ e.leaves := by
  induction es with
  | nil => simp [leavesList]
  | cons e es ih => simp [leavesList, ih]

/-- An outcome stays where there is more room and the leaves answer as before. -/
theorem Comes.mono {e : Expr α} (h : e.Comes leaf room b) (hlogical : e.Logical)
    {leaf' : α → Except Fault (Value ρ)}
    (hleaf : ∀ a ∈ e.leaves, ∀ c, CountsAs (leaf a) c → CountsAs (leaf' a) c) {room' : Nat}
    (hroom : room ≤ room') : e.Comes leaf' room' b := by
  induction hlogical generalizing room room' b with
  | leaf a =>
    rw [comes_leaf] at h ⊢
    exact ⟨h.1.trans hroom, hleaf a (by simp [leaves]) b h.2⟩
  | always c =>
    rw [comes_always] at h ⊢
    exact ⟨h.1.trans hroom, h.2⟩
  | negate _ ih =>
    rw [comes_negate] at h ⊢
    exact ⟨by omega, ih h.2 hleaf (by omega)⟩
  | all _ ih =>
    rw [comes_all] at h ⊢
    refine ⟨h.1.trans hroom, h.2.mono fun e he c hc => ih e he hc (fun a ha => ?_) (by omega)⟩
    exact hleaf a (mem_leavesList.mpr ⟨e, he, ha⟩)
  | any _ ih =>
    rw [comes_any] at h ⊢
    refine ⟨h.1.trans hroom, ?_⟩
    split
    next hnil =>
      rw [if_pos hnil] at h
      exact h.2
    next hne =>
      rw [if_neg hne] at h
      refine h.2.mono fun e he c hc => ih e he hc (fun a ha => ?_) (by omega)
      exact hleaf a (mem_leavesList.mpr ⟨e, he, ha⟩)

theorem Comes.widen {e : Expr α} (h : e.Comes leaf room b) (hlogical : e.Logical) {room' : Nat}
    (hroom : room ≤ room') : e.Comes leaf room' b :=
  h.mono hlogical (fun _ _ _ ha => ha) hroom

theorem leaves_unlessShort {taken : Nat} {e : Expr (Option α)}
    (h : none ∉ (unlessShort room taken e).leaves) : taken ≤ room := by
  rw [unlessShort_eq] at h
  split at h
  . simp [leaves] at h
  . omega

theorem comes_items {es : List (Expr α)}
    (h : ∀ e ∈ es, ∀ {room : Nat}, none ∉ (e.within room).leaves →
      (∀ a ∈ e.leaves, ∃ b, CountsAs (leaf a) b) → ∃ b, e.Comes leaf room b)
    (hroom : none ∉ leavesList (allWithin room es))
    (hleaf : ∀ a ∈ leavesList es, ∃ b, CountsAs (leaf a) b)
    : ∀ e ∈ es, ∃ b, e.Comes leaf room b := by
  intro e he
  refine h e he (fun hnone => hroom ?_) fun a ha => hleaf a (mem_leavesList.mpr ⟨e, he, ha⟩)
  rw [allWithin_eq_map]
  exact mem_leavesList.mpr ⟨_, List.mem_map_of_mem he, hnone⟩

/-- Where no part is stopped and every leaf is answered, an expression comes out true or false. -/
theorem Logical.comes {e : Expr α} (h : e.Logical) (hroom : none ∉ (e.within room).leaves)
    (hleaf : ∀ a ∈ e.leaves, ∃ b, CountsAs (leaf a) b) : ∃ b, e.Comes leaf room b := by
  induction h generalizing room with
  | leaf a =>
    unfold within at hroom
    obtain ⟨b, hb⟩ := hleaf a (by simp [leaves])
    exact ⟨b, comes_leaf.mpr ⟨leaves_unlessShort hroom, hb⟩⟩
  | always c =>
    unfold within at hroom
    exact ⟨c, comes_always.mpr ⟨leaves_unlessShort hroom, rfl⟩⟩
  | negate _ ih =>
    unfold within at hroom
    split at hroom
    next => simp [leaves] at hroom
    next hpos =>
      obtain ⟨b, hb⟩ := ih hroom hleaf
      exact ⟨!b, comes_negate.mpr ⟨Nat.pos_of_ne_zero hpos, by rwa [Bool.not_not]⟩⟩
  | all _ ih =>
    unfold within at hroom
    split at hroom
    next => simp [leaves] at hroom
    next hlong =>
      have hitems := comes_items ih hroom hleaf
      obtain ⟨b, hb⟩ := Until.total hitems
      exact ⟨b, comes_all.mpr ⟨Nat.not_lt.mp hlong, hb⟩⟩
  | @any es _ ih =>
    unfold within at hroom
    split at hroom
    next => simp [leaves] at hroom
    next hlong =>
      have hitems := comes_items ih hroom hleaf
      by_cases hnil : es = []
      . exact ⟨true, comes_any.mpr ⟨Nat.not_lt.mp hlong, by rw [if_pos hnil]⟩⟩
      . obtain ⟨b, hb⟩ := Until.total hitems
        exact ⟨b, comes_any.mpr ⟨Nat.not_lt.mp hlong, by rwa [if_neg hnil]⟩⟩

end Expr

end Storyworld
