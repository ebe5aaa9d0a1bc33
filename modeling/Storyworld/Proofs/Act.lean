import Storyworld.Fault

/-!
This module contains the equations of running computations, and the properties of a state that a
computation keeps, whether it ends well or stops with a fault.
-/

namespace Storyworld

theorem Fault.bind_eq_ok {α β : Type} {x : Except Fault α} {f : α → Except Fault β} {b : β}
    : x >>= f = .ok b ↔ ∃ a, x = .ok a ∧ f a = .ok b := by
  cases x with
  | error e => simp [bind, Except.bind]
  | ok a => simp [bind, Except.bind]

theorem Fault.map_eq_ok {α β : Type} {x : Except Fault α} {f : α → β} {b : β}
    : x.map f = .ok b ↔ ∃ a, x = .ok a ∧ f a = b := by
  cases x with
  | error e => simp [Except.map]
  | ok a => simp [Except.map]

theorem Fault.map_eq_error {α β : Type} {x : Except Fault α} {f : α → β} {e : Fault}
    : x.map f = .error e ↔ x = .error e := by
  cases x with
  | error e' => simp [Except.map]
  | ok a => simp [Except.map]

theorem Fault.eq_ok_getD {α : Type} {x : Except Fault α} (h : x.isOk = true) (a : α)
    : x = .ok (x.toOption.getD a) := by
  cases x with
  | error e => cases h
  | ok b => rfl

theorem Fault.eq_ok_of_toOption {α : Type} {x : Except Fault α} {a : α} (h : x.toOption = some a)
    : x = .ok a := by
  cases x with
  | error e => cases h
  | ok b => exact congrArg Except.ok (Option.some.inj h)

theorem Fault.any_eq_true {α : Type} {x : Except Fault α} {p : α → Bool}
    : x.toOption.any p = true ↔ ∃ a, x = .ok a ∧ p a = true := by
  cases x with
  | error e => simp [Except.toOption]
  | ok a => simp [Except.toOption]

/-- An outcome that is a value with a property. -/
def Fault.Gives {α : Type} (x : Except Fault α) (Q : α → Prop) : Prop := ∃ a, x = .ok a ∧ Q a

section

variable {α β : Type} {x : Except Fault α} {Q : α → Prop}

theorem Fault.Gives.bind (hx : Fault.Gives x Q) {f : α → Except Fault β} {R : β → Prop}
    (hf : ∀ a, Q a → Fault.Gives (f a) R) : Fault.Gives (x >>= f) R := by
  obtain ⟨a, rfl, ha⟩ := hx
  exact hf a ha

theorem Fault.Gives.mono (hx : Fault.Gives x Q) {R : α → Prop} (h : ∀ a, Q a → R a)
    : Fault.Gives x R :=
  hx.imp fun a ha => ⟨ha.1, h a ha.2⟩

theorem Fault.gives_pure {a : α} (h : Q a) : Fault.Gives (pure a) Q := ⟨a, rfl, h⟩

theorem Fault.gives_mapM {f : α → Except Fault β} {R : β → Prop} {as : List α}
    (h : ∀ a ∈ as, Fault.Gives (f a) R) : Fault.Gives (as.mapM f) fun bs => ∀ b ∈ bs, R b := by
  induction as with
  | nil => exact ⟨[], rfl, by simp⟩
  | cons a as ih =>
    rw [List.mapM_cons]
    refine (h a List.mem_cons_self).bind fun b hb => ?_
    refine (ih fun a ha => h a (List.mem_cons_of_mem _ ha)).bind fun bs hbs => ?_
    exact gives_pure (List.forall_mem_cons.mpr ⟨hb, hbs⟩)

theorem Fault.gives_filterMapM {f : α → Except Fault (Option β)} {R : β → Prop} {as : List α}
    (h : ∀ a ∈ as, Fault.Gives (f a) fun b? => ∀ b ∈ b?, R b)
    : Fault.Gives (as.filterMapM f) fun bs => ∀ b ∈ bs, R b := by
  induction as with
  | nil => exact ⟨[], rfl, by simp⟩
  | cons a as ih =>
    rw [List.filterMapM_cons]
    have hrest := ih fun a ha => h a (List.mem_cons_of_mem _ ha)
    refine (h a List.mem_cons_self).bind fun b? hb => ?_
    cases b? with
    | none => exact hrest
    | some b =>
      obtain ⟨bs, hbs, hall⟩ := hrest
      exact ⟨b :: bs, by rw [hbs]; rfl, List.forall_mem_cons.mpr ⟨hb b rfl, hall⟩⟩

end

theorem Fault.of_mem_filterMapM {α β : Type} {f : α → Except Fault (Option β)} {as : List α}
    {bs : List β} (h : as.filterMapM f = .ok bs) {b : β} (hb : b ∈ bs)
    : ∃ a ∈ as, f a = .ok (some b) := by
  induction as generalizing bs with
  | nil =>
    cases h
    cases hb
  | cons a as ih =>
    rw [List.filterMapM_cons] at h
    obtain ⟨b?, ha, hrest⟩ := Fault.bind_eq_ok.mp h
    cases b? with
    | none =>
      obtain ⟨a', ha', hfa'⟩ := ih hrest hb
      exact ⟨a', List.mem_cons_of_mem a ha', hfa'⟩
    | some b' =>
      obtain ⟨bs', hbs', heq⟩ := Fault.bind_eq_ok.mp hrest
      cases heq
      rcases List.mem_cons.mp hb with rfl | hb
      . exact ⟨a, List.mem_cons_self, ha⟩
      . obtain ⟨a', ha', hfa'⟩ := ih hbs' hb
        exact ⟨a', List.mem_cons_of_mem a ha', hfa'⟩

/-! ### Outcomes that are values -/

section

variable {α β : Type} {x : Except Fault α}

@[simp]
theorem Fault.isOk_ok (a : α) : (.ok a : Except Fault α).isOk = true := rfl

@[simp]
theorem Fault.isOk_error (e : Fault) : (.error e : Except Fault α).isOk = false := rfl

theorem Fault.isOk_bind_iff {f : α → Except Fault β} {Q : Prop}
    (h : ∀ a, x = .ok a → ((f a).isOk = true ↔ Q))
    : (x >>= f).isOk = true ↔ x.isOk = true ∧ Q := by
  cases x with
  | error e => simp [bind, Except.bind]
  | ok a => simpa [bind, Except.bind] using h a rfl

theorem Fault.isOk_bind {f : α → Except Fault β} (h : ∀ a, x = .ok a → (f a).isOk = true)
    : (x >>= f).isOk = true ↔ x.isOk = true := by
  rw [isOk_bind_iff fun a ha => iff_true_intro (h a ha), and_true]

theorem Fault.isOk_map {f : α → β} : (f <$> x).isOk = true ↔ x.isOk = true := by
  cases x with
  | error e => rfl
  | ok a => rfl

theorem Fault.isOk_mapM {f : α → Except Fault β} {as : List α}
    : (as.mapM f).isOk = true ↔ ∀ a ∈ as, (f a).isOk = true := by
  induction as with
  | nil => exact iff_of_true rfl (by simp)
  | cons a as ih =>
    rw [List.mapM_cons, List.forall_mem_cons, ← ih]
    exact isOk_bind_iff fun b _ => isOk_bind fun bs _ => rfl

theorem Fault.Gives.isOk {Q : α → Prop} (h : Fault.Gives x Q) : x.isOk = true := by
  obtain ⟨a, rfl, _⟩ := h
  rfl

end

theorem Fault.mapM_eq_ok {α β : Type} {f : α → Except Fault β} {g : α → β} {as : List α}
    (h : ∀ a ∈ as, f a = .ok (g a)) : as.mapM f = .ok (as.map g) := by
  induction as with
  | nil => rfl
  | cons a as ih =>
    rw [List.mapM_cons, h a List.mem_cons_self, ih fun a ha => h a (List.mem_cons_of_mem _ ha)]
    rfl

theorem Fault.mapM_map_eq_ok {α β γ : Type} {write : α → β} {read : β → Except Fault γ} {g : α → γ}
    {as : List α} (h : ∀ a ∈ as, read (write a) = .ok (g a))
    : (as.map write).mapM read = .ok (as.map g) := by
  rw [List.mapM_map]
  exact mapM_eq_ok h

namespace Act

variable {σ τ α β : Type}

theorem ext {act act' : Act σ α} (h : ∀ s, act.run s = act'.run s) : act = act' := funext h

@[simp]
theorem run_bind (act : Act σ α) (f : α → Act σ β) (s : σ)
    : (act >>= f).run s =
      match act.run s with
      | (.ok a, t) => (f a).run t
      | (.error e, t) => (.error e, t) := by
  rcases h : act.run s with ⟨result, t⟩
  simp only [run, ExceptT.run, StateT.run, Id.run] at h ⊢
  simp only [bind, ExceptT.bind, ExceptT.bindCont, ExceptT.mk, StateT.bind, h]
  cases result <;> rfl

theorem run_bind_pure_snd (act : Act σ α) (f : α → β) (s : σ)
    : ((act >>= fun a => pure (f a)).run s).2 = (act.run s).2 := by
  rw [run_bind]
  rcases act.run s with ⟨e | a, t⟩
  . rfl
  . rfl

theorem run_bind_eq_ok {act : Act σ α} {f : α → Act σ β} {s t : σ} {b : β}
    : (act >>= f).run s = (.ok b, t)
      ↔ ∃ a s', act.run s = (.ok a, s') ∧ (f a).run s' = (.ok b, t) := by
  rw [run_bind]
  rcases act.run s with ⟨e | a, s'⟩
  . simp
  . constructor
    . intro h
      exact ⟨a, s', rfl, h⟩
    . rintro ⟨a', s'', heq, h⟩
      cases heq
      exact h

theorem fst_run_bind_of_error {act : Act σ α} {s : σ} {e : Fault} (h : (act.run s).1 = .error e)
    (f : α → Act σ β) : ((act >>= f).run s).1 = .error e := by
  rw [run_bind]
  rcases hrun : act.run s with ⟨e' | a, t⟩
  . rw [hrun] at h
    exact congrArg Except.error (Except.error.inj h)
  . rw [hrun] at h
    cases h

@[simp]
theorem run_map (act : Act σ α) (f : α → β) (s : σ)
    : (f <$> act).run s = ((act.run s).1.map f, (act.run s).2) := by
  rcases h : act.run s with ⟨result, t⟩
  simp only [run, ExceptT.run, StateT.run, Id.run] at h ⊢
  simp only [Functor.map, ExceptT.map, ExceptT.mk, bind, StateT.bind, h]
  cases result <;> rfl

theorem run_map_eq_ok {act : Act σ α} {f : α → β} {s t : σ} {b : β}
    : (f <$> act).run s = (.ok b, t) ↔ ∃ a, act.run s = (.ok a, t) ∧ f a = b := by
  rw [run_map]
  rcases act.run s with ⟨e | a, s'⟩
  . simp [Except.map]
  . constructor
    . intro h
      cases h
      exact ⟨a, rfl, rfl⟩
    . rintro ⟨_, h, rfl⟩
      cases h
      rfl

@[simp]
theorem run_ask (f : σ → Except Fault α) (s : σ) : (ask f).run s = (f s, s) := rfl

@[simp]
theorem run_lift (x : Except Fault α) (s : σ) : (lift x : Act σ α).run s = (x, s) := rfl

theorem lift_ok (a : α) : (lift (.ok a) : Act σ α) = pure a := rfl

theorem lift_pure (a : α) : (lift (pure a) : Act σ α) = pure a := rfl

theorem lift_bind (x : Except Fault α) (f : α → Except Fault β)
    : (lift (x >>= f) : Act σ β) = (do lift (f (← lift x))) := by
  cases x with
  | error e => rfl
  | ok a => rfl

@[simp]
theorem run_get (s : σ) : (get : Act σ σ).run s = (.ok s, s) := rfl

@[simp]
theorem run_set (t s : σ) : (set t : Act σ PUnit).run s = (.ok ⟨⟩, t) := rfl

@[simp]
theorem run_modify (f : σ → σ) (s : σ) : (modify f : Act σ PUnit).run s = (.ok ⟨⟩, f s) := rfl

@[simp]
theorem run_within (part : σ → τ) (put : τ → σ → σ) (act : Act τ α) (s : σ)
    : (within part put act).run s = ((act.run (part s)).1, put (act.run (part s)).2 s) := rfl

@[simp]
theorem run_onFirst (act : Act σ α) (p : σ × τ)
    : (onFirst act).run p = ((act.run p.1).1, (act.run p.1).2, p.2) := rfl

@[simp]
theorem run_onSecond (act : Act τ α) (p : σ × τ)
    : (onSecond act).run p = ((act.run p.2).1, p.1, (act.run p.2).2) := rfl

@[simp]
theorem run_attempt (act : Act σ α) (s : σ)
    : (attempt act).run s = (.ok (act.run s).1, (act.run s).2) := rfl

/-- A computation has this outcome in every state. -/
def Yields (x : Except Fault α) (act : Act σ α) : Prop := ∀ s, (act.run s).1 = x

theorem yields_bind {x : Except Fault α} {y : α → Except Fault β} {act : Act σ α} {f : α → Act σ β}
    (ha : Yields x act) (hf : ∀ a, Yields (y a) (f a)) : Yields (x >>= y) (act >>= f) := by
  intro s
  rw [run_bind, ← ha s]
  rcases act.run s with ⟨e | a, t⟩
  . rfl
  . exact hf a t

/-- Whether a computation ends well does not depend on the state. -/
def Passes (act : Act σ α) (Q : Prop) : Prop := ∀ s, (act.run s).1.isOk = true ↔ Q

section

variable {Q R : Prop}

theorem passes_lift {x : Except Fault α} (h : x.isOk = true ↔ Q)
    : Passes (lift x : Act σ α) Q := fun _ => h

theorem passes_set (t : σ) : Passes (set t : Act σ PUnit) True := fun _ => iff_true_intro rfl

theorem passes_modify (f : σ → σ) : Passes (modify f : Act σ PUnit) True :=
  fun _ => iff_true_intro rfl

theorem passes_within {part : σ → τ} {put : τ → σ → σ} {act : Act τ α} (h : Passes act Q)
    : Passes (within part put act) Q := fun s => h (part s)

theorem passes_bind {act : Act σ α} {f : α → Act σ β} (ha : Passes act Q)
    (hf : ∀ a, Passes (f a) R) : Passes (act >>= f) (Q ∧ R) := by
  intro s
  have hact := ha s
  rw [run_bind]
  rcases hrun : act.run s with ⟨e | a, t⟩
  . rw [hrun] at hact
    simp [← hact]
  . rw [hrun] at hact
    simp [← hact, hf a t]

theorem Passes.congr {act : Act σ α} (h : Passes act Q) (hQ : Q ↔ R) : Passes act R :=
  fun s => (h s).trans hQ

theorem passes_then {act : Act σ α} {f : α → Act σ β} (ha : Passes act True)
    (hf : ∀ a, Passes (f a) R) : Passes (act >>= f) R :=
  (passes_bind ha hf).congr (iff_of_eq (true_and R))

theorem passes_forM {f : α → Act σ PUnit} {T : α → Prop} (hf : ∀ a, Passes (f a) (T a))
    (as : List α) : Passes (as.forM f) (∀ a ∈ as, T a) := by
  induction as with
  | nil => exact fun _ => iff_of_true rfl (by simp)
  | cons a as ih =>
    intro s
    rw [List.forall_mem_cons]
    exact passes_bind (hf a) (fun _ => ih) s

end

/-- Where a property holds before a computation, it holds after it, also after one that stops. -/
def Keeps (P : σ → Prop) (act : Act σ α) : Prop := ∀ s, P s → P (act.run s).2

section

variable {P : σ → Prop} {Q : τ → Prop}

theorem keeps_pure (a : α) : Keeps P (pure a : Act σ α) := by
  intro s h
  exact h

theorem keeps_throw (e : Fault) : Keeps P (throw e : Act σ α) := by
  intro s h
  exact h

theorem keeps_ask (f : σ → Except Fault α) : Keeps P (ask f) := by
  intro s h
  exact h

theorem keeps_lift (x : Except Fault α) : Keeps P (lift x : Act σ α) := keeps_ask _

theorem keeps_get : Keeps P (get : Act σ σ) := by
  intro s h
  exact h

theorem keeps_get_bind {f : σ → Act σ α} (h : ∀ s, P s → Keeps P (f s)) : Keeps P (get >>= f) := by
  intro s hs
  exact h s hs s hs

theorem keeps_set {t : σ} (h : P t) : Keeps P (set t : Act σ PUnit) := by
  intro _ _
  exact h

theorem keeps_modify {f : σ → σ} (hf : ∀ s, P s → P (f s)) : Keeps P (modify f : Act σ PUnit) := hf

/-- What is so after a first computation stays so where the rest keeps it. -/
theorem bind_of_keeps {act : Act σ α} {f : α → Act σ β} {s : σ} (h : P (act.run s).2)
    (hf : ∀ a, Keeps P (f a)) : P ((act >>= f).run s).2 := by
  rw [run_bind]
  rcases hr : act.run s with ⟨_ | a, t⟩
  . simpa [hr] using h
  . exact hf a t (by simpa [hr] using h)

theorem keeps_bind {act : Act σ α} {f : α → Act σ β} (ha : Keeps P act) (hf : ∀ a, Keeps P (f a))
    : Keeps P (act >>= f) := fun s h => bind_of_keeps (ha s h) hf

theorem keeps_map {act : Act σ α} (f : α → β) (ha : Keeps P act) : Keeps P (f <$> act) := by
  intro s h
  rw [run_map]
  exact ha s h

theorem keeps_attempt {act : Act σ α} (ha : Keeps P act) : Keeps P (attempt act) := ha

theorem keeps_within {part : σ → τ} {put : τ → σ → σ} {act : Act τ α} (ha : Keeps Q act)
    (hpart : ∀ s, P s → Q (part s)) (hput : ∀ s t, P s → Q t → P (put t s))
    : Keeps P (within part put act) := by
  intro s h
  rw [run_within]
  apply hput s _ h
  apply ha
  exact hpart s h

theorem keeps_frame {part : σ → τ} {put : τ → σ → σ} {act : Act τ α} (h : ∀ s t, P s → P (put t s))
    : Keeps P (within part put act) :=
  keeps_within (Q := fun _ => True) (fun _ _ => trivial) (fun _ _ => trivial)
    fun s t hs _ => h s t hs

theorem keeps_onFirst {act : Act σ α} (ha : Keeps P act)
    : Keeps (fun p : σ × τ => P p.1) (onFirst act) :=
  keeps_within ha (fun _ hp => hp) fun _ _ _ hs => hs

theorem keeps_onSecond {act : Act τ α} : Keeps (fun p : σ × τ => P p.1) (onSecond act) :=
  keeps_frame fun _ _ hp => hp

theorem keeps_second {R : σ × τ → Prop} {act : Act τ α} (h : ∀ s, Keeps (fun t => R (s, t)) act)
    : Keeps R (onSecond act) := fun p hp => h p.1 p.2 hp

theorem keeps_ite {c : Prop} [Decidable c] {act act' : Act σ α} (ht : Keeps P act)
    (he : Keeps P act') : Keeps P (if c then act else act') := by
  split
  . exact ht
  . exact he

theorem keeps_forM {f : α → Act σ PUnit} (hf : ∀ a, Keeps P (f a)) (as : List α)
    : Keeps P (as.forM f) := by
  induction as with
  | nil => apply keeps_pure
  | cons a as ih =>
    unfold List.forM
    exact keeps_bind (hf a) fun _ => ih

end

/-- Whatever value a computation ends with has a property. -/
def Ends (Q : α → Prop) (act : Act σ α) : Prop := ∀ s a, (act.run s).1 = .ok a → Q a

theorem ends_pure {Q : α → Prop} {a : α} (h : Q a) : Ends Q (pure a : Act σ α) := by
  intro s b hb
  obtain rfl : a = b := Except.ok.inj hb
  exact h

theorem ends_bind {Q : β → Prop} {act : Act σ α} {f : α → Act σ β} (hf : ∀ a, Ends Q (f a))
    : Ends Q (act >>= f) := by
  intro s b hb
  rw [run_bind] at hb
  rcases hrun : act.run s with ⟨e | a, t⟩
  . rw [hrun] at hb
    cases hb
  . rw [hrun] at hb
    exact hf a t b hb

theorem ends_self (act : Act σ α) : Ends (fun a => ∃ s, (act.run s).1 = .ok a) act :=
  fun s _ h => ⟨s, h⟩

theorem ends_lift {Q : α → Prop} {x : Except Fault α} (h : ∀ a, x = .ok a → Q a)
    : Ends Q (lift x : Act σ α) := fun _ => h

theorem Ends.bind {Q : α → Prop} {R : β → Prop} {act : Act σ α} {f : α → Act σ β}
    (ha : Ends Q act) (hf : ∀ a, Q a → Ends R (f a)) : Ends R (act >>= f) := by
  intro s b hb
  obtain ⟨a, t, hact, hrest⟩ := run_bind_eq_ok.mp (Prod.ext hb rfl)
  exact hf a (ha s a (congrArg Prod.fst hact)) t b (congrArg Prod.fst hrest)

theorem keeps_bind_of_ends {P : σ → Prop} {Q : α → Prop} {act : Act σ α} {f : α → Act σ β}
    (ha : Keeps P act) (hends : Ends Q act) (hf : ∀ a, Q a → Keeps P (f a))
    : Keeps P (act >>= f) := by
  intro s hs
  have hact := ha s hs
  rw [run_bind]
  rcases hrun : act.run s with ⟨e | a, t⟩
  . rw [hrun] at hact
    exact hact
  . rw [hrun] at hact
    exact hf a (hends s a (congrArg Prod.fst hrun)) t hact

/-- From every state with a property a computation ends well, in a state that has the property too;
its value has another one. -/
def Gives (P : σ → Prop) (act : Act σ α) (Q : α → Prop) : Prop :=
  ∀ s, P s → ∃ a t, act.run s = (.ok a, t) ∧ P t ∧ Q a

section

variable {P : σ → Prop} {Q : α → Prop} {act : Act σ α}

theorem Gives.keeps (h : Gives P act Q) : Keeps P act := by
  intro s hs
  obtain ⟨a, t, hrun, ht, _⟩ := h s hs
  rw [hrun]
  exact ht

theorem Gives.of_keeps (hkeeps : Keeps P act)
    (h : ∀ s, P s → Fault.Gives (act.run s).1 Q) : Gives P act Q := by
  intro s hs
  obtain ⟨a, ha, hQ⟩ := h s hs
  exact ⟨a, (act.run s).2, Prod.ext ha rfl, hkeeps s hs, hQ⟩

theorem Gives.fst (h : Gives (fun _ => True) act Q) {s : σ} : Fault.Gives (act.run s).1 Q := by
  obtain ⟨a, t, hrun, _, ha⟩ := h s trivial
  exact ⟨a, by rw [hrun], ha⟩

theorem Gives.mono (h : Gives P act Q) {R : α → Prop} (hR : ∀ a, Q a → R a) : Gives P act R := by
  intro s hs
  obtain ⟨a, t, hrun, ht, ha⟩ := h s hs
  exact ⟨a, t, hrun, ht, hR a ha⟩

theorem Gives.bind (ha : Gives P act Q) {f : α → Act σ β} {R : β → Prop}
    (hf : ∀ a, Q a → Gives P (f a) R) : Gives P (act >>= f) R := by
  intro s hs
  obtain ⟨a, t, hrun, ht, hQ⟩ := ha s hs
  rw [run_bind, hrun]
  exact hf a hQ t ht

theorem Gives.map (ha : Gives P act Q) {f : α → β} {R : β → Prop} (h : ∀ a, Q a → R (f a))
    : Gives P (f <$> act) R := by
  intro s hs
  obtain ⟨a, t, hrun, ht, hQ⟩ := ha s hs
  exact ⟨f a, t, by rw [run_map, hrun]; rfl, ht, h a hQ⟩

theorem gives_pure {a : α} (h : Q a) : Gives P (pure a : Act σ α) Q :=
  fun s hs => ⟨a, s, rfl, hs, h⟩

theorem gives_lift {x : Except Fault α} (h : Fault.Gives x Q) : Gives P (lift x) Q := by
  obtain ⟨a, rfl, ha⟩ := h
  exact fun s hs => ⟨a, s, rfl, hs, ha⟩

theorem gives_get : Gives P (get : Act σ σ) P := fun s hs => ⟨s, s, rfl, hs, hs⟩

theorem gives_modify {f : σ → σ} (hf : ∀ s, P s → P (f s))
    : Gives P (modify f : Act σ PUnit) fun _ => True :=
  fun s hs => ⟨_, f s, rfl, hf s hs, trivial⟩

theorem gives_attempt (h : Keeps P act)
    : Gives P (attempt act) fun outcome => ∃ s, (act.run s).1 = outcome :=
  fun s hs => ⟨_, _, rfl, h s hs, s, rfl⟩

theorem Gives.attempt (h : Gives P act Q)
    : Gives P (attempt act) fun outcome => Fault.Gives outcome Q := by
  intro s hs
  obtain ⟨a, t, hrun, ht, ha⟩ := h s hs
  exact ⟨.ok a, t, by rw [run_attempt, hrun], ht, a, rfl, ha⟩

theorem gives_within {part : σ → τ} {put : τ → σ → σ} {act : Act τ α} {R : τ → Prop}
    (ha : Gives R act Q) (hpart : ∀ s, P s → R (part s)) (hput : ∀ s t, P s → R t → P (put t s))
    : Gives P (within part put act) Q := by
  intro s hs
  obtain ⟨a, t, hrun, ht, hQ⟩ := ha (part s) (hpart s hs)
  exact ⟨a, put t s, by rw [run_within, hrun], hput s t hs ht, hQ⟩

theorem gives_part {part : σ → τ} {put : τ → σ → σ} {act : Act τ α}
    (ha : Gives (fun _ => True) act Q) : Gives (fun _ => True) (within part put act) Q :=
  gives_within ha (fun _ _ => trivial) fun _ _ _ _ => trivial

theorem gives_forM {f : α → Act σ PUnit} {as : List α}
    (h : ∀ a ∈ as, Gives P (f a) fun _ => True) : Gives P (as.forM f) fun _ => True := by
  induction as with
  | nil => exact gives_pure trivial
  | cons a as ih =>
    rw [List.forall_mem_cons] at h
    unfold List.forM
    exact h.1.bind fun _ _ => ih h.2

end

/-- Two computations are the same from every state with a property. -/
def Agree (P : σ → Prop) (act act' : Act σ α) : Prop := ∀ s, P s → act.run s = act'.run s

section

variable {P : σ → Prop}

theorem agree_refl (act : Act σ α) : Agree P act act := fun _ _ => rfl

theorem agree_bind {act : Act σ α} {f f' : α → Act σ β} (ha : Keeps P act)
    (hf : ∀ a, Agree P (f a) (f' a)) : Agree P (act >>= f) (act >>= f') := by
  intro s hs
  have hact := ha s hs
  rw [run_bind, run_bind]
  rcases hrun : act.run s with ⟨e | a, t⟩
  . rfl
  . rw [hrun] at hact
    exact hf a t hact

theorem agree_ite {c : Prop} [Decidable c] {act₁ act₂ act₁' act₂' : Act σ α}
    (ht : Agree P act₁ act₁') (he : Agree P act₂ act₂')
    : Agree P (if c then act₁ else act₂) (if c then act₁' else act₂') := by
  split
  . exact ht
  . exact he

end

end Act

end Storyworld
