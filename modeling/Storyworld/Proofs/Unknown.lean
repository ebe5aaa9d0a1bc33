import Storyworld.Proofs.Requirement

/-!
This module contains requirements none of whose tokens is understood: whether they let through is the
same in every state of play, and only negations keep them from it.
-/

namespace Storyworld

variable {α ρ : Type}

/-! ### Signs -/

namespace Expr

mutual

/-- Whether an expression comes out as `b` by its negations alone: every leaf stands under a number of
them that makes it so when the leaf is true, and so does all that demands nothing. -/
def signed (b : Bool) : Expr α → Bool
  | .leaf _ => b
  | .always c => b == c
  | .negate e => signed (!b) e
  | .all es => (b || !es.isEmpty) && allSigned b es
  | .any es => (b || !es.isEmpty) && allSigned b es
  | .nothing => !b
  | .test _ => b
  | .sequence _ => false

def allSigned (b : Bool) : List (Expr α) → Bool
  | [] => true
  | e :: es => signed b e && allSigned b es

end

theorem allSigned_iff {b : Bool} {es : List (Expr α)}
    : allSigned b es = true ↔ ∀ e ∈ es, e.signed b = true := by
  induction es with
  | nil => simp [allSigned]
  | cons e es ih => simp [allSigned, ih]

end Expr

section

variable {β : Type} {Says : β → Bool → Prop} {last b c : Bool} {xs : List β}

/-- Questions that can only be answered `c` are all answered so. -/
theorem Until.eq_of_forall (h : Until Says last xs b) (hxs : ∀ x ∈ xs, ∀ d, Says x d → d = c)
    (hnil : xs = [] → c = !last) : b = c := by
  induction h with
  | none => exact (hnil rfl).symm
  | found h => exact hxs _ List.mem_cons_self _ h
  | next h _ ih =>
    rw [List.forall_mem_cons] at hxs
    exact ih hxs.2 fun _ => (hxs.1 _ h).symm

end

variable [Scalar ρ]

namespace Expr

variable {leaf : α → Except Fault (Value ρ)} {room : Nat} {b c : Bool}

theorem Comes.eq_of_signed {e : Expr α} (h : e.Comes leaf room c) (hlogical : e.Logical)
    (hsigned : e.signed b = true) (hleaf : ∀ a ∈ e.leaves, ∀ d, CountsAs (leaf a) d → d = true)
    : c = b := by
  induction hlogical generalizing room b c with
  | leaf a =>
    unfold signed at hsigned
    rw [hsigned]
    exact hleaf a (by simp [leaves]) c (comes_leaf.mp h).2
  | always d =>
    unfold signed at hsigned
    rw [← (comes_always.mp h).2]
    exact (eq_of_beq hsigned).symm
  | negate _ ih =>
    unfold signed at hsigned
    have := ih (comes_negate.mp h).2 hsigned hleaf
    exact Bool.not_inj this
  | all _ ih =>
    unfold signed at hsigned
    rw [Bool.and_eq_true, allSigned_iff] at hsigned
    refine (comes_all.mp h).2.eq_of_forall (fun e he d hd => ?_) ?_
    . exact ih e he hd (hsigned.2 e he) fun a ha => hleaf a (mem_leavesList.mpr ⟨e, he, ha⟩)
    . rintro rfl
      simpa using hsigned.1
  | any _ ih =>
    unfold signed at hsigned
    rw [Bool.and_eq_true, allSigned_iff] at hsigned
    have hcomes := (comes_any.mp h).2
    split at hcomes
    next hnil =>
      subst hnil
      rw [hcomes]
      simpa using hsigned.1.symm
    next hne =>
      refine hcomes.eq_of_forall (fun e he d hd => ?_) fun hnil => absurd hnil hne
      exact ih e he hd (hsigned.2 e he) fun a ha => hleaf a (mem_leavesList.mpr ⟨e, he, ha⟩)

/-- What comes out with so much room comes out without a limit as well. -/
theorem Comes.countsAs {e : Expr α} (h : e.Comes leaf room b) (hlogical : e.Logical)
    : CountsAs (e.evaluate leaf) b := by
  induction hlogical generalizing room b with
  | leaf a =>
    unfold evaluate
    exact (comes_leaf.mp h).2
  | always c =>
    unfold evaluate
    exact countsAs_flag.mpr (comes_always.mp h).2
  | negate _ ih =>
    obtain ⟨v, hv, hgiven⟩ := ih (comes_negate.mp h).2
    unfold evaluate
    exact countsAs_bind_flag.mpr ⟨v, hv, by rw [hgiven, Bool.not_not]⟩
  | all _ ih =>
    unfold evaluate
    refine countsAs_bind_flag.mpr ⟨b, evaluateAll_eq_ok.mpr ?_, rfl⟩
    exact (comes_all.mp h).2.mono fun e he c hc => ih e he hc
  | @any es _ ih =>
    have hcomes := (comes_any.mp h).2
    unfold evaluate
    cases es with
    | nil => exact countsAs_flag.mpr hcomes.symm
    | cons e es =>
      refine countsAs_bind_flag.mpr ⟨b, evaluateAny_eq_ok.mpr ?_, rfl⟩
      rw [if_neg (List.cons_ne_nil e es)] at hcomes
      exact hcomes.mono fun e he c hc => ih e he hc

end Expr

/-! ### Tokens that are not understood -/

namespace Requirement

def isUnknown : Condition ρ → Bool
  | .unknown _ => true
  | _ => false

/-- What a requirement comes out as when all of its tokens hold. -/
def structureHolds (r : Requirement ρ) : Bool :=
  (r.evaluate fun _ => (.ok (.flag true) : Except Fault (Value ρ))).toOption.any Value.isGiven

theorem structureHolds_of_countsAs {r : Requirement ρ} {b : Bool}
    (h : CountsAs (r.evaluate fun _ => (.ok (.flag true) : Except Fault (Value ρ))) b)
    : structureHolds r = b := by
  obtain ⟨v, hv, hgiven⟩ := h
  unfold structureHolds
  rw [hv]
  exact hgiven

variable {definition : Value ρ} {scope scope' : Scope ρ} {env env' : Env ρ}

theorem ask_of_isUnknown {c : Condition ρ} (h : isUnknown c = true)
    : ask scope env c = .ok (.flag true) := by
  cases c with
  | unknown token => rfl
  | _ => cases h

theorem passes_congr
    (h : ∀ b, (ofValue definition).Comes (ask scope env) roomLimit b
      ↔ (ofValue definition).Comes (ask scope' env') roomLimit b)
    : passes scope env definition = passes scope' env' definition := by
  have hdecides : Decides scope env definition ↔ Decides scope' env' definition := by
    rw [decides_iff, decides_iff]
    exact and_congr_right fun _ => exists_congr h
  by_cases hdecided : Decides scope env definition
  . obtain ⟨hfits, b, hb⟩ := decides_iff.mp hdecided
    have hread := read_of_fits hfits
    rw [passes_of_comes hread hb, passes_of_comes hread ((h b).mp hb)]
  . rw [passes_of_not_decides hdecided, passes_of_not_decides fun h => hdecided (hdecides.mpr h)]

/-- Tokens that are not understood, each under an even number of negations. -/
def riddle : Value Rat :=
  .object [("all", .list [.text "foo", .text " not: not:bar"]), ("not", .object [("not", .text "baz")])]

end Requirement

end Storyworld
