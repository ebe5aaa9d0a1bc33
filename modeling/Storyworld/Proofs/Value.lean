import Mathlib.Data.List.DropRight
import Storyworld.Proofs.Act
import Storyworld.Proofs.Exact
import Storyworld.Proofs.Table
import Storyworld.Text.Token
import Storyworld.Value.Text

/-!
This module contains the texts of values, when values are the same, and the induction over their
parts.
-/

namespace Storyworld

namespace Text

theorem dropWhile_stripBoth (p : Char → Bool) (cs : List Char)
    : (stripBoth p cs).dropWhile p = stripBoth p cs := by
  unfold stripBoth
  generalize hrest : cs.dropWhile p = rest
  generalize hfront : (rest.reverse.dropWhile p).reverse = front
  have hprefix : front <+: rest := by
    rw [← hfront, ← List.reverse_suffix, List.reverse_reverse]
    exact List.dropWhile_suffix p
  cases front with
  | nil => rfl
  | cons c front =>
    -- what is left starts as the rest does, and that starts with no blank
    obtain ⟨tail, rfl⟩ := hprefix
    have hc : p c = false := by
      have := List.head?_dropWhile_not p cs
      rw [hrest] at this
      simpa using this
    rw [List.dropWhile_cons_of_neg]
    simp [hc]

theorem dropWhile_reverse_stripBoth (p : Char → Bool) (cs : List Char)
    : (stripBoth p cs).reverse.dropWhile p = (stripBoth p cs).reverse := by
  unfold stripBoth
  rw [List.reverse_reverse, List.dropWhile_idempotent]

theorem stripBoth_stripBoth (p : Char → Bool) (cs : List Char)
    : stripBoth p (stripBoth p cs) = stripBoth p cs := by
  have hfront := dropWhile_stripBoth p cs
  have hback := dropWhile_reverse_stripBoth p cs
  generalize stripBoth p cs = ds at hfront hback
  unfold stripBoth
  rw [hfront, hback, List.reverse_reverse]

@[simp]
theorem strip_strip (s : String) : strip (strip s) = strip s := by
  unfold strip
  rw [String.toList_ofList, stripBoth_stripBoth]

theorem head_of_stripBoth {p : Char → Bool} {c : Char} {cs ds : List Char}
    (h : stripBoth p ds = c :: cs) : p c = false := by
  have hdrop := dropWhile_stripBoth p ds
  rw [h] at hdrop
  by_contra hc
  rw [Bool.not_eq_false] at hc
  rw [List.dropWhile_cons_of_pos hc] at hdrop
  have hlength := congrArg List.length hdrop
  have hle := (List.dropWhile_suffix p (l := cs)).length_le
  rw [List.length_cons] at hlength
  omega

theorem of_stripBoth_eq_nil {p : Char → Bool} {cs : List Char} (h : stripBoth p cs = []) {c : Char}
    (hc : c ∈ cs) : p c = true := by
  unfold stripBoth at h
  rw [List.reverse_eq_nil_iff, List.dropWhile_eq_nil_iff] at h
  rw [← List.takeWhile_append_dropWhile (p := p) (l := cs), List.mem_append] at hc
  rcases hc with hc | hc
  . exact List.mem_takeWhile_imp hc
  . exact h c (List.mem_reverse.mpr hc)

/-- What starts with no blank and ends as a text without blanks around is without them too. -/
theorem stripBoth_append {p : Char → Bool} {c : Char} (hc : p c = false) (cs : List Char)
    {ds : List Char} (hds : stripBoth p ds = ds) (hne : ds ≠ [])
    : stripBoth p (c :: cs ++ ds) = c :: cs ++ ds := by
  have hback := dropWhile_reverse_stripBoth p ds
  rw [hds] at hback
  have hfront : (c :: cs ++ ds).dropWhile p = c :: cs ++ ds := by
    rw [List.cons_append, List.dropWhile_cons_of_neg (by simp [hc])]
  unfold stripBoth
  rw [hfront, List.reverse_append, List.dropWhile_append, hback, if_neg (by simpa using hne),
    ← List.reverse_append, List.reverse_reverse]

theorem stripBoth_blanks_append {p : Char → Bool} {bs : List Char} (h : ∀ b ∈ bs, p b = true)
    (cs : List Char) : stripBoth p (bs ++ cs) = stripBoth p cs := by
  unfold stripBoth
  rw [List.dropWhile_append_of_pos h]

theorem stripBoth_append_blanks {p : Char → Bool} {bs : List Char} (h : ∀ b ∈ bs, p b = true)
    (cs : List Char) : stripBoth p (cs ++ bs) = stripBoth p cs := by
  unfold stripBoth
  rw [List.dropWhile_append]
  split
  next hnil =>
    rw [List.isEmpty_iff.mp hnil, List.dropWhile_eq_nil_iff.mpr h]
  next =>
    rw [List.reverse_append, List.dropWhile_append_of_pos]
    exact fun b hb => h b (List.mem_reverse.mp hb)

theorem stripBoth_cons {p : Char → Bool} {b : Char} (h : p b = true) (cs : List Char)
    : stripBoth p (b :: cs) = stripBoth p cs := by
  have hbs : ∀ c ∈ [b], p c = true := by simpa using h
  exact stripBoth_blanks_append hbs cs

theorem stripBoth_concat {p : Char → Bool} {b : Char} (h : p b = true) (cs : List Char)
    : stripBoth p (cs ++ [b]) = stripBoth p cs := by
  have hbs : ∀ c ∈ [b], p c = true := by simpa using h
  exact stripBoth_append_blanks hbs cs

/-- Around what is left of a text without blanks around it, there were only blanks. -/
theorem exists_blanks (p : Char → Bool) (cs : List Char)
    : ∃ front back, (∀ b ∈ front, p b = true) ∧ (∀ b ∈ back, p b = true)
      ∧ cs = front ++ (stripBoth p cs ++ back) := by
  refine ⟨cs.takeWhile p, ((cs.dropWhile p).reverse.takeWhile p).reverse, ?_, ?_, ?_⟩
  . exact fun b hb => List.mem_takeWhile_imp hb
  . exact fun b hb => List.mem_takeWhile_imp (List.mem_reverse.mp hb)
  . unfold stripBoth
    rw [← List.reverse_append, List.takeWhile_append_dropWhile, List.reverse_reverse,
      List.takeWhile_append_dropWhile]

theorem toList_strip (s : String) : (strip s).toList = stripBoth isBlank s.toList :=
  String.toList_ofList

theorem strip_ne_empty_of_mem {s : String} {c : Char} (hc : c ∈ s.toList)
    (hblank : isBlank c = false) : strip s ≠ "" := by
  intro h
  have hnil : stripBoth isBlank s.toList = [] := by
    rw [← toList_strip, h]
    rfl
  have := of_stripBoth_eq_nil hnil hc
  rw [hblank] at this
  cases this

/-- Texts without blanks around them have none around them when they are put together. -/
theorem strip_append {s t : String} (hs : strip s = s) (ht : strip t = t)
    : strip (s ++ t) = s ++ t := by
  have hchars {s : String} (h : strip s = s) : stripBoth isBlank s.toList = s.toList := by
    rw [← toList_strip, h]
  have hjoined : stripBoth isBlank (s.toList ++ t.toList) = s.toList ++ t.toList := by
    by_cases hnil : t.toList = []
    . rw [hnil, List.append_nil, hchars hs]
    . cases hfront : s.toList with
      | nil => exact hchars ht
      | cons c cs =>
        have hc : isBlank c = false := head_of_stripBoth ((hchars hs).trans hfront)
        exact stripBoth_append hc cs (hchars ht) hnil
  unfold strip
  rw [String.toList_append, hjoined, ← String.toList_append, String.ofList_toList]

theorem cut_append_colon {head : String} (h : ':' ∉ head.toList) (rest : String)
    : cut (head ++ ":" ++ rest) = (head, rest) := by
  have hchars : (head ++ ":" ++ rest).toList = head.toList ++ ':' :: rest.toList := by
    rw [String.toList_append, String.toList_append, List.append_assoc]
    rfl
  have hhead : ∀ c ∈ head.toList, (c != ':') = true := by
    intro c hc
    rw [bne_iff_ne]
    rintro rfl
    exact h hc
  unfold cut cutAt
  rw [hchars, List.takeWhile_append_of_pos hhead, List.dropWhile_append_of_pos hhead]
  simp [String.ofList_toList]

/-- What stands before the first colon starts as the whole text does. -/
theorem strip_cut_ne_empty {s : String} (htrim : strip s = s) (h : (cut s).1 ≠ "")
    : strip (cut s).1 ≠ "" := by
  cases hs : s.toList with
  | nil =>
    refine absurd ?_ h
    unfold cut cutAt
    rw [hs]
    rfl
  | cons c cs =>
    have hc : isBlank c = false := by
      have hchars := hs
      rw [← htrim, toList_strip] at hchars
      exact head_of_stripBoth hchars
    have hfirst : c ∈ (cut s).1.toList := by
      unfold cut cutAt at h ⊢
      rw [hs] at h ⊢
      by_cases hcolon : c = ':'
      . subst hcolon
        exact absurd rfl h
      . simp [hcolon]
    exact strip_ne_empty_of_mem hfirst hc

theorem ne_empty_of_strip {s : String} (h : strip s ≠ "") : s ≠ "" := by
  rintro rfl
  exact h rfl

end Text

namespace Value

/-- What carries over from items and members to the whole holds of every value. -/
@[elab_as_elim]
theorem inductParts {ρ : Type} {motive : Value ρ → Prop} (null : motive .null)
    (num : ∀ n, motive (.num n)) (text : ∀ s, motive (.text s))
    (list : ∀ xs, (∀ x ∈ xs, motive x) → motive (.list xs))
    (object : ∀ ms, (∀ m ∈ ms, motive m.2) → motive (.object ms))
    (target : ∀ l s, motive (.target l s)) (pointer : ∀ l s, motive (.pointer l s))
    (v : Value ρ) : motive v :=
  @Value.rec ρ motive (fun xs => ∀ x ∈ xs, motive x) (fun ms => ∀ m ∈ ms, motive m.2)
    (fun m => motive m.2) null num text list object (fun l s _ _ => target l s)
    (fun l s _ _ => pointer l s) (by simp) (fun _ _ hx hxs => List.forall_mem_cons.mpr ⟨hx, hxs⟩)
    (by simp) (fun _ _ hm hms => List.forall_mem_cons.mpr ⟨hm, hms⟩) (fun _ _ hv => hv) v

@[simp]
theorem recordD_object {ρ : Type} (ms : Record ρ) : (Value.object ms).recordD = ms := rfl

section

variable {ρ : Type} [Scalar ρ]

theorem isGiven_text {s : String} : (Value.text s : Value ρ).isGiven = true ↔ s ≠ "" := by
  simp [Value.isGiven]

theorem given?_text {s : String} (h : s ≠ "") : (Value.text s : Value ρ).given? = .ok (.text s) := by
  unfold given?
  rw [if_pos (isGiven_text.mpr h), text?_text]
  rfl

theorem key_text (s : String) : (Value.text s : Value ρ).key = Text.strip s := by
  unfold Value.key Value.orElse
  by_cases hs : s = ""
  . simp [Value.isGiven, hs]
  . simp [Value.isGiven, hs]

theorem key?_text (s : String) : (Value.text s : Value ρ).key? = .ok (Text.strip s) := by
  simp [Value.key?, Value.checkDepth, Value.isWithin, bind, Except.bind, pure, Except.pure, key_text]

theorem display_of_text? {v : Value ρ} {s : String} (h : v.text? = .ok s) : v.display = s := by
  obtain ⟨_, _, h⟩ := Fault.bind_eq_ok.mp h
  exact Except.ok.inj h

theorem key?_of_text? {v : Value ρ} {s : String} (hgiven : v.isGiven = true)
    (h : v.text? = .ok s) : v.key? = .ok (Text.strip s) := by
  have hdisplay := display_of_text? h
  obtain ⟨_, hdepth, _⟩ := Fault.bind_eq_ok.mp h
  unfold key? key Value.orElse
  rw [hdepth, if_pos hgiven, hdisplay]
  rfl

theorem isGiven_of_key {v : Value ρ} (h : v.key ≠ "") : v.isGiven = true := by
  by_contra hgiven
  apply h
  unfold key orElse
  rw [if_neg hgiven, display_text]
  decide +kernel

theorem same_text_iff {s : String} {v : Value ρ} : v.same (.text s) = true ↔ v = .text s := by
  cases v with
  | text t => simp [Value.same]
  | _ => simp [Value.same]

theorem eq_of_same_text {s : String} {v : Value ρ} (h : (Value.text s).same v = true)
    : v = .text s := by
  cases v with
  | text t =>
    simp only [Value.same, beq_iff_eq] at h
    rw [h]
  | _ => simp [Value.same] at h

theorem same_null_iff {v : Value ρ} : v.same .null = true ↔ v = .null := by
  cases v with
  | null => simp [Value.same]
  | _ => simp [Value.same]

/-- Objects with as many members are the same where each member of the one has one of its name in
the other that is the same. -/
theorem same_object {ms ns : Record ρ} (hlength : ms.length = ns.length)
    (h : ∀ name v, (name, v) ∈ ms → ∃ w, Table.get? ns name = some w ∧ v.same w = true)
    : (Value.object ms).same (.object ns) = true := by
  have hmembers (ms : Record ρ)
      (h : ∀ name v, (name, v) ∈ ms → ∃ w, Table.get? ns name = some w ∧ v.same w = true) :
      sameMembers ms ns = true := by
    induction ms with
    | nil => simp [sameMembers]
    | cons m ms ih =>
      obtain ⟨name, v⟩ := m
      obtain ⟨w, hget, hsame⟩ := h name v List.mem_cons_self
      unfold sameMembers
      rw [hget, ih fun name v hmem => h name v (List.mem_cons_of_mem _ hmem)]
      simp [hsame]
  unfold same
  rw [hmembers ms h]
  simp [hlength]

theorem same_mapEntries {α : Type} {t : Table α} (hnodup : (Table.names t).Nodup)
    {f g : α → Value ρ} (h : ∀ name a, (name, a) ∈ t → (f a).same (g a) = true)
    : (Value.object (Table.mapEntries f t)).same (.object (Table.mapEntries g t)) = true := by
  apply same_object
  . simp [Table.mapEntries]
  . intro name v hmem
    obtain ⟨a, ha, rfl⟩ := Table.mem_mapEntries hmem
    refine ⟨g a, ?_, h name a ha⟩
    apply Table.get?_of_mem
    . rw [Table.names_mapEntries]
      exact hnodup
    . exact List.mem_map.mpr ⟨(name, a), ha, rfl⟩

end

theorem same_num (m n : Number Rat) : (Value.num m).same (.num n) = decide (m.rat = n.rat) := by
  unfold same
  exact Number.same_eq_rat m n

theorem toString_int_ne_empty (i : Int) : toString i ≠ "" := by
  cases i with
  | ofNat n => exact Nat.repr_ne_empty
  | negSucc n =>
    intro h
    exact absurd (String.append_eq_empty_iff.mp h).1 (by decide)

theorem spell_ne_empty (x : Rat) : Scalar.spell x ≠ "" := by
  unfold Scalar.spell instScalarRat
  dsimp only
  split
  . exact toString_int_ne_empty x.num
  . intro h
    exact Nat.repr_ne_empty (String.append_eq_empty_iff.mp h).2

theorem display_ne_empty {ρ : Type} [Scalar ρ] (hspell : ∀ x : ρ, Scalar.spell x ≠ "")
    {v : Value ρ} (h : v.isGiven = true) : v.display ≠ "" := by
  have hclosed {s close : String} (hclose : close ≠ "") : s ++ close ≠ "" := by
    intro h
    exact hclose (String.append_eq_empty_iff.mp h).2
  cases v with
  | null => cases h
  | num n =>
    cases n with
    | flag b =>
      change (if b then "True" else "False") ≠ ""
      cases b <;> decide
    | int i => exact toString_int_ne_empty i
    | real x => exact hspell x
  | text s => exact isGiven_text.mp h
  | list items => exact hclosed (by decide)
  | object members => exact hclosed (by decide)
  | target location scene => exact hclosed (by decide)
  | pointer location scene => exact hclosed (by decide)

end Value

end Storyworld
