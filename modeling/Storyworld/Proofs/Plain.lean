import Storyworld.Effect
import Storyworld.Proofs.Value

/-!
This module contains plain values: values of JSON that are not nested too deep. All texts and all
effects that are read from a plain value can be read; whether a number can be, is another matter.
-/

namespace Storyworld

namespace Value

variable {ρ : Type}

mutual

/-- Whether a value is one of JSON that is nested at most so deep. -/
def isPlain (depth : Nat) : Value ρ → Bool
  | .null => true
  | .num _ => true
  | .text _ => true
  | .list xs => Nat.blt 0 depth && allPlain (depth - 1) xs
  | .object ms => Nat.blt 0 depth && membersPlain (depth - 1) ms
  | .target .. => false
  | .pointer .. => false

def allPlain (depth : Nat) : List (Value ρ) → Bool
  | [] => true
  | x :: xs => isPlain depth x && allPlain depth xs

def membersPlain (depth : Nat) : List (String × Value ρ) → Bool
  | [] => true
  | (_, v) :: ms => isPlain depth v && membersPlain depth ms

end

/-- The nesting that content may have: an effect that is nested so deep can just be read. -/
def plainDepth : Nat := 329

def Plain (v : Value ρ) : Prop := v.isPlain plainDepth = true

/-- What carries over from the parts of plain values to the whole. -/
structure Hereditary (motive : Nat → Value ρ → Prop) : Prop where
  null : ∀ d, motive d .null
  num : ∀ d n, motive d (.num n)
  text : ∀ d s, motive d (.text s)
  list : ∀ d xs, (∀ x ∈ xs, x.isPlain d = true ∧ motive d x) → motive (d + 1) (.list xs)
  object : ∀ d ms, (∀ m ∈ ms, m.2.isPlain d = true ∧ motive d m.2) → motive (d + 1) (.object ms)

namespace Hereditary

variable {motive : Nat → Value ρ → Prop}

mutual

theorem of_isPlain (h : Hereditary motive)
    : ∀ (v : Value ρ) (d : Nat), v.isPlain d = true → motive d v
  | .null, d, _ => h.null d
  | .num n, d, _ => h.num d n
  | .text s, d, _ => h.text d s
  | .list xs, d, hv => by
    unfold isPlain at hv
    rw [Bool.and_eq_true, Nat.blt_eq] at hv
    obtain ⟨d, rfl⟩ := Nat.exists_eq_succ_of_ne_zero hv.1.ne'
    exact h.list d xs (h.of_allPlain xs d hv.2)
  | .object ms, d, hv => by
    unfold isPlain at hv
    rw [Bool.and_eq_true, Nat.blt_eq] at hv
    obtain ⟨d, rfl⟩ := Nat.exists_eq_succ_of_ne_zero hv.1.ne'
    exact h.object d ms (h.of_membersPlain ms d hv.2)
  | .target .., d, hv => by cases hv
  | .pointer .., d, hv => by cases hv

theorem of_allPlain (h : Hereditary motive)
    : ∀ (xs : List (Value ρ)) (d : Nat), allPlain d xs = true →
      ∀ x ∈ xs, x.isPlain d = true ∧ motive d x
  | [], d, _ => by simp
  | x :: xs, d, hxs => by
    unfold allPlain at hxs
    rw [Bool.and_eq_true] at hxs
    rw [List.forall_mem_cons]
    exact ⟨⟨hxs.1, h.of_isPlain x d hxs.1⟩, h.of_allPlain xs d hxs.2⟩

theorem of_membersPlain (h : Hereditary motive)
    : ∀ (ms : List (String × Value ρ)) (d : Nat), membersPlain d ms = true →
      ∀ m ∈ ms, m.2.isPlain d = true ∧ motive d m.2
  | [], d, _ => by simp
  | (name, v) :: ms, d, hms => by
    unfold membersPlain at hms
    rw [Bool.and_eq_true] at hms
    rw [List.forall_mem_cons]
    exact ⟨⟨hms.1, h.of_isPlain v d hms.1⟩, h.of_membersPlain ms d hms.2⟩

end

end Hereditary

theorem allPlain_iff {depth : Nat} {xs : List (Value ρ)}
    : allPlain depth xs = true ↔ ∀ x ∈ xs, x.isPlain depth = true := by
  induction xs with
  | nil => simp [allPlain]
  | cons x xs ih => simp [allPlain, ih]

theorem membersPlain_iff {depth : Nat} {ms : List (String × Value ρ)}
    : membersPlain depth ms = true ↔ ∀ m ∈ ms, m.2.isPlain depth = true := by
  induction ms with
  | nil => simp [membersPlain]
  | cons m ms ih => simp [membersPlain, ih]

theorem isPlain_mono {d d' : Nat} (h : d ≤ d') {v : Value ρ} (hv : v.isPlain d = true)
    : v.isPlain d' = true := by
  have hmono : Hereditary fun d (v : Value ρ) => ∀ d', d ≤ d' → v.isPlain d' = true := by
    constructor
    case null => exact fun _ _ _ => rfl
    case num => exact fun _ _ _ _ => rfl
    case text => exact fun _ _ _ _ => rfl
    case list =>
      intro d xs hxs d' h
      unfold isPlain
      rw [Bool.and_eq_true, Nat.blt_eq, allPlain_iff]
      exact ⟨by omega, fun x hx => (hxs x hx).2 _ (by omega)⟩
    case object =>
      intro d ms hms d' h
      unfold isPlain
      rw [Bool.and_eq_true, Nat.blt_eq, membersPlain_iff]
      exact ⟨by omega, fun m hm => (hms m hm).2 _ (by omega)⟩
  exact hmono.of_isPlain v d hv d' h

theorem isPlain_of_mem {d : Nat} {xs : List (Value ρ)} (h : (Value.list xs).isPlain d = true)
    {x : Value ρ} (hx : x ∈ xs) : x.isPlain d = true := by
  unfold isPlain at h
  rw [Bool.and_eq_true, allPlain_iff] at h
  exact isPlain_mono (Nat.sub_le _ _) (h.2 x hx)

theorem isPlain_of_mem_listD {d : Nat} {v : Value ρ} (h : v.isPlain d = true) {x : Value ρ}
    (hx : x ∈ v.listD) : x.isPlain d = true := by
  cases v with
  | list xs => exact isPlain_of_mem h hx
  | _ => cases hx

theorem isPlain_of_member {d : Nat} {v : Value ρ} (h : v.isPlain d = true) {m : String × Value ρ}
    (hm : m ∈ v.recordD) : m.2.isPlain d = true := by
  cases v with
  | object ms =>
    unfold isPlain at h
    rw [Bool.and_eq_true, membersPlain_iff] at h
    exact isPlain_mono (Nat.sub_le _ _) (h.2 m hm)
  | _ => cases hm

theorem isPlain_field {d : Nat} {r : Record ρ} (h : ∀ m ∈ r, m.2.isPlain d = true) (name : String)
    : (Record.field r name).isPlain d = true := by
  unfold Record.field
  cases hget : Table.get? r name with
  | none => rfl
  | some v => exact h _ (Table.mem_of_get? hget)

theorem isPlain_orElse [Scalar ρ] {d : Nat} {v w : Value ρ} (hv : v.isPlain d = true)
    (hw : w.isPlain d = true) : (v.orElse w).isPlain d = true := by
  unfold orElse
  split
  . exact hv
  . exact hw

theorem isWithin_of_isPlain {d d' : Nat} (h : d ≤ d') {v : Value ρ} (hv : v.isPlain d = true)
    : v.isWithin d' = true := by
  have hall {d : Nat} {xs : List (Value ρ)} (h : ∀ x ∈ xs, x.isWithin d = true) :
      allWithin d xs = true := by
    induction xs with
    | nil => rfl
    | cons x xs ih => simp [allWithin, h x List.mem_cons_self,
      ih fun y hy => h y (List.mem_cons_of_mem x hy)]
  have hmembers {d : Nat} {ms : List (String × Value ρ)} (h : ∀ m ∈ ms, m.2.isWithin d = true) :
      membersWithin d ms = true := by
    induction ms with
    | nil => rfl
    | cons m ms ih => simp [membersWithin, h m List.mem_cons_self,
      ih fun y hy => h y (List.mem_cons_of_mem m hy)]
  have hwithin : Hereditary fun d (v : Value ρ) => v.isWithin d = true := by
    constructor
    case null => exact fun _ => rfl
    case num => exact fun _ _ => rfl
    case text => exact fun _ _ => rfl
    case list =>
      intro d xs hxs
      unfold isWithin
      rw [Bool.and_eq_true, Nat.blt_eq]
      exact ⟨by omega, hall fun x hx => (hxs x hx).2⟩
    case object =>
      intro d ms hms
      unfold isWithin
      rw [Bool.and_eq_true, Nat.blt_eq]
      exact ⟨by omega, hmembers fun m hm => (hms m hm).2⟩
  exact hwithin.of_isPlain v d' (isPlain_mono h hv)

/-! ### Readings -/

theorem checkDepth_of_isPlain {v : Value ρ} (h : v.isPlain textDepth = true)
    : v.checkDepth = .ok () := by
  unfold Value.checkDepth
  rw [if_pos (isWithin_of_isPlain le_rfl h)]

theorem text?_of_isPlain [Scalar ρ] {v : Value ρ} (h : v.isPlain textDepth = true)
    : v.text? = .ok v.display := by
  unfold Value.text?
  rw [checkDepth_of_isPlain h]
  rfl

namespace Plain

variable {v w : Value ρ}

theorem null : (.null : Value ρ).Plain := rfl

theorem text (s : String) : (.text s : Value ρ).Plain := rfl

theorem orNull (hv : v.Plain) (hw : w.Plain) : (v.orNull w).Plain := by
  unfold Value.orNull
  split
  . exact hw
  . exact hv

theorem of_mem_listD (h : v.Plain) {x : Value ρ} (hx : x ∈ v.listD) : x.Plain :=
  isPlain_of_mem_listD h hx

theorem isPlain (h : v.Plain) : v.isPlain textDepth = true := isPlain_mono (by decide) h

theorem checkDepth (h : v.Plain) : v.checkDepth = .ok () :=
  checkDepth_of_isPlain h.isPlain

variable [Scalar ρ]

theorem orElse (hv : v.Plain) (hw : w.Plain) : (v.orElse w).Plain := isPlain_orElse hv hw

theorem text? (h : v.Plain) : v.text? = .ok v.display :=
  text?_of_isPlain h.isPlain

theorem key? (h : v.Plain) : v.key? = .ok v.key := by
  unfold Value.key?
  rw [h.checkDepth]
  rfl

end Plain

theorem checkAll_eq_ok {vs : List (Value ρ)} (h : ∀ v ∈ vs, v.isPlain textDepth = true)
    : checkAll vs = .ok () := by
  induction vs with
  | nil => rfl
  | cons v vs ih =>
    rw [List.forall_mem_cons] at h
    unfold checkAll
    rw [checkDepth_of_isPlain h.1]
    exact ih h.2

variable [Scalar ρ]

theorem gives_text (s : String) : Fault.Gives (Value.text s : Value ρ).text? (· = s) :=
  ⟨s, text?_text s, rfl⟩

/-- Whether there is a scalar for the number that a value is; what is no number needs none. -/
def fitsScalar : Value ρ → Bool
  | .num n => n.toReal.isOk
  | _ => true

theorem fitsScalar_of_toReal {n : Number ρ} {x : ρ} (h : n.toReal = .ok x)
    : (Value.num n).fitsScalar = true := by
  change n.toReal.isOk = true
  rw [h]
  rfl

theorem real?_isOk_iff {v : Value ρ} : v.real?.isOk = true ↔ v.fitsScalar = true := by
  have hwhole (i : Int) : (unlessUnreadable (Number.toReal.ofInt i : Except Fault ρ)).isOk = true
      ↔ (Number.toReal.ofInt i : Except Fault ρ).isOk = true := by
    unfold Number.toReal.ofInt
    cases (Scalar.ofInt? i : Option ρ) <;> rfl
  cases v with
  | num n =>
    cases n with
    | flag b => exact hwhole _
    | int i => exact hwhole i
    | real x => exact Iff.rfl
  | text s =>
    refine iff_of_true ?_ rfl
    unfold Value.real?
    simp only [toReal]
    split <;> rfl
  | _ => exact Iff.rfl

theorem real?_of_fitsScalar {v : Value ρ} (h : v.fitsScalar = true) : ∃ x, v.real? = .ok x :=
  ⟨_, Fault.eq_ok_getD (real?_isOk_iff.mpr h) none⟩

theorem finite?_of_fitsScalar {v : Value ρ} (h : v.fitsScalar = true) : ∃ x, v.finite? = .ok x := by
  obtain ⟨x, hx⟩ := real?_of_fitsScalar h
  unfold Value.finite?
  rw [hx]
  exact ⟨_, rfl⟩

theorem fitsScalar_orNull {v w : Value ρ} (hv : v.fitsScalar = true) (hw : w.fitsScalar = true)
    : (v.orNull w).fitsScalar = true := by
  unfold Value.orNull
  split
  . exact hw
  . exact hv

end Value

namespace Record

variable {ρ : Type}

/-- A record all of whose fields are plain. -/
def Plain (r : Record ρ) : Prop := ∀ m ∈ r, m.2.Plain

/-- A record all of whose fields are nested less deep than texts can be. -/
def Shallow (r : Record ρ) : Prop := ∀ m ∈ r, m.2.isPlain Value.textDepth = true

variable {r : Record ρ}

theorem Plain.field (h : Plain r) (name : String) : (field r name).Plain :=
  Value.isPlain_field h name

theorem plain_nil : Plain ([] : Record ρ) := by
  intro m hm
  cases hm

theorem Plain.set (h : Plain r) (name : String) {v : Value ρ} (hv : v.Plain)
    : Plain (Table.set r name v) :=
  Table.forall_mem_set (P := Value.Plain) h hv

theorem Plain.shallow (h : Plain r) : Shallow r :=
  fun m hm => Value.isPlain_mono (by decide) (h m hm)

theorem Shallow.field (h : Shallow r) (name : String)
    : (field r name).isPlain Value.textDepth = true := Value.isPlain_field h name

theorem Shallow.set (h : Shallow r) (name : String) {v : Value ρ}
    (hv : v.isPlain Value.textDepth = true) : Shallow (Table.set r name v) :=
  Table.forall_mem_set (P := fun v : Value ρ => v.isPlain Value.textDepth = true) h hv

theorem shallow_nil : Shallow ([] : Record ρ) := by
  intro m hm
  cases hm

theorem shallow_recordD {v : Value ρ} (h : v.isPlain Value.textDepth = true) : Shallow v.recordD :=
  fun _ hm => Value.isPlain_of_member h hm

theorem plain_recordD {v : Value ρ} (h : v.Plain) : Plain v.recordD :=
  fun _ hm => Value.isPlain_of_member h hm

end Record

namespace Effect

variable {ρ : Type}

theorem allFit_iff {room : Nat} {xs : List (Value ρ)}
    : allFit room xs = true ↔ ∀ x ∈ xs, fits room x = true := by
  induction xs with
  | nil => simp [allFit]
  | cons x xs ih => simp [allFit, ih]

theorem memberFits_getD {room : Nat} {ms : Record ρ} (h : ∀ m ∈ ms, fits room m.2 = true)
    (name : String) {otherwise : Bool} (hotherwise : otherwise = true)
    : (memberFits room name ms).getD otherwise = true := by
  induction ms with
  | nil => exact hotherwise
  | cons m ms ih =>
    obtain ⟨k, v⟩ := m
    unfold memberFits
    split
    . split
      . exact hotherwise
      . exact h (k, v) List.mem_cons_self
    . exact ih fun m hm => h m (List.mem_cons_of_mem _ hm)

theorem textsFit_of_isWithin {r : Record ρ} (h : ∀ m ∈ r, m.2.isWithin Value.textDepth = true)
    : textsFit r = true := by
  unfold textsFit
  rw [List.all_eq_true]
  intro name _
  unfold Record.field
  cases hget : Table.get? r name with
  | none => rfl
  | some v => exact h _ (Table.mem_of_get? hget)

theorem fits_of_plain {v : Value ρ} (h : v.Plain) : fits roomLimit v = true := by
  have hfits : Value.Hereditary fun d (v : Value ρ) =>
      d ≤ Value.textDepth → ∀ room, 3 * d + 3 ≤ room → fits room v = true := by
    constructor
    case null => exact fun _ _ _ _ => rfl
    case num => exact fun _ _ _ _ _ => rfl
    case text =>
      intro d s _ room hroom
      unfold fits ownRoom
      rw [Nat.blt_eq]
      omega
    case list =>
      intro d xs hxs hd room hroom
      unfold fits listRoom
      rw [Bool.and_eq_true, Nat.blt_eq, allFit_iff]
      exact ⟨by omega, fun x hx => (hxs x hx).2 (by omega) _ (by omega)⟩
    case object =>
      intro d ms hms hd room hroom
      have hparts : ∀ m ∈ ms, fits (room - ownRoom) m.2 = true := by
        intro m hm
        exact (hms m hm).2 (by omega) _ (by unfold ownRoom; omega)
      have htexts : ∀ m ∈ ms, m.2.isWithin Value.textDepth = true := by
        intro m hm
        exact Value.isWithin_of_isPlain (by omega) (hms m hm).1
      have hplace : ∀ m ∈ (Record.field ms "go").recordD, m.2.isWithin Value.textDepth = true := by
        intro m hm
        have hgo := Value.isPlain_field (fun m hm => (hms m hm).1) "go"
        exact Value.isWithin_of_isPlain (by omega) (Value.isPlain_of_member hgo hm)
      unfold fits
      rw [Bool.and_eq_true, Nat.blt_eq]
      refine ⟨by unfold ownRoom; omega, memberFits_getD hparts _ (memberFits_getD hparts _ ?_)⟩
      rw [textsFit_of_isWithin htexts, textsFit_of_isWithin hplace]
      rfl
  exact hfits.of_isPlain v Value.plainDepth h (by decide) roomLimit (by decide)

theorem read_of_plain [Scalar ρ] {v : Value ρ} (h : v.Plain) : read v = .ok (ofValue v) := by
  unfold read
  rw [if_pos (fits_of_plain h)]

end Effect

end Storyworld
