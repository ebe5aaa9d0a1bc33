import Storyworld.Files.Pool
import Storyworld.Proofs.Act
import Storyworld.Proofs.Table

/-!
This module contains what a pool keeps: the first value that was read of a file is kept, whatever
becomes of the file and whatever default is given later, until it is let go.
-/

namespace Storyworld

variable {ρ : Type} [Scalar ρ] {files : Files} {p q : Path} {e : Fault}

theorem Files.json_of_key_error (h : Pool.key p = .error e) (default : Value ρ)
    : files.json p default = .error e := by
  unfold Pool.key at h
  unfold json
  cases hrefuse : p.refuse with
  | error e' =>
    rw [hrefuse] at h
    cases h
    rfl
  | ok _ =>
    rw [hrefuse] at h
    cases h

/-- Where there are no files, every path that can be looked up gives the default. -/
theorem Files.json_empty (hrefuse : p.refuse.isOk = true)
    (hlength : (({} : Files).checkLength p.resolve p.resolve.fullSize).isOk = true) (v : Value ρ)
    : ({} : Files).json p v = .ok v := by
  unfold json
  rw [Fault.eq_ok_getD hrefuse (), Fault.eq_ok_getD hlength ()]
  rfl

namespace Pool

omit [Scalar ρ]

/-- The value that is kept of a file. -/
def kept? (pool : Pool ρ) (p : Path) : Option (Value ρ) :=
  (key p).toOption.bind (Table.get? pool.entries)

theorem kept?_of_key {pool : Pool ρ} {k : String} (h : key p = .ok k)
    : pool.kept? p = Table.get? pool.entries k := by
  unfold kept?
  rw [h]
  rfl

theorem kept?_of_key_error {pool : Pool ρ} (h : key p = .error e) : pool.kept? p = none := by
  unfold kept?
  rw [h]
  rfl

theorem kept?_congr (pool : Pool ρ) (h : key p = key q) : pool.kept? p = pool.kept? q := by
  unfold kept?
  rw [h]

theorem kept?_empty (p : Path) : ({} : Pool ρ).kept? p = none := by
  cases hkey : key p with
  | error e => exact kept?_of_key_error hkey
  | ok k => exact kept?_of_key hkey

variable [Scalar ρ]

theorem run_read (files : Files) (p : Path) (default : Value ρ) (pool : Pool ρ)
    : (∃ v, pool.kept? p = some v ∧ (read files p default).run pool = (.ok v, pool))
      ∨ (∃ e, files.json p default = .error e ∧ pool.kept? p = none
        ∧ (read files p default).run pool = (.error e, pool))
      ∨ ∃ k v, key p = .ok k ∧ files.json p default = .ok v ∧ pool.kept? p = none
        ∧ (read files p default).run pool = (.ok v, ⟨Table.set pool.entries k v⟩) := by
  unfold read
  rw [Act.run_bind, Act.run_lift]
  cases hkey : key p with
  | error e =>
    have hjson : files.json p default = .error e := Files.json_of_key_error hkey default
    exact .inr (.inl ⟨e, hjson, kept?_of_key_error hkey, rfl⟩)
  | ok k =>
    rw [kept?_of_key hkey]
    dsimp only
    rw [Act.run_bind, Act.run_get]
    dsimp only
    cases hget : Table.get? pool.entries k with
    | some v => exact .inl ⟨v, rfl, rfl⟩
    | none =>
      right
      rw [Act.run_bind, Act.run_lift]
      cases hjson : files.json p default with
      | error e => exact .inl ⟨e, rfl, rfl, rfl⟩
      | ok v => exact .inr ⟨k, v, rfl, rfl, rfl, rfl⟩

/-- A file is read where nothing is kept of it. -/
theorem read_eq (default : Value ρ) (pool : Pool ρ)
    : ((read files p default).run pool).1
      = match pool.kept? p with
        | some v => .ok v
        | none => files.json p default := by
  rcases run_read files p default pool with
    ⟨v, hkept, hrun⟩ | ⟨e, hjson, hkept, hrun⟩ | ⟨k, v, _, hjson, hkept, hrun⟩
  . rw [hrun, hkept]
  . rw [hrun, hkept, hjson]
  . rw [hrun, hkept, hjson]

theorem kept?_read (default : Value ρ) (pool : Pool ρ) (hkey : key p = key q)
    : ((read files q default).run pool).2.kept? p
      = (pool.kept? p).or (files.json q default).toOption := by
  rw [kept?_congr _ hkey, kept?_congr pool hkey]
  rcases run_read files q default pool with
    ⟨v, hkept, hrun⟩ | ⟨e, hjson, hkept, hrun⟩ | ⟨k, v, hk, hjson, hkept, hrun⟩
  . rw [hrun, hkept]
    rfl
  . rw [hrun, hkept, hjson]
    rfl
  . rw [hrun, hkept, hjson, kept?_of_key hk]
    exact Table.get?_set_self _ _ _

theorem kept?_read_of_ne (default : Value ρ) (pool : Pool ρ) (hkey : key p ≠ key q)
    : ((read files q default).run pool).2.kept? p = pool.kept? p := by
  rcases run_read files q default pool with
    ⟨v, _, hrun⟩ | ⟨e, _, _, hrun⟩ | ⟨k, v, hk, _, _, hrun⟩
  . rw [hrun]
  . rw [hrun]
  . rw [hrun]
    cases hp : key p with
    | error e => rw [kept?_of_key_error hp, kept?_of_key_error hp]
    | ok other =>
      rw [kept?_of_key hp, kept?_of_key hp]
      apply Table.get?_set_of_ne
      rintro rfl
      exact hkey (hp.trans hk.symm)

omit [Scalar ρ] in
theorem kept?_invalidate (pool : Pool ρ) (hkey : key p = key q)
    : ((invalidate q).run pool).2.kept? p = none := by
  unfold invalidate
  rw [Act.run_bind, Act.run_lift]
  cases hq : key q with
  | error e => exact kept?_of_key_error (hkey.trans hq)
  | ok k =>
    rw [kept?_of_key (hkey.trans hq)]
    exact (Table.get?_erase _ _ _).trans (if_pos rfl)

omit [Scalar ρ] in
theorem kept?_invalidate_of_ne (pool : Pool ρ) (hkey : key p ≠ key q)
    : ((invalidate q).run pool).2.kept? p = pool.kept? p := by
  unfold invalidate
  rw [Act.run_bind, Act.run_lift]
  cases hq : key q with
  | error e => rfl
  | ok k =>
    cases hp : key p with
    | error e => rw [kept?_of_key_error hp, kept?_of_key_error hp]
    | ok other =>
      rw [kept?_of_key hp, kept?_of_key hp]
      refine (Table.get?_erase _ _ _).trans (if_neg ?_)
      rintro rfl
      exact hkey (hp.trans hq.symm)

end Pool

end Storyworld
