import Storyworld.Files
import Mathlib.Data.List.Induction

/-!
This module contains what becomes of a tree when an entry is put into it or taken out: which places are
folders then, what the files hold, and where a path leads.
-/

namespace Storyworld

namespace Path

theorem prefix_dropLast {r q : Path} (h : r <+: q) (hne : r ≠ q) : r <+: q.dropLast := by
  obtain ⟨rest, rfl⟩ := h
  have hrest : rest ≠ [] := by
    rintro rfl
    exact hne (List.append_nil r).symm
  rw [List.dropLast_append_of_ne_nil hrest]
  exact List.prefix_append r rest.dropLast

/-- A name that leads one folder down. -/
structure Down (name : String) : Prop where
  top : tops.contains name = false
  up : name ≠ ".."

theorem step_of_down {name : String} (h : Down name) (p : Path) : step p name = p ++ [name] := by
  unfold step
  rw [h.top, if_neg Bool.false_ne_true, if_neg h.up]

theorem resolve_concat (dir : Path) (name : String)
    : resolve (dir ++ [name]) = step (resolve dir) name := by
  unfold resolve
  rw [List.foldl_append]
  rfl

end Path

namespace Files

variable {files files' : Files} {p q r : Path}

/-! ### Entries -/

theorem mem_erase {f : Path × Entry}
    : f ∈ (files.erase p).entries ↔ f ∈ files.entries ∧ f.1 ≠ p := by
  simp [erase]

theorem mem_put {e : Entry} {f : Path × Entry}
    : f ∈ (files.put p e).entries ↔ f ∈ files.entries ∧ f.1 ≠ p ∨ f = (p, e) := by
  unfold put
  rw [List.mem_append, mem_erase, List.mem_singleton]

theorem get?_put_self (e : Entry) : (files.put p e).get? p = some e := by
  have hnone : (files.erase p).entries.find? (·.1 == p) = none := by
    refine List.find?_eq_none.mpr fun f hf => ?_
    simpa using (mem_erase.mp hf).2
  simp [get?, put, List.find?_append, hnone]

theorem get?_put_of_ne (e : Entry) (h : r ≠ p) : (files.put p e).get? r = files.get? r := by
  have hsame : (fun f : Path × Entry => decide ((f.1 != p) = true ∧ (f.1 == r) = true))
      = fun f => f.1 == r := by
    funext f
    by_cases hf : f.1 = r
    . simp [hf, h]
    . simp [hf]
  have hlast : [(p, e)].find? (·.1 == r) = none := by simp [Ne.symm h]
  unfold get? put erase
  rw [List.find?_append, List.find?_filter, hsame, hlast, Option.or_none]

theorem bytes?_put_self (bytes : ByteArray) : (files.put p (.file bytes)).bytes? p = some bytes := by
  unfold bytes?
  rw [get?_put_self]

theorem bytes?_put_of_ne (e : Entry) (h : r ≠ p) : (files.put p e).bytes? r = files.bytes? r := by
  unfold bytes?
  rw [get?_put_of_ne e h]

theorem mem_of_bytes? {bytes : ByteArray} (h : files.bytes? p = some bytes)
    : (p, .file bytes) ∈ files.entries := by
  unfold bytes? at h
  split at h
  next hget =>
    cases h
    obtain ⟨f, hf, hentry⟩ := Option.map_eq_some_iff.mp hget
    have hp : f.1 = p := by simpa using List.find?_some hf
    rw [← hp, ← hentry]
    exact List.mem_of_find?_eq_some hf
  next => cases h

/-! ### Folders -/

/-- An entry behind a place makes that a folder, and so does a folder at the place itself. -/
def Leads (r : Path) (f : Path × Entry) : Prop := r <+: f.1 ∧ (f.2 = .folder ∨ r ≠ f.1)

theorem isFolder_iff
    : files.isFolder r = true ↔ r <+: Path.outside ∨ ∃ f ∈ files.entries, Leads r f := by
  unfold isFolder Leads
  rw [Bool.or_eq_true, List.isPrefixOf_iff_prefix, List.any_eq_true]
  refine or_congr_right (exists_congr fun f => and_congr_right fun _ => ?_)
  obtain ⟨q, e⟩ := f
  cases e with
  | folder => simp
  | file bytes => simp

theorem isFolder_of_prefix (h : r <+: q) (hq : files.isFolder q = true)
    : files.isFolder r = true := by
  rw [isFolder_iff] at hq ⊢
  refine hq.imp h.trans fun ⟨f, hf, hbehind, hlead⟩ => ⟨f, hf, h.trans hbehind, ?_⟩
  refine hlead.imp_right fun hne => ?_
  rintro rfl
  exact hne (hbehind.eq_of_length_le h.length_le)

/-- A file that is put into a folder changes no folders. -/
theorem isFolder_put_file {bytes : ByteArray} (hplace : files.isFolder p = false)
    (hfolder : files.isFolder p.dropLast = true) (r : Path)
    : (files.put p (.file bytes)).isFolder r = files.isFolder r := by
  rw [Bool.eq_iff_iff]
  constructor
  . intro h
    rcases isFolder_iff.mp h with hout | ⟨f, hf, hlead⟩
    . exact isFolder_iff.mpr (.inl hout)
    . rcases mem_put.mp hf with ⟨hf, _⟩ | rfl
      . exact isFolder_iff.mpr (.inr ⟨f, hf, hlead⟩)
      . have hne : r ≠ p := hlead.2.resolve_left (by simp)
        exact isFolder_of_prefix (Path.prefix_dropLast hlead.1 hne) hfolder
  . intro h
    rcases isFolder_iff.mp h with hout | ⟨f, hf, hlead⟩
    . exact isFolder_iff.mpr (.inl hout)
    . by_cases hp : f.1 = p
      . have hne : r ≠ p := by
          rintro rfl
          rw [h] at hplace
          cases hplace
        exact isFolder_iff.mpr (.inr ⟨_, mem_put.mpr (.inr rfl), hp ▸ hlead.1, .inr hne⟩)
      . exact isFolder_iff.mpr (.inr ⟨f, mem_put.mpr (.inl ⟨hf, hp⟩), hlead⟩)

theorem isFolder_of_remove {bytes : ByteArray} (hp : files.bytes? p = some bytes)
    (h : (files.remove p).isFolder r = true) : files.isFolder r = true := by
  rcases isFolder_iff.mp h with hout | ⟨f, hf, hlead⟩
  . exact isFolder_iff.mpr (.inl hout)
  . rcases mem_put.mp hf with ⟨hf, _⟩ | rfl
    . exact isFolder_iff.mpr (.inr ⟨f, (mem_erase.mp hf).1, hlead⟩)
    -- the folder that stays was one before, as the file lay in it
    . have hbehind : r <+: p := hlead.1.trans (List.dropLast_prefix p)
      by_cases hr : r = p
      . have hnil : r = [] := by
          have hle := hlead.1.length_le
          rw [List.length_dropLast, hr] at hle
          exact hr.trans (List.length_eq_zero_iff.mp (by omega))
        exact isFolder_iff.mpr (.inl (hnil ▸ List.nil_prefix))
      . exact isFolder_iff.mpr (.inr ⟨_, mem_of_bytes? hp, hbehind, .inr hr⟩)

/-! ### Where a path leads -/

/-- Goes along one name from a folder on. -/
def along? (files : Files) (here : Path) (name : String) : Option Path :=
  if files.isFolder here then some (Path.step here name) else none

theorem locate?_eq (p : Path) : files.locate? p = p.foldlM files.along? [] := rfl

theorem along?_eq_some {here next : Path} {name : String}
    : files.along? here name = some next ↔ files.isFolder here = true ∧ Path.step here name = next := by
  unfold along?
  split
  next h => simp [h]
  next h => simp [h]

theorem locate?_congr (h : ∀ r, files'.isFolder r = files.isFolder r) (p : Path)
    : files'.locate? p = files.locate? p := by
  unfold locate?
  rw [funext h]

theorem locate?_append (dir : Path) (name : String)
    : files.locate? (dir ++ [name]) = (files.locate? dir).bind (files.along? · name) := by
  rw [locate?_eq, locate?_eq, List.foldlM_append]
  simp

theorem eq_resolve_of_locate? {place : Path} (h : files.locate? p = some place)
    : place = p.resolve := by
  induction p using List.reverseRecOn generalizing place with
  | nil => exact (Option.some.inj h).symm
  | append_singleton dir name ih =>
    rw [locate?_append] at h
    obtain ⟨here, hhere, h⟩ := Option.bind_eq_some_iff.mp h
    rw [Path.resolve_concat, ← ih hhere]
    exact (along?_eq_some.mp h).2.symm

theorem meetsLongName_mono (h : ∀ r, files'.isFolder r = true → files.isFolder r = true)
    (hlong : files.meetsLongName p = false) : files'.meetsLongName p = false := by
  suffices hgo : ∀ (here : Path), meetsLongName.go files here p = false →
      meetsLongName.go files' here p = false from hgo [] hlong
  clear hlong
  induction p with
  | nil => exact fun _ _ => rfl
  | cons name names ih =>
    intro here hgo
    unfold meetsLongName.go at hgo ⊢
    rw [Bool.and_eq_false_iff, Bool.or_eq_false_iff] at hgo ⊢
    rcases hgo with hfolder | ⟨hname, hnames⟩
    . refine .inl (Bool.eq_false_iff.mpr fun hfolder' => ?_)
      rw [h here hfolder'] at hfolder
      cases hfolder
    . exact .inr ⟨hname, ih _ hnames⟩

theorem meetsLongName_of_short (h : ∀ name ∈ p, Path.isLongName name = false)
    : files.meetsLongName p = false := by
  suffices hgo : ∀ here, meetsLongName.go files here p = false from hgo []
  induction p with
  | nil => exact fun _ => rfl
  | cons name names ih =>
    intro here
    unfold meetsLongName.go
    rw [h name List.mem_cons_self, ih fun n hn => h n (List.mem_cons_of_mem name hn)]
    exact Bool.and_false _

/-! ### Making folders -/

theorem bytes?_makeFolders (files : Files) (p r : Path)
    : (files.makeFolders p).1.bytes? r = files.bytes? r := by
  suffices hgo : ∀ files here, (makeFolders.go files here p).1.bytes? r = files.bytes? r from
    hgo files []
  induction p with
  | nil => exact fun _ _ => rfl
  | cons name names ih =>
    intro files here
    unfold makeFolders.go
    dsimp only
    split
    next => exact ih _ _
    next =>
      split
      next => rfl
      next htaken =>
        rw [ih]
        by_cases hr : r = Path.step here name
        . subst hr
          unfold bytes?
          rw [get?_put_self]
          cases hget : files.get? (Path.step here name) with
          | none => rfl
          | some e => simp [hget] at htaken
        . exact bytes?_put_of_ne _ hr

theorem isFolder_of_along? {here place : Path} (h : p.foldlM files.along? here = some place)
    (hplace : files.isFolder place = true) : files.isFolder here = true := by
  cases p with
  | nil =>
    obtain rfl := Option.some.inj h
    exact hplace
  | cons name names =>
    obtain ⟨next, hnext, _⟩ := Option.bind_eq_some_iff.mp h
    exact (along?_eq_some.mp hnext).1

/-- Where the folders of a path are there, none is made. -/
theorem makeFolders_of_hasFolder (h : files.hasFolder p = true) (n : Nat)
    : (files.makeFolders (p.take n)).1 = files := by
  obtain ⟨place, hway, hplace⟩ : ∃ place, p.foldlM files.along? [] = some place
      ∧ files.isFolder place = true := by
    unfold hasFolder at h
    cases hlocate : files.locate? p with
    | none =>
      rw [hlocate] at h
      cases h
    | some place =>
      rw [hlocate] at h
      exact ⟨place, hlocate, h⟩
  clear h
  unfold makeFolders
  generalize ([] : Path) = here at hway
  induction p generalizing here n with
  | nil => rw [List.take_nil, makeFolders.go]
  | cons name names ih =>
    cases n with
    | zero => rfl
    | succ n =>
      obtain ⟨next, hnext, hrest⟩ := Option.bind_eq_some_iff.mp hway
      obtain ⟨_, rfl⟩ := along?_eq_some.mp hnext
      rw [List.take_succ_cons, makeFolders.go, if_pos (isFolder_of_along? hrest hplace)]
      exact ih n _ hrest

end Files

end Storyworld
