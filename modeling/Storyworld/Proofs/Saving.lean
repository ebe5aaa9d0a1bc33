import Storyworld.Proofs.Files
import Storyworld.Proofs.Loading
import Storyworld.Proofs.Written

/-!
This module contains what a save in a file leaves behind: the new snapshot where it succeeds, and where
anything breaks down the earlier save, unless the save is its own draft or comes in sight only through
the folders that are made.
-/

namespace Storyworld

/-! ### Paths and drafts -/

/-- Two dots never lead one name further. -/
theorem Path.length_step_up (here : Path) : (step here "..").length ≠ here.length + 1 := by
  unfold step
  rw [if_neg (by decide), if_pos rfl]
  split
  next hempty => simp [List.isEmpty_iff.mp hempty, outside]
  next =>
    split
    . omega
    . rw [List.length_dropLast]
      omega

namespace Files

variable {files files' : Files} {p : Path} {bytes : ByteArray}

theorem isFolder_outside {r : Path} (h : r <+: Path.outside) : files.isFolder r = true :=
  isFolder_iff.mpr (.inl h)

theorem isFolder_step {here : Path} (h : files.isFolder here = true) (name : String)
    : files.isFolder (Path.step here name).dropLast = true := by
  unfold Path.step
  split
  . exact isFolder_outside (by decide)
  . split
    . split
      . exact isFolder_outside (by decide)
      . split
        . exact isFolder_of_prefix (List.dropLast_prefix here) h
        . exact isFolder_of_prefix ((List.dropLast_prefix _).trans (List.dropLast_prefix here)) h
    . rwa [List.dropLast_concat]

/-- What is written to a path is there; nothing else changes. -/
structure Written (files : Files) (p : Path) (bytes : ByteArray) (files' : Files) : Prop where
  folders : ∀ r, files'.isFolder r = files.isFolder r
  there : files'.read? p = some bytes
  others : ∀ r, r ≠ p.resolve → files'.bytes? r = files.bytes? r

theorem written_of_write? (h : files.write? p bytes = some files') : Written files p bytes files' := by
  obtain ⟨place, hplace, h⟩ := Option.bind_eq_some_iff.mp h
  split at h
  next => cases h
  next hfile =>
    rw [Bool.not_eq_true] at hfile
    obtain rfl := Option.some.inj h
    have hparent : files.isFolder place.dropLast = true := by
      induction p using List.reverseRecOn with
      | nil =>
        obtain rfl := Option.some.inj hplace
        exact isFolder_outside (by decide)
      | append_singleton dir name _ =>
        rw [locate?_append] at hplace
        obtain ⟨here, _, halong⟩ := Option.bind_eq_some_iff.mp hplace
        obtain ⟨hhere, rfl⟩ := along?_eq_some.mp halong
        exact isFolder_step hhere name
    have hfolders : ∀ r, (files.put place (.file bytes)).isFolder r = files.isFolder r :=
      isFolder_put_file hfile hparent
    refine ⟨hfolders, ?_, fun r hr => ?_⟩
    . unfold read?
      rw [locate?_congr hfolders, hplace]
      exact bytes?_put_self bytes
    . rw [← eq_resolve_of_locate? hplace] at hr
      exact bytes?_put_of_ne _ hr

theorem move?_eq_some {source target : Path}
    : files.move? source target = some files' ↔
      ∃ place bytes, files.locate? source = some place ∧ files.bytes? place = some bytes
        ∧ (files.remove place).write? target bytes = some files' := by
  unfold move?
  simp only [Option.bind_eq_bind, Option.bind_eq_some_iff]
  constructor
  . rintro ⟨place, hplace, bytes, hbytes, hwrite⟩
    exact ⟨place, bytes, hplace, hbytes, hwrite⟩
  . rintro ⟨place, bytes, hplace, hbytes, hwrite⟩
    exact ⟨place, hplace, bytes, hbytes, hwrite⟩

theorem read?_congr (hfolders : ∀ r, files'.isFolder r = files.isFolder r)
    (hbytes : files'.bytes? p.resolve = files.bytes? p.resolve) : files'.read? p = files.read? p := by
  unfold read?
  rw [locate?_congr hfolders]
  cases hplace : files.locate? p with
  | none => rfl
  | some place =>
    rw [← eq_resolve_of_locate? hplace] at hbytes
    exact hbytes

theorem read?_eq_none (h : files.bytes? p.resolve = none) : files.read? p = none := by
  unfold read?
  cases hplace : files.locate? p with
  | none => rfl
  | some place =>
    rw [← eq_resolve_of_locate? hplace] at h
    exact h

theorem meetsLongName_congr (h : ∀ r, files'.isFolder r = files.isFolder r)
    : files'.meetsLongName p = files.meetsLongName p := by
  rw [Bool.eq_iff_iff, ← not_iff_not, Bool.not_eq_true, Bool.not_eq_true]
  constructor
  . exact meetsLongName_mono fun r hr => (h r).trans hr
  . exact meetsLongName_mono fun r hr => (h r).symm.trans hr

end Files

namespace SaveFile

variable {ρ : Type} [Scalar ρ] {files files' : Files} {p draft : Path}

theorem down_draft (name : String) : Path.Down (Path.stem name ++ ending) := by
  have hlast : (Path.stem name ++ ending).toList.getLast? = some 'p' := by simp [ending]
  have hne {s : String} (hs : s.toList.getLast? ≠ some 'p') : Path.stem name ++ ending ≠ s := by
    rintro rfl
    exact hs hlast
  have htops : Path.stem name ++ ending ∉ Path.tops := by
    simp only [Path.tops, List.mem_cons, List.not_mem_nil, or_false, not_or]
    exact ⟨hne (by decide), hne (by decide)⟩
  exact ⟨by simpa using htops, hne (by decide)⟩

theorem resolve_draft_ne (hdraft : p.withEnding? ending = some draft) (hne : draft ≠ p)
    : draft.resolve ≠ p.resolve := by
  unfold Path.withEnding? at hdraft
  split at hdraft
  next => cases hdraft
  next name hlast =>
    split at hdraft
    next => cases hdraft
    next htop =>
      obtain rfl := Option.some.inj hdraft
      rw [Bool.not_eq_true] at htop
      have hp : p.dropLast ++ [name] = p := List.dropLast_append_getLast? name hlast
      have hname : Path.stem name ++ ending ≠ name := by
        intro hsame
        exact hne (by rw [hsame, hp])
      rw [← hp, List.dropLast_concat, Path.resolve_concat, Path.resolve_concat,
        Path.step_of_down (down_draft name)]
      generalize Path.resolve p.dropLast = here
      intro hsame
      -- a path that ends in two dots leads up, its draft does not
      by_cases hdots : name = ".."
      . subst hdots
        exact Path.length_step_up here (by rw [← hsame, List.length_append, List.length_singleton])
      . rw [Path.step_of_down ⟨htop, hdots⟩] at hsame
        exact hname (List.cons.inj (List.append_cancel_left hsame)).1

variable (ρ) in
theorem load_congr (hfolders : ∀ r, files'.isFolder r = files.isFolder r)
    (hbytes : files'.bytes? p.resolve = files.bytes? p.resolve)
    : (load files' p : Except Fault (Option (Snapshot ρ))) = load files p := by
  have hread := Files.read?_congr hfolders hbytes
  have hthere : isThere files' p = isThere files p := by
    unfold isThere Files.checkLength Files.has Files.hasFolder
    rw [hread, Files.locate?_congr hfolders, Files.meetsLongName_congr hfolders, funext hfolders]
  unfold load
  rw [hthere, hread]

/-- Of a path without long names that leads to no file nothing is loaded, whatever folders there are. -/
theorem load_absent (hbytes : files.bytes? p.resolve = none)
    (hbytes' : files'.bytes? p.resolve = none) (hshort : ∀ name ∈ p, Path.isLongName name = false)
    : (load files' p : Except Fault (Option (Snapshot ρ))) = load files p := by
  have hload {files : Files} (hbytes : files.bytes? p.resolve = none)
      : (load files p : Except Fault (Option (Snapshot ρ)))
        = if p.refuse.isOk && Nat.ble Path.textLimit p.size then .error (.pathTooLong p.toText)
          else .ok none := by
    have hread := Files.read?_eq_none hbytes
    have hlong : files.meetsLongName p = false := Files.meetsLongName_of_short hshort
    unfold load isThere Files.checkLength
    rw [hread, hlong, Bool.or_false]
    cases p.refuse with
    | error e => rfl
    | ok _ =>
      rw [Fault.isOk_ok, Bool.true_and]
      dsimp only
      split
      . rfl
      . cases files.has p <;> rfl
  rw [hload hbytes, hload hbytes']

/-- The save is not its own draft; and its folder is there, or there is nothing to lose. -/
def Guarded (files : Files) (p : Path) : Prop :=
  p.withEnding? ending ≠ some p ∧ (files.hasFolder p.dropLast = true
    ∨ files.bytes? p.resolve = none ∧ ∀ name ∈ p, Path.isLongName name = false)

theorem load_makeFolders (h : Guarded files p) (n : Nat)
    : (load (files.makeFolders (p.dropLast.take n)).1 p : Except Fault (Option (Snapshot ρ)))
      = load files p := by
  rcases h.2 with hfolder | ⟨hnone, hshort⟩
  . rw [Files.makeFolders_of_hasFolder hfolder]
  . exact load_absent hnone ((Files.bytes?_makeFolders _ _ _).trans hnone) hshort

theorem run_makeFolders (breakdown : Breakdown) (dir : Path) (files : Files)
    : (∃ n, ((makeFolders breakdown dir).run files).2 = (files.makeFolders (dir.take n)).1)
      ∧ (((makeFolders breakdown dir).run files).1 = .ok true → breakdown.folders = none)
      ∧ ∀ e, ((makeFolders breakdown dir).run files).1 = .error e →
        e = .tooDeep "" ∧ folderLimit < files.missing dir := by
  have hstay : files = (files.makeFolders (dir.take 0)).1 := rfl
  unfold makeFolders
  rw [Act.run_of]
  split
  next => exact ⟨⟨0, hstay⟩, by simp, by simp⟩
  next =>
    split
    next hmissing =>
      refine ⟨⟨0, hstay⟩, by simp, fun e he => ?_⟩
      cases he
      exact ⟨rfl, Nat.blt_eq.mp hmissing⟩
    next =>
      cases breakdown.folders with
      | some n => exact ⟨⟨n, rfl⟩, by simp, by simp⟩
      | none => exact ⟨⟨dir.length, by rw [List.take_length]⟩, by simp, by simp⟩

theorem run_write (breakdown : Breakdown) (draft : Path) (text : String) (files : Files)
    : (write breakdown draft text).run files = (.ok false, files)
      ∨ ∃ written bytes files', files.write? draft bytes = some files'
        ∧ (write breakdown draft text).run files = (.ok written, files')
        ∧ (written = true → breakdown.opening = false ∧ breakdown.write = none
          ∧ Text.hasHalf text = false ∧ bytes = Text.toBytes text) := by
  unfold write
  rw [Act.run_of]
  dsimp only
  split
  next opened _ hopened =>
    split
    next => exact .inl rfl
    next hopening =>
      refine .inr ⟨_, _, opened, hopened, rfl, fun hwritten => ?_⟩
      rw [Bool.and_eq_true, Option.isNone_iff_eq_none] at hwritten
      obtain ⟨hwrite, hsome⟩ := hwritten
      have hhalf : Text.hasHalf text = false := by
        unfold bytesOf? at hsome
        split at hsome
        next => cases hsome
        next h => exact Bool.eq_false_iff.mpr h
      refine ⟨Bool.eq_false_iff.mpr hopening, hwrite, hhalf, ?_⟩
      rw [hwrite, bytesOf?, hhalf]
      rfl
  next => exact .inl rfl

theorem run_move (breakdown : Breakdown) (source target : Path) (files : Files)
    : (move breakdown source target).run files = (.ok false, files)
      ∨ ∃ files', breakdown.move = false ∧ check files target = .ok ()
        ∧ files.move? source target = some files'
        ∧ (move breakdown source target).run files = (.ok true, files') := by
  unfold move
  rw [Act.run_of]
  split
  next moved hcheck hmove =>
    cases hbreak : breakdown.move with
    | true => exact .inl rfl
    | false => exact .inr ⟨moved, rfl, hcheck, hmove, rfl⟩
  next => exact .inl rfl

/-- A draft that is moved into place is what the path leads to. -/
theorem read?_moved {opened moved : Files} {bytes : ByteArray}
    (hopened : files.write? draft bytes = some opened) (hcheck : check opened p = .ok ())
    (hmoved : opened.move? draft p = some moved)
    : check moved p = .ok () ∧ moved.read? p = some bytes := by
  have hdraft := Files.written_of_write? hopened
  obtain ⟨place, held, hplace, hheld, hput⟩ := Files.move?_eq_some.mp hmoved
  have hp := Files.written_of_write? hput
  have hsame : held = bytes := by
    have hthere := hdraft.there
    unfold Files.read? at hthere
    rw [hplace] at hthere
    exact Option.some.inj (hheld.symm.trans hthere)
  refine ⟨?_, hsame ▸ hp.there⟩
  obtain ⟨_, hrefuse, hlength⟩ := Fault.bind_eq_ok.mp hcheck
  unfold Files.checkLength at hlength
  split at hlength
  next => cases hlength
  next hshort =>
    rw [Bool.not_eq_true, Bool.or_eq_false_iff] at hshort
    -- the folders behind the move are folders before it, so no long name comes in sight
    have hlong : moved.meetsLongName p = false :=
      Files.meetsLongName_mono
        (fun r hr => Files.isFolder_of_remove hheld ((hp.folders r).symm.trans hr)) hshort.2
    unfold check Files.checkLength
    rw [hrefuse, hlong, hshort.1]
    rfl

/-- What a save writes is loaded again. -/
theorem load_textOf {s : Snapshot ρ} {payload : Value ρ} {text : String}
    (hpayload : s.toPayload = .ok payload) (hportable : Json.Portable payload)
    (htext : textOf s = .ok text) (hhalf : Text.hasHalf text = false)
    (hcheck : check files p = .ok ()) (hread : files.read? p = some (Text.toBytes text))
    : load files p = Snapshot.ofPayload payload := by
  unfold textOf at htext
  rw [hpayload] at htext
  obtain ⟨t, ht, hbytes⟩ := Text.exists_plain (Json.coded_write hportable htext) hhalf
  have hholds : Store.Holds (⟨files, {}⟩ : Disk) t (.file p) :=
    .file hcheck (hread.trans (congrArg some hbytes))
  refine (Store.load_of_holds hholds).trans ?_
  unfold Snapshot.ofText
  rw [ht, Json.read_write hportable htext]
  rfl

/-- A draft that is not moved is not seen. -/
theorem load_drafted {opened : Files} {bytes : ByteArray} (hdraft : p.withEnding? ending = some draft)
    (hne : draft ≠ p) (hopened : files.write? draft bytes = some opened)
    : (load opened p : Except Fault (Option (Snapshot ρ))) = load files p := by
  have hwritten := Files.written_of_write? hopened
  exact load_congr ρ hwritten.folders (hwritten.others _ (resolve_draft_ne hdraft hne).symm)

/-- How a snapshot that is to be replaced ends up. -/
structure Replaced (breakdown : Breakdown) (draft p : Path) (s : Snapshot ρ) (files : Files)
    (result : Except Fault Bool) (files' : Files) : Prop where
  saved : result = .ok true → breakdown.opening = false ∧ breakdown.write = none
    ∧ breakdown.move = false ∧ ∃ payload, s.toPayload = .ok payload
    ∧ (Json.Portable payload → load files' p = Snapshot.ofPayload payload)
  kept : result ≠ .ok true → p.withEnding? ending = some draft → draft ≠ p →
    (load files' p : Except Fault (Option (Snapshot ρ))) = load files p
  deep : ∀ e, result = .error e → ∃ place, e = .tooDeep place ∧ textOf s = .error (.tooDeep place)

theorem replaced_of_failed {breakdown : Breakdown} {s : Snapshot ρ}
    (hload : p.withEnding? ending = some draft → draft ≠ p →
      (load files' p : Except Fault (Option (Snapshot ρ))) = load files p)
    : Replaced breakdown draft p s files (.ok false) files' where
  saved h := by cases h
  kept _ := hload
  deep e he := by cases he

theorem run_replace (breakdown : Breakdown) (draft p : Path) (s : Snapshot ρ) (files : Files)
    : Replaced breakdown draft p s files ((replace breakdown draft p s).run files).1
        ((replace breakdown draft p s).run files).2 := by
  unfold replace
  split
  next place htext =>
    refine ⟨fun h => (by cases h), fun _ _ _ => rfl, fun e he => ?_⟩
    cases he
    exact ⟨place, rfl, htext⟩
  next => exact replaced_of_failed fun _ _ => rfl
  next text htext =>
    rw [Act.run_bind]
    rcases run_write breakdown draft text files with
      hwrite | ⟨written, bytes, opened, hopened, hwrite, hfull⟩
    . rw [hwrite]
      exact replaced_of_failed fun _ _ => rfl
    . rw [hwrite]
      cases written with
      | false => exact replaced_of_failed fun hdraft hne => load_drafted hdraft hne hopened
      | true =>
        obtain ⟨hopening, hwhole, hhalf, rfl⟩ := hfull rfl
        dsimp only
        rw [if_pos rfl]
        rcases run_move breakdown draft p opened with
          hmove | ⟨target, hbreak, hcheck, hmoved, hmove⟩
        . rw [hmove]
          exact replaced_of_failed fun hdraft hne => load_drafted hdraft hne hopened
        . rw [hmove]
          obtain ⟨hcheck, hread⟩ := read?_moved hopened hcheck hmoved
          obtain ⟨payload, hpayload, _⟩ := Fault.bind_eq_ok.mp htext
          refine ⟨fun _ => ⟨hopening, hwhole, hbreak, payload, hpayload, fun hportable => ?_⟩,
            fun h => absurd rfl h, fun e he => (by cases he)⟩
          exact load_textOf hpayload hportable htext hhalf hcheck hread

/-- A save that succeeds is loaded again, and nothing has broken down in it. One that does not succeed
leaves what was loaded before, if that is guarded; and it stops only where something is nested too
deep, the snapshot or the folders that are to be made. -/
theorem load_after_save (breakdown : Breakdown) (p : Path) (snapshot : Option (Snapshot ρ))
    (files : Files)
    : let result := ((save breakdown p snapshot).run files).1
      let files' := ((save breakdown p snapshot).run files).2
      (result = .ok true → breakdown = {} ∧ ∃ s payload, snapshot = some s
        ∧ s.toPayload = .ok payload
        ∧ (Json.Portable payload → load files' p = Snapshot.ofPayload payload))
      ∧ (result ≠ .ok true → Guarded files p →
        (load files' p : Except Fault (Option (Snapshot ρ))) = load files p)
      ∧ ∀ e, result = .error e → ∃ place, e = .tooDeep place
        ∧ (folderLimit < files.missing p.dropLast
          ∨ ∃ s, snapshot = some s ∧ textOf s = .error (.tooDeep place)) := by
  unfold save
  cases snapshot with
  | none => exact ⟨fun h => (by cases h), fun _ _ => rfl, fun e he => (by cases he)⟩
  | some s =>
    obtain ⟨⟨n, hmade⟩, hfolders, hdeep⟩ := run_makeFolders breakdown p.dropLast files
    have hkept (h : Guarded files p) : (load (files.makeFolders (p.dropLast.take n)).1 p
        : Except Fault (Option (Snapshot ρ))) = load files p := load_makeFolders h n
    rw [← hmade] at hkept
    dsimp only
    rw [Act.run_bind]
    rcases hrun : (makeFolders breakdown p.dropLast).run files with ⟨e | isThere, made⟩
      <;> rw [hrun] at hkept hfolders hdeep
    . refine ⟨fun h => (by cases h), fun _ => hkept, fun e' he' => ?_⟩
      cases he'
      obtain ⟨rfl, hmissing⟩ := hdeep e rfl
      exact ⟨"", rfl, .inl hmissing⟩
    . cases isThere with
      | false => exact ⟨fun h => (by cases h), fun _ => hkept, fun e he => (by cases he)⟩
      | true =>
        dsimp only
        rw [if_neg (by simp)]
        split
        next draft hdraft =>
          obtain ⟨hsaved, hsame, htext⟩ := run_replace breakdown draft p s made
          refine ⟨fun h => ?_, fun h hguarded => ?_, fun e he => ?_⟩
          . obtain ⟨hopening, hwrite, hmove, payload, hpayload, hload⟩ := hsaved h
            refine ⟨?_, s, payload, rfl, hpayload, hload⟩
            have hnone := hfolders rfl
            cases breakdown
            cases hnone
            cases hopening
            cases hwrite
            cases hmove
            rfl
          . have hne : draft ≠ p := by
              rintro rfl
              exact hguarded.1 hdraft
            exact (hsame h hdraft hne).trans (hkept hguarded)
          . obtain ⟨place, rfl, hplace⟩ := htext e he
            exact ⟨place, rfl, .inr ⟨s, rfl, hplace⟩⟩
        next => exact ⟨fun h => (by cases h), fun _ => hkept, fun e he => (by cases he)⟩

def innSnapshot : Snapshot Rat := { location := .text "inn" }

def innPayload : Value Rat :=
  .object [("version", .int 1), ("pointer", Snapshot.place (.text "inn") .null), ("history", .list []),
    ("traits", .object []), ("domainEvents", .list []), ("inventory", .object []), ("world", .object [])]

def innFiles : Files := ⟨[(["slot1.json"], .file "\x7b\x7d".toUTF8)]⟩

theorem portable_innPayload : Json.Portable innPayload := by
  have hplain {names : List String} (h : ∀ name ∈ names, Text.isPlain name.toList = true)
      : ∀ name ∈ names, Text.Coded name.toList := fun name hname => Text.coded_plain (h name hname)
  have hpointer : Json.Portable (Snapshot.place (.text "inn") .null : Value Rat) := by
    refine .object (by decide) (hplain (by decide)) ?_
    simp only [List.mem_cons, List.not_mem_nil, or_false, forall_eq_or_imp, forall_eq]
    exact ⟨.text (Text.coded_plain (by decide)), .null⟩
  have hlist : Json.Portable (.list [] : Value Rat) := .list (by simp)
  have hobject : Json.Portable (.object [] : Value Rat) :=
    .object (by decide) (hplain (by decide)) (by simp)
  refine .object (by decide) (hplain (by decide)) ?_
  simp only [List.mem_cons, List.not_mem_nil, or_false, forall_eq_or_imp, forall_eq]
  exact ⟨.int 1, hpointer, hlist, hobject, hlist, hobject, hobject⟩

theorem load_after_save_inn
    : ((save {} ["saves", "slot1.json"] (some innSnapshot)).run {}).1 = .ok true
      ∧ (∃ payload, innSnapshot.toPayload = .ok payload
        ∧ load ((save {} ["saves", "slot1.json"] (some innSnapshot)).run {}).2 ["saves", "slot1.json"]
          = Snapshot.ofPayload payload)
      ∧ ((save { write := some 3 } ["slot1.json"] (some innSnapshot)).run innFiles).1 ≠ .ok true
      ∧ Guarded innFiles ["slot1.json"]
      ∧ (load ((save { write := some 3 } ["slot1.json"] (some innSnapshot)).run innFiles).2
          ["slot1.json"] : Except Fault (Option (Snapshot Rat))) = load innFiles ["slot1.json"] := by
  have hsaved : ((save {} ["saves", "slot1.json"] (some innSnapshot)).run {}).1 = .ok true := by
    decide +kernel
  have hlost : ((save { write := some 3 } ["slot1.json"] (some innSnapshot)).run innFiles).1
      ≠ .ok true := by
    decide +kernel
  have hguarded : Guarded innFiles ["slot1.json"] := ⟨by decide, .inl (by decide)⟩
  refine ⟨hsaved, ?_, hlost, hguarded, (load_after_save _ _ _ _).2.1 hlost hguarded⟩
  obtain ⟨_, s, payload, hs, hpayload, hload⟩ := (load_after_save _ _ _ _).1 hsaved
  obtain rfl := Option.some.inj hs
  have hwritten : innSnapshot.toPayload = .ok innPayload := rfl
  obtain rfl := Except.ok.inj (hpayload.symm.trans hwritten)
  exact ⟨innPayload, hpayload, hload portable_innPayload⟩

end SaveFile

end Storyworld
