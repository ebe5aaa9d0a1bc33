import Mathlib.Data.List.Infix
import Storyworld.Proofs.Tale

/-!
This module contains the reach of the ids in a story. Whatever an id says, the file that a source looks up
for it lies in the folder of that source, so what else there is in a tree of files cannot change an answer.
-/

namespace Storyworld

/-! ### Folders -/

/-- A path that leads to itself does so from its beginnings on. -/
theorem Path.resolve_of_prefix {p q : Path} (h : q <+: resolve p) : resolve q = q := by
  have htop : ∀ q ∈ List.inits [top], resolve q = q := by decide +kernel
  have houtside : ∀ q ∈ List.inits outside, resolve q = q := by decide +kernel
  induction p using List.reverseRecOn generalizing q with
  | nil =>
    obtain rfl := List.prefix_nil.mp h
    rfl
  | append_singleton dir name ih =>
    rw [resolve_concat] at h
    unfold step at h
    split at h
    next => exact htop q ((List.mem_inits _ _).mpr h)
    next hname =>
      split at h
      next =>
        split at h
        . exact houtside q ((List.mem_inits _ _).mpr h)
        . split at h
          . exact ih h
          . exact ih (h.trans (List.dropLast_prefix _))
      next hup =>
        rcases List.prefix_concat_iff.mp h with rfl | hq
        . rw [resolve_concat, ih List.prefix_rfl, step_of_down ⟨Bool.eq_false_iff.mpr hname, hup⟩]
        . exact ih hq

namespace Files

variable {files files' : Files} {folder base : Path} {names : List String}

/-- What lies in a folder is the same in two trees, and so is whether the folder is there. -/
structure Alike (files files' : Files) (folder : Path) : Prop where
  bytes?_eq : ∀ p, folder <+: p → files.bytes? p = files'.bytes? p
  isFolder_eq : ∀ p, folder <+: p → files.isFolder p = files'.isFolder p

/-- The folder is there, or could be: none of its names is longer than names can be. -/
def HasPlace (files : Files) (folder : Path) : Prop :=
  files.isFolder folder = true ∨ ∀ name ∈ folder, Path.isLongName name = false

/-- Two trees are alike in a folder where their entries behind it are the same. -/
theorem alike_of_filter
    (h : files.entries.filter (folder.isPrefixOf ·.1) = files'.entries.filter (folder.isPrefixOf ·.1))
    : files.Alike files' folder where
  bytes?_eq p hp := by
    have hget (files : Files) :
        files.get? p = ((files.entries.filter (folder.isPrefixOf ·.1)).find? (·.1 == p)).map Prod.snd := by
      unfold get?
      rw [List.find?_filter]
      congr 2
      funext e
      by_cases he : e.1 = p
      . simp [he, hp]
      . simp [he]
    unfold bytes?
    rw [hget files, hget files', h]
  isFolder_eq p hp := by
    have hmem (files : Files) : files.isFolder p = true
        ↔ p <+: Path.outside ∨ ∃ e ∈ files.entries.filter (folder.isPrefixOf ·.1), Leads p e := by
      rw [isFolder_iff]
      refine or_congr_right (exists_congr fun e => ?_)
      rw [List.mem_filter, and_assoc]
      refine and_congr_right fun _ => (and_iff_right_of_imp fun hlead => ?_).symm
      exact List.isPrefixOf_iff_prefix.mpr (hp.trans hlead.1)
    rw [Bool.eq_iff_iff, hmem files, hmem files', h]

/-! ### Long names -/

theorem Alike.go_meetsLongName (h : files.Alike files' folder) {here : Path} (hhere : folder <+: here)
    (hnames : ∀ name ∈ names, Path.Down name)
    : meetsLongName.go files here names = meetsLongName.go files' here names := by
  induction names generalizing here with
  | nil => rfl
  | cons name names ih =>
    obtain ⟨hname, hrest⟩ := List.forall_mem_cons.mp hnames
    unfold meetsLongName.go
    rw [h.isFolder_eq here hhere, Path.step_of_down hname,
      ih (hhere.trans (List.prefix_append here [name])) hrest]

/-- On the way to a folder that is there, all folders are. -/
theorem go_meetsLongName_of_isFolder {here left : Path} (hway : here ++ left = base.resolve)
    (h : files.isFolder base.resolve = true) (h' : files'.isFolder base.resolve = true)
    (hgo : meetsLongName.go files base.resolve names = meetsLongName.go files' base.resolve names)
    : meetsLongName.go files here (left ++ names) = meetsLongName.go files' here (left ++ names) := by
  induction left generalizing here with
  | nil =>
    rw [List.append_nil] at hway
    rwa [hway]
  | cons name left ih =>
    have hsplit : here ++ [name] ++ left = base.resolve := (List.append_cons here name left).symm.trans hway
    have hnext : Path.step here name = here ++ [name] := by
      have hprefix : here ++ [name] <+: base.resolve := ⟨left, hsplit⟩
      rw [← Path.resolve_of_prefix hprefix, Path.resolve_concat,
        Path.resolve_of_prefix ((List.prefix_append here [name]).trans hprefix)]
    have hhere : here <+: base.resolve := ⟨name :: left, hway⟩
    rw [List.cons_append]
    unfold meetsLongName.go
    rw [ isFolder_of_prefix hhere h, isFolder_of_prefix hhere h', hnext, ih hsplit]

/-- Where a folder is not there, no name in it is asked for. -/
theorem go_meetsLongName_of_not_isFolder {here left : Path}
    (h : files.isFolder (left.foldl Path.step here) = false)
    (hshort : ∀ name ∈ left, Path.isLongName name = false)
    : meetsLongName.go files here (left ++ names) = false := by
  induction left generalizing here with
  | nil =>
    cases names with
    | nil => rfl
    | cons name names =>
      have hhere : files.isFolder here = false := h
      rw [List.nil_append]
      unfold meetsLongName.go
      rw [hhere, Bool.false_and]
  | cons name left ih =>
    obtain ⟨hname, hrest⟩ := List.forall_mem_cons.mp hshort
    rw [List.cons_append]
    unfold meetsLongName.go
    rw [hname, ih h hrest, Bool.or_false, Bool.and_false]

theorem Alike.meetsLongName_eq (h : files.Alike files' base.resolve) (hplace : files.HasPlace base.resolve)
    (hnames : ∀ name ∈ names, Path.Down name)
    : files.meetsLongName (base.resolve ++ names) = files'.meetsLongName (base.resolve ++ names) := by
  have hfolder := h.isFolder_eq _ List.prefix_rfl
  have hself : base.resolve.foldl Path.step [] = base.resolve := Path.resolve_of_prefix List.prefix_rfl
  unfold meetsLongName
  cases hthere : files.isFolder base.resolve with
  | true =>
    exact go_meetsLongName_of_isFolder (List.nil_append _) hthere (hfolder ▸ hthere)
      (h.go_meetsLongName List.prefix_rfl hnames)
  | false =>
    have hshort : ∀ name ∈ base.resolve, Path.isLongName name = false :=
      hplace.resolve_left (by rw [hthere]; exact Bool.false_ne_true)
    rw [go_meetsLongName_of_not_isFolder (by rwa [hself]) hshort,
      go_meetsLongName_of_not_isFolder (by rwa [hself, ← hfolder]) hshort]

/-- A file in a folder holds the same in two trees that are alike there. -/
theorem Alike.json_eq {ρ : Type} [Scalar ρ] (h : files.Alike files' base.resolve)
    (hplace : files.HasPlace base.resolve) (hnames : ∀ name ∈ names, Path.Down name) (default : Value ρ)
    : files.json (base ++ names) default = files'.json (base ++ names) default := by
  unfold json checkLength
  rw [Path.resolve_append base hnames, h.meetsLongName_eq hplace hnames,
    h.bytes?_eq _ (List.prefix_append _ names)]

end Files

/-! ### Sources -/

open Content (Request)

/-- The folder in which a source looks things up. -/
def Source.folder (source : Source) (root : Path) : Path :=
  match source with
  | .items => Scenario.itemsIn root
  | _ => Scenario.locationsIn root

variable {ρ σ : Type} [Scalar ρ]

/-- Whatever is asked for, the file that tells lies in the folder of the source. -/
theorem Query.file?_eq_append {q : Query ρ} {p : Path} (h : q.file? = some p)
    : ∃ names, names ≠ [] ∧ (∀ name ∈ names, Path.Down name) ∧ p = q.source.folder q.root ++ names := by
  have hlocation {base : Path} {name : String} (hname : Path.Down name)
      (h : Scenario.locationFile? base q.id name = some p) :
      ∃ names, names ≠ [] ∧ (∀ name ∈ names, Path.Down name) ∧ p = base ++ names := by
    obtain ⟨rfl, hdown⟩ := Scenario.locationFile?_eq_some h
    exact ⟨[q.id.key, name], List.cons_ne_nil _ _, by simp [hdown, hname], rfl⟩
  obtain ⟨source, root, id⟩ := q
  unfold file? at h
  cases source with
  | locations => exact hlocation (.of_hasSlash (by decide +kernel) (by decide)) h
  | options => exact hlocation (.of_hasSlash (by decide +kernel) (by decide)) h
  | npcs => exact hlocation (.of_hasSlash (by decide +kernel) (by decide)) h
  | items =>
    obtain ⟨rfl, hdown⟩ := Scenario.itemFile?_eq_some h
    exact ⟨[id.key ++ ".json"], List.cons_ne_nil _ _, by simp [hdown], rfl⟩

omit [Scalar ρ] in
theorem Content.options_congr {content content' : Content ρ σ} {location : String}
    (h : ∀ id, content.option? location id = content'.option? location id) (ids : List String)
    : content.options location ids = content'.options location ids := by
  induction ids with
  | nil => rfl
  | cons id ids ih =>
    unfold options
    rw [h, ih]

section

variable {files files' : Files} {root : Path} {source : Source}

theorem Files.Alike.lookup_eq (h : files.Alike files' (source.folder root).resolve)
    (hplace : files.HasPlace (source.folder root).resolve) {α : Type} (tell : Value ρ → α) (id : Value ρ)
    : Query.lookup files.json tell ⟨source, root, id⟩
      = Query.lookup files'.json tell ⟨source, root, id⟩ := by
  unfold Query.lookup
  cases hfile : (⟨source, root, id⟩ : Query ρ).file? with
  | none => rfl
  | some p =>
    obtain ⟨names, _, hdown, rfl⟩ := Query.file?_eq_append hfile
    exact congrArg (· >>= _) (h.json_eq hplace hdown _)

/-- Sources that look all up in the files reply alike where the trees are alike in their folder. -/
theorem Files.Alike.reply_filed_eq (h : files.Alike files' (source.folder root).resolve)
    (hplace : files.HasPlace (source.folder root).resolve) {request : Request}
    (hsource : request.source? = some source)
    : (Scenario.filed files root : Content ρ σ).reply request
      = (Scenario.filed files' root : Content ρ σ).reply request := by
  have hlookup {α : Type} (tell : Value ρ → α) (id : Value ρ) := h.lookup_eq hplace tell id
  have hoptions (hs : source = .options) (id : String) :
      Scenario.optionsOf (ρ := ρ) files root id = Scenario.optionsOf files' root id := by
    subst hs
    unfold Scenario.optionsOf
    rw [Query.options_eq, Query.options_eq, hlookup]
  have hpeople (hs : source = .npcs) (id : String) :
      Scenario.peopleOf (ρ := ρ) files root id = Scenario.peopleOf files' root id := by
    subst hs
    unfold Scenario.peopleOf
    rw [Query.npcs_eq, Query.npcs_eq, hlookup]
  cases request with
  | location id =>
    obtain rfl := Option.some.inj hsource
    unfold Content.reply Scenario.filed Scenario.toldOf
    dsimp only
    rw [Query.location_eq, Query.location_eq, hlookup]
  | option location id =>
    unfold Content.reply Scenario.filed
    dsimp only
    rw [hoptions (Option.some.inj hsource).symm]
  | options location ids =>
    have hs : source = .options := by
      cases ids with
      | nil => cases hsource
      | cons => exact (Option.some.inj hsource).symm
    refine congrArg (Content.Reply.records <$> ·) (Content.options_congr (fun id => ?_) ids)
    unfold Scenario.filed
    dsimp only
    rw [hoptions hs]
  | npc location id =>
    unfold Content.reply Scenario.filed
    dsimp only
    rw [hpeople (Option.some.inj hsource).symm]
  | npcs location =>
    unfold Content.reply Scenario.filed
    dsimp only
    rw [hpeople (Option.some.inj hsource).symm]
  | optionsOf location npc =>
    unfold Content.reply Content.optionsOf Scenario.filed
    dsimp only
    rw [hpeople (Option.some.inj hsource).symm]
  | item id =>
    obtain rfl := Option.some.inj hsource
    unfold Content.reply Scenario.filed
    dsimp only
    rw [Query.item?_eq, Query.item?_eq, hlookup]

/-- Whatever an id says and whatever was asked before, what sources reply comes from the folder of the
source that is asked alone. -/
theorem Catalogue.reply_eq_of_alike (h : files.Alike files' (source.folder root).resolve)
    (hplace : files.HasPlace (source.folder root).resolve) {request : Request}
    (hsource : request.source? = some source) (before before' : List Request)
    : let content : Content ρ (Catalogue ρ) := Catalogue.content root
      ((content.reply request).run (content.asked before (Catalogue.ofFiles files))).1
        = ((content.reply request).run (content.asked before' (Catalogue.ofFiles files'))).1 := by
  intro content
  have hfiled (files : Files) (before : List Request) :
      ((content.reply request).run (content.asked before (Catalogue.ofFiles files))).1
        = (((Scenario.filed files root : Content ρ Unit).reply request).run
            ((Scenario.filed files root : Content ρ Unit).asked before ())).1 := by
    have hmirrors := Catalogue.mirrors_filed (ρ := ρ) (σ := Unit) files root
    exact (hmirrors.reply request _ () (hmirrors.asked before (t := ())
      (Catalogue.coherent_ofFiles files root))).1
  rw [hfiled, hfiled, h.reply_filed_eq hplace hsource]

end

/-- A file that lies beside the story is out of reach, for a path that would lead to it as well. -/
theorem Catalogue.reply_eq_of_alike_beside
    : let inn : Path × Entry :=
        (["scenario", "locations", "inn", "info.json"], .file "\x7b\"title\":\"Inn\"\x7d".toUTF8)
      let key : Path × Entry := (["secret", "info.json"], .file "\x7b\"title\":\"Key\"\x7d".toUTF8)
      let content : Content Rat (Catalogue Rat) := Catalogue.content ["scenario"]
      let reply (files : Files) (id : String) := ((content.reply (.location id)).run
        (content.asked [.location "inn"] (Catalogue.ofFiles files))).1
      Files.Alike ⟨[inn, key]⟩ ⟨[inn]⟩ ["scenario", "locations"]
        ∧ Files.HasPlace ⟨[inn, key]⟩ ["scenario", "locations"]
        ∧ Files.has ⟨[inn, key]⟩ ["scenario", "locations", "..", "..", "secret", "info.json"] = true
        ∧ Files.has ⟨[inn]⟩ ["scenario", "locations", "..", "..", "secret", "info.json"] = false
        ∧ ∀ id, reply ⟨[inn, key]⟩ id = reply ⟨[inn]⟩ id := by
  intro inn key content reply
  have halike : Files.Alike ⟨[inn, key]⟩ ⟨[inn]⟩ ["scenario", "locations"] := Files.alike_of_filter rfl
  have hplace : Files.HasPlace ⟨[inn, key]⟩ ["scenario", "locations"] := .inl (by decide +kernel)
  refine ⟨halike, hplace, by decide +kernel, by decide +kernel, fun id => ?_⟩
  have hfolder : (Source.locations.folder ["scenario"]).resolve = ["scenario", "locations"] := by
    decide +kernel
  rw [← hfolder] at halike hplace
  exact Catalogue.reply_eq_of_alike halike hplace rfl _ _

end Storyworld
