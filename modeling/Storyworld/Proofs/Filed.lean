import Storyworld.Proofs.Catalogue
import Storyworld.Proofs.Files
import Storyworld.Proofs.Mirror
import Storyworld.Proofs.Navigation
import Storyworld.Proofs.Plain
import Storyworld.Proofs.Reader

/-!
This module contains stories as their files tell them. A source with a pool of its own answers as the
files do: what it keeps of a file is found under the text of a path, and no two files that the source
reads have one.
-/

namespace Storyworld

/-! ### Names of files -/

namespace Path

theorem Down.of_hasSlash {name : String} (hslash : Scenario.hasSlash name = false)
    (hup : name ≠ "..") : Down name where
  top := by
    by_contra htop
    rw [Bool.not_eq_false, List.contains_iff_mem] at htop
    have hall : ∀ name ∈ tops, Scenario.hasSlash name = true := by decide +kernel
    rw [hall name htop] at hslash
    cases hslash
  up := hup

theorem Down.json {name : String} (hslash : Scenario.hasSlash name = false)
    : Down (name ++ ".json") := by
  refine .of_hasSlash ?_ ?_
  . unfold Scenario.hasSlash at hslash ⊢
    rw [String.toList_append, List.any_append, hslash]
    decide +kernel
  . intro hup
    have hlength := congrArg String.length hup
    rw [String.length_append] at hlength
    have hending : ".json".length = 5 := by decide +kernel
    have hdots : "..".length = 2 := by decide +kernel
    omega

theorem resolve_append (p : Path) {names : List String} (h : ∀ name ∈ names, Down name)
    : resolve (p ++ names) = resolve p ++ names := by
  unfold resolve
  rw [List.foldl_append]
  generalize p.foldl step [] = here
  induction names generalizing here with
  | nil => simp
  | cons name names ih =>
    rw [List.forall_mem_cons] at h
    rw [List.foldl_cons, step_of_down h.1, ih h.2, List.append_assoc, List.singleton_append]

theorem toText_append (p : Path)
    : ∃ start, ∀ names, names ≠ [] → (∀ name ∈ names, Down name) →
      toText (p ++ names) = start ++ String.intercalate "/" names := by
  cases p with
  | nil =>
    refine ⟨"", fun names hne hdown => ?_⟩
    cases names with
    | nil => exact absurd rfl hne
    | cons name names =>
      have htop := (hdown name List.mem_cons_self).top
      unfold toText
      rw [List.nil_append, String.empty_append]
      dsimp only
      rw [htop, if_neg Bool.false_ne_true]
  | cons first rest =>
    by_cases htop : tops.contains first = true
    . cases rest with
      | nil =>
        refine ⟨first, fun names _ _ => ?_⟩
        unfold toText
        exact if_pos htop
      | cons second rest =>
        refine ⟨first ++ (String.intercalate "/" (second :: rest) ++ "/"), fun names hne _ => ?_⟩
        unfold toText
        rw [String.append_assoc, ← String.intercalate_append_of_ne_nil (by simp) hne]
        exact if_pos htop
    . refine ⟨String.intercalate "/" (first :: rest) ++ "/", fun names hne _ => ?_⟩
      unfold toText
      rw [← String.intercalate_append_of_ne_nil (by simp) hne]
      exact if_neg htop

/-- Two paths below one folder that are kept under one text are one, where the text of their names
tells the names. -/
theorem resolve_eq_of_toText {p : Path} {names names' : List String} (hne : names ≠ [])
    (hne' : names' ≠ []) (h : ∀ name ∈ names, Down name) (h' : ∀ name ∈ names', Down name)
    (hnames : String.intercalate "/" names = String.intercalate "/" names' → names = names')
    (htext : (resolve (p ++ names)).toText = (resolve (p ++ names')).toText)
    : resolve (p ++ names) = resolve (p ++ names') := by
  rw [resolve_append p h, resolve_append p h'] at htext ⊢
  obtain ⟨start, hstart⟩ := toText_append (resolve p)
  rw [hstart names hne h, hstart names' hne' h'] at htext
  rw [hnames ((String.append_right_inj start).mp htext)]

end Path

namespace Scenario

variable {ρ : Type} [Scalar ρ]

theorem locationFile?_eq_some {base p : Path} {id : Value ρ} {name : String}
    (h : locationFile? base id name = some p)
    : p = base ++ [id.key, name] ∧ Path.Down id.key := by
  unfold locationFile? at h
  dsimp only at h
  split at h
  . cases h
  next hkey =>
    simp only [not_or, Bool.not_eq_true] at hkey
    obtain ⟨_, hslash, _, hup⟩ := hkey
    exact ⟨(Option.some.inj h).symm, .of_hasSlash hslash hup⟩

theorem itemFile?_eq_some {base p : Path} {id : Value ρ}
    (h : (itemFile? base id).map Prod.snd = some p)
    : p = base ++ [id.key ++ ".json"] ∧ Path.Down (id.key ++ ".json") := by
  unfold itemFile? at h
  dsimp only at h
  split at h
  . cases h
  next hkey =>
    simp only [not_or, Bool.not_eq_true] at hkey
    obtain ⟨_, hslash⟩ := hkey
    exact ⟨(Option.some.inj h).symm, Path.Down.json hslash⟩

end Scenario

theorem Pool.key_eq_ok {p : Path} {k : String} (h : Pool.key p = .ok k)
    : p.refuse = .ok () ∧ p.resolve.toText = k := by
  obtain ⟨_, hrefuse, h⟩ := Fault.bind_eq_ok.mp h
  exact ⟨hrefuse, Except.ok.inj h⟩

variable {ρ σ : Type} [Scalar ρ]

omit [Scalar ρ] in
theorem Query.default_eq {q q' : Query ρ} (h : q.source = q'.source) : q.default = q'.default := by
  unfold default
  rw [h]

/-- Two files of one source that are kept under one name are the same file. -/
theorem Query.json_eq_of_key {q q' : Query ρ} (hsource : q.source = q'.source)
    (hroot : q.root = q'.root) {p p' : Path} (hp : q.file? = some p) (hp' : q'.file? = some p')
    {k : String} (hk : Pool.key p = .ok k) (hk' : Pool.key p' = .ok k) (files : Files)
    (default : Value ρ) : files.json p default = files.json p' default := by
  obtain ⟨hrefuse, htext⟩ := Pool.key_eq_ok hk
  obtain ⟨hrefuse', htext'⟩ := Pool.key_eq_ok hk'
  suffices p.resolve = p'.resolve by
    unfold Files.json
    rw [hrefuse, hrefuse', this]
  have hlocation {base : Path} {id id' : Value ρ} {name : String} (hname : Path.Down name)
      (hp : Scenario.locationFile? base id name = some p)
      (hp' : Scenario.locationFile? base id' name = some p') : p.resolve = p'.resolve := by
    obtain ⟨rfl, hdown⟩ := Scenario.locationFile?_eq_some hp
    obtain ⟨rfl, hdown'⟩ := Scenario.locationFile?_eq_some hp'
    refine Path.resolve_eq_of_toText (by simp) (by simp) (by simp [hdown, hname])
      (by simp [hdown', hname]) ?_ (htext.trans htext'.symm)
    intro hnames
    rw [String.intercalate_cons_cons, String.intercalate_cons_cons, String.append_left_inj,
      String.append_left_inj] at hnames
    rw [hnames]
  obtain ⟨source, root, id⟩ := q
  obtain ⟨source', root', id'⟩ := q'
  dsimp only at hsource hroot
  subst hsource hroot
  unfold Query.file? at hp hp'
  cases source with
  | locations => exact hlocation (.of_hasSlash (by decide +kernel) (by decide)) hp hp'
  | options => exact hlocation (.of_hasSlash (by decide +kernel) (by decide)) hp hp'
  | npcs => exact hlocation (.of_hasSlash (by decide +kernel) (by decide)) hp hp'
  | items =>
    obtain ⟨rfl, hdown⟩ := Scenario.itemFile?_eq_some hp
    obtain ⟨rfl, hdown'⟩ := Scenario.itemFile?_eq_some hp'
    refine Path.resolve_eq_of_toText (by simp) (by simp) (by simp [hdown]) (by simp [hdown']) ?_
      (htext.trans htext'.symm)
    intro hnames
    rw [String.intercalate_singleton, String.intercalate_singleton] at hnames
    rw [hnames]

/-! ### What the files say -/

namespace Scenario

/-- What the files say of a location. -/
def toldOf (files : Files) (root : Path) (id : Value ρ) : Except Fault (Record ρ) := do
  id.checkDepth
  location files.json (locationsIn root) id

/-- The options that the files hold for a location. -/
def optionsOf (files : Files) (root : Path) (id : String) : Except Fault (Table (Record ρ)) :=
  options files.json (locationsIn root) (.text id)

/-- The people that the files hold for a location. -/
def peopleOf (files : Files) (root : Path) (id : String) : Except Fault (Table (Record ρ)) :=
  npcs files.json (locationsIn root) (.text id)

/-- The sources that look all up in the files. -/
def filed (files : Files) (root : Path) : Content ρ σ where
  location id := Value.object <$> Act.lift (toldOf files root id)
  option? id option := do return Table.get? (← Act.lift (optionsOf files root id)) option
  npc? id npc := do return Table.get? (← Act.lift (peopleOf files root id)) npc
  npcs id := do return (← Act.lift (peopleOf files root id)).map Prod.snd
  item? id := Act.lift (item? files.json (itemsIn root) (.text id))

/-- What the files answer when they are asked for a location. -/
def answerOf (files : Files) (root : Path) (id : Value ρ) : Except Fault (Value ρ) :=
  Value.object <$> toldOf files root id

theorem answers_filed (files : Files) (root : Path)
    : Answers (answerOf files root) (filed files root : Content ρ σ).location := by
  intro id s
  unfold filed answerOf
  dsimp only
  rw [Act.run_map, Act.run_lift]
  cases toldOf files root id <;> rfl

theorem infoOf_answerOf {files : Files} {root : Path} {id : Value ρ} {info : Record ρ}
    (h : toldOf files root id = .ok info) : infoOf (answerOf files root) id = info := by
  unfold infoOf answerOf
  rw [h]
  rfl

theorem run_filed_location {files : Files} {root : Path} {id : Value ρ} {info : Record ρ}
    (h : toldOf files root id = .ok info) (s : σ)
    : ((filed files root : Content ρ σ).location id).run s = (.ok (.object info), s) := by
  unfold filed
  dsimp only
  rw [h]
  rfl

theorem run_filed_option? {files : Files} {root : Path} {id : String} {rows : Table (Record ρ)}
    (h : optionsOf files root id = .ok rows) (option : String) (s : σ)
    : ((filed files root : Content ρ σ).option? id option).run s
      = (.ok (Table.get? rows option), s) := by
  unfold filed
  dsimp only
  rw [h]
  rfl

theorem run_filed_npc? {files : Files} {root : Path} {id : String} {rows : Table (Record ρ)}
    (h : peopleOf files root id = .ok rows) (npc : String) (s : σ)
    : ((filed files root : Content ρ σ).npc? id npc).run s = (.ok (Table.get? rows npc), s) := by
  unfold filed
  dsimp only
  rw [h]
  rfl

end Scenario

/-- What a file holds is nested less deep than texts can be. -/
theorem Files.isPlain_json {files : Files} {p : Path} {default v : Value ρ}
    (hdefault : default.isPlain Value.textDepth = true) (h : files.json p default = .ok v)
    : v.isPlain Value.textDepth = true := by
  obtain ⟨_, _, h⟩ := Fault.bind_eq_ok.mp h
  obtain ⟨_, _, h⟩ := Fault.bind_eq_ok.mp h
  split at h
  next bytes _ =>
    obtain ⟨read?, hread, h⟩ := Fault.bind_eq_ok.mp h
    obtain rfl := Except.ok.inj h
    cases read? with
    | none => exact hdefault
    | some v =>
      unfold Files.decode? at hread
      split at hread
      . exact Value.isPlain_mono (by decide) (Json.read_isPlain hread)
      . cases hread
  next =>
    obtain rfl := Except.ok.inj h
    exact hdefault

theorem Scenario.shallow_toldOf {files : Files} {root : Path} {id : Value ρ} {info : Record ρ}
    (h : toldOf files root id = .ok info) : Record.Shallow info := by
  unfold toldOf location at h
  obtain ⟨_, _, h⟩ := Fault.bind_eq_ok.mp h
  split at h
  . obtain rfl := Except.ok.inj h
    exact Record.shallow_nil
  . obtain ⟨v, hjson, h⟩ := Fault.bind_eq_ok.mp h
    obtain rfl := Except.ok.inj h
    exact Record.shallow_recordD (Files.isPlain_json rfl hjson)

theorem Scenario.shallow_infoOf_answerOf (files : Files) (root : Path) (id : Value ρ)
    : Record.Shallow (infoOf (answerOf files root) id) := by
  cases htold : toldOf files root id with
  | ok info =>
    rw [infoOf_answerOf htold]
    exact shallow_toldOf htold
  | error e =>
    unfold infoOf answerOf
    rw [htold]
    exact Record.shallow_nil

theorem Memory.shallow_npcTable {rows : List (Record ρ)} (h : ∀ row ∈ rows, Record.Shallow row)
    : ∀ e ∈ npcTable rows, Record.Shallow e.2 := by
  intro e he
  unfold npcTable at he
  obtain ⟨row, hrow, heq⟩ := List.mem_filterMap.mp (Table.mem_of_mem_ofList he)
  split at heq
  . cases heq
    exact (h row hrow).set "id" rfl
  . cases heq

/-! ### Sources with pools -/

namespace Catalogue

/-- Each source has a pool of its own, and what it keeps there of a file it would read again. -/
structure Coherent (files : Files) (root : Path) (c : Catalogue ρ) : Prop where
  files_eq : c.files = files
  kept : ∀ source, ∃ pool, source.own c = some pool ∧ ∀ (q : Query ρ) p v, q.source = source →
    q.root = root → q.file? = some p → pool.kept? p = some v → files.json p q.default = .ok v

variable {files : Files} {root : Path}

theorem coherent_ofFiles (files : Files) (root : Path)
    : Coherent files root (ofFiles files : Catalogue ρ) where
  files_eq := rfl
  kept source := by
    refine ⟨{}, ?_, fun q p v _ _ _ hkept => ?_⟩
    . cases source <;> rfl
    . rw [Pool.kept?_empty] at hkept
      cases hkept

/-- Reading a file through a pool that is coherent is reading it. -/
theorem mirrors_reading (q : Query ρ) (hroot : q.root = root) {p : Path} (hp : q.file? = some p)
    : Act.Mirrors (fun c (_ : σ) => Coherent files root c) (q.source.reading p q.default)
      (Act.lift (files.json p q.default)) := by
  intro c s h
  obtain ⟨pool, hown, hkept⟩ := h.kept q.source
  rw [run_reading_own hown, h.files_eq]
  have hread : ((Pool.read files p q.default).run pool).1 = files.json p q.default := by
    rw [Pool.read_eq]
    cases hfound : pool.kept? p with
    | none => rfl
    | some v => exact (hkept q p v rfl hroot hp hfound).symm
  refine ⟨hread, ⟨?_, fun source => ?_⟩⟩
  . rw [Source.files_setOwn, h.files_eq]
  by_cases hsource : source = q.source
  . subst hsource
    refine ⟨_, Source.own_setOwn _ _ _, fun q' p' v hsource' hroot' hp' hkept' => ?_⟩
    by_cases hkey : Pool.key p' = Pool.key p
    . rw [Pool.kept?_read _ _ hkey, Option.or_eq_some_iff] at hkept'
      rcases hkept' with hkept' | ⟨_, hjson⟩
      . exact hkept q' p' v hsource' hroot' hp' hkept'
      . cases hk : Pool.key p with
        | error e =>
          rw [Files.json_of_key_error hk] at hjson
          cases hjson
        | ok k =>
          have hdefault : q'.default = q.default := Query.default_eq hsource'
          rw [Query.json_eq_of_key hsource' (hroot'.trans hroot.symm) hp' hp (hkey.trans hk) hk, hdefault]
          exact Fault.eq_ok_of_toOption hjson
    . rw [Pool.kept?_read_of_ne _ _ hkey] at hkept'
      exact hkept q' p' v hsource' hroot' hp' hkept'
  . obtain ⟨other, hother, hkept'⟩ := h.kept source
    exact ⟨other, (Source.own_setOwn_of_ne hsource _ c).trans hother, hkept'⟩

variable (files : Files) (root : Path)

theorem mirrors_lookup (q : Query ρ) (hroot : q.root = root) {α : Type} (tell : Value ρ → α)
    : Act.Mirrors (fun c (_ : σ) => Coherent files root c) (q.lookup q.source.reading tell)
      (Act.lift (q.lookup files.json tell)) := by
  unfold Query.lookup
  cases hp : q.file? with
  | none => exact Act.mirrors_pure _
  | some p =>
    dsimp only
    rw [Act.lift_bind]
    exact Act.mirrors_bind (mirrors_reading q hroot hp) fun v => Act.mirrors_pure _

theorem mirrors_location (id : Value ρ)
    : Act.Mirrors (fun c (_ : σ) => Coherent files root c) (location root id)
      (Act.lift (Scenario.toldOf files root id)) := by
  unfold location Scenario.toldOf
  rw [Query.location_eq, Query.location_eq, Act.lift_bind]
  refine Act.mirrors_bind (Act.mirrors_lift _) fun _ => ?_
  exact mirrors_lookup files root ⟨.locations, root, id⟩ rfl Value.recordD

theorem mirrors_optionsAt (id : String)
    : Act.Mirrors (fun (c : Catalogue ρ) (_ : σ) => Coherent files root c) (optionsAt root (.text id))
      (Act.lift (Scenario.optionsOf files root id)) := by
  unfold optionsAt Scenario.optionsOf
  rw [Query.options_eq, Query.options_eq, (Value.Plain.text id).checkDepth, Act.lift_ok, pure_bind]
  exact mirrors_lookup files root ⟨.options, root, .text id⟩ rfl Scenario.optionTable

theorem mirrors_npcsAt (id : String)
    : Act.Mirrors (fun (c : Catalogue ρ) (_ : σ) => Coherent files root c) (npcsAt root (.text id))
      (Act.lift (Scenario.peopleOf files root id)) := by
  unfold npcsAt Scenario.peopleOf
  rw [Query.npcs_eq, Query.npcs_eq, (Value.Plain.text id).checkDepth, Act.lift_ok, pure_bind]
  exact mirrors_lookup files root ⟨.npcs, root, .text id⟩ rfl Scenario.npcTable

theorem mirrors_item? (id : String)
    : Act.Mirrors (fun (c : Catalogue ρ) (_ : σ) => Coherent files root c) (item? root (.text id))
      (Act.lift (Scenario.item? files.json (Scenario.itemsIn root) (.text id))) := by
  unfold item?
  rw [Query.item?_eq, Query.item?_eq, (Value.Plain.text id).checkDepth, Act.lift_ok, pure_bind]
  exact mirrors_lookup files root ⟨.items, root, .text id⟩ rfl _

/-- The sources of a story answer what its files say. -/
theorem mirrors_filed
    : (content root : Content ρ (Catalogue ρ)).Mirrors (fun c (_ : σ) => Coherent files root c)
      (Scenario.filed files root) where
  location id := Act.mirrors_map _ (mirrors_location files root id)
  option? id _ := Act.mirrors_bind (mirrors_optionsAt files root id) fun _ => Act.mirrors_pure _
  npc? id _ := Act.mirrors_bind (mirrors_npcsAt files root id) fun _ => Act.mirrors_pure _
  npcs id := Act.mirrors_bind (mirrors_npcsAt files root id) fun _ => Act.mirrors_pure _
  item? id := mirrors_item? files root id

end Catalogue

end Storyworld
