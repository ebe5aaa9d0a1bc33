import Storyworld.Proofs.Pool
import Storyworld.Scenario.Catalogue

/-!
This module contains the law of the sources that read the files of a story. A source that is built
over a pool which holds something looks everything up through that pool, and so do all others built
like this; one that is built over an empty pool looks things up through a pool of its own, which no
one else fills, and which nothing can be let go from.
-/

namespace Storyworld

/-- The sources that read the files of a story. -/
inductive Source where
  | locations
  | options
  | npcs
  | items
deriving DecidableEq, Repr

namespace Source

variable {ρ : Type}

/-- The pool that a source has of its own. -/
def own : Source → Catalogue ρ → Option (Pool ρ)
  | .locations => Catalogue.locations
  | .options => Catalogue.options
  | .npcs => Catalogue.npcs
  | .items => Catalogue.items

def setOwn (source : Source) (own : Option (Pool ρ)) (c : Catalogue ρ) : Catalogue ρ :=
  match source with
  | .locations => { c with locations := own }
  | .options => { c with options := own }
  | .npcs => { c with npcs := own }
  | .items => { c with items := own }

/-- A source is built over the shared pool as it is now. -/
def build (source : Source) (c : Catalogue ρ) : Catalogue ρ :=
  source.setOwn (Catalogue.ownPool c.shared) c

@[simp] theorem own_setOwn (source : Source) (own? : Option (Pool ρ)) (c : Catalogue ρ)
    : source.own (source.setOwn own? c) = own? := by
  cases source <;> rfl

theorem own_setOwn_of_ne {source other : Source} (h : source ≠ other) (own? : Option (Pool ρ))
    (c : Catalogue ρ) : source.own (other.setOwn own? c) = source.own c := by
  cases source <;> cases other <;> first | rfl | exact absurd rfl h

@[simp] theorem files_setOwn (source : Source) (own? : Option (Pool ρ)) (c : Catalogue ρ)
    : (source.setOwn own? c).files = c.files := by
  cases source <;> rfl

@[simp] theorem shared_setOwn (source : Source) (own? : Option (Pool ρ)) (c : Catalogue ρ)
    : (source.setOwn own? c).shared = c.shared := by
  cases source <;> rfl

theorem own_shared (source : Source) (shared : Pool ρ) (c : Catalogue ρ)
    : source.own { c with shared } = source.own c := by
  cases source <;> rfl

theorem own_files (source : Source) (files : Files) (c : Catalogue ρ)
    : source.own { c with files } = source.own c := by
  cases source <;> rfl

variable [Scalar ρ]

/-- How a source reads files. -/
def reading (source : Source) : Reading ρ (Act (Catalogue ρ)) :=
  Catalogue.through source.own fun pool => source.setOwn (some pool)

end Source

/-! ### Questions -/

/-- What a source is asked for: all that it has of one location, or an item. -/
structure Query (ρ : Type) where
  source : Source
  root : Path
  id : Value ρ

inductive Answer (ρ : Type) where
  | record (r : Record ρ)
  | table (rows : Table (Record ρ))
  | item (r : Option (Record ρ))

namespace Query

variable {ρ : Type} [Scalar ρ]

def ask (q : Query ρ) : Act (Catalogue ρ) (Answer ρ) :=
  match q.source with
  | .locations => .record <$> Catalogue.location q.root q.id
  | .options => .table <$> Catalogue.optionsAt q.root q.id
  | .npcs => .table <$> Catalogue.npcsAt q.root q.id
  | .items => .item <$> Catalogue.item? q.root q.id

/-- The file that tells. -/
def file? (q : Query ρ) : Option Path :=
  match q.source with
  | .locations => Scenario.locationFile? (Scenario.locationsIn q.root) q.id Scenario.infoFile
  | .options => Scenario.locationFile? (Scenario.locationsIn q.root) q.id Scenario.optionsFile
  | .npcs => Scenario.locationFile? (Scenario.locationsIn q.root) q.id Scenario.npcFile
  | .items => (Scenario.itemFile? (Scenario.itemsIn q.root) q.id).map Prod.snd

/-- What stands in for a file that is not there. -/
def default (q : Query ρ) : Value ρ :=
  match q.source with
  | .locations => .object []
  | .options => .object []
  | .npcs => .list []
  | .items => .null

/-- What a source makes of the value of a file. -/
def view (q : Query ρ) (v : Value ρ) : Answer ρ :=
  match q.source with
  | .locations => .record v.recordD
  | .options => .table (Scenario.optionTable v)
  | .npcs => .table (Scenario.npcTable v)
  | .items => .item (v.record?.map (Scenario.itemRecord q.id.key))

/-- The answer where files are read in this way. -/
def answer (read : Reading ρ (Act (Catalogue ρ))) (q : Query ρ) : Act (Catalogue ρ) (Answer ρ) := do
  Act.lift q.id.checkDepth
  match q.file? with
  | none => return q.view q.default
  | some p => return q.view (← read p q.default)

/-- What is told of the file of a question, or of what stands in for it. -/
def lookup {m : Type → Type} [Monad m] {α : Type} (read : Reading ρ m) (tell : Value ρ → α)
    (q : Query ρ) : m α :=
  match q.file? with
  | none => return tell q.default
  | some p => do return tell (← read p q.default)

section

variable {m : Type → Type} [Monad m] (read : Reading ρ m) (root : Path) (id : Value ρ)

theorem location_eq
    : Scenario.location read (Scenario.locationsIn root) id
      = lookup read Value.recordD ⟨.locations, root, id⟩ := by
  unfold Scenario.location lookup file?
  cases Scenario.locationFile? (Scenario.locationsIn root) id Scenario.infoFile <;> rfl

theorem options_eq
    : Scenario.options read (Scenario.locationsIn root) id
      = lookup read Scenario.optionTable ⟨.options, root, id⟩ := by
  unfold Scenario.options lookup file?
  cases Scenario.locationFile? (Scenario.locationsIn root) id Scenario.optionsFile <;> rfl

theorem npcs_eq
    : Scenario.npcs read (Scenario.locationsIn root) id
      = lookup read Scenario.npcTable ⟨.npcs, root, id⟩ := by
  unfold Scenario.npcs lookup file?
  cases Scenario.locationFile? (Scenario.locationsIn root) id Scenario.npcFile <;> rfl

theorem item?_eq
    : Scenario.item? read (Scenario.itemsIn root) id
      = lookup read (fun v => v.record?.map (Scenario.itemRecord id.key)) ⟨.items, root, id⟩ := by
  unfold Scenario.item? lookup file? Scenario.itemFile?
  dsimp only
  by_cases hnone : id.key = "" ∨ Scenario.hasSlash id.key
  . rw [if_pos hnone]
    rfl
  . rw [if_neg hnone]
    rfl

end

/-- A lookup that tells what it has read of one file answers a question about that file. -/
theorem map_lookup {α : Type} (q : Query ρ) (read : Reading ρ (Act (Catalogue ρ)))
    (tell : Value ρ → α) (wrap : α → Answer ρ) (hview : ∀ v, wrap (tell v) = q.view v)
    : wrap <$> (do
        Act.lift q.id.checkDepth
        lookup read tell q)
      = q.answer read := by
  unfold answer lookup
  rw [map_bind]
  refine congrArg _ (funext fun _ => ?_)
  cases q.file? with
  | none => exact (map_pure _ _).trans (congrArg pure (hview _))
  | some p =>
    refine (map_bind _ _ _).trans (congrArg _ (funext fun v => ?_))
    exact (map_pure _ _).trans (congrArg pure (hview v))

/-- A source answers by what it reads in its own way. -/
theorem ask_eq (q : Query ρ) : q.ask = q.answer q.source.reading := by
  obtain ⟨source, root, id⟩ := q
  cases source with
  | locations =>
    unfold ask Catalogue.location
    dsimp only
    rw [location_eq]
    exact map_lookup _ _ Value.recordD .record fun _ => rfl
  | options =>
    unfold ask Catalogue.optionsAt
    dsimp only
    rw [options_eq]
    exact map_lookup _ _ Scenario.optionTable .table fun _ => rfl
  | npcs =>
    unfold ask Catalogue.npcsAt
    dsimp only
    rw [npcs_eq]
    exact map_lookup _ _ Scenario.npcTable .table fun _ => rfl
  | items =>
    unfold ask Catalogue.item?
    dsimp only
    rw [item?_eq]
    exact map_lookup _ _ (fun v => v.record?.map (Scenario.itemRecord id.key)) .item fun _ => rfl

theorem run_answer (read : Reading ρ (Act (Catalogue ρ))) (q : Query ρ) (c : Catalogue ρ)
    : (q.answer read).run c = match q.id.checkDepth, q.file? with
      | .error e, _ => (.error e, c)
      | .ok _, none => (.ok (q.view q.default), c)
      | .ok _, some p =>
        (((read p q.default).run c).1.map q.view, ((read p q.default).run c).2) := by
  unfold answer
  rw [Act.run_bind, Act.run_lift]
  cases q.id.checkDepth with
  | error e => rfl
  | ok _ =>
    cases q.file? with
    | none => rfl
    | some p =>
      dsimp only
      rw [Act.run_bind]
      rcases (read p q.default).run c with ⟨e | v, c'⟩
      . rfl
      . rfl

theorem answer_congr {read read' : Reading ρ (Act (Catalogue ρ))} (q : Query ρ)
    {c c' : Catalogue ρ} (h : ∀ p v, ((read p v).run c).1 = ((read' p v).run c').1)
    : ((q.answer read).run c).1 = ((q.answer read').run c').1 := by
  rw [run_answer, run_answer]
  cases q.id.checkDepth with
  | error e => rfl
  | ok _ =>
    cases q.file? with
    | none => rfl
    | some p => exact congrArg (Except.map q.view) (h p q.default)

end Query

/-! ### What is done meanwhile -/

namespace Catalogue

/-- What can be done with the sources, the shared pool and the files. -/
inductive Call (ρ : Type) where
  | ask (q : Query ρ)
  | read (p : Path) (default : Value ρ)
  | change (files : Files)
  | invalidate (p : Path)
  | clear
  | build (source : Source)

variable {ρ : Type} [Scalar ρ]

def after (c : Catalogue ρ) : Call ρ → Catalogue ρ
  | .ask q => (q.ask.run c).2
  | .read p default => ((readShared p default).run c).2
  | .change files => { c with files }
  | .invalidate p => ((onShared (Pool.invalidate p)).run c).2
  | .clear => ((onShared Pool.clear).run c).2
  | .build source => source.build c

def afterAll (c : Catalogue ρ) (calls : List (Call ρ)) : Catalogue ρ := calls.foldl after c

/-- A call lets go of what the shared pool keeps of a file. -/
def Call.Drops (p : Path) : Call ρ → Prop
  | .invalidate q => Pool.key p = Pool.key q
  | .clear => True
  | _ => False

/-- A call asks for a file. -/
def Call.Reads (p : Path) : Call ρ → Prop
  | .read q _ => Pool.key p = Pool.key q
  | .ask q => ∃ file, q.file? = some file ∧ Pool.key p = Pool.key file
  | _ => False

theorem run_reading_shared {c : Catalogue ρ} {source : Source} (h : source.own c = none)
    (p : Path) (default : Value ρ)
    : (source.reading p default).run c = (readShared p default).run c := by
  unfold Source.reading through
  rw [Act.run_bind, Act.run_get]
  dsimp only
  rw [h]

theorem run_reading_own {c : Catalogue ρ} {source : Source} {pool : Pool ρ}
    (h : source.own c = some pool) (p : Path) (default : Value ρ)
    : (source.reading p default).run c
      = (((Pool.read c.files p default).run pool).1,
        source.setOwn (some ((Pool.read c.files p default).run pool).2) c) := by
  unfold Source.reading through
  rw [Act.run_bind, Act.run_get]
  dsimp only
  rw [h]
  rfl

/-- A question leaves all as it is, or it reads the file of which it is through a pool: the shared
one, or that of the source. -/
theorem after_ask_cases (c : Catalogue ρ) (q : Query ρ)
    : c.after (.ask q) = c
      ∨ ∃ p, q.file? = some p
        ∧ ((q.source.own c = none ∧ c.after (.ask q)
            = { c with shared := ((Pool.read c.files p q.default).run c.shared).2 })
          ∨ ∃ pool, q.source.own c = some pool ∧ c.after (.ask q)
            = q.source.setOwn (some ((Pool.read c.files p q.default).run pool).2) c) := by
  unfold after
  dsimp only
  rw [Query.ask_eq, Query.run_answer]
  cases q.id.checkDepth with
  | error e => exact .inl rfl
  | ok _ =>
    cases hfile : q.file? with
    | none => exact .inl rfl
    | some p =>
      right
      refine ⟨p, rfl, ?_⟩
      dsimp only
      cases hown : q.source.own c with
      | none =>
        left
        rw [run_reading_shared hown]
        exact ⟨rfl, rfl⟩
      | some pool =>
        right
        rw [run_reading_own hown]
        exact ⟨pool, rfl, rfl⟩

/-! ### The shared pool -/

theorem kept?_stays {c : Catalogue ρ} {p : Path} {v : Value ρ} (h : c.shared.kept? p = some v)
    {call : Call ρ} (hcall : ¬call.Drops p) : (c.after call).shared.kept? p = some v := by
  have hread (q : Path) (default : Value ρ) :
      ((Pool.read c.files q default).run c.shared).2.kept? p = some v := by
    by_cases hkey : Pool.key p = Pool.key q
    . rw [Pool.kept?_read _ _ hkey, h]
      rfl
    . rw [Pool.kept?_read_of_ne _ _ hkey, h]
  cases call with
  | ask q =>
    rcases after_ask_cases c q with hsame | ⟨file, _, ⟨_, hshared⟩ | ⟨pool, _, hown⟩⟩
    . rw [hsame]
      exact h
    . rw [hshared]
      exact hread file q.default
    . rw [hown, Source.shared_setOwn]
      exact h
  | read q default => exact hread q default
  | change files => exact h
  | invalidate q => exact (Pool.kept?_invalidate_of_ne c.shared hcall).trans h
  | clear => exact absurd trivial hcall
  | build source => exact (congrArg (Pool.kept? · p) (Source.shared_setOwn _ _ c)).trans h

theorem kept?_stays_away {c : Catalogue ρ} {p : Path} (h : c.shared.kept? p = none)
    {call : Call ρ} (hcall : ¬call.Reads p) : (c.after call).shared.kept? p = none := by
  cases call with
  | ask q =>
    rcases after_ask_cases c q with hsame | ⟨file, hfile, ⟨_, hshared⟩ | ⟨pool, _, hown⟩⟩
    . rw [hsame]
      exact h
    . rw [hshared]
      exact (Pool.kept?_read_of_ne _ _ fun hkey => hcall ⟨file, hfile, hkey⟩).trans h
    . rw [hown, Source.shared_setOwn]
      exact h
  | read q default => exact (Pool.kept?_read_of_ne _ _ hcall).trans h
  | change files => exact h
  | invalidate q =>
    by_cases hkey : Pool.key p = Pool.key q
    . exact Pool.kept?_invalidate c.shared hkey
    . exact (Pool.kept?_invalidate_of_ne c.shared hkey).trans h
  | clear => exact Pool.kept?_empty p
  | build source => exact (congrArg (Pool.kept? · p) (Source.shared_setOwn _ _ c)).trans h

theorem kept?_dropped (c : Catalogue ρ) {p : Path} {call : Call ρ} (hcall : call.Drops p)
    : (c.after call).shared.kept? p = none := by
  cases call with
  | invalidate q => exact Pool.kept?_invalidate c.shared hcall
  | clear => exact Pool.kept?_empty p
  | ask q => exact absurd hcall id
  | read q default => exact absurd hcall id
  | change files => exact absurd hcall id
  | build source => exact absurd hcall id

theorem afterAll_of_step {P : Catalogue ρ → Prop} {calls : List (Call ρ)}
    (hstep : ∀ call ∈ calls, ∀ c, P c → P (c.after call)) {c : Catalogue ρ} (h : P c)
    : P (c.afterAll calls) := by
  induction calls generalizing c with
  | nil => exact h
  | cons call calls ih =>
    rw [List.forall_mem_cons] at hstep
    exact ih hstep.2 (hstep.1 c h)

theorem readShared_eq (c : Catalogue ρ) (p : Path) (default : Value ρ)
    : ((readShared p default).run c).1
      = match c.shared.kept? p with
        | some v => .ok v
        | none => c.files.json p default := Pool.read_eq default c.shared

/-- What was read stays, until it is let go. -/
theorem readShared_stable {c : Catalogue ρ} {p : Path} {default v : Value ρ}
    (h : ((readShared p default).run c).1 = .ok v) {calls : List (Call ρ)}
    (hcalls : ∀ call ∈ calls, ¬call.Drops p) (default' : Value ρ)
    : ((readShared p default').run ((c.after (.read p default)).afterAll calls)).1 = .ok v := by
  have hkept : (c.after (.read p default)).shared.kept? p = some v := by
    refine (Pool.kept?_read default c.shared rfl).trans ?_
    rw [readShared_eq] at h
    cases hkept : c.shared.kept? p with
    | some w =>
      rw [hkept] at h
      obtain rfl := Except.ok.inj h
      rfl
    | none =>
      rw [hkept] at h
      dsimp only at h
      rw [h]
      rfl
  have hstays := afterAll_of_step (P := fun c => c.shared.kept? p = some v)
    (fun call hcall c hc => kept?_stays hc (hcalls call hcall)) hkept
  rw [readShared_eq, hstays]

/-- What is read after it was let go is what the file holds now. -/
theorem readShared_fresh (c : Catalogue ρ) {p : Path} {drop : Call ρ} (hdrop : drop.Drops p)
    {calls : List (Call ρ)} (hcalls : ∀ call ∈ calls, ¬call.Reads p) (default : Value ρ)
    : ((readShared p default).run ((c.after drop).afterAll calls)).1
      = ((c.after drop).afterAll calls).files.json p default := by
  have haway := afterAll_of_step (P := fun c => c.shared.kept? p = none)
    (fun call hcall c hc => kept?_stays_away hc (hcalls call hcall)) (kept?_dropped c hdrop)
  rw [readShared_eq, haway]

/-! ### Sources over a pool that holds something -/

/-- A source answers all that it is asked by what the shared pool gives, whatever is done meanwhile,
as long as it is not built anew. -/
def Shares (c : Catalogue ρ) (source : Source) : Prop :=
  ∀ calls : List (Call ρ), (∀ call ∈ calls, call ≠ .build source) →
    ∀ q : Query ρ, q.source = source →
      (q.ask.run (c.afterAll calls)).1 = ((q.answer readShared).run (c.afterAll calls)).1

theorem own_after {source : Source} {c : Catalogue ρ} (h : source.own c = none) {call : Call ρ}
    (hcall : call ≠ .build source) : source.own (c.after call) = none := by
  cases call with
  | ask q =>
    rcases after_ask_cases c q with hsame | ⟨_, _, ⟨_, hshared⟩ | ⟨pool, hpool, hown⟩⟩
    . rw [hsame]
      exact h
    . rw [hshared]
      exact (Source.own_shared source _ c).trans h
    . have hne : source ≠ q.source := by
        rintro rfl
        rw [h] at hpool
        cases hpool
      rw [hown, Source.own_setOwn_of_ne hne]
      exact h
  | read p default => exact (Source.own_shared source _ c).trans h
  | change files => exact (Source.own_files source files c).trans h
  | invalidate p => exact (Source.own_shared source _ c).trans h
  | clear => exact (Source.own_shared source _ c).trans h
  | build other =>
    have hne : source ≠ other := by
      rintro rfl
      exact hcall rfl
    exact (Source.own_setOwn_of_ne hne _ c).trans h

theorem shares_of_own {source : Source} {c : Catalogue ρ} (h : source.own c = none)
    : c.Shares source := by
  rintro calls hcalls q rfl
  have hown := afterAll_of_step (P := fun c => q.source.own c = none)
    (fun call hcall c hc => own_after hc (hcalls call hcall)) h
  rw [Query.ask_eq]
  apply Query.answer_congr
  intro p v
  rw [run_reading_shared hown]

/-! ### Sources over an empty pool -/

/-- What a source with a pool of its own hears of: the questions to it, and how the files change. -/
def Call.concerns (source : Source) : Call ρ → Bool
  | .ask q => decide (q.source = source)
  | .change _ => true
  | _ => false

/-- A source answers all that it is asked as if nothing had been done but to ask it and to change
the files, as long as it is not built anew. -/
def Secluded (c : Catalogue ρ) (source : Source) : Prop :=
  ∀ calls : List (Call ρ), (∀ call ∈ calls, call ≠ .build source) →
    ∀ q : Query ρ, q.source = source → (q.ask.run (c.afterAll calls)).1
      = (q.ask.run (c.afterAll (calls.filter (Call.concerns source)))).1

/-- The files and the pool of a source are the same. -/
structure SameFor (source : Source) (c c' : Catalogue ρ) : Prop where
  own : ∃ pool, source.own c = some pool ∧ source.own c' = some pool
  files : c.files = c'.files

namespace SameFor

variable {source : Source} {c c' : Catalogue ρ}

theorem ask_eq (h : SameFor source c c') {q : Query ρ} (hq : q.source = source)
    : (q.ask.run c).1 = (q.ask.run c').1
      ∧ SameFor source (c.after (.ask q)) (c'.after (.ask q)) := by
  subst hq
  obtain ⟨⟨pool, hc, hc'⟩, hfiles⟩ := h
  unfold after
  dsimp only
  rw [Query.ask_eq, Query.run_answer, Query.run_answer]
  cases q.id.checkDepth with
  | error e => exact ⟨rfl, ⟨pool, hc, hc'⟩, hfiles⟩
  | ok _ =>
    cases q.file? with
    | none => exact ⟨rfl, ⟨pool, hc, hc'⟩, hfiles⟩
    | some p =>
      dsimp only
      rw [run_reading_own hc, run_reading_own hc', hfiles]
      refine ⟨rfl, ⟨_, Source.own_setOwn _ _ _, Source.own_setOwn _ _ _⟩, ?_⟩
      rw [Source.files_setOwn, Source.files_setOwn, hfiles]

theorem skip (h : SameFor source c c') {call : Call ρ} (hcall : call ≠ .build source)
    (hconcerns : call.concerns source = false) : SameFor source (c.after call) c' := by
  obtain ⟨⟨pool, hc, hc'⟩, hfiles⟩ := h
  cases call with
  | ask q =>
    have hne : source ≠ q.source := fun heq => of_decide_eq_false hconcerns heq.symm
    rcases after_ask_cases c q with hsame | ⟨_, _, ⟨_, hshared⟩ | ⟨_, _, hown⟩⟩
    . rw [hsame]
      exact ⟨⟨pool, hc, hc'⟩, hfiles⟩
    . rw [hshared]
      exact ⟨⟨pool, (Source.own_shared source _ c).trans hc, hc'⟩, hfiles⟩
    . rw [hown]
      refine ⟨⟨pool, (Source.own_setOwn_of_ne hne _ c).trans hc, hc'⟩, ?_⟩
      rw [Source.files_setOwn, hfiles]
  | read p default => exact ⟨⟨pool, (Source.own_shared source _ c).trans hc, hc'⟩, hfiles⟩
  | change files => cases hconcerns
  | invalidate p => exact ⟨⟨pool, (Source.own_shared source _ c).trans hc, hc'⟩, hfiles⟩
  | clear => exact ⟨⟨pool, (Source.own_shared source _ c).trans hc, hc'⟩, hfiles⟩
  | build other =>
    have hne : source ≠ other := by
      rintro rfl
      exact hcall rfl
    refine ⟨⟨pool, (Source.own_setOwn_of_ne hne _ c).trans hc, hc'⟩, ?_⟩
    exact (Source.files_setOwn other _ c).trans hfiles

theorem afterAll (h : SameFor source c c') {calls : List (Call ρ)}
    (hcalls : ∀ call ∈ calls, call ≠ .build source)
    : SameFor source (c.afterAll calls) (c'.afterAll (calls.filter (Call.concerns source))) := by
  induction calls generalizing c c' with
  | nil => exact h
  | cons call calls ih =>
    rw [List.forall_mem_cons] at hcalls
    cases hconcerns : call.concerns source with
    | false =>
      rw [List.filter_cons_of_neg (by simp [hconcerns])]
      exact ih (h.skip hcalls.1 hconcerns) hcalls.2
    | true =>
      rw [List.filter_cons_of_pos hconcerns]
      refine ih ?_ hcalls.2
      cases call with
      | ask q => exact (h.ask_eq (of_decide_eq_true hconcerns)).2
      | change files =>
        obtain ⟨pool, hc, hc'⟩ := h.own
        exact ⟨⟨pool, (Source.own_files source files c).trans hc,
          (Source.own_files source files c').trans hc'⟩, rfl⟩
      | _ => cases hconcerns

end SameFor

theorem secluded_of_own {source : Source} {c : Catalogue ρ} {pool : Pool ρ}
    (h : source.own c = some pool) : c.Secluded source := by
  intro calls hcalls q hq
  have hsame : SameFor source c c := ⟨⟨pool, h, h⟩, rfl⟩
  exact ((hsame.afterAll hcalls).ask_eq hq).1

/-- The file that tells of the inn. -/
def innFile : Source → Path
  | .locations => ["locations", "inn", "info.json"]
  | .options => ["locations", "inn", "options.json"]
  | .npcs => ["locations", "inn", "npc.json"]
  | .items => ["items", "inn.json"]

/-- The value of a file from which a source tells something. -/
def telling : Source → Value ρ
  | .locations => .object [("name", .null)]
  | .options => .object [("rest", .object [])]
  | .npcs => .list [.object [("id", .text "keeper")]]
  | .items => .object []

def askInn (source : Source) : Query ρ := ⟨source, [], .text "inn"⟩

theorem file?_askInn (source : Source)
    : (askInn source : Query ρ).file? = some (innFile source) := by
  have hkey : (Value.text "inn" : Value ρ).key = "inn" := by
    have hstrip : Text.strip "inn" = "inn" := by decide +kernel
    exact hstrip
  unfold askInn Query.file? Scenario.locationFile? Scenario.itemFile?
  dsimp only
  rw [hkey]
  cases source <;> decide +kernel

theorem view_telling (source : Source)
    : (askInn source : Query ρ).view (telling source)
      ≠ (askInn source).view (askInn source).default := by
  cases source <;> exact nofun

theorem json_innFile (source : Source) (v : Value ρ)
    : ({} : Files).json (innFile source) v = .ok v := by
  apply Files.json_empty
  . cases source <;> decide +kernel
  . cases source <;> decide +kernel

/-- A source with an empty pool of its own does not see what others have read. -/
theorem not_shares_of_own {source : Source} {c : Catalogue ρ} (h : source.own c = some {})
    (hempty : c.shared = {}) : ¬c.Shares source := by
  intro hshares
  have hsame := hshares [.change {}, .read (innFile source) (telling source)] (by simp)
    (askInn source) rfl
  obtain ⟨c', hc'⟩ : ∃ c', c' = c.afterAll [.change {}, .read (innFile source) (telling source)] :=
    ⟨_, rfl⟩
  have hown : source.own c' = some {} := by
    rw [hc']
    exact (Source.own_shared source _ _).trans ((Source.own_files source _ c).trans h)
  have hfiles : c'.files = {} := by
    rw [hc']
    rfl
  have hkept : c'.shared.kept? (innFile source) = some (telling source) := by
    rw [hc']
    refine (Pool.kept?_read (telling source) c.shared rfl).trans ?_
    rw [hempty, Pool.kept?_empty]
    exact congrArg Except.toOption (json_innFile source (telling source))
  rw [← hc', Query.ask_eq, Query.run_answer, Query.run_answer, file?_askInn] at hsame
  change Except.map _ ((source.reading _ _).run c').1 = Except.map _ _ at hsame
  rw [run_reading_own hown, readShared_eq, hkept, Pool.read_eq, Pool.kept?_empty, hfiles,
    json_innFile] at hsame
  exact view_telling source (Except.ok.inj hsame).symm

/-! ### The law -/

section

variable {source : Source} {c : Catalogue ρ} (h : source.own c = ownPool c.shared)

include h

theorem shares_of_built : c.Shares source ↔ c.shared.size ≠ 0 := by
  constructor
  . intro hshares hsize
    have hempty : c.shared = {} := congrArg Pool.mk (List.length_eq_zero_iff.mp hsize)
    exact not_shares_of_own (h.trans (if_pos hsize)) hempty hshares
  . intro hsize
    exact shares_of_own (h.trans (if_neg hsize))

theorem secluded_of_built (hsize : c.shared.size = 0) : c.Secluded source :=
  secluded_of_own (h.trans (if_pos hsize))

end

/-- Sources that are all built over one pool share it just where it holds something already. -/
theorem ofPool_shares_iff (files : Files) (shared : Pool ρ) (source : Source)
    : (ofPool files shared).Shares source ↔ shared.size ≠ 0 := by
  apply shares_of_built
  cases source <;> rfl

/-- A source answers by the shared pool, whoever has read a file and whatever is done meanwhile,
just where that pool held something when the source was built; over an empty pool it is secluded.
What the shared pool gives of a file is what was read first, until it is let go, and then what the
file holds. -/
theorem lookups_share_iff (c : Catalogue ρ) (source : Source)
    : ((source.build c).Shares source ↔ c.shared.size ≠ 0)
      ∧ (c.shared.size = 0 → (source.build c).Secluded source)
      ∧ (∀ p default v, ((readShared p default).run c).1 = .ok v → ∀ calls : List (Call ρ),
        (∀ call ∈ calls, ¬call.Drops p) → ∀ default',
        ((readShared p default').run ((c.after (.read p default)).afterAll calls)).1 = .ok v)
      ∧ ∀ p drop, Call.Drops p drop → ∀ calls : List (Call ρ), (∀ call ∈ calls, ¬call.Reads p) →
        ∀ default, ((readShared p default).run ((c.after drop).afterAll calls)).1
          = ((c.after drop).afterAll calls).files.json p default := by
  have hshared : (source.build c).shared = c.shared := Source.shared_setOwn source _ c
  have hown : source.own (source.build c) = ownPool (source.build c).shared :=
    (Source.own_setOwn source _ c).trans (congrArg ownPool hshared.symm)
  refine ⟨?_, ?_, ?_, ?_⟩
  . rw [shares_of_built hown, hshared]
  . intro hsize
    apply secluded_of_built hown
    rw [hshared]
    exact hsize
  . exact fun p default v h calls hcalls default' => readShared_stable h hcalls default'
  . exact fun p drop hdrop calls hcalls default => readShared_fresh c hdrop hcalls default

end Catalogue

end Storyworld
