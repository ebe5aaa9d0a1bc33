import Storyworld.Proofs.Clock
import Storyworld.Proofs.Navigation
import Storyworld.Proofs.Session
import Storyworld.Scalar.Exact
import Storyworld.View.Script

/-!
This module contains what the travel menu offers. Moves register the ways from the place that they
lead to; a look at a scene registers nothing, also where the time has put another scene in place of
the one that the player came to.
-/

namespace Storyworld

/-! ### Travel menus -/

namespace Menu

variable {ρ S : Type} [Scalar ρ] {stall : Stall ρ S}
  {g : String → String → Except Fault (Option (Record ρ))}

def Leads (location : String) (c : Choice ρ) : Prop := c.id = goId ++ ":" ++ location

/-- A way is open: its location is registered, and what its option asks for is met. -/
def Open (stall : Stall ρ S) (g : String → String → Except Fault (Option (Record ρ)))
    (scene : Scene ρ) (env : Env ρ) (location : String) : Prop :=
  Table.has stall.registry location = true
    ∧ ∃ row, g scene.location (goId ++ ":" ++ location) = .ok row
      ∧ open? stall env (row.getD []) = .ok true

theorem pathChoice_eq_ok (hg : ∀ location id s, ((stall.content.option? location id).run s).1
      = g location id) {scene : Scene ρ} {env : Env ρ} {base : Record ρ} {location : String}
    {s s' : S} {choice : Option (Choice ρ)}
    (h : (pathChoice stall scene env base location).run s = (.ok choice, s'))
    : (choice.isSome ↔ Open stall g scene env location) ∧ ∀ c ∈ choice, Leads location c := by
  unfold pathChoice at h
  unfold Open Leads Table.has
  cases hview : Table.get? stall.registry location with
  | none =>
    rw [hview] at h
    obtain rfl : none = choice := Except.ok.inj (congrArg Prod.fst h)
    simp
  | some view =>
    rw [hview] at h
    dsimp only at h
    obtain ⟨row, s₁, hrow, h⟩ := Act.run_bind_eq_ok.mp h
    have hanswer := hg scene.location (goId ++ ":" ++ location) s
    rw [hrow] at hanswer
    dsimp only at hanswer
    obtain ⟨isOpen, s₂, hopen, h⟩ := Act.run_bind_eq_ok.mp h
    have hopen : open? stall env (row.getD []) = .ok isOpen := congrArg Prod.fst hopen
    simp only [← hanswer, Option.isSome_some, true_and, Except.ok.injEq, exists_eq_left', hopen]
    cases isOpen with
    | false =>
      obtain rfl : none = choice := Except.ok.inj (congrArg Prod.fst h)
      simp
    | true =>
      obtain ⟨name, s₃, _, h⟩ := Act.run_bind_eq_ok.mp h
      obtain rfl : some _ = choice := Except.ok.inj (congrArg Prod.fst h)
      simp

theorem leads_iff (hg : ∀ location id s, ((stall.content.option? location id).run s).1
      = g location id) {scene : Scene ρ} {env : Env ρ} {base : Record ρ} {ids : List String}
    {s s' : S} {choices : List (Choice ρ)}
    (h : (pathChoicesTo stall scene env base ids).run s = (.ok choices, s')) {location : String}
    : (∃ c ∈ choices, Leads location c) ↔ location ∈ ids ∧ Open stall g scene env location := by
  induction ids generalizing s s' choices with
  | nil =>
    obtain rfl : [] = choices := Except.ok.inj (congrArg Prod.fst h)
    simp
  | cons id ids ih =>
    unfold pathChoicesTo at h
    obtain ⟨choice, s₁, hchoice, h⟩ := Act.run_bind_eq_ok.mp h
    obtain ⟨rest, s₂, hrest, h⟩ := Act.run_bind_eq_ok.mp h
    obtain rfl : choice.toList ++ rest = choices := Except.ok.inj (congrArg Prod.fst h)
    obtain ⟨hsome, hleads⟩ := pathChoice_eq_ok hg hchoice
    have hfirst : (∃ c ∈ choice.toList, Leads location c)
        ↔ location = id ∧ Open stall g scene env location := by
      constructor
      . rintro ⟨c, hc, hlocation⟩
        rw [Option.mem_toList] at hc
        have hid := hleads c hc
        unfold Leads at hid hlocation
        rw [hlocation, String.append_right_inj] at hid
        subst hid
        refine ⟨rfl, hsome.mp ?_⟩
        rw [hc]
        rfl
      . rintro ⟨rfl, hopen⟩
        obtain ⟨c, hc⟩ := Option.isSome_iff_exists.mp (hsome.mpr hopen)
        exact ⟨c, Option.mem_toList.mpr hc, hleads c hc⟩
    simp only [List.mem_append, or_and_right, exists_or, List.mem_cons, hfirst, ih hrest]

end Menu

/-! ### What moves register -/

namespace Navigation

variable {ρ σ : Type} [Scalar ρ]

/-- The location of the pointer is registered, and so is what is near to the places of the history.
Whatever else is registered was left there. -/
structure Explored (f : Value ρ → Except Fault (Value ρ)) (left : String → Prop)
    (n : Navigation ρ) : Prop where
  pointer : ∀ p, n.pointer = some p →
    ∃ key, p.location.key? = .ok key ∧ key ≠ "" ∧ Table.has n.registry key = true
  history : ∀ p ∈ n.history, ∀ key, Near f p key → Table.has n.registry key = true
  registry : ∀ key, Table.has n.registry key = true → (∃ p ∈ n.history, Near f p key) ∨ left key

namespace Explored

variable {f : Value ρ → Except Fault (Value ρ)} {left : String → Prop} {atlas : Atlas ρ σ}
  {n : Navigation ρ}

theorem empty : Explored f left ({} : Navigation ρ) where
  pointer _ h := by cases h
  history _ h := by cases h
  registry _ h := by cases h

theorem register (h : Explored f left n) {r : Registry ρ} {more : String → Prop}
    (hr : n.registry.Extends r more)
    (hmore : ∀ key, more key → Table.has n.registry key = true ∨ left key)
    : Explored f left { n with registry := r } where
  pointer p hp := by
    obtain ⟨key, hkey, hne, hhas⟩ := h.pointer p hp
    exact ⟨key, hkey, hne, hr.has hhas⟩
  history p hp key hnear := hr.has (h.history p hp key hnear)
  registry key hhas := by
    rcases hr.new key hhas with hold | hnew
    . exact h.registry key hold
    . rcases hmore key hnew with hold | hleft
      . exact h.registry key hold
      . exact .inr hleft

theorem arrive (h : Explored f left n) {location scene : Value ρ} {r : Registry ρ} {p : Pointer ρ}
    (hp : Arrival f atlas location scene r p) (hr : n.registry.Extends r (Near f p))
    : Explored f left (arrive p { n with registry := r }) := by
  obtain ⟨l, _, hlocation, hne⟩ := hp.location_eq
  constructor
  case pointer =>
    intro q hq
    obtain rfl : p = q := Option.some.inj hq
    have hkey : p.location.key? = .ok (Text.strip l) := by rw [hlocation, Value.key?_text]
    exact ⟨Text.strip l, hkey, hne, hp.registered _ (.inl hkey)⟩
  case history =>
    intro q hq key hnear
    rcases mem_extend hq with hq | rfl
    . exact hr.has (h.history q hq key hnear)
    . exact hp.registered key hnear
  case registry =>
    intro key hhas
    rcases hr.new key hhas with hold | hnear
    . refine (h.registry key hold).imp_left ?_
      rintro ⟨q, hq, hnear⟩
      exact ⟨q, mem_extend_of_mem hq, hnear⟩
    . exact .inl ⟨p, mem_extend_self ⟨l, hlocation⟩ hp.scene_text, hnear⟩

theorem moveTo (h : Explored f left n) (hf : Answers f atlas.location) (location scene : Value ρ)
    (src : σ)
    (hleft : ∀ e n' src',
      (Navigation.moveTo atlas location scene).run (n, src) = (.error e, n', src') →
      ∀ key, Table.has n'.registry key = true → Table.has n.registry key = true ∨ left key)
    : Explored f left ((Navigation.moveTo atlas location scene).run (n, src)).2.1 := by
  rcases moveTo_cases hf location scene n src with
    ⟨result, src', hrun, _⟩ | ⟨e, r, src', hr, hrun⟩ | ⟨p, r, src', hp, hr, hrun⟩
  . rw [hrun]
    exact h
  . have hstopped := hleft e _ src' hrun
    rw [hrun]
    have hr' : n.registry.Extends r fun key => Table.has r key = true :=
      ⟨hr.old, fun key hhas => .inr hhas⟩
    exact h.register hr' hstopped
  . rw [hrun]
    exact h.arrive hp hr

theorem apply (h : Explored f left n) (hf : Answers f atlas.location) (outcome : Value ρ) (src : σ)
    (hleft : ∀ location scene n src e n' src',
      (Navigation.moveTo atlas location scene).run (n, src) = (.error e, n', src') →
      ∀ key, Table.has n'.registry key = true → Table.has n.registry key = true ∨ left key)
    : Explored f left ((Navigation.apply atlas outcome).run (n, src)).2.1 := by
  obtain ⟨r, src', hr, hcases⟩ := apply_cases hf outcome n src
  -- before it moves, an outcome can only register where the player is, and that was registered
  have hregistered : Explored f left { n with registry := r } := by
    apply h.register hr
    rintro key ⟨p, hpointer, hkey⟩
    obtain ⟨key', hkey', _, hhas⟩ := h.pointer p hpointer
    rw [hkey, Except.ok.injEq] at hkey'
    exact .inl (hkey' ▸ hhas)
  rcases hcases with ⟨result, hrun⟩ | ⟨location, scene, _, hrun⟩
  . rw [hrun]
    exact hregistered
  . rw [hrun]
    exact hregistered.moveTo hf location scene src' (hleft location scene _ src')

theorem run_current (h : Explored f left n) (hf : Answers f atlas.location) {p : Pointer ρ}
    (hpointer : n.pointer = some p) (src : σ)
    : ∃ src', (current atlas).run (n, src) =
      match atlas.gate (infoOf f p.location) p.scene with
      | .error e => (.error e, n, src')
      | .ok v => ((Atlas.read (infoOf f p.location) ⟨p.location, v⟩).map some,
        { n with pointer := some ⟨p.location, v⟩ }, src') := by
  obtain ⟨key, hkey, hne, hhas⟩ := h.pointer p hpointer
  exact ⟨_, Navigation.run_current hpointer (run_approach_of_has hf hkey hne hhas src)⟩

theorem current (h : Explored f left n) (hf : Answers f atlas.location) (src : σ)
    : Explored f left ((Navigation.current atlas).run (n, src)).2.1 := by
  rcases Option.eq_none_or_eq_some n.pointer with hpointer | ⟨p, hpointer⟩
  . rw [run_current_none hpointer]
    exact h
  . obtain ⟨src', hrun⟩ := h.run_current hf hpointer src
    rw [hrun]
    split
    . exact h
    . refine { h with pointer := ?_ }
      intro q hq
      obtain rfl := Option.some.inj hq
      exact h.pointer p hpointer

end Explored

end Navigation

namespace Session

variable {ρ σ : Type} [Scalar ρ] {content : Content ρ σ}

/-- A move that stops can leave a location registered, at some time of a clock. -/
def LeftBehind (content : Content ρ σ) (clock : Clock ρ) (key : String) : Prop :=
  ∃ (commands : List (Clock.Command ρ)) (location scene : Value ρ) (n : Navigation ρ) (src : σ)
    (e : Fault) (n' : Navigation ρ) (src' : σ),
    (Navigation.moveTo ⟨content.location,
      some (Atlas.openAt (commands.foldl Clock.Command.after clock))⟩ location scene).run (n, src)
      = (.error e, n', src')
    ∧ Table.has n.registry key = false ∧ Table.has n'.registry key = true

def Travelled (f : Value ρ → Except Fault (Value ρ)) (content : Content ρ σ) (clock c : Clock ρ)
    (n : Navigation ρ) : Prop :=
  (∃ commands : List (Clock.Command ρ), c = commands.foldl Clock.Command.after clock)
    ∧ Navigation.Explored f (LeftBehind content clock) n

variable {f : Value ρ → Except Fault (Value ρ)} {clock : Clock ρ}

theorem leftBehind_of_stopped {commands : List (Clock.Command ρ)} {location scene : Value ρ}
    {n n' : Navigation ρ} {src src' : σ} {e : Fault}
    (hrun : (Navigation.moveTo ⟨content.location,
      some (Atlas.openAt (commands.foldl Clock.Command.after clock))⟩ location scene).run (n, src)
      = (.error e, n', src')) (key : String) (hhas : Table.has n'.registry key = true)
    : Table.has n.registry key = true ∨ LeftBehind content clock key := by
  cases hold : Table.has n.registry key with
  | true => exact .inl rfl
  | false => exact .inr ⟨commands, location, scene, n, src, e, n', src', hrun, hold, hhas⟩

theorem lasting_travelled (hf : Answers f content.location)
    : Lasting content fun s => Travelled f content clock s.clock s.navigation := by
  apply Lasting.of_navigation
  case htick =>
    rintro hours c n ⟨⟨commands, rfl⟩, hn⟩
    refine ⟨⟨commands ++ [.tick hours], ?_⟩, hn⟩
    rw [List.foldl_append]
    rfl
  case happly =>
    rintro outcome c n src ⟨⟨commands, rfl⟩, hn⟩
    refine ⟨⟨commands, rfl⟩, ?_⟩
    refine hn.apply ?_ outcome src ?_
    . exact hf
    . intro location scene n src e n' src' hrun
      exact leftBehind_of_stopped hrun
  case hlook =>
    rintro c n src ⟨hc, hn⟩
    refine ⟨hc, hn.current ?_ src⟩
    exact hf

theorem travelled (hf : Answers f content.location) {sources : σ} {traits : TraitBook ρ}
    {place : Value ρ} {s₀ s : Session ρ σ}
    (hstart : start content sources traits clock place = .ok s₀) (hs : Turns content s₀ s)
    : Travelled f content clock s.clock s.navigation := by
  refine (lasting_travelled hf).turns ?_ hs
  have hstarted := started hstart
  have hclock : s₀.clock = [Clock.Command.subscribe dayListener].foldl Clock.Command.after clock :=
    hstarted.clock_eq
  refine ⟨⟨_, hclock⟩, ?_⟩
  rcases hstarted.navigation_eq with hnowhere | ⟨location, scene, result, src, hmove⟩
  . rw [hnowhere]
    exact .empty
  . have hnavigation := congrArg (fun run => run.2.1) hmove
    dsimp only at hnavigation
    rw [← hnavigation, hclock]
    refine Navigation.Explored.empty.moveTo ?_ location scene sources ?_
    . exact hf
    . intro e n' src' hrun
      exact leftBehind_of_stopped hrun

def inn : Memory Rat where
  locations := [("inn", [("scenes", .list [
    .object [("id", .text "day"), ("from", .int 6), ("to", .int 18),
      ("path", .list [.text "field"]), ("optionIds", .list [.text "rest"])],
    .object [("id", .text "night"), ("path", .list [.text "crypt"])]])])]
  options := [("inn", [("rest", [("id", .text "rest"), ("effect", .text "time:10")])])]

end Session

end Storyworld
