import Storyworld.Proofs.Arrival
import Storyworld.Proofs.Jump

/-!
This module contains the readings of a route, the place that is written behind `go:`. It is read as
a token, as the member of a mapping and as the outcome of a turn. The three agree where a second
colon does not come in: the token alone passes over what stands behind it.
-/

namespace Storyworld

variable {ρ σ : Type} [Scalar ρ]

omit [Scalar ρ] in
theorem Value.ofText?_inj {s t : Option String} (h : (Value.ofText? s : Value ρ) = .ofText? t)
    : s = t := by
  cases s with
  | none =>
    cases t with
    | none => rfl
    | some t => cases h
  | some s =>
    cases t with
    | none => cases h
    | some t => exact congrArg some (Value.text.inj h)

/-! ### Colons -/

namespace Text

theorem notMem_takeWhile (cs : List Char) : ':' ∉ cs.takeWhile (· != ':') := by
  intro h
  have := List.mem_takeWhile_imp h
  simp at this

theorem cut_fst_eq_iff {s : String} : (cut s).1 = s ↔ ':' ∉ s.toList := by
  unfold cut cutAt
  constructor
  . intro h
    rw [← h, String.toList_ofList]
    exact notMem_takeWhile s.toList
  . intro h
    have hall : s.toList.takeWhile (· != ':') = s.toList := by
      rw [List.takeWhile_eq_self_iff]
      intro c hc
      rw [bne_iff_ne]
      rintro rfl
      exact h hc
    dsimp only
    rw [hall, String.ofList_toList]

theorem count_le_one_iff (cs : List Char)
    : cs.count ':' ≤ 1 ↔ ':' ∉ (cs.dropWhile (· != ':')).drop 1 := by
  have hcount : cs.count ':' = (cs.dropWhile (· != ':')).count ':' := by
    conv_lhs => rw [← List.takeWhile_append_dropWhile (p := (· != ':')) (l := cs)]
    rw [List.count_append, List.count_eq_zero_of_not_mem (notMem_takeWhile cs), Nat.zero_add]
  rw [hcount]
  cases hrest : cs.dropWhile (· != ':') with
  | nil => simp
  | cons d ds =>
    -- what is left over starts with the first colon
    have hd : d = ':' := by
      have := List.head?_dropWhile_not (· != ':') cs
      rw [hrest] at this
      simpa using this
    subst hd
    rw [List.count_cons_self, List.drop_one, List.tail_cons, ← List.count_eq_zero]
    omega

end Text

namespace Effect

/-- A route that all read alike: it has one colon at most, or begins with one and so names no
location. -/
def Unmistakable (route : String) : Prop :=
  route.toList.head? = some ':' ∨ route.toList.count ':' ≤ 1

theorem unmistakable_iff {route : String}
    : Unmistakable route ↔ (Text.cut route).1 = "" ∨ ':' ∉ (Text.cut route).2.toList := by
  unfold Unmistakable
  rw [Text.count_le_one_iff]
  unfold Text.cut Text.cutAt
  dsimp only
  rw [String.toList_ofList, String.ofList_eq_empty_iff]
  cases route.toList with
  | nil => simp
  | cons c cs =>
    by_cases hc : c = ':'
    . simp [hc]
    . simp [hc]

/-- The target of the jump that actions are; other actions have none. -/
def target : List (Effect ρ) → Value ρ
  | [effect] => effect.outcome
  | _ => .null

theorem cut_route (route : String) : Text.cut ("go:" ++ route) = ("go", route) := by
  have hcolon : ':' ∉ "go".toList := by decide
  exact Text.cut_append_colon hcolon route

theorem compile_route {route : String} (htrim : Text.strip route = route)
    : compile (.text ("go:" ++ route) : Value ρ) .null
      = .ok (jump (Text.cut route).1 (nonempty? (Text.cut (Text.cut route).2).1)) := by
  have hstrip : Text.strip ("go:" ++ route) = "go:" ++ route :=
    Text.strip_append (by decide +kernel) htrim
  have hcut : Text.cut ("go:" ++ route) = ("go", route) := cut_route route
  rw [compile_text, hstrip, ofToken_go (by rw [hcut])]
  unfold wayTo
  rw [hcut]

theorem compile_go (route : String)
    : compile (.object [("go", .text route)] : Value ρ) .null
      = .ok (jump (Text.cut route).1 (nonempty? (Text.cut route).2)) := rfl

omit [Scalar ρ] in
theorem jump_inj {location : String} {scene scene' : Option String}
    : (jump location scene : List (Effect ρ)) = jump location scene'
      ↔ location = "" ∨ scene = scene' := by
  unfold jump
  by_cases h : location = ""
  . simp [h]
  . simp [h]

theorem nonempty?_cut_eq_iff {s : String}
    : nonempty? (Text.cut s).1 = nonempty? s ↔ ':' ∉ s.toList := by
  rw [← Text.cut_fst_eq_iff]
  unfold nonempty?
  constructor
  . intro h
    split at h
    next hempty =>
      split at h
      next hs => rw [hempty, hs]
      next => cases h
    next =>
      split at h
      next => cases h
      next => exact Option.some.inj h
  . intro h
    rw [h]

theorem nonempty?_ne (s : String) : nonempty? s ≠ some "" := by
  unfold nonempty?
  intro h
  split at h
  next => cases h
  next hs => exact hs (Option.some.inj h)

omit [Scalar ρ] in
theorem target_jump (location : String) (scene : Option String)
    : (target (jump location scene) : Value ρ)
      = if location = "" then .null else .target (.text location) (.ofText? scene) := by
  unfold jump
  split
  . rfl
  . rfl

end Effect

namespace Navigation

theorem destination_route {route : String} (htrim : Text.strip route = route) (here : Value ρ)
    : destination here (.text ("go:" ++ route))
      = if route = "" then (.null, .null)
        else (.text (Text.cut route).1, .text (Text.cut route).2) := by
  have hstrip : Text.strip ("go:" ++ route) = "go:" ++ route :=
    Text.strip_append (by decide +kernel) htrim
  have hcut : Text.cut ("go:" ++ route) = ("go", route) := Effect.cut_route route
  unfold destination
  dsimp only
  rw [hstrip, hcut]
  by_cases h : route = ""
  . simp [h]
  . simp [h]

/-- A turn that ends with a route as its text goes where the mapping goes that holds the route. -/
theorem apply_route (atlas : Atlas ρ σ) {route : String} (htrim : Text.strip route = route)
    : apply atlas (.text ("go:" ++ route))
      = apply atlas (Effect.target
        (Effect.jump (Text.cut route).1 (Effect.nonempty? (Text.cut route).2))) := by
  unfold apply
  refine bind_congr fun n => ?_
  dsimp only
  rw [destination_route htrim, Effect.target_jump]
  have hempty : (Value.text "" : Value ρ).isGiven = false := by simp [Value.isGiven]
  have hnull : (Value.null : Value ρ).isGiven = false := rfl
  by_cases hlocation : (Text.cut route).1 = ""
  . -- without a location nothing is asked for, whatever is read as the scene
    rw [if_pos hlocation, hlocation]
    split
    . rfl
    . dsimp only [destination]
      simp only [hempty, hnull, Bool.not_false, if_true]
  . have hroute : route ≠ "" := by
      rintro rfl
      exact hlocation rfl
    rw [if_neg hlocation, if_neg hroute]
    unfold Effect.nonempty?
    by_cases hscene : (Text.cut route).2 = ""
    . rw [if_pos hscene, hscene]
      dsimp only [destination, Value.ofText?]
      simp only [hempty, hnull, Bool.false_eq_true, if_false]
    . rw [if_neg hscene]
      rfl

/-- An atlas of locations of which nothing is known. -/
def bare : Atlas ρ σ where
  location _ := return .object []

theorem resolve_bare (scene : Option String) (hscene : scene ≠ some "")
    : Atlas.resolve [] (.ofText? scene : Value ρ) = .ofText? scene := by
  have hscenes : Atlas.scenes ([] : Record ρ) = [] := rfl
  have hnone (v : Value ρ) : Atlas.find? [] v = none := by
    unfold Atlas.find?
    rw [hscenes]
    exact ite_self _
  unfold Atlas.resolve
  simp only [hnone, hscenes, Option.isSome_none, Bool.false_eq_true, if_false, Bool.and_false]
  cases scene with
  | none => rfl
  | some asked =>
    have hgiven : (Value.text asked : Value ρ).isGiven = true :=
      Value.isGiven_text.mpr fun h => hscene (congrArg some h)
    unfold Value.ofText?
    rw [if_pos hgiven, Value.display_text]

theorem run_moveTo_bare {location : String} (hlocation : Text.strip location ≠ "")
    {scene : Option String} (hscene : scene ≠ some "") (n : Navigation ρ) (src : σ)
    : ((moveTo bare (.text location) (.ofText? scene)).run (n, src)).2.1.pointer
      = some ⟨.text location, .ofText? scene⟩ := by
  have hanswers : Answers (fun _ => .ok (.object [])) (bare : Atlas ρ σ).location := fun _ _ => rfl
  have hserves : (bare : Atlas ρ σ).Serves := by
    constructor
    case location => exact fun _ => Act.ends_pure Record.walkable_nil
    case allows => exact fun _ h => by cases h
  have hplain : (Value.ofText? scene : Value ρ).Plain := by
    cases scene with
    | none => rfl
    | some scene => rfl
  have hgiven : (Value.ofText? scene : Value ρ).given? = .ok (.ofText? scene) := by
    cases scene with
    | none => rfl
    | some asked => exact Value.given?_text fun h => hscene (congrArg some h)
  obtain ⟨result, m, hrun, _⟩ :=
    gives_moveTo hserves ⟨location, rfl, hlocation⟩ hplain (n, src) trivial
  rcases moveTo_arrives hanswers (Value.isGiven_text.mpr (Text.ne_empty_of_strip hlocation))
    (.ofText? scene) n src with ⟨⟨e, herror⟩, _⟩ | ⟨p, r, harrival, _, hstands⟩
  . rw [hrun] at herror
    cases herror
  . obtain ⟨v, hv, hgate⟩ := harrival.scene_eq
    rw [hgiven, Except.ok.injEq] at hv
    have hscene_eq : Value.ofText? scene = p.scene := by
      rw [← hv] at hgate
      have hid := Except.ok.inj hgate
      rw [← hid]
      exact (resolve_bare scene hscene).symm
    have hp : p = ⟨.text location, .ofText? scene⟩ := by
      rw [hscene_eq, ← harrival.location_text]
    rw [← hp]
    exact hstands.1

/-- Two outcomes of a turn move the player alike, wherever it stands and whatever there is. -/
def MovesAlike (outcome outcome' : Value ρ) : Prop :=
  ∀ (σ : Type) (atlas : Atlas ρ σ) (n : Navigation ρ × σ),
    ((apply atlas outcome).run n).2.1.pointer = ((apply atlas outcome').run n).2.1.pointer
    ∧ ((apply atlas outcome).run n).2.1.history = ((apply atlas outcome').run n).2.1.history

theorem MovesAlike.of_apply_eq {outcome outcome' : Value ρ}
    (h : ∀ {σ : Type} (atlas : Atlas ρ σ), apply atlas outcome = apply atlas outcome')
    : MovesAlike outcome outcome' := by
  intro σ atlas n
  rw [h atlas]
  exact ⟨rfl, rfl⟩

theorem MovesAlike.congr {outcome outcome' other : Value ρ}
    (h : MovesAlike outcome outcome')
    : MovesAlike outcome other ↔ MovesAlike outcome' other := by
  constructor
  . intro hother σ atlas n
    rw [← (h σ atlas n).1, ← (h σ atlas n).2]
    exact hother σ atlas n
  . intro hother σ atlas n
    rw [(h σ atlas n).1, (h σ atlas n).2]
    exact hother σ atlas n

theorem movesAlike_jump_iff {location : String} (hlocation : Text.strip location ≠ "")
    {scene scene' : Option String} (hscene : scene ≠ some "") (hscene' : scene' ≠ some "")
    : MovesAlike (.target (.text location) (.ofText? scene) : Value ρ)
        (.target (.text location) (.ofText? scene'))
      ↔ scene = scene' := by
  have hne := Text.ne_empty_of_strip hlocation
  have hmoves {scene : Option String} (hscene : scene ≠ some "") :
      ((apply bare (.target (.text location) (.ofText? scene : Value ρ))).run ({}, ())).2.1.pointer
        = some ⟨.text location, .ofText? scene⟩ := by
    have hanswers : Answers (fun _ => .ok (.object [])) (bare : Atlas ρ Unit).location :=
      fun _ _ => rfl
    rw [run_apply_target hanswers, if_neg hne]
    cases scene with
    | none => exact run_moveTo_bare hlocation hscene {} ()
    | some asked =>
      have hasked : asked ≠ "" := fun h => hscene (congrArg some h)
      dsimp only [Option.getD_some]
      rw [if_pos hasked]
      exact run_moveTo_bare hlocation hscene {} ()
  constructor
  . intro h
    have hpointer := (h Unit bare ({}, ())).1
    rw [hmoves hscene, hmoves hscene', Option.some.injEq, Pointer.mk.injEq] at hpointer
    exact Value.ofText?_inj hpointer.2
  . rintro rfl
    exact fun _ _ _ => ⟨rfl, rfl⟩

end Navigation

/-- The three readings of a route. What is read as a token and what is read as a mapping are the
same actions just where the route is unmistakable: behind a second colon the token reads no further,
and the mapping does. A turn that ends with the route goes where the mapping goes, from everywhere
and whatever the route, and so where the token goes just for the unmistakable ones. -/
theorem Effect.readings_agree_iff {route : String} (htrim : Text.strip route = route)
    : ∃ token mapping : List (Effect ρ),
      compile (.text ("go:" ++ route) : Value ρ) .null = .ok token
      ∧ compile (.object [("go", .text route)] : Value ρ) .null = .ok mapping
      ∧ (token = mapping ↔ Unmistakable route)
      ∧ Navigation.MovesAlike (.text ("go:" ++ route)) (target mapping)
      ∧ (Navigation.MovesAlike (.text ("go:" ++ route)) (target token) ↔ Unmistakable route) := by
  have hroute : Navigation.MovesAlike (.text ("go:" ++ route) : Value ρ) (target
      (jump (Text.cut route).1 (nonempty? (Text.cut route).2))) :=
    .of_apply_eq fun atlas => Navigation.apply_route atlas htrim
  refine ⟨_, _, compile_route htrim, compile_go route, ?_, ?_, ?_⟩
  . rw [unmistakable_iff, jump_inj, nonempty?_cut_eq_iff]
  . exact hroute
  . rw [unmistakable_iff, hroute.congr, target_jump, target_jump]
    by_cases hlocation : (Text.cut route).1 = ""
    . rw [if_pos hlocation, if_pos hlocation]
      exact iff_of_true (.of_apply_eq fun _ => rfl) (.inl hlocation)
    . rw [if_neg hlocation, if_neg hlocation,
        Navigation.movesAlike_jump_iff (Text.strip_cut_ne_empty htrim hlocation)
          (nonempty?_ne _) (nonempty?_ne _), eq_comm, nonempty?_cut_eq_iff]
      simp [hlocation]

/-- The token of this route leads to the hall; as the outcome of a turn it leads elsewhere. -/
theorem Effect.readings_agree_iff_hall
    : Text.strip "inn:hall:x" = "inn:hall:x"
      ∧ compile (.text "go:inn:hall:x" : Value Rat) .null = .ok [.go "inn" (some "hall")]
      ∧ compile (.object [("go", .text "inn:hall:x")] : Value Rat) .null
        = .ok [.go "inn" (some "hall:x")]
      ∧ Navigation.MovesAlike (.text "go:inn:hall:x" : Value Rat)
        (.target (.text "inn") (.text "hall:x"))
      ∧ ¬ Navigation.MovesAlike (.text "go:inn:hall:x" : Value Rat)
        (.target (.text "inn") (.text "hall")) := by
  have htrim : Text.strip "inn:hall:x" = "inn:hall:x" := by decide +kernel
  have htoken : compile (.text "go:inn:hall:x" : Value Rat) .null
      = .ok [.go "inn" (some "hall")] := by rfl
  have hmapping : compile (.object [("go", .text "inn:hall:x")] : Value Rat) .null
      = .ok [.go "inn" (some "hall:x")] := by rfl
  have hsecond : ¬ Unmistakable "inn:hall:x" := by
    unfold Unmistakable
    decide +kernel
  obtain ⟨token, mapping, htoken', hmapping', _, hagree, hiff⟩ :=
    readings_agree_iff (ρ := Rat) htrim
  obtain rfl := Except.ok.inj (htoken.symm.trans htoken')
  obtain rfl := Except.ok.inj (hmapping.symm.trans hmapping')
  exact ⟨htrim, htoken, hmapping, hagree, fun h => hsecond (hiff.mp h)⟩

end Storyworld
