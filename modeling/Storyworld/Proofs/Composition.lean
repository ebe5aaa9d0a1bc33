import Storyworld.Proofs.Plain
import Storyworld.Proofs.Turn

/-!
This module contains what a list of effects comes to: its tree has no sequence within a sequence, so no
action that fails keeps another one from being played, and a list of two is played as one after the other
as long as it can be read.
-/

namespace Storyworld

variable {ρ σ α : Type}

namespace Value

theorem orNull_null (v : Value ρ) : v.orNull .null = v := by
  cases v <;> rfl

theorem orNull_assoc (u v w : Value ρ) : (u.orNull v).orNull w = u.orNull (v.orNull w) := by
  cases u <;> rfl

end Value

/-! ### Reading -/

namespace Effect

/-- A member of a mapping that is there and not null. -/
def member? (name : String) (ms : Record ρ) : Option (Value ρ) :=
  (Table.get? ms name).filter fun v => !v.isNull

theorem mem_of_member? {name : String} {ms : Record ρ} {v : Value ρ} (h : member? name ms = some v)
    : (name, v) ∈ ms :=
  Table.mem_of_get? (Option.filter_eq_some_iff.mp h).1

theorem member?_cons (name k : String) (v : Value ρ) (ms : Record ρ)
    : member? name ((k, v) :: ms)
      = if k = name then (if v.isNull then none else some v) else member? name ms := by
  unfold member?
  rw [Table.get?_cons]
  split
  . rw [Option.filter_some]
    cases v.isNull <;> rfl
  . rfl

theorem memberFits_eq (room : Nat) (name : String) (ms : Record ρ)
    : memberFits room name ms = (member? name ms).map (fits room) := by
  induction ms with
  | nil => rfl
  | cons m ms ih =>
    obtain ⟨k, v⟩ := m
    unfold memberFits
    rw [member?_cons, ih]
    split
    . split <;> rfl
    . rfl

theorem fits_list {room : Nat} {xs : List (Value ρ)}
    : fits room (.list xs) = true
      ↔ listRoom < room ∧ ∀ x ∈ xs, fits (room - listRoom) x = true := by
  conv_lhs => unfold fits
  rw [Bool.and_eq_true, Nat.blt_eq, allFit_iff]

theorem fits_mono {room room' : Nat} (hroom : room ≤ room') {v : Value ρ} (h : fits room v = true)
    : fits room' v = true := by
  induction v using Value.inductParts generalizing room room' with
  | text s =>
    unfold fits at h ⊢
    rw [Nat.blt_eq] at h ⊢
    exact h.trans_le hroom
  | list xs ih =>
    rw [fits_list] at h ⊢
    exact ⟨h.1.trans_le hroom, fun x hx => ih x hx (by omega) (h.2 x hx)⟩
  | object ms ih =>
    have hmember {name : String} {otherwise otherwise' : Bool}
        (himp : otherwise = true → otherwise' = true)
        (h : ((member? name ms).map (fits (room - ownRoom))).getD otherwise = true) :
        ((member? name ms).map (fits (room' - ownRoom))).getD otherwise' = true := by
      cases hfound : member? name ms with
      | none =>
        rw [hfound] at h
        exact himp h
      | some v =>
        rw [hfound] at h
        exact ih _ (mem_of_member? hfound) (by omega) h
    unfold fits at h ⊢
    rw [Bool.and_eq_true, Nat.blt_eq, memberFits_eq, memberFits_eq] at h ⊢
    exact ⟨h.1.trans_le hroom, hmember (hmember id) h.2⟩
  | _ => rfl

variable [Scalar ρ]

theorem read_of_fits {definition : Value ρ} (h : fits roomLimit definition = true)
    : read definition = .ok (ofValue definition) := by
  unfold read
  rw [if_pos h]

theorem ofMember_eq (name : String) (ms : Record ρ)
    : ofMember name ms = (member? name ms).map ofValue := by
  induction ms with
  | nil => rfl
  | cons m ms ih =>
    obtain ⟨k, v⟩ := m
    unfold ofMember
    rw [member?_cons, ih]
    split
    . split <;> rfl
    . rfl

theorem ofValues_eq_flatMap (xs : List (Value ρ)) : ofValues xs = xs.flatMap ofValue := by
  induction xs with
  | nil => rfl
  | cons x xs ih =>
    unfold ofValues
    rw [ih]
    rfl

theorem read_null : read (.null : Value ρ) = .ok [] := by
  unfold read fits ofValue
  rfl

/-- The time that an effect takes comes before its actions. -/
theorem compile_eq (definition cost : Value ρ)
    : compile definition cost = do
      let time ← compile .null cost
      let effects ← read definition
      return time ++ effects := by
  unfold compile
  rw [read_null]
  cases cost.finite? with
  | error e => rfl
  | ok hours? =>
    cases read definition with
    | error e => rfl
    | ok effects => simp only [bind, Except.bind, pure, Except.pure, List.append_nil]

/-! ### Trees -/

/-- The tree of the actions of a token or of a mapping: one of them stands for itself. -/
def node : List (Effect ρ) → Expr (Effect ρ)
  | [effect] => .leaf effect
  | effects => .sequence (effects.map .leaf)

mutual

/-- The tree of a definition. -/
def tree : Value ρ → Expr (Effect ρ)
  | .text token => node (ofToken (Text.strip token))
  | .list xs => .flatten (trees xs)
  | .object ms =>
    match treeOfMember "effects" ms with
    | some t => t
    | none => (treeOfMember "effect" ms).getD (node (ofRecord ms))
  | .null => .sequence []
  | .num _ => .sequence []
  | .target .. => .sequence []
  | .pointer .. => .sequence []

def trees : List (Value ρ) → List (Expr (Effect ρ))
  | [] => []
  | x :: xs => tree x :: trees xs

def treeOfMember (name : String) : List (String × Value ρ) → Option (Expr (Effect ρ))
  | [] => none
  | (k, v) :: ms =>
    if k = name then (if v.isNull then none else some (tree v)) else treeOfMember name ms

end

/-- The tree that an effect is played from: the time that it takes, and its definition. -/
def compileTree (definition cost : Value ρ) : Except Fault (Expr (Effect ρ)) := do
  let time ← compile .null cost
  let _ ← read definition
  return .flatten (time.map .leaf ++ [tree definition])

/-- What a part of a sequence contributes to it. -/
def splice : Expr (Effect ρ) → List (Expr (Effect ρ))
  | .sequence children => children
  | e => [e]

omit [Scalar ρ] in
theorem flatten_eq (es : List (Expr (Effect ρ)))
    : Expr.flatten es = .sequence (es.flatMap splice) := by
  unfold Expr.flatten
  congr 2
  funext e
  cases e <;> rfl

omit [Scalar ρ] in
theorem splice_node (effects : List (Effect ρ)) : splice (node effects) = effects.map .leaf := by
  unfold node
  split
  . rfl
  . rfl

theorem trees_eq_map (xs : List (Value ρ)) : trees xs = xs.map tree := by
  induction xs with
  | nil => rfl
  | cons x xs ih =>
    unfold trees
    rw [ih]
    rfl

theorem treeOfMember_eq (name : String) (ms : Record ρ)
    : treeOfMember name ms = (member? name ms).map tree := by
  induction ms with
  | nil => rfl
  | cons m ms ih =>
    obtain ⟨k, v⟩ := m
    unfold treeOfMember
    rw [member?_cons, ih]
    split
    . split <;> rfl
    . rfl

theorem splice_tree (v : Value ρ) : splice (tree v) = (ofValue v).map .leaf := by
  induction v using Value.inductParts with
  | text s =>
    unfold tree ofValue
    exact splice_node _
  | list xs ih =>
    unfold tree ofValue
    rw [trees_eq_map, ofValues_eq_flatMap, flatten_eq]
    change (xs.map tree).flatMap splice = _
    rw [List.flatMap_map, List.map_flatMap]
    exact List.flatMap_congr ih
  | object ms ih =>
    unfold tree ofValue
    rw [treeOfMember_eq, treeOfMember_eq, ofMember_eq, ofMember_eq]
    cases heffects : member? "effects" ms with
    | some v => exact ih _ (mem_of_member? heffects)
    | none =>
      cases heffect : member? "effect" ms with
      | some v => exact ih _ (mem_of_member? heffect)
      | none => exact splice_node _
  | _ =>
    unfold tree ofValue
    rfl

/-- A tree has its actions as children, and nothing else. -/
theorem compileTree_eq (definition cost : Value ρ)
    : compileTree definition cost
      = do return .sequence ((← compile definition cost).map .leaf) := by
  have hleaves (effects : List (Effect ρ)) :
      (effects.map Expr.leaf).flatMap splice = effects.map .leaf := by
    rw [List.flatMap_map]
    exact List.flatMap_pure_eq_map _ _
  rw [compile_eq]
  unfold compileTree
  cases compile .null cost with
  | error e => rfl
  | ok time =>
    cases hread : read definition with
    | error e => rfl
    | ok effects =>
      have heffects : effects = ofValue definition := by
        unfold read at hread
        split at hread
        . exact (Except.ok.inj hread).symm
        . cases hread
      simp only [bind, Except.bind, pure, Except.pure]
      rw [flatten_eq, List.flatMap_append, hleaves, List.flatMap_singleton, splice_tree, heffects,
        List.map_append]

end Effect

/-! ### Calls -/

namespace Crew

/-- What those who carry out actions are asked to do. -/
inductive Call (ρ : Type) where
  | publish (topic : String) (payload : Payload ρ)
  | adjust (name : String) (delta : ρ)
  | note (token : String)

/-- Writes a call down before it is made. -/
def watch (call : Call ρ) (act : Act σ Unit) : Act (σ × List (Call ρ)) Unit := do
  modify fun p => (p.1, p.2 ++ [call])
  Act.onFirst act

/-- Those who carry out actions, with all calls written down. -/
def watched (crew : Crew ρ σ) : Crew ρ (σ × List (Call ρ)) where
  publish := crew.publish.map fun publish topic payload =>
    watch (.publish topic payload) (publish topic payload)
  adjust := crew.adjust.map fun adjust name delta => watch (.adjust name delta) (adjust name delta)
  note := crew.note.map fun note token => watch (.note token) (note token)

/-- A computation does what another one does, and writes down calls. -/
def Traces {γ : Type} (act : Act σ α) (act' : Act (σ × List γ) α) : Prop :=
  ∀ s, ∃ made, ∀ calls, act'.run (s, calls) = ((act.run s).1, (act.run s).2, calls ++ made)

section

variable {β γ : Type} {act : Act σ α} {act' : Act (σ × List γ) α}

theorem traces_pure (a : α) : Traces (pure a : Act σ α) (pure a : Act (σ × List γ) α) :=
  fun s => ⟨[], fun calls => by simp⟩

theorem traces_lift (x : Except Fault α)
    : Traces (Act.lift x : Act σ α) (Act.lift x : Act (σ × List γ) α) :=
  fun s => ⟨[], fun calls => by simp⟩

theorem traces_bind {f : α → Act σ β} {f' : α → Act (σ × List γ) β} (h : Traces act act')
    (hf : ∀ a, Traces (f a) (f' a)) : Traces (act >>= f) (act' >>= f') := by
  intro s
  obtain ⟨made, hmade⟩ := h s
  rcases hrun : act.run s with ⟨e | a, t⟩
  . refine ⟨made, fun calls => ?_⟩
    rw [Act.run_bind, Act.run_bind, hmade, hrun]
  . obtain ⟨made', hmade'⟩ := hf a t
    refine ⟨made ++ made', fun calls => ?_⟩
    rw [Act.run_bind, Act.run_bind, hmade, hrun]
    dsimp only
    rw [hmade', List.append_assoc]

theorem Traces.attempt (h : Traces act act') : Traces (Act.attempt act) (Act.attempt act') := by
  intro s
  obtain ⟨made, hmade⟩ := h s
  exact ⟨made, fun calls => by rw [Act.run_attempt, Act.run_attempt, hmade]⟩

theorem traces_watch (call : Call ρ) (act : Act σ Unit) : Traces act (watch call act) := by
  intro s
  refine ⟨[call], fun calls => ?_⟩
  unfold watch
  rw [Act.run_bind, Act.run_modify]
  rfl

end

theorem traces_announce {crew : Crew ρ σ} (topic : String) (payload : Payload ρ)
    : Traces (crew.announce topic payload) (crew.watched.announce topic payload) := by
  unfold announce watched
  cases crew.publish with
  | none => exact traces_pure ()
  | some publish => exact traces_watch _ _

/-! ### Playing -/

variable [Scalar ρ] {crew : Crew ρ σ}

/-- Plays the children of a tree in order; one that fails is passed over, with all that it still had to
do. -/
def playChildren (crew : Crew ρ σ) (last : Value ρ) : List (Expr (Effect ρ)) → Act σ (Value ρ)
  | [] => return last
  | e :: es => do
    match ← Act.attempt (e.evaluate crew.perform) with
    | .ok v => crew.playChildren (v.orNull last) es
    | .error _ => crew.playChildren last es

theorem playChildren_leaves (last : Value ρ) (effects : List (Effect ρ))
    : crew.playChildren last (effects.map .leaf) = crew.performAll last effects := by
  induction effects generalizing last with
  | nil => rfl
  | cons effect effects ih =>
    have hleaf : (Expr.leaf effect).evaluate crew.perform = crew.perform effect := by
      unfold Expr.evaluate
      rfl
    rw [List.map_cons]
    unfold playChildren performAll
    rw [hleaf]
    congr 1
    funext outcome
    cases outcome with
    | error e => exact ih last
    | ok v => exact ih _

/-- What was played before only counts where nothing has an outcome. -/
theorem performAll_last (last : Value ρ) (effects : List (Effect ρ))
    : crew.performAll last effects = do return (← crew.performAll .null effects).orNull last := by
  induction effects generalizing last with
  | nil => rfl
  | cons effect effects ih =>
    unfold performAll
    rw [bind_assoc]
    congr 1
    funext outcome
    cases outcome with
    | error e => exact ih last
    | ok v =>
      dsimp only
      rw [ih (v.orNull last), ih (v.orNull .null), bind_assoc, Value.orNull_null]
      simp only [pure_bind, Value.orNull_assoc]

theorem run_performAll_snd (last : Value ρ) (effects : List (Effect ρ)) (s : σ)
    : ((crew.performAll last effects).run s).2
      = effects.foldl (fun s effect => ((crew.perform effect).run s).2) s := by
  induction effects generalizing last s with
  | nil => rfl
  | cons effect effects ih =>
    unfold performAll
    rw [Act.run_bind, Act.run_attempt, List.foldl_cons]
    dsimp only
    split
    . exact ih _ _
    . exact ih _ _

theorem exists_run_performAll (crew : Crew ρ σ) (last : Value ρ) (effects : List (Effect ρ)) (s : σ)
    : ∃ v, ((crew.performAll last effects).run s).1 = .ok v := by
  induction effects generalizing last s with
  | nil => exact ⟨last, rfl⟩
  | cons effect effects ih =>
    unfold performAll
    rw [Act.run_bind, Act.run_attempt]
    dsimp only
    split
    . exact ih _ _
    . exact ih _ _

theorem interpret_of_compile {definition cost : Value ρ} {effects : List (Effect ρ)}
    (h : Effect.compile definition cost = .ok effects)
    : crew.interpret definition cost = crew.performAll .null effects := by
  unfold interpret
  rw [h, Act.lift_ok, pure_bind]

/-- The children of the tree are played one by one. -/
theorem interpret_eq_playChildren (crew : Crew ρ σ) (definition cost : Value ρ)
    : crew.interpret definition cost = do
      match ← Act.lift (Effect.compileTree definition cost) with
      | .sequence children => crew.playChildren .null children
      | _ => return .null := by
  rw [Effect.compileTree_eq, interpret]
  cases Effect.compile definition cost with
  | error e => rfl
  | ok effects => exact (playChildren_leaves .null effects).symm

/-- Two effects in one after the other. -/
def interpretBoth (crew : Crew ρ σ) (a b cost : Value ρ) : Act σ (Value ρ) := do
  let u ← crew.interpret a cost
  let v ← crew.interpret b .null
  return v.orNull u

variable {a b cost : Value ρ}

theorem interpret_pair (hfits : Effect.fits Effect.roomLimit (.list [a, b]) = true)
    : crew.interpret (.list [a, b]) cost = crew.interpretBoth a b cost := by
  have hitems := (Effect.fits_list.mp hfits).2
  have hread {x : Value ρ} (hx : x ∈ [a, b]) : Effect.read x = .ok (Effect.ofValue x) :=
    Effect.read_of_fits (Effect.fits_mono (Nat.sub_le _ _) (hitems x hx))
  have hlist : Effect.read (.list [a, b]) = .ok (Effect.ofValue a ++ Effect.ofValue b) := by
    rw [Effect.read_of_fits hfits, Effect.ofValue, Effect.ofValues_eq_flatMap]
    simp
  have hsecond : Effect.compile b .null = .ok (Effect.ofValue b) := by
    rw [Effect.compile_eq, hread (by simp)]
    rfl
  unfold interpretBoth
  rw [interpret_of_compile hsecond]
  unfold interpret
  rw [Effect.compile_eq, Effect.compile_eq a, hlist, hread (x := a) (by simp)]
  cases Effect.compile .null cost with
  | error e => rfl
  | ok time =>
    change crew.performAll .null (time ++ (Effect.ofValue a ++ Effect.ofValue b)) = do
      let u ← crew.performAll .null (time ++ Effect.ofValue a)
      let v ← crew.performAll .null (Effect.ofValue b)
      return v.orNull u
    rw [← List.append_assoc, performAll_append]
    congr 1
    funext u
    exact performAll_last u _

theorem exists_run_interpret (crew : Crew ρ σ) {definition : Value ρ}
    (hfits : Effect.fits Effect.roomLimit definition = true) (hcost : cost.finite?.isOk = true) (s : σ)
    : ∃ v t, (crew.interpret definition cost).run s = (.ok v, t) := by
  obtain ⟨effects, hcompile⟩ : ∃ effects, Effect.compile definition cost = .ok effects := by
    unfold Effect.compile
    rw [Effect.read_of_fits hfits, Fault.eq_ok_getD hcost none]
    exact ⟨_, rfl⟩
  rw [interpret_of_compile hcompile]
  obtain ⟨v, hv⟩ := exists_run_performAll crew .null effects s
  exact ⟨v, _, Prod.ext hv rfl⟩

theorem run_interpret_of_not_fits {definition : Value ρ}
    (h : Effect.fits Effect.roomLimit definition = false) (hcost : cost.finite?.isOk = true) (s : σ)
    : (crew.interpret definition cost).run s = (.error (.tooDeep ""), s) := by
  have hread : Effect.read definition = .error (.tooDeep "") := by
    unfold Effect.read
    rw [if_neg (Bool.eq_false_iff.mp h)]
  unfold interpret Effect.compile
  rw [hread, Fault.eq_ok_getD hcost none]
  rfl

/-- A list of two is played as one after the other, unless it is nested too deep while its first item can
be read and the second one as well, or the first one alone leaves its mark. -/
theorem run_interpret_pair_iff (hcost : cost.finite?.isOk = true) (s : σ)
    : (crew.interpret (.list [a, b]) cost).run s = (crew.interpretBoth a b cost).run s
      ↔ Effect.fits Effect.roomLimit (.list [a, b]) = true
        ∨ Effect.fits Effect.roomLimit a = false
        ∨ Effect.fits Effect.roomLimit b = false ∧ ((crew.interpret a cost).run s).2 = s := by
  cases hlist : Effect.fits Effect.roomLimit (.list [a, b]) with
  | true => exact iff_of_true (by rw [interpret_pair hlist]) (.inl rfl)
  | false =>
    rw [run_interpret_of_not_fits hlist hcost, or_iff_right Bool.false_ne_true]
    unfold interpretBoth
    rw [Act.run_bind]
    cases ha : Effect.fits Effect.roomLimit a with
    | false =>
      rw [run_interpret_of_not_fits ha hcost]
      exact iff_of_true rfl (.inl rfl)
    | true =>
      obtain ⟨u, t, hfirst⟩ := exists_run_interpret crew ha hcost s
      rw [hfirst]
      dsimp only
      rw [Act.run_bind]
      cases hb : Effect.fits Effect.roomLimit b with
      | false =>
        rw [run_interpret_of_not_fits hb rfl]
        simp [eq_comm]
      | true =>
        have hnull : (.null : Value ρ).finite?.isOk = true := rfl
        obtain ⟨v, t', hsecond⟩ := exists_run_interpret crew hb hnull t
        rw [hsecond]
        simp

theorem traces_perform (effect : Effect ρ)
    : Traces (crew.perform effect) (crew.watched.perform effect) := by
  cases effect with
  | go location scene =>
    exact traces_bind (traces_announce _ _) fun _ => traces_pure _
  | trait name delta =>
    unfold perform watched
    cases crew.adjust with
    | none => exact traces_pure _
    | some adjust => exact traces_bind (traces_watch _ _) fun _ => traces_pure _
  | event token args =>
    have hpublished (payload : Payload ρ) : Traces
        (do
          crew.announce (Topic.effect token) payload
          crew.announce token payload
          return (.null : Value ρ))
        (do
          crew.watched.announce (Topic.effect token) payload
          crew.watched.announce token payload
          return .null) := by
      refine traces_bind (traces_announce _ _) fun _ => ?_
      exact traces_bind (traces_announce _ _) fun _ => traces_pure _
    unfold perform
    dsimp only
    have hwatched : crew.watched.note
        = crew.note.map fun note token => watch (.note token) (note token) := rfl
    rw [hwatched]
    cases crew.note with
    | none => exact hpublished _
    | some note => exact traces_bind (traces_watch _ _) fun _ => hpublished _
  | time hours =>
    unfold perform
    dsimp only
    split
    . exact traces_bind (traces_announce _ _) fun _ => traces_pure _
    . exact traces_pure _

theorem traces_performAll (last : Value ρ) (effects : List (Effect ρ))
    : Traces (crew.performAll last effects) (crew.watched.performAll last effects) := by
  induction effects generalizing last with
  | nil => exact traces_pure last
  | cons effect effects ih =>
    unfold performAll
    refine traces_bind (traces_perform effect).attempt fun outcome => ?_
    cases outcome with
    | error e => exact ih last
    | ok v => exact ih _

/-- Watching changes nothing but the list of the calls. -/
theorem traces_interpret (definition cost : Value ρ)
    : Traces (crew.interpret definition cost) (crew.watched.interpret definition cost) :=
  traces_bind (traces_lift _) fun effects => traces_performAll .null effects

/-- A log that refuses all tokens. -/
def refusing : Crew Rat Unit := { note := some fun _ => throw (.collaborator "log") }

end Crew

end Storyworld
