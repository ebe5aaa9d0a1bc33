import Storyworld.Proofs.Dispatch

/-!
This module contains which failures a bus keeps once a publication has come to its end. Handlers may
publish in turn, and all publications keep their failures in one place, which each of them empties
when it starts. So what is kept at the end are the failures, of whatever publication, since the last
one started.
-/

namespace Storyworld.Bus

variable {η ρ τ σ : Type} [DecidableEq η]

/-! ### Handlers that publish -/

/-- What a handler does when it is called, step by step; it may go by all that it sees. -/
inductive Conduct (η ρ τ : Type) where
  | done
  | stop (e : Fault)
  | look (next : Bus η × τ → Conduct η ρ τ)
  | keep (rest : τ) (next : Conduct η ρ τ)
  | order (command : Command η) (next : Conduct η ρ τ)
  | publish (topic : String) (payload : Payload ρ) (next : Conduct η ρ τ)

/-- Acts on the bus and the rest of a state, where `publish` says how something is published. -/
def Conduct.act (part : σ → Bus η × τ) (put : Bus η × τ → σ → σ)
    (publish : String → Payload ρ → Act σ Unit) : Conduct η ρ τ → Act σ Unit
  | .done => return ()
  | .stop e => throw e
  | .look next => do (next (part (← get))).act part put publish
  | .keep rest next => do
    Act.within part put (modify fun s => (s.1, rest))
    next.act part put publish
  | .order command next => do
    Act.within part put (modify fun s => (command.after s.1, s.2))
    next.act part put publish
  | .publish topic payload next => do
    publish topic payload
    next.act part put publish

/-- Calls handlers, with so much room for publications inside publications; without any a call
stops. -/
def calls (conduct : η → Payload ρ → Conduct η ρ τ) :
    Nat → η → Payload ρ → Act (Bus η × τ) Unit
  | 0, _, _ => throw (.tooDeep "")
  | room + 1, handler, payload =>
    (conduct handler payload).act id (fun t _ => t) fun topic payload =>
      modify (publish Prod.fst (fun f s => (f s.1, s.2)) (calls conduct room) topic payload)

/-- Something that is noted of a publication with so much room: it starts, or one of the handlers
that it calls fails. -/
structure Note where
  room : Nat
  failure : Option Fault

/-- Notes the failures of the calls of a publication. -/
def watched (room : Nat) (call : η → Payload ρ → Act (σ × List Note) Unit) (handler : η)
    (payload : Payload ρ) : Act (σ × List Note) Unit := do
  match ← Act.attempt (call handler payload) with
  | .ok _ => return ()
  | .error e =>
    Act.onSecond (modify (· ++ [⟨room, some e⟩]))
    throw e

/-- Publishes, and notes the start and the failures. -/
def publishNoted (room : Nat) (call : η → Payload ρ → Act ((Bus η × τ) × List Note) Unit)
    (topic : String) (payload : Payload ρ) (s : (Bus η × τ) × List Note) :
    (Bus η × τ) × List Note :=
  publish (fun s => s.1.1) (fun f s => ((f s.1.1, s.1.2), s.2)) (watched room call) topic payload
    (s.1, s.2 ++ [⟨room, none⟩])

/-- Calls handlers as `calls` does, while it is noted which publications start and what fails. -/
def callsNoted (conduct : η → Payload ρ → Conduct η ρ τ) :
    Nat → η → Payload ρ → Act ((Bus η × τ) × List Note) Unit
  | 0, _, _ => throw (.tooDeep "")
  | room + 1, handler, payload =>
    (conduct handler payload).act Prod.fst (fun t s => (t, s.2)) fun topic payload =>
      modify (publishNoted room (callsNoted conduct room) topic payload)

/-! ### Notes change nothing -/

/-- One computation is the other one but for the notes that it takes. -/
def Shadows {α : Type} (act : Act (σ × List Note) α) (plain : Act σ α) : Prop :=
  ∀ s notes, ((act.run (s, notes)).1, (act.run (s, notes)).2.1) = plain.run s

theorem shadows_bind {α β : Type} {act : Act (σ × List Note) α} {plain : Act σ α}
    {f : α → Act (σ × List Note) β} {g : α → Act σ β} (h : Shadows act plain)
    (hf : ∀ a, Shadows (f a) (g a)) : Shadows (act >>= f) (plain >>= g) := by
  intro s notes
  rw [Act.run_bind, Act.run_bind, ← h s notes]
  rcases act.run (s, notes) with ⟨e | a, t, notes'⟩
  . rfl
  . exact hf a t notes'

theorem shadows_act {publish : String → Payload ρ → Act ((Bus η × τ) × List Note) Unit}
    {plain : String → Payload ρ → Act (Bus η × τ) Unit}
    (h : ∀ topic payload, Shadows (publish topic payload) (plain topic payload))
    (conduct : Conduct η ρ τ)
    : Shadows (conduct.act Prod.fst (fun t s => (t, s.2)) publish)
      (conduct.act id (fun t _ => t) plain) := by
  induction conduct with
  | done => exact fun _ _ => rfl
  | stop e => exact fun _ _ => rfl
  | look next ih => exact fun s notes => ih s s notes
  | keep rest next ih => exact shadows_bind (fun _ _ => rfl) fun _ => ih
  | order command next ih => exact shadows_bind (fun _ _ => rfl) fun _ => ih
  | publish topic payload next ih => exact shadows_bind (h topic payload) fun _ => ih

omit [DecidableEq η] in
theorem shadows_watched {call : η → Payload ρ → Act (σ × List Note) Unit}
    {plain : η → Payload ρ → Act σ Unit} {handler : η} {payload : Payload ρ}
    (h : Shadows (call handler payload) (plain handler payload)) (room : Nat)
    : Shadows (watched room call handler payload) (plain handler payload) := by
  intro s notes
  unfold watched
  rw [Act.run_bind, Act.run_attempt, ← h s notes]
  rcases (call handler payload).run (s, notes) with ⟨e | _, t, notes'⟩
  . rfl
  . rfl

omit [DecidableEq η] in
theorem publishNoted_fst {call : η → Payload ρ → Act ((Bus η × τ) × List Note) Unit}
    {plain : η → Payload ρ → Act (Bus η × τ) Unit}
    (h : ∀ handler payload, Shadows (call handler payload) (plain handler payload)) (room : Nat)
    (topic : String) (payload : Payload ρ) (s : Bus η × τ) (notes : List Note)
    : (publishNoted room call topic payload (s, notes)).1
      = publish Prod.fst (fun f s => (f s.1, s.2)) plain topic payload s := by
  have hrows (rows : List (Subscription η)) (s : Bus η × τ) (notes : List Note) :
      (rows.foldl (deliver (fun f s => ((f s.1.1, s.1.2), s.2))
          fun handler => watched room call handler payload) (s, notes)).1
        = rows.foldl (deliver (fun f s => (f s.1, s.2)) fun handler => plain handler payload) s := by
    induction rows generalizing s notes with
    | nil => rfl
    | cons row rows ih =>
      have hcall := shadows_watched (h row.handler payload) room s notes
      rw [List.foldl_cons, List.foldl_cons]
      unfold deliver
      dsimp only
      rw [← hcall]
      rcases (watched room call row.handler payload).run (s, notes) with ⟨e | _, t, notes'⟩
      . exact ih _ _
      . exact ih _ _
  exact hrows _ _ _

theorem shadows_callsNoted (conduct : η → Payload ρ → Conduct η ρ τ) (room : Nat) (handler : η)
    (payload : Payload ρ)
    : Shadows (callsNoted conduct room handler payload) (calls conduct room handler payload) := by
  induction room generalizing handler payload with
  | zero => exact fun _ _ => rfl
  | succ room ih =>
    apply shadows_act
    intro topic payload s notes
    exact Prod.ext rfl (publishNoted_fst ih room topic payload s notes)

/-! ### What the notes tell -/

/-- The failures that are kept after what is noted, where so many were kept before. -/
def follow (kept : List Fault) : List Note → List Fault
  | [] => kept
  | ⟨_, none⟩ :: notes => follow [] notes
  | ⟨_, some e⟩ :: notes => follow (kept ++ [e]) notes

theorem follow_append (kept : List Fault) (notes notes' : List Note)
    : follow kept (notes ++ notes') = follow (follow kept notes) notes' := by
  induction notes generalizing kept with
  | nil => rfl
  | cons note notes ih =>
    obtain ⟨room, _ | e⟩ := note
    . exact ih []
    . exact ih (kept ++ [e])

theorem follow_of_failures {notes : List Note} (h : ∀ note ∈ notes, note.failure.isSome = true)
    (kept : List Fault) : follow kept notes = kept ++ notes.filterMap Note.failure := by
  induction notes generalizing kept with
  | nil => rw [List.filterMap_nil, List.append_nil, follow]
  | cons note notes ih =>
    obtain ⟨room, _ | e⟩ := note
    . cases h _ List.mem_cons_self
    . rw [follow, ih fun note hnote => h note (List.mem_cons_of_mem _ hnote), List.append_assoc]
      rfl

/-- What is noted while one handler is called: nothing, unless it publishes, with less room. -/
structure Inner (room : Nat) (notes : List Note) : Prop where
  room_lt : ∀ note ∈ notes, note.room < room
  starts : ∀ note rest, notes = note :: rest → note.failure = none

theorem inner_nil (room : Nat) : Inner room [] where
  room_lt _ h := by cases h
  starts _ _ h := by cases h

theorem Inner.append {room : Nat} {notes notes' : List Note} (h : Inner room notes)
    (h' : Inner room notes') : Inner room (notes ++ notes') where
  room_lt note hnote := (List.mem_append.mp hnote).elim (h.room_lt note) (h'.room_lt note)
  starts := by
    cases notes with
    | nil => exact h'.starts
    | cons first others =>
      intro note rest heq
      cases heq
      exact h.starts _ _ rfl

/-- What is noted while the handlers of a publication are called one after the other. -/
inductive Outer (room : Nat) : List Note → Prop where
  | none : Outer room []
  | call {inner rest : List Note} (hinner : Inner room inner) (failure : Option Fault)
    (hrest : Outer room rest) :
    Outer room (inner ++ (failure.map fun e => ⟨room, some e⟩).toList ++ rest)

theorem Outer.room_le {room : Nat} {notes : List Note} (h : Outer room notes)
    : ∀ note ∈ notes, note.room ≤ room := by
  induction h with
  | none => exact fun _ h => by cases h
  | call hinner failure _ ih =>
    intro note hnote
    rw [List.mem_append, List.mem_append] at hnote
    rcases hnote with (hnote | hnote) | hnote
    . exact Nat.le_of_lt (hinner.room_lt note hnote)
    . cases failure with
      | none => cases hnote
      | some e =>
        obtain rfl := List.mem_singleton.mp hnote
        exact Nat.le_refl room
    . exact ih note hnote

/-- A computation takes notes, and keeps the failures that these tell. -/
def Tracks (room : Nat) (act : Act ((Bus η × τ) × List Note) Unit) : Prop :=
  ∀ s notes, ∃ inner, Inner room inner ∧ (act.run (s, notes)).2.2 = notes ++ inner
    ∧ (act.run (s, notes)).2.1.1.failures = follow s.1.failures inner

theorem Command.failures_after (command : Command η) (bus : Bus η)
    : (command.after bus).failures = bus.failures := by
  cases command with
  | subscribe topic handler priority =>
    unfold Command.after Bus.subscribe
    dsimp only
    split <;> rfl
  | unsubscribe topic handler =>
    unfold Command.after Bus.unsubscribe
    dsimp only
    split <;> rfl
  | clear => rfl

omit [DecidableEq η] in
theorem tracks_silent {act : Act ((Bus η × τ) × List Note) Unit}
    (h : ∀ s notes, (act.run (s, notes)).2.2 = notes
      ∧ (act.run (s, notes)).2.1.1.failures = s.1.failures) (room : Nat) : Tracks room act :=
  fun s notes => ⟨[], inner_nil room, by rw [(h s notes).1, List.append_nil], (h s notes).2⟩

omit [DecidableEq η] in
theorem tracks_bind {room : Nat} {act : Act ((Bus η × τ) × List Note) Unit}
    {f : Unit → Act ((Bus η × τ) × List Note) Unit} (h : Tracks room act)
    (hf : ∀ a, Tracks room (f a)) : Tracks room (act >>= f) := by
  intro s notes
  obtain ⟨inner, hinner, hnotes, hfailures⟩ := h s notes
  rw [Act.run_bind]
  rcases hrun : act.run (s, notes) with ⟨e | a, t, notes'⟩
  . rw [hrun] at hnotes hfailures
    exact ⟨inner, hinner, hnotes, hfailures⟩
  . rw [hrun] at hnotes hfailures
    dsimp only at hnotes hfailures ⊢
    obtain ⟨inner', hinner', hnotes', hfailures'⟩ := hf a t notes'
    refine ⟨inner ++ inner', hinner.append hinner', ?_, ?_⟩
    . rw [hnotes', hnotes, List.append_assoc]
    . rw [hfailures', hfailures, follow_append]

theorem tracks_act {room : Nat}
    {publish : String → Payload ρ → Act ((Bus η × τ) × List Note) Unit}
    (h : ∀ topic payload, Tracks room (publish topic payload)) (conduct : Conduct η ρ τ)
    : Tracks room (conduct.act Prod.fst (fun t s => (t, s.2)) publish) := by
  induction conduct with
  | done => exact tracks_silent (fun _ _ => ⟨rfl, rfl⟩) room
  | stop e => exact tracks_silent (fun _ _ => ⟨rfl, rfl⟩) room
  | look next ih => exact fun s notes => ih s s notes
  | keep rest next ih => exact tracks_bind (tracks_silent (fun _ _ => ⟨rfl, rfl⟩) room) fun _ => ih
  | order command next ih =>
    refine tracks_bind (tracks_silent (fun s _ => ⟨rfl, ?_⟩) room) fun _ => ih
    exact command.failures_after s.1
  | publish topic payload next ih => exact tracks_bind (h topic payload) fun _ => ih

omit [DecidableEq η] in
/-- A publication notes its start, then what is noted while its handlers are called. -/
theorem publishNoted_outer {room : Nat}
    {call : η → Payload ρ → Act ((Bus η × τ) × List Note) Unit}
    (h : ∀ handler payload, Tracks room (call handler payload)) (topic : String)
    (payload : Payload ρ) (s : Bus η × τ) (notes : List Note)
    : ∃ outer, Outer room outer
      ∧ (publishNoted room call topic payload (s, notes)).2 = notes ++ ⟨room, none⟩ :: outer
      ∧ (publishNoted room call topic payload (s, notes)).1.1.failures = follow [] outer := by
  have hrows (rows : List (Subscription η)) (s : Bus η × τ) (notes : List Note) :
      ∃ outer, Outer room outer
        ∧ (rows.foldl (deliver (fun f s => ((f s.1.1, s.1.2), s.2))
            fun handler => watched room call handler payload) (s, notes)).2 = notes ++ outer
        ∧ (rows.foldl (deliver (fun f s => ((f s.1.1, s.1.2), s.2))
            fun handler => watched room call handler payload) (s, notes)).1.1.failures
          = follow s.1.failures outer := by
    induction rows generalizing s notes with
    | nil => exact ⟨[], .none, by rw [List.append_nil]; rfl, rfl⟩
    | cons row rows ih =>
      obtain ⟨inner, hinner, hnotes, hfailures⟩ := h row.handler payload s notes
      rw [List.foldl_cons]
      unfold deliver watched
      dsimp only
      rw [Act.run_bind, Act.run_attempt]
      rcases hrun : (call row.handler payload).run (s, notes) with ⟨e | _, t, notes'⟩
      . -- the failure is noted and then kept, behind all that the handler has left
        rw [hrun] at hnotes hfailures
        dsimp only at hnotes hfailures ⊢
        obtain ⟨outer, houter, hnotes', hfailures'⟩ :=
          ih (record e t.1, t.2) (notes' ++ [⟨room, some e⟩])
        refine ⟨_, houter.call hinner (some e), ?_, ?_⟩
        . refine hnotes'.trans ?_
          rw [hnotes]
          simp
        . refine hfailures'.trans ?_
          rw [follow_append, follow_append, ← hfailures]
          rfl
      . rw [hrun] at hnotes hfailures
        dsimp only at hnotes hfailures ⊢
        obtain ⟨outer, houter, hnotes', hfailures'⟩ := ih t notes'
        refine ⟨_, houter.call hinner none, ?_, ?_⟩
        . refine hnotes'.trans ?_
          rw [hnotes]
          simp
        . refine hfailures'.trans ?_
          rw [follow_append, follow_append, ← hfailures]
          rfl
  obtain ⟨outer, houter, hnotes, hfailures⟩ :=
    hrows (((forget s.1, s.2).1).reached topic) (forget s.1, s.2) (notes ++ [⟨room, none⟩])
  refine ⟨outer, houter, ?_, hfailures⟩
  refine hnotes.trans ?_
  rw [List.append_assoc]
  rfl

theorem tracks_callsNoted (conduct : η → Payload ρ → Conduct η ρ τ) (room : Nat) (handler : η)
    (payload : Payload ρ) : Tracks room (callsNoted conduct room handler payload) := by
  induction room generalizing handler payload with
  | zero => exact tracks_silent (fun _ _ => ⟨rfl, rfl⟩) 0
  | succ room ih =>
    apply tracks_act
    intro topic payload s notes
    obtain ⟨outer, houter, hnotes, hfailures⟩ := publishNoted_outer ih topic payload s notes
    refine ⟨⟨room, none⟩ :: outer, ?_, hnotes, hfailures⟩
    constructor
    case room_lt =>
      intro note hnote
      rcases List.mem_cons.mp hnote with rfl | hnote
      . exact room.lt_succ_self
      . exact Nat.lt_succ_of_le (houter.room_le note hnote)
    case starts =>
      intro note rest heq
      cases heq
      rfl

/-! ### Since the last start -/

/-- Notes that end behind the last start with failures of other publications, then with own ones. -/
structure Ending (room : Nat) (notes before : List Note) (start : Note) (others own : List Note) :
    Prop where
  notes_eq : notes = before ++ start :: (others ++ own)
  start_eq : start.failure = none
  failures : ∀ note ∈ others ++ own, note.failure.isSome = true
  others_lt : ∀ note ∈ others, note.room < room
  own_eq : ∀ note ∈ own, note.room = room

theorem last_start (notes : List Note)
    : (∀ note ∈ notes, note.failure.isSome = true)
      ∨ ∃ before start after, notes = before ++ start :: after ∧ start.failure = none
        ∧ ∀ note ∈ after, note.failure.isSome = true := by
  induction notes with
  | nil => exact .inl fun _ h => by cases h
  | cons first notes ih =>
    rcases ih with hfailures | ⟨before, start, after, rfl, hstart, hafter⟩
    . obtain ⟨room, _ | e⟩ := first
      . exact .inr ⟨[], _, notes, rfl, rfl, hfailures⟩
      . exact .inl (List.forall_mem_cons.mpr ⟨rfl, hfailures⟩)
    . exact .inr ⟨first :: before, start, after, rfl, hstart, hafter⟩

theorem Outer.ending {room : Nat} {notes : List Note} (h : Outer room notes)
    : (∀ note ∈ notes, note.failure.isSome = true ∧ note.room = room)
      ∨ ∃ before start others own, Ending room notes before start others own := by
  induction h with
  | none => exact .inl fun _ h => by cases h
  | @call inner rest hinner failure _ ih =>
    have hfailure : ∀ note ∈ (failure.map fun e => (⟨room, some e⟩ : Note)).toList,
        note.failure.isSome = true ∧ note.room = room := by
      cases failure with
      | none => exact fun _ h => by cases h
      | some e => exact fun note hnote => List.mem_singleton.mp hnote ▸ ⟨rfl, rfl⟩
    rcases ih with hown | ⟨before, start, others, own, hending⟩
    . have hrest := List.forall_mem_append.mpr ⟨hfailure, hown⟩
      rcases last_start inner with hinner' | ⟨before, start, after, rfl, hstart, hafter⟩
      . -- what is noted while a handler is called starts with a start
        obtain rfl : inner = [] := by
          cases inner with
          | nil => rfl
          | cons note rest =>
            have hsome := hinner' note List.mem_cons_self
            rw [hinner.starts note rest rfl] at hsome
            cases hsome
        exact .inl (by simpa using hrest)
      . refine .inr ⟨before, start, after, _, by simp, hstart, ?_, ?_, fun note h => (hrest note h).2⟩
        . exact List.forall_mem_append.mpr ⟨hafter, fun note h => (hrest note h).1⟩
        . exact fun note hnote => hinner.room_lt note (by simp [hnote])
    . refine .inr ⟨inner ++ (failure.map fun e => ⟨room, some e⟩).toList ++ before, start, others,
        own, ?_, hending.start_eq, hending.failures, hending.others_lt, hending.own_eq⟩
      rw [hending.notes_eq, List.append_assoc _ before]

/-- The failures among notes of publications with so much room. -/
def failuresAt (room : Nat) (notes : List Note) : List Fault :=
  (notes.filter fun note => note.room = room).filterMap Note.failure

/-- The failures among notes of all other publications. -/
def failuresElsewhere (room : Nat) (notes : List Note) : List Fault :=
  (notes.filter fun note => note.room ≠ room).filterMap Note.failure

theorem failuresAt_append (room : Nat) (notes notes' : List Note)
    : failuresAt room (notes ++ notes') = failuresAt room notes ++ failuresAt room notes' := by
  unfold failuresAt
  rw [List.filter_append, List.filterMap_append]

section

variable {room : Nat} {notes before others own : List Note} {start : Note}
  (h : Ending room notes before start others own)

include h

theorem Ending.follow_eq (kept : List Fault)
    : follow kept notes = (others ++ own).filterMap Note.failure := by
  obtain ⟨room', failure⟩ := start
  obtain rfl : failure = none := h.start_eq
  rw [h.notes_eq, follow_append, follow, follow_of_failures h.failures, List.nil_append]

theorem Ending.failuresAt_eq
    : failuresAt room notes = failuresAt room before ++ own.filterMap Note.failure := by
  have hstart : failuresAt room [start] = [] := by
    unfold failuresAt
    by_cases hroom : start.room = room
    . rw [List.filter_cons_of_pos (by simpa using hroom), List.filter_nil,
        List.filterMap_cons_none h.start_eq, List.filterMap_nil]
    . rw [List.filter_cons_of_neg (by simpa using hroom), List.filter_nil, List.filterMap_nil]
  have hothers : failuresAt room others = [] := by
    unfold failuresAt
    rw [List.filter_eq_nil_iff.mpr, List.filterMap_nil]
    intro note hnote
    simpa using Nat.ne_of_lt (h.others_lt note hnote)
  have hown : failuresAt room own = own.filterMap Note.failure := by
    unfold failuresAt
    rw [List.filter_eq_self.mpr]
    intro note hnote
    simpa using h.own_eq note hnote
  rw [h.notes_eq, failuresAt_append, ← List.singleton_append, failuresAt_append, failuresAt_append,
    hstart, hothers, hown, List.nil_append, List.nil_append]

theorem Ending.failuresElsewhere_eq
    : failuresElsewhere room (others ++ own) = others.filterMap Note.failure := by
  have hothers : others.filter (fun note => note.room ≠ room) = others := by
    rw [List.filter_eq_self]
    intro note hnote
    simpa using Nat.ne_of_lt (h.others_lt note hnote)
  have hown : own.filter (fun note => note.room ≠ room) = [] := by
    rw [List.filter_eq_nil_iff]
    intro note hnote
    simpa using h.own_eq note hnote
  unfold failuresElsewhere
  rw [List.filter_append, hothers, hown, List.append_nil]

end

/-- The failures that are kept when a publication has come to its end are those since the last start
of a publication, its own or one inside it. They are the failures of the handlers that it has called
itself if, and only if, its own failures before that start are, one by one, those of other
publications behind it: where no handler publishes, there are neither. -/
theorem failures_own_iff (conduct : η → Payload ρ → Conduct η ρ τ) (room : Nat) (topic : String)
    (payload : Payload ρ) (s : Bus η × τ)
    : let played := publishNoted room (callsNoted conduct room) topic payload (s, [])
      played.1 = publish Prod.fst (fun f s => (f s.1, s.2)) (calls conduct room) topic payload s
        ∧ ∃ before start after, played.2 = before ++ start :: after ∧ start.failure = none
          ∧ (∀ note ∈ after, note.failure.isSome = true)
          ∧ played.1.1.failures = after.filterMap Note.failure
          ∧ (played.1.1.failures = failuresAt room played.2
            ↔ failuresAt room before = failuresElsewhere room after) := by
  intro played
  refine ⟨publishNoted_fst (shadows_callsNoted conduct room) room topic payload s [], ?_⟩
  obtain ⟨outer, houter, hnotes, hfailures⟩ :=
    publishNoted_outer (tracks_callsNoted conduct room) topic payload s []
  rw [List.nil_append] at hnotes
  obtain ⟨before, start, others, own, hending⟩ :
      ∃ before start others own, Ending room (⟨room, none⟩ :: outer) before start others own := by
    rcases houter.ending with hown | ⟨before, start, others, own, hending⟩
    . refine ⟨[], _, [], outer, rfl, rfl, fun note h => (hown note h).1, ?_, fun note h => (hown note h).2⟩
      exact fun _ h => by cases h
    . refine ⟨⟨room, none⟩ :: before, start, others, own, ?_, hending.start_eq, hending.failures,
        hending.others_lt, hending.own_eq⟩
      rw [hending.notes_eq, List.cons_append]
  have hkept : played.1.1.failures = (others ++ own).filterMap Note.failure :=
    hfailures.trans (hending.follow_eq [])
  refine ⟨before, start, others ++ own, hnotes.trans hending.notes_eq, hending.start_eq,
    hending.failures, hkept, ?_⟩
  have hown : failuresAt room played.2 = failuresAt room before ++ own.filterMap Note.failure := by
    rw [← hending.failuresAt_eq, ← hnotes]
  rw [hkept, hown, hending.failuresElsewhere_eq, List.filterMap_append, List.append_left_inj]
  exact eq_comm

/-- A handler fails before another one publishes something that nobody waits for, and its failure
is lost. -/
example
    : let conduct (handler : String) (_ : Payload Rat) : Conduct String Rat Unit :=
        if handler = "fails" then .stop .missingPart else .publish "mood" (.value .null) .done
      let bus := ((({} : Bus String).subscribe "go" "fails" 10).subscribe "go" "tells" 20)
      (publish Prod.fst (fun f s => (f s.1, s.2)) (calls conduct 2) "go" (.value .null)
        (bus, ())).1.failures = [] := by
  cbv

end Storyworld.Bus
