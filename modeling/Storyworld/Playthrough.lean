import Storyworld.Session

/-!
This module contains playing through: turns are played, each followed by a save, until the player
leaves, nothing is picked, or the day is over.
-/

namespace Storyworld

/-- Where snapshots are saved, as part of the state that the sources of the story keep; without a
pointer there is none to save. -/
structure Saver (ρ σ : Type) where
  save : Option (Snapshot ρ) → Act σ Bool

/-- A session in play, with the side of the player. -/
structure Playthrough (ρ σ V : Type) where
  session : Session ρ σ
  view : V

namespace Playthrough

variable {ρ σ V : Type} [Scalar ρ]

def nightfall : String := "Night falls over the town. The day is over."

def turn (content : Content ρ σ) (view : View ρ V) : Act (Playthrough ρ σ V) (Value ρ) :=
  Act.within (fun p => ⟨p.session, .null, p.view⟩) (fun seat _ => ⟨seat.play, seat.view⟩)
    (Session.turn content view)

def save (saver : Option (Saver ρ σ)) : Act (Playthrough ρ σ V) Unit := do
  if let some saver := saver then
    let snapshot := (← get).session.snapshot
    let _ ← Act.within session (fun session p => { p with session })
      (Session.onSources (saver.save snapshot))

def savedTurn (content : Content ρ σ) (view : View ρ V) (saver : Option (Saver ρ σ)) :
    Act (Playthrough ρ σ V) (Value ρ) := do
  let result ← Act.attempt (turn content view)
  save saver
  Act.lift result

def leaves (result : Value ρ) : Bool := !result.isGiven || Turn.isId result exitId

/-- Whether so many turns come to a limit; null is none. -/
def reaches (played : Nat) (limit : Value ρ) : Except Fault Bool :=
  if limit.isNull then .ok false else limit.atMost (.int played)

/-- Plays turns after those that were played already; `fuel` bounds their number. -/
def rounds (content : Content ρ σ) (view : View ρ V) (saver : Option (Saver ρ σ))
    (limit : Value ρ) : Nat → Nat → Act (Playthrough ρ σ V) (Value ρ)
  | 0, _ => return .null
  | fuel + 1, played => do
    let result ← savedTurn content view saver
    if leaves result then return result
    if (← get).session.dayEnded then
      Act.within Playthrough.view (fun view p => { p with view }) (view.showMessage nightfall)
      return result
    if ← Act.lift (reaches (played + 1) limit) then return result
    rounds content view saver limit fuel (played + 1)

/-- Plays until the player leaves, nothing is picked, the day is over, or the turns come to a limit;
the result is that of the last turn. -/
def run (content : Content ρ σ) (view : View ρ V) (saver : Option (Saver ρ σ))
    (limit : Value ρ) : Act (Playthrough ρ σ V) (Value ρ) := do
  rounds content view saver limit (view.remaining (← get).view + 1) 0

end Playthrough

end Storyworld
