namespace Referral

inductive StackFault where
  | tooDeep
  deriving DecidableEq

/-- A step that is told for how many more calls the stack has room. Counted are the calls that may
nest without bound, and those around them. -/
abbrev Stacked := ReaderT Nat (Except StackFault)

/-- What comes of a step inside so many calls, and otherwise if the stack has no room for them. -/
def inside {α : Type} (otherwise : α) (calls : Nat) (step : Nat → α) (room : Nat) : α :=
  if room < calls then otherwise else step (room - calls)

namespace Stacked

variable {α β γ : Type}

def nest (calls : Nat) (step : Stacked α) : Stacked α := inside (.error .tooDeep) calls step

def both (x : Stacked (Option α)) (y : Stacked (Option β)) (f : α → β → γ) :
    Stacked (Option γ) := do
  match ← x with
  | some a => return (← y).map (f a)
  | none => return none

end Stacked

end Referral
