import Referral.Number.Digits
import Referral.Time.Timestamp

namespace Referral

/-- The `n`-th token and the `n`-th reading of the clock, both from 1 on. -/
structure Source where
  token : Nat → String
  reading : Nat → Timestamp

def Source.id (source : Source) (kind : String) (n : Nat) : String := kind ++ "-" ++ source.token n

structure Supply where
  ids : Nat
  readings : Nat
  deriving DecidableEq

namespace Supply

def fresh : Supply := ⟨0, 0⟩

def takeId (source : Source) (kind : String) (s : Supply) : String × Supply :=
  (source.id kind (s.ids + 1), { s with ids := s.ids + 1 })

def readClock (source : Source) (s : Supply) : Timestamp × Supply :=
  (source.reading (s.readings + 1), { s with readings := s.readings + 1 })

end Supply

/-- Tokens numbered in 32 hexadecimal digits, and a clock that moves on by the same step at
every reading. A reading past the last year of the calendar shows the start again. -/
def Source.counting (start : Timestamp) (step : Int) : Source where
  token := hexDigits 32
  reading n := (start.later? (step * ((n : Int) - 1))).getD start

end Referral
