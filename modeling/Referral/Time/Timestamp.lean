import Referral.Time.Calendar

namespace Referral

structure TimeOfDay where
  hour : Nat
  minute : Nat
  second : Nat
  micro : Nat
  valid : hour < 24 ∧ minute < 60 ∧ second < 60 ∧ micro < 1000000
  deriving DecidableEq

def TimeOfDay.of? (hour minute second micro : Nat) : Option TimeOfDay :=
  if h : hour < 24 ∧ minute < 60 ∧ second < 60 ∧ micro < 1000000 then
    some ⟨hour, minute, second, micro, h⟩
  else none

def TimeOfDay.midnight : TimeOfDay := ⟨0, 0, 0, 0, by decide⟩

def dayMicros : Nat := 86400000000

/-- How far a local clock is ahead of universal time: less than a day either way. -/
structure Offset where
  micros : Int
  valid : micros.natAbs < 86400000000
  deriving DecidableEq

def Offset.of? (micros : Int) : Option Offset :=
  if h : micros.natAbs < 86400000000 then some ⟨micros, h⟩ else none

def Offset.utc : Offset := ⟨0, by decide⟩

structure Timestamp where
  date : Date
  time : TimeOfDay
  offset : Option Offset
  deriving DecidableEq

namespace Timestamp

def isAware (t : Timestamp) : Bool := t.offset.isSome

def wall (t : Timestamp) : Int :=
  (t.date.number * dayMicros + ((t.time.hour * 60 + t.time.minute) * 60 + t.time.second) * 1000000
    + t.time.micro : Nat)

/-- Microseconds of universal time; of the local clock where no offset is known. -/
def instant (t : Timestamp) : Int := t.wall - (t.offset.elim 0 Offset.micros)

def ofWall? (wall : Int) (offset : Option Offset) : Option Timestamp := do
  let seconds := wall.toNat / 1000000
  let date ← Date.ofNumber? (wall.toNat / dayMicros)
  let time ← TimeOfDay.of? (seconds / 3600 % 24) (seconds / 60 % 60) (seconds % 60)
    (wall.toNat % 1000000)
  if wall < 0 then none else some ⟨date, time, offset⟩

def later? (t : Timestamp) (micros : Int) : Option Timestamp := ofWall? (t.wall + micros) t.offset

def ofUnix? (seconds : Int) (micros : Nat) : Option Timestamp :=
  ofWall? ((719163 * 86400 + seconds) * 1000000 + micros) (some Offset.utc)

end Timestamp

end Referral
